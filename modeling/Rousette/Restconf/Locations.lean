import Rousette.Libyang.Calls

/-!
# Rewriting of locations

Every `GET` response passes through `replaceYangLibraryLocations` of
`restconf/YangSchemaLocations.cpp` and `replaceStreamLocations` of
`restconf/NotificationStream.cpp`, which replace the locations of YANG modules and
of notification streams by the URLs under which the client reaches them.

Both collect nodes by an XPath of plain child steps and then change leafs directly
below these nodes.  The steps are given by module and name; a name without a module
takes the one of the step before it.
-/

namespace Rousette.Restconf.Locations

open Library Libyang

/-- A module and a name. -/
abbrev QName := Str × Str

variable {S : Type} (calls : Calls S)

/-- The qualified name of a node. -/
def qname (data : NodeData S) : QName :=
  (calls.ctx.moduleName data.schema, calls.ctx.name data.schema)

/-- An XPath of child steps in one module. -/
def stepsIn (moduleName : Str) (names : List String) : List QName :=
  names.map fun name => (moduleName, str name)

/-- `moduleNodesXPath` -/
def moduleNodesXPath : List (List QName) :=
  [["yang-library", "module-set", "module"],
    ["yang-library", "module-set", "module", "submodule"],
    ["yang-library", "module-set", "import-only-module"],
    ["yang-library", "module-set", "import-only-module", "submodule"],
    ["modules-state", "module"],
    ["modules-state", "module", "submodule"]].map (stepsIn (str "ietf-yang-library"))

/-- `streamListXPath + "/access"` -/
def streamAccessXPath : List QName :=
  stepsIn (str "ietf-restconf-monitoring") ["restconf-state", "streams", "stream", "access"]

/-- `yangSchemaRoot` -/
def yangSchemaRoot : Str := str "/yang/"

/-- `rousetteURIScheme` -/
def rousetteURIScheme : Str := str "x-cesnet-rousette:"

/-- A node of the module with one of the names. -/
def isNamed (moduleName : Str) (names : List String) (data : NodeData S) : Bool :=
  (stepsIn moduleName names).contains (qname calls data)

/-- The child of this name in the module of the node, as `findPath` of a single step
gives it. -/
def findChild (node : DataNode S) (name : String) : Option (DataNode S) :=
  node.children.find? fun child =>
    isNamed calls (calls.ctx.moduleName node.schema) [name] child.label

/-- Is the node matched by `location | schema` below an entry of the YANG library? -/
def isModuleLocation (data : NodeData S) : Bool :=
  isNamed calls (str "ietf-yang-library") ["location", "schema"] data

/-- Is the node a `location` leaf of a stream? -/
def isStreamLocation (data : NodeData S) : Bool :=
  isNamed calls (str "ietf-restconf-monitoring") ["location"] data

/-- The part of the URL which names the module of an entry. -/
def moduleUrl (node : DataNode S) : Option Str :=
  (findChild calls node "name").map fun nameNode =>
    match findChild calls node "revision" with
    | some revisionNode =>
        if revisionNode.valueStr.isEmpty then nameNode.valueStr
        else nameNode.valueStr ++ str "@" ++ revisionNode.valueStr
    | none => nameNode.valueStr

/-- Leafs of the new locations: the first step of the path tells which of the two lists
of modules an entry belongs to. -/
def locationLeafName (path : List QName) : Str :=
  if path.head? = some (str "ietf-yang-library", str "modules-state") then str "schema"
  else str "location"

/-- The body of the loop of `replaceYangLibraryLocations`. -/
def relocateModule (schemeAndHost : Option Str) (urlPrefix : Str) :
    Tree.Plan (NodeData S) QName Exception := fun path node =>
  let unlink : List (DataNode S) → List (DataNode S) :=
    List.filter fun child => !isModuleLocation calls child.label
  match schemeAndHost with
  | none => .ok unlink
  | some schemeAndHost =>
      if node.children.any fun child => isModuleLocation calls child.label then
        match moduleUrl calls node with
        | none => .error .undefined
        | some url => do
            let created ← raise (calls.newPath node (locationLeafName path)
              (schemeAndHost ++ urlPrefix ++ url))
            return fun children => unlink children ++ [created]
      else .ok unlink

/-- `replaceYangLibraryLocations` -/
def replaceYangLibraryLocations (schemeAndHost : Option Str) (urlPrefix : Str)
    (data : Forest S) : Except Exception (Forest S) :=
  Tree.rewriteAll (qname calls) (moduleNodesXPath.contains ·)
    (relocateModule calls schemeAndHost urlPrefix) [] data

/-- The body of the loop of `replaceStreamLocations`. A leaf occurs at most once. -/
def relocateStream (schemeAndHost : Option Str) :
    Tree.Plan (NodeData S) QName Exception := fun _ node =>
  match findChild calls node "location" with
  | none => .error .undefined
  | some locationNode =>
      match schemeAndHost with
      | none => .ok (List.filter fun child => !isStreamLocation calls child.label)
      | some schemeAndHost => do
          let updated ← raise (calls.newPath node (str "location")
            (schemeAndHost ++ locationNode.valueStr.drop rousetteURIScheme.length))
          return List.map fun child =>
            if isStreamLocation calls child.label then updated else child

/-- `replaceStreamLocations` -/
def replaceStreamLocations (schemeAndHost : Option Str) (data : Forest S) :
    Except Exception (Forest S) :=
  Tree.rewriteAll (qname calls) (· == streamAccessXPath) (relocateStream calls schemeAndHost)
    [] data

/-- What `GET` does to the data before they are printed. -/
def replaceLocations (schemeAndHost : Option Str) (data : Forest S) :
    Except Exception (Forest S) := do
  let data ← replaceYangLibraryLocations calls schemeAndHost yangSchemaRoot data
  replaceStreamLocations calls schemeAndHost data

/-! ## What is rewritten, and what is not -/

/-- The result of `findXPath(moduleNodesXPath)`. -/
def moduleEntries (data : Forest S) : List (List QName × DataNode S) :=
  Tree.selectAll (qname calls) (moduleNodesXPath.contains ·) [] data

/-- The result of `findXPath(streamListXPath + "/access")`. -/
def accessEntries (data : Forest S) : List (List QName × DataNode S) :=
  Tree.selectAll (qname calls) (· == streamAccessXPath) [] data

/-- The locations in an entry of the YANG library. -/
def locations (node : DataNode S) : List (DataNode S) :=
  node.children.filter fun child => isModuleLocation calls child.label

/-- The children of an entry without the locations. -/
def unlinked (children : List (DataNode S)) : List (DataNode S) :=
  children.filter fun child => !isModuleLocation calls child.label

/-- Is the node neither a location of a module nor one of a stream? -/
def isKept (data : NodeData S) : Bool :=
  !isModuleLocation calls data && !isStreamLocation calls data

/-- The data without the locations of modules and streams. -/
def withoutLocations (data : Forest S) : Forest S :=
  Tree.stripAll (qname calls)
    (fun path => moduleNodesXPath.contains path || path == streamAccessXPath) (isKept calls) []
    data

/-- The rewriting returns, and nothing but locations has changed. -/
def Relocates (schemeAndHost : Option Str) (data : Forest S) : Prop :=
  ∃ after, replaceLocations calls schemeAndHost data = .ok after ∧
    withoutLocations calls after = withoutLocations calls data

/-- The entries of the YANG library have the leaf `name`, which is a key of theirs. -/
def Keyed (data : Forest S) : Prop :=
  ∀ entry ∈ moduleEntries calls data, ∃ nameNode, findChild calls entry.2 "name" = some nameNode

/-- The entries for the access to streams have the leaf `location`, which is not a key. -/
def Located (data : Forest S) : Prop :=
  ∀ entry ∈ accessEntries calls data,
    ∃ locationNode, findChild calls entry.2 "location" = some locationNode

/-- libyang takes the new locations as values of their type. -/
def Storable (schemeAndHost : Option Str) (data : Forest S) : Prop :=
  ∀ host ∈ schemeAndHost,
    (∀ entry ∈ moduleEntries calls data,
      (∃ child ∈ entry.2.children, isModuleLocation calls child.label = true) →
      ∀ url ∈ moduleUrl calls entry.2, ∃ created,
        calls.newPath entry.2 (locationLeafName entry.1) (host ++ yangSchemaRoot ++ url) =
          .ok created) ∧
    ∀ entry ∈ accessEntries calls data,
      ∀ locationNode ∈ findChild calls entry.2 "location", ∃ updated,
        calls.newPath entry.2 (str "location")
          (host ++ locationNode.valueStr.drop rousetteURIScheme.length) = .ok updated

/-- `newPath` of a single step creates a node of this name, in the module of the parent. -/
def CreatesNamed : Prop :=
  ∀ {node name value created}, calls.newPath node name value = .ok created →
    qname calls created.label = (calls.ctx.moduleName node.schema, name)

variable {calls}

/-- The steps of an XPath are all in one module. -/
theorem moduleName_of_stepsIn {moduleName : Str} {names : List String} {above : List QName}
    {step : QName} (path : above ++ [step] = stepsIn moduleName names) :
    step.1 = moduleName := by
  have member : step ∈ stepsIn moduleName names := by
    rw [← path]
    simp
  obtain ⟨name, _, rfl⟩ := List.mem_map.mp member
  rfl

theorem moduleName_of_moduleNodesXPath {above : List QName} {step : QName}
    (selected : moduleNodesXPath.contains (above ++ [step]) = true) :
    step.1 = str "ietf-yang-library" := by
  rw [List.contains_iff_mem, moduleNodesXPath, List.mem_map] at selected
  obtain ⟨names, _, path⟩ := selected
  exact moduleName_of_stepsIn path.symm

theorem isModuleLocation_of_qname {data : NodeData S} {path : List QName}
    (named : qname calls data = (str "ietf-yang-library", locationLeafName path)) :
    isModuleLocation calls data = true := by
  simp only [isModuleLocation, isNamed, stepsIn, named, locationLeafName]
  split <;> simp

theorem isStreamLocation_of_qname {data : NodeData S}
    (named : qname calls data = (str "ietf-restconf-monitoring", str "location")) :
    isStreamLocation calls data = true := by
  simp [isStreamLocation, isNamed, stepsIn, named]

/-- Removing nodes which are not kept anyway. -/
theorem filter_isKept_filter {remove : NodeData S → Bool}
    (removed : ∀ data, remove data = true → isKept calls data = false)
    (children : List (DataNode S)) :
    (children.filter fun child => !remove child.label).filter
        (fun child => isKept calls child.label) =
      children.filter fun child => isKept calls child.label := by
  rw [List.filter_filter]
  congr 1
  funext child
  cases removal : remove child.label with
  | false => simp
  | true => simp [removed _ removal]

theorem isKept_of_isModuleLocation (data : NodeData S)
    (location : isModuleLocation calls data = true) : isKept calls data = false := by
  simp [isKept, location]

theorem isKept_of_isStreamLocation (data : NodeData S)
    (location : isStreamLocation calls data = true) : isKept calls data = false := by
  simp [isKept, location]

/-- What is done to an entry: its locations are removed, and if there were any, and scheme
and host are known, a new one is added. -/
theorem relocateModule_cases {schemeAndHost : Option Str} {urlPrefix : Str} {path : List QName}
    {node : DataNode S} {edit : List (DataNode S) → List (DataNode S)}
    (planned : relocateModule calls schemeAndHost urlPrefix path node = .ok edit) :
    ((schemeAndHost = none ∨ locations calls node = []) ∧ edit = unlinked calls) ∨
      ∃ host url created, schemeAndHost = some host ∧ moduleUrl calls node = some url ∧
        calls.newPath node (locationLeafName path) (host ++ urlPrefix ++ url) = .ok created ∧
        edit = fun children => unlinked calls children ++ [created] := by
  have located : locations calls node ≠ [] ↔
      (node.children.any fun child => isModuleLocation calls child.label) = true := by
    simp [locations, List.filter_eq_nil_iff]
  cases schemeAndHost with
  | none =>
      left
      cases planned
      exact ⟨.inl rfl, rfl⟩
  | some host =>
      simp only [relocateModule] at planned
      split at planned
      · split at planned
        · cases planned
        next url encoded =>
          right
          simp only [except_bind_eq_ok, raise_eq_ok] at planned
          obtain ⟨created, stored, result⟩ := planned
          cases result
          exact ⟨host, url, created, rfl, encoded, stored, rfl⟩
      next absent =>
        left
        cases planned
        exact ⟨.inr (not_not.mp (mt located.mp absent)), rfl⟩

/-- What is created below an entry is a location. -/
theorem isModuleLocation_created {above : List QName} {node created : DataNode S}
    (selected : moduleNodesXPath.contains (above ++ [qname calls node.label]) = true)
    (named : qname calls created.label = (calls.ctx.moduleName node.schema,
      locationLeafName (above ++ [qname calls node.label]))) :
    isModuleLocation calls created.label = true := by
  have library : calls.ctx.moduleName node.schema = str "ietf-yang-library" :=
    moduleName_of_moduleNodesXPath selected
  rw [library] at named
  exact isModuleLocation_of_qname named

/-- Relocating a module changes its locations only. -/
theorem relocateModule_keeps (named : CreatesNamed calls) {schemeAndHost : Option Str}
    {urlPrefix : Str} {above : List QName} {node : DataNode S}
    {edit : List (DataNode S) → List (DataNode S)}
    (selected : moduleNodesXPath.contains (above ++ [qname calls node.label]) = true)
    (planned : relocateModule calls schemeAndHost urlPrefix (above ++ [qname calls node.label])
      node = .ok edit) (children : List (DataNode S)) :
    (edit children).filter (fun child => isKept calls child.label) =
      children.filter fun child => isKept calls child.label := by
  have kept := filter_isKept_filter (@isKept_of_isModuleLocation S calls) children
  rcases relocateModule_cases planned with ⟨_, rfl⟩ | ⟨_, _, created, _, _, stored, rfl⟩
  · exact kept
  · have location := isModuleLocation_created selected (named stored)
    rw [List.filter_append, unlinked, kept]
    simp [isKept_of_isModuleLocation _ location]

/-- Relocating a stream changes its location only. -/
theorem relocateStream_keeps (named : CreatesNamed calls) {schemeAndHost : Option Str}
    {above : List QName} {node : DataNode S} {edit : List (DataNode S) → List (DataNode S)}
    (selected : (above ++ [qname calls node.label] == streamAccessXPath) = true)
    (planned : relocateStream calls schemeAndHost (above ++ [qname calls node.label])
      node = .ok edit) (children : List (DataNode S)) :
    (edit children).filter (fun child => isKept calls child.label) =
      children.filter fun child => isKept calls child.label := by
  unfold relocateStream at planned
  split at planned
  · cases planned
  · split at planned
    · cases planned
      exact filter_isKept_filter isKept_of_isStreamLocation children
    · rw [except_bind_eq_ok] at planned
      obtain ⟨updated, stored, result⟩ := planned
      cases result
      have monitoring : calls.ctx.moduleName node.schema = str "ietf-restconf-monitoring" :=
        moduleName_of_stepsIn (beq_iff_eq.mp selected)
      have name := named (raise_eq_ok.mp stored)
      rw [monitoring] at name
      have location := isStreamLocation_of_qname name
      induction children with
      | nil => rfl
      | cons child rest ih =>
          rw [List.map_cons, List.filter_cons, List.filter_cons, ih]
          cases streamLocation : isStreamLocation calls child.label with
          | false => simp
          | true =>
              simp [isKept_of_isStreamLocation _ streamLocation,
                isKept_of_isStreamLocation _ location]

/-- When an entry of the YANG library can be relocated. -/
theorem relocateModule_isOk_iff {schemeAndHost : Option Str} {path : List QName}
    {node : DataNode S} (keyed : ∃ nameNode, findChild calls node "name" = some nameNode) :
    (∃ edit, relocateModule calls schemeAndHost yangSchemaRoot path node = .ok edit) ↔
      ∀ host ∈ schemeAndHost,
        (∃ child ∈ node.children, isModuleLocation calls child.label = true) →
        ∀ url ∈ moduleUrl calls node, ∃ created,
          calls.newPath node (locationLeafName path) (host ++ yangSchemaRoot ++ url) =
            .ok created := by
  obtain ⟨nameNode, name⟩ := keyed
  cases schemeAndHost with
  | none => simp [relocateModule]
  | some host =>
      simp only [relocateModule, Option.mem_def, Option.some.injEq, forall_eq']
      by_cases located : (node.children.any fun child =>
        isModuleLocation calls child.label) = true
      · have present := List.any_eq_true.mp located
        simp only [located, if_true, moduleUrl, name, Option.map_some, except_bind_eq_ok,
          raise_eq_ok, pure, Except.pure, Option.some.injEq, forall_eq', present, forall_const]
        constructor
        · rintro ⟨_, created, stored, _⟩
          exact ⟨created, stored⟩
        · rintro ⟨created, stored⟩
          exact ⟨_, created, stored, rfl⟩
      · simp only [located, if_false, Bool.false_eq_true, Except.ok.injEq, exists_eq',
          true_iff]
        intro present
        exact absurd (List.any_eq_true.mpr present) located

/-- When an entry for the access to a stream can be relocated. -/
theorem relocateStream_isOk_iff {schemeAndHost : Option Str} {path : List QName}
    {node : DataNode S} :
    (∃ edit, relocateStream calls schemeAndHost path node = .ok edit) ↔
      (∃ locationNode, findChild calls node "location" = some locationNode) ∧
      ∀ host ∈ schemeAndHost, ∀ locationNode ∈ findChild calls node "location", ∃ updated,
        calls.newPath node (str "location")
          (host ++ locationNode.valueStr.drop rousetteURIScheme.length) = .ok updated := by
  unfold relocateStream
  cases findChild calls node "location" with
  | none => simp
  | some locationNode =>
      cases schemeAndHost with
      | none => simp
      | some host =>
          simp only [except_bind_eq_ok, raise_eq_ok, pure, Except.pure, Option.mem_def,
            Option.some.injEq, forall_eq', exists_eq', true_and]
          constructor
          · rintro ⟨_, updated, stored, _⟩
            exact ⟨updated, stored⟩
          · rintro ⟨updated, stored⟩
            exact ⟨_, updated, stored, rfl⟩

/-- The entries of the YANG library and those for the access to streams are in different
trees. -/
theorem roots_apart (root : QName) :
    (∀ below, moduleNodesXPath.contains (root :: below) = false) ∨
      ∀ below, (root :: below == streamAccessXPath) = false := by
  by_cases stream : root = (str "ietf-restconf-monitoring", str "restconf-state")
  · left
    intro below
    rw [stream, List.contains_eq_mem, decide_eq_false_iff_not, moduleNodesXPath, List.mem_map]
    rintro ⟨names, member, path⟩
    have head := congrArg List.head? path
    revert member head
    cases names with
    | nil => simp
    | cons first rest =>
        intro _ head
        simp only [stepsIn, List.map_cons, List.head?_cons, Option.some.injEq,
          Prod.mk.injEq] at head
        exact absurd head.1 (by decide)
  · right
    intro below
    rw [beq_eq_false_iff_ne]
    intro path
    exact stream (List.cons.inj path).1

/-- The first rewriting does not change which entries the second one finds. -/
theorem accessEntries_replaceYangLibraryLocations {schemeAndHost : Option Str}
    {urlPrefix : Str} {data after : Forest S}
    (done : replaceYangLibraryLocations calls schemeAndHost urlPrefix data = .ok after) :
    accessEntries calls after = accessEntries calls data :=
  Tree.selectAll_rewriteAll roots_apart done

theorem withoutLocations_replaceYangLibraryLocations (named : CreatesNamed calls)
    {schemeAndHost : Option Str} {urlPrefix : Str} {data after : Forest S}
    (done : replaceYangLibraryLocations calls schemeAndHost urlPrefix data = .ok after) :
    withoutLocations calls after = withoutLocations calls data :=
  Tree.stripAll_rewriteAll (fun path selected => by simp only [selected, Bool.true_or])
    (relocateModule_keeps named) [] data done

theorem withoutLocations_replaceStreamLocations (named : CreatesNamed calls)
    {schemeAndHost : Option Str} {data after : Forest S}
    (done : replaceStreamLocations calls schemeAndHost data = .ok after) :
    withoutLocations calls after = withoutLocations calls data :=
  Tree.stripAll_rewriteAll (fun path selected => by simp only [selected, Bool.or_true])
    (relocateStream_keeps named) [] data done

/-- Locations are rewritten exactly if every entry for the access to a stream has the leaf
`location`, and libyang takes the new texts. -/
theorem relocates_iff {schemeAndHost : Option Str} {data : Forest S}
    (named : CreatesNamed calls) (keyed : Keyed calls data) :
    Relocates calls schemeAndHost data ↔
      Located calls data ∧ Storable calls schemeAndHost data := by
  have modules : (∃ after,
      replaceYangLibraryLocations calls schemeAndHost yangSchemaRoot data = .ok after) ↔
      ∀ entry ∈ moduleEntries calls data, ∀ host ∈ schemeAndHost,
        (∃ child ∈ entry.2.children, isModuleLocation calls child.label = true) →
        ∀ url ∈ moduleUrl calls entry.2, ∃ created,
          calls.newPath entry.2 (locationLeafName entry.1) (host ++ yangSchemaRoot ++ url) =
            .ok created := by
    rw [replaceYangLibraryLocations, Tree.rewriteAll_isOk_iff]
    exact forall₂_congr fun entry member => relocateModule_isOk_iff (keyed entry member)
  have streams : ∀ forest, (∃ after,
      replaceStreamLocations calls schemeAndHost forest = .ok after) ↔
      ∀ entry ∈ accessEntries calls forest,
        ∃ edit, relocateStream calls schemeAndHost entry.1 entry.2 = .ok edit :=
    fun forest => Tree.rewriteAll_isOk_iff [] forest
  simp only [relocateStream_isOk_iff] at streams
  constructor
  case mp =>
    rintro ⟨after, done, _⟩
    rw [replaceLocations, except_bind_eq_ok] at done
    obtain ⟨middle, first, second⟩ := done
    have moduleEntry := modules.mp ⟨middle, first⟩
    have streamEntry := (streams middle).mp ⟨after, second⟩
    rw [accessEntries_replaceYangLibraryLocations first] at streamEntry
    refine ⟨fun entry member => (streamEntry entry member).1, fun host present => ⟨?_, ?_⟩⟩
    · exact fun entry member => moduleEntry entry member host present
    · exact fun entry member => (streamEntry entry member).2 host present
  case mpr =>
    rintro ⟨located, storable⟩
    obtain ⟨middle, first⟩ := modules.mpr fun entry member host present =>
      (storable host present).1 entry member
    have sameEntries := accessEntries_replaceYangLibraryLocations first
    obtain ⟨after, second⟩ := (streams middle).mpr fun entry member => by
      rw [sameEntries] at member
      exact ⟨located entry member, fun host present => (storable host present).2 entry member⟩
    refine ⟨after, ?_, ?_⟩
    · rw [replaceLocations, except_bind_eq_ok]
      exact ⟨middle, first, second⟩
    · rw [withoutLocations_replaceStreamLocations named second,
        withoutLocations_replaceYangLibraryLocations named first]

/-- Schema nodes which are nothing but their names. -/
def namesOnly : Context QName where
  moduleName := Prod.fst
  ns := Prod.fst
  name := Prod.snd
  nodeType _ := .container
  parent _ := none
  path node := node.2
  keys _ := []
  isKey _ := false
  isUserOrdered _ := false
  childInstantiables _ := []
  topLevel := []
  findPath path := .error ⟨.validationFailure, path⟩
  children_unique member := by cases member
  findPath_topLevel member := by cases member
  keys_children list := by cases list
  topLevel_isKey member := by cases member

/-- Leafs are created with any value. -/
def leafsOnly : Calls QName :=
  { Calls.refusing namesOnly ⟨.validationFailure, []⟩ with
    newPath := fun node name value => .ok (.leaf (node.schema.1, name) value) }

theorem leafsOnly_createsNamed : CreatesNamed leafsOnly := by
  intro node name value created stored
  cases stored
  rfl

/-- The response for a stream, with the given leafs in an entry for the access to it. -/
def streamData (leafs : List (DataNode QName)) : Forest QName :=
  let monitoring := str "ietf-restconf-monitoring"
  [.inner (monitoring, str "restconf-state")
    [.inner (monitoring, str "streams")
      [.inner (monitoring, str "stream")
        [.leaf (monitoring, str "name") (str "NETCONF"),
          .inner (monitoring, str "access") leafs]]]]

/-- The leafs of the entry for XML. -/
def encodingLeaf : DataNode QName :=
  .leaf (str "ietf-restconf-monitoring", str "encoding") (str "xml")

def locationLeaf : DataNode QName :=
  .leaf (str "ietf-restconf-monitoring", str "location")
    (str "x-cesnet-rousette:/streams/NETCONF/XML")

/-- The YANG library with one module. -/
def oneModuleData : Forest QName :=
  let library := str "ietf-yang-library"
  [.inner (library, str "yang-library")
    [.inner (library, str "module-set")
      [.leaf (library, str "name") (str "complete"),
        .inner (library, str "module")
          [.leaf (library, str "name") (str "example"),
            .leaf (library, str "location") (str "file:///example.yang")]]]]

theorem streamData_relocates :
    (moduleEntries leafsOnly
        (oneModuleData ++ streamData [encodingLeaf, locationLeaf])).length = 1 ∧
      Relocates leafsOnly (some (str "https://localhost"))
        (oneModuleData ++ streamData [encodingLeaf, locationLeaf]) := by
  refine ⟨rfl, (relocates_iff leafsOnly_createsNamed ?_).mpr ⟨?_, ?_⟩⟩
  · intro entry member
    cases List.mem_singleton.mp member
    exact ⟨.leaf (str "ietf-yang-library", str "name") (str "example"), rfl⟩
  · intro entry member
    cases List.mem_singleton.mp member
    exact ⟨locationLeaf, rfl⟩
  · intro host _
    constructor
    · intro entry _ _ url _
      exact ⟨_, rfl⟩
    · intro entry _ locationNode _
      exact ⟨_, rfl⟩

/-- A request for the leaf `encoding` alone, of which the response has no location. -/
theorem streamData_encoding_undefined :
    replaceLocations leafsOnly (some (str "https://localhost"))
      (streamData [encodingLeaf]) = .error .undefined ∧
    ¬Relocates leafsOnly (some (str "https://localhost")) (streamData [encodingLeaf]) := by
  have failed : replaceLocations leafsOnly (some (str "https://localhost"))
      (streamData [encodingLeaf]) = .error .undefined := rfl
  refine ⟨failed, ?_⟩
  rintro ⟨after, done, _⟩
  rw [failed] at done
  cases done

end Rousette.Restconf.Locations
