import Rousette.Library.TreeGrowth
import Rousette.Restconf.Locations

/-!
# Paths of data nodes

The server asks for data by XPaths of child steps, some of which have a key, and it creates data
along such paths.  What a path selects grows with the data, and a path which was created selects
what was created.
-/

namespace Rousette.Restconf.Locations

open Library Libyang

/-! ## Paths -/

/-- A child step of an XPath, with at most one key. -/
structure XPathStep where
  name : Str
  key : Option (Str × Str)
  deriving DecidableEq, Repr

def XPathStep.text : XPathStep → Str
  | ⟨name, none⟩ => name
  | ⟨name, some (key, value)⟩ => name ++ str "[" ++ key ++ str "='" ++ value ++ str "']"

/-- The steps from the root on, all of them in one module. -/
abbrev LocationPath := List XPathStep

def LocationPath.text (moduleName : Str) (path : LocationPath) : Str :=
  str "/" ++ moduleName ++ str ":" ++ join (str "/") (path.map XPathStep.text)

/-- What an XPath selects is selected by one of its paths. -/
def unionText (moduleName : Str) (paths : List LocationPath) : Str :=
  join (str " | ") (paths.map (LocationPath.text moduleName))

section Selection

variable {S : Type} (calls : Calls S) (moduleName : Str)

/-- A node with this name, which has the key. -/
def XPathStep.selects (step : XPathStep) (node : DataNode S) : Bool :=
  qname calls node.label == (moduleName, step.name) &&
    match step.key with
    | none => true
    | some (key, value) => node.children.any fun child =>
        qname calls child.label == (moduleName, key) && DataNode.valueStr child == value

/-- The nodes which a path selects. -/
def LocationPath.select : LocationPath → Forest S → List (DataNode S)
  | [], _ => []
  | [step], forest => forest.filter (step.selects calls moduleName)
  | step :: next :: path, forest =>
      (forest.filter (step.selects calls moduleName)).flatMap fun node =>
        LocationPath.select (next :: path) node.children

end Selection

/-! ## Creating nodes -/

section Creation

variable {S : Type} (calls : Calls S) (moduleName : Str) (schemaOf : List Str → S)

/-- The leaf which makes an entry one with the key. -/
def XPathStep.keyLeafs (above : List Str) (step : XPathStep) : Forest S :=
  match step.key with
  | none => []
  | some (key, value) => [.leaf (schemaOf (above ++ [step.name] ++ [key])) value]

/-- The nodes along a path, the last of which has the value. -/
def createdAlong (value : Str) : List Str → XPathStep → LocationPath → DataNode S
  | above, step, [] =>
      .node ⟨schemaOf (above ++ [step.name]), value, []⟩ (step.keyLeafs schemaOf above)
  | above, step, next :: path =>
      .node ⟨schemaOf (above ++ [step.name]), [], []⟩ (step.keyLeafs schemaOf above ++
        [createdAlong value (above ++ [step.name]) next path])

/-- What is raised for a path which is there already. -/
def alreadyExists : Libyang.ErrorWithCode := ⟨.other 4, str "Path already exists"⟩

/-- `newPath` below some nodes. -/
def newPathBelow (value : Str) :
    List Str → XPathStep → LocationPath → Forest S → Except Libyang.ErrorWithCode (Forest S)
  | above, step, [] =>
      Tree.changeFirst (step.selects calls moduleName) (fun _ => .error alreadyExists)
        (createdAlong schemaOf value above step [])
  | above, step, next :: path =>
      Tree.changeFirst (step.selects calls moduleName)
        (fun node => do
          let children ← newPathBelow value (above ++ [step.name]) next path node.children
          return .node node.label children)
        (createdAlong schemaOf value above step (next :: path))

/-- `newPath` of a path from the root on, without any options: what is there of the path is kept,
and the rest is created.  A leaf which is there only by default would be given the value, but
sysrepo adds the defaults after its callbacks.  The order of siblings, which is the one in the
schema, makes no difference here. -/
def newPath (value : Str) :
    LocationPath → Forest S → Except Libyang.ErrorWithCode (Forest S)
  | [], _ => .error ⟨.validationFailure, []⟩
  | step :: path, forest => newPathBelow calls moduleName schemaOf value [] step path forest

end Creation

/-! ## What is selected -/

section Selected

variable {S : Type} {calls : Calls S} {moduleName : Str} {forest : Forest S}

/-- A path with one more step goes on from what it selects. -/
theorem select_append (path : LocationPath) (some : path ≠ []) (step : XPathStep)
    (forest : Forest S) :
    LocationPath.select calls moduleName (path ++ [step]) forest =
      (LocationPath.select calls moduleName path forest).flatMap fun node =>
        node.children.filter (step.selects calls moduleName) := by
  induction path generalizing forest with
  | nil => exact absurd rfl some
  | cons first path ih =>
      cases path with
      | nil => rfl
      | cons second path =>
          rw [List.cons_append, List.cons_append, LocationPath.select, LocationPath.select,
            List.flatMap_assoc]
          congr 1
          funext node
          exact ih (List.cons_ne_nil _ _) node.children

theorem qname_of_selects {step : XPathStep} {node : DataNode S}
    (selected : step.selects calls moduleName node = true) :
    qname calls node.label = (moduleName, step.name) := by
  rw [XPathStep.selects, Bool.and_eq_true, beq_iff_eq] at selected
  exact selected.1

/-- The last step of a path is about the selected node itself. -/
theorem selects_of_mem_select {path : LocationPath} {step : XPathStep} {node : DataNode S}
    (member : node ∈ LocationPath.select calls moduleName (path ++ [step]) forest) :
    step.selects calls moduleName node = true := by
  cases path with
  | nil => exact (List.mem_filter.mp member).2
  | cons first path =>
      rw [select_append _ (List.cons_ne_nil _ _)] at member
      obtain ⟨parent, _, child⟩ := List.mem_flatMap.mp member
      exact (List.mem_filter.mp child).2

/-- A selected node may be told by its key. -/
theorem mem_select_key {path : LocationPath} {name key value : Str} {node leaf : DataNode S}
    (member : node ∈ LocationPath.select calls moduleName (path ++ [⟨name, none⟩]) forest)
    (child : leaf ∈ node.children) (named : qname calls leaf.label = (moduleName, key))
    (valued : DataNode.valueStr leaf = value) :
    node ∈ LocationPath.select calls moduleName (path ++ [⟨name, some (key, value)⟩]) forest := by
  have keyed : XPathStep.selects calls moduleName ⟨name, some (key, value)⟩ node = true := by
    have isKey : (qname calls leaf.label == (moduleName, key) &&
        DataNode.valueStr leaf == value) = true := by
      rw [named, valued, Bool.and_eq_true, beq_iff_eq, beq_iff_eq]
      exact ⟨rfl, rfl⟩
    have label : (qname calls node.label == (moduleName, name)) = true :=
      beq_iff_eq.mpr (qname_of_selects (selects_of_mem_select member))
    simp only [XPathStep.selects, label, Bool.true_and]
    exact List.any_eq_true.mpr ⟨leaf, child, isKey⟩
  cases path with
  | nil => exact List.mem_filter.mpr ⟨(List.mem_filter.mp member).1, keyed⟩
  | cons first path =>
      rw [select_append _ (List.cons_ne_nil _ _)] at member ⊢
      obtain ⟨parent, above, inside⟩ := List.mem_flatMap.mp member
      exact List.mem_flatMap.mpr
        ⟨parent, above, List.mem_filter.mpr ⟨(List.mem_filter.mp inside).1, keyed⟩⟩

end Selected

/-! ## What is selected in more data -/

section Growth

variable {S : Type} {calls : Calls S} {moduleName : Str}

/-- A node which has grown is selected by the same step. -/
theorem selects_of_embeds {step : XPathStep} {node node' : DataNode S}
    (embeds : Tree.Embeds node node') (selected : step.selects calls moduleName node = true) :
    step.selects calls moduleName node' = true := by
  obtain ⟨name, key⟩ := step
  cases key with
  | none => simpa only [XPathStep.selects, embeds.label] using selected
  | some key =>
      simp only [XPathStep.selects, embeds.label, Bool.and_eq_true, List.any_eq_true]
        at selected ⊢
      obtain ⟨named, child, member, isKey⟩ := selected
      obtain ⟨child', member', inside⟩ := embeds.children child member
      refine ⟨named, child', member', ?_⟩
      rw [inside.label, DataNode.valueStr, inside.label]
      exact isKey

/-- What was selected is selected still. -/
theorem select_grows {path : LocationPath} {forest after : Forest S}
    (grows : Tree.Grows forest after) :
    Tree.Grows (LocationPath.select calls moduleName path forest)
      (LocationPath.select calls moduleName path after) := by
  have filtered : ∀ {step : XPathStep} {forest after : Forest S}, Tree.Grows forest after →
      Tree.Grows (forest.filter (step.selects calls moduleName))
        (after.filter (step.selects calls moduleName)) := by
    intro step forest after grows node member
    obtain ⟨inside, selected⟩ := List.mem_filter.mp member
    obtain ⟨node', inside', embeds⟩ := grows node inside
    exact ⟨node', List.mem_filter.mpr ⟨inside', selects_of_embeds embeds selected⟩, embeds⟩
  induction path generalizing forest after with
  | nil => exact .refl []
  | cons step path ih =>
      cases path with
      | nil => exact filtered grows
      | cons next path =>
          intro node member
          obtain ⟨parent, above, below⟩ := List.mem_flatMap.mp member
          obtain ⟨parent', above', embeds⟩ := filtered grows parent above
          obtain ⟨node', below', inside⟩ := ih embeds.children node below
          exact ⟨node', List.mem_flatMap.mpr ⟨parent', above', below'⟩, inside⟩

end Growth

/-! ## What a new path selects -/

section NewPath

variable {S : Type} {calls : Calls S} {moduleName : Str} {schemaOf : List Str → S}

/-- libyang finds the schema nodes of the names on a path, all of them in one module. -/
def FindsSchema (calls : Calls S) (moduleName : Str) (schemaOf : List Str → S) : Prop :=
  ∀ (above : List Str) (name : Str),
    calls.ctx.moduleName (schemaOf (above ++ [name])) = moduleName ∧
      calls.ctx.name (schemaOf (above ++ [name])) = name

theorem FindsSchema.qname (finds : FindsSchema calls moduleName schemaOf) (above : List Str)
    (name value : Str) (metas : List Meta) :
    Locations.qname calls ⟨schemaOf (above ++ [name]), value, metas⟩ = (moduleName, name) := by
  obtain ⟨sameModule, sameName⟩ := finds above name
  rw [Locations.qname, sameModule, sameName]

theorem label_createdAlong (value : Str) (above : List Str) (step : XPathStep)
    (path : LocationPath) :
    (createdAlong schemaOf value above step path).label =
      ⟨schemaOf (above ++ [step.name]), if path.isEmpty then value else [], []⟩ := by
  cases path <;> rfl

theorem selects_createdAlong (finds : FindsSchema calls moduleName schemaOf) (value : Str)
    (above : List Str) (step : XPathStep) (path : LocationPath) :
    step.selects calls moduleName (createdAlong schemaOf value above step path) = true := by
  have named := finds.qname above step.name (if path.isEmpty then value else []) []
  rw [← label_createdAlong] at named
  obtain ⟨name, key⟩ := step
  cases key with
  | none => simp only [XPathStep.selects, named, beq_self_eq_true, Bool.and_self]
  | some key =>
      obtain ⟨key, keyValue⟩ := key
      simp only [XPathStep.selects, named, beq_self_eq_true, Bool.true_and, List.any_eq_true]
      refine ⟨DataNode.leaf (schemaOf (above ++ [name] ++ [key])) keyValue, ?_, ?_⟩
      · cases path <;> simp [createdAlong, XPathStep.keyLeafs]
      · have isKey := finds.qname (above ++ [name]) key keyValue []
        simp only [DataNode.leaf, Tree.label_node, isKey, DataNode.valueStr, beq_self_eq_true,
          Bool.and_self]

/-- The data grow. -/
theorem newPathBelow_grows {value : Str} {above : List Str} {step : XPathStep}
    {path : LocationPath} {forest after : Forest S}
    (done : newPathBelow calls moduleName schemaOf value above step path forest = .ok after) :
    Tree.Grows forest after := by
  induction path generalizing above step forest after with
  | nil =>
      apply Tree.grows_of_changeFirst done
      intro node node' failed
      cases failed
  | cons next path ih =>
      apply Tree.grows_of_changeFirst done
      intro node node' changed
      rw [except_bind_eq_ok] at changed
      obtain ⟨children, inside, result⟩ := changed
      cases result
      cases node with
      | node label children => exact .of_grows (ih inside)

theorem newPath_grows {value : Str} {path : LocationPath} {forest after : Forest S}
    (done : newPath calls moduleName schemaOf value path forest = .ok after) :
    Tree.Grows forest after := by
  cases path with
  | nil => cases done
  | cons step path => exact newPathBelow_grows done

/-- What was created along a path is selected by it. -/
theorem select_createdAlong (finds : FindsSchema calls moduleName schemaOf) (value : Str)
    (above : List Str) (step : XPathStep) (path : LocationPath) {forest : Forest S}
    (member : createdAlong schemaOf value above step path ∈ forest) :
    ∃ node ∈ LocationPath.select calls moduleName (step :: path) forest,
      DataNode.valueStr node = value := by
  have selected := List.mem_filter.mpr
    ⟨member, selects_createdAlong finds value above step path⟩
  induction path generalizing above step forest with
  | nil => exact ⟨_, selected, rfl⟩
  | cons next path ih =>
      have below : createdAlong schemaOf value (above ++ [step.name]) next path ∈
          (createdAlong schemaOf value above step (next :: path)).children :=
        List.mem_append_right _ List.mem_cons_self
      obtain ⟨node, inside, valued⟩ := ih (above ++ [step.name]) next below
        (List.mem_filter.mpr ⟨below, selects_createdAlong finds _ _ _ _⟩)
      exact ⟨node, List.mem_flatMap.mpr ⟨_, selected, inside⟩, valued⟩

/-- A path which was created selects what was created. -/
theorem select_newPathBelow (finds : FindsSchema calls moduleName schemaOf) {value : Str}
    {above : List Str} {step : XPathStep} {path : LocationPath} {forest after : Forest S}
    (done : newPathBelow calls moduleName schemaOf value above step path forest = .ok after) :
    ∃ node ∈ LocationPath.select calls moduleName (step :: path) after,
      DataNode.valueStr node = value := by
  induction path generalizing above step forest after with
  | nil =>
      cases Tree.changedFirst_of_changeFirst done with
      | added unfit =>
          exact select_createdAlong finds value above step []
            (List.mem_append_right _ List.mem_cons_self)
      | changed unfit fits failed => cases failed
  | cons next path ih =>
      cases Tree.changedFirst_of_changeFirst done with
      | added unfit =>
          exact select_createdAlong finds value above step (next :: path)
            (List.mem_append_right _ List.mem_cons_self)
      | @changed before rest parent parent' unfit fits changed =>
          rw [except_bind_eq_ok] at changed
          obtain ⟨children, inside, result⟩ := changed
          cases result
          have grows : Tree.Embeds parent (.node parent.label children) := by
            cases parent with
            | node label below => exact .of_grows (newPathBelow_grows inside)
          have selected : (.node parent.label children : DataNode S) ∈
              (before ++ .node parent.label children :: rest).filter
                (step.selects calls moduleName) :=
            List.mem_filter.mpr ⟨List.mem_append_right _ List.mem_cons_self,
              selects_of_embeds grows fits⟩
          obtain ⟨node, member, valued⟩ := ih inside
          exact ⟨node, List.mem_flatMap.mpr ⟨_, selected, member⟩, valued⟩

/-- The names of the nodes which are created along a path. -/
def XPathStep.names (step : XPathStep) : List Str := step.name :: step.key.toList.map Prod.fst

theorem mem_names_of_mem {name : Str} {step : XPathStep} {path : LocationPath}
    (member : name ∈ step.names) : name ∈ (step :: path).flatMap XPathStep.names :=
  List.mem_flatMap.mpr ⟨step, List.mem_cons_self, member⟩

/-- All nodes of some names have a property. -/
def HoldsFor (schemaOf : List Str → S) (property : NodeData S → Prop) (names : List Str) : Prop :=
  ∀ name ∈ names, ∀ (above : List Str) (value : Str),
    property ⟨schemaOf (above ++ [name]), value, []⟩

theorem all_keyLeafs {property : NodeData S → Prop} {above : List Str} {step : XPathStep}
    (new : HoldsFor schemaOf property step.names) :
    ∀ leaf ∈ step.keyLeafs schemaOf above, Tree.All property leaf := by
  obtain ⟨name, key⟩ := step
  intro leaf member
  cases key with
  | none => cases member
  | some key =>
      rw [List.mem_singleton.mp member, DataNode.leaf, Tree.all_node]
      constructor
      · exact new key.1 (by simp [XPathStep.names]) (above ++ [name]) key.2
      · intro child none
        cases none

theorem all_createdAlong {property : NodeData S → Prop} {value : Str} {above : List Str}
    {step : XPathStep} {path : LocationPath}
    (new : HoldsFor schemaOf property ((step :: path).flatMap XPathStep.names)) :
    Tree.All property (createdAlong schemaOf value above step path) := by
  have ofStep {step : XPathStep} {path : LocationPath}
      (new : HoldsFor schemaOf property ((step :: path).flatMap XPathStep.names)) :
      HoldsFor schemaOf property step.names :=
    fun name member => new name (mem_names_of_mem member)
  have root {step : XPathStep} {path : LocationPath}
      (new : HoldsFor schemaOf property ((step :: path).flatMap XPathStep.names))
      (above : List Str) (value : Str) : property ⟨schemaOf (above ++ [step.name]), value, []⟩ :=
    ofStep new step.name List.mem_cons_self above value
  induction path generalizing above step with
  | nil =>
      rw [createdAlong]
      exact Tree.all_node.mpr ⟨root new above value, all_keyLeafs (ofStep new)⟩
  | cons next path ih =>
      rw [createdAlong, Tree.all_node]
      constructor
      · exact root new above []
      · intro child member
        rcases List.mem_append.mp member with isKey | below
        · exact all_keyLeafs (ofStep new) child isKey
        · rw [List.mem_singleton.mp below]
          exact ih fun name member => new name (List.mem_append_right _ member)

/-- The labels of all nodes have a property still, if all nodes of the names on the path have. -/
theorem all_newPathBelow {property : NodeData S → Prop} {value : Str} {above : List Str}
    {step : XPathStep} {path : LocationPath} {forest after : Forest S}
    (done : newPathBelow calls moduleName schemaOf value above step path forest = .ok after)
    (new : HoldsFor schemaOf property ((step :: path).flatMap XPathStep.names))
    (all : ∀ node ∈ forest, Tree.All property node) : ∀ node ∈ after, Tree.All property node := by
  induction path generalizing above step forest after with
  | nil =>
      apply Tree.all_of_changeFirst done (all_createdAlong new) _ all
      intro node node' failed
      cases failed
  | cons next path ih =>
      apply Tree.all_of_changeFirst done (all_createdAlong new) _ all
      intro node node' changed allNode
      rw [except_bind_eq_ok] at changed
      obtain ⟨children, inside, result⟩ := changed
      cases result
      cases node with
      | node label below =>
          obtain ⟨root, allBelow⟩ := Tree.all_node.mp allNode
          have later := ih inside (fun name member => new name (List.mem_append_right _ member))
          exact Tree.all_node.mpr ⟨root, later allBelow⟩

end NewPath

/-! ## Selected nodes along a new path -/

section Entries

variable {S : Type} (calls : Calls S) (moduleName : Str) (schemaOf : List Str → S)
  (selects : List QName → Bool) (property : DataNode S → Prop) (value : Str)

/-- The qualified names of the nodes on the way to a node. -/
def qualified (names : List Str) : List QName := names.map fun name => (moduleName, name)

/-- Creating a path keeps a property of the selected nodes: those on the path which are created
have it, and those which are changed have it still. -/
def Prepared : List Str → XPathStep → LocationPath → Prop
  | above, step, path =>
      (∀ key ∈ step.key, selects (qualified moduleName (above ++ [step.name] ++ [key.1])) = false) ∧
        (selects (qualified moduleName (above ++ [step.name])) = true →
          property (createdAlong schemaOf value above step path)) ∧
        match path with
        | [] => True
        | next :: path =>
            (selects (qualified moduleName (above ++ [step.name])) = true →
              ∀ node children, property node → step.selects calls moduleName node = true →
                newPathBelow calls moduleName schemaOf value (above ++ [step.name]) next path
                  node.children = .ok children → property (.node node.label children)) ∧
              Prepared (above ++ [step.name]) next path

end Entries

section EntriesOfNewPath

variable {S : Type} {calls : Calls S} {moduleName : Str} {schemaOf : List Str → S}
  {selects : List QName → Bool} {property : DataNode S → Prop} {value : Str}

theorem select_keyLeafs (finds : FindsSchema calls moduleName schemaOf) {above : List Str}
    {step : XPathStep} (unselected : ∀ key ∈ step.key,
      selects (qualified moduleName (above ++ [step.name] ++ [key.1])) = false) :
    Tree.selectAll (qname calls) selects (qualified moduleName (above ++ [step.name]))
      (step.keyLeafs schemaOf above) = [] := by
  obtain ⟨name, key⟩ := step
  cases key with
  | none => rfl
  | some key =>
      have isKey := finds.qname (above ++ [name]) key.1 key.2 []
      have apart := unselected key rfl
      rw [qualified, List.map_append] at apart
      rw [qualified, XPathStep.keyLeafs, Tree.selectAll, DataNode.leaf, Tree.select, isKey]
      simp only [Tree.selectAll, List.append_nil]
      rw [if_neg]
      rw [Bool.not_eq_true]
      exact apart

theorem FindsSchema.qualified (finds : FindsSchema calls moduleName schemaOf)
    (above : List Str) (name value : Str) (metas : List Meta) :
    Locations.qualified moduleName above ++
        [Locations.qname calls ⟨schemaOf (above ++ [name]), value, metas⟩] =
      Locations.qualified moduleName (above ++ [name]) := by
  rw [finds.qname, Locations.qualified, Locations.qualified, List.map_append]
  rfl

/-- The selected nodes among those which are created have the property. -/
theorem selected_createdAlong (finds : FindsSchema calls moduleName schemaOf)
    {path : LocationPath} {above : List Str} {step : XPathStep}
    (prepared : Prepared calls moduleName schemaOf selects property value above step path) :
    ∀ entry ∈ Tree.select (qname calls) selects (qualified moduleName above)
      (createdAlong schemaOf value above step path), property entry.2 := by
  induction path generalizing above step with
  | nil =>
      obtain ⟨unselected, created, _⟩ := prepared
      have noKey := select_keyLeafs finds unselected
      intro entry member
      rw [createdAlong, Tree.mem_select_node, finds.qualified, noKey] at member
      rcases member with ⟨selected, rfl⟩ | none
      · exact created selected
      · cases none
  | cons next path ih =>
      obtain ⟨unselected, created, _, below⟩ := prepared
      have noKey := select_keyLeafs finds unselected
      intro entry member
      rw [createdAlong, Tree.mem_select_node, finds.qualified, Tree.selectAll_append, noKey,
        List.nil_append, Tree.selectAll, Tree.selectAll, List.append_nil] at member
      rcases member with ⟨selected, rfl⟩ | inside
      · exact created selected
      · exact ih below entry inside

/-- All selected nodes have the property still, those on the path too. -/
theorem selected_newPathBelow (finds : FindsSchema calls moduleName schemaOf)
    {path : LocationPath} {above : List Str} {step : XPathStep} {forest after : Forest S}
    (prepared : Prepared calls moduleName schemaOf selects property value above step path)
    (done : newPathBelow calls moduleName schemaOf value above step path forest = .ok after)
    (holds : ∀ entry ∈ Tree.selectAll (qname calls) selects (qualified moduleName above) forest,
      property entry.2) :
    ∀ entry ∈ Tree.selectAll (qname calls) selects (qualified moduleName above) after,
      property entry.2 := by
  have added : ∀ {forest : Forest S} {above : List Str} {step : XPathStep} {path : LocationPath},
      Prepared calls moduleName schemaOf selects property value above step path →
      (∀ entry ∈ Tree.selectAll (qname calls) selects (qualified moduleName above) forest,
        property entry.2) →
      ∀ entry ∈ Tree.selectAll (qname calls) selects (qualified moduleName above)
        (forest ++ [createdAlong schemaOf value above step path]), property entry.2 := by
    intro forest above step path prepared holds entry member
    rw [Tree.selectAll_append, Tree.selectAll, Tree.selectAll, List.append_nil] at member
    rcases List.mem_append.mp member with old | new
    · exact holds entry old
    · exact selected_createdAlong finds prepared entry new
  induction path generalizing above step forest after with
  | nil =>
      cases Tree.changedFirst_of_changeFirst done with
      | added unfit => exact added prepared holds
      | changed unfit fits failed => cases failed
  | cons next path ih =>
      cases Tree.changedFirst_of_changeFirst done with
      | added unfit => exact added prepared holds
      | @changed before rest parent parent' unfit fits changed =>
          rw [except_bind_eq_ok] at changed
          obtain ⟨children, inside, result⟩ := changed
          cases result
          obtain ⟨_, _, keeps, below⟩ := prepared
          have path : qualified moduleName above ++ [qname calls parent.label] =
              qualified moduleName (above ++ [step.name]) := by
            rw [qname_of_selects fits, qualified, qualified, List.map_append]
            rfl
          simp only [Tree.selectAll_append, Tree.selectAll, List.mem_append] at holds ⊢
          intro entry member
          rcases member with early | inner | later
          · exact holds entry (.inl early)
          · cases parent with
            | node label nodes =>
                rw [Tree.label_node] at path
                have here := fun entry member => holds entry (.inr (.inl member))
                simp only [Tree.mem_select_node, path] at here
                rw [Tree.label_node, Tree.mem_select_node, path] at inner
                rcases inner with ⟨selected, rfl⟩ | inner
                · exact keeps selected _ children (here _ (.inl ⟨selected, rfl⟩)) fits inside
                · exact ih below inside (fun entry member => here entry (.inr member)) entry inner
          · exact holds entry (.inr (.inr later))

/-- The nodes of a step and their keys are not selected if no node of the names is. -/
theorem unselected_of_names {names : List Str}
    (unselected : ∀ steps : List Str, (∀ name ∈ steps, name ∈ names) →
      selects (qualified moduleName steps) = false) {above : List Str} {step : XPathStep}
    (inside : ∀ name ∈ above ++ step.names, name ∈ names) :
    (∀ key ∈ step.key, selects (qualified moduleName (above ++ [step.name] ++ [key.1])) = false) ∧
      ¬selects (qualified moduleName (above ++ [step.name])) = true := by
  constructor
  · intro key isKey
    apply unselected
    rw [Option.mem_def] at isKey
    rw [XPathStep.names, isKey] at inside
    simpa using inside
  · rw [Bool.not_eq_true]
    apply unselected
    intro name member
    apply inside name
    rcases List.mem_append.mp member with early | last
    · exact List.mem_append_left _ early
    · rw [List.mem_singleton.mp last]
      exact List.mem_append_right _ List.mem_cons_self

/-- A path changes no selected nodes if none is selected by the names on it. -/
theorem prepared_of_unselected {names : List Str}
    (unselected : ∀ steps : List Str, (∀ name ∈ steps, name ∈ names) →
      selects (qualified moduleName steps) = false) {path : LocationPath} {above : List Str}
    {step : XPathStep}
    (inside : ∀ name ∈ above ++ (step :: path).flatMap XPathStep.names, name ∈ names) :
    Prepared calls moduleName schemaOf selects property value above step path := by
  induction path generalizing above step with
  | nil =>
      rw [List.flatMap_singleton] at inside
      obtain ⟨keys, here⟩ := unselected_of_names unselected inside
      exact ⟨keys, fun selected => absurd selected here, trivial⟩
  | cons next path ih =>
      rw [List.flatMap_cons, ← List.append_assoc] at inside
      have onPath := fun name member => inside name (List.mem_append_left _ member)
      obtain ⟨keys, here⟩ := unselected_of_names unselected onPath
      refine ⟨keys, fun selected => absurd selected here, fun selected => absurd selected here, ?_⟩
      apply ih
      intro name member
      rw [List.append_assoc] at member
      rcases List.mem_append.mp member with early | later
      · exact onPath name (List.mem_append_left _ early)
      · rcases List.mem_cons.mp later with rfl | later
        · exact onPath _ (List.mem_append_right _ List.mem_cons_self)
        · exact inside name (List.mem_append_right _ later)

end EntriesOfNewPath

end Rousette.Restconf.Locations
