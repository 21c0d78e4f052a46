import Rousette.Restconf.LocationPaths
import Rousette.Restconf.SchemaUrls
import Rousette.Restconf.Server.Streams

/-!
# The handler of schemas

The handler of `/yang/` in `restconf/Server.cpp` sends the text of a module, if the user may read
the location of a module of this name in the YANG library (`hasAccessToYangSchema` of
`restconf/YangSchemaLocations.cpp`).  This module tells who gets which text, and that the URLs
which the server has put into the YANG library lead there.
-/

namespace Rousette.Restconf.Server

open Library Libyang Locations

/-! ## The handler -/

/-- The string which `hasAccessToYangSchema` asks sysrepo for. -/
def schemaXPath (isRootModule : Bool) (moduleName : Str) : Str :=
  let complete := str "/ietf-yang-library:yang-library/module-set[name='complete']/"
  if isRootModule then
    complete ++ str "module[name='" ++ moduleName ++ str "']/location | " ++
      complete ++ str "import-only-module[name='" ++ moduleName ++ str "']/location"
  else
    complete ++ str "module/submodule[name='" ++ moduleName ++ str "']/location | " ++
      complete ++ str "import-only-module/submodule[name='" ++ moduleName ++ str "']/location"

/-- A request for a schema, with the answers of everything which the handler calls. -/
structure SchemaCall (M N : Type) where
  method : Str
  /-- `uri().path` -/
  path : Str
  /-- `Connection::sessionStart` -/
  sessionStart : Except Sysrepo.ErrorWithCode Unit
  /-- `authorizeRequest`, with the NACM user which the session has after it -/
  authorize : Except Exception Str
  modules : ModuleLookup M N
  name : M ⊕ N → Str
  /-- does `Session::getData` find something for a user? -/
  getData : Str → Str → Except Sysrepo.ErrorWithCode Bool
  printStr : M ⊕ N → Except ErrorWithCode Str

section Handler

variable {M N : Type} (call : SchemaCall M N)

/-- `hasAccessToYangSchema` -/
def hasAccessToYangSchema (user : Str) (mod : M ⊕ N) : Except Exception Bool :=
  raiseSysrepo (call.getData user (schemaXPath mod.isLeft (call.name mod)))

def yangSchemaNotFound : StreamResponse :=
  .plain 404 [textPlain, cors] (str "YANG schema not found")

/-- The response with the text of a module. -/
def yangSchemaText (text : Str) : StreamResponse :=
  .plain 200 [(str "content-type", str "application/yang"), cors] text

/-- What the handler does under its `try`. -/
def openSchema : Except Exception StreamResponse := do
  raiseSysrepo call.sessionStart
  let user ← call.authorize
  match ← asYangModule call.modules call.path with
  | none => return yangSchemaNotFound
  | some mod =>
      if ← hasAccessToYangSchema call user mod then do
        let text ← raise (call.printStr mod)
        return yangSchemaText text
      else
        return yangSchemaNotFound

/-- The handler of `/yang/`, which catches the same exceptions as the one of streams. -/
def handleSchemas : Except Exception StreamResponse :=
  if call.method = str "OPTIONS" ∨ (call.method ≠ str "GET" ∧ call.method ≠ str "HEAD") then
    .ok (.plain (if call.method = str "OPTIONS" then 200 else 405) [cors, allowGetHeadOptions] [])
  else
    match openSchema call with
    | .ok response => .ok response
    | .error exception => handleStreamException exception

end Handler

/-! ## The entries of modules -/

/-- Where the entries of modules or of submodules are: the steps above them, and their name. -/
def entryKinds (isRootModule : Bool) : List (LocationPath × Str) :=
  let complete : LocationPath :=
    [⟨str "yang-library", none⟩, ⟨str "module-set", some (str "name", str "complete")⟩]
  if isRootModule then [(complete, str "module"), (complete, str "import-only-module")]
  else
    [(complete ++ [⟨str "module", none⟩], str "submodule"),
      (complete ++ [⟨str "import-only-module", none⟩], str "submodule")]

/-- The path of the location in an entry of a name. -/
def locationPath (kind : LocationPath × Str) (moduleName : Str) : LocationPath :=
  kind.1 ++ [⟨kind.2, some (str "name", moduleName)⟩] ++ [⟨str "location", none⟩]

/-- The strings in the source, taken apart. -/
theorem schemaXPath_strings :
    str "/ietf-yang-library:yang-library/module-set[name='complete']/" =
        str "/" ++ (str "ietf-yang-library" ++ (str ":" ++ (str "yang-library" ++ (str "/" ++
          (str "module-set" ++ (str "[" ++ (str "name" ++ (str "='" ++ (str "complete" ++
            (str "']" ++ str "/")))))))))) ∧
      str "module[name='" = str "module" ++ (str "[" ++ (str "name" ++ str "='")) ∧
      str "import-only-module[name='" =
        str "import-only-module" ++ (str "[" ++ (str "name" ++ str "='")) ∧
      str "module/submodule[name='" =
        str "module" ++ (str "/" ++ (str "submodule" ++ (str "[" ++ (str "name" ++ str "='")))) ∧
      str "import-only-module/submodule[name='" = str "import-only-module" ++ (str "/" ++
        (str "submodule" ++ (str "[" ++ (str "name" ++ str "='")))) ∧
      str "']/location | " = str "']" ++ (str "/" ++ (str "location" ++ str " | ")) ∧
      str "']/location" = str "']" ++ (str "/" ++ str "location") := by
  decide +kernel

/-- `hasAccessToYangSchema` asks for the locations in all entries of the name. -/
theorem schemaXPath_eq_unionText (isRootModule : Bool) (moduleName : Str) :
    schemaXPath isRootModule moduleName =
      unionText (str "ietf-yang-library")
        ((entryKinds isRootModule).map fun kind => locationPath kind moduleName) := by
  obtain ⟨complete, module_, importOnly, submodule, importOnlySubmodule, more, last⟩ :=
    schemaXPath_strings
  cases isRootModule with
  | true =>
      simp only [schemaXPath, complete, module_, importOnly, more, last, unionText, entryKinds,
        locationPath, LocationPath.text, XPathStep.text, List.map_cons, List.map_nil, join,
        if_true, List.append_assoc, List.cons_append, List.nil_append]
  | false =>
      simp only [schemaXPath, complete, submodule, importOnlySubmodule, more, last, unionText,
        entryKinds, locationPath, LocationPath.text, XPathStep.text, List.map_cons, List.map_nil,
        join, if_false, Bool.false_eq_true, List.append_assoc, List.cons_append, List.nil_append]

section Access

variable {S M N : Type} {calls : Calls S} {readable : Str → Forest S} {call : SchemaCall M N}

/-- sysrepo answers an XPath by what is selected in the data which the user may read. -/
def AnswersXPaths (calls : Calls S) (readable : Str → Forest S) (call : SchemaCall M N) : Prop :=
  ∀ (user : Str) (isRootModule : Bool) (moduleName : Str),
    Impl.Grammar.IsIdentifier moduleName →
      let paths := (entryKinds isRootModule).map fun kind => locationPath kind moduleName
      call.getData user (unionText (str "ietf-yang-library") paths) =
        .ok (paths.any fun path =>
          !(path.select calls (str "ietf-yang-library") (readable user)).isEmpty)

/-- The context finds modules by their names, which are identifiers. -/
def FindsByName (call : SchemaCall M N) : Prop :=
  ∀ (name : Str) (revision : Option Str) (mod : M ⊕ N),
    getModuleOrSubmodule call.modules name revision = some mod → call.name mod = name

/-- The user may read the location of a module or submodule of the name. -/
def ReadsLocation (calls : Calls S) (data : Forest S) (isRootModule : Bool) (moduleName : Str) :
    Prop :=
  ∃ kind ∈ entryKinds isRootModule, ∃ location, location ∈
    LocationPath.select calls (str "ietf-yang-library") (locationPath kind moduleName) data

theorem hasAccessToYangSchema_eq (answers : AnswersXPaths calls readable call) {user : Str}
    {mod : M ⊕ N} (isName : Impl.Grammar.IsIdentifier (call.name mod)) :
    ∃ access, hasAccessToYangSchema call user mod = .ok access ∧
      (access = true ↔ ReadsLocation calls (readable user) mod.isLeft (call.name mod)) := by
  have asked := answers user mod.isLeft (call.name mod) isName
  dsimp only at asked
  rw [← schemaXPath_eq_unionText] at asked
  refine ⟨_, congrArg raiseSysrepo asked, ?_⟩
  rw [List.any_map, List.any_eq_true]
  apply exists_congr
  intro kind
  apply and_congr_right'
  simp only [Function.comp_apply, Bool.not_eq_true', List.isEmpty_eq_false_iff_exists_mem]

/-! ## Who gets the text of a schema -/

/-- What is answered for an exception is not the text of a schema. -/
theorem handleStreamException_ne_text (exception : Exception) (text : Str) :
    handleStreamException exception ≠ .ok (yangSchemaText text) := by
  intro same
  have code : ∀ {code : Nat} {headers : List (Str × Str)} {body : Str},
      (.ok (.plain code headers body) : Except Exception StreamResponse) =
        .ok (yangSchemaText text) → code = 200 := by
    intro code headers body same
    simp only [yangSchemaText, Except.ok.injEq, StreamResponse.plain.injEq] at same
    exact same.1
  cases exception with
  | auth message delay =>
      cases delay with
      | none => cases code same
      | some delay => cases same
  | errorResponse error =>
      have bad := error.code.le_toNat
      have good := code same
      omega
  | _ => cases same

/-- The steps of a response with the text of a schema. -/
structure Serves (call : SchemaCall M N) (user : Str) (mod : M ⊕ N) (text : Str) : Prop where
  method : call.method = str "GET" ∨ call.method = str "HEAD"
  started : call.sessionStart = .ok ()
  admitted : call.authorize = .ok user
  found : asYangModule call.modules call.path = .ok (some mod)
  access : hasAccessToYangSchema call user mod = .ok true
  printed : call.printStr mod = .ok text

theorem openSchema_eq_text {text : Str} :
    openSchema call = .ok (yangSchemaText text) ↔
      ∃ user mod, call.sessionStart = .ok () ∧ call.authorize = .ok user ∧
        asYangModule call.modules call.path = .ok (some mod) ∧
        hasAccessToYangSchema call user mod = .ok true ∧ call.printStr mod = .ok text := by
  have missing : (.ok yangSchemaNotFound : Except Exception StreamResponse) ≠
      .ok (yangSchemaText text) := by
    intro same
    cases same
  constructor
  case mp =>
    intro opened
    obtain ⟨_, started, opened⟩ := except_bind_eq_ok.mp opened
    obtain ⟨user, admitted, opened⟩ := except_bind_eq_ok.mp opened
    obtain ⟨found, parsed, opened⟩ := except_bind_eq_ok.mp opened
    cases found with
    | none => exact absurd opened missing
    | some mod =>
        obtain ⟨access, asked, opened⟩ := except_bind_eq_ok.mp opened
        cases access with
        | false => exact absurd opened missing
        | true =>
            obtain ⟨printed, printing, opened⟩ := except_bind_eq_ok.mp opened
            cases opened
            exact ⟨user, mod, raiseSysrepo_eq_ok.mp started, admitted, parsed, asked,
              raise_eq_ok.mp printing⟩
  case mpr =>
    rintro ⟨user, mod, started, admitted, parsed, asked, printed⟩
    have startedSession := raiseSysrepo_eq_ok.mpr started
    have printing := raise_eq_ok.mpr printed
    simp only [openSchema, startedSession, admitted, parsed, except_ok_bind, asked, if_true,
      printing]
    rfl

theorem handleSchemas_eq_text {text : Str} :
    handleSchemas call = .ok (yangSchemaText text) ↔ ∃ user mod, Serves call user mod text := by
  by_cases method : call.method = str "GET" ∨ call.method = str "HEAD"
  · have handled : ¬(call.method = str "OPTIONS" ∨
        (call.method ≠ str "GET" ∧ call.method ≠ str "HEAD")) := by
      rintro (options | ⟨notGet, notHead⟩)
      · rw [options] at method
        revert method
        decide
      · exact method.elim notGet notHead
    have opened : handleSchemas call = .ok (yangSchemaText text) ↔
        openSchema call = .ok (yangSchemaText text) := by
      rw [handleSchemas, if_neg handled]
      cases openSchema call with
      | ok response => exact Iff.rfl
      | error exception =>
          refine iff_of_false (handleStreamException_ne_text exception text) ?_
          intro same
          cases same
    rw [opened, openSchema_eq_text]
    constructor
    · rintro ⟨user, mod, started, admitted, found, access, printed⟩
      exact ⟨user, mod, method, started, admitted, found, access, printed⟩
    · rintro ⟨user, mod, serves⟩
      exact ⟨user, mod, serves.started, serves.admitted, serves.found, serves.access,
        serves.printed⟩
  · have refused : call.method = str "OPTIONS" ∨
        (call.method ≠ str "GET" ∧ call.method ≠ str "HEAD") := .inr (not_or.mp method)
    rw [handleSchemas, if_pos refused]
    refine iff_of_false ?_ ?_
    · intro same
      simp only [yangSchemaText, Except.ok.injEq, StreamResponse.plain.injEq] at same
      have body := same.2.1
      revert body
      decide
    · rintro ⟨user, mod, serves⟩
      exact method serves.method

/-- The name in a path is an identifier. -/
theorem isIdentifier_of_parsed {path : Str} {yangModule : Impl.YangModule}
    (parsed : Impl.parseModuleWithRevision path = .ok yangModule) :
    Impl.Grammar.IsIdentifier yangModule.name := by
  have name : Parser.Yields Impl.Grammar.IsIdentifier Impl.Grammar.moduleName := by
    intro input value rest read
    obtain ⟨phrase, _, rfl⟩ := Impl.Grammar.recognizes_identifier.sound read
    exact phrase.isIdentifier
  have grammar : Parser.Yields (fun yangModule => Impl.Grammar.IsIdentifier yangModule.name)
      Impl.Grammar.yangSchemaGrammar := by
    refine .bind_any fun _ => .bind_any fun _ => .bind_any fun _ => ?_
    exact .bind (.expect name) fun _ isName => .bind_any fun _ => .pure isName
  exact Impl.parse_eq_ok grammar parsed

/-- What a path means: the module it names, if the context has it. -/
theorem asYangModule_eq_ok {ctx : ModuleLookup M N} {path : Str} {mod : M ⊕ N} :
    asYangModule ctx path = .ok (some mod) ↔
      ∃ yangModule, Impl.parseModuleWithRevision path = .ok yangModule ∧
        getModuleOrSubmodule ctx yangModule.name yangModule.revision = some mod := by
  rw [asYangModule, except_bind_eq_ok]
  apply exists_congr
  intro yangModule
  apply and_congr_right'
  constructor
  · exact Except.ok.inj
  · intro found
    rw [found]
    rfl

/-- Access to what a path leads to. -/
theorem hasAccess_iff_reads (answers : AnswersXPaths calls readable call)
    (finds : FindsByName call) {user path : Str} {yangModule : Impl.YangModule} {mod : M ⊕ N}
    (parsed : Impl.parseModuleWithRevision path = .ok yangModule)
    (found : getModuleOrSubmodule call.modules yangModule.name yangModule.revision = some mod) :
    hasAccessToYangSchema call user mod = .ok true ↔
      ReadsLocation calls (readable user) mod.isLeft yangModule.name := by
  have name := finds _ _ _ found
  have isName := isIdentifier_of_parsed parsed
  rw [← name] at isName ⊢
  obtain ⟨access, asked, reads⟩ := @hasAccessToYangSchema_eq _ _ _ _ _ _ answers user mod isName
  rw [asked, Except.ok.injEq]
  exact reads

/-- The text of a schema is sent if and only if the user was let in, the path names a module or
submodule which the context has, with its revision, and the user may read the location in some
entry of this name in the YANG library, whatever its revision is. -/
theorem schema_served_iff (answers : AnswersXPaths calls readable call)
    (finds : FindsByName call) (text : Str) :
    handleSchemas call = .ok (yangSchemaText text) ↔
      (call.method = str "GET" ∨ call.method = str "HEAD") ∧ call.sessionStart = .ok () ∧
        ∃ user yangModule mod, call.authorize = .ok user ∧
          Impl.parseModuleWithRevision call.path = .ok yangModule ∧
          getModuleOrSubmodule call.modules yangModule.name yangModule.revision = some mod ∧
          ReadsLocation calls (readable user) mod.isLeft yangModule.name ∧
          call.printStr mod = .ok text := by
  rw [handleSchemas_eq_text]
  constructor
  case mp =>
    rintro ⟨user, mod, serves⟩
    obtain ⟨yangModule, parsed, found⟩ := asYangModule_eq_ok.mp serves.found
    have reads := (hasAccess_iff_reads answers finds parsed found).mp serves.access
    exact ⟨serves.method, serves.started, user, yangModule, mod, serves.admitted, parsed, found,
      reads, serves.printed⟩
  case mpr =>
    rintro ⟨method, started, user, yangModule, mod, admitted, parsed, found, reads, printed⟩
    exact ⟨user, mod, {
      method := method
      started := started
      admitted := admitted
      found := asYangModule_eq_ok.mpr ⟨yangModule, parsed, found⟩
      access := (hasAccess_iff_reads answers finds parsed found).mpr reads
      printed := printed }⟩

/-! ## The URLs in the YANG library -/

theorem findChild_eq_some {node found : DataNode S} {name : String}
    (child : findChild calls node name = some found) :
    found ∈ node.children ∧
      qname calls found.label = (calls.ctx.moduleName node.schema, str name) := by
  have isChild := List.find?_some child
  simp only [isNamed, stepsIn, List.map_cons, List.map_nil, List.contains_eq_mem,
    List.mem_singleton, decide_eq_true_eq] at isChild
  exact ⟨List.mem_of_find?_eq_some child, isChild⟩

/-- The location in an entry may be read by the name which the entry has. -/
theorem readsLocation_of_entry {data : Forest S} {isRootModule : Bool}
    {kind : LocationPath × Str} {node location : DataNode S} {yangModule : Impl.YangModule}
    (isKind : kind ∈ entryKinds isRootModule)
    (entry : node ∈ LocationPath.select calls (str "ietf-yang-library")
      (kind.1 ++ [⟨kind.2, none⟩]) data)
    (child : location ∈ node.children)
    (named : qname calls location.label = (str "ietf-yang-library", str "location"))
    (describes : Describes calls node yangModule) :
    ReadsLocation calls data isRootModule yangModule.name := by
  obtain ⟨nameNode, found, value⟩ := describes.name
  obtain ⟨nameChild, nameNamed⟩ := findChild_eq_some found
  have inLibrary := congrArg Prod.fst (qname_of_selects (selects_of_mem_select entry))
  have inModule : calls.ctx.moduleName node.schema = str "ietf-yang-library" := inLibrary
  rw [inModule] at nameNamed
  have keyed := mem_select_key entry nameChild nameNamed value
  refine ⟨kind, isKind, location, ?_⟩
  rw [locationPath, select_append _ (by simp)]
  apply List.mem_flatMap.mpr
  refine ⟨node, keyed, List.mem_filter.mpr ⟨child, ?_⟩⟩
  simp only [XPathStep.selects, named, beq_self_eq_true, Bool.and_self]

/-- Whoever gets a location from the YANG library finds the text of the module there: what the
rewriting stores in an entry which the user may read is the scheme and the host with a path for
which the user is sent the text of this very module, as long as the context has it as what the
entry says it is. -/
theorem advertised_schema_served (answers : AnswersXPaths calls readable call)
    (finds : FindsByName call) {user : Str} {kind : LocationPath × Str}
    {node location : DataNode S} {yangModule : Impl.YangModule} {mod : M ⊕ N} {text : Str}
    {host : Str} {path : List QName} {edit : List (DataNode S) → List (DataNode S)}
    (isKind : kind ∈ entryKinds mod.isLeft)
    (entry : node ∈ LocationPath.select calls (str "ietf-yang-library")
      (kind.1 ++ [⟨kind.2, none⟩]) (readable user))
    (child : location ∈ node.children)
    (named : qname calls location.label = (str "ietf-yang-library", str "location"))
    (describes : Describes calls node yangModule)
    (relocated : relocateModule calls (some host) yangSchemaRoot path node = .ok edit)
    (found : getModuleOrSubmodule call.modules yangModule.name yangModule.revision = some mod)
    (method : call.method = str "GET" ∨ call.method = str "HEAD")
    (started : call.sessionStart = .ok ()) (admitted : call.authorize = .ok user)
    (printed : call.printStr mod = .ok text) :
    ∃ target created,
      calls.newPath node (locationLeafName path) (host ++ target) = .ok created ∧
      (∀ children, edit children = unlinked calls children ++ [created]) ∧
      handleSchemas { call with path := target } = .ok (yangSchemaText text) := by
  have isLocation : isModuleLocation calls location.label = true := by
    simp [isModuleLocation, isNamed, stepsIn, named]
  rcases relocateModule_cases relocated with
    ⟨noHost | nothing, _⟩ | ⟨_, url, created, known, encoded, stored, rfl⟩
  · cases noHost
  · have member : location ∈ locations calls node := List.mem_filter.mpr ⟨child, isLocation⟩
    rw [nothing] at member
    cases member
  · cases known
    have leads := describes.leadsTo encoded
    refine ⟨yangSchemaRoot ++ url, created, ?_, fun _ => rfl, ?_⟩
    · rw [← List.append_assoc]
      exact stored
    · have reads := readsLocation_of_entry isKind entry child named describes
      have access := (hasAccess_iff_reads answers finds leads.parsed found).mpr reads
      rw [handleSchemas_eq_text]
      exact ⟨user, mod, {
        method := method
        started := started
        admitted := admitted
        found := asYangModule_eq_ok.mpr ⟨yangModule, leads.parsed, found⟩
        access := access
        printed := printed }⟩

end Access

/-! ## One module -/

def exampleEntry : DataNode QName :=
  .inner (str "ietf-yang-library", str "module")
    [libraryLeaf "name" "example", libraryLeaf "revision" "2020-02-02",
      libraryLeaf "location" "file:///a"]

/-- A YANG library with one module. -/
def exampleLibrary : Forest QName :=
  [.inner (str "ietf-yang-library", str "yang-library")
    [.inner (str "ietf-yang-library", str "module-set")
      [libraryLeaf "name" "complete", exampleEntry]]]

def exampleModule : Impl.YangModule := ⟨str "example", some (str "2020-02-02")⟩

/-- A request for the schema of the module; sysrepo finds its location and nothing else. -/
def exampleCall (path : Str) : SchemaCall Unit Unit where
  method := str "GET"
  path := path
  sessionStart := .ok ()
  authorize := .ok (str "yangnobody")
  modules :=
    { getModule := fun name revision =>
        if name = exampleModule.name ∧ revision = exampleModule.revision then some () else none
      getSubmodule := fun _ _ => none }
  name _ := str "example"
  getData _ xpath := .ok (xpath == schemaXPath true (str "example"))
  printStr _ := .ok (str "module example {}")

theorem schemaXPath_injective {name other : Str}
    (same : schemaXPath true name = schemaXPath true other) : name = other := by
  have lengths := congrArg List.length same
  simp only [schemaXPath, if_true, List.append_assoc] at same
  simp only [schemaXPath, if_true, List.length_append] at lengths
  have rest := List.append_cancel_left (List.append_cancel_left same)
  exact (List.append_inj rest (by omega)).1

theorem schemaXPath_ne (name other : Str) : schemaXPath false name ≠ schemaXPath true other := by
  intro same
  simp only [schemaXPath, if_true, Bool.false_eq_true, if_false, List.append_assoc] at same
  have differs := congrArg (fun text => text[6]?) (List.append_cancel_left same)
  cases differs

/-- Each entry is the one of a module, and its name is the one which it has. -/
theorem exampleLibrary_entries (isRootModule : Bool) :
    ((entryKinds isRootModule).all fun kind => kind.1 != [] &&
      (LocationPath.select leafsOnly (str "ietf-yang-library") kind.1 exampleLibrary).all
        fun parent => parent.children.all fun node =>
          qname leafsOnly node.label != (str "ietf-yang-library", kind.2) ||
            isRootModule && node.children.all fun leaf =>
              qname leafsOnly leaf.label != (str "ietf-yang-library", str "name") ||
                DataNode.valueStr leaf == str "example") = true := by
  cases isRootModule <;> decide +kernel

/-- The entry is selected by its own name only. -/
theorem readsLocation_exampleLibrary {isRootModule : Bool} {name : Str} :
    ReadsLocation leafsOnly exampleLibrary isRootModule name ↔
      isRootModule = true ∧ name = str "example" := by
  constructor
  case mp =>
    rintro ⟨kind, isKind, location, member⟩
    have entries := exampleLibrary_entries isRootModule
    simp only [List.all_eq_true, Bool.and_eq_true, Bool.or_eq_true, bne_iff_ne, ne_eq,
      beq_iff_eq] at entries
    obtain ⟨some, entries⟩ := entries kind isKind
    rw [locationPath, select_append _ (by simp)] at member
    obtain ⟨node, entry, _⟩ := List.mem_flatMap.mp member
    rw [select_append _ some] at entry
    obtain ⟨parent, above, inside⟩ := List.mem_flatMap.mp entry
    obtain ⟨child, selected⟩ := List.mem_filter.mp inside
    have isEntry := qname_of_selects selected
    obtain ⟨isRoot, names⟩ := (entries parent above node child).resolve_left (absurd isEntry)
    simp only [XPathStep.selects, Bool.and_eq_true, List.any_eq_true, beq_iff_eq] at selected
    obtain ⟨_, leaf, isLeaf, isName, value⟩ := selected
    exact ⟨isRoot, value.symm.trans ((names leaf isLeaf).resolve_left (absurd isName))⟩
  case mpr =>
    rintro ⟨rfl, rfl⟩
    exact ⟨_, List.mem_cons_self, libraryLeaf "location" "file:///a", List.mem_singleton_self _⟩

theorem exampleCall_answers (path : Str) :
    AnswersXPaths leafsOnly (fun _ => exampleLibrary) (exampleCall path) := by
  intro user isRootModule name isName
  dsimp only
  rw [← schemaXPath_eq_unionText]
  apply congrArg Except.ok
  rw [Bool.eq_iff_iff, beq_iff_eq, List.any_map, List.any_eq_true]
  have reads : (∃ kind ∈ entryKinds isRootModule, ((fun path =>
      !(LocationPath.select leafsOnly (str "ietf-yang-library") path exampleLibrary).isEmpty) ∘
        fun kind => locationPath kind name) kind = true) ↔
      ReadsLocation leafsOnly exampleLibrary isRootModule name := by
    apply exists_congr
    intro kind
    apply and_congr_right'
    simp only [Function.comp_apply, Bool.not_eq_true', List.isEmpty_eq_false_iff_exists_mem]
  rw [reads, readsLocation_exampleLibrary]
  cases isRootModule with
  | true =>
      constructor
      · exact fun same => ⟨rfl, schemaXPath_injective same⟩
      · rintro ⟨_, rfl⟩
        rfl
  | false =>
      refine iff_of_false (schemaXPath_ne _ _) ?_
      rintro ⟨same, _⟩
      cases same

theorem exampleCall_finds (path : Str) : FindsByName (exampleCall path) := by
  intro name revision mod found
  simp only [getModuleOrSubmodule, exampleCall, Option.map_none] at found
  by_cases known : name = exampleModule.name ∧ revision = exampleModule.revision
  · rw [known.1]
    rfl
  · rw [if_neg known] at found
    cases found

theorem exampleEntry_describes : Describes leafsOnly exampleEntry exampleModule := by
  constructor
  case isName => decide
  case name => exact ⟨libraryLeaf "name" "example", rfl, rfl⟩
  case revision =>
    exact .date (.mk ⟨str "2020", rfl, List.all_eq_true.mp rfl⟩
      ⟨str "02", rfl, List.all_eq_true.mp rfl⟩ ⟨str "02", rfl, List.all_eq_true.mp rfl⟩)

theorem schema_served_example :
    handleSchemas (exampleCall (str "/yang/" ++ exampleModule.text)) =
      .ok (yangSchemaText (str "module example {}")) := by
  have parsed := Impl.parseModuleWithRevision_complete exampleEntry_describes.isModule
  have reads := (@readsLocation_exampleLibrary true (str "example")).mpr ⟨rfl, rfl⟩
  apply (schema_served_iff (exampleCall_answers _) (exampleCall_finds _) _).mpr
  exact ⟨.inl rfl, rfl, str "yangnobody", exampleModule, .inl (), rfl, parsed, rfl, reads, rfl⟩

theorem advertised_schema_served_example :
    ∃ target created, leafsOnly.newPath exampleEntry (str "location")
        (str "https://localhost" ++ target) = .ok created ∧
      handleSchemas (exampleCall target) = .ok (yangSchemaText (str "module example {}")) := by
  have kind : ([⟨str "yang-library", none⟩, ⟨str "module-set", some (str "name", str "complete")⟩],
      str "module") ∈ entryKinds (Sum.isLeft (.inl () : Unit ⊕ Unit)) := List.mem_cons_self
  have child : libraryLeaf "location" "file:///a" ∈ exampleEntry.children :=
    .tail _ (.tail _ (.head _))
  have relocated : ∃ edit, relocateModule leafsOnly (some (str "https://localhost")) yangSchemaRoot
      [(str "ietf-yang-library", str "yang-library")] exampleEntry = .ok edit := ⟨_, rfl⟩
  obtain ⟨edit, relocated⟩ := relocated
  obtain ⟨target, created, stored, _, served⟩ := advertised_schema_served (exampleCall_answers [])
    (exampleCall_finds []) kind (List.mem_singleton_self exampleEntry) child rfl
    exampleEntry_describes relocated rfl (.inl rfl) rfl rfl rfl
  exact ⟨target, created, stored, served⟩

end Rousette.Restconf.Server
