import Rousette.Restconf.Locations
import Rousette.Restconf.QueryPhrases
import Rousette.Restconf.UriRecognition

/-!
# URLs of YANG schemas

The YANG library in a response tells under which URL the text of a module is to be had.
`replaceYangLibraryLocations` makes the URL of the name and the revision in an entry, and
`parseModuleWithRevision` takes its path apart when a client asks for the schema.
-/

namespace Rousette.Restconf

open Library Libyang

/-! ## Paths of schemas -/

namespace Impl

/-- `impl::YangModule` -/
structure YangModule where
  name : Str
  revision : Option Str
  deriving DecidableEq, Repr

/-- The part of a path which tells the module. -/
def YangModule.text : YangModule → Str
  | ⟨name, none⟩ => name
  | ⟨name, some revision⟩ => name ++ str "@" ++ revision

namespace Grammar

open Parser

/-- `moduleName`, which is read like any other identifier -/
def moduleName : Parser Str := identifier

def revision : Parser Str := do
  let year ← replicate digit 4
  let further ← many digit
  let dash ← expect (str "'-'") (char '-')
  let month ← expect (str "two digits") (replicate digit 2)
  let dash' ← expect (str "'-'") (char '-')
  let day ← expect (str "two digits") (replicate digit 2)
  return year ++ further ++ [dash] ++ month ++ [dash'] ++ day

def yangSchemaGrammar : Parser YangModule := do
  expect (str "\"/\"") (lit (str "/"))
  expect (str "\"yang\"") (lit (str "yang"))
  expect (str "'/'") (lit (str "/"))
  let name ← expect (str "moduleName") moduleName
  let dated ← optional do
    lit (str "@")
    let date ← expect (str "revision") revision
    let _ ← optional (lit (str ".yang"))
    return date
  return ⟨name, dated⟩

end Grammar

/-- `parseModuleWithRevision` -/
def parseModuleWithRevision (input : Str) : Except Exception YangModule :=
  parse (str "path") Grammar.yangSchemaGrammar input 0

end Impl

/-- What the context finds modules by: `Context::getModule` and `Context::getSubmodule`. -/
structure ModuleLookup (M N : Type) where
  getModule : Str → Option Str → Option M
  getSubmodule : Str → Option Str → Option N

section Lookup

variable {M N : Type} (ctx : ModuleLookup M N)

/-- `getModuleOrSubmodule` -/
def getModuleOrSubmodule (name : Str) (revision : Option Str) : Option (M ⊕ N) :=
  match ctx.getModule name revision with
  | some mod => some (.inl mod)
  | none => (ctx.getSubmodule name revision).map .inr

/-- `asYangModule` -/
def asYangModule (uriPath : Str) : Except Exception (Option (M ⊕ N)) := do
  let parsedModule ← Impl.parseModuleWithRevision uriPath
  return getModuleOrSubmodule ctx parsedModule.name parsedModule.revision

end Lookup

namespace Impl

namespace Grammar

open Parser

/-- A date `YYYY-MM-DD`. -/
inductive IsDate : Str → Prop where
  | mk (year : Digits 4) (month day : Digits 2) :
      IsDate (year.text ++ str "-" ++ month.text ++ str "-" ++ day.text)

theorem IsDate.ne_nil {text : Str} (isDate : IsDate text) : text ≠ [] := by
  cases isDate with
  | mk year month day => simp [str]

theorem replicate_digits {count : Nat} (digits : Digits count) (rest : Str) :
    replicate digit count (digits.text ++ rest) = .ok digits.text rest :=
  replicate_satisfy_eq_ok.mpr ⟨rfl, digits.length, digits.areDigits⟩

theorem revision_complete {text : Str} (isDate : IsDate text) (rest : Str) :
    revision (text ++ rest) = .ok text rest := by
  cases isDate with
  | mk year month day =>
      have dash (rest : Str) :
          expect (str "'-'") (char '-') (str "-" ++ rest) = .ok (chr '-') rest := rfl
      have number (digits : Digits 2) (rest : Str) :
          expect (str "two digits") (replicate digit 2) (digits.text ++ rest) =
            .ok digits.text rest :=
        expect_eq_ok.mpr (replicate_digits digits rest)
      have noFurther (rest : Str) : many digit (str "-" ++ rest) = .ok [] (str "-" ++ rest) := by
        have stops : Stops Ascii.isDigit (str "-" ++ rest) := stops_cons.mpr (by decide)
        rw [digit, many_satisfy, stops.takeWhile, stops.dropWhile]
      simp only [revision, bind_apply, List.append_assoc, replicate_digits year, noFurther, dash,
        number, pure_apply, List.nil_append]
      rfl

/-- A module which has an identifier for its name, and a date for its revision. -/
structure IsModule (yangModule : YangModule) : Prop where
  name : IsIdentifier yangModule.name
  revision : ∀ revision ∈ yangModule.revision, IsDate revision

theorem yangSchemaGrammar_complete {yangModule : YangModule} (isModule : IsModule yangModule) :
    yangSchemaGrammar (str "/yang/" ++ yangModule.text) = .ok yangModule [] := by
  obtain ⟨name, dated⟩ := yangModule
  obtain ⟨identifier, rfl⟩ := isModule.name.exists_text
  have root (rest : Str) :
      str "/yang/" ++ rest = str "/" ++ (str "yang" ++ (str "/" ++ rest)) := rfl
  have named {rest : Str} (stops : Stops isIdentifierChar rest) :
      expect (str "moduleName") moduleName (identifier.text ++ rest) = .ok identifier.text rest :=
    expect_eq_ok.mpr (recognizes_identifier.complete identifier stops)
  have word (what text rest : Str) : expect what (lit text) (text ++ rest) = .ok () rest :=
    expect_eq_ok.mpr (lit_append text rest)
  cases dated with
  | none =>
      have last := named (stops_nil _)
      rw [List.append_nil] at last
      simp only [YangModule.text, root, yangSchemaGrammar, bind_apply, word, last]
      rfl
  | some date =>
      have isDate := revision_complete (isModule.revision date rfl) []
      have dated : expect (str "revision") revision date = .ok date [] :=
        expect_eq_ok.mpr (by rwa [List.append_nil] at isDate)
      have sign : Stops isIdentifierChar (str "@" ++ date) := stops_cons.mpr (by decide)
      simp only [YangModule.text, root, yangSchemaGrammar, bind_apply, word, List.append_assoc,
        named sign, Parser.optional, lit_append, dated]
      rfl

end Grammar

theorem parseModuleWithRevision_complete {yangModule : YangModule}
    (isModule : Grammar.IsModule yangModule) :
    parseModuleWithRevision (str "/yang/" ++ yangModule.text) = .ok yangModule := by
  have parsed := Grammar.yangSchemaGrammar_complete isModule
  simp only [parseModuleWithRevision, parse, Parser.bind_apply, parsed]
  rfl

end Impl

namespace Locations

open Impl Impl.Grammar

variable {S : Type} (calls : Calls S)

/-! ## Entries of the YANG library -/

/-- What the leaf `revision` says, which may be missing. -/
inductive MeansRevision : Option (DataNode S) → Option Str → Prop where
  | absent : MeansRevision none none
  | empty {node : DataNode S} (noText : node.valueStr = []) : MeansRevision (some node) none
  | date {node : DataNode S} (isDate : IsDate node.valueStr) :
      MeansRevision (some node) (some node.valueStr)

/-- The entry is about this module. -/
structure Describes (node : DataNode S) (yangModule : YangModule) : Prop where
  isName : IsIdentifier yangModule.name
  name : ∃ nameNode, findChild calls node "name" = some nameNode ∧
    nameNode.valueStr = yangModule.name
  revision : MeansRevision (findChild calls node "revision") yangModule.revision

/-- The path is one of this module, in whichever context the server looks it up. -/
structure LeadsTo (path : Str) (yangModule : YangModule) : Prop where
  parsed : parseModuleWithRevision path = .ok yangModule
  found : ∀ {M N : Type} (ctx : ModuleLookup M N), asYangModule ctx path =
    .ok (getModuleOrSubmodule ctx yangModule.name yangModule.revision)

/-- An entry with a location keeps exactly one, at which a client finds what the entry is
about. -/
structure Advertises (host : Str) (entry entry' : List QName × DataNode S) : Prop where
  path : entry'.1 = entry.1
  label : entry'.2.label = entry.2.label
  location : locations calls entry.2 ≠ [] → ∃ location, locations calls entry'.2 = [location] ∧
    ∀ yangModule, Describes calls entry.2 yangModule →
      ∃ path, location.valueStr = host ++ path ∧ LeadsTo path yangModule

/-- `newPath` with the name of a location creates a leaf of this name, in the module of the
parent. -/
def CreatesLocations : Prop :=
  ∀ {node path value created}, calls.newPath node (locationLeafName path) value = .ok created →
    qname calls created.label = (calls.ctx.moduleName node.schema, locationLeafName path)

/-- libyang takes the new locations, which are of the type `inet:uri`, and stores them as
they are. -/
def StoresUrls (host : Str) (data : Forest S) : Prop :=
  ∀ entry ∈ moduleEntries calls data, locations calls entry.2 ≠ [] →
    ∀ url ∈ moduleUrl calls entry.2, ∃ created,
      calls.newPath entry.2 (locationLeafName entry.1) (host ++ yangSchemaRoot ++ url) =
        .ok created ∧
      created.valueStr = host ++ yangSchemaRoot ++ url

variable {calls}

theorem MeansRevision.isDate {found : Option (DataNode S)} {revision : Option Str}
    (means : MeansRevision found revision) : ∀ date ∈ revision, IsDate date := by
  intro date present
  cases means with
  | absent => cases present
  | empty _ => cases present
  | date isDate =>
      cases present
      exact isDate

theorem Describes.isModule {node : DataNode S} {yangModule : YangModule}
    (describes : Describes calls node yangModule) : IsModule yangModule := by
  constructor
  case name => exact describes.isName
  case revision => exact describes.revision.isDate

/-- An entry says what the URL is made of. -/
theorem Describes.moduleUrl {node : DataNode S} {yangModule : YangModule}
    (describes : Describes calls node yangModule) :
    moduleUrl calls node = some yangModule.text := by
  obtain ⟨nameNode, found, name⟩ := describes.name
  obtain ⟨moduleName, revision⟩ := yangModule
  have means := describes.revision
  simp only at name means
  rw [Locations.moduleUrl, found, Option.map_some, name]
  generalize findChild calls node "revision" = revisionNode at means
  cases means with
  | absent => rfl
  | empty noText => simp only [noText, List.isEmpty_nil, if_true, YangModule.text]
  | date isDate =>
      have some := List.isEmpty_eq_false_iff.mpr isDate.ne_nil
      simp only [some, Bool.false_eq_true, if_false, YangModule.text]

/-- What is encoded is parsed back. -/
theorem Describes.leadsTo {node : DataNode S} {yangModule : YangModule}
    (describes : Describes calls node yangModule) {url : Str}
    (encoded : Locations.moduleUrl calls node = some url) :
    LeadsTo (yangSchemaRoot ++ url) yangModule := by
  rw [describes.moduleUrl] at encoded
  cases encoded
  have parsed := parseModuleWithRevision_complete describes.isModule
  constructor
  case parsed => exact parsed
  case found =>
    intro M N ctx
    rw [asYangModule, yangSchemaRoot, parsed]
    rfl

/-! ## Relocation of modules -/

/-- There is nothing to be selected at a location or below. -/
theorem unselected_of_isModuleLocation {data : NodeData S}
    (location : isModuleLocation calls data = true) (above below : List QName) :
    moduleNodesXPath.contains (above ++ [qname calls data] ++ below) = false := by
  have noLocation : ∀ path ∈ moduleNodesXPath, ∀ step ∈ path,
      (stepsIn (str "ietf-yang-library") ["location", "schema"]).contains step = false := by
    decide
  rw [List.contains_eq_mem, decide_eq_false_iff_not]
  intro selected
  have step := noLocation _ selected (qname calls data) (by simp)
  rw [isModuleLocation, isNamed, step] at location
  cases location

/-- Entries below an entry are found again. -/
theorem selectAll_relocateModule (named : CreatesLocations calls) {host urlPrefix : Str}
    {above : List QName} {node : DataNode S} {edit : List (DataNode S) → List (DataNode S)}
    (selected : moduleNodesXPath.contains (above ++ [qname calls node.label]) = true)
    (planned : relocateModule calls (some host) urlPrefix (above ++ [qname calls node.label])
      node = .ok edit) (children : List (DataNode S)) :
    Tree.selectAll (qname calls) (moduleNodesXPath.contains ·)
        (above ++ [qname calls node.label]) (edit children) =
      Tree.selectAll (qname calls) (moduleNodesXPath.contains ·)
        (above ++ [qname calls node.label]) children := by
  have kept : Tree.selectAll (qname calls) (moduleNodesXPath.contains ·)
      (above ++ [qname calls node.label]) (unlinked calls children) =
      Tree.selectAll (qname calls) (moduleNodesXPath.contains ·)
        (above ++ [qname calls node.label]) children := by
    apply Tree.selectAll_filter fun data => !isModuleLocation calls data
    intro data removed below
    exact unselected_of_isModuleLocation (Bool.not_eq_eq_eq_not.mp removed) _ below
  rcases relocateModule_cases planned with ⟨_, rfl⟩ | ⟨_, _, created, _, _, stored, rfl⟩
  · exact kept
  · have location := isModuleLocation_created selected (named stored)
    have nothing : Tree.select (qname calls) (moduleNodesXPath.contains ·)
        (above ++ [qname calls node.label]) created = [] :=
      Tree.select_unselected created (unselected_of_isModuleLocation location _)
    rw [Tree.selectAll_append, kept, Tree.selectAll, nothing, Tree.selectAll, List.append_nil,
      List.append_nil]

theorem filter_unlinked (children : List (DataNode S)) :
    ((unlinked calls children).filter fun child => isModuleLocation calls child.label) = [] := by
  rw [List.filter_eq_nil_iff]
  intro child member
  have kept := (List.mem_filter.mp member).2
  simpa using kept

/-- What becomes of an entry. -/
theorem advertises_of_edited (named : CreatesLocations calls) {host : Str}
    {entry entry' : List QName × DataNode S}
    (stores : locations calls entry.2 ≠ [] → ∀ url ∈ moduleUrl calls entry.2, ∃ created,
      calls.newPath entry.2 (locationLeafName entry.1) (host ++ yangSchemaRoot ++ url) =
        .ok created ∧
      created.valueStr = host ++ yangSchemaRoot ++ url)
    (edited : Tree.Edited (qname calls) (moduleNodesXPath.contains ·)
      (relocateModule calls (some host) yangSchemaRoot) entry entry') :
    Advertises calls host entry entry' := by
  obtain ⟨edit, rewritten, planned, _, children⟩ := edited.children
  refine ⟨edited.path, edited.label, ?_⟩
  intro located
  rcases relocateModule_cases planned with
    ⟨nothing, _⟩ | ⟨_, url, created, known, encoded, stored, rfl⟩
  · rcases nothing with unknown | none
    · cases unknown
    · exact absurd none located
  cases known
  obtain ⟨_, stored', value⟩ := stores located url encoded
  rw [stored] at stored'
  cases stored'
  obtain ⟨above, path⟩ := edited.ends
  have selected := edited.selected
  rw [path] at selected stored
  have location := isModuleLocation_created selected (named stored)
  refine ⟨created, ?_, ?_⟩
  · rw [locations, children, List.filter_append, filter_unlinked]
    simp [location]
  · intro yangModule describes
    refine ⟨yangSchemaRoot ++ url, ?_, describes.leadsTo encoded⟩
    rw [value, List.append_assoc]

/-- Every URL of a schema in the YANG library is one which the server has an answer to: it
leads to the module or submodule of the entry. -/
theorem replaceYangLibraryLocations_advertises (named : CreatesLocations calls) {host : Str}
    {data : Forest S} (keyed : Keyed calls data) (stores : StoresUrls calls host data) :
    ∃ after, replaceYangLibraryLocations calls (some host) yangSchemaRoot data = .ok after ∧
      List.Forall₂ (Advertises calls host) (moduleEntries calls data)
        (moduleEntries calls after) := by
  have planned : ∀ entry ∈ moduleEntries calls data,
      ∃ edit, relocateModule calls (some host) yangSchemaRoot entry.1 entry.2 = .ok edit := by
    intro entry member
    rw [relocateModule_isOk_iff (keyed entry member)]
    rintro _ ⟨⟩ ⟨child, present, location⟩ url encoded
    have located : locations calls entry.2 ≠ [] :=
      List.ne_nil_of_mem (List.mem_filter.mpr ⟨present, location⟩)
    obtain ⟨created, stored, _⟩ := stores entry member located url encoded
    exact ⟨created, stored⟩
  obtain ⟨after, done⟩ := (Tree.rewriteAll_isOk_iff [] data).mpr planned
  have edited := Tree.selectAll_rewriteAll_edited (selectAll_relocateModule named) [] data done
  refine ⟨after, done, ?_⟩
  refine ((List.forall₂_and_left _ _).mpr ⟨stores, edited⟩).imp ?_
  rintro entry entry' ⟨stored, edited⟩
  exact advertises_of_edited named stored edited

/-- An entry of the YANG library, in the old list of modules or in the new one. -/
def entryData (names : List String) (leafs : List (DataNode QName)) : DataNode QName :=
  match names with
  | [] => .inner (str "ietf-yang-library", str "module") leafs
  | name :: names => .inner (str "ietf-yang-library", str name) [entryData names leafs]

def libraryLeaf (name value : String) : DataNode QName :=
  .leaf (str "ietf-yang-library", str name) (str value)

/-- A module with its revision, and the same without one in the old list. -/
def libraryData : Forest QName :=
  [entryData ["yang-library", "module-set"] [libraryLeaf "name" "example",
      libraryLeaf "revision" "2020-02-02", libraryLeaf "location" "file:///a",
      libraryLeaf "location" "file:///b"],
    entryData ["modules-state"] [libraryLeaf "name" "example", libraryLeaf "revision" "",
      libraryLeaf "schema" "file:///a"]]

theorem libraryData_advertises :
    ∃ after, replaceYangLibraryLocations leafsOnly (some (str "https://localhost"))
        yangSchemaRoot libraryData = .ok after ∧
      List.Forall₂ (Advertises leafsOnly (str "https://localhost"))
        (moduleEntries leafsOnly libraryData) (moduleEntries leafsOnly after) := by
  have named : CreatesLocations leafsOnly := leafsOnly_createsNamed
  apply replaceYangLibraryLocations_advertises named
  · have names : ∀ entry ∈ moduleEntries leafsOnly libraryData,
        (findChild leafsOnly entry.2 "name").isSome = true := by decide
    intro entry member
    exact Option.isSome_iff_exists.mp (names entry member)
  · intro entry _ _ url _
    exact ⟨_, rfl, rfl⟩

example :
    (replaceYangLibraryLocations leafsOnly (some (str "https://localhost")) yangSchemaRoot
      libraryData).map (fun after => (moduleEntries leafsOnly after).map fun entry =>
        (locations leafsOnly entry.2).map DataNode.valueStr) =
      .ok [[str "https://localhost/yang/example@2020-02-02"],
        [str "https://localhost/yang/example"]] := rfl

end Locations

end Rousette.Restconf
