import Rousette.Libyang.Calls

/-!
# The module `example`

Some nodes of `tests/yang/example.yang`, as a schema to try the server on.
-/

namespace Rousette.Libyang.Example

open Library

/-- Nodes of the module. -/
inductive Node where
  | topLevelLeaf
  | topLevelLeaf2
  | topLevelList
  | topLevelListName
  | topLevelLeafList
  | tlc
  | list
  | listName
  | collection
  | choose
  | choice1
  deriving DecidableEq, Repr

namespace Node

/-- The nodes of the top level. -/
def topLevel : List Node := [topLevelLeaf, topLevelLeaf2, topLevelList, topLevelLeafList, tlc]

/-- The nodes which are not at the top level, with the nodes they are below in the data. -/
def nested : List (Node × Node) :=
  [(topLevelList, topLevelListName), (tlc, list), (list, listName), (list, collection),
    (list, choice1)]

def name : Node → Str
  | topLevelLeaf => str "top-level-leaf"
  | topLevelLeaf2 => str "top-level-leaf2"
  | topLevelList => str "top-level-list"
  | topLevelListName | listName => str "name"
  | topLevelLeafList => str "top-level-leaf-list"
  | tlc => str "tlc"
  | list => str "list"
  | collection => str "collection"
  | choose => str "choose"
  | choice1 => str "choice1"

def nodeType : Node → NodeType
  | topLevelList | list => .list
  | topLevelLeafList | collection => .leaflist
  | tlc => .container
  | choose => .choice
  | _ => .leaf

def parent : Node → Option Node
  | topLevelListName => some topLevelList
  | list => some tlc
  | listName | collection | choose => some list
  | choice1 => some choose
  | _ => none

def keys : Node → List Node
  | topLevelList => [topLevelListName]
  | list => [listName]
  | _ => []

def isKey : Node → Bool
  | topLevelListName | listName => true
  | _ => false

/-- The path to a node, from the data nodes above it. -/
def path : Node → Str
  | topLevelListName => str "/example:top-level-list/name"
  | list => str "/example:tlc/list"
  | listName => str "/example:tlc/list/name"
  | collection => str "/example:tlc/list/collection"
  | choose => str "/example:tlc/list/choose"
  | choice1 => str "/example:tlc/list/choose/choice1"
  | node => str "/example:" ++ node.name

/-- The paths under which `findPath` finds the nodes. -/
def paths : List (Str × Node) :=
  [topLevelLeaf, topLevelLeaf2, topLevelList, topLevelListName, topLevelLeafList, tlc, list,
    listName, collection].map (fun node => (node.path, node)) ++
    [(str "/example:tlc/list/choice1", choice1)]

end Node

/-- A path without the predicates in it; the flag tells whether we are inside of one. -/
def withoutPredicates : Bool → Str → Str
  | _, [] => []
  | false, c :: text =>
      if c = chr '[' then withoutPredicates true text else c :: withoutPredicates false text
  | true, c :: text =>
      if c = chr ']' then withoutPredicates false text else withoutPredicates true text

/-- What calls raise which have no answer. -/
def noAnswer : ErrorWithCode := ⟨.validationFailure, str "LY_EVALID"⟩

/-- `Context::findPath` -/
def findPath (path : Str) : Except ErrorWithCode Node :=
  match Node.paths.find? fun entry => entry.1 == withoutPredicates false path with
  | some entry => .ok entry.2
  | none => .error noAnswer

/-- The schema. -/
def schema : Context Node where
  moduleName _ := str "example"
  ns _ := str "http://example.tld/example"
  name := Node.name
  nodeType := Node.nodeType
  parent := Node.parent
  path := Node.path
  keys := Node.keys
  isKey := Node.isKey
  isUserOrdered _ := false
  childInstantiables node := (Node.nested.filter fun entry => entry.1 = node).map Prod.snd
  topLevel := Node.topLevel
  findPath := findPath
  children_unique := by
    intro parent child other member sibling _ same
    have unique : ∀ entry ∈ Node.nested, ∀ another ∈ Node.nested, entry.1 = another.1 →
        Node.name entry.2 = Node.name another.2 → entry.2 = another.2 := by decide
    simp only [List.mem_map, List.mem_filter, decide_eq_true_eq] at member sibling
    obtain ⟨entry, ⟨member, rfl⟩, rfl⟩ := member
    obtain ⟨another, ⟨sibling, above⟩, rfl⟩ := sibling
    exact unique entry member another sibling above.symm same
  findPath_topLevel := by decide
  keys_children := by
    intro node key isList
    cases node with
    | topLevelList => cases key <;> decide
    | list => cases key <;> decide
    | _ => cases isList
  topLevel_isKey := by decide

/-- Calls which take every error document and every meta attribute, and which answer
nothing else. -/
def calls : Calls Node :=
  { Calls.refusing schema noAnswer with
    newMeta := fun _ _ _ _ => .ok ()
    extend := fun _ _ => .ok ()
    findXPath := fun _ _ => .ok true
    printDocument := fun _ _ => .ok (some (str "\x7b\x7d")) }

end Rousette.Libyang.Example
