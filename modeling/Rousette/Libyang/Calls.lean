import Rousette.Libyang.Data

/-!
# Calls into libyang

The operations of libyang which create, read and print data are parameters of the
model.  Each may raise `libyang::ErrorWithCode`; what the server relies on is stated
where it is needed, as a property of the calls.
-/

namespace Rousette.Libyang

open Library

/-- Raise what libyang raises. -/
def raise {α : Type} : Except ErrorWithCode α → Except Exception α
  | .ok value => .ok value
  | .error error => .error (.libyang error)

@[simp] theorem raise_eq_ok {α : Type} {result : Except ErrorWithCode α} {value : α} :
    raise result = .ok value ↔ result = .ok value := by
  cases result <;> simp [raise]

theorem raise_eq_error {α : Type} {result : Except ErrorWithCode α} {exception : Exception} :
    raise result = .error exception ↔
      ∃ error, result = .error error ∧ exception = .libyang error := by
  cases result <;> simp [raise, eq_comm]

/-- `libyang::CreatedNodes`: the topmost created node with everything below it, and the
created node which the path names. -/
structure CreatedNodes (S : Type) where
  createdParent : DataNode S
  position : Position
  createdNode : DataNode S
  found : createdParent.at? position = some createdNode

/-- A step of building a document: what is created below which node. -/
inductive Entry where
  | newPath (below path : Str) (value : Option Str)
  | newAny (below path : Str) (content : List (Str × Option Str))
  /-- `newOpaqueJSON` or `newOpaqueXML` with the parts of the name, and `insertChild` -/
  | newOpaque (below moduleNameOrNamespace modulePrefix name : Str) (value : Option Str)
  deriving DecidableEq, Repr

/-- A document which the server makes itself, as the steps which built it. -/
abbrev Document := List Entry

/-- The flags `WithDefaults…` of `libyang::PrintFlags`. -/
inductive WithDefaults where
  | trim
  | all
  | allTag
  deriving DecidableEq, Repr

/-- `libyang::PrintFlags` which the server uses. -/
structure PrintFlags where
  siblings : Bool
  emptyContainers : Bool
  withDefaults : Option WithDefaults
  deriving DecidableEq, Repr

/-- The node `value` of an edit of a YANG Patch. -/
inductive PatchValue where
  | absent
  /-- without a data node inside, and the path of `value` -/
  | notData (path : Str)
  /-- with a data node, and what printing it as JSON gives -/
  | data (printed : Except ErrorWithCode (Option Str))

/-- An edit of a YANG Patch with the leafs that the server reads. -/
structure PatchEdit where
  editId : Option Str
  target : Option Str
  operation : Option Str
  wherePlace : Option Str
  point : Option Str
  value : PatchValue

/-- A YANG Patch document. -/
structure Patch where
  patchId : Option Str
  edits : List PatchEdit

/-- The calls. -/
structure Calls (S : Type) where
  ctx : Context S
  /-- `Context::newPath2` without a value -/
  newPath2 : Str → Except ErrorWithCode (CreatedNodes S)
  /-- `Context::newPath2` with `CreationOptions::Opaque`, and `isOpaque` of the created
  node -/
  newOpaquePath2 : Str → Except ErrorWithCode (CreatedNodes S × Bool)
  /-- `Context::parseData`: nothing, or the first node with its siblings -/
  parseData : Str → DataFormat → Except ErrorWithCode (Forest S)
  /-- `Context::parseData` of a YANG Patch document -/
  parsePatch : Str → DataFormat → Except ErrorWithCode (Option Patch)
  /-- `DataNode::parseSubtree`: the nodes which are added below a node -/
  parseSubtree : DataNode S → Str → DataFormat → Except ErrorWithCode (Forest S)
  /-- `DataNode::newPath` of a single step with a value: the created leaf -/
  newPath : DataNode S → Str → Str → Except ErrorWithCode (DataNode S)
  /-- `DataNode::newMeta` on a node, with module, name and value -/
  newMeta : DataNode S → Str → Str → Str → Except ErrorWithCode Unit
  /-- `DataNode::newAttrOpaqueJSON` with module, name and value -/
  newAttrOpaqueJSON : Str → Str → Str → Except ErrorWithCode Unit
  /-- `DataNode::path` of the node at a position -/
  dataPath : Forest S → Position → Str
  /-- one more step of a document -/
  extend : Document → Entry → Except ErrorWithCode Unit
  /-- whether `DataNode::findXPath` or `DataNode::findPath` finds something in a document -/
  findXPath : Document → Str → Except ErrorWithCode Bool
  /-- `DataNode::printStr` of a document with its siblings -/
  printDocument : Document → DataFormat → Except ErrorWithCode (Option Str)
  /-- `DataNode::printStr` of the node of a document which has the path -/
  printNode : Document → Str → DataFormat → PrintFlags → Except ErrorWithCode (Option Str)
  /-- `DataNode::findPath` -/
  findPath : Forest S → Str → Except ErrorWithCode (Option (DataNode S))
  /-- `DataNodeTerm::isImplicitDefault` -/
  isImplicitDefault : DataNode S → Bool
  /-- `Module::revision` of `ietf-yang-library`, which is in every context -/
  yangLibraryRevision : Option Str
  /-- `DataNode::printStr` of data -/
  printStr : Forest S → DataFormat → PrintFlags → Except ErrorWithCode (Option Str)

namespace Calls

/-- Calls which all raise the same error; the starting point for concrete ones. -/
def refusing {S : Type} (ctx : Context S) (error : ErrorWithCode) : Calls S where
  ctx := ctx
  newPath2 _ := .error error
  newOpaquePath2 _ := .error error
  parseData _ _ := .error error
  parsePatch _ _ := .error error
  parseSubtree _ _ _ := .error error
  newPath _ _ _ := .error error
  newMeta _ _ _ _ := .error error
  newAttrOpaqueJSON _ _ _ := .error error
  dataPath _ _ := []
  extend _ _ := .error error
  findXPath _ _ := .error error
  printDocument _ _ := .error error
  printNode _ _ _ _ := .error error
  findPath _ _ := .error error
  isImplicitDefault _ := false
  yangLibraryRevision := none
  printStr _ _ _ := .error error

/-- What libyang promises about the data it creates: it follows the schema, and what was
parsed was not added by the server. -/
structure Conforms {S : Type} (calls : Calls S) : Prop where
  parseData_topLevel : ∀ {text format forest}, calls.parseData text format = .ok forest →
    ∀ tree ∈ forest, DataNode.schema tree ∈ calls.ctx.topLevel
  parseData_byClient : ∀ {text format forest}, calls.parseData text format = .ok forest →
    ∀ tree ∈ forest, Tree.All (fun data => ∀ item ∈ data.metas, item.byServer = false) tree
  parseSubtree_child : ∀ {node text format parsed},
    calls.parseSubtree node text format = .ok parsed →
    ∀ child ∈ parsed, DataNode.schema child ∈ calls.ctx.childInstantiables node.schema
  newPath2_findPath : ∀ {path created}, calls.newPath2 path = .ok created →
    calls.ctx.findPath path = .ok created.createdNode.schema
  newPath2_child : ∀ {path created}, calls.newPath2 path = .ok created →
    ∀ child ∈ created.createdNode.children,
      DataNode.schema child ∈ calls.ctx.childInstantiables created.createdNode.schema

/-- All children of a node which was created and then filled are in its schema. -/
theorem Conforms.children {S : Type} {calls : Calls S} (conforms : calls.Conforms) {path : Str}
    {created : CreatedNodes S} {text : Str} {format : DataFormat} {parsed : Forest S}
    (creates : calls.newPath2 path = .ok created)
    (parses : calls.parseSubtree created.createdNode text format = .ok parsed) :
    ∀ child ∈ created.createdNode.children ++ parsed,
      DataNode.schema child ∈ calls.ctx.childInstantiables created.createdNode.schema := by
  intro child member
  rcases List.mem_append.mp member with own | new
  · exact conforms.newPath2_child creates child own
  · exact conforms.parseSubtree_child parses child new

end Calls

end Rousette.Libyang
