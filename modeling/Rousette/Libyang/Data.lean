import Rousette.Libyang.Schema
import Rousette.Library.Tree

/-!
# Data trees

A data node has a schema node, a value if it is a term, meta attributes and
children.  What a `libyang::DataNode` of the top level stands for is a forest: the
node with the siblings which follow it.
-/

namespace Rousette.Libyang

open Library

/-- A meta attribute.  `byServer` tells the attributes which the server has added from
those which came with the data; the program never looks at it. -/
structure Meta where
  moduleName : Str
  name : Str
  value : Str
  isInternal : Bool
  byServer : Bool
  deriving DecidableEq, Repr

/-- What a data node carries. -/
structure NodeData (S : Type) where
  schema : S
  /-- `asTerm().valueStr()`, the canonical value -/
  value : Str
  metas : List Meta
  deriving DecidableEq, Repr

/-- `libyang::DataNode` with everything below it. -/
abbrev DataNode (S : Type) := Library.Tree (NodeData S)

/-- A node of the top level with its siblings. -/
abbrev Forest (S : Type) := List (DataNode S)

namespace DataNode

variable {S : Type}

/-- `DataNode::schema` -/
def schema (node : DataNode S) : S := node.label.schema

/-- `DataNodeTerm::valueStr` -/
def valueStr (node : DataNode S) : Str := node.label.value

/-- `DataNode::meta` -/
def metas (node : DataNode S) : List Meta := node.label.metas

/-- Add meta attributes. -/
def addMetas (metas : List Meta) (node : DataNode S) : DataNode S :=
  node.mapLabel fun data => { data with metas := data.metas ++ metas }

/-- `DataNode::newMeta`, which the server adds. -/
def newMeta (moduleName name value : Str) (node : DataNode S) : DataNode S :=
  node.addMetas [⟨moduleName, name, value, false, true⟩]

/-- The node without its meta attributes and those of the nodes below it. -/
def bare (node : DataNode S) : DataNode S := node.map fun data => { data with metas := [] }

@[simp] theorem schema_bare (node : DataNode S) : node.bare.schema = node.schema := by
  rw [bare, schema, Tree.label_map, schema]

@[simp] theorem valueStr_bare (node : DataNode S) : node.bare.valueStr = node.valueStr := by
  rw [bare, valueStr, Tree.label_map, valueStr]

@[simp] theorem children_bare (node : DataNode S) :
    node.bare.children = node.children.map bare := by
  rw [bare, Tree.children_map]
  rfl

/-- A leaf with a value. -/
def leaf (schema : S) (value : Str) : DataNode S := .node ⟨schema, value, []⟩ []

/-- A node with children and no value. -/
def inner (schema : S) (children : List (DataNode S)) : DataNode S :=
  .node ⟨schema, [], []⟩ children

/-- The first child with this schema node, as `findPath` of a single step gives it. -/
def child? [DecidableEq S] (node : DataNode S) (schema : S) : Option (DataNode S) :=
  node.children.find? fun child => child.schema = schema

end DataNode

namespace Forest

variable {S : Type}

/-- Change the node at a position of a forest. -/
def modifyAt (change : DataNode S → DataNode S) (forest : Forest S) :
    Position → Forest S
  | [] => forest
  | index :: position => forest.modify index (Tree.modifyAt change position)

/-- The node at a position of a forest. -/
def at? (forest : Forest S) : Position → Option (DataNode S)
  | [] => none
  | index :: position => (forest[index]?).bind (Tree.at? position)

/-- The nodes on the way to a position of a forest. -/
def along (forest : Forest S) : Position → List (DataNode S)
  | [] => []
  | index :: position =>
      match forest[index]? with
      | some tree => Tree.along position tree
      | none => []

theorem modifyAt_modifyAt (change further : DataNode S → DataNode S) (forest : Forest S)
    (position : Position) :
    modifyAt further (modifyAt change forest position) position =
      modifyAt (further ∘ change) forest position := by
  cases position with
  | nil => rfl
  | cons index position =>
      simp only [modifyAt, List.modify_modify_eq]
      congr 1
      funext tree
      exact Tree.modifyAt_modifyAt change further position tree

theorem modifyAt_id (forest : Forest S) (position : Position) :
    modifyAt id forest position = forest := by
  cases position with
  | nil => rfl
  | cons index position =>
      have same : Tree.modifyAt (id : DataNode S → DataNode S) position = id :=
        funext (Tree.modifyAt_id position)
      rw [modifyAt, same, List.modify_id]

/-- A change is what is found at its position. -/
theorem at?_modifyAt (change : DataNode S → DataNode S) (forest : Forest S)
    (position : Position) :
    at? (modifyAt change forest position) position = (at? forest position).map change := by
  cases position with
  | nil => rfl
  | cons index position =>
      simp only [at?, modifyAt, List.getElem?_modify_eq]
      cases forest[index]? with
      | none => rfl
      | some tree => exact Tree.at?_modifyAt change position tree

/-- Meta attributes make no difference to what is left without them. -/
theorem map_bare_modifyAt (metas : List Meta) (forest : Forest S) (position : Position) :
    (modifyAt (DataNode.addMetas metas) forest position).map DataNode.bare =
      forest.map DataNode.bare := by
  have same : ∀ node : DataNode S, (node.addMetas metas).bare = id node.bare := by
    intro node
    cases node with
    | node data children => simp [DataNode.addMetas, Tree.mapLabel, DataNode.bare]
  cases position with
  | nil => rfl
  | cons index position =>
      have below : ∀ tree : DataNode S,
          DataNode.bare (Tree.modifyAt (DataNode.addMetas metas) position tree) = id tree.bare := by
        intro tree
        rw [DataNode.bare, Tree.map_modifyAt same, Tree.modifyAt_id]
        rfl
      rw [modifyAt, Tree.map_modify below, List.modify_id]

theorem along_bare (forest : Forest S) (position : Position) :
    along (forest.map DataNode.bare) position = (along forest position).map DataNode.bare := by
  cases position with
  | nil => rfl
  | cons index position =>
      simp only [along, List.getElem?_map]
      cases forest[index]? with
      | none => rfl
      | some tree => exact Tree.along_map _ position tree

@[simp] theorem length_modifyAt (change : DataNode S → DataNode S) (forest : Forest S)
    (position : Position) : (modifyAt change forest position).length = forest.length := by
  cases position with
  | nil => rfl
  | cons index position => simp [modifyAt]

end Forest

end Rousette.Libyang
