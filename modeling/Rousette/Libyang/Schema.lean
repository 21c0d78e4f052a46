import Rousette.Exceptions

/-!
# Schema contexts

What the server asks `libyang::Context` and `libyang::SchemaNode` for.  The schema
itself is a parameter: a type of schema nodes with the functions which read them.
The laws are those of YANG and of libyang's documentation which the server relies
on.
-/

namespace Rousette.Libyang

open Library

/-- `libyang::DataFormat` -/
inductive DataFormat where
  | json
  | xml
  deriving DecidableEq, Repr

/-- `libyang::NodeType` -/
inductive NodeType where
  | container
  | choice
  | leaf
  | leaflist
  | list
  | anyXML
  | anyData
  | caseNode
  | rpc
  | action
  | notification
  | input
  | output
  deriving DecidableEq, Repr

/-- `libyang::Context`, over the schema nodes `S` of its modules. -/
structure Context (S : Type) where
  moduleName : S → Str
  /-- `Module::ns` -/
  ns : S → Str
  name : S → Str
  nodeType : S → NodeType
  /-- the immediate schema parent, which may be a choice or a case -/
  parent : S → Option S
  /-- `SchemaNode::path` -/
  path : S → Str
  /-- `List::keys` -/
  keys : S → List S
  /-- `Leaf::isKey` -/
  isKey : S → Bool
  isUserOrdered : S → Bool
  /-- data nodes, rpcs and actions below a node, looking through choice and case -/
  childInstantiables : S → List S
  /-- the same at the top level of all modules -/
  topLevel : List S
  /-- `Context::findPath` -/
  findPath : Str → Except ErrorWithCode S
  /-- identifiers of one module are unique among the children of a node -/
  children_unique : ∀ {parent child other}, child ∈ childInstantiables parent →
    other ∈ childInstantiables parent → moduleName child = moduleName other →
    name child = name other → child = other
  /-- a top-level node is found by its module and name -/
  findPath_topLevel : ∀ {node}, node ∈ topLevel →
    findPath (str "/" ++ moduleName node ++ str ":" ++ name node) = .ok node
  /-- the keys of a list are among its children, and its children which are key leafs
  are its keys -/
  keys_children : ∀ {list key}, nodeType list = .list →
    (key ∈ keys list ↔ key ∈ childInstantiables list ∧ nodeType key = .leaf ∧
      isKey key = true)
  /-- there is no key without a list around it -/
  topLevel_isKey : ∀ {node}, node ∈ topLevel → isKey node = false

end Rousette.Libyang
