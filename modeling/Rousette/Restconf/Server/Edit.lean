import Rousette.Restconf.Server.Response

/-!
# Building of edits

`createEditForPutAndPatch` of `restconf/Server.cpp` and the functions it calls: the
payload is parsed below the ancestors which the URI names, and the keys in it are
compared with those of the URI.  A node inside an edit is referred to by its
position.
-/

namespace Rousette.Restconf.Server

open Library Libyang

/-- A forest with the position of one of its nodes: the edit, and the node which the
NETCONF operation is set on. -/
structure EditNodes (S : Type) where
  edit : Forest S
  replacement : Position

/-- What `checkKeysMismatch` objects to. -/
structure KeyMismatch where
  /-- the way from the checked node to the offending one -/
  offending : Position
  /-- the value of the offending node -/
  value : Str
  uriKeyValue : Option Str
  deriving DecidableEq, Repr

/-- `KeyMismatch::message` -/
def KeyMismatch.message (mismatch : KeyMismatch) : Str :=
  match mismatch.uriKeyValue with
  | some uriKeyValue =>
      str "List key mismatch between URI path ('" ++ uriKeyValue ++ str "') and data ('" ++
        mismatch.value ++ str "')."
  | none => str "List key mismatch (key missing in the data)."

/-- An error response for invalid data. -/
def invalidValue (errorMessage : Str) (errorPath : Option Str) : Exception :=
  .errorResponse
    ⟨400, str "protocol", str "invalid-value", errorMessage, errorPath, none⟩

section Keys

variable {S : Type} [DecidableEq S] (calls : Calls S)

/-- `isSameNode`; the prefix of the last segment is always known. -/
def isSameNode (child : DataNode S) (lastPathSegment : PathSegment) : Bool :=
  lastPathSegment.apiIdent.modulePrefix == some (calls.ctx.moduleName child.schema) &&
    calls.ctx.name child.schema == lastPathSegment.apiIdent.identifier

/-- `compareKeyValue` -/
def compareKeyValue (pathA pathB : Str) : Except Exception Bool := do
  let a ← raise (calls.newPath2 pathA)
  let b ← raise (calls.newPath2 pathB)
  return a.createdNode.valueStr == b.createdNode.valueStr

/-- `keys[index] = value`, or nothing to be relied on past the end. -/
def assignKey (keys : List Str) (index : Nat) (value : Str) : Except Exception (List Str) :=
  if index < keys.length then .ok (keys.set index value) else .error .undefined

/-- The paths to a key of a list entry with the value of the payload and with the one of the
URI. -/
def keyPaths (list key : S) (pathPrefix : Str) (uriKeys : List Str) (index : Nat)
    (value : Str) : Except Exception (Str × Str) := do
  let listKeys := calls.ctx.keys list
  let keysWithValueFromData ← assignKey uriKeys index value
  let suffix := str "/" ++ calls.ctx.name key
  let fromData ← listKeyPredicate calls.ctx listKeys keysWithValueFromData
  let fromUri ← listKeyPredicate calls.ctx listKeys uriKeys
  return (pathPrefix ++ fromData ++ suffix, pathPrefix ++ fromUri ++ suffix)

/-- The loop of `checkKeysMismatch` over the keys of a list, from the given index on. -/
def checkListKeys (node : DataNode S) (pathPrefix : Str) (uriKeys : List Str) (index : Nat) :
    List S → Except Exception (Option KeyMismatch)
  | [] => .ok none
  | key :: rest =>
      match node.child? key with
      | none => .ok (some ⟨[], node.valueStr, none⟩)
      | some keyNode => do
          let (fromData, fromUri) ←
            keyPaths calls node.schema key pathPrefix uriKeys index keyNode.valueStr
          let same ← compareKeyValue calls fromData fromUri
          if same then checkListKeys node pathPrefix uriKeys (index + 1) rest
          else
            let position := node.children.findIdx fun child => DataNode.schema child = key
            return some ⟨[position], keyNode.valueStr, uriKeys[index]?⟩

/-- `checkKeysMismatch` -/
def checkKeysMismatch (node : DataNode S) (lyParentPath : Str)
    (lastPathSegment : PathSegment) : Except Exception (Option KeyMismatch) :=
  let pathPrefix := lyParentPath ++ str "/" ++ lastPathSegment.apiIdent.qualifiedName
  match calls.ctx.nodeType node.schema with
  | .list =>
      checkListKeys calls node pathPrefix lastPathSegment.keys 0 (calls.ctx.keys node.schema)
  | .leaflist => do
      let fromData ← leaflistKeyPredicate node.valueStr
      let uriKey ← deref lastPathSegment.keys.head?
      let fromUri ← leaflistKeyPredicate uriKey
      let same ← compareKeyValue calls (pathPrefix ++ fromData) (pathPrefix ++ fromUri)
      return if same then none else some ⟨[], node.valueStr, some uriKey⟩
  | _ => .ok none

/-- A checked node at a position of the edit is refused if its keys do not match. -/
def requireKeys (edit : Forest S) (position : Position) (node : DataNode S)
    (lyParentPath : Str) (lastPathSegment : PathSegment) : Handler S Unit := do
  modify fun world =>
    { world with keyChecks := world.keyChecks ++ [(node, lastPathSegment)] }
  match ← checkKeysMismatch calls node lyParentPath lastPathSegment with
  | some mismatch =>
      throw (invalidValue mismatch.message
        (some (calls.dataPath edit (position ++ mismatch.offending))))
  | none => pure ()

/-- The loop over the children of the parent node: every child is either the node which
the URI names or a key of the parent.  Gives the index of the last node which the URI
names. -/
def findReplacement (edit : Forest S) (parent : DataNode S) (position : Position)
    (lyParentPath : Str) (lastPathSegment : PathSegment) :
    Nat → List (DataNode S) → Option Nat → Handler S (Option Nat)
  | _, [], replacement => return replacement
  | index, child :: rest, replacement => do
      if isSameNode calls child lastPathSegment then
        requireKeys calls edit (position ++ [index]) child lyParentPath lastPathSegment
        findReplacement edit parent position lyParentPath lastPathSegment (index + 1) rest
          (some index)
      else if isKeyNode calls.ctx parent child then
        findReplacement edit parent position lyParentPath lastPathSegment (index + 1) rest
          replacement
      else
        throw (invalidValue (str "Data contains invalid node.")
          (some (calls.dataPath edit (position ++ [index]))))

/-- The error for a payload without the node of the URI. -/
def nodeMissing : Exception :=
  invalidValue (str "Node indicated by URI is missing.") none

/-- The branch of `createEditForPutAndPatch` for a URI of at least two levels. -/
def createBelowParent (lyParentPath : Str) (lastPathSegment : PathSegment) (value : Str)
    (dataFormat : DataFormat) : Handler S (EditNodes S) := do
  let created ← raise (calls.newPath2 lyParentPath)
  let parsed ← raise (calls.parseSubtree created.createdNode value dataFormat)
  let edit := [created.createdParent.modifyAt (·.append parsed) created.position]
  let parent := created.createdNode.append parsed
  let replacement ← findReplacement calls edit parent (0 :: created.position) lyParentPath
    lastPathSegment 0 parent.children none
  match replacement with
  | some index => return ⟨edit, 0 :: created.position ++ [index]⟩
  | none => throw nodeMissing

/-- The branch of `createEditForPutAndPatch` for a URI of one level. -/
def createTopLevel (lyParentPath : Str) (lastPathSegment : PathSegment) (value : Str)
    (dataFormat : DataFormat) : Handler S (EditNodes S) := do
  let edit ← raise (calls.parseData value dataFormat)
  match edit with
  | [] => throw nodeMissing
  | first :: _ =>
      require (isSameNode calls first lastPathSegment)
        (invalidValue (str "Data contains invalid node.") (some (calls.dataPath edit [0])))
      requireKeys calls edit [0] first lyParentPath lastPathSegment
      return ⟨edit, [0]⟩

/-- `createEditForPutAndPatch` -/
def createEditForPutAndPatch (uriPath : Str) (valueStr : Option Str)
    (dataFormat : DataFormat) : Handler S (EditNodes S) := do
  let (lyParentPath, lastPathSegment) ← asLibyangPathSplit calls.ctx uriPath
  match valueStr with
  | none =>
      let request ← asRestconfRequest calls.ctx (str "PATCH") uriPath []
      let created ← raise (calls.newPath2 request.path)
      return ⟨[created.createdParent], 0 :: created.position⟩
  | some value =>
      if lyParentPath.isEmpty then
        createTopLevel calls lyParentPath lastPathSegment value dataFormat
      else createBelowParent calls lyParentPath lastPathSegment value dataFormat

end Keys

/-! ## Meta attributes -/

section Metas

variable {S : Type} [DecidableEq S] (calls : Calls S)

/-- Could the attribute alter sysrepo's behaviour? -/
def isControl (item : Meta) : Bool :=
  !item.isInternal &&
    [str "ietf-netconf", str "yang", str "sysrepo"].contains item.moduleName

/-- The loop of `validateInputMetaAttributes` over the nodes below the first tree. -/
def validateNodes (edit : Forest S) : List (Position × DataNode S) → Except Exception Unit
  | [] => .ok ()
  | (position, node) :: rest =>
      match node.metas.find? isControl with
      | some item =>
          .error (.errorResponse
            ⟨400, str "application", str "invalid-value",
              str "Meta attribute '" ++ item.moduleName ++ str ":" ++ item.name ++
                str "' not allowed.",
              some (calls.dataPath edit (0 :: position)), none⟩)
      | none => validateNodes edit rest

/-- `validateInputMetaAttributes` of the first node of a forest -/
def validateInputMetaAttributes (edit : Forest S) : Except Exception Unit :=
  match edit with
  | [] => .error .undefined
  | first :: _ => validateNodes calls edit first.dfs

/-- `newMeta` on the node which the operation is set on. -/
def addMeta (moduleName name value : Str) (nodes : EditNodes S) :
    Except Exception (EditNodes S) := do
  let node ← deref (Forest.at? nodes.edit nodes.replacement)
  raise (calls.newMeta node moduleName name value)
  return { nodes with
    edit := Forest.modifyAt (DataNode.newMeta moduleName name value) nodes.edit
      nodes.replacement }

/-- The value of the attribute which names the entry next to the inserted one. -/
def insertionPoint (schema : S) (point : List PathSegment) : Except Exception (String × Str) := do
  let last ← deref point.getLast?
  match calls.ctx.nodeType schema with
  | .list =>
      let key ← listKeyPredicate calls.ctx (calls.ctx.keys schema) last.keys
      return ("key", key)
  | .leaflist =>
      let key ← deref last.keys.head?
      return ("value", key)
  | _ => throw (.logicError (str "Node is neither a list nor a leaf-list"))

/-- `yangInsert` of a node, with where to insert it and the point for that -/
def yangInsert (nodes : EditNodes S) (wherePlace : Str) (point : Option (List PathSegment)) :
    Except Exception (EditNodes S) := do
  let node ← deref (Forest.at? nodes.edit nodes.replacement)
  require (isUserOrderedList calls.ctx node)
    (invalidValue (str ("Query parameter 'insert' is valid only for inserting into " ++
      "lists or leaf-lists that are 'ordered-by user'")) none)
  let nodes ← addMeta calls (str "yang") (str "insert") wherePlace nodes
  match point with
  | none => return nodes
  | some point =>
      let pointSchema ← asLibyangSchemaNode calls.ctx point
      require (pointSchema == some node.schema)
        (invalidValue (str "Query parameter 'point' contains path to a different list")
          (some (calls.dataPath nodes.edit nodes.replacement)))
      let (name, key) ← insertionPoint calls node.schema point
      addMeta calls (str "yang") (str name) key nodes

/-- The point in the query parameters. -/
def queryPoint (queryParams : QueryParams) : Except Exception (List PathSegment) :=
  match queryParams.find "point" with
  | none => .error .undefined
  | some (.pointParsed point) => .ok point
  | some _ => .error .badVariantAccess

/-- Where the query parameters ask to insert, and the point for that. -/
def queryPlace (queryParams : QueryParams) (insert : QueryParams.QueryParamValue) :
    Except Exception (Str × Option (List PathSegment)) :=
  match insert with
  | .first => .ok (str "first", none)
  | .last => .ok (str "last", none)
  | .before => do
      let point ← queryPoint queryParams
      return (str "before", some point)
  | .after => do
      let point ← queryPoint queryParams
      return (str "after", some point)
  | _ => .ok ([], none)

/-- `yangInsert` as the query parameters of the request ask for it -/
def yangInsertFromQuery (queryParams : QueryParams) (nodes : EditNodes S) :
    Except Exception (EditNodes S) :=
  match queryParams.find "insert" with
  | none => .ok nodes
  | some insert => do
      let (wherePlace, point) ← queryPlace queryParams insert
      yangInsert calls nodes wherePlace point

/-- `yangInsert` as an edit of a YANG Patch asks for it -/
def yangInsertFromEdit (nodes : EditNodes S) (wherePlace : Str) (point : Option Str) :
    Except Exception (EditNodes S) := do
  let pointParsed ← point.mapM asPathSegments
  yangInsert calls nodes wherePlace pointParsed

end Metas

end Rousette.Restconf.Server
