import Rousette.Restconf.Server.Edit

/-!
# Requests which write

`processPost`, `processPutOrPlainPatch` and the processing of a YANG Patch from
`restconf/Server.cpp`, and how the handler of a payload chooses between them.
-/

namespace Rousette.Restconf.Server

open Library Libyang

section Write

variable {S : Type} [DecidableEq S] (env : Env S) (ctx : RequestContext)

/-! ## POST -/

/-- List key nodes, which appear automatically when a path to a list entry is created. -/
def isOwnKey (node child : DataNode S) : Bool :=
  env.libyang.ctx.nodeType node.schema == .list &&
    env.libyang.ctx.nodeType child.schema == .leaf && env.libyang.ctx.isKey child.schema

/-- The indices of the created nodes, without the keys of the node they are below. -/
def createdIndices (node : DataNode S) (nodes : List (DataNode S)) : List Nat :=
  (nodes.zipIdx.filter fun entry => !isOwnKey env node entry.1).map Prod.snd

/-- The edit of a `POST`, the position of the siblings or children which the payload has
made, and the indices of those that are not keys. -/
def createEditForPost : Except Exception (Forest S × Position × List Nat) := do
  if ctx.restconfRequest.path = str "/" then
    let edit ← raise (env.libyang.parseData ctx.payload ctx.requestFormat)
    let indices :=
      match edit with
      | [] => []
      | node :: _ => createdIndices env node edit
    return (edit, [], indices)
  else
    let created ← raise (env.libyang.newPath2 ctx.restconfRequest.path)
    let parsed ←
      raise (env.libyang.parseSubtree created.createdNode ctx.payload ctx.requestFormat)
    let edit := [created.createdParent.modifyAt (·.append parsed) created.position]
    let children := created.createdNode.children ++ parsed
    return (edit, 0 :: created.position, createdIndices env created.createdNode children)

/-- The check of the meta attributes of a `POST`, if there is an edit. -/
def validatePost (edit : Forest S) : Except Exception Unit :=
  if edit.isEmpty then .ok () else validateInputMetaAttributes env.libyang edit

/-- The edit of a `POST` is applied if it has created a single node, at one of the
indices below the position. -/
def createChild (edit : Forest S) (position : Position) : List Nat → Handler S Unit
  | [index] => do
      let nodes ← addMeta env.libyang (str "ietf-netconf") (str "operation") (str "create")
        ⟨edit, position ++ [index]⟩
      let nodes ← yangInsertFromQuery env.libyang ctx.restconfRequest.queryParams nodes
      editBatch env nodes.edit
      applyChanges env nodes.edit
      writeHead 201 [contentType ctx.responseFormat, cors]
      endWith []
  | _ =>
      throw (invalidValue (str ("The message body MUST contain exactly one instance of " ++
        "the expected data resource.")) none)

/-- `processPost` -/
def processPost : Handler S Unit := do
  let (edit, position, indices) ← createEditForPost env ctx
  validatePost env edit
  createChild env ctx edit position indices

/-! ## YANG Patch -/

/-- The error for a leaf which is missing in a patch. -/
def leafMissing (childName : String) : Exception :=
  invalidValue (str "Expected data node '" ++ str childName ++ str "' not found.") none

/-- `childLeafValue` of a leaf which may be absent -/
def childLeafValue (leaf : Option Str) (childName : String) : Except Exception Str :=
  match leaf with
  | some value => .ok value
  | none => .error (leafMissing childName)

/-- `yangPatchValueAsJSON` -/
def yangPatchValueAsJSON : PatchValue → Except Exception (Option Str)
  | .absent => .ok none
  | .notData path => .error (invalidValue (str "Not a data node") (some path))
  | .data printed => do
      let text ← raise printed
      let value ← deref text
      return some value

/-- Is the edit inserted next to another entry? -/
def needsPoint (wherePlace : Str) : Bool :=
  wherePlace == str "before" || wherePlace == str "after"

/-- The point of an `insert` or `move`, as a path of the request. -/
def patchPoint (edit : PatchEdit) (wherePlace : Str) : Except Exception (Option Str) :=
  match needsPoint wherePlace, edit.point with
  | true, none => .error (invalidValue (str "Required leaf 'point' not set.") none)
  | true, some point => .ok (some (ctx.path ++ point))
  | false, none => .ok none
  | false, some _ =>
      .error (invalidValue (str ("Leaf 'point' must always come with leaf 'where' set to " ++
        "'before' or 'after'")) none)

/-- The operation of an edit is put on its node. -/
def setPatchOperation (edit : PatchEdit) (operation : Str) (nodes : EditNodes S) :
    Except Exception (EditNodes S) := do
  if operation = str "insert" ∨ operation = str "move" then
    let wherePlace ← childLeafValue edit.wherePlace "where"
    let point ← patchPoint ctx edit wherePlace
    let netconfOperation := if operation = str "insert" then str "create" else str "merge"
    let nodes ← addMeta env.libyang (str "ietf-netconf") (str "operation") netconfOperation nodes
    yangInsertFromEdit env.libyang nodes wherePlace point
  else
    addMeta env.libyang (str "ietf-netconf") (str "operation") operation nodes

/-- `processYangPatchEdit`: the edit which is to be merged with the others -/
def processYangPatchEdit (edit : PatchEdit) : Handler S (Forest S) := do
  let target ← childLeafValue edit.target "target"
  let operation ← childLeafValue edit.operation "operation"
  let value ← yangPatchValueAsJSON edit.value
  let nodes ←
    createEditForPutAndPatch env.libyang (uriJoin ctx.rawPath target) value .json
  validateInputMetaAttributes env.libyang nodes.edit
  let nodes ← setPatchOperation env ctx edit operation nodes
  return nodes.edit

/-- The loop of `processYangPatchImpl`, with the edits merged so far. -/
def processYangPatchEdits (patchId : Str) : Forest S → List PatchEdit → Handler S (Forest S)
  | mergedEdits, [] => return mergedEdits
  | mergedEdits, edit :: rest => do
      let editId ← childLeafValue edit.editId "edit-id"
      -- errors while processing a single edit are reported in the edit-status container
      let mergedEdits ← withRestconfExceptions env ctx.restconfRequest.path
        (do
          let singleEdit ← processYangPatchEdit env ctx edit
          return mergedEdits ++ singleEdit)
        (rejectYangPatchEdit env ctx.toRequest patchId editId) mergedEdits
      processYangPatchEdits patchId mergedEdits rest

/-- `processYangPatchImpl` -/
def processYangPatchImpl (patch : Patch) (patchId : Str) : Handler S Unit := do
  let mergedEdits ← processYangPatchEdits env ctx patchId [] patch.edits
  if !mergedEdits.isEmpty then
    editBatch env mergedEdits
    applyChanges env mergedEdits

/-- The document for a patch which went well. -/
def patchStatus (patchId : Str) : Except Exception Document := do
  let status := str "/ietf-yang-patch:yang-patch-status"
  let document ← extend env [] (.newPath [] status none)
  let document ← extend env document (.newPath status (status ++ str "/patch-id") (some patchId))
  extend env document (.newPath status (status ++ str "/ok") none)

/-- The response to a patch which went well. -/
def reportPatchOk (patchId : Str) : Handler S Unit := do
  let document ← patchStatus env patchId
  writeHead 200 [contentType ctx.responseFormat, cors]
  let printed ← raise (env.libyang.printDocument document ctx.responseFormat)
  let body ← deref printed
  endWith body

/-- `processYangPatch` -/
def processYangPatch : Handler S Unit := do
  let patch ← raise (env.libyang.parsePatch ctx.payload ctx.requestFormat)
  match patch with
  | none => throw (invalidValue (str "Empty patch.") none)
  | some patch =>
      let patchId ← childLeafValue patch.patchId "patch-id"
      withRestconfExceptions env ctx.restconfRequest.path
        (processYangPatchImpl env ctx patch patchId)
        (rejectYangPatch env ctx.toRequest patchId) ()
      reportPatchOk env ctx patchId

/-! ## PUT and plain PATCH -/

/-- The branch of `processPutOrPlainPatch` for the datastore resource. -/
def processRoot : Handler S Unit := do
  let edit ← raise (env.libyang.parseData ctx.payload ctx.requestFormat)
  require (!edit.isEmpty)
    (.errorResponse ⟨400, str "protocol", str "malformed-message",
      str "Empty data tree received.", none, none⟩)
  validateInputMetaAttributes env.libyang edit
  if ctx.method = str "PUT" then
    replaceConfig env edit
    writeHead 201 [cors]
  else
    editBatch env edit
    applyChanges env edit
    writeHead 204 [cors]
  endWith []

/-- The operation and the place which a `PUT` sets on its node. -/
def setPutOperation (nodes : EditNodes S) : Except Exception (EditNodes S) :=
  if ctx.method = str "PUT" then do
    let nodes ← addMeta env.libyang (str "ietf-netconf") (str "operation") (str "replace") nodes
    yangInsertFromQuery env.libyang ctx.restconfRequest.queryParams nodes
  else .ok nodes

/-- The lock for the status code of a `PUT`, which the candidate datastore does not
support. -/
def lockDatastore : Except Exception Unit :=
  if ctx.activeDatastore = .candidate then .ok () else raiseSysrepo env.session.lock

/-- `processPutOrPlainPatch` -/
def processPutOrPlainPatch : Handler S Unit := do
  if ctx.restconfRequest.path = str "/" then processRoot env ctx
  else
    lockDatastore env ctx
    let data ← raiseSysrepo (env.session.getData ctx.restconfRequest.path 0 .default)
    require (ctx.method != str "PATCH" || data.isSome)
      (invalidValue (str "Target resource does not exist") none)
    let nodes ← createEditForPutAndPatch env.libyang ctx.rawPath (some ctx.payload)
      ctx.requestFormat
    validateInputMetaAttributes env.libyang nodes.edit
    let nodes ← setPutOperation env ctx nodes
    editBatch env nodes.edit
    applyChanges env nodes.edit
    if ctx.method = str "PUT" then
      writeHead (if data.isSome then 204 else 201) [cors]
    else
      writeHead 204 [cors]
    endWith []

/-! ## The handler of a payload -/

/-- `isYangPatch` -/
def isYangPatch : Bool :=
  ctx.contentTypeHeader == some (str "application/yang-patch+xml") ||
    ctx.contentTypeHeader == some (str "application/yang-patch+json")

/-- The functions which process a payload. -/
inductive Processing where
  | post
  | yangPatch
  | putOrPlainPatch
  deriving DecidableEq, Repr

/-- The function which processes the payload of a request. -/
def processing : Processing :=
  if ctx.restconfRequest.type = .createChildren then .post
  else if ctx.restconfRequest.type = .mergeData && isYangPatch ctx then .yangPatch
  else .putOrPlainPatch

/-- The processing of a payload. -/
def processPayload : Handler S Unit :=
  match processing ctx with
  | .post => processPost env ctx
  | .yangPatch => processYangPatch env ctx
  | .putOrPlainPatch => processPutOrPlainPatch env ctx

/-- The wrapper around the processing of a payload. -/
def reportExceptions (func : Handler S Unit) : Handler S Unit :=
  withRestconfExceptions env ctx.restconfRequest.path func (rejectWithError env ctx.toRequest) ()

/-- The end of the payload has arrived. -/
def onPayload : Handler S Unit := reportExceptions env ctx (processPayload env ctx)

end Write

end Rousette.Restconf.Server
