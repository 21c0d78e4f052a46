import Rousette.Restconf.Locations
import Rousette.Restconf.Server.Edit

/-!
# Requests without a payload

The handler of `/restconf/` in `restconf/Server.cpp`.  What needs no payload is
answered at once: the API resources, `GET` and `HEAD`, `DELETE` and `OPTIONS`.  All
other requests wait for their payload.

The handler has its own list of exceptions which it catches; those of libyang are not
on it.
-/

namespace Rousette.Restconf.Server

open Library Libyang

section Resources

variable {S : Type} (env : Env S) (req : Request) (request : RestconfRequest)

/-! ## API resources -/

/-- A leaf for an operation in the list of all operations. -/
def operationEntry (format : DataFormat) (operations : Str) (rpc : S) : Entry :=
  let ctx := env.libyang.ctx
  match format with
  | .json =>
      .newOpaque operations (ctx.moduleName rpc) (ctx.moduleName rpc) (ctx.name rpc)
        (some (str "[null]"))
  | .xml => .newOpaque operations (ctx.ns rpc) (ctx.moduleName rpc) (ctx.name rpc) none

/-- The loop of `apiResource` over the operations of all modules. -/
def extendOperations (format : DataFormat) (operations : Str) :
    Document → List S → Except Exception Document
  | document, [] => .ok document
  | document, rpc :: rest => do
      let extended ← extend env document (operationEntry env format operations rpc)
      extendOperations format operations extended rest

/-- `apiResource`: the document, and the path of the node in it which is the resource -/
def apiResource (type : RequestType) (format : DataFormat) :
    Except Exception (Document × Str) := do
  let root := str "/ietf-restconf:restconf"
  let version := str "yang-library-version"
  let document ← extend env [] (.newPath [] root none)
  match type with
  | .yangLibraryVersion =>
      let document ←
        extend env document (.newPath root version env.libyang.yangLibraryRevision)
      let found ← raise (env.libyang.findXPath document version)
      require found .undefined
      return (document, root ++ str "/" ++ version)
  | .restconfRoot =>
      let document ←
        extend env document (.newPath root version env.libyang.yangLibraryRevision)
      let document ← extend env document (.newPath root (str "data") none)
      let document ← extend env document (.newPath root (str "operations") none)
      return (document, root)
  | .listRPC =>
      let document ← extend env document (.newPath root (str "operations") none)
      let rpcs := env.libyang.ctx.topLevel.filter fun node =>
        env.libyang.ctx.nodeType node == .rpc
      let document ← extendOperations env format (root ++ str "/operations") document rpcs
      return (document, root)
  | _ =>
      throw (.logicError
        (str "Invalid restconf request type for handling within apiResource()"))

/-- The flags with which everything but an error is printed. -/
def printFlags (withDefaults : Option WithDefaults) : PrintFlags := ⟨true, true, withDefaults⟩

/-- The text of an API resource. -/
def printResource : Except Exception Str := do
  let (document, node) ← apiResource env request.type req.responseFormat
  let printed ←
    raise (env.libyang.printNode document node req.responseFormat (printFlags none))
  deref printed

/-- The response with an API resource. -/
def getResource : Handler S Unit := do
  writeHead 200 [contentType req.responseFormat, cors]
  let body ← printResource env req request
  endWith body

/-! ## GET -/

/-- Unbounded depth is the default, which is 0 in terms of sysrepo. -/
def maxDepth (queryParams : QueryParams) : Nat :=
  match queryParams.find "depth" with
  | some (.depth value) => value
  | _ => 0

def getOptions (queryParams : QueryParams) : GetOptions :=
  match queryParams.find "content" with
  | some .onlyNonConfigNodes => .operNoConfig
  | some .onlyConfigNodes => .operNoState
  | _ => .default

/-- The XPath of the nodes which are asked for. -/
def requestedXPath : Except Exception Str :=
  match request.queryParams.find "fields" with
  | none => .ok request.path
  | some (.fields expr) =>
      fieldsToXPath env.libyang.ctx (if request.path = str "/*" then [] else request.path) expr
  | some _ => .error .badVariantAccess

/-- Is the node a leaf or leaf-list with its default value? -/
def isDefaultLeaf (node : DataNode S) : Bool :=
  (env.libyang.ctx.nodeType node.schema == .leaf ||
    env.libyang.ctx.nodeType node.schema == .leaflist) && env.libyang.isImplicitDefault node

/-- `libyangPrintFlags`. The exceptions of `findPath` are ignored. -/
def libyangPrintFlags (data : Forest S) (requestPath : Str)
    (withDefaults : Option QueryParams.QueryParamValue) : Except Exception PrintFlags :=
  let node := (env.libyang.findPath data requestPath).toOption.join
  match withDefaults with
  | none => .ok (printFlags (if node.any (isDefaultLeaf env) then some .all else none))
  | some .explicit => .ok (printFlags none)
  | some .trim => .ok (printFlags (some .trim))
  | some .reportAll => .ok (printFlags (some .all))
  | some .reportAllTagged => .ok (printFlags (some .allTag))
  | some _ => .error (.logicError (str "Invalid withDefaults query parameter value"))

/-- The text of data from sysrepo. -/
def printData (data : Forest S) : Except Exception Str := do
  let data ← Locations.replaceLocations env.libyang req.urlPrefix data
  let flags ←
    libyangPrintFlags env data request.path (request.queryParams.find "with-defaults")
  let printed ← raise (env.libyang.printStr data req.responseFormat flags)
  deref printed

/-- What sysrepo has for the request. -/
def readData : Except Exception (Option (Forest S)) := do
  raiseSysrepo (env.session.switchDatastore (request.datastore.getD .operational))
  let xpath ← requestedXPath env request
  raiseSysrepo (env.session.getData xpath (maxDepth request.queryParams)
    (getOptions request.queryParams))

/-- The branch of the handler for `GET` and `HEAD`. -/
def getData : Handler S Unit := do
  match ← readData env request with
  | some data =>
      writeHead 200 [contentType req.responseFormat, cors]
      let body ← printData env req request data
      endWith body
  | none => throw (reject 404 "application" "invalid-value" (str "No data from sysrepo."))

/-! ## DELETE -/

/-- Is the datastore one which cannot be written to? -/
def isReadOnly : Bool :=
  request.datastore == some .factoryDefault || request.datastore == some .operational

/-- The session for a request which writes. -/
def openWritable : Except Exception Unit := do
  require (!isReadOnly request)
    (reject 405 "application" "operation-not-supported" (str "Read-only datastore."))
  raiseSysrepo (env.session.switchDatastore (request.datastore.getD .running))

/-- Mark a node as deleted, which is done in another way if it is opaque. -/
def markDeleted (isOpaque : Bool) (nodes : EditNodes S) : Except Exception (EditNodes S) := do
  if isOpaque then
    raise (env.libyang.newAttrOpaqueJSON (str "ietf-netconf") (str "operation") (str "delete"))
    return { nodes with
      edit := Forest.modifyAt
        (DataNode.newMeta (str "ietf-netconf") (str "operation") (str "delete")) nodes.edit
        nodes.replacement }
  else addMeta env.libyang (str "ietf-netconf") (str "operation") (str "delete") nodes

/-- The edit of a `DELETE`. -/
def createEditForDelete : Except Exception (EditNodes S) := do
  let (created, isOpaque) ← raise (env.libyang.newOpaquePath2 request.path)
  let nodes : EditNodes S := ⟨[created.createdParent], 0 :: created.position⟩
  validateInputMetaAttributes env.libyang nodes.edit
  markDeleted env isOpaque nodes

/-- What a `DELETE` rethrows. -/
def deleteException (path : Str) : Exception → Exception
  | .sysrepo ⟨.unauthorized, _⟩ =>
      .errorResponse ⟨403, str "application", str "access-denied", str "Access denied.",
        some path, none⟩
  | .sysrepo ⟨.notFound, _⟩ =>
      .errorResponse ⟨404, str "application", str "data-missing", str "Data is missing.",
        some path, none⟩
  | exception => exception

/-- The branch of the handler for `DELETE`. -/
def deleteNode : Handler S Unit := do
  openWritable env request
  tryCatch (do
      let nodes ← createEditForDelete env request
      editBatch env nodes.edit
      applyChanges env nodes.edit)
    fun exception => throw (deleteException request.path exception)
  writeHead 204 [cors]
  endWith []

/-! ## OPTIONS -/

/-- The branch of the handler for `OPTIONS`. -/
def optionsQuery : Handler S Unit := do
  let allowed ← allowedHttpMethodsForUri env.libyang.ctx req.path
  if allowed.isEmpty then writeHead 404 [cors]
  else writeHead 200 (cors :: httpOptionsHeaders allowed)
  endWith []

/-! ## The handler -/

/-- What the handler leaves to be done. -/
inductive Next where
  | nothing
  /-- the payload is awaited -/
  | payload
  /-- the error response is written when a timer expires -/
  | delay
  deriving DecidableEq, Repr

/-- The branch of the handler for requests which write their payload. -/
def prepareWrite (requestFormat : Option DataFormat) : Except Exception Unit := do
  openWritable env request
  require requestFormat.isSome
    (reject 400 "protocol" "invalid-value" (str "Content-type header missing."))

/-- The choice between the types of requests. -/
def dispatch (requestFormat : Option DataFormat) : Handler S Next := do
  match request.type with
  | .restconfRoot | .yangLibraryVersion | .listRPC =>
      getResource env req request
      return .nothing
  | .getData =>
      getData env req request
      return .nothing
  | .createOrReplaceThisNode | .createChildren | .mergeData =>
      prepareWrite env request requestFormat
      return .payload
  | .deleteNode =>
      deleteNode env request
      return .nothing
  | .execute | .executeInternal => return .payload
  | .optionsQuery =>
      optionsQuery env req
      return .nothing

/-- The exceptions which the handler catches. -/
def handleException : Exception → Handler S Next
  | .auth _ (some _) => return .delay
  | .auth _ none => do
      rejectWithError env req
        ⟨401, str "protocol", str "access-denied", str "Access denied.", none, none⟩
      return .nothing
  | .errorResponse error => do
      rejectWithError env req error
      return .nothing
  | .sysrepo _ => do
      rejectWithError env req
        ⟨500, str "application", str "operation-failed",
          str "Internal server error due to sysrepo exception.", none, none⟩
      return .nothing
  | exception => throw exception

/-- The handler of `/restconf/`. The request was admitted or not, by what its headers say
about formats and about the user. -/
def handleRestconf (requestFormat : Option DataFormat) (admission : Except Exception Unit)
    (query : Str) : Handler S Next := do
  raiseSysrepo env.session.sessionStart
  tryCatch (do
      admission
      let request ← asRestconfRequest env.libyang.ctx req.method req.rawPath query
      dispatch env req request requestFormat)
    (handleException env req)

end Resources

end Rousette.Restconf.Server
