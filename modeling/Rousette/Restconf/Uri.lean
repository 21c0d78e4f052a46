import Rousette.Libyang.Schema
import Rousette.Restconf.UriGrammar
import Rousette.Restconf.YangUtils

/-!
# Request URIs over a schema

The part of `restconf/uri.cpp` behind the grammars: path segments are resolved in
the schema and turned into a libyang path, and the request is classified by its
method, resource and target node.
-/

namespace Rousette.Restconf

open Library Libyang

/-- `sysrepo::Datastore` -/
inductive Datastore where
  | running
  | operational
  | candidate
  | startup
  | factoryDefault
  deriving DecidableEq, Repr

/-- `datastoreFromString` -/
def datastoreFromString (datastore : Str) : Option Datastore :=
  if datastore = str "ietf-datastores:running" then some .running
  else if datastore = str "ietf-datastores:operational" then some .operational
  else if datastore = str "ietf-datastores:candidate" then some .candidate
  else if datastore = str "ietf-datastores:startup" then some .startup
  else if datastore = str "ietf-datastores:factory-default" then some .factoryDefault
  else none

/-- An error response without a path. -/
def reject (code : ErrorStatus) (errorType errorTag : String) (errorMessage : Str) : Exception :=
  .errorResponse ⟨code, str errorType, str errorTag, errorMessage, none, none⟩

/-- What is wrong with a path in a request. -/
def operationFailed (errorMessage : Str) : Exception :=
  reject 400 "application" "operation-failed" errorMessage

/-- `datastoreFromApiIdentifier` -/
def datastoreFromApiIdentifier : Option ApiIdentifier → Except Exception (Option Datastore)
  | none => .ok none
  | some ⟨none, _⟩ => .error .undefined
  | some ⟨some modulePrefix, identifier⟩ =>
      let datastore := modulePrefix ++ str ":" ++ identifier
      match datastoreFromString datastore with
      | some known => .ok (some known)
      | none => .error (operationFailed (str "Unsupported datastore " ++ datastore))

section Paths

variable {S : Type} (ctx : Context S)

/-- `findChildSchemaNode` -/
def findChildSchemaNode (node : S) (childIdentifier : ApiIdentifier) : Option S :=
  (ctx.childInstantiables node).find? fun child =>
    ctx.name child == childIdentifier.identifier &&
      match childIdentifier.modulePrefix with
      | none => ctx.moduleName node == ctx.moduleName child
      | some modulePrefix => ctx.moduleName child == modulePrefix

/-- `maybeQualified` -/
def maybeQualified (currentNode : S) : Str :=
  match ctx.parent currentNode with
  | none => ctx.moduleName currentNode ++ str ":" ++ ctx.name currentNode
  | some parent =>
      if ctx.moduleName parent = ctx.moduleName currentNode then ctx.name currentNode
      else ctx.moduleName currentNode ++ str ":" ++ ctx.name currentNode

/-- The schema node of the next segment: a child of the node before it, or a node of the
top level. -/
def nextNode (current : Option S) (ident : ApiIdentifier) : Except Exception S :=
  match current with
  | some prevNode =>
      match findChildSchemaNode ctx prevNode ident with
      | some child => .ok child
      | none =>
          .error (operationFailed (str "Node '" ++ ident.qualifiedName ++
            str "' is not a child of '" ++ ctx.path prevNode ++ str "'"))
  | none =>
      match ctx.findPath (str "/" ++ ident.qualifiedName) with
      | .ok node => .ok node
      | .error error => .error (operationFailed error.what)

/-- Report `std::invalid_argument` as an error response. -/
def reportInvalidArgument {α : Type} : Except Exception α → Except Exception α
  | .error (.invalidArgument what) => .error (operationFailed what)
  | result => result

/-- The predicate for the keys of a segment, which have to be what the node needs. -/
def keysPredicate (node : S) (keys : List Str) : Except Exception Str :=
  match ctx.nodeType node with
  | .list =>
      let listKeys := ctx.keys node
      if listKeys.length = 0 then
        .error (operationFailed (str "List '" ++ ctx.path node ++
          str "' has no keys. It can not be accessed directly"))
      else if keys.length ≠ listKeys.length then
        .error (operationFailed (str "List '" ++ ctx.path node ++ str "' requires " ++
          decimal listKeys.length ++ str " keys"))
      else
        reportInvalidArgument (listKeyPredicate ctx listKeys keys)
  | .leaflist =>
      match keys with
      | [key] => reportInvalidArgument (leaflistKeyPredicate key)
      | _ =>
          .error (operationFailed (str "Leaf-list '" ++ ctx.path node ++
            str "' requires exactly one key"))
  | _ =>
      if keys.length > 0 then
        .error (operationFailed (str "No keys allowed for node '" ++ ctx.path node ++ str "'"))
      else .ok []

/-- Is the node an RPC or an action? -/
def isOperation (node : S) : Bool :=
  ctx.nodeType node == .rpc || ctx.nodeType node == .action

/-- Wrapper for a libyang path and a corresponding schema node, which is absent for the
datastore resource. -/
structure SchemaNodeAndPath (S : Type) where
  dataPath : Str
  schemaNode : Option S

/-- The loop of `asLibyangPath`, from the node and the path reached so far. -/
def asLibyangPathFrom (current : Option S) (res : Str) :
    List PathSegment → Except Exception (SchemaNodeAndPath S)
  | [] => .ok ⟨res, current⟩
  | segment :: rest => do
      let node ← nextNode ctx current segment.apiIdent
      let predicate ← keysPredicate ctx node segment.keys
      require (rest.isEmpty || !isOperation ctx node)
        (operationFailed (str "'" ++ ctx.path node ++
          str "' is an RPC/Action node, any child of it can't be requested"))
      asLibyangPathFrom (some node) (res ++ str "/" ++ maybeQualified ctx node ++ predicate) rest

/-- `asLibyangPath` -/
def asLibyangPath (segments : List PathSegment) : Except Exception (SchemaNodeAndPath S) :=
  asLibyangPathFrom ctx none [] segments

/-- `asLibyangSchemaNode` -/
def asLibyangSchemaNode (pathSegments : List PathSegment) : Except Exception (Option S) := do
  let resolved ← asLibyangPath ctx pathSegments
  return resolved.schemaNode

/-- `asPathSegments` -/
def asPathSegments (uriPath : Str) : Except Exception (List PathSegment) := do
  let uri ← Impl.parseUriPath uriPath
  return uri.segments

/-- `asLibyangPathSplit` -/
def asLibyangPathSplit (uriPath : Str) : Except Exception (Str × PathSegment) := do
  let uri ← Impl.parseUriPath uriPath
  match uri.segments.getLast? with
  | none => throw (operationFailed (str "Cannot split the datastore resource URI"))
  | some lastSegment =>
      let parent ← asLibyangPath ctx uri.segments.dropLast
      match lastSegment.apiIdent.modulePrefix with
      | some _ => return (parent.dataPath, lastSegment)
      | none =>
          let full ← asLibyangPath ctx uri.segments
          match full.schemaNode with
          | none => throw .undefined
          | some node =>
              return (parent.dataPath,
                { lastSegment with
                  apiIdent := { lastSegment.apiIdent with
                    modulePrefix := some (ctx.moduleName node) } })

end Paths

/-- `uriJoin` -/
def uriJoin (a b : Str) : Str :=
  let endsWithSlash := a.getLast? == some (chr '/')
  let startsWithSlash := b.head? == some (chr '/')
  if endsWithSlash && startsWithSlash then a ++ b.drop 1
  else if !a.isEmpty && !b.isEmpty && !endsWithSlash && !startsWithSlash then a ++ str "/" ++ b
  else a ++ b

/-! ## Classification of requests -/

/-- `RestconfRequest::Type` -/
inductive RequestType where
  | getData
  | createOrReplaceThisNode
  | deleteNode
  | execute
  | executeInternal
  | createChildren
  | yangLibraryVersion
  | optionsQuery
  | mergeData
  | restconfRoot
  | listRPC
  deriving DecidableEq, Repr

/-- Specifies request type and target as determined from URI. -/
structure RestconfRequest where
  type : RequestType
  datastore : Option Datastore
  path : Str
  queryParams : QueryParams

section Requests

variable {S : Type} (ctx : Context S)

/-- `checkValidDataResource` -/
def checkValidDataResource (node : S) (uriPrefix : Impl.URIPrefix) : Except Exception Unit :=
  if uriPrefix.resourceType ≠ .basicRestconfData ∧ uriPrefix.resourceType ≠ .nmdaDatastore then
    .error (operationFailed
      (str "GET method must be used with a data resource or a complete datastore resource"))
  else
    match ctx.nodeType node with
    | .container | .leaf | .anyXML | .anyData | .leaflist | .list => .ok ()
    | .rpc | .action =>
        .error (reject 405 "protocol" "operation-not-supported"
          (str "'" ++ ctx.path node ++ str "' is an RPC/Action node"))
    | _ =>
        .error (reject 400 "protocol" "operation-failed"
          (str "'" ++ ctx.path node ++ str "' is not a data resource"))

/-- `validateMethodForNode` -/
def validateMethodForNode (httpMethod : Str) (uriPrefix : Impl.URIPrefix) (node : Option S) :
    Except Exception Unit :=
  if httpMethod = str "OPTIONS" then .ok ()
  else
    match node with
    | none =>
        match uriPrefix.resourceType with
        | .basicRestconfData | .nmdaDatastore =>
            if httpMethod = str "DELETE" then
              .error (operationFailed (str "'/' is not a data resource"))
            else .ok ()
        | .restconfRoot | .basicRestconfOperations | .yangLibraryVersion =>
            if httpMethod ≠ str "GET" ∧ httpMethod ≠ str "HEAD" then
              .error (reject 405 "application" "operation-not-supported"
                (str "Method not allowed."))
            else .ok ()
    | some node =>
        if httpMethod = str "POST" then
          match ctx.nodeType node with
          | .rpc =>
              if uriPrefix.resourceType ≠ .basicRestconfOperations then
                .error (reject 400 "protocol" "operation-failed"
                  (str "RPC '" ++ ctx.path node ++
                    str "' must be requested using operation prefix"))
              else .ok ()
          | .action =>
              if uriPrefix.resourceType = .basicRestconfData ∨
                  (uriPrefix.resourceType = .nmdaDatastore ∧
                    uriPrefix.datastore =
                      some ⟨some (str "ietf-datastores"), str "operational"⟩) then .ok ()
              else
                .error (reject 400 "protocol" "operation-failed"
                  (str "Action '" ++ ctx.path node ++
                    str "' must be requested using data prefix or via operational NMDA"))
          | _ => checkValidDataResource ctx node uriPrefix
        else checkValidDataResource ctx node uriPrefix

/-- The first name in the multimap which occurs twice; equal names are adjacent. -/
def repeatedParameter : QueryParams → Option Str
  | [] => none
  | [_] => none
  | param :: other :: rest =>
      if param.1 = other.1 then some other.1 else repeatedParameter (other :: rest)

/-- The first of the names which is a parameter of the query. -/
def firstPresent (params : QueryParams) (names : List String) : Option String :=
  names.find? fun name => (params.find name).isSome

/-- Refuse a query for the reason given, if any. -/
def refuseQuery : Option Str → Except Exception Unit
  | none => .ok ()
  | some message => .error (reject 400 "protocol" "invalid-value" message)

/-- The reason to refuse parameters which are only for some methods. -/
def misplaced (params : QueryParams) (names : List String) (allowed : Bool) (rest : String) :
    Option Str :=
  if allowed then none
  else (firstPresent params names).map fun name =>
    str "Query parameter '" ++ str name ++ str rest

/-- Do the parameters ask to insert next to an entry? -/
def hasInsertParamBeforeOrAfter (params : QueryParams) : Bool :=
  match params.find "insert" with
  | some .after => true
  | some .before => true
  | _ => false

/-- `validateQueryParameters` -/
def validateQueryParameters (params : QueryParams) (httpMethod : Str) :
    Except Exception Unit := do
  refuseQuery ((repeatedParameter params).map fun name =>
    str "Query parameter '" ++ name ++ str "' already specified")
  refuseQuery (misplaced params ["depth", "with-defaults", "content", "fields"]
    (httpMethod = str "GET" ∨ httpMethod = str "HEAD")
    "' can be used only with GET and HEAD methods")
  refuseQuery (misplaced params ["insert", "point"]
    (httpMethod = str "POST" ∨ httpMethod = str "PUT")
    "' can be used only with POST and PUT methods")
  refuseQuery (misplaced params ["filter", "start-time", "stop-time"] false
    "' can be used only with streams")
  require ((params.find "point").isSome == hasInsertParamBeforeOrAfter params)
    (reject 400 "protocol" "invalid-value"
      (str ("Query parameter 'point' must always come with parameter 'insert' set to " ++
        "'before' or 'after'")))

/-- `isInternalRPCPath` -/
def isInternalRPCPath (schemaPath : Str) : Bool :=
  [str "/ietf-subscribed-notifications:establish-subscription",
    str "/ietf-subscribed-notifications:modify-subscription",
    str "/ietf-subscribed-notifications:delete-subscription",
    str "/ietf-subscribed-notifications:kill-subscription"].contains schemaPath

/-- The methods which a request may have. -/
def httpMethods : List Str :=
  [str "GET", str "PUT", str "POST", str "DELETE", str "HEAD", str "OPTIONS", str "PATCH"]

/-- The type of a request on a resource other than the API resources, with its path. -/
def requestType (httpMethod uriPath : Str) (uri : Impl.URIPath) (lyPath : Str)
    (schemaNode : Option S) : Except Exception (RequestType × Str) :=
  let path := if uri.segments.isEmpty then str "/" else lyPath
  let isData := uri.uriPrefix.resourceType = .basicRestconfData ∨
    uri.uriPrefix.resourceType = .nmdaDatastore
  if httpMethod = str "GET" ∨ httpMethod = str "HEAD" then
    .ok (.getData, if uri.segments.isEmpty then str "/*" else path)
  else if httpMethod = str "PUT" then .ok (.createOrReplaceThisNode, path)
  else if httpMethod = str "DELETE" ∧ schemaNode.isSome then .ok (.deleteNode, path)
  else if httpMethod = str "POST" ∧ schemaNode.any (isOperation ctx) then
    if schemaNode.any fun node => isInternalRPCPath (ctx.path node) then
      .ok (.executeInternal, path)
    else .ok (.execute, path)
  else if httpMethod = str "POST" ∧ isData then .ok (.createChildren, path)
  else if httpMethod = str "PATCH" then .ok (.mergeData, path)
  else
    .error (.logicError (str "Unhandled request " ++ httpMethod ++ str " " ++ uriPath))

/-- `asRestconfRequest` -/
def asRestconfRequest (httpMethod uriPath uriQueryString : Str) :
    Except Exception RestconfRequest := do
  require (httpMethods.contains httpMethod)
    (reject 405 "application" "operation-not-supported" (str "Method not allowed."))
  let uri ← Impl.parseUriPath uriPath
  let queryParameters ← Impl.parseQueryParams uriQueryString (uriPath.length + 1)
  validateQueryParameters queryParameters httpMethod
  let resolved ← asLibyangPath ctx uri.segments
  validateMethodForNode ctx httpMethod uri.uriPrefix resolved.schemaNode
  if httpMethod = str "OPTIONS" then return ⟨.optionsQuery, none, [], []⟩
  else
    match uri.uriPrefix.resourceType, resolved.schemaNode with
    | .restconfRoot, _ => return ⟨.restconfRoot, none, [], queryParameters⟩
    | .yangLibraryVersion, _ => return ⟨.yangLibraryVersion, none, [], queryParameters⟩
    | .basicRestconfOperations, none => return ⟨.listRPC, none, [], queryParameters⟩
    | _, _ =>
        let (type, path) ←
          requestType ctx httpMethod uriPath uri resolved.dataPath resolved.schemaNode
        let datastore ← datastoreFromApiIdentifier uri.uriPrefix.datastore
        return ⟨type, datastore, path, queryParameters⟩

/-- Does the request succeed? Only error responses are caught. -/
def isAllowed (httpMethod uriPath : Str) : Except Exception Bool :=
  match asRestconfRequest ctx httpMethod uriPath [] with
  | .ok _ => .ok true
  | .error (.errorResponse _) => .ok false
  | .error exception => .error exception

/-- `allowedHttpMethodsForUri`, a sorted set -/
def allowedHttpMethodsForUri (uriPath : Str) : Except Exception (List Str) := do
  let get ← isAllowed ctx (str "GET") uriPath
  let put ← isAllowed ctx (str "PUT") uriPath
  let post ← isAllowed ctx (str "POST") uriPath
  let delete ← isAllowed ctx (str "DELETE") uriPath
  let head ← isAllowed ctx (str "HEAD") uriPath
  let patch ← isAllowed ctx (str "PATCH") uriPath
  let some := get || put || post || delete || head || patch
  return ([(delete, "DELETE"), (get, "GET"), (head, "HEAD"), (some, "OPTIONS"),
    (patch, "PATCH"), (post, "POST"), (put, "PUT")].filter Prod.fst).map fun method =>
      str method.2

/-! ## Fields -/

open QueryParams in
/-- The traversal of `fieldsToXPath`, with the current path and the output after it. -/
def collectFields : FieldsExpr → List Str → List Str → Bool → List Str × List Str
  | .paren lhs none, currentPath, output, _ => collectFields lhs currentPath output true
  | .paren lhs (some rhs), currentPath, output, atEnd =>
      let left := collectFields lhs currentPath output false
      collectFields rhs left.1 left.2 atEnd
  | .semi lhs none, currentPath, output, _ => collectFields lhs currentPath output true
  | .semi lhs (some rhs), currentPath, output, _ =>
      let left := collectFields lhs currentPath output false
      (left.1, (collectFields rhs currentPath left.2 false).2)
  | .slash lhs none, currentPath, output, atEnd =>
      let path := currentPath ++ [lhs.qualifiedName]
      (path, if atEnd then output ++ [join (str "/") path] else output)
  | .slash lhs (some rhs), currentPath, output, atEnd =>
      collectFields rhs (currentPath ++ [lhs.qualifiedName]) output atEnd

/-- Every collected path has to lead to a data resource. -/
def validateFields : List Str → Except Exception Unit
  | [] => .ok ()
  | xpath :: paths => do
      match ctx.findPath xpath with
      | .ok node => validateMethodForNode ctx (str "GET") ⟨.basicRestconfData, none⟩ (some node)
      | .error _ =>
          throw (operationFailed (str "Can't find schema node for '" ++ xpath ++ str "'"))
      validateFields paths

/-- `fieldsToXPath` -/
def fieldsToXPath (pathPrefix : Str) (expr : QueryParams.FieldsExpr) : Except Exception Str := do
  let paths := (collectFields expr [pathPrefix] [] false).2
  validateFields ctx paths
  return join (str " | ") paths

end Requests

end Rousette.Restconf
