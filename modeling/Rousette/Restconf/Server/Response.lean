import Rousette.Libyang.Calls
import Rousette.Restconf.Uri

/-!
# Requests and responses

The state which the handlers of `restconf/Server.cpp` work on, and the way in which
exceptions become error responses.  A response is delivered as it was written first;
later heads and bodies are ignored.

Next to the response the state records what was passed on: the key checks which were
made, the edits which were handed to sysrepo and those which were applied.
-/

namespace Rousette.Restconf.Server

open Library Libyang

/-- What was done while a request was processed. -/
structure World (S : Type) where
  /-- the status and the headers, once `write_head` was called -/
  head : Option (Nat × List (Str × Str))
  /-- the body, once `end` was called -/
  body : Option Str
  /-- the calls of `checkKeysMismatch` -/
  keyChecks : List (DataNode S × PathSegment)
  /-- the edits which were passed to `editBatch` or `replaceConfig` -/
  handed : List (Forest S)
  /-- the edits which were applied to the datastore -/
  applied : List (Forest S)

/-- Nothing has been done yet. -/
def World.initial {S : Type} : World S := ⟨none, none, [], [], []⟩

instance {S : Type} : Inhabited (World S) := ⟨World.initial⟩

/-- Code which processes a request. -/
abbrev Handler (S : Type) := Program (World S) Exception

/-- `sysrepo::GetOptions` -/
inductive GetOptions where
  | default
  | operNoConfig
  | operNoState
  deriving DecidableEq, Repr

/-- The outcomes of the calls into sysrepo while a request is processed. -/
structure Session (S : Type) where
  /-- `Connection::sessionStart` -/
  sessionStart : Except Sysrepo.ErrorWithCode Unit
  switchDatastore : Datastore → Except Sysrepo.ErrorWithCode Unit
  /-- taking `sysrepo::Lock` -/
  lock : Except Sysrepo.ErrorWithCode Unit
  /-- by XPath and depth -/
  getData : Str → Nat → GetOptions → Except Sysrepo.ErrorWithCode (Option (Forest S))
  editBatch : Forest S → Except Sysrepo.ErrorWithCode Unit
  applyChanges : Except Sysrepo.ErrorWithCode Unit
  replaceConfig : Forest S → Except Sysrepo.ErrorWithCode Unit

/-- A session in which every call succeeds and there is no data; the starting point for
concrete ones. -/
def Session.accepting {S : Type} : Session S where
  sessionStart := .ok ()
  switchDatastore _ := .ok ()
  lock := .ok ()
  getData _ _ _ := .ok none
  editBatch _ := .ok ()
  applyChanges := .ok ()
  replaceConfig _ := .ok ()

/-- A request with the parts of it that the handlers look at. -/
structure Request where
  method : Str
  /-- `uri().raw_path` -/
  rawPath : Str
  /-- `uri().path`, percent-decoded -/
  path : Str
  /-- `dataFormat.response` -/
  responseFormat : DataFormat
  /-- what `http::parseUrlPrefix` finds in the headers -/
  urlPrefix : Option Str

/-- A request with a payload. -/
structure RequestContext extends Request where
  /-- `dataFormat.request`, which was checked to be present -/
  requestFormat : DataFormat
  /-- the datastore which the session was switched to -/
  activeDatastore : Datastore
  restconfRequest : RestconfRequest
  /-- the header `content-type` -/
  contentTypeHeader : Option Str
  payload : Str

/-- What handlers work with. -/
structure Env (S : Type) where
  libyang : Calls S
  session : Session S

section Effects

variable {S α : Type}

/-- Raise what sysrepo raises. -/
def raiseSysrepo : Except Sysrepo.ErrorWithCode α → Except Exception α
  | .ok value => .ok value
  | .error error => .error (.sysrepo error)

@[simp] theorem raiseSysrepo_eq_ok {result : Except Sysrepo.ErrorWithCode α} {value : α} :
    raiseSysrepo result = .ok value ↔ result = .ok value := by
  cases result <;> simp [raiseSysrepo]

/-- Dereference an optional. -/
def deref : Option α → Except Exception α
  | some value => .ok value
  | none => .error .undefined

/-- `response::write_head` -/
def writeHead (code : Nat) (headers : List (Str × Str)) : Handler S Unit :=
  modify fun world => { world with head := world.head.or (some (code, headers)) }

/-- `response::end` -/
def endWith (body : Str) : Handler S Unit :=
  modify fun world => { world with body := world.body.or (some body) }

/-- `Session::editBatch` -/
def editBatch (env : Env S) (edit : Forest S) : Handler S Unit := do
  modify fun world => { world with handed := world.handed ++ [edit] }
  raiseSysrepo (env.session.editBatch edit)

/-- `Session::applyChanges`, after `editBatch` has taken the edit. -/
def applyChanges (env : Env S) (edit : Forest S) : Handler S Unit := do
  raiseSysrepo env.session.applyChanges
  modify fun world => { world with applied := world.applied ++ [edit] }

/-- `Session::replaceConfig` -/
def replaceConfig (env : Env S) (edit : Forest S) : Handler S Unit := do
  modify fun world => { world with handed := world.handed ++ [edit] }
  raiseSysrepo (env.session.replaceConfig edit)
  modify fun world => { world with applied := world.applied ++ [edit] }

end Effects

/-! ## Headers -/

def cors : Str × Str := (str "access-control-allow-origin", str "*")

/-- `contentType` of a data format -/
def contentType : DataFormat → Str × Str
  | .json => (str "content-type", str "application/yang-data+json")
  | .xml => (str "content-type", str "application/yang-data+xml")

/-- `httpOptionsHeaders` -/
def httpOptionsHeaders (allowedHttpMethods : List Str) : List (Str × Str) :=
  (str "allow", join (str ", ") allowedHttpMethods) ::
    if allowedHttpMethods.contains (str "PATCH") then
      [(str "accept-patch",
        str ("application/yang-data+json, application/yang-data+xml, " ++
          "application/yang-patch+xml, application/yang-patch+json"))]
    else []

/-! ## Error responses -/

section Errors

variable {S : Type} (env : Env S) (req : Request)

/-- One more step of an error document. -/
def extend (document : Document) (entry : Entry) : Except Exception Document := do
  raise (env.libyang.extend document entry)
  return document ++ [entry]

/-- Several leafs below one node. -/
def extendAll (below : Str) : Document → List (Str × Option Str) → Except Exception Document
  | document, [] => .ok document
  | document, (path, value) :: rest => do
      let extended ← extend env document (.newPath below path value)
      extendAll below extended rest

/-- The leafs of an error in the container `errors`. -/
def errorLeafs (error : ErrorResponse) : List (Str × Option Str) :=
  [(str "error[1]/error-type", some error.errorType),
    (str "error[1]/error-tag", some error.errorTag),
    (str "error[1]/error-message", some error.errorMessage)] ++
    match error.errorPath with
    | some path => [(str "error[1]/error-path", some path)]
    | none => []

/-- The structured payload of an error, built as a tree of its own. -/
def extendErrorInfo (document : Document) (container : Str) :
    Option ErrorInfo → Except Exception Document
  | none => .ok document
  | some info => do
      let root := str "/rousette:" ++ info.containerName
      let leafs := info.leafs.map fun leaf => (leaf.1, some leaf.2)
      let created ← extend env [] (.newPath [] root none)
      let _ ← extendAll env root created leafs
      extend env document (.newAny container (str "error[1]/error-info") leafs)

/-- The headers of an error response. -/
def errorHeaders (code : ErrorStatus) : Except Exception (List (Str × Str)) := do
  let headers := [contentType req.responseFormat, cors]
  if code = 405 then
    let allowed ← allowedHttpMethodsForUri env.libyang.ctx req.path
    return headers ++ httpOptionsHeaders allowed
  else return headers

/-- `rejectWithErrorImpl` -/
def rejectWithErrorImpl (document : Document) (container : Str) (error : ErrorResponse) :
    Handler S Unit := do
  let document ← extendAll env container document (errorLeafs error)
  let document ← extendErrorInfo env document container error.errorInfo
  let headers ← errorHeaders env req error.code
  writeHead error.code.toNat headers
  let printed ← raise (env.libyang.printDocument document req.responseFormat)
  let body ← deref printed
  endWith body

/-- `rejectWithError` -/
def rejectWithError (error : ErrorResponse) : Handler S Unit := do
  let container := str "/ietf-restconf:errors"
  let document ← extend env [] (.newPath [] container none)
  rejectWithErrorImpl env req document container error

/-- An error below the status of a patch: the container is found again by its XPath. -/
def rejectInStatus (patchId errorContainerXPath : Str) (error : ErrorResponse) :
    Handler S Unit := do
  let document ← extend env [] (.newPath [] errorContainerXPath none)
  let found ← raise (env.libyang.findXPath document errorContainerXPath)
  require found .undefined
  let document ← extend env document
    (.newPath (str "/ietf-yang-patch:yang-patch-status") (str "patch-id") (some patchId))
  rejectWithErrorImpl env req document errorContainerXPath error

/-- `rejectYangPatch` with a known patch-id -/
def rejectYangPatch (patchId : Str) : ErrorResponse → Handler S Unit :=
  rejectInStatus env req patchId (str "/ietf-yang-patch:yang-patch-status/errors")

/-- `rejectYangPatch` with known patch-id and edit-id -/
def rejectYangPatchEdit (patchId editId : Str) : ErrorResponse → Handler S Unit :=
  rejectInStatus env req patchId
    (str "/ietf-yang-patch:yang-patch-status/edit-status/edit[edit-id='" ++ editId ++
      str "']/errors")

/-- The error response for an exception of libyang. -/
def libyangErrorResponse (error : Libyang.ErrorWithCode) : ErrorResponse :=
  if error.code = .validationFailure then
    ⟨400, str "protocol", str "invalid-value", str "Validation failure: " ++ error.what,
      none, none⟩
  else
    ⟨500, str "application", str "operation-failed",
      str "Internal server error due to libyang exception: " ++ error.what, none, none⟩

/-- Does the path of the request lead to an action? -/
def isAction (path : Str) : Except Exception Bool :=
  if path = str "/" then .ok false
  else do
    let node ← raise (env.libyang.ctx.findPath path)
    return env.libyang.ctx.nodeType node == .action

/-- The error response for an exception of sysrepo. -/
def sysrepoErrorResponse (path : Str) (error : Sysrepo.ErrorWithCode) :
    Except Exception ErrorResponse :=
  match error.code with
  | .unauthorized =>
      .ok ⟨403, str "application", str "access-denied", str "Access denied.", none, none⟩
  | .notFound => .ok ⟨400, str "protocol", str "invalid-value", error.what, none, none⟩
  | .itemAlreadyExists =>
      .ok ⟨409, str "application", str "resource-denied", str "Resource already exists.",
        none, none⟩
  | .validationFailed => do
      let action ← isAction env path
      return ⟨400, str "application", str "operation-failed",
        str "Validation failed. Invalid input data" ++
          (if action then str " or the action node is not present" else []) ++ str ".",
        none, none⟩
  | _ =>
      .ok ⟨500, str "application", str "operation-failed",
        str "Internal server error due to sysrepo exception: " ++ error.what, none, none⟩

/-- The error response which an exception is mapped to; others pass. -/
def mappedErrorResponse (path : Str) : Exception → Except Exception ErrorResponse
  | .errorResponse error => .ok error
  | .libyang error => .ok (libyangErrorResponse error)
  | .sysrepo error => sysrepoErrorResponse env path error
  | exception => .error exception

/-- Reject with the error response which an exception is mapped to. -/
def report (path : Str) (reject : ErrorResponse → Handler S Unit) (exception : Exception) :
    Handler S Unit := do
  let error ← mappedErrorResponse env path exception
  reject error

/-- `withRestconfExceptions`: run the function, or reject and go on with what there was
before it. -/
def withRestconfExceptions {α : Type} (path : Str) (func : Handler S α)
    (reject : ErrorResponse → Handler S Unit) (before : α) : Handler S α :=
  tryCatch func fun exception => do
    report env path reject exception
    return before

end Errors

end Rousette.Restconf.Server
