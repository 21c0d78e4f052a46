import Rousette.Libyang.Example
import Rousette.Restconf.DataFormats
import Rousette.Restconf.Server.Edit

/-!
# Actions and RPCs

`processActionOrRPC`.  The format of the request is only there if the request has a header
`content-type`; the state records what was found whenever it was dereferenced.
-/

namespace Rousette.Restconf.Server

open Library Libyang Program
open Http (getHeaderValue)

/-- The functions of `DynamicSubscriptions` which process internal RPCs. -/
inductive RpcHandler where
  | establishSubscription
  | deleteSubscription
  deriving DecidableEq, Repr

/-- The calls which only operations make. -/
structure OperationCalls (S : Type) where
  /-- is there a node below `asActionRpc().input()`? -/
  hasInput : S → Bool
  /-- `DataNode::parseOp`: the node of the operation with its input -/
  parseOp : DataNode S → Str → DataFormat → Except Libyang.ErrorWithCode (DataNode S)
  /-- `Session::sendRPC` -/
  sendRPC : DataNode S → Except Sysrepo.ErrorWithCode (Option (DataNode S))
  /-- `Session::checkNacmOperation` -/
  checkNacmOperation : DataNode S → Except Sysrepo.ErrorWithCode Bool
  /-- `libyang::validateOp`: the node with its defaults, or message and path of the last error
  in the context -/
  validateOp : DataNode S → Option (Forest S) → Except (Option (Str × Option Str)) (DataNode S)
  /-- the node of the output after a handler was called with the prefix of the URL, the format
  of the request, and the nodes of the input and of the output -/
  rpcHandler : RpcHandler → Option Str → DataFormat → DataNode S → DataNode S →
    Except Exception (DataNode S)
  /-- `Context::newOpaqueJSON` of the output of an operation of a module -/
  newOutput : Str → Except Libyang.ErrorWithCode Unit
  /-- printing the output with the nodes inserted below it -/
  printOutput : Str → Forest S → DataFormat → Except Libyang.ErrorWithCode (Option Str)

/-- A request for an operation, with its payload. -/
structure OperationContext extends Request where
  /-- `dataFormat.request` -/
  requestFormat : Option DataFormat
  restconfRequest : RestconfRequest
  payload : Str

/-- What was done while an operation was processed. -/
structure OperationWorld (S : Type) where
  world : World S
  /-- the dereferences of `dataFormat.request`, with what was there -/
  formatReads : List (Option DataFormat)

def OperationWorld.initial {S : Type} : OperationWorld S := ⟨.initial, []⟩

/-- Code which processes an operation. -/
abbrev OperationHandler (S : Type) := Program (OperationWorld S) Exception

section Operations

variable {S : Type} (env : Env S) (calls : OperationCalls S)
  (ctx : OperationContext)

/-- Code which does not look at the format of the request. -/
def onWorld {α : Type} (handler : Handler S α) : OperationHandler S α :=
  ExceptT.mk fun state =>
    ((exec handler state.world).1, { state with world := (exec handler state.world).2 })

/-- `*dataFormat.request` -/
def requestFormat : OperationHandler S DataFormat := do
  modify fun state => { state with formatReads := state.formatReads ++ [ctx.requestFormat] }
  deref ctx.requestFormat

/-- The paths of the internal RPCs, with the data for the validation of their input. -/
def internalRPCHandlers : List (Str × Option Str × RpcHandler) :=
  [(str "/ietf-subscribed-notifications:establish-subscription",
      some (str "/ietf-subscribed-notifications:filters"), .establishSubscription),
    (str "/ietf-subscribed-notifications:kill-subscription", none, .deleteSubscription),
    (str "/ietf-subscribed-notifications:delete-subscription", none, .deleteSubscription)]

/-- The validation of the input of an internal RPC. -/
def validateInput (rpcInput : DataNode S) (rpcPath : Str) (validationData : Option (Forest S)) :
    Except Exception (DataNode S) :=
  match calls.validateOp rpcInput validationData with
  | .ok validated => .ok validated
  | .error (some (message, dataPath)) =>
      .error (invalidValue message (some (dataPath.getD rpcPath)))
  | .error none => .error (invalidValue (str "Input validation failed") (some rpcPath))

/-- `processInternalRPC` -/
def processInternalRPC (rpcInput : DataNode S) (rpcPath : Str) (requestEncoding : DataFormat) :
    Except Exception (DataNode S) := do
  let rpcNode ← raise (env.libyang.newPath2 rpcPath)
  let authorized ← raiseSysrepo (calls.checkNacmOperation rpcNode.createdNode)
  require authorized (.errorResponse
    ⟨403, str "application", str "access-denied", str "Access denied.",
      some (env.libyang.dataPath [rpcNode.createdParent] (0 :: rpcNode.position)), none⟩)
  match internalRPCHandlers.lookup rpcPath with
  | none =>
      throw (.errorResponse ⟨501, str "application", str "operation-not-supported",
        str "Unsupported RPC call to " ++ rpcPath, some rpcPath, none⟩)
  | some (validationDataXPath, handler) =>
      raiseSysrepo (env.session.switchDatastore .operational)
      let validationData ← match validationDataXPath with
        | some xpath => raiseSysrepo (env.session.getData xpath 0 .default)
        | none => pure none
      let rpcInput ← validateInput calls rpcInput rpcPath validationData
      let created ← raise (env.libyang.newPath2 rpcPath)
      let rpcOutput ←
        calls.rpcHandler handler ctx.urlPrefix requestEncoding rpcInput created.createdNode
      return created.createdParent.modifyAt (fun _ => rpcOutput) created.position

/-- The schema node of the operation.  The format of its input has to be known. -/
def operationNode : Except Exception S := do
  raiseSysrepo (env.session.switchDatastore .operational)
  let rpcSchemaNode ← raise (env.libyang.ctx.findPath ctx.restconfRequest.path)
  require (!(ctx.requestFormat.isNone && calls.hasInput rpcSchemaNode))
    (invalidValue (str "Content-type header missing.") none)
  return rpcSchemaNode

/-- Is the node present which an action is called on? -/
def requireActionParent (rpcSchemaNode : S) : Except Exception Unit :=
  if env.libyang.ctx.nodeType rpcSchemaNode = .action then do
    let (pathToParent, _) ← asLibyangPathSplit env.libyang.ctx ctx.rawPath
    let data ← raiseSysrepo (env.session.getData pathToParent 0 .default)
    require data.isSome (operationFailed
      (str "Action data node '" ++ ctx.restconfRequest.path ++ str "' does not exist."))
  else .ok ()

/-- The node of the operation, without any input. -/
def createOperation : Except Exception (CreatedNodes S) := do
  let rpcSchemaNode ← operationNode env calls ctx
  requireActionParent env ctx rpcSchemaNode
  raise (env.libyang.newPath2 ctx.restconfRequest.path)

/-- The node of the operation with the input in the payload. -/
def parseInput (rpcNode : DataNode S) : OperationHandler S (DataNode S) :=
  if ctx.payload = [] then return rpcNode
  else do
    let format ← requestFormat ctx
    raise (calls.parseOp rpcNode ctx.payload format)

/-- The reply of sysrepo or of the server itself. -/
def callOperation (rpcNode : DataNode S) (rpcPath : Str) :
    OperationHandler S (Option (DataNode S)) :=
  match ctx.restconfRequest.type with
  | .execute => raiseSysrepo (calls.sendRPC rpcNode)
  | .executeInternal => do
      let format ← requestFormat ctx
      let reply ← processInternalRPC env calls ctx rpcNode rpcPath format
      return some reply
  | _ => return none

/-- The response with the output of the operation. -/
def sendReply (rpcNode : DataNode S) (rpcReply : Option (DataNode S)) : Handler S Unit :=
  let responseNodes := (rpcReply.map Library.Tree.children).getD []
  if responseNodes.isEmpty then do
    writeHead 204 [cors]
    endWith []
  else do
    let moduleName := env.libyang.ctx.moduleName rpcNode.schema
    raise (calls.newOutput moduleName)
    writeHead 200 [contentType ctx.responseFormat, cors]
    let printed ← raise (calls.printOutput moduleName responseNodes ctx.responseFormat)
    let body ← deref printed
    endWith body

/-- `processActionOrRPC` -/
def processActionOrRPC : OperationHandler S Unit := do
  let created ← createOperation env calls ctx
  let rpcNode ← parseInput calls ctx created.createdNode
  let rpcPath := env.libyang.dataPath [created.createdParent] (0 :: created.position)
  let rpcReply ← callOperation env calls ctx rpcNode rpcPath
  onWorld (sendReply env calls ctx rpcNode rpcReply)

/-- The end of the payload of a request for an operation has arrived. -/
def onOperationPayload : OperationHandler S Unit :=
  tryCatch (processActionOrRPC env calls ctx) fun exception =>
    onWorld (report env ctx.restconfRequest.path (rejectWithError env ctx.toRequest) exception)

/-- The state after a request for an operation. -/
def afterOperation : OperationWorld S :=
  (exec (onOperationPayload env calls ctx) OperationWorld.initial).2

end Operations

/-! ## Dereferences of the format -/

section FormatReads

variable {S : Type} {env : Env S} {calls : OperationCalls S}
  {ctx : OperationContext}

/-- The request gets past the checks without a format, and then its format is used: the
operation has no input nodes, but there is a payload or the server processes it itself. -/
structure ReadsFormat (env : Env S) (calls : OperationCalls S) (ctx : OperationContext) :
    Prop where
  switched : env.session.switchDatastore .operational = .ok ()
  noInput : ∃ node, env.libyang.ctx.findPath ctx.restconfRequest.path = .ok node ∧
    calls.hasInput node = false ∧ requireActionParent env ctx node = .ok ()
  created : ∃ nodes, env.libyang.newPath2 ctx.restconfRequest.path = .ok nodes
  used : ctx.payload ≠ [] ∨ ctx.restconfRequest.type = .executeInternal

/-- The format is present wherever it is dereferenced. -/
def FormatPresent (env : Env S) (calls : OperationCalls S) (ctx : OperationContext) : Prop :=
  ∀ format ∈ (afterOperation env calls ctx).formatReads, format.isSome

@[simp] theorem exec_onWorld {α : Type} (handler : Handler S α) (state : OperationWorld S) :
    exec (onWorld handler) state =
      ((exec handler state.world).1, { state with world := (exec handler state.world).2 }) :=
  rfl

/-- Every dereference finds the format of the request. -/
abbrev ReadsOnly {α : Type} (ctx : OperationContext) (program : OperationHandler S α) : Prop :=
  Emits OperationWorld.formatReads (· = ctx.requestFormat) program

theorem readsOnly_onWorld {α : Type} (handler : Handler S α) : ReadsOnly ctx (onWorld handler) :=
  .of_keeps fun _ => rfl

theorem readsOnly_requestFormat :
    ReadsOnly ctx (requestFormat ctx : OperationHandler S DataFormat) := by
  refine .bind ?_ fun _ _ => .liftM _
  intro state format member
  exact (List.mem_append.mp member).imp_right List.mem_singleton.mp

theorem readsOnly_parseInput (rpcNode : DataNode S) :
    ReadsOnly ctx (parseInput calls ctx rpcNode) := by
  unfold parseInput
  split
  · exact .pure _
  · exact .bind readsOnly_requestFormat fun _ _ => .liftM _

theorem readsOnly_callOperation (rpcNode : DataNode S) (rpcPath : Str) :
    ReadsOnly ctx (callOperation env calls ctx rpcNode rpcPath) := by
  unfold callOperation
  split
  · exact .liftM _
  · exact .bind readsOnly_requestFormat fun _ _ => .bind (.liftM _) fun _ _ => .pure _
  · exact .pure _

theorem readsOnly_onOperationPayload : ReadsOnly ctx (onOperationPayload env calls ctx) := by
  refine .tryCatch ?_ fun _ => readsOnly_onWorld _
  unfold processActionOrRPC
  refine .bind_liftM fun created _ => .bind (readsOnly_parseInput _) fun rpcNode _ => ?_
  exact .bind (readsOnly_callOperation _ _) fun _ _ => readsOnly_onWorld _

theorem formatPresent_of_isSome (present : ctx.requestFormat.isSome) :
    FormatPresent env calls ctx := by
  intro format member
  rcases readsOnly_onOperationPayload _ format member with earlier | rfl
  · cases earlier
  · exact present

/-- Nothing is read. -/
abbrev KeepsReads {α : Type} (program : OperationHandler S α) : Prop :=
  Keeps (fun before after => after.formatReads = before.formatReads) program

theorem KeepsReads.bind {α β : Type} {first : OperationHandler S α}
    {second : α → OperationHandler S β} (keeps : KeepsReads first)
    (keepsSecond : ∀ value, KeepsReads (second value)) : KeepsReads (first >>= second) :=
  Keeps.bind (fun before after => after.trans before) keeps keepsSecond

theorem keepsReads_liftM {α : Type} (result : Except Exception α) :
    KeepsReads (MonadLiftT.monadLift result : OperationHandler S α) :=
  fun _ => rfl

theorem keepsReads_onWorld {α : Type} (handler : Handler S α) : KeepsReads (onWorld handler) :=
  fun _ => rfl

theorem keepsReads_parseInput (empty : ctx.payload = []) (rpcNode : DataNode S) :
    KeepsReads (parseInput calls ctx rpcNode) := by
  rw [parseInput, if_pos empty]
  exact fun _ => rfl

theorem keepsReads_callOperation (external : ctx.restconfRequest.type ≠ .executeInternal)
    (rpcNode : DataNode S) (rpcPath : Str) :
    KeepsReads (callOperation env calls ctx rpcNode rpcPath) := by
  unfold callOperation
  split
  · exact keepsReads_liftM _
  case h_2 internal => exact absurd internal external
  · exact fun _ => rfl

theorem keepsReads_onOperationPayload (empty : ctx.payload = [])
    (external : ctx.restconfRequest.type ≠ .executeInternal) :
    KeepsReads (onOperationPayload env calls ctx) := by
  refine .tryCatch (fun before after => after.trans before) ?_ fun _ => keepsReads_onWorld _
  unfold processActionOrRPC
  refine KeepsReads.bind (keepsReads_liftM _) fun created => ?_
  refine .bind (keepsReads_parseInput empty _) fun rpcNode => ?_
  exact .bind (keepsReads_callOperation external _ _) fun _ => keepsReads_onWorld _

section Absent

variable (absent : ctx.requestFormat = none)

include absent

theorem operationNode_eq_ok {node : S} :
    operationNode env calls ctx = .ok node ↔
      env.session.switchDatastore .operational = .ok () ∧
        env.libyang.ctx.findPath ctx.restconfRequest.path = .ok node ∧
        calls.hasInput node = false := by
  simp only [operationNode, except_bind_eq_ok, raiseSysrepo_eq_ok, raise_eq_ok, require_eq_ok,
    absent, Option.isNone_none, Bool.true_and, Bool.not_eq_true', pure, Except.pure,
    Except.ok.injEq]
  constructor
  · rintro ⟨_, switched, found, known, _, noInput, rfl⟩
    exact ⟨switched, known, noInput⟩
  · rintro ⟨switched, known, noInput⟩
    exact ⟨(), switched, node, known, (), noInput, rfl⟩

/-- Without a format the request gets past the checks only if there are no input nodes. -/
theorem createOperation_isOk_iff :
    (∃ nodes, createOperation env calls ctx = .ok nodes) ↔
      env.session.switchDatastore .operational = .ok () ∧
        (∃ node, env.libyang.ctx.findPath ctx.restconfRequest.path = .ok node ∧
          calls.hasInput node = false ∧ requireActionParent env ctx node = .ok ()) ∧
        ∃ nodes, env.libyang.newPath2 ctx.restconfRequest.path = .ok nodes := by
  simp only [createOperation, except_bind_eq_ok, raise_eq_ok, operationNode_eq_ok absent]
  constructor
  · rintro ⟨nodes, node, ⟨switched, known, noInput⟩, _, present, created⟩
    exact ⟨switched, ⟨node, known, noInput, present⟩, nodes, created⟩
  · rintro ⟨switched, ⟨node, known, noInput, present⟩, nodes, created⟩
    exact ⟨nodes, node, ⟨switched, known, noInput⟩, (), present, created⟩

theorem exec_requestFormat (state : OperationWorld S) :
    exec (requestFormat ctx) state =
      (.error .undefined, { state with formatReads := state.formatReads ++ [none] }) := by
  rw [requestFormat, absent]
  rfl

/-- The first use of the format ends the run. -/
theorem exec_processActionOrRPC {nodes : CreatedNodes S}
    (created : createOperation env calls ctx = .ok nodes)
    (used : ctx.payload ≠ [] ∨ ctx.restconfRequest.type = .executeInternal)
    (state : OperationWorld S) :
    exec (processActionOrRPC env calls ctx) state =
      (.error .undefined, { state with formatReads := state.formatReads ++ [none] }) := by
  rw [processActionOrRPC, exec_bind, exec_liftM, created]
  simp only [exec_bind]
  by_cases empty : ctx.payload = []
  · have internal := used.resolve_left (not_not_intro empty)
    have parsed : parseInput calls ctx nodes.createdNode = pure nodes.createdNode :=
      if_pos empty
    simp only [parsed, exec_pure, callOperation, internal, exec_bind, exec_requestFormat absent]
  · have parsed : parseInput calls ctx nodes.createdNode = (do
        let format ← requestFormat ctx
        raise (calls.parseOp nodes.createdNode ctx.payload format)) :=
      if_neg empty
    simp only [parsed, exec_bind, exec_requestFormat absent]

theorem formatPresent_iff_not_readsFormat :
    FormatPresent env calls ctx ↔ ¬ReadsFormat env calls ctx := by
  have rejecting (exception : Exception) := exec_onWorld
    (report env ctx.restconfRequest.path (rejectWithError env ctx.toRequest) exception)
  constructor
  · rintro present ⟨switched, noInput, created, used⟩
    obtain ⟨nodes, known⟩ := (createOperation_isOk_iff absent).mpr ⟨switched, noInput, created⟩
    -- the exception is not caught, so nothing is read after it
    have reads : (afterOperation env calls ctx).formatReads = [none] := by
      rw [afterOperation, onOperationPayload, exec_tryCatch,
        exec_processActionOrRPC absent known used]
      simp only [rejecting, OperationWorld.initial, List.nil_append]
    have found := present none (reads ▸ List.mem_singleton_self none)
    cases found
  · intro never format member
    cases outcome : createOperation env calls ctx with
    | error exception =>
        have reads : (afterOperation env calls ctx).formatReads = [] := by
          rw [afterOperation, onOperationPayload, exec_tryCatch, processActionOrRPC, exec_bind,
            exec_liftM, outcome]
          simp only [rejecting, OperationWorld.initial]
        rw [reads] at member
        cases member
    | ok nodes =>
        obtain ⟨switched, noInput, created⟩ := (createOperation_isOk_iff absent).mp ⟨nodes, outcome⟩
        have unused : ¬(ctx.payload ≠ [] ∨ ctx.restconfRequest.type = .executeInternal) :=
          fun used => never ⟨switched, noInput, created, used⟩
        obtain ⟨empty, external⟩ := not_or.mp unused
        have reads := @keepsReads_onOperationPayload S env calls ctx (not_not.mp empty) external
          OperationWorld.initial
        rw [afterOperation, reads] at member
        cases member

end Absent

variable {Q : Type} [LinearOrder Q] [Zero Q] [One Q] {stod : Str → Option Q}

/-- The format of the request is present wherever it is dereferenced, if and only if there is a
media type in the header `content-type` or the format is not used. -/
theorem formatPresent_iff {headers : List (Str × Str)} {encoding : DataEncoding}
    (chosen : chooseDataEncoding stod headers = .ok encoding)
    (format : ctx.requestFormat = encoding.request) :
    FormatPresent env calls ctx ↔
      (providedType stod headers).isSome ∨ ¬ReadsFormat env calls ctx := by
  rw [Option.isSome_iff_ne_none, ne_eq, ← request_eq_none_iff stod chosen, ← format]
  cases provided : ctx.requestFormat with
  | none =>
      rw [formatPresent_iff_not_readsFormat provided]
      simp
  | some format => simp [formatPresent_of_isSome, provided]

end FormatReads

/-! ## An operation without input nodes -/

namespace NoInput

/-- The schema of the RPC `test-rpc-no-input`, which is its only node. -/
def schema : Context Unit where
  moduleName _ := str "example"
  ns _ := str "http://example.tld/example"
  name _ := str "test-rpc-no-input"
  nodeType _ := .rpc
  parent _ := none
  path _ := str "/example:test-rpc-no-input"
  keys _ := []
  isKey _ := false
  isUserOrdered _ := false
  childInstantiables _ := []
  topLevel := [()]
  findPath path :=
    if path = str "/example:test-rpc-no-input" then .ok () else .error Example.noAnswer
  children_unique member := nomatch member
  findPath_topLevel _ := if_pos (by decide)
  keys_children isList := nomatch isList
  topLevel_isKey _ := rfl

def operation : DataNode Unit := .inner () []

def env : Env Unit where
  libyang :=
    { Calls.refusing schema Example.noAnswer with
      newPath2 := fun _ => .ok ⟨operation, [], operation, rfl⟩ }
  session := .accepting

def calls : OperationCalls Unit where
  hasInput _ := false
  parseOp node _ _ := .ok node
  sendRPC _ := .ok none
  checkNacmOperation _ := .ok true
  validateOp node _ := .ok node
  rpcHandler _ _ _ _ output := .ok output
  newOutput _ := .ok ()
  printOutput _ _ _ := .ok none

/-- A request with a payload. -/
def context (requestFormat : Option DataFormat) : OperationContext where
  method := str "POST"
  rawPath := str "/restconf/operations/example:test-rpc-no-input"
  path := str "/restconf/operations/example:test-rpc-no-input"
  responseFormat := .json
  urlPrefix := none
  requestFormat := requestFormat
  restconfRequest := ⟨.execute, none, str "/example:test-rpc-no-input", []⟩
  payload := str "\x7b\"example:input\":\x7b\x7d\x7d"

/-- There are no numbers in the headers. -/
def stod (_ : Str) : Option Nat := none

theorem formatPresent_json : FormatPresent env calls (context (some .json)) :=
  (@formatPresent_iff Unit env calls (context (some .json)) Nat _ _ _ stod
    [(str "content-type", str "application/yang-data+json")] ⟨some .json, .json⟩
    (by decide +kernel) rfl).mpr (.inl (by decide +kernel))

/-- Without a header `content-type` the format is dereferenced nevertheless. -/
theorem not_formatPresent_missing :
    chooseDataEncoding stod [] = .ok ⟨(context none).requestFormat, .json⟩ ∧
      asRestconfRequest schema (str "POST") (context none).rawPath [] =
        .ok (context none).restconfRequest ∧
      ¬FormatPresent env calls (context none) := by
  have reads : (afterOperation env calls (context none)).formatReads = [none] := by
    decide +kernel
  refine ⟨by decide +kernel, rfl, fun present => ?_⟩
  have found := present none (reads ▸ List.mem_singleton_self none)
  cases found

end NoInput

end Rousette.Restconf.Server
