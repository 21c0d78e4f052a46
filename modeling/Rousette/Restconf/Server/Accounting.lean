import Rousette.Restconf.Server.ControlMetas
import Rousette.Restconf.Server.Transactions

/-!
# Accounting for edits

What was handed to sysrepo over a whole exchange, from the headers of a request to the last piece
of its payload, and what the response tells about it.
-/

namespace Rousette.Restconf.Server

open Library Libyang Program

section Begin

variable {S : Type} {env : Env S} {arrival : Arrival} {request : RestconfRequest}

/-- The request was admitted, and was understood. -/
structure Accepts (env : Env S) (arrival : Arrival) (request : RestconfRequest) : Prop where
  started : env.session.sessionStart = .ok ()
  admitted : arrival.admission = .ok ()
  accepted : asRestconfRequest env.libyang.ctx arrival.method arrival.rawPath arrival.query =
    .ok request

/-- The requests for an RPC or an action. -/
def IsInvocation (type : RequestType) : Prop := type = .execute ∨ type = .executeInternal

/-- The ways in which an exchange begins. -/
inductive Begun (env : Env S) (arrival : Arrival) (exchange : Exchange S) : Prop where
  /-- an error is reported -/
  | refused (none : exchange.awaited = none) (idle : Idle exchange.state.world)
      (declined : Declined exchange.state.world)
  /-- the request is one which does not write -/
  | answered {request : RestconfRequest} (accepts : Accepts env arrival request)
      (reads : ¬request.type.Writes) (none : exchange.awaited = none)
      (idle : Idle exchange.state.world)
  | deleted {request : RestconfRequest} (accepts : Accepts env arrival request)
      (kind : request.type = .deleteNode) (writable : openWritable env request = .ok ())
      (none : exchange.awaited = none) (concluded : Concluded exchange.state.world)
  | awaiting {request : RestconfRequest} (accepts : Accepts env arrival request)
      (kind : request.type.Writes ∧ request.type ≠ .deleteNode ∧
          openWritable env request = .ok () ∨ IsInvocation request.type)
      (some : exchange.awaited = some request) (fresh : Fresh exchange.state.world)

/-- An exception in the handler is reported, at most. -/
theorem exec_handleException_initial {req : Request} (exception : Exception) :
    (exec (handleException env req exception) World.initial).1 ≠ .ok .payload ∧
      Idle (exec (handleException env req exception) World.initial).2 ∧
      Declined (exec (handleException env req exception) World.initial).2 := by
  have rejects : Rejects World.initial
      (exec (handleException env req exception) World.initial).2 :=
    keeps_handleException exception World.initial
  have fresh : Fresh (World.initial : World S) := fresh_initial
  exact ⟨handleException_ne_payload exception World.initial, fresh.1.rejects rejects,
    fresh.unwritten.declined rejects⟩

/-- What the handler does. -/
def afterHandler (env : Env S) (arrival : Arrival) : Except Exception Next × World S :=
  exec (handleRestconf env arrival.toRequest arrival.requestFormat arrival.admission
    arrival.query) World.initial

theorem awaited_begin_of_ne (other : (afterHandler env arrival).1 ≠ .ok .payload) :
    (Exchange.begin env arrival).awaited = none := by
  unfold afterHandler at other
  unfold Exchange.begin
  dsimp only
  split
  next returned => exact absurd returned other
  · rfl

theorem awaited_begin_of_eq (accepts : Accepts env arrival request)
    (waits : (afterHandler env arrival).1 = .ok .payload) :
    (Exchange.begin env arrival).awaited = some request := by
  unfold afterHandler at waits
  unfold Exchange.begin
  dsimp only
  rw [waits, accepts.accepted]
  rfl

/-- The handler ends with an exception which is reported, at most. -/
theorem begun_of_exception {exception : Exception}
    (after : afterHandler env arrival =
      exec (handleException env arrival.toRequest exception) World.initial) :
    Begun env arrival (Exchange.begin env arrival) := by
  obtain ⟨other, idle, declined⟩ :=
    @exec_handleException_initial S env arrival.toRequest exception
  rw [← after] at other idle declined
  exact .refused (awaited_begin_of_ne other) idle declined

theorem afterHandler_accepts (accepts : Accepts env arrival request) :
    afterHandler env arrival =
      exec (tryCatch (dispatch env arrival.toRequest request arrival.requestFormat)
        (handleException env arrival.toRequest)) World.initial :=
  exec_handleRestconf accepts.started accepts.admitted accepts.accepted World.initial

/-- A branch which only writes a response. -/
theorem begun_of_branch (accepts : Accepts env arrival request) (reads : ¬request.type.Writes)
    {branch : Handler S Unit} (keeps : Keeps SameEdits branch)
    (dispatched : dispatch env arrival.toRequest request arrival.requestFormat =
      do branch; return .nothing) :
    Begun env arrival (Exchange.begin env arrival) := by
  have after := afterHandler_accepts accepts
  rw [dispatched] at after
  have handled : Keeps SameEdits (tryCatch (do branch; return .nothing)
      (handleException env arrival.toRequest)) := by
    refine .tryCatch .trans (.bind .trans keeps fun _ => .pure .refl _) fun exception world => ?_
    exact (keeps_handleException exception world).sameEdits
  have same := handled World.initial
  rw [← after] at same
  have other : (afterHandler env arrival).1 ≠ .ok .payload := by
    rw [after, exec_tryCatch, exec_bind]
    rcases run : exec branch World.initial with ⟨exception | value, middle⟩
    · exact handleException_ne_payload exception middle
    · exact nofun
  exact .answered accepts reads (awaited_begin_of_ne other) (same.idle fresh_initial.1)

theorem begun_of_deleteNode (accepts : Accepts env arrival request)
    (kind : request.type = .deleteNode) : Begun env arrival (Exchange.begin env arrival) := by
  have after := afterHandler_accepts accepts
  rw [dispatch, kind] at after
  cases writable : openWritable env request with
  | error exception =>
      have raised : exec (do deleteNode env request; return .nothing : Handler S Next)
          World.initial = (.error exception, World.initial) := by
        simp only [deleteNode, writable, exec_bind, exec_liftM]
      rw [exec_tryCatch, raised] at after
      exact begun_of_exception after
  | ok value =>
      have transacts := transacts_deleteNode env request World.initial fresh_initial
      have concluded : (afterHandler env arrival).1 ≠ .ok .payload ∧
          Concluded (afterHandler env arrival).2 := by
        rw [after, exec_tryCatch, exec_bind]
        rcases run : exec (deleteNode env request) World.initial with ⟨exception | value, middle⟩
        · rw [run] at transacts
          have rejects := @keeps_handleException S env arrival.toRequest exception middle
          exact ⟨handleException_ne_payload exception middle, .inr (transacts.declined rejects)⟩
        · rw [run] at transacts
          constructor
          · intro same
            cases same
          · exact .inl transacts
      exact .deleted accepts kind writable (awaited_begin_of_ne concluded.1) concluded.2

theorem begun_of_payload (accepts : Accepts env arrival request)
    (kind : request.type.Writes ∧ request.type ≠ .deleteNode ∧
      openWritable env request = .ok () ∨ IsInvocation request.type)
    (dispatched : exec (dispatch env arrival.toRequest request arrival.requestFormat)
      World.initial = (.ok .payload, World.initial)) :
    Begun env arrival (Exchange.begin env arrival) := by
  have after := afterHandler_accepts accepts
  rw [exec_tryCatch, dispatched] at after
  have waits : (afterHandler env arrival).1 = .ok .payload := by rw [after]
  refine .awaiting accepts kind (awaited_begin_of_eq accepts waits) ?_
  change Fresh (afterHandler env arrival).2
  rw [after]
  exact fresh_initial

theorem begun_of_write (accepts : Accepts env arrival request) (writes : request.type.Writes)
    (kind : request.type ≠ .deleteNode)
    (dispatched : dispatch env arrival.toRequest request arrival.requestFormat = do
      prepareWrite env request arrival.requestFormat
      return .payload) :
    Begun env arrival (Exchange.begin env arrival) := by
  cases prepared : prepareWrite env request arrival.requestFormat with
  | error exception =>
      have after := afterHandler_accepts accepts
      rw [dispatched, exec_tryCatch, prepared] at after
      exact begun_of_exception after
  | ok value =>
      have writable : openWritable env request = .ok () :=
        (except_bind_eq_ok.mp prepared).choose_spec.1
      refine begun_of_payload accepts (.inl ⟨writes, kind, writable⟩) ?_
      rw [dispatched, prepared]
      rfl

theorem begun (env : Env S) (arrival : Arrival) :
    Begun env arrival (Exchange.begin env arrival) := by
  cases started : env.session.sessionStart with
  | error error =>
      have after : afterHandler env arrival = (.error (.sysrepo error), World.initial) := by
        simp only [afterHandler, handleRestconf, started, raiseSysrepo, exec_bind, exec_liftM]
      have other : (afterHandler env arrival).1 ≠ .ok .payload := by
        rw [after]
        intro same
        cases same
      have world : (Exchange.begin env arrival).state.world = World.initial :=
        congrArg Prod.snd after
      refine .refused (awaited_begin_of_ne other) ?_ ?_
      · rw [world]
        exact fresh_initial.1
      · rw [world]
        exact fresh_initial.unwritten.declined (.refl _)
  | ok value =>
  cases admitted : arrival.admission with
  | error exception =>
      have after : afterHandler env arrival =
          exec (handleException env arrival.toRequest exception) World.initial := by
        simp only [afterHandler, handleRestconf, started, admitted, raiseSysrepo, exec_bind,
          exec_liftM, exec_tryCatch]
      exact begun_of_exception after
  | ok value =>
  cases accepted : asRestconfRequest env.libyang.ctx arrival.method arrival.rawPath
      arrival.query with
  | error exception =>
      have after : afterHandler env arrival =
          exec (handleException env arrival.toRequest exception) World.initial := by
        simp only [afterHandler, handleRestconf, started, admitted, accepted, raiseSysrepo,
          exec_bind, exec_liftM, exec_tryCatch]
      exact begun_of_exception after
  | ok request =>
      have accepts : Accepts env arrival request := ⟨started, admitted, accepted⟩
      cases type : request.type with
      | restconfRoot | yangLibraryVersion | listRPC =>
          exact begun_of_branch accepts (by simp [RequestType.Writes, type])
            sameEdits_getResource (by rw [dispatch, type])
      | getData =>
          exact begun_of_branch accepts (by simp [RequestType.Writes, type])
            sameEdits_getData (by rw [dispatch, type])
      | optionsQuery =>
          exact begun_of_branch accepts (by simp [RequestType.Writes, type])
            sameEdits_optionsQuery (by rw [dispatch, type])
      | createOrReplaceThisNode | createChildren | mergeData =>
          exact begun_of_write accepts (by simp [RequestType.Writes, type]) (by simp [type])
            (by rw [dispatch, type])
      | execute | executeInternal =>
          refine begun_of_payload accepts (.inr (by simp [IsInvocation, type])) ?_
          rw [dispatch, type]
          rfl
      | deleteNode => exact begun_of_deleteNode accepts type

end Begin

/-! ## The end of the payload -/

section Payload

variable {S : Type} [DecidableEq S] {env : Env S} {calls : OperationCalls S} {arrival : Arrival}
  {request : RestconfRequest}

/-- An operation does not edit a datastore. -/
abbrev KeepsEdits {α : Type} (program : OperationHandler S α) : Prop :=
  Keeps (fun before after => SameEdits before.world after.world) program

omit [DecidableEq S] in
theorem keepsEdits_liftM {α : Type} (result : Except Exception α) :
    KeepsEdits (liftM result : OperationHandler S α) :=
  .liftM (fun state => .refl state.world) result

omit [DecidableEq S] in
theorem keepsEdits_bind {α β : Type} {first : OperationHandler S α}
    {second : α → OperationHandler S β} (keeps : KeepsEdits first)
    (keepsSecond : ∀ value, KeepsEdits (second value)) : KeepsEdits (first >>= second) :=
  .bind (fun before after => before.trans after) keeps keepsSecond

omit [DecidableEq S] in
theorem keepsEdits_onWorld {α : Type} {handler : Handler S α} (keeps : Keeps SameEdits handler) :
    KeepsEdits (onWorld handler) :=
  fun state => keeps state.world

omit [DecidableEq S] in
theorem keepsEdits_requestFormat (ctx : OperationContext) :
    KeepsEdits (requestFormat ctx : OperationHandler S DataFormat) :=
  keepsEdits_bind (fun state => .refl state.world) fun _ => keepsEdits_liftM _

omit [DecidableEq S] in
theorem sameEdits_sendReply (ctx : OperationContext) (rpcNode : DataNode S)
    (rpcReply : Option (DataNode S)) :
    Keeps SameEdits (sendReply env calls ctx rpcNode rpcReply) := by
  unfold sendReply
  dsimp only
  split
  · exact .bind .trans (sameEdits_writeHead _ _) fun _ => sameEdits_endWith _
  · refine .bind .trans (.liftM .refl _) fun _ => .bind .trans (sameEdits_writeHead _ _) fun _ => ?_
    refine .bind .trans (.liftM .refl _) fun _ => .bind .trans (.liftM .refl _) fun _ => ?_
    exact sameEdits_endWith _

omit [DecidableEq S] in
theorem keepsEdits_onOperationPayload (ctx : OperationContext) :
    KeepsEdits (onOperationPayload env calls ctx) := by
  refine .tryCatch (fun before after => before.trans after) ?_ fun exception => ?_
  · refine keepsEdits_bind (keepsEdits_liftM _) fun created => keepsEdits_bind ?_ fun rpcNode => ?_
    · unfold parseInput
      split
      · exact .pure (fun state => .refl state.world) _
      · exact keepsEdits_bind (keepsEdits_requestFormat ctx) fun _ => keepsEdits_liftM _
    refine keepsEdits_bind ?_ fun reply => ?_
    case refine_2 => exact keepsEdits_onWorld (sameEdits_sendReply ctx rpcNode reply)
    unfold callOperation
    split
    · exact keepsEdits_liftM _
    · refine keepsEdits_bind (keepsEdits_requestFormat ctx) fun _ => ?_
      exact keepsEdits_bind (keepsEdits_liftM _) fun _ => .pure (fun state => .refl state.world) _
    · exact .pure (fun state => .refl state.world) _
  · have reports : Reports (report env ctx.restconfRequest.path
        (rejectWithError env ctx.toRequest) exception) :=
      reports_report reports_rejectWithError exception
    exact keepsEdits_onWorld fun world => (reports.rejects world).sameEdits

/-- The closure for the payload of a write. -/
theorem processRequest_write (writes : request.type.Writes) (payload : Str) :
    processRequest env calls arrival request payload = onWorld (do
      let format ← deref arrival.requestFormat
      onPayload env (arrival.context request format payload)) := by
  unfold processRequest
  rcases writes with kind | kind | kind | kind <;> rw [kind]

/-- What the closure for the payload of a write keeps to, whatever the format is. -/
theorem triple_processRequest {holds : World S → Prop} (writes : request.type.Writes)
    (payload : Str) (declined : ∀ world, Fresh world → holds world)
    (triple : ∀ format, Triple Fresh (onPayload env (arrival.context request format payload))
      (fun _ => holds) fun _ => holds) {state : OperationWorld S} (fresh : Fresh state.world) :
    holds (exec (processRequest env calls arrival request payload) state).2.world := by
  rw [processRequest_write writes, exec_onWorld]
  have whole : Triple Fresh (do
      let format ← deref arrival.requestFormat
      onPayload env (arrival.context request format payload) : Handler S Unit)
      (fun _ => holds) fun _ => holds :=
    .bind_liftM (fun _ => declined) triple
  exact whole.after fresh

theorem once_processRequest (writes : request.type.Writes) (payload : Str)
    {state : OperationWorld S} (fresh : Fresh state.world) :
    AtMostOnce (exec (processRequest env calls arrival request payload) state).2.world :=
  triple_processRequest writes payload (fun _ fresh => fresh.1.unapplied.atMostOnce)
    (fun format => once_onPayload env (arrival.context request format payload)) fresh

theorem idle_processRequest (invoked : IsInvocation request.type) (payload : Str)
    {state : OperationWorld S} (fresh : Fresh state.world) :
    Idle (exec (processRequest env calls arrival request payload) state).2.world := by
  have processed : processRequest env calls arrival request payload =
      onOperationPayload env calls (arrival.operation request payload) := by
    unfold processRequest
    rcases invoked with kind | kind <;> rw [kind]
  rw [processed]
  exact (keepsEdits_onOperationPayload _ state).idle fresh.1

end Payload

/-! ## Whole exchanges -/

section Exchanges

variable {S : Type} [DecidableEq S] {env : Env S} {calls : OperationCalls S} {arrival : Arrival}

/-- The method for each type of requests which write. -/
def methodForType : RequestType → Option Str
  | .createOrReplaceThisNode => some (str "PUT")
  | .createChildren => some (str "POST")
  | .mergeData => some (str "PATCH")
  | .deleteNode => some (str "DELETE")
  | _ => none

omit [DecidableEq S] in
/-- A request which writes has the method for its type. -/
theorem method_of_writes {ctx : Context S} {httpMethod uriPath query : Str}
    {request : RestconfRequest}
    (accepted : asRestconfRequest ctx httpMethod uriPath query = .ok request)
    (writes : request.type.Writes) :
    methodForType request.type = some httpMethod := by
  have api : ∀ {type datastore path params},
      RestconfRequest.mk type datastore path params = request → ¬type.Writes → False := by
    rintro _ _ _ _ rfl reads
    exact reads writes
  simp only [asRestconfRequest, except_bind_eq_ok] at accepted
  obtain ⟨_, _, uri, _, _, _, _, _, resolved, _, _, _, result⟩ := accepted
  split at result
  · exact (api (Except.ok.inj result) (by simp [RequestType.Writes])).elim
  split at result
  · exact (api (Except.ok.inj result) (by simp [RequestType.Writes])).elim
  · exact (api (Except.ok.inj result) (by simp [RequestType.Writes])).elim
  · exact (api (Except.ok.inj result) (by simp [RequestType.Writes])).elim
  · obtain ⟨⟨type, path⟩, decided, result⟩ := except_bind_eq_ok.mp result
    obtain ⟨datastore, _, result⟩ := except_bind_eq_ok.mp result
    cases result
    have typed := (requestType_eq_ok decided).1
    have writes : type.Writes := writes
    cases typed with
    | createOrReplaceThisNode put => simp [methodForType, put]
    | deleteNode delete => simp [methodForType, delete]
    | createChildren post => simp [methodForType, post]
    | mergeData patch => simp [methodForType, patch]
    | getData | execute | executeInternal => simp [RequestType.Writes] at writes

omit [DecidableEq S] in
theorem openWritable_eq_ok {request : RestconfRequest}
    (writable : openWritable env request = .ok ()) :
    isReadOnly request = false ∧
      env.session.switchDatastore (request.datastore.getD .running) = .ok () := by
  obtain ⟨_, required, switched⟩ := except_bind_eq_ok.mp writable
  constructor
  · simpa using required
  · simpa using switched

/-- What is known when something was handed over: the request was admitted, its type writes and
goes with its method, and the datastore may be written.  A `DELETE` is processed at once, and
everything else when the payload has ended. -/
structure Justified (env : Env S) (arrival : Arrival) (request : RestconfRequest)
    (data : List Str) : Prop where
  accepts : Accepts env arrival request
  writes : request.type.Writes
  method : methodForType request.type = some arrival.method
  writable : isReadOnly request = false
  switched : env.session.switchDatastore (request.datastore.getD .running) = .ok ()
  ended : request.type ≠ .deleteNode → data.getLast? = some []

omit [DecidableEq S] in
theorem justified {request : RestconfRequest} {data : List Str}
    (accepts : Accepts env arrival request) (writes : request.type.Writes)
    (writable : openWritable env request = .ok ())
    (ended : request.type ≠ .deleteNode → data.getLast? = some []) :
    Justified env arrival request data := by
  obtain ⟨readOnly, switched⟩ := openWritable_eq_ok writable
  exact ⟨accepts, writes, method_of_writes accepts.accepted writes, readOnly, switched, ended⟩

/-- Over a whole exchange at most one edit is handed to sysrepo, and at most this one is applied.
This happens only for an admitted request of a type which writes, with the method for this type,
to a datastore which is not read-only; and, but for a `DELETE`, which is processed at once, not
before the payload of the request has ended. -/
theorem handed_once {data : List Str} (delivered : ∀ piece ∈ data.dropLast, piece ≠ []) :
    AtMostOnce (serve env calls arrival data) ∧
      ((serve env calls arrival data).handed ≠ [] →
        ∃ request, Justified env arrival request data) := by
  have idle : ∀ {world : World S}, Idle world → AtMostOnce world ∧
      (world.handed ≠ [] → ∃ request, Justified env arrival request data) :=
    fun idle => ⟨idle.unapplied.atMostOnce, fun handed => absurd idle.handed handed⟩
  obtain begin | ⟨request, awaited, ended, processed⟩ :=
    @serve_cases S _ env calls arrival data delivered
  · rw [begin]
    cases begun env arrival with
    | refused _ nothing => exact idle nothing
    | answered _ _ _ nothing => exact idle nothing
    | deleted accepts kind writable _ concluded =>
        refine ⟨concluded.atMostOnce, fun _ => ?_⟩
        refine ⟨_, justified accepts ?_ writable fun other => absurd kind other⟩
        exact .inr (.inr (.inr kind))
    | awaiting _ _ _ fresh => exact idle fresh.1
  · rw [processed]
    cases begun env arrival with
    | refused none | answered _ _ none | deleted _ _ _ none =>
        rw [none] at awaited
        cases awaited
    | awaiting accepts kind some fresh =>
        rw [some] at awaited
        cases awaited
        rcases kind with ⟨writes, _, writable⟩ | invoked
        · refine ⟨once_processRequest writes _ fresh, fun _ => ?_⟩
          exact ⟨_, justified accepts writes writable fun _ => ended⟩
        · exact idle (idle_processRequest invoked _ fresh)

/-- The status of a request which writes, other than a YANG Patch, tells what became of it: it
was applied if and only if the response is a good one, and otherwise nothing was applied and the
response is an error, as far as there is one. -/
theorem status_tells {data : List Str} (delivered : ∀ piece ∈ data.dropLast, piece ≠ [])
    {request : RestconfRequest}
    (accepted : asRestconfRequest env.libyang.ctx arrival.method arrival.rawPath arrival.query =
      .ok request)
    (writes : request.type.Writes)
    (plain : ∀ format payload, processing (arrival.context request format payload) ≠ .yangPatch) :
    Concluded (serve env calls arrival data) := by
  have fresh : ∀ world : World S, Fresh world → Concluded world :=
    fun world fresh => .inr (fresh.unwritten.declined (.refl world))
  have same : ∀ {other}, Accepts env arrival other → other = request := by
    intro other accepts
    have known := accepts.accepted
    rw [accepted] at known
    exact (Except.ok.inj known).symm
  obtain begin | ⟨other, awaited, _, processed⟩ :=
    @serve_cases S _ env calls arrival data delivered
  · rw [begin]
    cases begun env arrival with
    | refused _ _ declined => exact .inr declined
    | answered accepts reads =>
        rw [same accepts] at reads
        exact absurd writes reads
    | deleted _ _ _ _ concluded => exact concluded
    | awaiting _ _ _ nothing => exact fresh _ nothing
  · rw [processed]
    cases begun env arrival with
    | refused none | answered _ _ none | deleted _ _ _ none =>
        rw [none] at awaited
        cases awaited
    | awaiting accepts _ some nothing =>
        rw [some] at awaited
        cases awaited
        cases same accepts
        exact triple_processRequest writes _ fresh
          (fun format => concluded_onPayload env _ (plain format _)) nothing

end Exchanges

/-! ## A leaf -/

/-- The `PUT` of the top-level leaf of the tests, by an admitted user. -/
def putLeafArrival : Arrival where
  method := str "PUT"
  rawPath := str "/restconf/data/example:top-level-leaf"
  path := str "/restconf/data/example:top-level-leaf"
  responseFormat := .json
  urlPrefix := none
  query := []
  requestFormat := some .json
  contentTypeHeader := some (str "application/yang-data+json")
  admission := .ok ()

/-- A server without operations. -/
def noOperations : OperationCalls Example.Node where
  hasInput _ := false
  parseOp _ _ _ := .error Example.noAnswer
  sendRPC _ := .ok none
  checkNacmOperation _ := .ok false
  validateOp _ _ := .error none
  rpcHandler _ _ _ _ _ := .error .undefined
  newOutput _ := .error Example.noAnswer
  printOutput _ _ _ := .ok none

/-- The payload comes in two pieces. -/
def putLeafData : List Str := [str "\x7b\"example:", str "top-level-leaf\":\"x\"\x7d", []]

theorem putLeaf_handed_once :
    (serve (putLeafEnv []) noOperations putLeafArrival putLeafData).handed.length = 1 ∧
      ∃ request, Justified (putLeafEnv []) putLeafArrival request putLeafData := by
  have handed :
      (serve (putLeafEnv []) noOperations putLeafArrival putLeafData).handed.length = 1 := by
    decide +kernel
  have delivered : ∀ piece ∈ putLeafData.dropLast, piece ≠ [] := by decide
  have once := @handed_once _ _ (putLeafEnv []) noOperations putLeafArrival putLeafData delivered
  refine ⟨handed, once.2 fun nothing => ?_⟩
  rw [nothing] at handed
  cases handed

theorem putLeaf_status_tells :
    Concluded (serve (putLeafEnv []) noOperations putLeafArrival putLeafData) := by
  have delivered : ∀ piece ∈ putLeafData.dropLast, piece ≠ [] := by decide
  have accepted : asRestconfRequest (putLeafEnv []).libyang.ctx putLeafArrival.method
      putLeafArrival.rawPath putLeafArrival.query =
        .ok ⟨.createOrReplaceThisNode, none, str "/example:top-level-leaf", []⟩ := rfl
  exact status_tells delivered accepted (.inr (.inl rfl)) fun _ _ => nofun

end Rousette.Restconf.Server
