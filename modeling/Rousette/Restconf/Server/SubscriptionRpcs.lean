import Rousette.Restconf.Server.Operations
import Rousette.Restconf.Server.Streams

/-!
# RPCs on subscriptions

The functions of `restconf/DynamicSubscriptions.cpp` which `processInternalRPC` calls, with the
subscriptions they work on: who gets to change the subscriptions, and what becomes of the URI of
one which was deleted.
-/

namespace Rousette.Restconf.Server

open Library Libyang

/-! ## The handlers -/

/-- What selects the notifications of a subscription. -/
inductive StreamFilter where
  | xpath (text : Str)
  | subtree (any : Str)
  deriving DecidableEq, Repr

/-- What the handlers call, and the user of the session. -/
structure SubscriptionCalls (S T : Type) where
  /-- `findPath` below the node of the input, with the text of what is found -/
  findPath : DataNode S → String → Option Str
  /-- the leaf `id`, which is mandatory -/
  id : DataNode S → Option Nat
  /-- is it the input of `kill-subscription`? -/
  isKill : DataNode S → Bool
  fromYangTimeFormat : Str → Except Exception T
  yangTimeFormat : T → Str
  /-- `Session::subscribeNotifications`: the id, and the start of the replay -/
  subscribeNotifications : Option StreamFilter → Str → Option T → Option T →
    Except Sysrepo.ErrorWithCode (Nat × Option T)
  /-- `DataNode::newPath` with `CreationOptions::Output` -/
  newOutput : DataNode S → String → Str → Except Libyang.ErrorWithCode (DataNode S)
  /-- `DynamicSubscription::terminate` -/
  terminate : Option Sysrepo.ErrorWithCode
  /-- the result of `makeUUID` -/
  uuid : Uuid
  /-- `Session::getNacmUser` -/
  nacmUser : Str

section Handlers

variable {S T : Type} (calls : SubscriptionCalls S T) (recoveryUser : Str)

/-- `optionalTime` -/
def optionalTime (rpcInput : DataNode S) (path : String) : Except Exception (Option T) :=
  match calls.findPath rpcInput path with
  | some text => do
      let time ← calls.fromYangTimeFormat text
      return some time
  | none => .ok none

/-- The leaf `stream` of the input. -/
def requiredStream (rpcInput : DataNode S) : Except Exception Str :=
  match calls.findPath rpcInput "stream" with
  | some stream => .ok stream
  | none => .error (reject 400 "application" "invalid-attribute" (str "Stream is required"))

/-- The filter in the input of `establish-subscription`. -/
def streamFilter (rpcInput : DataNode S) : Option StreamFilter :=
  match calls.findPath rpcInput "stream-xpath-filter" with
  | some text => some (.xpath text)
  | none => (calls.findPath rpcInput "stream-subtree-filter").map .subtree

/-- The leaf for a start of the replay which is not the one that was asked for. -/
def reviseReplayStart (rpcOutput : DataNode S) (asked revised : Option T) :
    Except Exception (DataNode S) :=
  match revised, asked with
  | some time, some _ =>
      raise (calls.newOutput rpcOutput "replay-start-time-revision" (calls.yangTimeFormat time))
  | _, _ => .ok rpcOutput

/-- `makeStreamSubscription`, with the output -/
def makeStreamSubscription (rpcInput rpcOutput : DataNode S) :
    Except Exception (Nat × DataNode S) := do
  let stream ← requiredStream calls rpcInput
  require (calls.findPath rpcInput "stream-filter-name").isNone
    (reject 400 "application" "invalid-attribute"
      (str "Stream filtering with predefined filters is not supported"))
  let stopTime ← optionalTime calls rpcInput "stop-time"
  let replayStartTime ← optionalTime calls rpcInput "replay-start-time"
  let (subscriptionId, revised) ← raiseSysrepo (calls.subscribeNotifications
    (streamFilter calls rpcInput) stream stopTime replayStartTime)
  let rpcOutput ← reviseReplayStart calls rpcOutput replayStartTime revised
  return (subscriptionId, rpcOutput)

/-- What `establishSubscription` does under its `try`: the id of the subscription, and the output
with the id and the URI. -/
def makeSubscription (requestSchemeAndHost : Str) (rpcInput rpcOutput : DataNode S) :
    Except Exception (Nat × DataNode S) := do
  let (subscriptionId, rpcOutput) ← makeStreamSubscription calls rpcInput rpcOutput
  let rpcOutput ← raise (calls.newOutput rpcOutput "id" (decimal subscriptionId))
  let rpcOutput ← raise (calls.newOutput rpcOutput "ietf-restconf-subscribed-notifications:uri"
    (establishedUri requestSchemeAndHost calls.uuid))
  return (subscriptionId, rpcOutput)

/-- `DynamicSubscriptions::establishSubscription`, with its output -/
def establishSubscription (s : Subscriptions) (requestSchemeAndHost : Option Str)
    (requestEncoding : DataFormat) (rpcInput rpcOutput : DataNode S) :
    Except Exception (DataNode S) × Subscriptions :=
  let made := makeSubscription calls (requestSchemeAndHost.getD []) rpcInput rpcOutput
  match s.establishSubscription requestSchemeAndHost (calls.findPath rpcInput "encoding")
      requestEncoding (made.map Prod.fst) calls.uuid calls.nacmUser with
  | .ok next => (made.map Prod.snd, next)
  | .error exception => (.error exception, s)

/-- `DynamicSubscriptions::deleteSubscription` -/
def deleteSubscription (s : Subscriptions) (rpcInput rpcOutput : DataNode S) :
    Except Exception (DataNode S) × Subscriptions :=
  match calls.id rpcInput with
  | none => (.error .undefined, s)
  | some subId =>
      let result := s.deleteSubscription recoveryUser calls.nacmUser (calls.isKill rpcInput) subId
        calls.terminate
      match result.1 with
      | .error exception => (.error exception, result.2)
      | _ => (.ok rpcOutput, result.2)

/-- `InternalRPCHandler::rpcHandler` -/
def runRpcHandler (s : Subscriptions) (handler : RpcHandler) (requestSchemeAndHost : Option Str)
    (requestEncoding : DataFormat) (rpcInput rpcOutput : DataNode S) :
    Except Exception (DataNode S) × Subscriptions :=
  match handler with
  | .establishSubscription =>
      establishSubscription calls s requestSchemeAndHost requestEncoding rpcInput rpcOutput
  | .deleteSubscription => deleteSubscription calls recoveryUser s rpcInput rpcOutput

end Handlers

/-! ## The checks before them -/

section Rpcs

variable {S T : Type} (env : Env S) (operations : OperationCalls S)
  (calls : SubscriptionCalls S T) (recoveryUser : Str) (ctx : OperationContext)

/-- A call of a handler, with the nodes of the output. -/
structure HandlerCall (S : Type) where
  handler : RpcHandler
  rpcInput : DataNode S
  created : CreatedNodes S

/-- The data for the validation of the input, if it refers to any. -/
def validationData (validationDataXPath : Option Str) : Except Exception (Option (Forest S)) :=
  match validationDataXPath with
  | some xpath => raiseSysrepo (env.session.getData xpath 0 .default)
  | none => pure none

/-- `processInternalRPC` up to the call of a handler. -/
def admitInternalRPC (rpcInput : DataNode S) (rpcPath : Str) :
    Except Exception (HandlerCall S) := do
  let rpcNode ← raise (env.libyang.newPath2 rpcPath)
  let authorized ← raiseSysrepo (operations.checkNacmOperation rpcNode.createdNode)
  require authorized (.errorResponse
    ⟨403, str "application", str "access-denied", str "Access denied.",
      some (env.libyang.dataPath [rpcNode.createdParent] (0 :: rpcNode.position)), none⟩)
  match internalRPCHandlers.lookup rpcPath with
  | none =>
      throw (.errorResponse ⟨501, str "application", str "operation-not-supported",
        str "Unsupported RPC call to " ++ rpcPath, some rpcPath, none⟩)
  | some (validationDataXPath, handler) =>
      raiseSysrepo (env.session.switchDatastore .operational)
      let data ← validationData env validationDataXPath
      let rpcInput ← validateInput operations rpcInput rpcPath data
      let created ← raise (env.libyang.newPath2 rpcPath)
      return ⟨handler, rpcInput, created⟩

/-- `processInternalRPC` with the subscriptions before and after it. -/
def serveInternalRPC (s : Subscriptions) (rpcInput : DataNode S) (rpcPath : Str)
    (requestEncoding : DataFormat) : Except Exception (DataNode S) × Subscriptions :=
  match admitInternalRPC env operations rpcInput rpcPath with
  | .error exception => (.error exception, s)
  | .ok call =>
      let result := runRpcHandler calls recoveryUser s call.handler ctx.urlPrefix requestEncoding
        call.rpcInput call.created.createdNode
      (result.1.map fun rpcOutput =>
        call.created.createdParent.modifyAt (fun _ => rpcOutput) call.created.position, result.2)

/-- What a handler answers while the subscriptions are the given ones. -/
def answering (s : Subscriptions) : OperationCalls S :=
  { operations with
    rpcHandler := fun handler urlPrefix requestEncoding rpcInput rpcOutput =>
      (runRpcHandler calls recoveryUser s handler urlPrefix requestEncoding rpcInput
        rpcOutput).1 }

end Rpcs

section Refinement

variable {S T : Type} {env : Env S} {operations : OperationCalls S}
  {calls : SubscriptionCalls S T} {recoveryUser : Str} {ctx : OperationContext}

theorem processInternalRPC_eq (rpcInput : DataNode S) (rpcPath : Str)
    (requestEncoding : DataFormat) :
    processInternalRPC env operations ctx rpcInput rpcPath requestEncoding = (do
      let call ← admitInternalRPC env operations rpcInput rpcPath
      let rpcOutput ← operations.rpcHandler call.handler ctx.urlPrefix requestEncoding
        call.rpcInput call.created.createdNode
      return call.created.createdParent.modifyAt (fun _ => rpcOutput) call.created.position) := by
  unfold processInternalRPC admitInternalRPC
  simp only [bind_assoc]
  congr 1
  funext rpcNode
  congr 1
  funext authorized
  congr 1
  funext _
  cases internalRPCHandlers.lookup rpcPath with
  | none => rfl
  | some entry =>
      obtain ⟨validationDataXPath, handler⟩ := entry
      cases validationDataXPath with
      | none => simp only [validationData, bind_assoc, pure_bind]
      | some xpath => simp only [validationData, bind_assoc, pure_bind]

/-- The function answers what `processInternalRPC` answers with these subscriptions. -/
theorem serveInternalRPC_fst (s : Subscriptions) (rpcInput : DataNode S) (rpcPath : Str)
    (requestEncoding : DataFormat) :
    (serveInternalRPC env operations calls recoveryUser ctx s rpcInput rpcPath
        requestEncoding).1 =
      processInternalRPC env (answering operations calls recoveryUser s) ctx rpcInput rpcPath
        requestEncoding := by
  have same : admitInternalRPC env (answering operations calls recoveryUser s) rpcInput rpcPath =
      admitInternalRPC env operations rpcInput rpcPath := rfl
  rw [processInternalRPC_eq, same, serveInternalRPC]
  cases admitInternalRPC env operations rpcInput rpcPath with
  | error exception => rfl
  | ok call =>
      rw [except_ok_bind]
      dsimp only [answering]
      cases (runRpcHandler calls recoveryUser s call.handler ctx.urlPrefix requestEncoding
        call.rpcInput call.created.createdNode).1 with
      | error exception => rfl
      | ok rpcOutput => rfl

/-! ## Who changes the subscriptions -/

/-- The user may call the operation, the server processes it, and its input is valid together
with the data which sysrepo has for the validation. -/
structure Admits (env : Env S) (operations : OperationCalls S) (rpcInput : DataNode S)
    (rpcPath : Str) : Prop where
  authorized : ∃ nodes, env.libyang.newPath2 rpcPath = .ok nodes ∧
    operations.checkNacmOperation nodes.createdNode = .ok true
  valid : ∃ validationDataXPath handler data validated,
    internalRPCHandlers.lookup rpcPath = some (validationDataXPath, handler) ∧
      env.session.switchDatastore .operational = .ok () ∧
      validationData env validationDataXPath = .ok data ∧
      operations.validateOp rpcInput data = .ok validated

theorem admits {call : HandlerCall S} {rpcInput : DataNode S} {rpcPath : Str}
    (admitted : admitInternalRPC env operations rpcInput rpcPath = .ok call) :
    Admits env operations rpcInput rpcPath := by
  unfold admitInternalRPC at admitted
  obtain ⟨nodes, created, admitted⟩ := except_bind_eq_ok.mp admitted
  obtain ⟨authorized, checked, admitted⟩ := except_bind_eq_ok.mp admitted
  obtain ⟨_, allowed, admitted⟩ := except_bind_eq_ok.mp admitted
  rw [require_eq_ok.mp allowed] at checked
  cases known : internalRPCHandlers.lookup rpcPath with
  | none =>
      rw [known] at admitted
      cases admitted
  | some entry =>
      rw [known] at admitted
      obtain ⟨validationDataXPath, handler⟩ := entry
      obtain ⟨_, switched, admitted⟩ := except_bind_eq_ok.mp admitted
      obtain ⟨data, found, admitted⟩ := except_bind_eq_ok.mp admitted
      obtain ⟨validated, passed, _⟩ := except_bind_eq_ok.mp admitted
      have valid : operations.validateOp rpcInput data = .ok validated := by
        unfold validateInput at passed
        split at passed
        next same =>
          cases passed
          exact same
        · cases passed
        · cases passed
      exact ⟨⟨nodes, raise_eq_ok.mp created, raiseSysrepo_eq_ok.mp checked⟩,
        validationDataXPath, handler, data, validated, known, raiseSysrepo_eq_ok.mp switched,
        found, valid⟩

/-- sysrepo does not give a new subscription the id of one which is alive. -/
def GivesNewIds (calls : SubscriptionCalls S T) (s : Subscriptions) : Prop :=
  ∀ filter stream stopTime replayStartTime subscriptionId revised,
    calls.subscribeNotifications filter stream stopTime replayStartTime =
      .ok (subscriptionId, revised) → s.findById subscriptionId = none

theorem unique_of_made {s : Subscriptions} (newIds : GivesNewIds calls s)
    {requestSchemeAndHost : Str} {rpcInput rpcOutput : DataNode S} :
    ((makeSubscription calls requestSchemeAndHost rpcInput rpcOutput).map
      Prod.fst).toOption.all (fun id => (s.findById id).isNone) = true := by
  cases made : makeSubscription calls requestSchemeAndHost rpcInput rpcOutput with
  | error exception => rfl
  | ok result =>
      obtain ⟨subscriptionId, output⟩ := result
      unfold makeSubscription at made
      obtain ⟨⟨id, _⟩, subscribed, finished⟩ := except_bind_eq_ok.mp made
      obtain ⟨_, _, finished⟩ := except_bind_eq_ok.mp finished
      obtain ⟨_, _, finished⟩ := except_bind_eq_ok.mp finished
      cases finished
      unfold makeStreamSubscription at subscribed
      obtain ⟨stream, _, subscribed⟩ := except_bind_eq_ok.mp subscribed
      obtain ⟨_, _, subscribed⟩ := except_bind_eq_ok.mp subscribed
      obtain ⟨stopTime, _, subscribed⟩ := except_bind_eq_ok.mp subscribed
      obtain ⟨replayStartTime, _, subscribed⟩ := except_bind_eq_ok.mp subscribed
      obtain ⟨⟨given, revised⟩, answer, subscribed⟩ := except_bind_eq_ok.mp subscribed
      obtain ⟨_, _, finished⟩ := except_bind_eq_ok.mp subscribed
      cases finished
      have free := newIds _ _ _ _ _ _ (raiseSysrepo_eq_ok.mp answer)
      simp [Except.map, Except.toOption, free]

theorem execute_runRpcHandler {s : Subscriptions} (quiet : s.quiet = true)
    (newIds : GivesNewIds calls s) (handler : RpcHandler) (requestSchemeAndHost : Option Str)
    (requestEncoding : DataFormat) (rpcInput rpcOutput : DataNode S) :
    ∃ events, Run.execute (Subscriptions.step recoveryUser) s events =
      some (runRpcHandler calls recoveryUser s handler requestSchemeAndHost requestEncoding
        rpcInput rpcOutput).2 := by
  cases handler with
  | establishSubscription =>
      simp only [runRpcHandler, establishSubscription]
      cases established : s.establishSubscription requestSchemeAndHost
          (calls.findPath rpcInput "encoding") requestEncoding
          ((makeSubscription calls (requestSchemeAndHost.getD []) rpcInput rpcOutput).map
            Prod.fst) calls.uuid calls.nacmUser with
      | error exception => exact ⟨[], rfl⟩
      | ok next =>
          refine ⟨[.establish requestSchemeAndHost (calls.findPath rpcInput "encoding")
            requestEncoding ((makeSubscription calls (requestSchemeAndHost.getD []) rpcInput
              rpcOutput).map Prod.fst) calls.uuid calls.nacmUser], ?_⟩
          simp only [Run.execute, Subscriptions.step, quiet, unique_of_made newIds,
            Bool.and_self, if_true, established]
  | deleteSubscription =>
      simp only [runRpcHandler, deleteSubscription]
      cases calls.id rpcInput with
      | none => exact ⟨[], rfl⟩
      | some subId =>
          obtain ⟨events, executed⟩ := @Subscriptions.execute_deleteSubscription s
            calls.nacmUser recoveryUser quiet (calls.isKill rpcInput) subId calls.terminate
          refine ⟨events, executed.trans ?_⟩
          dsimp only
          split
          · rfl
          · rfl

/-- The subscriptions are only changed by an RPC which the user may call and whose input is
valid; and then the change is a run of the transition system. -/
theorem changed_by_admitted {s : Subscriptions} (quiet : s.quiet = true)
    (newIds : GivesNewIds calls s) (rpcInput : DataNode S) (rpcPath : Str)
    (requestEncoding : DataFormat) :
    (serveInternalRPC env operations calls recoveryUser ctx s rpcInput rpcPath
        requestEncoding).2 = s ∨
      Admits env operations rpcInput rpcPath ∧
        ∃ events, Run.execute (Subscriptions.step recoveryUser) s events =
          some (serveInternalRPC env operations calls recoveryUser ctx s rpcInput rpcPath
            requestEncoding).2 := by
  unfold serveInternalRPC
  cases admitted : admitInternalRPC env operations rpcInput rpcPath with
  | error exception => exact .inl rfl
  | ok call => exact .inr ⟨admits admitted, execute_runRpcHandler quiet newIds _ _ _ _ _⟩

end Refinement

/-! ## Deleted subscriptions -/

section Deletion

open Subscriptions (Event WellKept)

variable {S T : Type} {calls : SubscriptionCalls S T} {recoveryUser : Str} {s t : Subscriptions}

/-- The UUID which a subscription is established with. -/
def establishedUuid : Event → Option Uuid
  | .establish _ _ _ _ uuid _ => some uuid
  | _ => none

/-- A UUID gets into the registry by `establish-subscription` only. -/
theorem absent_of_step {event : Event} {uuid : Uuid}
    (taken : Subscriptions.step recoveryUser s event = some t)
    (absent : ∀ ref, (uuid, ref) ∉ s.registry) (other : establishedUuid event ≠ some uuid) :
    ∀ ref, (uuid, ref) ∉ t.registry := by
  intro ref member
  cases Subscriptions.step_effect taken with
  | winds winds => exact absent ref (winds.registry.subset member)
  | @establish _ _ _ dataFormat subscriptionId placed user _ _ _ winds =>
      have inside := winds.registry.subset member
      simp only [Subscriptions.place, List.mem_append, List.mem_filter, List.mem_singleton,
        Prod.mk.injEq] at inside
      rcases inside with ⟨before, _⟩ | ⟨same, _⟩
      · exact absent ref before
      · exact other (congrArg some same.symm)
  | connect => exact absent ref member
  | @disconnect closed _ _ =>
      by_cases terminating : (s.heap closed).state = .terminating
      · rw [Subscriptions.detach_of_terminating terminating] at member
        exact absent ref member
      · rw [Subscriptions.detach_of_running terminating] at member
        exact absent ref member
  | expire => exact absent ref member
  | deleteTerminate _ winds => exact absent ref (winds.registry.subset member)

theorem absent_of_run {events : List Event} {uuid : Uuid}
    (run : Run (Subscriptions.step recoveryUser) s events t)
    (absent : ∀ ref, (uuid, ref) ∉ s.registry)
    (others : ∀ event ∈ events, establishedUuid event ≠ some uuid) :
    ∀ ref, (uuid, ref) ∉ t.registry := by
  induction run with
  | nil => exact absent
  | snoc _ taken ih =>
      rw [List.forall_mem_append] at others
      exact absent_of_step taken (ih others.1) (others.2 _ (List.mem_singleton.mpr rfl))

/-- Who may delete which subscription. -/
theorem deletable_cases {isKill : Bool} {subId : Nat} {user : Str} {ref : SubscriptionRef}
    (deletable : s.deletableSubscription recoveryUser isKill subId (some user) = .ok ref) :
    (∃ uuid, (uuid, ref) ∈ s.registry) ∧ (s.heap ref).subscriptionId = subId ∧
      ((s.heap ref).user = user ∨ user = recoveryUser ∧ isKill = true) := by
  unfold Subscriptions.deletableSubscription at deletable
  dsimp only at deletable
  split at deletable
  · cases deletable
  next found search =>
    split at deletable
    · cases deletable
    next allowed =>
      cases deletable
      unfold Subscriptions.getSubscriptionForUserById at search
      split at search
      next uuid entry known =>
        split at search
        next entitled =>
          cases search
          have sameId : (s.heap ref).subscriptionId = subId := by
            simpa using List.find?_some known
          refine ⟨⟨uuid, List.mem_of_find?_eq_some known⟩, sameId, ?_⟩
          simp only [Bool.or_eq_true, beq_iff_eq, Option.some.injEq] at entitled
          simp only [Bool.and_eq_true, Bool.not_eq_true', beq_iff_eq, Option.some.injEq,
            bne_iff_ne, not_and, not_not] at allowed
          rcases entitled with own | recovery
          · exact .inl own
          · cases kind : isKill with
            | true => exact .inr ⟨recovery, rfl⟩
            | false => exact .inl ((allowed ⟨kind, recovery⟩).trans recovery.symm)
        · cases search
      · cases search

/-- Once `delete-subscription` or `kill-subscription` has succeeded, nobody gets anything for the
URI of the subscription in any later state, as long as its UUID is not given to another one.  Only
the owner can delete it, and the recovery user can kill it; no other subscription is removed. -/
theorem deleted_stays_gone {events : List Event} {rpcInput rpcOutput reply : DataNode S}
    {T' : Type} [LinearOrder T'] (fromYangTimeFormat : Str → Except Exception T')
    (run : Run (Subscriptions.step recoveryUser) Subscriptions.empty events s)
    (deleted : deleteSubscription calls recoveryUser s rpcInput rpcOutput = (.ok reply, t)) :
    ∃ uuid ref, (uuid, ref) ∈ s.registry ∧
      calls.id rpcInput = some (s.heap ref).subscriptionId ∧
      ((s.heap ref).user = calls.nacmUser ∨
        calls.nacmUser = recoveryUser ∧ calls.isKill rpcInput = true) ∧
      (∀ entry, entry ∈ t.registry ↔ entry ∈ s.registry ∧ entry.2 ≠ ref) ∧
      ∀ more u, Run (Subscriptions.step recoveryUser) t more u →
        (∀ event ∈ more, establishedUuid event ≠ some uuid) →
          ∀ (call : StreamCall T') requester, Visits call uuid requester →
            handleStreams fromYangTimeFormat recoveryUser call u =
              (.ok subscriptionNotFound, u) := by
  have kept := WellKept.of_run run
  unfold deleteSubscription at deleted
  cases id : calls.id rpcInput with
  | none =>
      rw [id] at deleted
      cases deleted
  | some subId =>
      rw [id] at deleted
      dsimp only at deleted
      cases deletable : s.deletableSubscription recoveryUser (calls.isKill rpcInput) subId
          (some calls.nacmUser) with
      | error exception =>
          simp [Subscriptions.deleteSubscription, deletable] at deleted
      | ok ref =>
          cases answer : calls.terminate with
          | some error => simp [Subscriptions.deleteSubscription, deletable, answer] at deleted
          | none =>
              obtain ⟨⟨uuid, registered⟩, rfl, entitled⟩ := deletable_cases deletable
              have after : t.registry = s.registry.filter (·.1 != uuid) := by
                simp only [Subscriptions.deleteSubscription, deletable, answer, Prod.mk.injEq]
                  at deleted
                rw [← deleted.2, Subscriptions.release_registry, kept.uuid registered]
                rfl
              refine ⟨uuid, ref, registered, rfl, entitled, ?_, ?_⟩
              · intro entry
                rw [after]
                exact kept.mem_erased_iff registered
              · intro more u later others call requester visits
                apply visits_gone visits
                apply absent_of_run later _ others
                intro other member
                rw [after] at member
                simp at member

end Deletion

/-! ## A subscription -/

namespace NoInput

/-- Subscriptions to the stream of the server. -/
def subscriptionCalls : SubscriptionCalls Unit Nat where
  findPath _ path := if path = "stream" then some (str "NETCONF") else none
  id _ := some 1
  isKill _ := false
  fromYangTimeFormat _ := .error (.invalidArgument [])
  yangTimeFormat _ := []
  subscribeNotifications _ _ _ _ := .ok (1, none)
  newOutput node _ _ := .ok node
  terminate := none
  uuid := 7
  nacmUser := str "norules"

/-- A request from a client which is known by its URL. -/
def subscriptionContext : OperationContext :=
  { context (some .json) with
    urlPrefix := some (str "http://localhost")
    restconfRequest := ⟨.executeInternal, none,
      str "/ietf-subscribed-notifications:establish-subscription", []⟩ }

theorem changed_by_admitted_establish :
    ∃ s, (serveInternalRPC env calls subscriptionCalls (str "root") subscriptionContext
        Subscriptions.empty operation
          (str "/ietf-subscribed-notifications:establish-subscription") .json).2 = s ∧
      Admits env calls operation
        (str "/ietf-subscribed-notifications:establish-subscription") ∧
        ∃ events, Run.execute (Subscriptions.step (str "root")) Subscriptions.empty events =
          some s := by
  have newIds : GivesNewIds subscriptionCalls Subscriptions.empty := by
    intro filter stream stopTime replayStartTime subscriptionId revised answer
    rfl
  have changed := @changed_by_admitted Unit Nat env calls subscriptionCalls (str "root")
    subscriptionContext Subscriptions.empty rfl newIds operation
    (str "/ietf-subscribed-notifications:establish-subscription") .json
  refine ⟨_, rfl, ?_⟩
  rcases changed with same | changed
  · have registry := congrArg (fun s => s.registry.length) same
    cases registry
  · exact changed

theorem deleted_stays_gone_own :
    ∃ s t, Run (Subscriptions.step (str "root")) Subscriptions.empty
        [Subscriptions.established 1 7 (str "norules")] s ∧
      deleteSubscription subscriptionCalls (str "root") s operation operation =
        (.ok operation, t) ∧
      ∀ requester, handleStreams years.fromYangTimeFormat (str "root") (visit 7 requester) t =
        (.ok subscriptionNotFound, t) := by
  have run : ∃ s t, Run (Subscriptions.step (str "root")) Subscriptions.empty
      [Subscriptions.established 1 7 (str "norules")] s ∧
      deleteSubscription subscriptionCalls (str "root") s operation operation =
        (.ok operation, t) ∧ s.registry = [(7, 0)] := by
    refine ⟨_, _, .of_execute rfl, rfl, rfl⟩
  obtain ⟨s, t, run, deleted, registry⟩ := run
  obtain ⟨uuid, ref, member, _, _, _, gone⟩ :=
    deleted_stays_gone years.fromYangTimeFormat run deleted
  rw [registry, List.mem_singleton] at member
  cases member
  refine ⟨s, t, run, deleted, fun requester => ?_⟩
  exact gone [] t .nil (List.forall_mem_nil _) (visit 7 requester) requester
    ⟨.inl rfl, rfl, by decide, rfl, rfl⟩

end NoInput

end Rousette.Restconf.Server
