import Rousette.Library.Run
import Rousette.Library.Wait
import Rousette.Libyang.Schema

/-!
# Dynamic subscriptions

The registry of `restconf/DynamicSubscriptions.cpp` as a state machine.  Requests,
stream callbacks and timer completions are executed one at a time by the io thread;
`stop` and the shutdown signal come from another thread and get between any two
steps which take a mutex.

Objects are owned by `std::shared_ptr`, so the state has a heap of subscriptions
next to the registry: a subscription which was erased from the registry lives on
while an event stream refers to it.  A wait on the inactivity timer remembers the
weak pointer which its handler captured.  The waits of a timer are pending until
they expire, when their completion is queued for the io thread, or until they are
aborted; a queued completion is not affected by a later cancellation.
-/

namespace Rousette.Restconf

open Library
open Libyang (DataFormat)

/-- Key of the registry. -/
abbrev Uuid := Nat

/-- A position in the heap of subscriptions. -/
abbrev SubscriptionRef := Nat

/-- `SubscriptionData::State` -/
inductive SubscriptionState where
  | start
  | receiverActive
  | terminating
  deriving DecidableEq, Repr

/-- `DynamicSubscriptions::SubscriptionData`. The sysrepo subscription is represented
by its id and by how often it was asked to terminate. -/
structure SubscriptionData where
  subscriptionId : Nat
  dataFormat : DataFormat
  uuid : Uuid
  user : Str
  state : SubscriptionState
  terminateCalls : Nat
  deriving DecidableEq, Repr

/-- A wait on the `clientInactiveTimer` of a subscription. -/
structure Wait where
  timer : SubscriptionRef
  /-- the captured `weakThis`, empty if it was taken before the object had an owner -/
  weakThis : Option SubscriptionRef
  status : WaitStatus
  deriving DecidableEq, Repr

/-- Where the io thread is inside a request which takes several mutex-protected steps,
with the shared pointer it holds on to. -/
inductive IoTask where
  | idle
  /-- `GET` on a stream: the subscription was found -/
  | found (ref : SubscriptionRef)
  /-- `GET` on a stream: the subscription was ready to accept a client -/
  | accepted (ref : SubscriptionRef)
  /-- `deleteSubscription`: the caller may delete the subscription -/
  | deleting (ref : SubscriptionRef)
  /-- `deleteSubscription`: sysrepo has terminated the subscription -/
  | erasing (ref : SubscriptionRef)
  deriving DecidableEq, Repr

/-- The subscription which the io thread refers to. -/
def IoTask.holds : IoTask → Option SubscriptionRef
  | .idle => none
  | .found ref => some ref
  | .accepted ref => some ref
  | .deleting ref => some ref
  | .erasing ref => some ref

/-- The subscriptions and everything which refers to them. -/
structure Subscriptions where
  heap : SubscriptionRef → SubscriptionData
  /-- the next unused position in the heap -/
  fresh : SubscriptionRef
  /-- `m_subscriptions` -/
  registry : List (Uuid × SubscriptionRef)
  waits : List Wait
  io : IoTask
  /-- event streams which were activated and not closed yet -/
  activeStreams : List SubscriptionRef
  /-- event streams which were closed but are not destroyed yet -/
  closedStreams : List SubscriptionRef
  /-- the subscriptions which a running `stop` has not come to yet; `stop` holds the
  mutex of the registry -/
  stopping : Option (List SubscriptionRef)

namespace Subscriptions

/-- No subscription at all. -/
def empty : Subscriptions where
  heap := fun _ => ⟨0, .json, 0, [], .terminating, 0⟩
  fresh := 0
  registry := []
  waits := []
  io := .idle
  activeStreams := []
  closedStreams := []
  stopping := none

/-- Change one subscription. -/
def update (s : Subscriptions) (ref : SubscriptionRef)
    (change : SubscriptionData → SubscriptionData) : Subscriptions :=
  { s with heap := fun r => if r = ref then change (s.heap r) else s.heap r }

/-- Does a shared pointer to the subscription exist? -/
def alive (s : Subscriptions) (ref : SubscriptionRef) : Bool :=
  s.registry.any (·.2 == ref) || s.io.holds == some ref || s.activeStreams.contains ref ||
    s.closedStreams.contains ref

/-- `steady_timer::cancel`: pending waits are aborted, queued completions stay. -/
def Wait.cancel (ref : SubscriptionRef) (wait : Wait) : Wait :=
  if wait.timer = ref ∧ wait.status = .pending then { wait with status := .aborted }
  else wait

/-- `SubscriptionData::inactivityCancel` -/
def inactivityCancel (s : Subscriptions) (ref : SubscriptionRef) : Subscriptions :=
  { s with waits := s.waits.map (Wait.cancel ref) }

/-- `SubscriptionData::inactivityStart`. Setting the expiry time cancels the waits which
are still pending. -/
def inactivityStart (s : Subscriptions) (ref : SubscriptionRef)
    (weakThis : Option SubscriptionRef) : Subscriptions :=
  if (s.heap ref).state = .terminating then s
  else
    { s with waits := s.waits.map (Wait.cancel ref) ++ [⟨ref, weakThis, .pending⟩] }

/-- `SubscriptionData::terminate`. Whether sysrepo's `terminate` raises an error makes no
difference here, it is only logged. -/
def terminate (s : Subscriptions) (ref : SubscriptionRef) : Subscriptions :=
  if (s.heap ref).state = .terminating then s
  else
    s.update ref fun sub =>
      { sub with state := .terminating, terminateCalls := sub.terminateCalls + 1 }

/-- `SubscriptionData::stop` -/
def stopSubscription (s : Subscriptions) (ref : SubscriptionRef) : Subscriptions :=
  (s.inactivityCancel ref).update ref fun sub => { sub with state := .terminating }

/-- `SubscriptionData::clientConnected` -/
def clientConnected (s : Subscriptions) (ref : SubscriptionRef) : Subscriptions :=
  (s.inactivityCancel ref).update ref fun sub => { sub with state := .receiverActive }

/-- `SubscriptionData::clientDisconnected` -/
def clientDisconnected (s : Subscriptions) (ref : SubscriptionRef) : Subscriptions :=
  if (s.heap ref).state = .terminating then s
  else
    (s.update ref fun sub => { sub with state := .start }).inactivityStart ref (some ref)

/-- `SubscriptionData::isReadyToAcceptClient` -/
def isReadyToAcceptClient (s : Subscriptions) (ref : SubscriptionRef) : Bool :=
  (s.heap ref).state == .start

/-- A shared pointer was given up: `~SubscriptionData` if it was the last one. -/
def release (s : Subscriptions) (ref : SubscriptionRef) : Subscriptions :=
  if s.alive ref then s else (s.inactivityCancel ref).terminate ref

/-- Erase a key from the registry. -/
def erase (s : Subscriptions) (uuid : Uuid) : Subscriptions :=
  { s with registry := s.registry.filter (·.1 != uuid) }

/-- The constructor `SubscriptionData::SubscriptionData` runs before any shared pointer
owns the object: the weak pointer captured by the first wait is empty. -/
def construct (s : Subscriptions) (subscriptionId : Nat) (dataFormat : DataFormat)
    (uuid : Uuid) (user : Str) : Subscriptions :=
  let ref := s.fresh
  { s with
      heap := fun r =>
        if r = ref then ⟨subscriptionId, dataFormat, uuid, user, .start, 0⟩ else s.heap r
      fresh := ref + 1 }.inactivityStart ref none

/-- Assign to a key of the registry; the subscription under it, if there is one, loses
its owner. -/
def assign (s : Subscriptions) (uuid : Uuid) (ref : SubscriptionRef) : Subscriptions :=
  let assigned := { s with registry := s.registry.filter (·.1 != uuid) ++ [(uuid, ref)] }
  (s.registry.filter (·.1 == uuid)).foldl (fun t entry => t.release entry.2) assigned

/-- The registered subscription with this id. Ids are unique, so the order of the
registry does not matter. -/
def findById (s : Subscriptions) (subId : Nat) : Option (Uuid × SubscriptionRef) :=
  s.registry.find? fun entry => (s.heap entry.2).subscriptionId == subId

/-- `DynamicSubscriptions::terminateSubscription` -/
def terminateSubscription (s : Subscriptions) (subId : Nat) : Subscriptions :=
  match s.findById subId with
  | none => s
  | some (uuid, ref) => (((s.terminate ref).erase uuid).release ref)

/-- The handler of a wait, run with success. -/
def inactivityHandler (s : Subscriptions) (wait : Wait) : Subscriptions :=
  match wait.weakThis with
  | none => s
  | some self =>
      if s.alive self then s.terminateSubscription (s.heap self).subscriptionId else s

section Users

-- the NACM recovery user
variable (recoveryUser : Str)

/-- `DynamicSubscriptions::getSubscriptionForUser` by the UUID. -/
def getSubscriptionForUserByUuid (s : Subscriptions) (uuid : Uuid) (user : Option Str) :
    Option SubscriptionRef :=
  match s.registry.find? (·.1 == uuid) with
  | some (_, ref) =>
      if some (s.heap ref).user == user || user == some recoveryUser then some ref else none
  | none => none

/-- `DynamicSubscriptions::getSubscriptionForUser` by the subscription id. -/
def getSubscriptionForUserById (s : Subscriptions) (subId : Nat) (user : Option Str) :
    Option SubscriptionRef :=
  match s.findById subId with
  | some (_, ref) =>
      if some (s.heap ref).user == user || user == some recoveryUser then some ref else none
  | none => none

/-- `getEncoding` -/
def getEncoding (encoding : Option Str) (requestEncoding : DataFormat) :
    Except Exception DataFormat :=
  match encoding with
  | none => .ok requestEncoding
  | some encodingStr =>
      if encodingStr = str "ietf-subscribed-notifications:encode-json" then .ok .json
      else if encodingStr = str "ietf-subscribed-notifications:encode-xml" then .ok .xml
      else
        .error (.errorResponse
          { code := 400
            errorType := str "application"
            errorTag := str "invalid-attribute"
            errorMessage :=
              str "Unsupported encoding in establish-subscription: '" ++ encodingStr ++
                str ("'. Currently we support only 'encode-xml' and 'encode-json' " ++
                  "identities.") })

/-- `DynamicSubscriptions::establishSubscription`. The subscription made by
`makeStreamSubscription` is given by its id. -/
def establishSubscription (s : Subscriptions) (requestSchemeAndHost : Option Str)
    (encoding : Option Str) (requestEncoding : DataFormat)
    (makeStreamSubscription : Except Exception Nat) (uuid : Uuid) (user : Str) :
    Except Exception Subscriptions :=
  match requestSchemeAndHost with
  | none =>
      .error (.errorResponse
        { code := 400
          errorType := str "application"
          errorTag := str "invalid-value"
          errorMessage :=
            str "Request scheme and host information is required to establish subscription." })
  | some _ => do
      let dataFormat ← getEncoding encoding requestEncoding
      match makeStreamSubscription with
      | .error (.sysrepo error) =>
          .error (.errorResponse
            ⟨400, str "application", str "invalid-attribute", error.what, none, none⟩)
      | .error exception => .error exception
      | .ok subscriptionId =>
          let ref := s.fresh
          return (s.construct subscriptionId dataFormat uuid user).assign uuid ref

/-- `DynamicSubscriptions::deleteSubscription` up to the point where sysrepo is asked to
terminate the subscription, for `delete-subscription` and `kill-subscription`. -/
def deletableSubscription (s : Subscriptions) (isKill : Bool) (subId : Nat)
    (user : Option Str) : Except Exception SubscriptionRef :=
  let rpcPath :=
    if isKill then str "/ietf-subscribed-notifications:kill-subscription"
    else str "/ietf-subscribed-notifications:delete-subscription"
  match s.getSubscriptionForUserById recoveryUser subId user with
  | none =>
      .error (.errorResponse
        ⟨404, str "application", str "invalid-value", str "Subscription not found.",
          some rpcPath, none⟩)
  | some ref =>
      if !isKill && user == some recoveryUser && (s.heap ref).user != recoveryUser then
        .error (.errorResponse
          ⟨400, str "application", str "invalid-attribute",
            str ("Trying to delete subscription not created by root. " ++
              "Use kill-subscription instead."), some rpcPath, none⟩)
      else
        .ok ref

end Users

/-! ## Steps -/

/-- What may happen to the subscriptions. -/
inductive Event where
  /-- `establish-subscription` -/
  | establish (requestSchemeAndHost encoding : Option Str) (requestEncoding : DataFormat)
      (makeStreamSubscription : Except Exception Nat) (uuid : Uuid) (user : Str)
  /-- `GET` on a stream looks the subscription up -/
  | find (uuid : Uuid) (user : Option Str)
  /-- the same request asks whether the subscription accepts a client -/
  | checkReady
  /-- the same request activates its event stream -/
  | connect
  /-- the `on_close` callback of an event stream of the subscription -/
  | disconnect (ref : SubscriptionRef)
  /-- a closed event stream of the subscription is destroyed -/
  | destroyStream (ref : SubscriptionRef)
  /-- `delete-subscription` or `kill-subscription` checks the caller -/
  | delete (isKill : Bool) (subId : Nat) (user : Option Str)
  /-- the same request asks sysrepo to terminate, which may raise an error -/
  | deleteTerminate (error : Option Sysrepo.ErrorWithCode)
  /-- the same request erases the subscription -/
  | deleteErase
  /-- the timer of a wait expires -/
  | expire (wait : Nat)
  /-- the io thread runs the handler of a completed wait -/
  | complete (wait : Nat)
  /-- the shutdown signal reaches an event stream of the subscription -/
  | shutdown (ref : SubscriptionRef)
  /-- `DynamicSubscriptions::stop` takes the mutex -/
  | stop
  /-- `DynamicSubscriptions::stop` handles its next subscription, or ends -/
  | stopNext

/-- May the io thread start another handler, and is the mutex of the registry free? -/
def quiet (s : Subscriptions) : Bool := s.io == .idle && s.stopping.isNone

/-- The state after an event, if it can happen. -/
def step (recoveryUser : Str) (s : Subscriptions) : Event → Option Subscriptions
  | .establish requestSchemeAndHost encoding requestEncoding made uuid user =>
      -- ids of live subscriptions are unique
      if s.quiet && made.toOption.all fun id => (s.findById id).isNone then
        match s.establishSubscription requestSchemeAndHost encoding requestEncoding made uuid
          user with
        | .ok next => some next
        | .error _ => some s
      else none
  | .find uuid user =>
      if s.quiet then
        match s.getSubscriptionForUserByUuid recoveryUser uuid user with
        | some ref => some { s with io := .found ref }
        | none => some s
      else none
  | .checkReady =>
      match s.io with
      | .found ref =>
          if s.isReadyToAcceptClient ref then some { s with io := .accepted ref }
          else some ({ s with io := .idle }.release ref)
      | _ => none
  | .connect =>
      match s.io with
      | .accepted ref =>
          some { s.clientConnected ref with
            io := .idle, activeStreams := ref :: s.activeStreams }
      | _ => none
  | .disconnect ref =>
      if s.io == .idle && s.activeStreams.contains ref then
        some ({ s with
          activeStreams := s.activeStreams.erase ref
          closedStreams := ref :: s.closedStreams }.clientDisconnected ref)
      else none
  | .destroyStream ref =>
      if s.io == .idle && s.closedStreams.contains ref then
        some ({ s with closedStreams := s.closedStreams.erase ref }.release ref)
      else none
  | .delete isKill subId user =>
      if s.quiet then
        match s.deletableSubscription recoveryUser isKill subId user with
        | .ok ref => some { s with io := .deleting ref }
        | .error _ => some s
      else none
  | .deleteTerminate error =>
      match s.io with
      | .deleting ref =>
          let asked := s.update ref fun sub =>
            { sub with terminateCalls := sub.terminateCalls + 1 }
          match error with
          | none => some { asked with io := .erasing ref }
          | some _ => some ({ asked with io := .idle }.release ref)
      | _ => none
  | .deleteErase =>
      match s.io, s.stopping with
      | .erasing ref, none =>
          some ({ s.erase (s.heap ref).uuid with io := .idle }.release ref)
      | _, _ => none
  | .expire index =>
      match s.waits[index]? with
      | some wait =>
          if wait.status = .pending then
            some { s with waits := s.waits.set index { wait with status := .expired } }
          else none
      | none => none
  | .complete index =>
      match s.waits[index]? with
      | some wait =>
          if s.quiet then
            match wait.status with
            | .pending => none
            | .aborted => some { s with waits := s.waits.eraseIdx index }
            | .expired =>
                some ({ s with waits := s.waits.eraseIdx index }.inactivityHandler wait)
          else none
      | none => none
  | .shutdown ref =>
      -- the signal is connected before the event stream is activated
      if s.activeStreams.contains ref || s.io == .accepted ref then some (s.terminate ref)
      else none
  | .stop =>
      match s.stopping with
      | none => some { s with stopping := some (s.registry.map Prod.snd) }
      | some _ => none
  | .stopNext =>
      match s.stopping with
      | some (ref :: rest) => some { s.stopSubscription ref with stopping := some rest }
      | some [] => some { s with stopping := none }
      | none => none

end Subscriptions

end Rousette.Restconf
