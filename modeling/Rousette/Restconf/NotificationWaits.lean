import Rousette.Http.EventDelivery

/-!
# Waits for notifications

`DynamicSubscriptionHttpStream` is an event stream which waits on the file descriptor of
its sysrepo subscription and enqueues the notifications which it reads from there.  The
handler of such a wait captures a plain `this`, and relies on the destructor to abort the
wait.  As with a timer, this does not reach a completion which is already queued.
-/

namespace Rousette.Restconf

open Library

/-- `DynamicSubscriptionHttpStream`; the program does not have the field `bodies`. -/
structure DynamicSubscriptionHttpStream where
  /-- the base class -/
  stream : Http.EventStream
  /-- the waits on `m_stream` -/
  waits : List WaitStatus
  /-- the phases of the object in which a wait handler went past the test for an aborted
  wait -/
  bodies : List Http.Phase

namespace DynamicSubscriptionHttpStream

/-- The constructor has begun. -/
def initial : DynamicSubscriptionHttpStream where
  stream := .initial
  waits := []
  bodies := []

/-- `MAX_EVENTS` -/
def maxEvents : Nat := 50

/-- `DynamicSubscriptionHttpStream::awaitNextNotification` -/
def awaitNextNotification (s : DynamicSubscriptionHttpStream) : DynamicSubscriptionHttpStream :=
  { s with waits := s.waits ++ [.pending] }

/-- The handler of a wait which ended with success, where `messages` are the notifications
which can be read. -/
def processNotifications (s : DynamicSubscriptionHttpStream) (pipeIsClosedAndNoData : Bool)
    (messages : List Str) : DynamicSubscriptionHttpStream :=
  let s := { s with bodies := s.bodies ++ [s.stream.phase] }
  -- there is nothing to say about a handler which reads the members of a destroyed object
  if s.stream.phase = .destroyed then s
  else if pipeIsClosedAndNoData then s
  else
    let stream := (messages.take (maxEvents - 1)).foldl
      (fun stream message => stream.enqueue Http.EventStream.fieldData message) s.stream
    awaitNextNotification { s with stream }

/-- What may happen to the stream. -/
inductive Event where
  /-- an event of the base class -/
  | base (event : Http.EventStream.Event)
  /-- the descriptor becomes readable, and the completion of a wait is queued -/
  | readable (index : Nat)
  /-- the io service runs the handler of a completed wait -/
  | complete (index : Nat) (pipeIsClosedAndNoData : Bool) (messages : List Str)
  deriving DecidableEq, Repr

/-- The state after an event, if it can happen. -/
def step (s : DynamicSubscriptionHttpStream) : Event → Option DynamicSubscriptionHttpStream
  -- the signal belongs to the stream, and only the wait handler emits it
  | .base (.enqueue _) => none
  | .base .activate =>
      (s.stream.step .activate).map fun stream => awaitNextNotification { s with stream }
  | .base .destroy =>
      -- `m_stream.release`
      (s.stream.step .destroy).map fun stream =>
        { s with stream, waits := s.waits.map WaitStatus.cancel }
  | .base event => (s.stream.step event).map fun stream => { s with stream }
  | .readable index =>
      match s.waits[index]? with
      | some .pending => some { s with waits := s.waits.set index .expired }
      | _ => none
  | .complete index pipeIsClosedAndNoData messages =>
      match s.waits[index]? with
      | some .expired =>
          some ({ s with waits := s.waits.eraseIdx index }.processNotifications
            pipeIsClosedAndNoData messages)
      | some .aborted => some { s with waits := s.waits.eraseIdx index }
      | _ => none

/-- No handler has used a destroyed object. -/
def HandlersInTime (s : DynamicSubscriptionHttpStream) : Prop :=
  ∀ phase ∈ s.bodies, phase ≠ .destroyed

/-- The client goes away when the completion of a wait is already queued. -/
theorem disconnect_not_inTime :
    ¬∀ events s, Run step initial events s → HandlersInTime s := by
  intro always
  have run : Run step initial
      [.base .own, .base .activate, .readable 0, .base .onClose, .base .destroy,
        .complete 0 false []]
      { initial with
        stream :=
          { Http.EventStream.initial with
            state := .closed, phase := .destroyed, activated := true, pings := [.aborted] }
        bodies := [.destroyed] } := .of_execute rfl
  exact always _ _ run .destroyed (List.mem_singleton.mpr rfl) rfl

/-! ## Runs in which the object outlives the queued completions -/

/-- The object is not destroyed while the completion of a wait is queued. -/
def Patient (s : DynamicSubscriptionHttpStream) (event : Event) : Prop :=
  event = .base .destroy → .expired ∉ s.waits

/-- Once the object is destroyed, every wait is aborted. -/
structure InTime (s : DynamicSubscriptionHttpStream) : Prop where
  bodies : HandlersInTime s
  aborted : s.stream.phase = .destroyed → ∀ wait ∈ s.waits, wait = .aborted

theorem foldl_enqueue_phase (messages : List Str) (stream : Http.EventStream) :
    (messages.foldl (fun stream message => stream.enqueue Http.EventStream.fieldData message)
      stream).phase = stream.phase := by
  induction messages generalizing stream with
  | nil => rfl
  | cons message messages ih => rw [List.foldl_cons, ih, Http.EventStream.enqueue_phase]

namespace InTime

variable {s t : DynamicSubscriptionHttpStream}

/-- The base class makes a step which does not destroy the object. -/
theorem base {event : Http.EventStream.Event} {stream : Http.EventStream} (inTime : InTime s)
    (taken : s.stream.step event = some stream) (other : event ≠ .destroy) :
    InTime { s with stream } := by
  constructor
  case bodies => exact inTime.bodies
  case aborted =>
    intro destroyed
    exact inTime.aborted (Http.EventStream.phase_of_step taken other destroyed)

/-- A wait is started only when the object exists. -/
theorem awaitNextNotification (inTime : InTime s) (alive : s.stream.phase ≠ .destroyed) :
    InTime s.awaitNextNotification :=
  ⟨inTime.bodies, fun destroyed => absurd destroyed alive⟩

/-- The handler runs while the object exists. -/
theorem processNotifications (inTime : InTime s) (alive : s.stream.phase ≠ .destroyed)
    (pipeIsClosedAndNoData : Bool) (messages : List Str) :
    InTime (s.processNotifications pipeIsClosedAndNoData messages) := by
  have bodies : HandlersInTime { s with bodies := s.bodies ++ [s.stream.phase] } := by
    intro phase member
    rcases List.mem_append.mp member with before | now
    · exact inTime.bodies phase before
    · rw [List.mem_singleton.mp now]
      exact alive
  simp only [DynamicSubscriptionHttpStream.processNotifications, alive, if_false]
  split
  · exact ⟨bodies, inTime.aborted⟩
  · refine ⟨bodies, fun destroyed => ?_⟩
    exact absurd ((foldl_enqueue_phase _ s.stream).symm.trans destroyed) alive

/-- The handler of a wait is taken from the queue. -/
theorem eraseIdx (inTime : InTime s) (index : Nat) :
    InTime { s with waits := s.waits.eraseIdx index } := by
  constructor
  case bodies => exact inTime.bodies
  case aborted =>
    intro destroyed wait member
    exact inTime.aborted destroyed wait (List.mem_of_mem_eraseIdx member)

/-- A wait of a destroyed object neither is pending nor ends with success. -/
theorem alive (inTime : InTime s) {index : Nat} {wait : WaitStatus}
    (found : s.waits[index]? = some wait) (other : wait ≠ .aborted) :
    s.stream.phase ≠ .destroyed :=
  fun destroyed => other (inTime.aborted destroyed wait (List.mem_of_getElem? found))

/-- The destructor aborts every wait. -/
theorem release (inTime : InTime s) (stream : Http.EventStream)
    (none_queued : .expired ∉ s.waits) :
    InTime { s with stream, waits := s.waits.map WaitStatus.cancel } := by
  constructor
  case bodies => exact inTime.bodies
  case aborted =>
    intro _ wait member
    obtain ⟨before, queued, rfl⟩ := List.mem_map.mp member
    cases before with
    | pending => rfl
    | expired => exact absurd queued none_queued
    | aborted => rfl

theorem step_base {event : Http.EventStream.Event} (inTime : InTime s)
    (patient : Patient s (.base event)) (taken : s.step (.base event) = some t) : InTime t := by
  cases event with
  | enqueue => cases taken
  | activate =>
      obtain ⟨stream, activated, rfl⟩ := Option.map_eq_some_iff.mp taken
      have owned : s.stream.phase = .owned := by
        cases Http.EventStream.step_effect activated with
        | activate owned => exact owned
      refine (inTime.base activated nofun).awaitNextNotification ?_
      intro destroyed
      have before := Http.EventStream.phase_of_step activated nofun destroyed
      rw [owned] at before
      cases before
  | destroy =>
      obtain ⟨stream, _, rfl⟩ := Option.map_eq_some_iff.mp taken
      exact inTime.release stream (patient rfl)
  | terminate | own | process | runTask | pingExpire | pingComplete | onClose =>
      obtain ⟨stream, moved, rfl⟩ := Option.map_eq_some_iff.mp taken
      exact inTime.base moved nofun

theorem step {event : Event} (inTime : InTime s) (patient : Patient s event)
    (taken : s.step event = some t) : InTime t := by
  cases event with
  | base event => exact inTime.step_base patient taken
  | readable index =>
      simp only [DynamicSubscriptionHttpStream.step] at taken
      split at taken <;> cases taken
      next found =>
        have alive := inTime.alive found nofun
        exact ⟨inTime.bodies, fun destroyed => absurd destroyed alive⟩
  | complete index pipeIsClosedAndNoData messages =>
      simp only [DynamicSubscriptionHttpStream.step] at taken
      split at taken <;> cases taken
      next found =>
        have alive := inTime.alive found nofun
        exact (inTime.eraseIdx index).processNotifications alive pipeIsClosedAndNoData messages
      · exact inTime.eraseIdx index

end InTime

/-- In every run in which the object is destroyed only when no completion of a wait is
queued, no handler uses it afterwards. -/
theorem handlersInTime_of_patient {events : List Event} {s : DynamicSubscriptionHttpStream}
    (run : RunWhen Patient step initial events s) : HandlersInTime s := by
  have inTime : InTime s := by
    have started : InTime initial := ⟨nofun, nofun⟩
    refine run.invariant started ?_
    intro _ _ _ _ _ before patient taken
    exact before.step patient taken
  exact inTime.bodies

/-- A notification is handled and another wait started, which the destructor aborts. -/
theorem releasedWait_inTime :
    ∃ s, RunWhen Patient step initial
      [.base .own, .base .activate, .readable 0, .complete 0 false [str "event"],
        .base .onClose, .base .destroy, .complete 0 false []] s ∧
      s.bodies = [.owned] ∧ HandlersInTime s := by
  have run : ∃ s, RunWhen Patient step initial
      [.base .own, .base .activate, .readable 0, .complete 0 false [str "event"],
        .base .onClose, .base .destroy, .complete 0 false []] s ∧ s.bodies = [.owned] := by
    refine ⟨_, .snoc (.snoc (.snoc (.snoc (.snoc (.snoc (.snoc .nil nofun rfl) nofun rfl)
      nofun rfl) nofun rfl) nofun rfl) (fun _ => ?_) rfl) nofun rfl, rfl⟩
    exact (by decide : WaitStatus.expired ∉ [WaitStatus.pending])
  obtain ⟨s, run, bodies⟩ := run
  exact ⟨s, run, bodies, handlersInTime_of_patient run⟩

end DynamicSubscriptionHttpStream

end Rousette.Restconf
