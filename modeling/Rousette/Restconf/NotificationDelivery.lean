import Rousette.Http.EventReception
import Rousette.Restconf.NotificationWaits

/-!
# Delivery of notifications

The way of the notifications of a dynamic subscription, from the pipe which sysrepo writes
them into to the client of the event stream.  The handler of a wait reads a bounded number
of them, so that the event loop gets to send what was enqueued.

sysrepo writes into the pipe whenever it wants, also while the handler is reading, and the
client may go away or the server may be terminated at any time.
-/

namespace Rousette.Restconf

open Library
open Http (EventStream)

/-! ## The pipe -/

/-- The bits of `revents` which are looked at. -/
structure Revents where
  pollin : Bool
  pollhup : Bool
  deriving DecidableEq, Repr

/-- The end of a pipe which is read. -/
structure Pipe (N : Type) where
  unread : List N
  /-- the other end was closed -/
  hungUp : Bool
  deriving DecidableEq, Repr

namespace Pipe

variable {N : Type}

def empty : Pipe N := ⟨[], false⟩

/-- `poll` on a single descriptor, for `POLLIN | POLLHUP` and without any timeout: the number
of descriptors for which something is reported, and what is. -/
def poll (pipe : Pipe N) : Nat × Revents :=
  let revents : Revents := ⟨!pipe.unread.isEmpty, pipe.hungUp⟩
  (if revents.pollin || revents.pollhup then 1 else 0, revents)

/-- `utils::pipeHasData` -/
def pipeHasData (pipe : Pipe N) : Bool := pipe.poll.1 == 1 && pipe.poll.2.pollin

/-- `utils::pipeIsClosedAndNoData` -/
def pipeIsClosedAndNoData (pipe : Pipe N) : Bool :=
  pipe.poll.1 == 1 && pipe.poll.2.pollhup && !pipe.poll.2.pollin

@[simp] theorem pipeHasData_eq (pipe : Pipe N) : pipe.pipeHasData = !pipe.unread.isEmpty := by
  cases unread : pipe.unread.isEmpty <;> simp [pipeHasData, poll, unread]

@[simp] theorem pipeIsClosedAndNoData_eq (pipe : Pipe N) :
    pipe.pipeIsClosedAndNoData = (pipe.hungUp && pipe.unread.isEmpty) := by
  cases unread : pipe.unread.isEmpty <;> cases hungUp : pipe.hungUp <;>
    simp [pipeIsClosedAndNoData, poll, unread, hungUp]

end Pipe

/-! ## The state -/

/-- An event stream which is fed from a pipe.  The program does not have the fields `written`
and `read`. -/
structure NotificationDelivery (N : Type) where
  receiver : DynamicSubscriptionHttpStream
  pipe : Pipe N
  /-- `eventsProcessed`, while the loop of a wait handler is running -/
  loop : Option Nat
  /-- what sysrepo has written into the pipe -/
  written : List N
  /-- what the handlers have passed on to the event stream -/
  read : List N

/-- May the event of a stream come between two iterations of the loop?  Only what another
thread does, or the clock; the io thread is busy. -/
def isConcurrent : EventStream.Event → Bool
  | .terminate => true
  | .pingExpire _ => true
  | _ => false

namespace NotificationDelivery

variable {N : Type}

/-- The constructor has begun, and sysrepo may have written already. -/
def initial (pipe : Pipe N) : NotificationDelivery N where
  receiver := .initial
  pipe := pipe
  loop := none
  written := pipe.unread
  read := []

/-- What may happen. -/
inductive Event (N : Type) where
  /-- an event of the base class -/
  | base (event : EventStream.Event)
  /-- sysrepo writes a notification -/
  | write (notification : N)
  /-- sysrepo closes its end of the pipe -/
  | hangUp
  /-- the descriptor is readable, and the completion of a wait is queued -/
  | readable (index : Nat)
  /-- the io service runs the handler of a completed wait, up to its loop -/
  | complete (index : Nat)
  /-- the guard of the loop is evaluated, and its body run if it is true -/
  | iterate

/-- Change the receiver. -/
def withReceiver (s : NotificationDelivery N) (receiver : DynamicSubscriptionHttpStream) :
    NotificationDelivery N :=
  { s with receiver }

/-- The handler of a wait which ended with success, up to its loop. -/
def startHandler (s : NotificationDelivery N) (waits : List WaitStatus) :
    NotificationDelivery N :=
  let receiver :=
    { s.receiver with waits, bodies := s.receiver.bodies ++ [s.receiver.stream.phase] }
  -- there is nothing to say about a handler which reads the members of a destroyed object
  if s.receiver.stream.phase = .destroyed then { s with receiver }
  else if s.pipe.pipeIsClosedAndNoData then { s with receiver }
  else { s with receiver, loop := some 0 }

section Render

-- `as_restconf_notification` in the format of the subscription
variable (asRestconfNotification : N → Str)

/-- `processEvent`: the next notification is read and the signal emitted, which the stream is
connected to. -/
def processEvent (s : NotificationDelivery N) (notification : N) (unread : List N) :
    NotificationDelivery N :=
  { s with
    receiver := { s.receiver with
      stream := s.receiver.stream.enqueue EventStream.fieldData
        (asRestconfNotification notification) }
    pipe := { s.pipe with unread }
    read := s.read ++ [notification] }

/-- The guard of the loop and its body, or what follows the loop. -/
def iterate (s : NotificationDelivery N) (eventsProcessed : Nat) : NotificationDelivery N :=
  let eventsProcessed := eventsProcessed + 1
  if eventsProcessed < DynamicSubscriptionHttpStream.maxEvents && s.pipe.pipeHasData then
    match s.pipe.unread with
    | notification :: unread =>
        { s.processEvent asRestconfNotification notification unread with
          loop := some eventsProcessed }
    | [] => s
  else { s with receiver := s.receiver.awaitNextNotification, loop := none }

/-- The state after an event, if it can happen. -/
def step (s : NotificationDelivery N) : Event N → Option (NotificationDelivery N)
  | .base event =>
      if s.loop.isNone || isConcurrent event then
        (s.receiver.step (.base event)).map s.withReceiver
      else none
  | .write notification =>
      if s.pipe.hungUp then none
      else
        some { s with
          pipe := { s.pipe with unread := s.pipe.unread ++ [notification] }
          written := s.written ++ [notification] }
  | .hangUp => some { s with pipe := { s.pipe with hungUp := true } }
  | .readable index =>
      if s.pipe.poll.1 = 1 then (s.receiver.step (.readable index)).map s.withReceiver else none
  | .complete index =>
      if s.loop.isSome then none
      else
        match s.receiver.waits[index]? with
        | some .expired => some (s.startHandler (s.receiver.waits.eraseIdx index))
        | some .aborted =>
            some (s.withReceiver
              { s.receiver with waits := s.receiver.waits.eraseIdx index })
        | _ => none
  | .iterate => s.loop.map (s.iterate asRestconfNotification)

end Render

/-! ## Effects -/

section Effects

variable {render : N → Str} {s t : NotificationDelivery N}

/-- What an event of the base class does to the receiver. -/
structure BaseEffect (r r' : DynamicSubscriptionHttpStream) (event : EventStream.Event) :
    Prop where
  stream : r.stream.step event = some r'.stream
  /-- the signal is only emitted by a wait handler -/
  silent : event.text = none
  waits : event = .activate ∧ r'.waits = r.waits ++ [.pending] ∨
    event = .destroy ∧ r'.waits = r.waits.map WaitStatus.cancel ∨
    event ≠ .activate ∧ event ≠ .destroy ∧ r'.waits = r.waits

theorem base_effect {r r' : DynamicSubscriptionHttpStream} {event : EventStream.Event}
    (taken : r.step (.base event) = some r') : BaseEffect r r' event := by
  cases event with
  | enqueue => cases taken
  | activate =>
      obtain ⟨stream, activated, rfl⟩ := Option.map_eq_some_iff.mp taken
      exact ⟨activated, rfl, .inl ⟨rfl, rfl⟩⟩
  | destroy =>
      obtain ⟨stream, destroyed, rfl⟩ := Option.map_eq_some_iff.mp taken
      exact ⟨destroyed, rfl, .inr (.inl ⟨rfl, rfl⟩)⟩
  | terminate | own | process | runTask | pingExpire | pingComplete | onClose =>
      obtain ⟨stream, moved, rfl⟩ := Option.map_eq_some_iff.mp taken
      exact ⟨moved, rfl, .inr (.inr ⟨nofun, nofun, rfl⟩)⟩

/-- What a step can do. -/
inductive Effect (render : N → Str) (s : NotificationDelivery N) :
    Event N → NotificationDelivery N → Prop where
  | base {event : EventStream.Event} {receiver : DynamicSubscriptionHttpStream}
      (free : s.loop = none ∨ isConcurrent event = true)
      (effect : BaseEffect s.receiver receiver event) :
      Effect render s (.base event) (s.withReceiver receiver)
  | write (connected : s.pipe.hungUp = false) (notification : N) :
      Effect render s (.write notification)
        { s with
          pipe := { s.pipe with unread := s.pipe.unread ++ [notification] }
          written := s.written ++ [notification] }
  | hangUp : Effect render s .hangUp { s with pipe := { s.pipe with hungUp := true } }
  | readable {index : Nat} (found : s.receiver.waits[index]? = some .pending) :
      Effect render s (.readable index)
        (s.withReceiver { s.receiver with waits := s.receiver.waits.set index .expired })
  | started {index : Nat} (idle : s.loop = none)
      (found : s.receiver.waits[index]? = some .expired) :
      Effect render s (.complete index) (s.startHandler (s.receiver.waits.eraseIdx index))
  | aborted {index : Nat} (found : s.receiver.waits[index]? = some .aborted) :
      Effect render s (.complete index)
        (s.withReceiver { s.receiver with waits := s.receiver.waits.eraseIdx index })
  | processed {eventsProcessed : Nat} {notification : N} {unread : List N}
      (running : s.loop = some eventsProcessed)
      (below : eventsProcessed + 1 < DynamicSubscriptionHttpStream.maxEvents)
      (front : s.pipe.unread = notification :: unread) :
      Effect render s .iterate
        { s.processEvent render notification unread with loop := some (eventsProcessed + 1) }
  | left {eventsProcessed : Nat} (running : s.loop = some eventsProcessed)
      (ended : DynamicSubscriptionHttpStream.maxEvents ≤ eventsProcessed + 1 ∨
        s.pipe.unread = []) :
      Effect render s .iterate
        { s with receiver := s.receiver.awaitNextNotification, loop := none }

theorem iterate_reads {eventsProcessed : Nat} {notification : N} {unread : List N}
    (below : eventsProcessed + 1 < DynamicSubscriptionHttpStream.maxEvents)
    (front : s.pipe.unread = notification :: unread) :
    s.iterate render eventsProcessed =
      { s.processEvent render notification unread with loop := some (eventsProcessed + 1) } := by
  simp only [iterate, Pipe.pipeHasData_eq, front, List.isEmpty_cons, below, decide_true,
    Bool.not_false, Bool.and_self, if_true]

theorem iterate_leaves {eventsProcessed : Nat}
    (ended : DynamicSubscriptionHttpStream.maxEvents ≤ eventsProcessed + 1 ∨ s.pipe.unread = []) :
    s.iterate render eventsProcessed =
      { s with receiver := s.receiver.awaitNextNotification, loop := none } := by
  simp only [iterate, Pipe.pipeHasData_eq]
  apply if_neg
  rw [Bool.and_eq_true, decide_eq_true_eq, Bool.not_eq_true', not_and, Bool.not_eq_false,
    List.isEmpty_iff]
  exact fun below => ended.resolve_left (Nat.not_le_of_lt below)

/-- The loop either reads one more notification, or ends and waits. -/
theorem iterate_effect {eventsProcessed : Nat} (running : s.loop = some eventsProcessed) :
    Effect render s .iterate (s.iterate render eventsProcessed) := by
  by_cases ended :
      DynamicSubscriptionHttpStream.maxEvents ≤ eventsProcessed + 1 ∨ s.pipe.unread = []
  · rw [iterate_leaves ended]
    exact .left running ended
  · rw [not_or, Nat.not_le] at ended
    obtain ⟨notification, unread, front⟩ := List.exists_cons_of_ne_nil ended.2
    rw [iterate_reads ended.1 front]
    exact .processed running ended.1 front

theorem step_effect {event : Event N} (taken : s.step render event = some t) :
    Effect render s event t := by
  cases event with
  | base event =>
      simp only [step] at taken
      split at taken
      case isTrue free =>
        obtain ⟨receiver, moved, rfl⟩ := Option.map_eq_some_iff.mp taken
        rw [Bool.or_eq_true, Option.isNone_iff_eq_none] at free
        exact .base free (base_effect moved)
      case isFalse => cases taken
  | write notification =>
      simp only [step] at taken
      split at taken <;> cases taken
      next connected => exact .write (Bool.eq_false_iff.mpr connected) notification
  | hangUp =>
      cases taken
      exact .hangUp
  | readable index =>
      simp only [step] at taken
      split at taken
      case isTrue =>
        obtain ⟨receiver, moved, rfl⟩ := Option.map_eq_some_iff.mp taken
        simp only [DynamicSubscriptionHttpStream.step] at moved
        split at moved <;> cases moved
        next found => exact .readable found
      case isFalse => cases taken
  | complete index =>
      simp only [step] at taken
      split at taken
      case isTrue => cases taken
      next idle =>
        rw [Bool.not_eq_true, Option.isSome_eq_false_iff, Option.isNone_iff_eq_none] at idle
        split at taken <;> cases taken
        next found => exact .started idle found
        next found => exact .aborted found
  | iterate =>
      obtain ⟨eventsProcessed, running, rfl⟩ := Option.map_eq_some_iff.mp taken
      exact iterate_effect running

end Effects

/-! ## Nothing is lost -/

section Conservation

variable {render : N → Str} {s t : NotificationDelivery N}

/-- What was written was read or is still there, and what was read is what has arrived at the
event stream. -/
structure Conserves (render : N → Str) (s : NotificationDelivery N) : Prop where
  pipe : s.read ++ s.pipe.unread = s.written
  accepts : EventStream.AcceptsFirst (s.read.map render) s.receiver.stream
  faithful : EventStream.Faithful s.receiver.stream

namespace Conserves

theorem initial (pipe : Pipe N) : Conserves render (initial pipe) := by
  constructor
  case pipe => rfl
  case accepts => exact EventStream.AcceptsFirst.initial
  case faithful => exact EventStream.Faithful.run .nil

/-- The stream and the pipe stay as they are. -/
theorem same (conserves : Conserves render s) (pipe : t.pipe.unread = s.pipe.unread)
    (stream : t.receiver.stream = s.receiver.stream) (written : t.written = s.written)
    (read : t.read = s.read) : Conserves render t := by
  constructor
  case pipe => rw [read, pipe, written, conserves.pipe]
  case accepts =>
    rw [read, stream]
    exact conserves.accepts
  case faithful =>
    rw [stream]
    exact conserves.faithful

theorem startHandler (conserves : Conserves render s) (waits : List WaitStatus) :
    Conserves render (s.startHandler waits) := by
  unfold NotificationDelivery.startHandler
  split
  · exact conserves.same rfl rfl rfl rfl
  · split
    · exact conserves.same rfl rfl rfl rfl
    · exact conserves.same rfl rfl rfl rfl

theorem step {event : Event N} (conserves : Conserves render s)
    (taken : s.step render event = some t) : Conserves render t := by
  cases step_effect taken with
  | base _ effect =>
      constructor
      case pipe => exact conserves.pipe
      case accepts => exact conserves.accepts.step_silent effect.stream effect.silent
      case faithful => exact conserves.faithful.step effect.stream
  | write _ notification =>
      constructor
      case pipe => rw [← conserves.pipe, List.append_assoc]
      case accepts => exact conserves.accepts
      case faithful => exact conserves.faithful
  | @processed _ notification unread _ _ front =>
      constructor
      case pipe =>
        have kept := conserves.pipe
        rw [front] at kept
        exact (List.append_assoc s.read [notification] unread).trans kept
      case accepts =>
        have arrived := conserves.accepts.message (render notification)
        rw [← List.map_singleton (f := render), ← List.map_append] at arrived
        exact arrived
      case faithful => exact conserves.faithful.enqueue _ _
  | started => exact conserves.startHandler _
  | hangUp | readable | aborted | left => exact conserves.same rfl rfl rfl rfl

theorem run {pipe : Pipe N} {events : List (Event N)}
    (run : Run (NotificationDelivery.step render) (NotificationDelivery.initial pipe) events s) :
    Conserves render s := by
  induction run with
  | nil => exact initial pipe
  | snoc _ taken ih => exact ih.step taken

end Conserves

end Conservation

/-! ## The stream goes on listening -/

section Listening

variable {render : N → Str} {s t : NotificationDelivery N}

/-- An active stream has one wait, or its handler is running, or sysrepo has hung up and
everything was read. -/
inductive Listening (s : NotificationDelivery N) : Prop where
  | inactive (activated : s.receiver.stream.activated = false) (loop : s.loop = none)
      (waits : s.receiver.waits = [])
  | waiting (activated : s.receiver.stream.activated = true) (loop : s.loop = none)
      {wait : WaitStatus} (waits : s.receiver.waits = [wait]) (outstanding : wait ≠ .aborted)
  | reading (activated : s.receiver.stream.activated = true)
      (alive : s.receiver.stream.phase ≠ .destroyed) {eventsProcessed : Nat}
      (loop : s.loop = some eventsProcessed)
      (below : eventsProcessed < DynamicSubscriptionHttpStream.maxEvents)
      (waits : s.receiver.waits = [])
  | finished (activated : s.receiver.stream.activated = true) (loop : s.loop = none)
      (waits : s.receiver.waits = []) (hungUp : s.pipe.hungUp = true)
      (unread : s.pipe.unread = [])
  | destroyed (phase : s.receiver.stream.phase = .destroyed) (loop : s.loop = none)

/-- The only wait is what is found among the waits. -/
theorem eq_of_found {waits : List WaitStatus} {wait found : WaitStatus} {index : Nat}
    (single : waits = [wait]) (here : waits[index]? = some found) : index = 0 ∧ found = wait := by
  subst single
  cases index with
  | zero => exact ⟨rfl, (Option.some.inj here).symm⟩
  | succ index => cases here

theorem not_found {waits : List WaitStatus} {found : WaitStatus} {index : Nat}
    (none : waits = []) (here : waits[index]? = some found) : False := by
  subst none
  cases here

namespace Listening

/-- A base event which neither activates nor destroys the stream. -/
theorem base {receiver : DynamicSubscriptionHttpStream} (listening : Listening s)
    (activated : receiver.stream.activated = s.receiver.stream.activated)
    (phase : receiver.stream.phase = .destroyed ↔ s.receiver.stream.phase = .destroyed)
    (waits : receiver.waits = s.receiver.waits) : Listening (s.withReceiver receiver) := by
  cases listening with
  | inactive inactive loop none =>
      exact .inactive (activated.trans inactive) loop (waits.trans none)
  | waiting active loop single outstanding =>
      exact .waiting (activated.trans active) loop (waits.trans single) outstanding
  | reading active alive loop below none =>
      exact .reading (activated.trans active) (fun gone => alive (phase.mp gone)) loop below
        (waits.trans none)
  | finished active loop none hungUp unread =>
      exact .finished (activated.trans active) loop (waits.trans none) hungUp unread
  | destroyed gone loop => exact .destroyed (phase.mpr gone) loop

theorem step_base {event : EventStream.Event} {receiver : DynamicSubscriptionHttpStream}
    (listening : Listening s) (free : s.loop = none ∨ isConcurrent event = true)
    (effect : BaseEffect s.receiver receiver event) : Listening (s.withReceiver receiver) := by
  have destroyed := EventStream.destroyed_of_step effect.stream
  rcases effect.waits with ⟨rfl, waits⟩ | ⟨rfl, -⟩ | ⟨notActivate, notDestroy, waits⟩
  · -- activation, which starts the first wait
    have loop : s.loop = none := free.resolve_right (fun concurrent => by cases concurrent)
    have activated := EventStream.activated_of_activate effect.stream
    cases listening with
    | inactive _ _ none =>
        have single : receiver.waits = [.pending] := by rw [waits, none, List.nil_append]
        exact .waiting activated.2 loop single nofun
    | destroyed gone _ => exact .destroyed (destroyed gone) loop
    | waiting active | reading active | finished active =>
        rw [activated.1] at active
        cases active
  · have loop : s.loop = none := free.resolve_right (fun concurrent => by cases concurrent)
    exact .destroyed (EventStream.phase_of_destroy effect.stream) loop
  · exact listening.base (EventStream.activated_of_step effect.stream notActivate)
      ⟨EventStream.phase_of_step effect.stream notDestroy, destroyed⟩ waits

theorem startHandler {index : Nat} (listening : Listening s) (idle : s.loop = none)
    (found : s.receiver.waits[index]? = some .expired) :
    Listening (s.startHandler (s.receiver.waits.eraseIdx index)) := by
  unfold NotificationDelivery.startHandler
  split
  next gone => exact .destroyed gone idle
  next alive =>
    cases listening with
    | inactive _ _ none => exact (not_found none found).elim
    | finished _ _ none => exact (not_found none found).elim
    | reading _ _ loop =>
        rw [idle] at loop
        cases loop
    | destroyed gone => exact absurd gone alive
    | waiting active _ single =>
        obtain ⟨rfl, -⟩ := eq_of_found single found
        have none : s.receiver.waits.eraseIdx 0 = [] := by rw [single, List.eraseIdx_cons_zero]
        split
        next drained =>
          rw [Pipe.pipeIsClosedAndNoData_eq, Bool.and_eq_true, List.isEmpty_iff] at drained
          exact .finished active idle none drained.1 drained.2
        next => exact .reading active alive rfl (by decide) none

theorem step {event : Event N} (listening : Listening s)
    (taken : s.step render event = some t) : Listening t := by
  cases step_effect taken with
  | base free effect => exact listening.step_base free effect
  | started idle found => exact listening.startHandler idle found
  | write connected notification =>
      cases listening with
      | inactive inactive loop none => exact .inactive inactive loop none
      | waiting active loop single outstanding => exact .waiting active loop single outstanding
      | reading active alive loop below none => exact .reading active alive loop below none
      | finished _ _ _ hungUp =>
          rw [connected] at hungUp
          cases hungUp
      | destroyed gone loop => exact .destroyed gone loop
  | hangUp =>
      cases listening with
      | inactive inactive loop none => exact .inactive inactive loop none
      | waiting active loop single outstanding => exact .waiting active loop single outstanding
      | reading active alive loop below none => exact .reading active alive loop below none
      | finished active loop none _ unread => exact .finished active loop none rfl unread
      | destroyed gone loop => exact .destroyed gone loop
  | readable found =>
      cases listening with
      | inactive _ _ none => exact (not_found none found).elim
      | reading _ _ _ _ none => exact (not_found none found).elim
      | finished _ _ none => exact (not_found none found).elim
      | destroyed gone loop => exact .destroyed gone loop
      | waiting active loop single =>
          obtain ⟨rfl, -⟩ := eq_of_found single found
          have queued : s.receiver.waits.set 0 .expired = [.expired] := by
            rw [single, List.set_cons_zero]
          exact .waiting active loop queued nofun
  | aborted found =>
      cases listening with
      | inactive _ _ none => exact (not_found none found).elim
      | reading _ _ _ _ none => exact (not_found none found).elim
      | finished _ _ none => exact (not_found none found).elim
      | destroyed gone loop => exact .destroyed gone loop
      | waiting _ _ single outstanding =>
          obtain ⟨-, rfl⟩ := eq_of_found single found
          exact absurd rfl outstanding
  | @processed _ notification unread running below =>
      cases listening with
      | reading active alive _ _ none =>
          have activated := EventStream.enqueue_activated s.receiver.stream
            EventStream.fieldData (render notification)
          have phase := EventStream.enqueue_phase s.receiver.stream
            EventStream.fieldData (render notification)
          exact .reading (activated.trans active) (fun gone => alive (phase.symm.trans gone)) rfl
            below none
      | inactive _ loop | waiting _ loop | finished _ loop | destroyed _ loop =>
          rw [running] at loop
          cases loop
  | left running =>
      cases listening with
      | reading active _ _ _ none =>
          have single : s.receiver.waits ++ [.pending] = [.pending] := by
            rw [none, List.nil_append]
          exact .waiting active rfl single nofun
      | inactive _ loop | waiting _ loop | finished _ loop | destroyed _ loop =>
          rw [running] at loop
          cases loop

theorem run {pipe : Pipe N} {events : List (Event N)}
    (run : Run (NotificationDelivery.step render) (NotificationDelivery.initial pipe) events s) :
    Listening s := by
  induction run with
  | nil => exact .inactive rfl rfl rfl
  | snoc _ taken ih => exact ih.step taken

end Listening

end Listening

/-! ## The handler without interruptions -/

section Handler

variable {render : N → Str} {s t : NotificationDelivery N}

/-- The number of notifications which one handler reads. -/
def batchSize : Nat := DynamicSubscriptionHttpStream.maxEvents - 1

/-- The stream after some messages. -/
def enqueueAll (stream : EventStream) (messages : List Str) : EventStream :=
  messages.foldl (fun stream message => stream.enqueue EventStream.fieldData message) stream

/-- The state after some iterations of the loop. -/
def readMany (render : N → Str) (s : NotificationDelivery N) (count : Nat) :
    NotificationDelivery N :=
  let batch := s.pipe.unread.take count
  { s with
    receiver := { s.receiver with stream := enqueueAll s.receiver.stream (batch.map render) }
    pipe := { s.pipe with unread := s.pipe.unread.drop count }
    read := s.read ++ batch
    loop := some count }

theorem readMany_succ {count : Nat} (more : count < s.pipe.unread.length)
    (below : count + 1 < DynamicSubscriptionHttpStream.maxEvents) :
    (readMany render s count).step render .iterate = some (readMany render s (count + 1)) := by
  have front : (readMany render s count).pipe.unread =
      s.pipe.unread[count] :: s.pipe.unread.drop (count + 1) := List.drop_eq_getElem_cons more
  have batch := List.take_append_getElem more
  apply congrArg some
  rw [iterate_reads below front]
  simp only [readMany, processEvent, ← batch, List.map_append, enqueueAll, List.foldl_append,
    List.map_singleton, List.foldl_cons, List.foldl_nil, List.append_assoc]

theorem execute_readMany {count : Nat} (le : count ≤ s.pipe.unread.length)
    (below : count < DynamicSubscriptionHttpStream.maxEvents) :
    Run.execute (step render) (readMany render s 0) (List.replicate count .iterate) =
      some (readMany render s count) := by
  induction count with
  | zero => rfl
  | succ count ih =>
      rw [List.replicate_succ', Run.execute_append]
      have before := ih (Nat.le_of_succ_le le) (Nat.lt_of_succ_lt below)
      refine ⟨_, before, ?_⟩
      simp only [Run.execute, readMany_succ le below]

theorem readMany_zero : readMany render s 0 = { s with loop := some 0 } := by
  simp [readMany, enqueueAll]

/-- The loop ends when a batch was read or nothing is left. -/
theorem execute_loop (running : s.loop = some 0) :
    Run.execute (step render) s
        (List.replicate (min batchSize s.pipe.unread.length + 1) .iterate) =
      some { readMany render s batchSize with
        receiver := (readMany render s batchSize).receiver.awaitNextNotification
        loop := none } := by
  have unread_le : min batchSize s.pipe.unread.length ≤ s.pipe.unread.length := Nat.min_le_right ..
  have below : min batchSize s.pipe.unread.length < DynamicSubscriptionHttpStream.maxEvents :=
    Nat.lt_of_le_of_lt (Nat.min_le_left ..) (by decide)
  have begun : readMany render s 0 = s := by rw [readMany_zero, ← running]
  have read : Run.execute (step render) (readMany render s 0)
      (List.replicate (min batchSize s.pipe.unread.length) .iterate) =
      some (readMany render s (min batchSize s.pipe.unread.length)) :=
    execute_readMany unread_le below
  rw [begun] at read
  have ended : DynamicSubscriptionHttpStream.maxEvents ≤ min batchSize s.pipe.unread.length + 1 ∨
      s.pipe.unread.drop (min batchSize s.pipe.unread.length) = [] := by
    rcases Nat.le_total batchSize s.pipe.unread.length with full | rest
    · rw [Nat.min_eq_left full]
      exact .inl (by decide)
    · rw [Nat.min_eq_right rest]
      exact .inr List.drop_length
  rw [List.replicate_succ', Run.execute_append]
  refine ⟨_, read, ?_⟩
  have taken : s.pipe.unread.take (min batchSize s.pipe.unread.length) =
      s.pipe.unread.take batchSize := List.take_eq_take_min.symm
  have dropped : s.pipe.unread.drop (min batchSize s.pipe.unread.length) =
      s.pipe.unread.drop batchSize := List.drop_eq_drop_min.symm
  have left : (readMany render s (min batchSize s.pipe.unread.length)).step render .iterate =
      some { readMany render s (min batchSize s.pipe.unread.length) with
        receiver :=
          (readMany render s (min batchSize s.pipe.unread.length)).receiver.awaitNextNotification
        loop := none } := congrArg some (iterate_leaves ended)
  simp only [Run.execute, left]
  simp only [readMany, taken, dropped]

/-- How often a handler which is not interrupted evaluates the guard of its loop. -/
def iterations (s : NotificationDelivery N) : Nat :=
  if s.pipe.pipeIsClosedAndNoData then 0 else min batchSize s.pipe.unread.length + 1

/-- What a handler leaves behind when nothing comes in between. -/
structure Handles (render : N → Str) (index : Nat) (s t : NotificationDelivery N) : Prop where
  /-- the stream makes a single step for the handler as a whole -/
  receiver : s.receiver.step (.complete index s.pipe.pipeIsClosedAndNoData
    (s.pipe.unread.map render)) = some t.receiver
  pipe : t.pipe = { s.pipe with unread := s.pipe.unread.drop batchSize }
  read : t.read = s.read ++ s.pipe.unread.take batchSize
  loop : t.loop = none

/-- The handler of a wait, step by step. -/
theorem execute_handler {index : Nat} (idle : s.loop = none)
    (queued : s.receiver.waits[index]? = some .expired)
    (alive : s.receiver.stream.phase ≠ .destroyed) :
    ∃ t, Run.execute (step render) s
        (.complete index :: List.replicate s.iterations .iterate) = some t ∧
      Handles render index s t := by
  have completed : s.step render (.complete index) =
      some (s.startHandler (s.receiver.waits.eraseIdx index)) := by
    simp only [step, idle, Option.isSome_none, Bool.false_eq_true, if_false, queued]
  simp only [Run.execute, completed]
  by_cases drained : s.pipe.pipeIsClosedAndNoData = true
  · -- the handler returns at once
    have unread : s.pipe.unread = [] := by
      rw [Pipe.pipeIsClosedAndNoData_eq, Bool.and_eq_true, List.isEmpty_iff] at drained
      exact drained.2
    simp only [iterations, startHandler, alive, drained, if_true, if_false]
    refine ⟨_, rfl, ?_, ?_, ?_, idle⟩
    · simp only [DynamicSubscriptionHttpStream.step, queued,
        DynamicSubscriptionHttpStream.processNotifications, alive, drained, if_true, if_false]
    · rw [unread, List.drop_nil, ← unread]
    · rw [unread, List.take_nil, List.append_nil]
  · -- the loop reads a batch, and the last evaluation of its guard leaves it
    simp only [iterations, startHandler, alive, drained, if_false]
    refine ⟨_, execute_loop rfl, ?_, rfl, rfl, rfl⟩
    simp only [DynamicSubscriptionHttpStream.step, queued,
      DynamicSubscriptionHttpStream.processNotifications, alive, drained, if_false,
      ← List.map_take]
    rfl

/-- The stream was activated and exists. -/
structure Open (r : DynamicSubscriptionHttpStream) : Prop where
  activated : r.stream.activated = true
  alive : r.stream.phase ≠ .destroyed

theorem foldl_enqueue_activated (messages : List Str) (stream : EventStream) :
    (enqueueAll stream messages).activated = stream.activated := by
  induction messages generalizing stream with
  | nil => rfl
  | cons message messages ih =>
      exact (ih _).trans (EventStream.enqueue_activated _ _ _)

/-- A handler neither activates nor destroys the stream. -/
theorem Open.complete {r r' : DynamicSubscriptionHttpStream} (isOpen : Open r) {index : Nat}
    {drained : Bool} {messages : List Str}
    (taken : r.step (.complete index drained messages) = some r') : Open r' := by
  simp only [DynamicSubscriptionHttpStream.step] at taken
  split at taken <;> cases taken
  · unfold DynamicSubscriptionHttpStream.processNotifications
    simp only [isOpen.alive, if_false]
    split
    · exact ⟨isOpen.activated, isOpen.alive⟩
    · constructor
      case activated => exact (foldl_enqueue_activated _ _).trans isOpen.activated
      case alive =>
        intro gone
        have phase := DynamicSubscriptionHttpStream.foldl_enqueue_phase
          (messages.take (DynamicSubscriptionHttpStream.maxEvents - 1)) r.stream
        exact isOpen.alive (phase.symm.trans gone)
  · exact ⟨isOpen.activated, isOpen.alive⟩

theorem Listening.onward {events : List (Event N)} (listening : Listening s)
    (run : Run (NotificationDelivery.step render) s events t) : Listening t := by
  induction run with
  | nil => exact listening
  | snoc _ taken ih => exact ih.step taken

/-- One wakeup: the completion of the wait is queued if it is not yet, and its handler is run. -/
def wakeup (s : NotificationDelivery N) : List (Event N) :=
  (if s.receiver.waits = [.pending] then [.readable 0] else []) ++
    .complete 0 :: List.replicate s.iterations .iterate

/-- What a wakeup leaves behind. -/
structure Wakes (s t : NotificationDelivery N) : Prop where
  isOpen : Open t.receiver
  pipe : t.pipe = { s.pipe with unread := s.pipe.unread.drop batchSize }
  read : t.read = s.read ++ s.pipe.unread.take batchSize
  loop : t.loop = none

theorem execute_wakeup (listening : Listening s) (idle : s.loop = none)
    (isOpen : Open s.receiver) (more : s.pipe.unread ≠ []) :
    ∃ t, Run.execute (step render) s s.wakeup = some t ∧ Wakes s t := by
  -- the wait exists, as there is something to read
  have single : ∃ wait, s.receiver.waits = [wait] ∧ wait ≠ .aborted := by
    cases listening with
    | waiting _ _ single outstanding => exact ⟨_, single, outstanding⟩
    | inactive inactive =>
        rw [isOpen.activated] at inactive
        cases inactive
    | reading _ _ running =>
        rw [idle] at running
        cases running
    | finished _ _ _ _ drained => exact absurd drained more
    | destroyed gone => exact absurd gone isOpen.alive
  obtain ⟨wait, single, outstanding⟩ := single
  unfold wakeup
  cases wait with
  | aborted => exact absurd rfl outstanding
  | expired =>
      have queued : s.receiver.waits[0]? = some .expired := by rw [single, List.getElem?_cons_zero]
      obtain ⟨t, done, handles⟩ := @execute_handler N render s 0 idle queued isOpen.alive
      rw [if_neg (by simp [single]), List.nil_append]
      exact ⟨t, done, isOpen.complete handles.receiver, handles.pipe, handles.read, handles.loop⟩
  | pending =>
      let ready := s.withReceiver { s.receiver with waits := [.expired] }
      have reported : s.pipe.poll.1 = 1 := by
        obtain ⟨notification, unread, front⟩ := List.exists_cons_of_ne_nil more
        simp [Pipe.poll, front]
      have readable : s.step render (.readable 0) = some ready := by
        simp only [step, reported, if_true, DynamicSubscriptionHttpStream.step, single,
          List.getElem?_cons_zero, List.set_cons_zero, Option.map_some]
        rfl
      obtain ⟨t, done, handles⟩ := @execute_handler N render ready 0 idle rfl isOpen.alive
      have still : Open ready.receiver := ⟨isOpen.activated, isOpen.alive⟩
      refine ⟨t, ?_, still.complete handles.receiver, handles.pipe, handles.read, handles.loop⟩
      rw [if_pos single, List.singleton_append]
      simp only [Run.execute, readable]
      exact done

/-- Is the handler of a wait run? -/
def isCompletion : Event N → Bool
  | .complete _ => true
  | _ => false

theorem countP_wakeup (s : NotificationDelivery N) : s.wakeup.countP isCompletion = 1 := by
  have iterations : (List.replicate s.iterations Event.iterate : List (Event N)).countP
      isCompletion = 0 := by
    rw [List.countP_eq_zero]
    intro event member
    rw [List.eq_of_mem_replicate member]
    exact Bool.false_ne_true
  unfold wakeup
  rw [List.countP_append, List.countP_cons, iterations]
  split
  · rfl
  · rfl

/-- Batch after batch, the pipe is drained. -/
theorem execute_wakeups (count : Nat) (listening : Listening s) (idle : s.loop = none)
    (isOpen : Open s.receiver) (enough : s.pipe.unread.length ≤ count * batchSize) :
    ∃ wakeups t, Run.execute (step render) s wakeups = some t ∧
      wakeups.countP isCompletion ≤ count ∧ t.loop = none ∧
      t.pipe.unread = [] ∧ t.read = s.read ++ s.pipe.unread := by
  induction count generalizing s with
  | zero =>
      have drained : s.pipe.unread = [] := by
        rw [Nat.zero_mul, Nat.le_zero] at enough
        exact List.eq_nil_of_length_eq_zero enough
      refine ⟨[], s, rfl, Nat.le_refl 0, idle, drained, ?_⟩
      rw [drained, List.append_nil]
  | succ count ih =>
      by_cases more : s.pipe.unread = []
      · refine ⟨[], s, rfl, Nat.zero_le _, idle, more, ?_⟩
        rw [more, List.append_nil]
      · obtain ⟨next, done, wakes⟩ := @execute_wakeup N render s listening idle isOpen more
        have onwards := listening.onward (Run.of_execute done)
        have fewer : next.pipe.unread.length ≤ count * batchSize := by
          rw [wakes.pipe, List.length_drop]
          rw [Nat.succ_mul] at enough
          exact Nat.sub_le_of_le_add enough
        obtain ⟨wakeups, t, finished, counted, left, drained, read⟩ :=
          ih onwards wakes.loop wakes.isOpen fewer
        refine ⟨s.wakeup ++ wakeups, t, ?_, ?_, left, drained, ?_⟩
        · rw [Run.execute_append]
          exact ⟨next, done, finished⟩
        · rw [List.countP_append, countP_wakeup, Nat.add_comm]
          exact Nat.add_le_add_right counted 1
        · rw [read, wakes.read, wakes.pipe, List.append_assoc, List.take_append_drop]

end Handler

/-! ## Results -/

section Results

variable {render : N → Str} {pipe : Pipe N} {events : List (Event N)}
  {s : NotificationDelivery N}

/-- In every reachable state nothing which sysrepo has written is lost, doubled or out of order:
what was not read is still in the pipe, and a client gets events for a beginning of it, and for
everything that was read when the stream waits for events. -/
theorem delivered_in_order
    (run : Run (step render) (initial pipe) events s)
    (noReturn : ∀ notification ∈ s.written, chr '\r' ∉ render notification) :
    s.read ++ s.pipe.unread = s.written ∧
      Library.EventSource.events s.receiver.stream.sent <+:
        s.written.map (EventStream.messageEvent ∘ render) ∧
      (s.receiver.stream.state = .waitingForEvents →
        Library.EventSource.events s.receiver.stream.sent =
          s.read.map (EventStream.messageEvent ∘ render)) := by
  have conserves := Conserves.run run
  have arrived : ∀ what ∈ s.read.map render, chr '\r' ∉ what := by
    intro what member
    obtain ⟨notification, read, rfl⟩ := List.mem_map.mp member
    apply noReturn
    rw [← conserves.pipe]
    exact List.mem_append_left _ read
  have received := conserves.accepts.received conserves.faithful arrived
  rw [List.map_map] at received
  refine ⟨conserves.pipe, ?_, received.2⟩
  rw [← conserves.pipe, List.map_append]
  exact received.1.trans (List.prefix_append _ _)

/-- A notification was there before the client, another one comes while the handler is reading. -/
theorem delivered_in_order_meanwhile :
    ∃ s, Run (step id) (initial ⟨[str "first"], false⟩)
        [.base .own, .base .activate, .readable 0, .complete 0, .iterate, .write (str "second"),
          .iterate, .iterate, .base (.process 100)] s ∧
      s.read ++ s.pipe.unread = [str "first", str "second"] ∧
      Library.EventSource.events s.receiver.stream.sent <+:
        s.written.map (EventStream.messageEvent ∘ id) ∧
      (s.receiver.stream.state = .waitingForEvents →
        Library.EventSource.events s.receiver.stream.sent =
          s.read.map (EventStream.messageEvent ∘ id)) := by
  have run : ∃ s, Run (step id) (initial ⟨[str "first"], false⟩)
      [.base .own, .base .activate, .readable 0, .complete 0, .iterate, .write (str "second"),
        .iterate, .iterate, .base (.process 100)] s ∧ s.written = [str "first", str "second"] :=
    ⟨_, .of_execute rfl, rfl⟩
  obtain ⟨s, run, written⟩ := run
  have noReturn : ∀ notification ∈ s.written, chr '\r' ∉ id notification := by
    rw [written]
    decide
  refine ⟨s, run, ?_⟩
  rw [← written]
  exact delivered_in_order run noReturn

/-- As long as the stream exists, its handler is reading a batch, or a wait is outstanding, or
sysrepo has hung up and everything was read.  Whatever is in the pipe is read by as many
handlers as there are batches of it. -/
theorem keeps_reading (run : Run (step render) (initial pipe) events s)
    (isOpen : Open s.receiver) :
    (∃ eventsProcessed, s.loop = some eventsProcessed ∧
        eventsProcessed < DynamicSubscriptionHttpStream.maxEvents ∧ s.receiver.waits = []) ∨
      s.loop = none ∧
        ((∃ wait, s.receiver.waits = [wait] ∧ wait ≠ .aborted) ∨
          s.receiver.waits = [] ∧ s.pipe.hungUp = true ∧ s.pipe.unread = []) ∧
        ∃ wakeups t, Run (step render) s wakeups t ∧
          wakeups.countP isCompletion ≤ (s.pipe.unread.length + (batchSize - 1)) / batchSize ∧
          t.pipe.unread = [] ∧ t.read = s.read ++ s.pipe.unread := by
  have listening := Listening.run run
  have drains : s.loop = none → ∃ wakeups t, Run (step render) s wakeups t ∧
      wakeups.countP isCompletion ≤ (s.pipe.unread.length + (batchSize - 1)) / batchSize ∧
      t.pipe.unread = [] ∧ t.read = s.read ++ s.pipe.unread := by
    intro idle
    have enough : s.pipe.unread.length ≤
        (s.pipe.unread.length + (batchSize - 1)) / batchSize * batchSize := by
      change _ ≤ (s.pipe.unread.length + 48) / 49 * 49
      omega
    obtain ⟨wakeups, t, done, counted, -, drained, read⟩ :=
      @execute_wakeups N render s _ listening idle isOpen enough
    exact ⟨wakeups, t, .of_execute done, counted, drained, read⟩
  cases listening with
  | inactive inactive =>
      rw [isOpen.activated] at inactive
      cases inactive
  | waiting _ idle single outstanding =>
      exact .inr ⟨idle, .inl ⟨_, single, outstanding⟩, drains idle⟩
  | reading _ _ running below none => exact .inl ⟨_, running, below, none⟩
  | finished _ idle none hungUp drained =>
      exact .inr ⟨idle, .inr ⟨none, hungUp, drained⟩, drains idle⟩
  | destroyed gone => exact absurd gone isOpen.alive

/-- A client has connected, and its first wait is outstanding. -/
theorem keeps_reading_connected :
    ∃ s : NotificationDelivery Str,
      Run (step id) (initial ⟨[str "first"], false⟩) [.base .own, .base .activate] s ∧
        ∃ wakeups t, Run (step id) s wakeups t ∧ wakeups.countP isCompletion ≤ 1 ∧
          t.pipe.unread = [] ∧ t.read = [str "first"] := by
  have run : ∃ s : NotificationDelivery Str,
      Run (step id) (initial ⟨[str "first"], false⟩) [.base .own, .base .activate] s ∧
        Open s.receiver ∧ s.loop = none ∧ s.pipe.unread = [str "first"] ∧ s.read = [] :=
    ⟨_, .of_execute rfl, ⟨rfl, nofun⟩, rfl, rfl, rfl⟩
  obtain ⟨s, run, isOpen, idle, unread, read⟩ := run
  refine ⟨s, run, ?_⟩
  rcases keeps_reading run isOpen with ⟨_, running, -⟩ | ⟨-, -, wakeups, t, onwards, counted, rest⟩
  · rw [idle] at running
    cases running
  · rw [unread] at counted rest
    rw [read, List.nil_append] at rest
    exact ⟨wakeups, t, onwards, counted, rest⟩

end Results

end NotificationDelivery

end Rousette.Restconf
