import Rousette.Http.EventStream

/-!
# Delivery of events

Three properties of an event stream along every run: the bytes which are handed out are
those of the accepted frames in their order, a deferred response is resumed when there is
something to do, and a stream which is closing never goes back.
-/

namespace Rousette.Http.EventStream

open Library

/-! ## Effects -/

/-- What a step can do to an event stream. -/
inductive Effect (s : EventStream) : Event → EventStream → Prop where
  | enqueue (alive : s.phase ≠ .destroyed) (what : Str) :
      Effect s (.enqueue what) (s.enqueue fieldData what)
  | terminate (alive : s.phase ≠ .destroyed) : Effect s .terminate s.terminate
  | own (constructing : s.phase = .constructing) : Effect s .own { s with phase := .owned }
  | activate (owned : s.phase = .owned) : Effect s .activate s.activate
  | process (owned : s.phase = .owned) (len : Nat) : Effect s (.process len) (s.generate len)
  | runTask {index : Nat} {task : Task} (posted : s.tasks[index]? = some task) :
      Effect s (.runTask index) ({ s with tasks := s.tasks.eraseIdx index }.runTask task)
  | pingExpire (index : Nat) (pings : List WaitStatus) :
      Effect s (.pingExpire index) { s with pings }
  | pingAborted (index : Nat) (pings : List WaitStatus) :
      Effect s (.pingComplete index) { s with pings }
  | pong (index : Nat) (pings : List WaitStatus) :
      Effect s (.pingComplete index) { s with pings }.pong
  | onClose (owned : s.phase = .owned) : Effect s .onClose s.onClose
  | destroy (closed : s.state = .closed) : Effect s .destroy { s with phase := .destroyed }

theorem step_effect {s t : EventStream} {event : Event} (taken : s.step event = some t) :
    Effect s event t := by
  cases event with
  | enqueue what =>
      simp only [step] at taken
      split at taken <;> cases taken
      next alive => exact .enqueue alive what
  | terminate =>
      simp only [step] at taken
      split at taken <;> cases taken
      next alive => exact .terminate alive
  | own =>
      simp only [step] at taken
      split at taken <;> cases taken
      next constructing => exact .own constructing
  | activate =>
      simp only [step] at taken
      split at taken <;> cases taken
      next ready => exact .activate ready.1
  | process len =>
      simp only [step] at taken
      split at taken <;> cases taken
      next ready => exact .process ready.1 len
  | runTask index =>
      simp only [step] at taken
      split at taken <;> cases taken
      next posted => exact .runTask posted
  | pingExpire index =>
      simp only [step] at taken
      split at taken <;> cases taken
      exact .pingExpire index _
  | pingComplete index =>
      simp only [step] at taken
      split at taken <;> cases taken
      · exact .pong index _
      · exact .pingAborted index _
  | onClose =>
      simp only [step] at taken
      split at taken <;> cases taken
      next ready => exact .onClose ready.1
  | destroy =>
      simp only [step] at taken
      split at taken <;> cases taken
      next gone => exact .destroy gone.2

@[simp] theorem enqueue_phase (s : EventStream) (fieldName what : Str) :
    (s.enqueue fieldName what).phase = s.phase := by
  unfold enqueue
  split <;> rfl

@[simp] theorem terminate_phase (s : EventStream) : s.terminate.phase = s.phase := by
  unfold terminate
  split <;> rfl

@[simp] theorem generate_phase (s : EventStream) (len : Nat) :
    (s.generate len).phase = s.phase := by
  unfold generate process
  cases state : s.state <;> simp [sendChunk, state, Except.map]

@[simp] theorem runTask_phase (s : EventStream) (task : Task) :
    (s.runTask task).phase = s.phase := by
  unfold runTask
  split <;> rfl

@[simp] theorem pong_phase (s : EventStream) : s.pong.phase = s.phase := by
  unfold pong
  split
  · exact enqueue_phase s [] [chr '\n']
  · rfl

/-- Only `destroy` destroys the object. -/
theorem phase_of_step {s t : EventStream} {event : Event} (taken : s.step event = some t)
    (other : event ≠ .destroy) (destroyed : t.phase = .destroyed) : s.phase = .destroyed := by
  cases step_effect taken with
  | destroy => exact absurd rfl other
  | own => cases destroyed
  | enqueue | terminate | process | runTask | pong => simpa using destroyed
  | activate | pingExpire | pingAborted | onClose => exact destroyed

/-! ## Bytes are handed out in order -/

/-- What is sent and what is queued make up the accepted frames, and the state tells
whether something is queued. -/
structure Faithful (s : EventStream) : Prop where
  conserved : s.sent ++ s.queue.flatten = s.accepted.flatten
  nonempty : ∀ piece ∈ s.queue, piece ≠ []
  hasEvents : s.state = .hasEvents → s.queue ≠ []
  waiting : s.state = .waitingForEvents → s.queue = []

theorem frame_ne_nil (fieldName what : Str) : frame fieldName what ≠ [] := by
  simp [frame]

namespace Faithful

variable {s t : EventStream}

/-- Only the queue and its history count. -/
theorem congr (faithful : Faithful s) (state : t.state = s.state) (queue : t.queue = s.queue)
    (accepted : t.accepted = s.accepted) (sent : t.sent = s.sent) : Faithful t := by
  constructor
  case conserved => rw [queue, accepted, sent, faithful.conserved]
  case nonempty => exact queue ▸ faithful.nonempty
  case hasEvents => exact state ▸ queue ▸ faithful.hasEvents
  case waiting => exact state ▸ queue ▸ faithful.waiting

/-- Closing leaves the queue alone. -/
theorem close (faithful : Faithful s) (queue : t.queue = s.queue)
    (accepted : t.accepted = s.accepted) (sent : t.sent = s.sent)
    (closing : t.state = .wantToClose ∨ t.state = .closed) : Faithful t := by
  constructor
  case conserved => rw [queue, accepted, sent, faithful.conserved]
  case nonempty => exact queue ▸ faithful.nonempty
  case hasEvents =>
    intro state
    rcases closing with other | other <;> rw [state] at other <;> cases other
  case waiting =>
    intro state
    rcases closing with other | other <;> rw [state] at other <;> cases other

theorem enqueue (faithful : Faithful s) (fieldName what : Str) :
    Faithful (s.enqueue fieldName what) := by
  unfold EventStream.enqueue
  split
  · exact faithful
  · constructor
    case conserved =>
      simp only [List.flatten_append, ← faithful.conserved, List.append_assoc]
    case nonempty =>
      intro piece member
      rcases List.mem_append.mp member with before | new
      · exact faithful.nonempty piece before
      · rw [List.mem_singleton.mp new]
        exact frame_ne_nil fieldName what
    case hasEvents => simp
    case waiting =>
      intro state
      cases state

theorem generate (faithful : Faithful s) (len : Nat) : Faithful (s.generate len) := by
  unfold EventStream.generate process
  cases state : s.state with
  | hasEvents =>
      simp only [sendChunk, state, ne_eq, not_true_eq_false, if_false, Except.map]
      constructor
      case conserved =>
        rw [List.append_assoc, chunk_append, faithful.conserved]
      case nonempty => exact chunk_ne_nil faithful.nonempty len
      case hasEvents =>
        intro next nothing
        have empty : (chunk s.queue len).2 = [] := nothing
        simp [empty] at next
      case waiting =>
        intro next
        by_contra something
        have queued : ¬(chunk s.queue len).2 = [] := something
        simp [queued] at next
  | waitingForEvents => exact faithful.congr rfl rfl rfl rfl
  | wantToClose => exact faithful.congr rfl rfl rfl rfl
  | closed => exact faithful.congr rfl rfl rfl rfl

theorem terminate (faithful : Faithful s) : Faithful s.terminate := by
  unfold EventStream.terminate
  split
  · exact faithful
  · exact faithful.close rfl rfl rfl (.inl rfl)

theorem runTask (faithful : Faithful s) (task : Task) : Faithful (s.runTask task) := by
  unfold EventStream.runTask
  split
  · exact faithful.congr rfl rfl rfl rfl
  · exact faithful

theorem pong (faithful : Faithful s) : Faithful s.pong := by
  unfold EventStream.pong
  split
  · exact (faithful.enqueue [] [chr '\n']).congr rfl rfl rfl rfl
  · exact faithful

theorem step {event : Event} (faithful : Faithful s) (taken : s.step event = some t) :
    Faithful t := by
  cases step_effect taken with
  | enqueue _ what => exact faithful.enqueue fieldData what
  | terminate => exact faithful.terminate
  | process _ len => exact faithful.generate len
  | @runTask index task =>
      have cleared : Faithful { s with tasks := s.tasks.eraseIdx index } :=
        faithful.congr rfl rfl rfl rfl
      exact cleared.runTask task
  | pong _ pings =>
      have waited : Faithful { s with pings } := faithful.congr rfl rfl rfl rfl
      exact waited.pong
  | onClose => exact faithful.close rfl rfl rfl (.inr rfl)
  | own | activate | pingExpire | pingAborted | destroy => exact faithful.congr rfl rfl rfl rfl

theorem run {events : List Event} (run : Run EventStream.step initial events s) : Faithful s := by
  induction run with
  | nil => exact ⟨rfl, by simp [initial], by simp [initial], fun _ => rfl⟩
  | snoc _ taken ih => exact ih.step taken

end Faithful

/-- In every reachable state the bytes which were returned are the beginning of the accepted
frames, and all of them when the stream waits for events; and the state tells whether
something is queued, until the stream is closing. -/
theorem sent_faithfully {events : List Event} {s : EventStream}
    (run : Run EventStream.step initial events s) :
    s.sent <+: s.accepted.flatten ∧
      (s.state = .waitingForEvents → s.sent = s.accepted.flatten) ∧
      (s.state = .hasEvents ∨ s.state = .waitingForEvents →
        (s.state = .hasEvents ↔ s.queue ≠ []) ∧ ∀ piece ∈ s.queue, piece ≠ []) := by
  have faithful := Faithful.run run
  refine ⟨⟨_, faithful.conserved⟩, ?_, ?_⟩
  · intro waiting
    have conserved := faithful.conserved
    rwa [faithful.waiting waiting, List.flatten_nil, List.append_nil] at conserved
  · intro open_
    refine ⟨⟨faithful.hasEvents, fun queued => ?_⟩, faithful.nonempty⟩
    exact open_.resolve_right fun waiting => queued (faithful.waiting waiting)

/-- An initial event, half of which was handed out when another one arrived. -/
def halfway : EventStream :=
  { initial with
    state := .hasEvents
    queue := [str "lo\n\n", str "data: again\n\n"]
    phase := .owned
    activated := true
    tasks := [.enqueued false, .enqueued true]
    pings := [.pending]
    accepted := [str "data: hello\n\n", str "data: again\n\n"]
    sent := str "data: hel" }

theorem halfway_sent :
    halfway.sent <+: halfway.accepted.flatten ∧ halfway.queue ≠ [] := by
  have run : Run EventStream.step initial
      [.enqueue (str "hello"), .own, .activate, .process 9, .enqueue (str "again")] halfway :=
    .of_execute rfl
  have sent := sent_faithfully run
  exact ⟨sent.1, (sent.2.2 (.inl rfl)).1.mp rfl⟩

/-! ## A closing stream never goes back -/

/-- What may become of a stream in any number of steps. -/
structure Onward (s t : EventStream) : Prop where
  wantToClose : s.state = .wantToClose → t.state = .wantToClose ∨ t.state = .closed
  closed : s.state = .closed → t.state = .closed
  /-- no more data -/
  silent : s.state = .wantToClose ∨ s.state = .closed → t.sent = s.sent
  /-- the response is not touched any more -/
  untouched : s.state = .closed → t.resumes = s.resumes

namespace Onward

variable {s t u : EventStream}

/-- The state and the response stay as they are. -/
theorem same (state : t.state = s.state) (sent : t.sent = s.sent)
    (resumes : t.resumes = s.resumes) : Onward s t := by
  constructor
  case wantToClose => exact fun wanted => .inl (state ▸ wanted)
  case closed => exact fun closed => state ▸ closed
  case silent => exact fun _ => sent
  case untouched => exact fun _ => resumes

theorem refl (s : EventStream) : Onward s s := same rfl rfl rfl

theorem trans (first : Onward s t) (second : Onward t u) : Onward s u := by
  constructor
  case wantToClose =>
    intro wanted
    rcases first.wantToClose wanted with still | closed
    · exact second.wantToClose still
    · exact .inr (second.closed closed)
  case closed => exact fun closed => second.closed (first.closed closed)
  case silent =>
    intro closing
    have onward : t.state = .wantToClose ∨ t.state = .closed := by
      rcases closing with wanted | closed
      · exact first.wantToClose wanted
      · exact .inr (first.closed closed)
    rw [second.silent onward, first.silent closing]
  case untouched =>
    intro closed
    rw [second.untouched (first.closed closed), first.untouched closed]

theorem enqueue (s : EventStream) (fieldName what : Str) :
    Onward s (s.enqueue fieldName what) := by
  unfold EventStream.enqueue
  split
  · exact refl s
  next accepting =>
    rw [not_or] at accepting
    exact ⟨fun wanted => absurd wanted accepting.2, fun closed => absurd closed accepting.1,
      fun _ => rfl, fun _ => rfl⟩

theorem terminate (s : EventStream) : Onward s s.terminate := by
  unfold EventStream.terminate
  split
  · exact refl s
  next late =>
    exact ⟨fun _ => .inl rfl, fun closed => absurd closed late, fun _ => rfl, fun _ => rfl⟩

theorem generate (s : EventStream) (len : Nat) : Onward s (s.generate len) := by
  unfold EventStream.generate process
  cases state : s.state with
  | hasEvents => constructor <;> simp [state]
  | waitingForEvents => exact same rfl rfl rfl
  | wantToClose => exact same rfl rfl rfl
  | closed => exact same rfl rfl rfl

theorem runTask (s : EventStream) (task : Task) : Onward s (s.runTask task) := by
  unfold EventStream.runTask
  split
  next resumes =>
    constructor
    case wantToClose => exact .inl
    case closed => exact id
    case silent => exact fun _ => rfl
    case untouched =>
      -- neither kind of task resumes a closed stream
      intro closed
      cases task <;> simp [resumesBy, closed] at resumes
  · exact refl s

theorem pong (s : EventStream) : Onward s s.pong := by
  unfold EventStream.pong
  split
  · exact (enqueue s [] [chr '\n']).trans (same rfl rfl rfl)
  · exact refl s

theorem onClose (s : EventStream) : Onward s s.onClose :=
  ⟨fun _ => .inr rfl, fun _ => rfl, fun _ => rfl, fun _ => rfl⟩

theorem step {event : Event} (taken : s.step event = some t) : Onward s t := by
  cases step_effect taken with
  | enqueue _ what => exact enqueue s fieldData what
  | terminate => exact terminate s
  | process _ len => exact generate s len
  | @runTask index task =>
      have cleared : Onward s { s with tasks := s.tasks.eraseIdx index } := same rfl rfl rfl
      exact cleared.trans (runTask _ task)
  | pong _ pings =>
      have waited : Onward s { s with pings } := same rfl rfl rfl
      exact waited.trans (pong _)
  | onClose => exact onClose s
  | own | activate | pingExpire | pingAborted | destroy => exact same rfl rfl rfl

theorem run {events : List Event} (run : Run EventStream.step s events t) : Onward s t := by
  induction run with
  | nil => exact refl s
  | snoc _ taken ih => exact ih.trans (step taken)

end Onward

/-- `process` calls `send_chunk` only when its check passes. -/
theorem process_checked (s : EventStream) (len : Nat) :
    (s.process len).1 ≠ .error notInHasEvents := by
  unfold process
  cases state : s.state with
  | hasEvents => simp [sendChunk, state, Except.map]
  | waitingForEvents => simp
  | wantToClose => simp
  | closed =>
      intro same
      injection same with same
      injection same with texts
      exact absurd texts (by decide)

/-- From any state on, a stream which wants to close becomes closed or stays as it is, a
closed one stays closed, neither of them returns data, a closed one never calls
`res.resume`; and the check of `send_chunk` never fails. -/
theorem lifecycle_monotone {s t : EventStream} {events : List Event}
    (onwards : Run EventStream.step s events t) :
    (s.state = .wantToClose → t.state = .wantToClose ∨ t.state = .closed) ∧
      (s.state = .closed → t.state = .closed) ∧
      (s.state = .wantToClose ∨ s.state = .closed → t.sent = s.sent) ∧
      (s.state = .closed → t.resumes = s.resumes) ∧
      ∀ len, (t.process len).1 ≠ .error notInHasEvents := by
  have onward := Onward.run onwards
  exact ⟨onward.wantToClose, onward.closed, onward.silent, onward.untouched, process_checked t⟩

/-- A ping is queued when the client goes away, and its handler runs afterwards. -/
def disconnected : EventStream :=
  { initial with
    state := .closed
    phase := .owned
    activated := true
    pings := [.expired] }

theorem disconnected_closed :
    ∃ t, Run EventStream.step disconnected [.pingComplete 0, .terminate] t ∧
      t.state = .closed ∧ t.resumes = disconnected.resumes := by
  have run : Run EventStream.step disconnected [.pingComplete 0, .terminate]
      { disconnected with pings := [.pending] } := .of_execute rfl
  have monotone := lifecycle_monotone run
  exact ⟨_, run, monotone.2.1 rfl, monotone.2.2.2.1 rfl⟩

/-! ## A deferred response is resumed -/

/-- A deferred response which has something to do is resumed by one of the posted tasks. -/
structure Awake (s : EventStream) : Prop where
  /-- the generator is called only when the object is owned -/
  owned : s.deferred = true → s.phase ≠ .constructing
  destroyed : s.phase = .destroyed → s.state = .closed
  hasEvents : s.deferred = true → s.state = .hasEvents → .enqueued true ∈ s.tasks
  wantToClose : s.deferred = true → s.state = .wantToClose →
    .enqueued true ∈ s.tasks ∨ .terminated true ∈ s.tasks

namespace Awake

variable {s t : EventStream}

/-- Waits on the timer do not matter. -/
theorem congr (awake : Awake s) (state : t.state = s.state) (phase : t.phase = s.phase)
    (tasks : t.tasks = s.tasks) (deferred : t.deferred = s.deferred) : Awake t := by
  constructor
  case owned => rw [deferred, phase]; exact awake.owned
  case destroyed => rw [state, phase]; exact awake.destroyed
  case hasEvents => rw [state, tasks, deferred]; exact awake.hasEvents
  case wantToClose => rw [state, tasks, deferred]; exact awake.wantToClose

/-- Nothing is asked of a response which is not deferred. -/
theorem resumed (destroyed : s.phase = .destroyed → s.state = .closed)
    (deferred : s.deferred = false) : Awake s := by
  constructor
  case owned => simp [deferred]
  case destroyed => exact destroyed
  case hasEvents => simp [deferred]
  case wantToClose => simp [deferred]

/-- A task which is posted while the response is deferred refers to the object. -/
theorem weakFromThis (awake : Awake s) (alive : s.phase ≠ .destroyed)
    (deferred : s.deferred = true) : s.weakFromThis = true := by
  have owned := awake.owned deferred
  cases phase : s.phase with
  | constructing => exact absurd phase owned
  | owned => simp [EventStream.weakFromThis, phase]
  | destroyed => exact absurd phase alive

theorem enqueue (awake : Awake s) (alive : s.phase ≠ .destroyed) (fieldName what : Str) :
    Awake (s.enqueue fieldName what) := by
  unfold EventStream.enqueue
  split
  · exact awake
  · constructor
    case owned => exact awake.owned
    case destroyed => exact fun destroyed => absurd destroyed alive
    case hasEvents =>
      intro deferred _
      simp [awake.weakFromThis alive deferred]
    case wantToClose =>
      intro _ state
      cases state

theorem terminate (awake : Awake s) (alive : s.phase ≠ .destroyed) : Awake s.terminate := by
  unfold EventStream.terminate
  split
  · exact awake
  · constructor
    case owned => exact awake.owned
    case destroyed => exact fun destroyed => absurd destroyed alive
    case hasEvents =>
      intro _ state
      cases state
    case wantToClose =>
      intro deferred _
      simp [awake.weakFromThis alive deferred]

theorem generate (awake : Awake s) (owned : s.phase = .owned) (len : Nat) :
    Awake (s.generate len) := by
  unfold EventStream.generate process
  cases state : s.state with
  | hasEvents =>
      simp only [sendChunk, state, ne_eq, not_true_eq_false, if_false, Except.map]
      exact resumed (by simp [owned]) rfl
  | waitingForEvents => constructor <;> simp [owned, state]
  | wantToClose => exact resumed (by simp [owned]) rfl
  | closed => exact awake

/-- A deferred response which is not closed belongs to a stream which is owned. -/
theorem phase_eq (awake : Awake s) (deferred : s.deferred = true) (alive : s.state ≠ .closed) :
    s.phase = .owned := by
  cases phase : s.phase with
  | constructing => exact absurd phase (awake.owned deferred)
  | owned => rfl
  | destroyed => exact absurd (awake.destroyed phase) alive

theorem runTask (awake : Awake s) {index : Nat} {task : Task}
    (posted : s.tasks[index]? = some task) :
    Awake ({ s with tasks := s.tasks.eraseIdx index }.runTask task) := by
  unfold EventStream.runTask
  split
  next resumes => exact resumed awake.destroyed rfl
  next skipped =>
    -- the task which is run is not the one which the invariant speaks about
    have kept {other : Task} (needed : other ∈ s.tasks) (resumes : s.resumesBy other = true) :
        other ∈ s.tasks.eraseIdx index := by
      obtain ⟨position, found⟩ := List.mem_iff_getElem?.mp needed
      apply List.mem_eraseIdx_iff_getElem?.mpr
      refine ⟨position, ?_, found⟩
      intro same
      rw [same, posted] at found
      cases found
      exact skipped resumes
    constructor
    case owned => exact awake.owned
    case destroyed => exact awake.destroyed
    case hasEvents =>
      intro deferred (state : s.state = .hasEvents)
      have phase := awake.phase_eq deferred (by simp [state])
      exact kept (awake.hasEvents deferred state) (by simp [resumesBy, phase, state])
    case wantToClose =>
      intro deferred (state : s.state = .wantToClose)
      have phase := awake.phase_eq deferred (by simp [state])
      rcases awake.wantToClose deferred state with enqueued | terminated
      · exact .inl (kept enqueued (by simp [resumesBy, phase, state]))
      · exact .inr (kept terminated (by simp [resumesBy, phase, state]))

/-- Nothing is asked of a closed stream. -/
theorem of_closed (owned : s.deferred = true → s.phase ≠ .constructing)
    (closed : s.state = .closed) : Awake s := by
  constructor
  case owned => exact owned
  case destroyed => exact fun _ => closed
  case hasEvents => simp [closed]
  case wantToClose => simp [closed]

theorem pong (awake : Awake s) : Awake s.pong := by
  unfold EventStream.pong
  split
  next owned =>
    have enqueued := awake.enqueue (by simp [owned]) [] [chr '\n']
    exact enqueued.congr rfl rfl rfl rfl
  · exact awake

theorem step {event : Event} (awake : Awake s) (taken : s.step event = some t) : Awake t := by
  cases step_effect taken with
  | enqueue alive what => exact awake.enqueue alive fieldData what
  | terminate alive => exact awake.terminate alive
  | own constructing =>
      have awaited : s.deferred = false := by
        cases deferred : s.deferred with
        | false => rfl
        | true => exact absurd constructing (awake.owned deferred)
      exact resumed (fun destroyed => nomatch destroyed) awaited
  | process owned len => exact awake.generate owned len
  | runTask posted => exact awake.runTask posted
  | pong _ pings =>
      have waited : Awake { s with pings } := awake.congr rfl rfl rfl rfl
      exact waited.pong
  | onClose => exact of_closed awake.owned rfl
  | destroy closed => exact of_closed (fun _ => nofun) closed
  | activate | pingExpire | pingAborted => exact awake.congr rfl rfl rfl rfl

theorem run {events : List Event} (run : Run EventStream.step initial events s) : Awake s := by
  induction run with
  | nil => exact resumed nofun rfl
  | snoc _ taken ih => exact ih.step taken

end Awake

section Owner

variable {s t : EventStream}

/-- An owned stream is given up only when it is closed. -/
theorem owned_or_closed {events : List Event} (owned : s.phase = .owned)
    (run : Run EventStream.step s events t) : t.phase = .owned ∨ t.state = .closed := by
  induction run with
  | nil => exact .inl owned
  | snoc _ taken ih =>
      rcases ih with held | closed
      case inr => exact .inr ((Onward.step taken).closed closed)
      cases step_effect taken with
      | enqueue _ what => exact .inl ((enqueue_phase _ _ what).trans held)
      | terminate => exact .inl ((terminate_phase _).trans held)
      | process _ len => exact .inl ((generate_phase _ len).trans held)
      | @runTask _ task => exact .inl ((runTask_phase _ task).trans held)
      | pong => exact .inl ((pong_phase _).trans held)
      | onClose => exact .inr rfl
      | destroy closed => exact .inr closed
      | own => exact .inl rfl
      | activate | pingExpire | pingAborted => exact .inl held

/-- A task of `enqueue` resumes the response unless the stream is closed. -/
theorem enqueued_resumes (held : s.phase = .owned ∨ s.state = .closed) :
    s.resumesBy (.enqueued true) = true ∨ s.state = .closed := by
  by_cases closed : s.state = .closed
  · exact .inr closed
  · have owned := held.resolve_right closed
    exact .inl (by simp [resumesBy, owned, closed])

/-- A task of the termination slot does so when the stream wants to close. -/
theorem terminated_resumes (held : s.phase = .owned ∨ s.state = .closed)
    (closing : s.state = .wantToClose ∨ s.state = .closed) :
    s.resumesBy (.terminated true) = true ∨ s.state = .closed := by
  rcases closing with wanted | closed
  · have owned := held.resolve_right (by simp [wanted])
    exact .inl (by simp [resumesBy, owned, wanted])
  · exact .inr closed

end Owner

/-- When the response is deferred while there are events or the stream wants to close, one
of the posted tasks resumes it whenever it comes to run, unless the stream is closed then. -/
theorem wakeup_pending {events : List Event} {s : EventStream}
    (run : Run EventStream.step initial events s) (deferred : s.deferred = true)
    (due : s.state = .hasEvents ∨ s.state = .wantToClose) :
    ∃ task ∈ s.tasks, ∀ more t, Run EventStream.step s more t →
      t.resumesBy task = true ∨ t.state = .closed := by
  have awake := Awake.run run
  have phase : s.phase = .owned := by
    apply awake.phase_eq deferred
    rcases due with state | state <;> simp [state]
  have posted : .enqueued true ∈ s.tasks ∨
      .terminated true ∈ s.tasks ∧ s.state = .wantToClose := by
    rcases due with state | state
    · exact .inl (awake.hasEvents deferred state)
    · exact (awake.wantToClose deferred state).imp id fun terminated => ⟨terminated, state⟩
  rcases posted with enqueued | ⟨terminated, wanted⟩
  · refine ⟨_, enqueued, ?_⟩
    intro more t onwards
    exact enqueued_resumes (owned_or_closed phase onwards)
  · refine ⟨_, terminated, ?_⟩
    intro more t onwards
    exact terminated_resumes (owned_or_closed phase onwards)
      ((Onward.run onwards).wantToClose wanted)

/-- An event which arrived in the constructor was sent, its task having found no object;
another one arrived when the response was deferred. -/
def woken : EventStream :=
  { initial with
    state := .hasEvents
    queue := [str "data: again\n\n"]
    phase := .owned
    activated := true
    tasks := [.enqueued true]
    pings := [.pending]
    deferred := true
    accepted := [str "data: hello\n\n", str "data: again\n\n"]
    sent := str "data: hello\n\n" }

theorem woken_pending :
    ∃ task ∈ woken.tasks, ∀ more t, Run EventStream.step woken more t →
      t.resumesBy task = true ∨ t.state = .closed := by
  have run : Run EventStream.step initial
      [.enqueue (str "hello"), .own, .activate, .process 100, .process 100, .runTask 0,
        .enqueue (str "again")] woken := .of_execute rfl
  exact wakeup_pending run rfl (.inl rfl)

end Rousette.Http.EventStream
