import Rousette.Http.EventFraming

/-!
# Reception of events

A stream refuses messages only when it is closing, and a stream which is closing never
goes back.  What was accepted is therefore the beginning of what has arrived, with nothing
left out in between, and so is what a client reads.
-/

namespace Rousette.Http.EventStream

open Library

/-- Are messages refused? -/
def Closing (s : EventStream) : Prop := s.state = .closed ∨ s.state = .wantToClose

/-- The accepted messages are the first of those which have arrived, and all of them unless
the stream is closing. -/
def AcceptsFirst (arrived : List Str) (s : EventStream) : Prop :=
  ∃ sequence : List Enqueued, s.accepted = sequence.map Enqueued.frame ∧
    sequence.filterMap Enqueued.text <+: arrived ∧
    (¬s.Closing → sequence.filterMap Enqueued.text = arrived)

theorem Onward.closing {s t : EventStream} (onward : Onward s t) (closing : s.Closing) :
    t.Closing := by
  rcases closing with closed | wanted
  · exact .inl (onward.closed closed)
  · exact (onward.wantToClose wanted).symm

namespace AcceptsFirst

variable {s t : EventStream} {arrived : List Str}

theorem initial : AcceptsFirst [] initial := ⟨[], rfl, List.prefix_rfl, fun _ => rfl⟩

/-- A step which does not enqueue. -/
theorem same (accepts : AcceptsFirst arrived s) (onward : Onward s t)
    (accepted : t.accepted = s.accepted) : AcceptsFirst arrived t := by
  obtain ⟨sequence, frames, texts, all⟩ := accepts
  exact ⟨sequence, accepted.trans frames, texts,
    fun open' => all fun closing => open' (onward.closing closing)⟩

/-- A step which enqueues an item, unless the stream is closing. -/
theorem enqueue (accepts : AcceptsFirst arrived s) {item : Enqueued} {fieldName what : Str}
    (frame : item.frame = EventStream.frame fieldName what) :
    AcceptsFirst (arrived ++ item.text.toList) (s.enqueue fieldName what) := by
  obtain ⟨sequence, frames, texts, all⟩ := accepts
  unfold EventStream.enqueue
  split
  next closing =>
    exact ⟨sequence, frames, texts.trans (List.prefix_append _ _),
      fun open' => absurd closing open'⟩
  next accepting =>
    have texts' : (sequence ++ [item]).filterMap Enqueued.text = arrived ++ item.text.toList := by
      rw [List.filterMap_append, all accepting]
      cases found : item.text <;> simp [found]
    refine ⟨sequence ++ [item], ?_, texts' ▸ List.prefix_rfl, fun _ => texts'⟩
    simp only [frames, List.map_append, List.map_cons, List.map_nil, frame]

theorem message (accepts : AcceptsFirst arrived s) (what : Str) :
    AcceptsFirst (arrived ++ [what]) (s.enqueue fieldData what) :=
  accepts.enqueue (rfl : (Enqueued.message what).frame = _)

theorem pong (accepts : AcceptsFirst arrived s) : AcceptsFirst arrived s.pong := by
  unfold EventStream.pong
  split
  · have pinged := accepts.enqueue (rfl : Enqueued.ping.frame = EventStream.frame [] [chr '\n'])
    have text : arrived ++ Enqueued.ping.text.toList = arrived := List.append_nil arrived
    rw [text] at pinged
    exact pinged.same (Onward.same rfl rfl rfl) rfl
  · exact accepts

/-- A step at which no message arrives. -/
theorem step_silent {event : Event} (accepts : AcceptsFirst arrived s)
    (taken : s.step event = some t) (silent : event.text = none) : AcceptsFirst arrived t := by
  have onward := Onward.step taken
  cases step_effect taken with
  | enqueue => cases silent
  | pong _ pings =>
      have waited : AcceptsFirst arrived { s with pings } := accepts
      exact waited.pong
  | terminate =>
      refine accepts.same onward ?_
      unfold EventStream.terminate
      split <;> rfl
  | process _ len =>
      refine accepts.same onward ?_
      unfold generate process
      cases state : s.state <;> simp [sendChunk, state, Except.map]
  | runTask =>
      refine accepts.same onward ?_
      unfold EventStream.runTask
      split <;> rfl
  | own | activate | pingExpire | pingAborted | onClose | destroy =>
      exact accepts.same onward rfl

theorem step {event : Event} (accepts : AcceptsFirst arrived s) (taken : s.step event = some t) :
    AcceptsFirst (arrived ++ event.text.toList) t := by
  cases arrives : event.text with
  | none =>
      rw [Option.toList_none, List.append_nil]
      exact accepts.step_silent taken arrives
  | some what =>
      cases step_effect taken with
      | enqueue =>
          cases arrives
          exact accepts.message what
      | _ => cases arrives

theorem run {events : List Event} (run : Run EventStream.step EventStream.initial events s) :
    AcceptsFirst (events.filterMap Event.text) s := by
  induction run with
  | nil => exact initial
  | @snoc _ _ _ event _ taken ih =>
      have further := ih.step taken
      rw [List.filterMap_append]
      cases arrives : event.text with
      | none => simpa [arrives] using further
      | some what => simpa [arrives] using further

/-- What a client has read is the beginning of what has arrived, and all of it when the
stream waits for events. -/
theorem received (accepts : AcceptsFirst arrived s) (faithful : Faithful s)
    (noReturn : ∀ what ∈ arrived, chr '\r' ∉ what) :
    EventSource.events s.sent <+: arrived.map messageEvent ∧
      (s.state = .waitingForEvents → EventSource.events s.sent = arrived.map messageEvent) := by
  obtain ⟨sequence, frames, texts, all⟩ := accepts
  have plain : ∀ what, .message what ∈ sequence → chr '\r' ∉ what := by
    intro what member
    exact noReturn what (texts.subset (List.mem_filterMap.mpr ⟨_, member, rfl⟩))
  have read := received_frames faithful frames plain
  constructor
  · exact read.1.trans (texts.map messageEvent)
  · intro waiting
    have accepting : ¬s.Closing := by simp [Closing, waiting]
    rw [read.2 waiting, all accepting]

end AcceptsFirst

/-! ## Activation and destruction happen once -/

@[simp] theorem enqueue_activated (s : EventStream) (fieldName what : Str) :
    (s.enqueue fieldName what).activated = s.activated := by
  unfold enqueue
  split <;> rfl

/-- Only `activate` activates the stream. -/
theorem activated_of_step {s t : EventStream} {event : Event} (taken : s.step event = some t)
    (other : event ≠ .activate) : t.activated = s.activated := by
  cases step_effect taken with
  | enqueue => simp
  | terminate =>
      unfold terminate
      split <;> rfl
  | activate => exact absurd rfl other
  | process _ len =>
      unfold generate process
      cases state : s.state <;> simp [sendChunk, state, Except.map]
  | runTask =>
      unfold runTask
      split <;> rfl
  | pong =>
      unfold pong
      split
      · exact enqueue_activated _ [] [chr '\n']
      · rfl
  | own | pingExpire | pingAborted | onClose | destroy => rfl

theorem activated_of_activate {s t : EventStream} (taken : s.step .activate = some t) :
    s.activated = false ∧ t.activated = true := by
  simp only [step] at taken
  split at taken <;> cases taken
  next ready => exact ⟨ready.2, rfl⟩

theorem phase_of_destroy {s t : EventStream} (taken : s.step .destroy = some t) :
    t.phase = .destroyed := by
  simp only [step] at taken
  split at taken <;> cases taken
  rfl

/-- A destroyed object stays destroyed. -/
theorem destroyed_of_step {s t : EventStream} {event : Event} (taken : s.step event = some t)
    (destroyed : s.phase = .destroyed) : t.phase = .destroyed := by
  cases step_effect taken with
  | own constructing =>
      rw [destroyed] at constructing
      cases constructing
  | enqueue | terminate | process | runTask | pong => simpa using destroyed
  | activate | pingExpire | pingAborted | onClose => exact destroyed
  | destroy => rfl

end Rousette.Http.EventStream
