import Rousette.Http.EventDelivery
import Rousette.Library.EventSource

/-!
# Framing of events

What a client reads out of the frames which `EventStream::enqueue` builds.  Every message
comes out as one event, whatever newlines it has, and a ping comes out as nothing.
-/

namespace Rousette.Http.EventStream

open Library

/-- What is put into the queue of a stream. -/
inductive Enqueued where
  | message (what : Str)
  /-- by the handler of the timer `ping` -/
  | ping
  deriving DecidableEq, Repr

namespace Enqueued

def frame : Enqueued → Str
  | .message what => EventStream.frame fieldData what
  | .ping => EventStream.frame [] [chr '\n']

/-- The event which a client is to get. -/
def event : Enqueued → Option EventSource.Event
  | .message what => some ⟨str "message", EventSource.withoutLastFeed what, []⟩
  | .ping => none

end Enqueued

/-! ## The lines of a message -/

theorem lines_ne_nil (what : Str) : lines what ≠ [] := by
  cases what with
  | nil => simp [lines]
  | cons c text =>
      simp only [lines]
      split
      · simp
      · split <;> simp

/-- A line has octets of the message only, and none of its newlines. -/
theorem mem_of_mem_lines {what line : Str} (member : line ∈ lines what) :
    ∀ c ∈ line, c ∈ what ∧ c ≠ chr '\n' := by
  induction what generalizing line with
  | nil =>
      rw [lines, List.mem_singleton] at member
      subst member
      exact nofun
  | cons c text ih =>
      simp only [lines] at member
      split at member
      · rcases List.mem_cons.mp member with rfl | further
        · exact nofun
        · split at further
          · cases further
          · exact fun d inside => (ih further d inside).imp_left (List.mem_cons_of_mem c)
      next other =>
        split at member
        next none => exact absurd none (lines_ne_nil text)
        next first rest split =>
          rcases List.mem_cons.mp member with rfl | further
          · intro d inside
            rcases List.mem_cons.mp inside with rfl | inside
            · exact ⟨List.mem_cons_self, other⟩
            · have here := ih (split ▸ List.mem_cons_self) d inside
              exact here.imp_left (List.mem_cons_of_mem c)
          · intro d inside
            have here := ih (split ▸ List.mem_cons_of_mem first further) d inside
            exact here.imp_left (List.mem_cons_of_mem c)

/-- The lines with a newline after each of them. -/
def terminated (what : Str) : Str := (lines what).flatMap fun line => line ++ [chr '\n']

/-- Nothing is lost but a newline at the end, which may stand for itself. -/
theorem terminated_eq (what : Str) :
    terminated what =
      if what.getLast? = some (chr '\n') then what else what ++ [chr '\n'] := by
  induction what with
  | nil => rfl
  | cons c text ih =>
      cases text with
      | nil =>
          by_cases newline : c = chr '\n' <;> simp [terminated, lines, newline]
      | cons d text =>
          have last : (c :: d :: text).getLast? = (d :: text).getLast? := List.getLast?_cons_cons
          rw [last]
          have step : terminated (c :: d :: text) = c :: terminated (d :: text) := by
            unfold terminated
            rw [lines]
            split
            next newline => simp [newline]
            · split
              next none => exact absurd none (lines_ne_nil _)
              next first rest split => simp [split]
          rw [step, ih]
          split <;> rfl

theorem withoutLastFeed_terminated (what : Str) :
    EventSource.withoutLastFeed (terminated what) = EventSource.withoutLastFeed what := by
  rw [terminated_eq]
  split
  · rfl
  next other => simp [EventSource.withoutLastFeed, EventSource.lineFeed, other]

theorem terminated_ne_nil (what : Str) : terminated what ≠ [] := by
  rw [terminated_eq]
  split
  next last =>
    rintro rfl
    cases last
  · simp

/-! ## The lines of a frame -/

/-- The lines of a frame up to the empty one at its end. -/
def fieldLines (fieldName what : Str) : List Str :=
  (lines what).map fun line => fieldName ++ str ": " ++ line

theorem frame_eq (fieldName what : Str) :
    frame fieldName what =
      (fieldLines fieldName what ++ [[]]).flatMap fun line => line ++ [EventSource.lineFeed] := by
  rw [List.flatMap_append, fieldLines, List.flatMap_map]
  rfl

/-- A client takes the lines of a frame apart again. -/
theorem lines_flatMap {texts : List Str} (oneLine : ∀ text ∈ texts, EventSource.IsOneLine text)
    (rest : Str) :
    EventSource.lines
        ((texts.flatMap fun line => line ++ [EventSource.lineFeed]) ++ rest) =
      texts ++ EventSource.lines rest := by
  induction texts with
  | nil => rfl
  | cons text texts ih =>
      obtain ⟨first, others⟩ := List.forall_mem_cons.mp oneLine
      have further := EventSource.lines_cons first
        ((texts.flatMap fun line => line ++ [EventSource.lineFeed]) ++ rest)
      rw [ih others] at further
      simpa using further

theorem isOneLine_fieldLines {fieldName what : Str}
    (plainName : EventSource.IsOneLine fieldName) (noReturn : chr '\r' ∉ what) :
    ∀ text ∈ fieldLines fieldName what, EventSource.IsOneLine text := by
  intro text member
  obtain ⟨line, inside, rfl⟩ := List.mem_map.mp member
  have separator : EventSource.IsOneLine (str ": ") := ⟨by decide, by decide⟩
  refine (plainName.append separator).append ⟨?_, ?_⟩
  · exact fun feed => (mem_of_mem_lines inside _ feed).2 rfl
  · exact fun carriage => noReturn (mem_of_mem_lines inside _ carriage).1

theorem lines_frame {fieldName what : Str} (plainName : EventSource.IsOneLine fieldName)
    (noReturn : chr '\r' ∉ what) (rest : Str) :
    EventSource.lines (frame fieldName what ++ rest) =
      fieldLines fieldName what ++ [[]] ++ EventSource.lines rest := by
  rw [frame_eq]
  apply lines_flatMap
  intro text member
  rcases List.mem_append.mp member with field | last
  · exact isOneLine_fieldLines plainName noReturn text field
  · rw [List.mem_singleton.mp last]
    exact ⟨by decide, by decide⟩

/-! ## What a client collects -/

/-- A line of a message is appended to the data, as the blank after the colon is not a part of
its value. -/
theorem processLine_data (reader : EventSource.Reader) (line : Str) :
    EventSource.processLine reader (fieldData ++ str ": " ++ line) =
      { reader with data := reader.data ++ line ++ [chr '\n'] } := rfl

theorem foldl_fieldData (reader : EventSource.Reader) (texts : List Str) :
    (texts.map fun line => fieldData ++ str ": " ++ line).foldl EventSource.processLine reader =
      { reader with
        data := reader.data ++ texts.flatMap fun line => line ++ [chr '\n'] } := by
  induction texts generalizing reader with
  | nil => simp
  | cons text texts ih =>
      rw [List.map_cons, List.foldl_cons, processLine_data, ih]
      simp

/-- A client between two events, after some of them. -/
def between (dispatched : List EventSource.Event) : EventSource.Reader :=
  { EventSource.initial with dispatched }

/-- A client reads the frame of a message or of a ping. -/
theorem read_frame {item : Enqueued} (noReturn : ∀ what, item = .message what → chr '\r' ∉ what)
    (dispatched : List EventSource.Event) (rest : Str) :
    (EventSource.lines (item.frame ++ rest)).foldl EventSource.processLine
        (between dispatched) =
      (EventSource.lines rest).foldl EventSource.processLine
        (between (dispatched ++ item.event.toList)) := by
  cases item with
  | message what =>
      have plain : EventSource.IsOneLine fieldData := ⟨by decide, by decide⟩
      have split := lines_frame plain (noReturn what rfl) rest
      have some := terminated_ne_nil what
      have collected := foldl_fieldData (between dispatched) (lines what)
      rw [Enqueued.frame, split, List.foldl_append, List.foldl_append, fieldLines, collected]
      change List.foldl _ (EventSource.dispatch
        { between dispatched with data := terminated what }) _ = _
      simp [EventSource.dispatch, between, EventSource.initial, some, Enqueued.event,
        withoutLastFeed_terminated]
  | ping =>
      have plain : EventSource.IsOneLine [] := ⟨by decide, by decide⟩
      have split := @lines_frame [] [chr '\n'] plain (by decide) rest
      rw [Enqueued.frame, split, List.foldl_append]
      -- the comment sets nothing, so that there is no data at the empty line
      simp [Enqueued.event]
      rfl

theorem read_frames {sequence : List Enqueued}
    (noReturn : ∀ what, .message what ∈ sequence → chr '\r' ∉ what)
    (dispatched : List EventSource.Event) :
    (EventSource.lines (sequence.flatMap Enqueued.frame)).foldl EventSource.processLine
        (between dispatched) =
      between (dispatched ++ sequence.filterMap Enqueued.event) := by
  induction sequence generalizing dispatched with
  | nil => simp [EventSource.lines, EventSource.linesFrom]
  | cons item sequence ih =>
      have first := @read_frame item (fun what same => noReturn what (same ▸ List.mem_cons_self))
        dispatched (sequence.flatMap Enqueued.frame)
      have others := ih (fun what member => noReturn what (List.mem_cons_of_mem _ member))
        (dispatched ++ item.event.toList)
      rw [List.flatMap_cons, first, others, List.append_assoc]
      cases event : item.event <;> simp [event]

/-- A frame begins with the name of its field and a colon. -/
theorem frame_begins (fieldName what : Str) :
    fieldName ++ str ": " <+: frame fieldName what := by
  unfold frame
  cases split : lines what with
  | nil => exact absurd split (lines_ne_nil what)
  | cons line rest => simp [List.append_assoc]

/-- No frame begins with a byte order mark. -/
theorem head?_frames (sequence : List Enqueued) :
    (sequence.flatMap Enqueued.frame).head? ≠ some 0xEF := by
  cases sequence with
  | nil => simp
  | cons item sequence =>
      rw [List.flatMap_cons, List.head?_append]
      cases item with
      | message what =>
          obtain ⟨rest, begins⟩ := frame_begins fieldData what
          rw [Enqueued.frame, ← begins]
          exact nofun
      | ping =>
          obtain ⟨rest, begins⟩ := frame_begins [] [chr '\n']
          rw [Enqueued.frame, ← begins]
          exact nofun

theorem read_flatMap {sequence : List Enqueued}
    (noReturn : ∀ what, .message what ∈ sequence → chr '\r' ∉ what) :
    EventSource.read (sequence.flatMap Enqueued.frame) =
      between (sequence.filterMap Enqueued.event) := by
  rw [EventSource.read, EventSource.withoutByteOrderMark_of_head (head?_frames sequence)]
  exact read_frames noReturn []

/-- However messages without carriage returns and pings follow each other, a client gets one
event for each message, in their order, with the message as its data up to one newline at the
end, and none for a ping. -/
theorem events_frames {sequence : List Enqueued}
    (noReturn : ∀ what, .message what ∈ sequence → chr '\r' ∉ what) :
    EventSource.events (sequence.flatMap Enqueued.frame) =
      sequence.filterMap Enqueued.event :=
  congrArg EventSource.Reader.dispatched (read_flatMap noReturn)

/-- Newlines everywhere, blanks and colons at the beginning, and nothing at all. -/
theorem events_frames_newlines :
    EventSource.events
        ([.message (str "\n\n a\n\n"), .ping, .message [], .message (str ": b\nc")].flatMap
          Enqueued.frame) =
      [⟨str "message", str "\n\n a\n", []⟩, ⟨str "message", [], []⟩,
        ⟨str "message", str ": b\nc", []⟩] := by
  refine (events_frames ?_).trans rfl
  intro what member
  simp only [List.mem_cons, Enqueued.message.injEq, reduceCtorEq, List.not_mem_nil, or_false,
    false_or] at member
  rcases member with rfl | rfl | rfl <;> decide

/-! ## What a client gets along a run -/

/-- The text of a message. -/
def Enqueued.text : Enqueued → Option Str
  | .message what => some what
  | .ping => none

/-- The message which arrives at a step. -/
def Event.text : Event → Option Str
  | .enqueue what => some what
  | _ => none

/-- The event with a message as its data. -/
def messageEvent (what : Str) : EventSource.Event :=
  ⟨str "message", EventSource.withoutLastFeed what, []⟩

theorem filterMap_event (sequence : List Enqueued) :
    sequence.filterMap Enqueued.event = (sequence.filterMap Enqueued.text).map messageEvent := by
  rw [List.map_filterMap]
  congr 1
  funext item
  cases item <;> rfl

/-- What was accepted are messages out of those which have arrived, in their order, and pings. -/
def Accepts (events : List Event) (s : EventStream) : Prop :=
  ∃ sequence : List Enqueued, s.accepted = sequence.map Enqueued.frame ∧
    (sequence.filterMap Enqueued.text).Sublist (events.filterMap Event.text)

namespace Accepts

variable {s t : EventStream} {events : List Event}

/-- A step which does not enqueue. -/
theorem same (accepts : Accepts events s) (accepted : t.accepted = s.accepted) (event : Event) :
    Accepts (events ++ [event]) t := by
  obtain ⟨sequence, frames, texts⟩ := accepts
  refine ⟨sequence, accepted.trans frames, texts.trans ?_⟩
  rw [List.filterMap_append]
  exact List.sublist_append_left _ _

/-- A step which enqueues an item, unless the stream is closing. -/
theorem enqueue (accepts : Accepts events s) {item : Enqueued} {fieldName what : Str}
    (frame : item.frame = EventStream.frame fieldName what) {event : Event}
    (arrives : item.text.toList.Sublist event.text.toList) :
    Accepts (events ++ [event]) (s.enqueue fieldName what) := by
  unfold EventStream.enqueue
  split
  · exact accepts.same rfl event
  · obtain ⟨sequence, frames, texts⟩ := accepts
    refine ⟨sequence ++ [item], ?_, ?_⟩
    · simp only [frames, List.map_append, List.map_cons, List.map_nil, frame]
    · rw [List.filterMap_append, List.filterMap_append]
      refine texts.append ?_
      cases found : item.text <;> cases came : event.text <;>
        simp only [found, came, Option.toList, List.filterMap_cons, List.filterMap_nil]
          at arrives ⊢ <;>
        exact arrives

theorem step {event : Event} (accepts : Accepts events s) (taken : s.step event = some t) :
    Accepts (events ++ [event]) t := by
  cases step_effect taken with
  | enqueue _ what =>
      have frame : (Enqueued.message what).frame = EventStream.frame fieldData what := rfl
      exact accepts.enqueue frame (List.Sublist.refl _)
  | pong _ pings =>
      unfold pong
      split
      next owned =>
        have waited : Accepts events { s with pings } := accepts
        have frame : Enqueued.ping.frame = EventStream.frame [] [chr '\n'] := rfl
        exact waited.enqueue frame (List.nil_sublist _)
      · exact accepts.same rfl _
  | terminate =>
      refine accepts.same ?_ _
      unfold EventStream.terminate
      split <;> rfl
  | process _ len =>
      refine accepts.same ?_ _
      unfold generate process
      cases state : s.state <;> simp [sendChunk, state, Except.map]
  | runTask =>
      refine accepts.same ?_ _
      unfold EventStream.runTask
      split <;> rfl
  | own | activate | pingExpire | pingAborted | onClose | destroy => exact accepts.same rfl _

theorem run (run : Run EventStream.step initial events s) : Accepts events s := by
  induction run with
  | nil => exact ⟨[], rfl, List.Sublist.refl _⟩
  | snoc _ taken ih => exact ih.step taken

end Accepts

/-- What a client has read when the accepted frames are those of a sequence: the beginning of
its messages, and all of them when the stream waits for events. -/
theorem received_frames {s : EventStream} (faithful : Faithful s) {sequence : List Enqueued}
    (frames : s.accepted = sequence.map Enqueued.frame)
    (plain : ∀ what, .message what ∈ sequence → chr '\r' ∉ what) :
    EventSource.events s.sent <+: (sequence.filterMap Enqueued.text).map messageEvent ∧
      (s.state = .waitingForEvents →
        EventSource.events s.sent = (sequence.filterMap Enqueued.text).map messageEvent) := by
  have all : s.accepted.flatten = sequence.flatMap Enqueued.frame := by
    rw [frames, List.flatMap]
  have whole : EventSource.events s.accepted.flatten =
      (sequence.filterMap Enqueued.text).map messageEvent := by
    rw [all, ← filterMap_event]
    exact congrArg EventSource.Reader.dispatched (read_flatMap plain)
  have begins : s.sent <+: s.accepted.flatten := ⟨_, faithful.conserved⟩
  constructor
  · rw [← whole]
    exact EventSource.events_isPrefix begins (all ▸ head?_frames sequence)
  · intro waiting
    have conserved := faithful.conserved
    rw [faithful.waiting waiting, List.flatten_nil, List.append_nil] at conserved
    rw [conserved, whole]

/-- In every reachable state a client which was sent messages without carriage returns has got
events for messages out of those which have arrived, in their order and each at most once; and
for all which were accepted when the stream waits for events. -/
theorem received_in_order {events : List Event} {s : EventStream}
    (run : Run EventStream.step initial events s)
    (noReturn : ∀ what, .enqueue what ∈ events → chr '\r' ∉ what) :
    ∃ messages : List Str, messages.Sublist (events.filterMap Event.text) ∧
      EventSource.events s.sent <+: messages.map messageEvent ∧
      (s.state = .waitingForEvents → EventSource.events s.sent = messages.map messageEvent) := by
  have faithful := Faithful.run run
  obtain ⟨sequence, frames, texts⟩ := Accepts.run run
  have plain : ∀ what, .message what ∈ sequence → chr '\r' ∉ what := by
    intro what member
    have arrived := texts.subset (List.mem_filterMap.mpr ⟨_, member, rfl⟩)
    obtain ⟨event, among, text⟩ := List.mem_filterMap.mp arrived
    cases event with
    | enqueue other =>
        cases text
        exact noReturn _ among
    | _ => cases text
  exact ⟨_, texts, received_frames faithful frames plain⟩

end Rousette.Http.EventStream
