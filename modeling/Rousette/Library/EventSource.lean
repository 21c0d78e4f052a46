import Rousette.Library.Text

/-!
# Interpretation of event streams

What a client of server-sent events makes of the octets which it receives, as the HTML
standard defines it.  A stream is a sequence of lines, which end with CR LF, with LF or
with CR alone.  A line sets a field of the event which is being collected, and an empty
line dispatches that event, unless it has no data.

Line ends, colons and blanks are never a part of a longer UTF-8 sequence, so that nothing
depends on whether lines are taken apart before or after decoding.
-/

namespace Rousette.Library.EventSource

/-- A dispatched event. -/
structure Event where
  type : Str
  data : Str
  lastEventId : Str
  deriving DecidableEq, Repr

/-- The buffers of the parser and the events which were dispatched. -/
structure Reader where
  data : Str
  eventType : Str
  lastEventId : Str
  reconnectionTime : Option Str
  dispatched : List Event
  deriving DecidableEq, Repr

def lineFeed : UInt8 := chr '\n'

def carriageReturn : UInt8 := chr '\r'

/-! ## Lines -/

/-- The lines of the rest of a stream.  The beginning of the first one was already read, and
a line feed right after a carriage return belongs to the same line end. -/
def linesFrom (line : Str) (afterReturn : Bool) : Str → List Str
  | [] => []
  | c :: rest =>
      if c = lineFeed then
        if afterReturn then linesFrom [] false rest else line :: linesFrom [] false rest
      else if c = carriageReturn then line :: linesFrom [] true rest
      else linesFrom (line ++ [c]) false rest

/-- The lines of a stream; what follows the last line end is discarded. -/
def lines (stream : Str) : List Str := linesFrom [] false stream

/-- A leading byte order mark is not a part of the text. -/
def withoutByteOrderMark : Str → Str
  | 0xEF :: 0xBB :: 0xBF :: rest => rest
  | stream => stream

/-! ## Fields -/

/-- The name of the field which a line sets, and its value without one leading blank. -/
def fieldOf (line : Str) : Str × Str :=
  let name := line.takeWhile (· != chr ':')
  match line.dropWhile (· != chr ':') with
  | [] => (name, [])
  | _ :: value => (name, if value.head? = some (chr ' ') then value.tail else value)

def processField (reader : Reader) (name value : Str) : Reader :=
  if name = str "event" then { reader with eventType := value }
  else if name = str "data" then { reader with data := reader.data ++ value ++ [lineFeed] }
  else if name = str "id" then
    if value.contains 0 then reader else { reader with lastEventId := value }
  else if name = str "retry" then
    if value.all Ascii.isDigit then { reader with reconnectionTime := some value } else reader
  else reader

/-- A text without the line feed at its end, if it has one. -/
def withoutLastFeed (text : Str) : Str :=
  if text.getLast? = some lineFeed then text.dropLast else text

def dispatch (reader : Reader) : Reader :=
  if reader.data = [] then { reader with eventType := [] }
  else
    let type := if reader.eventType = [] then str "message" else reader.eventType
    { reader with
      data := []
      eventType := []
      dispatched :=
        reader.dispatched ++ [⟨type, withoutLastFeed reader.data, reader.lastEventId⟩] }

def processLine (reader : Reader) (line : Str) : Reader :=
  if line = [] then dispatch reader
  else if line.head? = some (chr ':') then reader
  else processField reader (fieldOf line).1 (fieldOf line).2

/-- Nothing was read yet. -/
def initial : Reader where
  data := []
  eventType := []
  lastEventId := []
  reconnectionTime := none
  dispatched := []

/-- The parser after it has read a stream. -/
def read (stream : Str) : Reader :=
  (lines (withoutByteOrderMark stream)).foldl processLine initial

/-- The events which a stream dispatches. -/
def events (stream : Str) : List Event := (read stream).dispatched

/-! ## Reading a line -/

/-- Does the text have no line end? -/
def IsOneLine (text : Str) : Prop := lineFeed ∉ text ∧ carriageReturn ∉ text

theorem IsOneLine.append {text other : Str} (first : IsOneLine text) (second : IsOneLine other) :
    IsOneLine (text ++ other) :=
  ⟨List.not_mem_append first.1 second.1, List.not_mem_append first.2 second.2⟩

theorem linesFrom_line {text : Str} (oneLine : IsOneLine text) (line rest : Str) :
    linesFrom line false (text ++ lineFeed :: rest) = (line ++ text) :: lines rest := by
  induction text generalizing line with
  | nil => simp [linesFrom, lines]
  | cons c text ih =>
      obtain ⟨noFeed, noReturn⟩ := oneLine
      rw [List.mem_cons, not_or] at noFeed noReturn
      have further := ih ⟨noFeed.2, noReturn.2⟩ (line ++ [c])
      simp only [List.cons_append, linesFrom, Ne.symm noFeed.1, Ne.symm noReturn.1, if_false,
        further, List.append_assoc, List.nil_append]

/-- The first line of a stream. -/
theorem lines_cons {text : Str} (oneLine : IsOneLine text) (rest : Str) :
    lines (text ++ lineFeed :: rest) = text :: lines rest :=
  linesFrom_line oneLine [] rest

/-- What was read does not change when more arrives. -/
theorem linesFrom_isPrefix (stream more line : Str) (afterReturn : Bool) :
    linesFrom line afterReturn stream <+: linesFrom line afterReturn (stream ++ more) := by
  induction stream generalizing line afterReturn with
  | nil => exact List.nil_prefix
  | cons c rest ih =>
      simp only [List.cons_append, linesFrom]
      split
      · split
        · exact ih [] false
        · exact List.cons_prefix_cons.mpr ⟨rfl, ih [] false⟩
      · split
        · exact List.cons_prefix_cons.mpr ⟨rfl, ih [] true⟩
        · exact ih (line ++ [c]) false

/-! ## Events stay dispatched -/

theorem processField_dispatched (reader : Reader) (name value : Str) :
    (processField reader name value).dispatched = reader.dispatched := by
  unfold processField
  split
  · rfl
  split
  · rfl
  split
  · split <;> rfl
  split
  · split <;> rfl
  · rfl

theorem processLine_isPrefix (reader : Reader) (line : Str) :
    reader.dispatched <+: (processLine reader line).dispatched := by
  unfold processLine
  split
  · unfold dispatch
    split
    · exact List.prefix_rfl
    · exact List.prefix_append _ _
  split
  · exact List.prefix_rfl
  · simp only [processField_dispatched, List.prefix_rfl]

theorem foldl_processLine_isPrefix (lines : List Str) (reader : Reader) :
    reader.dispatched <+: (lines.foldl processLine reader).dispatched := by
  induction lines generalizing reader with
  | nil => exact List.prefix_rfl
  | cons line lines ih => exact (processLine_isPrefix reader line).trans (ih _)

/-- A byte order mark begins with an octet of its own. -/
theorem withoutByteOrderMark_of_head {stream : Str} (other : stream.head? ≠ some 0xEF) :
    withoutByteOrderMark stream = stream := by
  unfold withoutByteOrderMark
  split
  · exact absurd rfl other
  · rfl

/-- The events of a stream without a byte order mark are the first ones when more arrives. -/
theorem events_isPrefix {stream whole : Str} (begins : stream <+: whole)
    (noMark : whole.head? ≠ some 0xEF) : events stream <+: events whole := by
  obtain ⟨more, rfl⟩ := begins
  have noMarkBefore : stream.head? ≠ some 0xEF := by
    intro mark
    rw [List.head?_append, mark] at noMark
    exact noMark rfl
  unfold events read
  rw [withoutByteOrderMark_of_head noMark, withoutByteOrderMark_of_head noMarkBefore]
  obtain ⟨further, all⟩ := linesFrom_isPrefix stream more [] false
  rw [lines, lines, ← all, List.foldl_append]
  exact foldl_processLine_isPrefix further _

end Rousette.Library.EventSource
