import Rousette.Restconf.UriPhrases

/-!
# Phrases of query strings

The grammar of query strings without any order between its alternatives.  The nine
parameters differ in the phrases of their values: numbers, words, paths, percent-encoded
texts, dates, and the nested expressions of `fields`.
-/

namespace Rousette.Restconf.Impl

open Library

namespace Grammar

open Parser QueryParams

/-! ## Dates -/

/-- A fixed number of digits. -/
structure Digits (count : Nat) where
  text : Str
  length : text.length = count
  areDigits : ∀ c ∈ text, Ascii.isDigit c = true

/-- The digits of the fraction of a second. -/
structure Fraction where
  text : Str
  nonempty : text ≠ []
  areDigits : ∀ c ∈ text, Ascii.isDigit c = true

inductive Timezone where
  | zulu
  | offset (negative : Bool) (hour minute : Digits 2)

def Timezone.text : Timezone → Str
  | .zulu => str "Z"
  | .offset negative hour minute =>
      (if negative then str "-" else str "+") ++ hour.text ++ str ":" ++ minute.text

/-- A point in time in the format of YANG. -/
structure DateAndTime where
  year : Digits 4
  month : Digits 2
  day : Digits 2
  hour : Digits 2
  minute : Digits 2
  second : Digits 2
  fraction : Option Fraction
  timezone : Timezone

def fractionText : Option Fraction → Str
  | none => []
  | some fraction => str "." ++ fraction.text

def DateAndTime.text (time : DateAndTime) : Str :=
  time.year.text ++ str "-" ++ time.month.text ++ str "-" ++ time.day.text ++ str "T" ++
    time.hour.text ++ str ":" ++ time.minute.text ++ str ":" ++ time.second.text ++
    fractionText time.fraction ++ time.timezone.text

/-! ## Fields -/

/-- The operators of a `fields` expression, the one which binds tightest first. -/
inductive FieldsLevel where
  | slash
  | paren
  | semi

/-- A `fields` expression, whose operands are expressions of the level below. -/
inductive FieldsPhrase : FieldsLevel → Type where
  | name (ident : ApiName) : FieldsPhrase .slash
  | slash (ident : ApiName) (rhs : FieldsPhrase .slash) : FieldsPhrase .slash
  | path (lhs : FieldsPhrase .slash) : FieldsPhrase .paren
  | paren (lhs : FieldsPhrase .slash) (rhs : FieldsPhrase .semi) : FieldsPhrase .paren
  | single (lhs : FieldsPhrase .paren) : FieldsPhrase .semi
  | semi (lhs : FieldsPhrase .paren) (rhs : FieldsPhrase .semi) : FieldsPhrase .semi

namespace FieldsPhrase

def text {level : FieldsLevel} : FieldsPhrase level → Str
  | .name ident => ident.text
  | .slash ident rhs => ident.text ++ str "/" ++ rhs.text
  | .path lhs => lhs.text
  | .paren lhs rhs => lhs.text ++ str "(" ++ rhs.text ++ str ")"
  | .single lhs => lhs.text
  | .semi lhs rhs => lhs.text ++ str ";" ++ rhs.text

def value {level : FieldsLevel} : FieldsPhrase level → FieldsExpr
  | .name ident => .slash ident.value none
  | .slash ident rhs => .slash ident.value (some rhs.value)
  | .path lhs => .paren lhs.value none
  | .paren lhs rhs => .paren lhs.value (some rhs.value)
  | .single lhs => .semi lhs.value none
  | .semi lhs rhs => .semi lhs.value (some rhs.value)

end FieldsPhrase

/-! ## Parameters -/

/-- The words of `with-defaults`. -/
def withDefaultsWords : List (String × QueryParamValue) :=
  [("trim", .trim), ("explicit", .explicit), ("report-all", .reportAll),
    ("report-all-tagged", .reportAllTagged)]

/-- The words of `content`. -/
def contentWords : List (String × QueryParamValue) :=
  [("all", .allNodes), ("nonconfig", .onlyNonConfigNodes), ("config", .onlyConfigNodes)]

/-- The words of `insert`. -/
def insertWords : List (String × QueryParamValue) :=
  [("first", .first), ("last", .last), ("after", .after), ("before", .before)]

/-- An octet which needs no encoding in a filter. -/
def isFilterChar (c : UInt8) : Bool := c != chr '&' && c != chr '%'

inductive ParamPhrase where
  | depth (zeros value : Nat) (inRange : 0 < value ∧ value < 65536)
  | unboundedDepth
  | withDefaults (word : String × QueryParamValue) (known : word ∈ withDefaultsWords)
  | content (word : String × QueryParamValue) (known : word ∈ contentWords)
  | insert (word : String × QueryParamValue) (known : word ∈ insertWords)
  | point (path : Path)
  | filter (octets : List (Octet isFilterChar)) (nonempty : octets ≠ [])
  | startTime (time : DateAndTime)
  | stopTime (time : DateAndTime)
  | fields (expr : FieldsPhrase .semi)

namespace ParamPhrase

def text : ParamPhrase → Str
  | .depth zeros value _ => str "depth=" ++ List.replicate zeros (chr '0') ++ decimal value
  | .unboundedDepth => str "depth=unbounded"
  | .withDefaults word _ => str "with-defaults=" ++ str word.1
  | .content word _ => str "content=" ++ str word.1
  | .insert word _ => str "insert=" ++ str word.1
  | .point path => str "point=" ++ path.text
  | .filter octets _ => str "filter=" ++ octets.flatMap Octet.text
  | .startTime time => str "start-time=" ++ time.text
  | .stopTime time => str "stop-time=" ++ time.text
  | .fields expr => str "fields=" ++ expr.text

def value : ParamPhrase → Str × QueryParamValue
  | .depth _ value _ => (str "depth", .depth value)
  | .unboundedDepth => (str "depth", .unboundedDepth)
  | .withDefaults word _ => (str "with-defaults", word.2)
  | .content word _ => (str "content", word.2)
  | .insert word _ => (str "insert", word.2)
  | .point path => (str "point", .pointParsed path.value)
  | .filter octets _ => (str "filter", .text (octets.map Octet.value))
  | .startTime time => (str "start-time", .text time.text)
  | .stopTime time => (str "stop-time", .text time.text)
  | .fields expr => (str "fields", .fields expr.value)

/-- Is it a point without segments? -/
def isEmptyPoint : ParamPhrase → Bool
  | .point path => !path.hasSegments
  | _ => false

end ParamPhrase

/-- Parameters of which only the last one may be a point without segments. -/
def EmptyPointLast : List ParamPhrase → Prop
  | [] => True
  | param :: params => (param.isEmptyPoint = true → params = []) ∧ EmptyPointLast params

/-- The whole query string. -/
def queryText (params : List ParamPhrase) : Str := join (str "&") (params.map ParamPhrase.text)

/-! ## Recognition of dates -/

@[simp] theorem char_eq_ok {c : Char} {input rest : Str} {d : UInt8} :
    char c input = .ok d rest ↔ input = chr c :: rest ∧ d = chr c := by
  unfold char
  rw [satisfy_eq_ok, beq_iff_eq]
  constructor
  · rintro ⟨rfl, rfl⟩
    exact ⟨rfl, rfl⟩
  · rintro ⟨rfl, rfl⟩
    exact ⟨rfl, rfl⟩

theorem digit_eq_ok {input rest : Str} {c : UInt8} :
    digit input = .ok c rest ↔ input = c :: rest ∧ Ascii.isDigit c = true :=
  satisfy_eq_ok

theorem recognizes_twoDigits :
    Recognizes twoDigits (Digits.text : Digits 2 → Str) Digits.text (fun _ => True) := by
  constructor
  case sound =>
    intro input result rest parsed
    simp only [twoDigits, bind_eq_ok, expect_eq_ok, digit_eq_ok] at parsed
    obtain ⟨first, _, ⟨rfl, isFirst⟩, second, _, ⟨rfl, isSecond⟩, finished⟩ := parsed
    cases finished
    exact ⟨⟨[first, second], rfl, by simp [isFirst, isSecond]⟩, rfl, rfl⟩
  case complete =>
    rintro ⟨text, length, areDigits⟩ rest -
    obtain ⟨first, second, rfl⟩ := List.length_eq_two.mp length
    simp only [List.forall_mem_cons] at areDigits
    simp only [twoDigits, bind_eq_ok, expect_eq_ok, digit_eq_ok]
    exact ⟨first, _, ⟨rfl, areDigits.1⟩, second, _, ⟨rfl, areDigits.2.1⟩, rfl⟩

theorem recognizes_year :
    Recognizes year (Digits.text : Digits 4 → Str) Digits.text (fun _ => True) := by
  constructor
  case sound =>
    intro input result rest parsed
    simp only [year, replicate, bind_eq_ok, expect_eq_ok, digit_eq_ok] at parsed
    obtain ⟨a, _, ⟨rfl, isA⟩, _, _, ⟨b, _, ⟨rfl, isB⟩, _, _, ⟨c, _, ⟨rfl, isC⟩, _, _,
      ⟨d, _, ⟨rfl, isD⟩, _, _, none, last⟩, third⟩, second⟩, finished⟩ := parsed
    cases none
    cases last
    cases third
    cases second
    cases finished
    exact ⟨⟨[a, b, c, d], rfl, by simp [isA, isB, isC, isD]⟩, rfl, rfl⟩
  case complete =>
    rintro ⟨text, length, areDigits⟩ rest -
    obtain ⟨a, b, c, d, rfl⟩ := List.length_eq_four.mp length
    simp only [List.forall_mem_cons] at areDigits
    simp only [year, replicate, bind_eq_ok, expect_eq_ok, digit_eq_ok]
    exact ⟨a, _, ⟨rfl, areDigits.1⟩, _, _, ⟨b, _, ⟨rfl, areDigits.2.1⟩, _, _,
      ⟨c, _, ⟨rfl, areDigits.2.2.1⟩, _, _, ⟨d, _, ⟨rfl, areDigits.2.2.2.1⟩, _, _, rfl, rfl⟩,
      rfl⟩, rfl⟩, rfl⟩

theorem recognizes_date :
    Recognizes date
      (fun day : Digits 4 × Digits 2 × Digits 2 =>
        day.1.text ++ str "-" ++ day.2.1.text ++ str "-" ++ day.2.2.text)
      (fun day => day.1.text ++ str "-" ++ day.2.1.text ++ str "-" ++ day.2.2.text)
      (fun _ => True) := by
  constructor
  case sound =>
    intro input result rest parsed
    simp only [date, bind_eq_ok, expect_eq_ok, char_eq_ok] at parsed
    obtain ⟨_, _, parsedYear, _, _, ⟨rfl, rfl⟩, _, _, parsedMonth, _, _, ⟨rfl, rfl⟩, _, _,
      parsedDay, finished⟩ := parsed
    obtain ⟨y, rfl, rfl⟩ := recognizes_year.sound parsedYear
    obtain ⟨m, rfl, rfl⟩ := recognizes_twoDigits.sound parsedMonth
    obtain ⟨d, rfl, rfl⟩ := recognizes_twoDigits.sound parsedDay
    cases finished
    exact ⟨(y, m, d), by simp [str, chr], rfl⟩
  case complete =>
    rintro ⟨y, m, d⟩ rest -
    simp only [date, bind_eq_ok, expect_eq_ok, char_eq_ok, List.append_assoc]
    exact ⟨_, _, recognizes_year.complete y trivial, _, _, ⟨rfl, rfl⟩, _, _,
      recognizes_twoDigits.complete m trivial, _, _, ⟨rfl, rfl⟩, _, _,
      recognizes_twoDigits.complete d trivial, by simp [str, chr]⟩

theorem recognizes_timeHHMM :
    Recognizes timeHHMM
      (fun clock : Digits 2 × Digits 2 => clock.1.text ++ str ":" ++ clock.2.text)
      (fun clock => clock.1.text ++ str ":" ++ clock.2.text) (fun _ => True) := by
  constructor
  case sound =>
    intro input result rest parsed
    simp only [timeHHMM, bind_eq_ok, expect_eq_ok, char_eq_ok] at parsed
    obtain ⟨_, _, parsedHour, _, _, ⟨rfl, rfl⟩, _, _, parsedMinute, finished⟩ := parsed
    obtain ⟨h, rfl, rfl⟩ := recognizes_twoDigits.sound parsedHour
    obtain ⟨m, rfl, rfl⟩ := recognizes_twoDigits.sound parsedMinute
    cases finished
    exact ⟨(h, m), by simp [str, chr], rfl⟩
  case complete =>
    rintro ⟨h, m⟩ rest -
    simp only [timeHHMM, bind_eq_ok, expect_eq_ok, char_eq_ok, List.append_assoc]
    exact ⟨_, _, recognizes_twoDigits.complete h trivial, _, _, ⟨rfl, rfl⟩, _, _,
      recognizes_twoDigits.complete m trivial, by simp [str, chr]⟩

theorem recognizes_time :
    Recognizes time
      (fun clock : (Digits 2 × Digits 2) × Digits 2 =>
        clock.1.1.text ++ str ":" ++ clock.1.2.text ++ str ":" ++ clock.2.text)
      (fun clock => clock.1.1.text ++ str ":" ++ clock.1.2.text ++ str ":" ++ clock.2.text)
      (fun _ => True) := by
  constructor
  case sound =>
    intro input result rest parsed
    simp only [time, bind_eq_ok, expect_eq_ok, char_eq_ok] at parsed
    obtain ⟨_, _, parsedMinutes, _, _, ⟨rfl, rfl⟩, _, _, parsedSecond, finished⟩ := parsed
    obtain ⟨minutes, rfl, rfl⟩ := recognizes_timeHHMM.sound parsedMinutes
    obtain ⟨s, rfl, rfl⟩ := recognizes_twoDigits.sound parsedSecond
    cases finished
    exact ⟨(minutes, s), by simp [str, chr], rfl⟩
  case complete =>
    rintro ⟨⟨h, m⟩, s⟩ rest -
    have first : timeHHMM (h.text ++ str ":" ++ m.text ++ (str ":" ++ (s.text ++ rest))) =
        .ok (h.text ++ str ":" ++ m.text) (str ":" ++ (s.text ++ rest)) :=
      recognizes_timeHHMM.complete (h, m) trivial
    simp only [List.append_assoc] at first
    simp only [time, bind_eq_ok, expect_eq_ok, char_eq_ok, List.append_assoc]
    exact ⟨_, _, first, _, _, ⟨rfl, rfl⟩, _, _, recognizes_twoDigits.complete s trivial,
      by simp [str, chr]⟩

theorem recognizes_timeMs :
    Recognizes timeMs (fun fraction : Fraction => str "." ++ fraction.text)
      (fun fraction => str "." ++ fraction.text) (Stops Ascii.isDigit) := by
  constructor
  case sound =>
    intro input result rest parsed
    simp only [timeMs, many1, digit, bind_eq_ok, expect_eq_ok, char_eq_ok] at parsed
    obtain ⟨_, _, ⟨rfl, rfl⟩, _, _, ⟨first, _, parsedFirst, others, _, parsedOthers, list⟩,
      finished⟩ := parsed
    obtain ⟨rfl, isFirst⟩ := satisfy_eq_ok.mp parsedFirst
    obtain ⟨rfl, areOthers⟩ := many_satisfy_eq_ok parsedOthers
    cases list
    cases finished
    exact ⟨⟨first :: others, nofun, List.forall_mem_cons.mpr ⟨isFirst, areOthers⟩⟩, rfl, rfl⟩
  case complete =>
    rintro ⟨text, nonempty, areDigits⟩ rest stops
    cases text with
    | nil => exact absurd rfl nonempty
    | cons first others =>
        obtain ⟨isFirst, areOthers⟩ := List.forall_mem_cons.mp areDigits
        simp only [timeMs, many1, digit, bind_eq_ok, expect_eq_ok, char_eq_ok, satisfy_eq_ok]
        exact ⟨_, _, ⟨rfl, rfl⟩, _, _, ⟨first, _, ⟨rfl, isFirst⟩, others, _,
          many_satisfy_append areOthers stops, rfl⟩, rfl⟩

theorem recognizes_timezone :
    Recognizes timezone Timezone.text Timezone.text (fun _ => True) := by
  constructor
  case sound =>
    intro input result rest parsed
    rcases orElse_eq_ok.mp parsed with zulu | ⟨_, offset⟩
    · simp only [bind_eq_ok, char_eq_ok] at zulu
      obtain ⟨_, _, ⟨rfl, rfl⟩, finished⟩ := zulu
      cases finished
      exact ⟨.zulu, rfl, rfl⟩
    · obtain ⟨_, _, sign, continued⟩ := bind_eq_ok.mp offset
      obtain ⟨_, _, clock, finished⟩ := bind_eq_ok.mp continued
      obtain ⟨⟨h, m⟩, rfl, rfl⟩ := recognizes_timeHHMM.sound (expect_eq_ok.mp clock)
      cases finished
      rcases orElse_eq_ok.mp sign with plus | ⟨_, minus⟩
      · obtain ⟨rfl, rfl⟩ := char_eq_ok.mp plus
        exact ⟨.offset false h m, by simp [Timezone.text, str, chr], by
          simp [Timezone.text, str, chr]⟩
      · obtain ⟨rfl, rfl⟩ := char_eq_ok.mp minus
        exact ⟨.offset true h m, by simp [Timezone.text, str, chr], by
          simp [Timezone.text, str, chr]⟩
  case complete =>
    intro zone rest _
    cases zone with
    | zulu => rfl
    | offset negative h m =>
        have clock : timeHHMM (h.text ++ str ":" ++ m.text ++ rest) =
            .ok (h.text ++ str ":" ++ m.text) rest := recognizes_timeHHMM.complete (h, m) trivial
        simp only [List.append_assoc] at clock
        cases negative with
        | false =>
            refine (orElse_of_fail rfl).trans ?_
            simp only [Timezone.text, Bool.false_eq_true, if_false, bind_eq_ok, expect_eq_ok,
              List.append_assoc]
            exact ⟨chr '+', _, rfl, _, _, clock, rfl⟩
        | true =>
            refine (orElse_of_fail rfl).trans ?_
            simp only [Timezone.text, if_true, bind_eq_ok, expect_eq_ok, List.append_assoc]
            exact ⟨chr '-', _, rfl, _, _, clock, rfl⟩

/-- A timezone begins with neither a digit nor a dot. -/
theorem Timezone.stops (zone : Timezone) (rest : Str) :
    Stops (fun c => Ascii.isDigit c || c == chr '.') (zone.text ++ rest) := by
  cases zone with
  | zulu => exact stops_cons.mpr (by decide)
  | offset negative h m => cases negative <;> exact stops_cons.mpr (by decide)

theorem optional_timeMs (fraction : Option Fraction) {rest : Str}
    (stops : Stops (fun c => Ascii.isDigit c || c == chr '.') rest) :
    ∃ result, Parser.optional timeMs (fractionText fraction ++ rest) = .ok result rest ∧
      result.getD [] = fractionText fraction := by
  cases fraction with
  | none =>
      have noDot : char '.' rest = .fail :=
        satisfy_fail (stops.mono fun c accepted => by simp [accepted])
      refine ⟨none, optional_of_fail ?_, rfl⟩
      change timeMs rest = .fail
      simp only [timeMs, bind_apply, noDot]
  | some fraction =>
      have parsed := recognizes_timeMs.complete fraction
        (stops.mono fun c accepted => by simp [accepted])
      exact ⟨_, optional_of_ok parsed, rfl⟩

theorem optional_timeMs_sound {input rest : Str} {result : Option Str}
    (parsed : Parser.optional timeMs input = .ok result rest) :
    ∃ fraction, input = fractionText fraction ++ rest ∧ result.getD [] = fractionText fraction := by
  rcases optional_eq_ok.mp parsed with ⟨_, rfl, given⟩ | ⟨rfl, rfl, _⟩
  · obtain ⟨fraction, rfl, rfl⟩ := recognizes_timeMs.sound given
    exact ⟨some fraction, rfl, rfl⟩
  · exact ⟨none, rfl, rfl⟩

theorem recognizes_dateAndTime :
    Recognizes dateAndTime DateAndTime.text DateAndTime.text (fun _ => True) := by
  constructor
  case sound =>
    intro input result rest parsed
    simp only [dateAndTime, bind_eq_ok, expect_eq_ok, char_eq_ok] at parsed
    obtain ⟨_, _, parsedDate, _, _, ⟨rfl, rfl⟩, _, _,
      ⟨_, _, parsedTime, _, _, parsedFraction, combined⟩, _, _, parsedZone, finished⟩ := parsed
    obtain ⟨⟨y, mo, d⟩, rfl, rfl⟩ := recognizes_date.sound parsedDate
    obtain ⟨⟨⟨h, mi⟩, s⟩, rfl, rfl⟩ := recognizes_time.sound parsedTime
    obtain ⟨fraction, rfl, given⟩ := optional_timeMs_sound parsedFraction
    obtain ⟨zone, rfl, rfl⟩ := recognizes_timezone.sound parsedZone
    cases combined
    cases finished
    refine ⟨⟨y, mo, d, h, mi, s, fraction, zone⟩, ?_, ?_⟩
    · simp [DateAndTime.text, str, chr]
    · simp [DateAndTime.text, given, str, chr]
  case complete =>
    rintro ⟨y, mo, d, h, mi, s, fraction, zone⟩ rest -
    obtain ⟨result, parsedFraction, given⟩ := optional_timeMs fraction (zone.stops rest)
    have parsedZone : timezone (zone.text ++ rest) = .ok zone.text rest :=
      recognizes_timezone.complete zone trivial
    have parsedTime : time (h.text ++ str ":" ++ mi.text ++ str ":" ++ s.text ++
        (fractionText fraction ++ (zone.text ++ rest))) =
          .ok (h.text ++ str ":" ++ mi.text ++ str ":" ++ s.text)
            (fractionText fraction ++ (zone.text ++ rest)) :=
      recognizes_time.complete ((h, mi), s) trivial
    have parsedDate : date (y.text ++ str "-" ++ mo.text ++ str "-" ++ d.text ++ (str "T" ++
        (h.text ++ str ":" ++ mi.text ++ str ":" ++ s.text ++
          (fractionText fraction ++ (zone.text ++ rest))))) =
        .ok (y.text ++ str "-" ++ mo.text ++ str "-" ++ d.text) (str "T" ++
          (h.text ++ str ":" ++ mi.text ++ str ":" ++ s.text ++
            (fractionText fraction ++ (zone.text ++ rest)))) :=
      recognizes_date.complete (y, mo, d) trivial
    have split : (DateAndTime.text ⟨y, mo, d, h, mi, s, fraction, zone⟩) ++ rest =
        y.text ++ str "-" ++ mo.text ++ str "-" ++ d.text ++ (str "T" ++
          (h.text ++ str ":" ++ mi.text ++ str ":" ++ s.text ++
            (fractionText fraction ++ (zone.text ++ rest)))) := by
      simp only [DateAndTime.text, List.append_assoc]
    rw [split]
    simp only [dateAndTime, bind_eq_ok, expect_eq_ok, char_eq_ok]
    refine ⟨_, _, parsedDate, _, _, ⟨rfl, rfl⟩, _, _, ⟨_, _, parsedTime, _, _, parsedFraction,
      rfl⟩, _, _, parsedZone, ?_⟩
    simp [DateAndTime.text, given, str, chr]

end Grammar

end Rousette.Restconf.Impl
