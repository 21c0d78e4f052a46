import Rousette.Restconf.QueryAccess

/-!
# Times of streams

The grammar of query strings checks the times of a stream in an early sanity check only, the
numbers in them are left to `libyang::fromYangTimeFormat`.  What that function raises is not one
of the exceptions which the handler of `/streams/` catches.
-/

namespace Rousette.Restconf

open Library

/-! ## Dates and times -/

/-- The numbers in a date and time. -/
structure TimeFields where
  year : Nat
  month : Nat
  day : Nat
  hour : Nat
  minute : Nat
  second : Nat
  /-- the number of digits of the fraction -/
  fractionDigits : Nat
  offsetHour : Nat
  offsetMinute : Nat
  deriving DecidableEq, Repr

/-- The length of a month of the Gregorian calendar. -/
def daysInMonth (year month : Nat) : Nat :=
  if month = 2 then
    if year % 4 = 0 ∧ (year % 100 ≠ 0 ∨ year % 400 = 0) then 29 else 28
  else if month = 4 ∨ month = 6 ∨ month = 9 ∨ month = 11 then 30
  else 31

/-- Is it an existing point in time, with a fraction which can be represented? -/
def TimeFields.isValid (fields : TimeFields) : Bool :=
  (1 ≤ fields.month && fields.month ≤ 12) &&
    (1 ≤ fields.day && fields.day ≤ daysInMonth fields.year fields.month) &&
    fields.hour < 24 && fields.minute < 60 && fields.second ≤ 60 && fields.fractionDigits ≤ 9 &&
    fields.offsetHour < 24 && fields.offsetMinute < 60

namespace Impl.Grammar

/-- The number which some digits stand for. -/
def Digits.value {count : Nat} (digits : Digits count) : Nat := decimalValue digits.text

/-- The hour and the minute of the offset, which are zero for `Z`. -/
def Timezone.offsetValue : Timezone → Nat × Nat
  | .zulu => (0, 0)
  | .offset _ hour minute => (hour.value, minute.value)

/-- The numbers in a date and time. -/
def DateAndTime.fields (time : DateAndTime) : TimeFields where
  year := time.year.value
  month := time.month.value
  day := time.day.value
  hour := time.hour.value
  minute := time.minute.value
  second := time.second.value
  fractionDigits := (time.fraction.map fun fraction => fraction.text.length).getD 0
  offsetHour := time.timezone.offsetValue.1
  offsetMinute := time.timezone.offsetValue.2

end Impl.Grammar

open Impl.Grammar

/-- A valid date and time of YANG. -/
def IsYangTime (text : Str) : Prop :=
  ∃ time : DateAndTime, time.text = text ∧ time.fields.isValid = true

/-- `libyang::fromYangTimeFormat`, which refuses exactly what is not a valid date and time. -/
structure TimeFormat (T : Type) where
  fromYangTimeFormat : Str → Except Exception T
  accepts : ∀ {text}, IsYangTime text → ∃ time, fromYangTimeFormat text = .ok time
  refuses : ∀ {text}, ¬IsYangTime text →
    ∃ what, fromYangTimeFormat text = .error (.invalidArgument what)

/-! ## Reading of the numbers -/

/-- Is it the fraction of a second? -/
def isFractionChar (c : UInt8) : Bool := Ascii.isDigit c || c == chr '.'

/-- The hour and the minute of an offset. -/
def readOffset : Str → Nat × Nat
  | [_, h, i, _, m, n] => (decimalValue [h, i], decimalValue [m, n])
  | _ => (0, 0)

/-- The numbers at their places in the text of a date and time. -/
def readFields : Str → Option TimeFields
  | y :: e :: a :: r :: _ :: m :: o :: _ :: d :: t :: _ :: h :: i :: _ :: n :: u :: _ ::
      s :: c :: rest =>
      let fraction := rest.takeWhile isFractionChar
      let offset := readOffset (rest.dropWhile isFractionChar)
      some
        { year := decimalValue [y, e, a, r]
          month := decimalValue [m, o]
          day := decimalValue [d, t]
          hour := decimalValue [h, i]
          minute := decimalValue [n, u]
          second := decimalValue [s, c]
          fractionDigits := fraction.length - 1
          offsetHour := offset.1
          offsetMinute := offset.2 }
  | _ => none

/-- Is the text a valid date and time? -/
def isYangTime (text : Str) : Bool :=
  (match dateAndTime text with
    | .ok _ [] => true
    | _ => false) &&
    (readFields text).any TimeFields.isValid

theorem fraction_of_text (fraction : Option Fraction) (zone : Timezone) :
    (fractionText fraction ++ zone.text).takeWhile isFractionChar = fractionText fraction ∧
      (fractionText fraction ++ zone.text).dropWhile isFractionChar = zone.text := by
  have stops : Library.Parser.Stops isFractionChar zone.text := by
    have stops := zone.stops []
    rwa [List.append_nil] at stops
  have inside : ∀ c ∈ fractionText fraction, isFractionChar c = true := by
    cases fraction with
    | none => exact nofun
    | some fraction =>
        intro c member
        rcases List.mem_append.mp member with dot | digit
        · rw [List.mem_singleton.mp dot]
          rfl
        · rw [isFractionChar, fraction.areDigits c digit, Bool.true_or]
  constructor
  · rw [List.takeWhile_append_of_pos inside, stops.takeWhile, List.append_nil]
  · rw [List.dropWhile_append_of_pos inside, stops.dropWhile]

theorem readOffset_text (zone : Timezone) : readOffset zone.text = zone.offsetValue := by
  cases zone with
  | zulu => rfl
  | offset negative hour minute =>
      obtain ⟨hour, hourLength, _⟩ := hour
      obtain ⟨minute, minuteLength, _⟩ := minute
      obtain ⟨h, i, rfl⟩ := List.length_eq_two.mp hourLength
      obtain ⟨m, n, rfl⟩ := List.length_eq_two.mp minuteLength
      cases negative <;> rfl

theorem readFields_text (time : DateAndTime) : readFields time.text = some time.fields := by
  obtain ⟨year, month, day, hour, minute, second, fraction, zone⟩ := time
  obtain ⟨year, yearLength, _⟩ := year
  obtain ⟨month, monthLength, _⟩ := month
  obtain ⟨day, dayLength, _⟩ := day
  obtain ⟨hour, hourLength, _⟩ := hour
  obtain ⟨minute, minuteLength, _⟩ := minute
  obtain ⟨second, secondLength, _⟩ := second
  obtain ⟨y, e, a, r, rfl⟩ := List.length_eq_four.mp yearLength
  obtain ⟨m, o, rfl⟩ := List.length_eq_two.mp monthLength
  obtain ⟨d, t, rfl⟩ := List.length_eq_two.mp dayLength
  obtain ⟨h, i, rfl⟩ := List.length_eq_two.mp hourLength
  obtain ⟨n, u, rfl⟩ := List.length_eq_two.mp minuteLength
  obtain ⟨s, c, rfl⟩ := List.length_eq_two.mp secondLength
  obtain ⟨taken, dropped⟩ := fraction_of_text fraction zone
  have digits : (fractionText fraction).length - 1 =
      (fraction.map fun fraction => fraction.text.length).getD 0 := by
    cases fraction with
    | none => rfl
    | some fraction => simp [fractionText, str]
  change readFields (y :: e :: a :: r :: chr '-' :: m :: o :: chr '-' :: d :: t :: chr 'T' :: h ::
    i :: chr ':' :: n :: u :: chr ':' :: s :: c :: (fractionText fraction ++ zone.text)) = _
  simp only [readFields, taken, dropped, digits, readOffset_text]
  rfl

/-- The places in the text are those of the numbers in it. -/
theorem isYangTime_text (time : DateAndTime) :
    isYangTime time.text = time.fields.isValid := by
  have parsed : dateAndTime time.text = .ok time.text [] := by
    have complete : dateAndTime (time.text ++ []) = .ok time.text [] :=
      recognizes_dateAndTime.complete time trivial
    rwa [List.append_nil] at complete
  simp only [isYangTime, parsed, readFields_text, Option.any_some, Bool.true_and]

theorem isYangTime_iff {text : Str} : isYangTime text = true ↔ IsYangTime text := by
  constructor
  case mp =>
    intro valid
    have accepted : ∃ result, dateAndTime text = .ok result [] := by
      simp only [isYangTime, Bool.and_eq_true] at valid
      have parsed := valid.1
      split at parsed
      next result whole => exact ⟨result, whole⟩
      · cases parsed
    obtain ⟨result, parsed⟩ := accepted
    obtain ⟨time, split, _⟩ := recognizes_dateAndTime.sound parsed
    rw [List.append_nil] at split
    subst split
    exact ⟨time, rfl, (isYangTime_text time).symm.trans valid⟩
  case mpr =>
    rintro ⟨time, rfl, valid⟩
    rw [isYangTime_text, valid]

/-- The text of a date and time is valid if the numbers in it are. -/
theorem isYangTime_text_iff (time : DateAndTime) :
    IsYangTime time.text ↔ time.fields.isValid = true := by
  rw [← isYangTime_iff, isYangTime_text]

/-- Reading the texts as they are. -/
def TimeFormat.verbatim : TimeFormat Str where
  fromYangTimeFormat text :=
    if isYangTime text then .ok text else .error (.invalidArgument (str "Invalid date-and-time"))
  accepts valid := ⟨_, if_pos (isYangTime_iff.mpr valid)⟩
  refuses invalid := ⟨_, if_neg fun valid => invalid (isYangTime_iff.mp valid)⟩

/-! ## Times in a query -/

/-- The exceptions which the handler of `/streams/` catches. -/
def IsReported : Exception → Prop
  | .auth _ _ => True
  | .errorResponse _ => True
  | _ => False

/-- The times in a query string, if it is one. -/
def TimesAreValid (uriQueryString : Str) : Prop :=
  ∀ phrases : List ParamPhrase, EmptyPointLast phrases → queryText phrases = uriQueryString →
    ∀ time, .startTime time ∈ phrases ∨ .stopTime time ∈ phrases → time.fields.isValid = true

/-- The time in a parameter is valid, if it is there. -/
def TimeIsValid (params : QueryParams) (name : String) : Prop :=
  ∀ text, params.find name = some (.text text) → IsYangTime text

theorem getText_eq_ok {value : QueryParams.QueryParamValue} {text : Str} :
    QueryParams.getText value = .ok text ↔ value = .text text := by
  cases value <;> simp [QueryParams.getText]

/-- In a multimap without repeated names, what is found is what is there. -/
theorem find_eq_some_iff_mem {params : QueryParams} (unique : (params.map Prod.fst).Nodup)
    {name : String} {value : QueryParams.QueryParamValue} :
    params.find name = some value ↔ (str name, value) ∈ params := by
  constructor
  case mp => exact Impl.mem_of_find
  case mpr =>
    intro member
    induction params with
    | nil => cases member
    | cons param rest ih =>
        obtain ⟨absent, unique⟩ := List.nodup_cons.mp unique
        unfold QueryParams.find
        rw [List.find?_cons]
        rcases List.mem_cons.mp member with rfl | later
        · simp
        · have other : (param.1 == str name) = false := by
            rw [beq_eq_false_iff_ne]
            rintro same
            exact absent (same ▸ List.mem_map_of_mem later)
          rw [other]
          exact ih unique later

/-- The parameters of phrases are those of the multimap. -/
theorem mem_collect {phrases : List ParamPhrase} {param : Str × QueryParams.QueryParamValue} :
    param ∈ collect phrases ↔ ∃ phrase ∈ phrases, phrase.value = param := by
  have holds : (collect phrases).Holds (phrases.map ParamPhrase.value) :=
    QueryParams.holds_foldl _
  have same := holds.same param.1
  have inside (params : QueryParams) :
      param ∈ params ↔ param ∈ params.filter fun other => other.1 == param.1 := by
    simp [List.mem_filter]
  rw [inside, same, ← inside, List.mem_map]

/-- Which phrases are the times of a stream. -/
theorem startTime_iff {phrase : ParamPhrase} {text : Str} :
    phrase.value = (str "start-time", .text text) ↔
      ∃ time : DateAndTime, phrase = .startTime time ∧ time.text = text := by
  constructor
  case mp =>
    intro same
    obtain ⟨sameName, sameValue⟩ := Prod.mk.inj same
    cases phrase with
    | startTime time =>
        cases sameValue
        exact ⟨time, rfl, rfl⟩
    | _ =>
        dsimp only at sameName
        exact absurd sameName (by decide)
  case mpr =>
    rintro ⟨time, rfl, rfl⟩
    rfl

theorem stopTime_iff {phrase : ParamPhrase} {text : Str} :
    phrase.value = (str "stop-time", .text text) ↔
      ∃ time : DateAndTime, phrase = .stopTime time ∧ time.text = text := by
  constructor
  case mp =>
    intro same
    obtain ⟨sameName, sameValue⟩ := Prod.mk.inj same
    cases phrase with
    | stopTime time =>
        cases sameValue
        exact ⟨time, rfl, rfl⟩
    | _ =>
        dsimp only at sameName
        exact absurd sameName (by decide)
  case mpr =>
    rintro ⟨time, rfl, rfl⟩
    rfl

/-- The times of a query string which was parsed. -/
theorem timesAreValid_iff {uriQueryString : Str} {pathLength : Nat} {params : QueryParams}
    (parsed : Impl.parseQueryParams uriQueryString pathLength = .ok params)
    (unique : (params.map Prod.fst).Nodup) :
    TimesAreValid uriQueryString ↔
      TimeIsValid params "start-time" ∧ TimeIsValid params "stop-time" := by
  have collected : ∀ phrases : List ParamPhrase, EmptyPointLast phrases →
      queryText phrases = uriQueryString → params = collect phrases := by
    rintro phrases last rfl
    have complete : Impl.parseQueryParams (queryText phrases) pathLength = .ok (collect phrases) :=
      Impl.parse_eq_ok_iff.mpr (queryParamGrammar_complete phrases last)
    rw [parsed] at complete
    cases complete
    rfl
  constructor
  case mp =>
    intro valid
    obtain ⟨phrases, rfl, rfl, last⟩ := queryParamGrammar_sound (Impl.parse_eq_ok_iff.mp parsed)
    constructor
    · intro text found
      obtain ⟨phrase, member, value⟩ := mem_collect.mp ((find_eq_some_iff_mem unique).mp found)
      obtain ⟨time, rfl, rfl⟩ := startTime_iff.mp value
      exact ⟨time, rfl, valid phrases last rfl time (.inl member)⟩
    · intro text found
      obtain ⟨phrase, member, value⟩ := mem_collect.mp ((find_eq_some_iff_mem unique).mp found)
      obtain ⟨time, rfl, rfl⟩ := stopTime_iff.mp value
      exact ⟨time, rfl, valid phrases last rfl time (.inr member)⟩
  case mpr =>
    rintro ⟨start, stop⟩ phrases last same time member
    obtain rfl := collected phrases last same
    rw [← isYangTime_text_iff]
    rcases member with member | member
    · refine start time.text ((find_eq_some_iff_mem unique).mpr (mem_collect.mpr ?_))
      exact ⟨_, member, rfl⟩
    · refine stop time.text ((find_eq_some_iff_mem unique).mpr (mem_collect.mpr ?_))
      exact ⟨_, member, rfl⟩

namespace TimeFormat

variable {T : Type} (format : TimeFormat T)

theorem isOk_iff {text : Str} :
    (∃ time, format.fromYangTimeFormat text = .ok time) ↔ IsYangTime text := by
  constructor
  case mp =>
    rintro ⟨time, read⟩
    by_contra invalid
    obtain ⟨what, refused⟩ := format.refuses invalid
    rw [refused] at read
    cases read
  case mpr => exact format.accepts

theorem queryTime_of_valid {params : QueryParams} {name : String}
    (texts : ∀ value, params.find name = some value →
      ∃ text, QueryParams.getText value = .ok text)
    (valid : TimeIsValid params name) :
    ∃ time, queryTime format.fromYangTimeFormat params name = .ok time := by
  unfold queryTime
  cases found : params.find name with
  | none => exact ⟨none, rfl⟩
  | some value =>
      obtain ⟨text, isText⟩ := texts value found
      have read : IsYangTime text := valid text (by rw [found, getText_eq_ok.mp isText])
      obtain ⟨time, known⟩ := format.accepts read
      refine ⟨some time, ?_⟩
      simp only [isText, known, bind, Except.bind, pure, Except.pure]

theorem queryTime_of_not_valid {params : QueryParams} {name : String}
    (invalid : ¬TimeIsValid params name) :
    ∃ what, queryTime format.fromYangTimeFormat params name = .error (.invalidArgument what) := by
  unfold TimeIsValid at invalid
  push Not at invalid
  obtain ⟨text, found, invalid⟩ := invalid
  obtain ⟨what, refused⟩ := format.refuses invalid
  refine ⟨what, ?_⟩
  simp only [queryTime, found, QueryParams.getText, refused, bind, Except.bind]

/-- The times are read if they are valid, and otherwise something is raised which nobody
catches. -/
theorem throws_notificationQuery_iff {request : NotificationStreamRequest}
    (accessible : Accessible request.queryParams) (netconf : request.stream = str "NETCONF") :
    Throws IsReported (notificationQuery format.fromYangTimeFormat request) ↔
      TimeIsValid request.queryParams "start-time" ∧
        TimeIsValid request.queryParams "stop-time" := by
  have filter : ∃ xpathFilter,
      (request.queryParams.find "filter").mapM QueryParams.getText = .ok xpathFilter := by
    cases found : request.queryParams.find "filter" with
    | none => exact ⟨none, rfl⟩
    | some value =>
        obtain ⟨text, isText⟩ := accessible.texts "filter" (by decide) value found
        refine ⟨some text, ?_⟩
        simp only [Option.mapM_some, isText]
        rfl
  obtain ⟨xpathFilter, filter⟩ := filter
  have present : require (request.stream = str "NETCONF")
      (reject 404 "application" "invalid-value" (str "Stream not found")) = .ok () :=
    require_eq_ok.mpr (decide_eq_true netconf)
  have startTexts := accessible.texts "start-time" (by decide)
  have stopTexts := accessible.texts "stop-time" (by decide)
  simp only [notificationQuery, present, filter, bind, Except.bind]
  by_cases start : TimeIsValid request.queryParams "start-time"
  · obtain ⟨startTime, readStart⟩ := format.queryTime_of_valid startTexts start
    by_cases stop : TimeIsValid request.queryParams "stop-time"
    · obtain ⟨stopTime, readStop⟩ := format.queryTime_of_valid stopTexts stop
      rw [readStart, readStop]
      exact iff_of_true (.ok _) ⟨start, stop⟩
    · obtain ⟨what, refused⟩ := format.queryTime_of_not_valid stop
      rw [readStart, refused]
      exact iff_of_false (fun throws => throws _ rfl) fun valid => stop valid.2
  · obtain ⟨what, refused⟩ := format.queryTime_of_not_valid start
    rw [refused]
    exact iff_of_false (fun throws => throws _ rfl) fun valid => start valid.1

end TimeFormat

/-- The request is accepted, and for the notifications of the server. -/
def IsNotificationRequest (httpMethod uriPath uriQueryString : Str) : Prop :=
  ∃ request, asRestconfStreamRequest httpMethod uriPath uriQueryString =
    .ok (.notification request) ∧ request.stream = str "NETCONF"

theorem throws_asRestconfStreamRequest (httpMethod uriPath uriQueryString : Str) :
    Throws Exception.IsErrorResponse
      (asRestconfStreamRequest httpMethod uriPath uriQueryString) := by
  have validated (seen : List Str) (params : QueryParams) :
      Throws Exception.IsErrorResponse (validateStreamParametersAfter seen params) := by
    induction params generalizing seen with
    | nil => exact .ok _
    | cons param rest ih =>
        apply Throws.bind throws_require
        intro _ _
        apply Throws.bind throws_require
        intro _ _
        exact ih _
  apply Throws.bind throws_require
  intro _ _
  apply Throws.bind (throws_parse _ _ _ _)
  intro type _
  cases type with
  | subscribed request => exact .ok _
  | notification request =>
      apply Throws.bind (throws_parse _ _ _ _)
      intro params _
      apply Throws.bind (validated [] params)
      intro _ _
      exact .ok _

/-- Nothing is raised after the last step. -/
theorem throws_some_iff {α : Type} {property : Exception → Prop} {result : Except Exception α} :
    Throws property (do let value ← result; return some value) ↔ Throws property result := by
  cases result with
  | ok value => exact iff_of_true (.ok _) (.ok _)
  | error exception =>
      have raised {β : Type} : Throws property (.error exception : Except Exception β) ↔
          property exception :=
        ⟨fun throws => throws _ rfl, fun holds => .error holds⟩
      exact raised.trans raised.symm

/-- The interpretation of a query raises nothing but what the handler catches exactly if it does
not come to an invalid time. -/
theorem throws_interpretStreamRequest_iff {T : Type} (format : TimeFormat T)
    (httpMethod uriPath uriQueryString : Str) :
    Throws IsReported
        (interpretStreamRequest format.fromYangTimeFormat httpMethod uriPath uriQueryString) ↔
      (IsNotificationRequest httpMethod uriPath uriQueryString → TimesAreValid uriQueryString) := by
  simp only [interpretStreamRequest]
  cases outcome : asRestconfStreamRequest httpMethod uriPath uriQueryString with
  | error exception =>
      have response := throws_asRestconfStreamRequest _ _ _ exception outcome
      refine iff_of_true ?_ ?_
      · refine .error ?_
        cases exception with
        | errorResponse error => trivial
        | _ => exact response.elim
      · rintro ⟨request, accepted, _⟩
        rw [outcome] at accepted
        cases accepted
  | ok type =>
      cases type with
      | subscribed request =>
          refine iff_of_true (.ok _) ?_
          rintro ⟨other, accepted, _⟩
          rw [outcome] at accepted
          cases accepted
      | notification request =>
          have accessible := accessible_of_stream outcome
          have times := timesAreValid_iff (parsed_of_stream outcome).1 accessible.unique
          refine throws_some_iff.trans ?_
          by_cases netconf : request.stream = str "NETCONF"
          · rw [format.throws_notificationQuery_iff accessible netconf, ← times]
            exact ⟨fun valid _ => valid, fun valid => valid ⟨request, outcome, netconf⟩⟩
          · refine iff_of_true ?_ ?_
            · have refused : require (request.stream = str "NETCONF")
                  (reject 404 "application" "invalid-value" (str "Stream not found")) =
                    .error (reject 404 "application" "invalid-value" (str "Stream not found")) :=
                require_eq_error.mpr ⟨decide_eq_false netconf, rfl⟩
              simp only [notificationQuery, refused, bind, Except.bind]
              exact .error trivial
            · rintro ⟨other, accepted, named⟩
              rw [outcome] at accepted
              cases accepted
              exact absurd named netconf

/-- A request whose only parameter is the time to start at. -/
theorem isNotificationRequest_startTime (time : DateAndTime) :
    IsNotificationRequest (str "GET") (str "/streams/NETCONF/JSON")
      (str "start-time=" ++ time.text) :=
  ⟨_, @asRestconfStreamRequest_netconf [.startTime time] ⟨nofun, trivial⟩ rfl, rfl⟩

/-- The parameters of a query for one time. -/
theorem timesAreValid_startTime {time : DateAndTime} (valid : time.fields.isValid = true) :
    TimesAreValid (str "start-time=" ++ time.text) := by
  have parsed : Impl.parseQueryParams (str "start-time=" ++ time.text) 0 =
      .ok (collect [.startTime time]) :=
    Impl.parse_eq_ok_iff.mpr (queryParamGrammar_complete [.startTime time] ⟨nofun, trivial⟩)
  refine (timesAreValid_iff parsed (by decide : [str "start-time"].Nodup)).mpr ⟨?_, ?_⟩
  · intro text found
    cases found
    exact ⟨time, rfl, valid⟩
  · intro text found
    cases found

/-- The last second of a leap day, in a timezone. -/
def leapSecond : DateAndTime where
  year := ⟨str "2024", rfl, List.all_eq_true.mp rfl⟩
  month := ⟨str "02", rfl, List.all_eq_true.mp rfl⟩
  day := ⟨str "29", rfl, List.all_eq_true.mp rfl⟩
  hour := ⟨str "23", rfl, List.all_eq_true.mp rfl⟩
  minute := ⟨str "59", rfl, List.all_eq_true.mp rfl⟩
  second := ⟨str "60", rfl, List.all_eq_true.mp rfl⟩
  fraction := some ⟨str "123456789", List.cons_ne_nil _ _, List.all_eq_true.mp rfl⟩
  timezone := .offset true ⟨str "08", rfl, List.all_eq_true.mp rfl⟩
    ⟨str "30", rfl, List.all_eq_true.mp rfl⟩

example : leapSecond.text = str "2024-02-29T23:59:60.123456789-08:30" := by decide

/-- What the query grammar takes for a time is read exactly if its numbers are valid, and what the
interpretation of a query raises is caught exactly if it does not come to an invalid time. -/
theorem streamTimes_read_iff {T : Type} (format : TimeFormat T) :
    (∀ text, dateAndTime text = .ok text [] → ∃ time : DateAndTime, time.text = text ∧
        ((∃ point, format.fromYangTimeFormat text = .ok point) ↔ time.fields.isValid = true)) ∧
      ∀ httpMethod uriPath uriQueryString,
        Throws IsReported
            (interpretStreamRequest format.fromYangTimeFormat httpMethod uriPath uriQueryString) ↔
          (IsNotificationRequest httpMethod uriPath uriQueryString →
            TimesAreValid uriQueryString) := by
  constructor
  · intro text parsed
    obtain ⟨time, split, _⟩ := recognizes_dateAndTime.sound parsed
    rw [List.append_nil] at split
    subst split
    exact ⟨time, rfl, format.isOk_iff.trans (isYangTime_text_iff time)⟩
  · exact throws_interpretStreamRequest_iff format

/-- The leap second is a time to start at. -/
theorem leapSecond_read :
    Throws IsReported (interpretStreamRequest TimeFormat.verbatim.fromYangTimeFormat (str "GET")
      (str "/streams/NETCONF/JSON") (str "start-time=" ++ leapSecond.text)) :=
  ((streamTimes_read_iff TimeFormat.verbatim).2 _ _ _).mpr fun _ =>
    timesAreValid_startTime (by decide)

/-- A day of a month which does not exist. -/
def thirteenthMonth : DateAndTime where
  year := ⟨str "2023", rfl, List.all_eq_true.mp rfl⟩
  month := ⟨str "13", rfl, List.all_eq_true.mp rfl⟩
  day := ⟨str "01", rfl, List.all_eq_true.mp rfl⟩
  hour := ⟨str "00", rfl, List.all_eq_true.mp rfl⟩
  minute := ⟨str "00", rfl, List.all_eq_true.mp rfl⟩
  second := ⟨str "00", rfl, List.all_eq_true.mp rfl⟩
  fraction := none
  timezone := .zulu

/-- The grammar accepts the thirteenth month, and nobody catches what is raised for it. -/
theorem thirteenthMonth_not_reported :
    dateAndTime (str "2023-13-01T00:00:00Z") = .ok (str "2023-13-01T00:00:00Z") [] ∧
      (¬∃ point, TimeFormat.verbatim.fromYangTimeFormat (str "2023-13-01T00:00:00Z") =
        .ok point) ∧
      ¬Throws IsReported (interpretStreamRequest TimeFormat.verbatim.fromYangTimeFormat
        (str "GET") (str "/streams/NETCONF/JSON")
        (str "start-time=2023-13-01T00:00:00Z")) := by
  have text : str "2023-13-01T00:00:00Z" = thirteenthMonth.text := by decide
  have query : str "start-time=2023-13-01T00:00:00Z" =
      str "start-time=" ++ thirteenthMonth.text := by decide
  have invalid : ¬thirteenthMonth.fields.isValid = true := by decide
  rw [query, text]
  refine ⟨?_, ?_, ?_⟩
  · have parsed : dateAndTime (thirteenthMonth.text ++ []) = .ok thirteenthMonth.text [] :=
      recognizes_dateAndTime.complete thirteenthMonth trivial
    rwa [List.append_nil] at parsed
  · rw [TimeFormat.verbatim.isOk_iff, isYangTime_text_iff]
    exact invalid
  · rw [throws_interpretStreamRequest_iff]
    intro valid
    have times := valid (isNotificationRequest_startTime thirteenthMonth)
    exact invalid (times [.startTime thirteenthMonth] ⟨nofun, trivial⟩ rfl _
      (.inl List.mem_cons_self))

end Rousette.Restconf
