import Rousette.Library.Positional
import Rousette.Restconf.StreamRequests
import Rousette.Restconf.UriRecognition

/-!
# URIs of event streams

The server tells its clients the URIs of streams: `DynamicSubscriptions::establishSubscription`
puts the UUID of a subscription into one, and `notificationStreamList` the name of a stream and
its encoding.  `parseStreamUri` takes them apart again.
-/

namespace Rousette.Restconf

open Library
open Libyang (DataFormat)

/-! ## Rendering -/

/-- The digit which `boost::uuids::to_string` writes for four bits. -/
def toChar (n : Nat) : UInt8 := if n < 10 then (48 + n).toUInt8 else (87 + n).toUInt8

/-- Some hexadecimal digits of a number, the last ones. -/
def hexadecimal (count n : Nat) : Str := Positional.render 16 toChar count n

/-- `boost::uuids::to_string`, for an UUID of 128 bits -/
def uuidToString (uuid : Uuid) : Str :=
  hexadecimal 8 (uuid / 16 ^ 24) ++ str "-" ++ hexadecimal 4 (uuid / 16 ^ 20) ++ str "-" ++
    hexadecimal 4 (uuid / 16 ^ 16) ++ str "-" ++ hexadecimal 4 (uuid / 16 ^ 12) ++ str "-" ++
    hexadecimal 12 uuid

/-- `netconfStreamRoot` -/
def netconfStreamRoot : Str := str "/streams/"

/-- The path of a dynamic subscription, for a text of its UUID. -/
def subscribedPath (uuidText : Str) : Str := netconfStreamRoot ++ str "subscribed/" ++ uuidText

def formatText : DataFormat → Str
  | .json => str "JSON"
  | .xml => str "XML"

/-- The path of a stream of notifications. -/
def notificationPath (name : Str) (format : DataFormat) : Str :=
  netconfStreamRoot ++ name ++ str "/" ++ formatText format

/-- What the path of a stream is to mean: a subscription is told by the text of its UUID in
either letter case, and every other identifier is the name of a stream of notifications. -/
inductive MeansStream : Str → RestconfStreamRequest → Prop where
  | subscribed {uuid : Uuid} {text : Str} (bits : uuid < 2 ^ 128)
      (same : text.map Ascii.toLower = uuidToString uuid) :
      MeansStream (subscribedPath text) (.subscribed ⟨uuid⟩)
  | notification {name : Str} (isName : Impl.Grammar.IsIdentifier name)
      (other : name ≠ str "subscribed")
      (format : DataFormat) :
      MeansStream (notificationPath name format) (.notification ⟨name, format, []⟩)

namespace Impl.Grammar

open Parser

/-! ## Hexadecimal digits -/

theorem hexDigit_toChar {n : Nat} (below : n < 16) : hexDigit (toChar n) = n := by
  have each : ∀ n : Fin 16, hexDigit (toChar n) = n := by decide +kernel
  exact each ⟨n, below⟩

theorem isXDigit_toChar {n : Nat} (below : n < 16) : Ascii.isXDigit (toChar n) = true := by
  have each : ∀ n : Fin 16, Ascii.isXDigit (toChar n) = true := by decide +kernel
  exact each ⟨n, below⟩

/-- A digit in either case is written in lower case. -/
theorem toChar_hexDigit {c : UInt8} (isDigit : Ascii.isXDigit c = true) :
    hexDigit c < 16 ∧ toChar (hexDigit c) = Ascii.toLower c := by
  have octets : ∀ n : Fin 256, Ascii.isXDigit (.ofFin n) = true →
      hexDigit (.ofFin n) < 16 ∧ toChar (hexDigit (.ofFin n)) = Ascii.toLower (.ofFin n) := by
    decide +kernel
  exact octets c.toFin isDigit

theorem isXDigit_of_toLower {c : UInt8} (isDigit : Ascii.isXDigit (Ascii.toLower c) = true) :
    Ascii.isXDigit c = true := by
  have octets : ∀ n : Fin 256, Ascii.isXDigit (Ascii.toLower (.ofFin n)) = true →
      Ascii.isXDigit (.ofFin n) = true := by
    decide +kernel
  exact octets c.toFin isDigit

theorem hexDigit_toLower (c : UInt8) : hexDigit (Ascii.toLower c) = hexDigit c := by
  simp only [hexDigit, Ascii.toLower_toLower]

/-- The number which hexadecimal digits stand for. -/
def hexValue (digits : Str) : Nat := Positional.value 16 hexDigit digits

theorem hexValue_map_toLower (digits : Str) :
    hexValue (digits.map Ascii.toLower) = hexValue digits := by
  simp only [hexValue, Positional.value, List.foldl_map, hexDigit_toLower]

theorem isXDigit_of_mem_hexadecimal {count n : Nat} {c : UInt8}
    (member : c ∈ hexadecimal count n) : Ascii.isXDigit c = true := by
  induction count generalizing n with
  | zero => cases member
  | succ count ih =>
      rcases List.mem_append.mp member with front | last
      · exact ih front
      · rw [List.mem_singleton.mp last]
        exact isXDigit_toChar (Nat.mod_lt n (by decide))

/-- Digits are written in lower case. -/
theorem map_toLower_hexadecimal (count n : Nat) :
    (hexadecimal count n).map Ascii.toLower = hexadecimal count n := by
  have each : ∀ n : Fin 16, Ascii.toLower (toChar n) = toChar n := by decide +kernel
  induction count generalizing n with
  | zero => rfl
  | succ count ih =>
      have last := each ⟨n % 16, Nat.mod_lt n (by decide)⟩
      have front := ih (n / 16)
      simp only [hexadecimal, Positional.render, List.map_append, List.map_cons, List.map_nil]
        at front last ⊢
      rw [front, last]

theorem map_toLower_uuidToString (uuid : Uuid) :
    (uuidToString uuid).map Ascii.toLower = uuidToString uuid := by
  have dash : (str "-").map Ascii.toLower = str "-" := rfl
  simp only [uuidToString, List.map_append, map_toLower_hexadecimal, dash]

/-- Some hexadecimal digits. -/
structure IsDigits (count : Nat) (text : Str) : Prop where
  length : text.length = count
  areDigits : ∀ c ∈ text, Ascii.isXDigit c = true

/-- Digits in the middle of a number are found again, in lower case. -/
theorem hexadecimal_hexValue {count behind : Nat} {digits back : Str} (front : Str)
    (areDigits : IsDigits count digits) (areBack : IsDigits behind back) :
    hexadecimal count (hexValue (front ++ digits ++ back) / 16 ^ behind) =
      digits.map Ascii.toLower := by
  obtain ⟨rfl, areDigits⟩ := areDigits
  obtain ⟨rfl, areBack⟩ := areBack
  have below : hexValue back < 16 ^ back.length :=
    Positional.value_lt fun c member => (toChar_hexDigit (areBack c member)).1
  have positive : 0 < 16 ^ back.length := Nat.pow_pos (by decide)
  have split : hexValue (front ++ digits ++ back) =
      hexValue back + 16 ^ back.length *
        (hexValue front * 16 ^ digits.length + hexValue digits) := by
    rw [hexValue, Positional.value_append, Positional.value_append, Nat.add_comm, Nat.mul_comm]
    rfl
  rw [split, Nat.add_mul_div_left _ _ positive, Nat.div_eq_of_lt below, Nat.zero_add]
  exact Positional.render_value (fun c member => toChar_hexDigit (areDigits c member)) _

/-- A text which is some digits of a number but for the letter case. -/
theorem isDigits_of_toLower {count n : Nat} {text : Str}
    (same : text.map Ascii.toLower = hexadecimal count n) : IsDigits count text := by
  constructor
  case length =>
    rw [← List.length_map Ascii.toLower, same]
    exact Positional.length_render 16 toChar count n
  case areDigits =>
    intro c member
    have lower : Ascii.toLower c ∈ hexadecimal count n :=
      same ▸ List.mem_map_of_mem member
    exact isXDigit_of_toLower (isXDigit_of_mem_hexadecimal lower)

/-! ## UUIDs -/

theorem xdigits_eq_ok {count : Nat} {input text rest : Str} :
    xdigits count input = .ok text rest ↔ input = text ++ rest ∧ IsDigits count text := by
  rw [xdigits, replicate_satisfy_eq_ok]
  constructor
  case mp =>
    rintro ⟨split, length, areDigits⟩
    exact ⟨split, length, areDigits⟩
  case mpr =>
    rintro ⟨split, length, areDigits⟩
    exact ⟨split, length, areDigits⟩

theorem uuidGroup_eq_ok {count : Nat} {input text rest : Str} :
    uuidGroup count input = .ok text rest ↔
      input = str "-" ++ (text ++ rest) ∧ IsDigits count text := by
  simp only [uuidGroup, bind_eq_ok, expect_eq_ok, char, satisfy_eq_ok, xdigits_eq_ok, beq_iff_eq]
  constructor
  case mp =>
    rintro ⟨_, _, ⟨rfl, rfl⟩, rfl, areDigits⟩
    exact ⟨rfl, areDigits⟩
  case mpr =>
    rintro ⟨rfl, areDigits⟩
    exact ⟨chr '-', _, ⟨rfl, rfl⟩, rfl, areDigits⟩

/-- The groups of digits in the text of an UUID. -/
structure UuidGroups where
  first : Str
  second : Str
  third : Str
  fourth : Str
  fifth : Str
  isFirst : IsDigits 8 first
  isSecond : IsDigits 4 second
  isThird : IsDigits 4 third
  isFourth : IsDigits 4 fourth
  isFifth : IsDigits 12 fifth

namespace UuidGroups

def text (groups : UuidGroups) : Str :=
  groups.first ++ str "-" ++ groups.second ++ str "-" ++ groups.third ++ str "-" ++
    groups.fourth ++ str "-" ++ groups.fifth

def digits (groups : UuidGroups) : Str :=
  groups.first ++ groups.second ++ groups.third ++ groups.fourth ++ groups.fifth

theorem isDigits_append {count more : Nat} {text further : Str} (areDigits : IsDigits count text)
    (areFurther : IsDigits more further) : IsDigits (count + more) (text ++ further) := by
  constructor
  case length => rw [List.length_append, areDigits.length, areFurther.length]
  case areDigits =>
    intro c member
    rcases List.mem_append.mp member with front | back
    · exact areDigits.areDigits c front
    · exact areFurther.areDigits c back

theorem isDigits (groups : UuidGroups) : IsDigits 32 groups.digits :=
  isDigits_append (isDigits_append (isDigits_append (isDigits_append groups.isFirst
    groups.isSecond) groups.isThird) groups.isFourth) groups.isFifth

/-- The UUID has 128 bits. -/
theorem hexValue_lt (groups : UuidGroups) : hexValue groups.digits < 2 ^ 128 := by
  have below : hexValue groups.digits < 16 ^ groups.digits.length :=
    Positional.value_lt fun c member => (toChar_hexDigit (groups.isDigits.areDigits c member)).1
  rwa [groups.isDigits.length] at below

/-- The text is the one which is rendered, but for the letter case. -/
theorem map_toLower_text (groups : UuidGroups) :
    groups.text.map Ascii.toLower = uuidToString (hexValue groups.digits) := by
  have first := hexadecimal_hexValue [] groups.isFirst (isDigits_append groups.isSecond
    (isDigits_append groups.isThird (isDigits_append groups.isFourth groups.isFifth)))
  have second := hexadecimal_hexValue groups.first groups.isSecond
    (isDigits_append groups.isThird (isDigits_append groups.isFourth groups.isFifth))
  have third := hexadecimal_hexValue (groups.first ++ groups.second) groups.isThird
    (isDigits_append groups.isFourth groups.isFifth)
  have fourth := hexadecimal_hexValue (groups.first ++ groups.second ++ groups.third)
    groups.isFourth groups.isFifth
  have fifth := hexadecimal_hexValue
    (groups.first ++ groups.second ++ groups.third ++ groups.fourth) groups.isFifth
    (⟨rfl, List.forall_mem_nil _⟩ : IsDigits 0 [])
  simp only [List.nil_append, List.append_nil, Nat.pow_zero, Nat.div_one, Nat.reduceAdd,
    ← List.append_assoc] at first second third fourth fifth
  have dash : (str "-").map Ascii.toLower = str "-" := rfl
  simp only [text, digits, uuidToString, List.map_append, dash, first, second, third, fourth,
    fifth]

/-- Every text of an UUID has these groups. -/
theorem exists_text {uuid : Uuid} {text : Str} (bits : uuid < 2 ^ 128)
    (same : text.map Ascii.toLower = uuidToString uuid) :
    ∃ groups : UuidGroups, groups.text = text ∧ hexValue groups.digits = uuid := by
  have whole : hexadecimal 8 (uuid / 16 ^ 24) ++ hexadecimal 4 (uuid / 16 ^ 20) ++
      hexadecimal 4 (uuid / 16 ^ 16) ++ hexadecimal 4 (uuid / 16 ^ 12) ++ hexadecimal 12 uuid =
        hexadecimal 32 uuid := by
    have split (more count : Nat) : hexadecimal more (uuid / 16 ^ count) ++
        hexadecimal count uuid = hexadecimal (more + count) uuid :=
      (Positional.render_add 16 toChar more count uuid).symm
    simp only [List.append_assoc, split, Nat.reduceAdd]
  have dash {separator : Str} (lower : separator.map Ascii.toLower = str "-") :
      separator = str "-" := by
    obtain ⟨c, rfl, this⟩ := List.map_eq_singleton_iff.mp lower
    rw [(Ascii.toLower_eq_iff (by decide)).mp this]
    rfl
  simp only [uuidToString, List.map_eq_append_iff] at same
  obtain ⟨_, fifth, rfl, ⟨_, _, rfl, ⟨_, fourth, rfl, ⟨_, _, rfl, ⟨_, third, rfl, ⟨_, _, rfl,
    ⟨_, second, rfl, ⟨first, _, rfl, isFirst, dash₁⟩, isSecond⟩, dash₂⟩, isThird⟩, dash₃⟩,
    isFourth⟩, dash₄⟩, isFifth⟩ := same
  obtain rfl := dash dash₁
  obtain rfl := dash dash₂
  obtain rfl := dash dash₃
  obtain rfl := dash dash₄
  refine ⟨⟨first, second, third, fourth, fifth, isDigits_of_toLower isFirst,
    isDigits_of_toLower isSecond, isDigits_of_toLower isThird, isDigits_of_toLower isFourth,
    isDigits_of_toLower isFifth⟩, rfl, ?_⟩
  rw [← hexValue_map_toLower]
  simp only [digits, List.map_append, isFirst, isSecond, isThird, isFourth, isFifth, whole]
  have read : hexValue (hexadecimal 32 uuid) = uuid % 16 ^ 32 :=
    Positional.value_render (fun n below => hexDigit_toChar below) (by decide) 32 uuid
  exact read.trans (Nat.mod_eq_of_lt bits)

end UuidGroups

theorem uuid_eq_ok {input rest : Str} {result : Uuid} :
    uuid input = .ok result rest ↔
      ∃ groups : UuidGroups, input = groups.text ++ rest ∧ hexValue groups.digits = result := by
  simp only [uuid, uuidDigits, bind_eq_ok, xdigits_eq_ok, uuidGroup_eq_ok]
  constructor
  case mp =>
    rintro ⟨_, _, ⟨first, _, ⟨rfl, isFirst⟩, second, _, ⟨rfl, isSecond⟩, third, _,
      ⟨rfl, isThird⟩, fourth, _, ⟨rfl, isFourth⟩, fifth, _, ⟨rfl, isFifth⟩, same⟩, finished⟩
    cases same
    cases finished
    exact ⟨⟨first, second, third, fourth, fifth, isFirst, isSecond, isThird, isFourth, isFifth⟩,
      by simp only [UuidGroups.text, List.append_assoc], rfl⟩
  case mpr =>
    rintro ⟨⟨first, second, third, fourth, fifth, isFirst, isSecond, isThird, isFourth, isFifth⟩,
      rfl, rfl⟩
    refine ⟨_, rest, ⟨first, _, ⟨?_, isFirst⟩, second, _, ⟨rfl, isSecond⟩, third, _,
      ⟨rfl, isThird⟩, fourth, _, ⟨rfl, isFourth⟩, fifth, _, ⟨rfl, isFifth⟩, rfl⟩, rfl⟩
    simp only [UuidGroups.text, List.append_assoc]

/-! ## Streams -/

theorem subscribedStream_eq_ok {input rest : Str} {result : SubscribedStreamRequest} :
    subscribedStream input = .ok result rest ↔
      ∃ groups : UuidGroups, input = str "subscribed/" ++ (groups.text ++ rest) ∧
        result = ⟨hexValue groups.digits⟩ := by
  have keyword (text : Str) : str "subscribed/" ++ text = str "subscribed" ++ (str "/" ++ text) :=
    rfl
  simp only [subscribedStream, bind_eq_ok, expect_eq_ok, lit_eq_ok, uuid_eq_ok, keyword]
  constructor
  case mp =>
    rintro ⟨_, _, rfl, _, _, rfl, _, _, ⟨groups, rfl, rfl⟩, finished⟩
    cases finished
    exact ⟨groups, rfl, rfl⟩
  case mpr =>
    rintro ⟨groups, rfl, rfl⟩
    exact ⟨(), _, rfl, (), _, rfl, _, _, ⟨groups, rfl, rfl⟩, rfl⟩

/-- The alternative is left as long as the keyword was not read, and never after that. -/
theorem subscribedStream_fail {input : Str} :
    subscribedStream input = .fail ↔ ¬str "subscribed" <+: input := by
  simp only [subscribedStream, bind_eq_fail, expect_ne_fail, pure_apply, reduceCtorEq,
    and_false, exists_false, or_false, lit_eq_fail]

theorem streamFormat_eq_ok {input rest : Str} {format : DataFormat} :
    streamFormat input = .ok format rest ↔ input = formatText format ++ rest := by
  simp only [streamFormat, xmlStream, jsonStream, orElse_eq_ok, bind_eq_ok, lit_eq_ok]
  constructor
  case mp =>
    rintro (⟨_, _, rfl, finished⟩ | ⟨_, _, _, rfl, finished⟩) <;> cases finished <;> rfl
  case mpr =>
    rintro rfl
    cases format with
    | json => exact .inr ⟨rfl, (), rest, rfl, rfl⟩
    | xml => exact .inl ⟨(), rest, rfl, rfl⟩

theorem stops_slash (rest : Str) : Stops isIdentifierChar (str "/" ++ rest) :=
  stops_cons.mpr (by decide)

theorem notificationStream_eq_ok {input rest : Str} {result : NotificationStreamRequest} :
    notificationStream input = .ok result rest ↔
      ∃ name format, IsIdentifier name ∧
        input = name ++ (str "/" ++ (formatText format ++ rest)) ∧ result = ⟨name, format, []⟩ := by
  simp only [notificationStream, bind_eq_ok, expect_eq_ok, lit_eq_ok, streamFormat_eq_ok]
  constructor
  case mp =>
    rintro ⟨_, _, stream, _, _, rfl, format, _, rfl, finished⟩
    obtain ⟨name, rfl, rfl⟩ := recognizes_identifier.sound stream
    cases finished
    exact ⟨name.text, format, name.isIdentifier, rfl, rfl⟩
  case mpr =>
    rintro ⟨_, format, isName, rfl, rfl⟩
    obtain ⟨name, rfl⟩ := isName.exists_text
    exact ⟨name.text, _, recognizes_identifier.complete name (stops_slash _), (), _, rfl, format,
      _, rfl, rfl⟩

/-- A name ends at the first slash. -/
theorem IsIdentifier.cancel_slash {name other rest further : Str} (isName : IsIdentifier name)
    (isOther : IsIdentifier other)
    (same : name ++ (str "/" ++ rest) = other ++ (str "/" ++ further)) : name = other := by
  obtain ⟨first, rfl⟩ := isName.exists_text
  obtain ⟨second, rfl⟩ := isOther.exists_text
  exact (recognizes_identifier.cancel (stops_slash rest) (stops_slash further) same).1

/-- A text without slashes which a name and a slash begin with is in the name. -/
theorem prefix_of_prefix_slash {keyword name rest : Str} (noSlash : chr '/' ∉ keyword)
    (begins : keyword <+: name ++ (str "/" ++ rest)) : keyword <+: name := by
  obtain ⟨tail, whole⟩ := begins
  rcases List.append_eq_append_iff.mp whole with ⟨middle, rfl, _⟩ | ⟨middle, rfl, split⟩
  · exact List.prefix_append keyword middle
  · cases middle with
    | nil => simp
    | cons c middle =>
        have slash : chr '/' = c := (List.cons.inj split).1
        exact absurd (by simp [slash]) noSlash

/-- A stream, in the order of the alternatives. -/
def stream : Parser RestconfStreamRequest :=
  orElse (do let request ← subscribedStream; return .subscribed request)
    (do let request ← notificationStream; return .notification request)

theorem streamGrammar_eq_ok {input rest : Str} {result : RestconfStreamRequest} :
    streamGrammar input = .ok result rest ↔
      ∃ below, input = netconfStreamRoot ++ below ∧ stream below = .ok result rest := by
  have root (below : Str) :
      netconfStreamRoot ++ below = str "/" ++ (str "streams" ++ (str "/" ++ below)) := rfl
  simp only [streamGrammar, bind_eq_ok, expect_eq_ok, lit_eq_ok, root, stream]
  constructor
  case mp =>
    rintro ⟨_, _, rfl, _, _, rfl, _, below, rfl, parsed⟩
    exact ⟨below, rfl, parsed⟩
  case mpr =>
    rintro ⟨below, rfl, parsed⟩
    exact ⟨(), _, rfl, (), _, rfl, (), below, rfl, parsed⟩

theorem stream_eq_ok {input rest : Str} {result : RestconfStreamRequest} :
    stream input = .ok result rest ↔
      (∃ groups : UuidGroups, input = str "subscribed/" ++ (groups.text ++ rest) ∧
        result = .subscribed ⟨hexValue groups.digits⟩) ∨
      ∃ name format, IsIdentifier name ∧ ¬str "subscribed" <+: name ∧
        input = name ++ (str "/" ++ (formatText format ++ rest)) ∧
        result = .notification ⟨name, format, []⟩ := by
  simp only [stream, orElse_eq_ok, bind_eq_ok, bind_eq_fail, subscribedStream_eq_ok,
    subscribedStream_fail, notificationStream_eq_ok, pure_apply, reduceCtorEq, and_false,
    exists_false, or_false]
  constructor
  case mp =>
    rintro (⟨_, _, ⟨groups, rfl, rfl⟩, finished⟩ | ⟨other, _, _, ⟨name, format, isName, rfl, rfl⟩,
      finished⟩)
    · cases finished
      exact .inl ⟨groups, rfl, rfl⟩
    · cases finished
      exact .inr ⟨name, format, isName, fun begins => other (begins.trans (List.prefix_append _ _)),
        rfl, rfl⟩
  case mpr =>
    rintro (⟨groups, rfl, rfl⟩ | ⟨name, format, isName, other, rfl, rfl⟩)
    · exact .inl ⟨_, _, ⟨groups, rfl, rfl⟩, rfl⟩
    · refine .inr ⟨?_, _, _, ⟨name, format, isName, rfl, rfl⟩, rfl⟩
      exact fun begins => other (prefix_of_prefix_slash (by decide) begins)

end Impl.Grammar

open Impl.Grammar

/-- The path of a stream of notifications whose name goes on after the word for subscriptions. -/
def Overshadowed (input : Str) : Prop :=
  ∃ name format, IsIdentifier name ∧ str "subscribed" <+: name ∧ name ≠ str "subscribed" ∧
    input = notificationPath name format

theorem not_overshadowed_subscribed (text : Str) : ¬Overshadowed (subscribedPath text) := by
  rintro ⟨name, format, isName, _, other, same⟩
  simp only [subscribedPath, notificationPath, List.append_assoc] at same
  have split : str "subscribed/" ++ text = str "subscribed" ++ (str "/" ++ text) := rfl
  have names := List.append_cancel_left same
  rw [split] at names
  exact other (IsIdentifier.cancel_slash isName (by decide) names.symm)

theorem not_overshadowed_notification {name : Str} (isName : IsIdentifier name)
    (other : ¬str "subscribed" <+: name) (format : DataFormat) :
    ¬Overshadowed (notificationPath name format) := by
  rintro ⟨overshadowed, _, isOvershadowed, begins, _, same⟩
  simp only [notificationPath, List.append_assoc] at same
  have names := IsIdentifier.cancel_slash isName isOvershadowed (List.append_cancel_left same)
  exact other (names ▸ begins)

theorem parseStreamUri_eq_ok_iff {input : Str} {request : RestconfStreamRequest} :
    Impl.parseStreamUri input = .ok request ↔ MeansStream input request ∧ ¬Overshadowed input := by
  rw [Impl.parseStreamUri, Impl.parse_eq_ok_iff, streamGrammar_eq_ok]
  constructor
  case mp =>
    rintro ⟨below, rfl, parsed⟩
    rcases stream_eq_ok.mp parsed with
      ⟨groups, rfl, rfl⟩ | ⟨name, format, isName, other, rfl, rfl⟩
    · rw [List.append_nil, ← List.append_assoc]
      exact ⟨.subscribed groups.hexValue_lt groups.map_toLower_text,
        not_overshadowed_subscribed groups.text⟩
    · have path : netconfStreamRoot ++ (name ++ (str "/" ++ (formatText format ++ []))) =
          notificationPath name format := by
        simp only [notificationPath, List.append_assoc, List.append_nil]
      rw [path]
      refine ⟨.notification isName ?_ format, not_overshadowed_notification isName other format⟩
      rintro rfl
      exact other (List.prefix_refl _)
  case mpr =>
    rintro ⟨means, clear⟩
    cases means with
    | @subscribed uuid text bits same =>
        obtain ⟨groups, rfl, rfl⟩ := UuidGroups.exists_text bits same
        refine ⟨_, List.append_assoc _ _ _, stream_eq_ok.mpr (.inl ⟨groups, ?_, rfl⟩)⟩
        rw [List.append_nil]
    | @notification name isName other format =>
        refine ⟨name ++ (str "/" ++ (formatText format ++ [])), ?_, ?_⟩
        · simp only [notificationPath, List.append_assoc, List.append_nil]
        · refine stream_eq_ok.mpr (.inr ⟨name, format, isName, ?_, rfl, rfl⟩)
          exact fun begins => clear ⟨name, format, isName, begins, other, rfl⟩

/-- The path of a stream is parsed to what it means, and nothing else is accepted, exactly if it
is not that of a stream of notifications whose name begins with the word for subscriptions. -/
theorem parseStreamUri_means_iff (input : Str) :
    (∀ request, Impl.parseStreamUri input = .ok request ↔ MeansStream input request) ↔
      ¬∃ name format, IsIdentifier name ∧ str "subscribed" <+: name ∧ name ≠ str "subscribed" ∧
        input = notificationPath name format := by
  constructor
  case mp =>
    rintro agrees ⟨name, format, isName, begins, other, rfl⟩
    have parsed := (agrees _).mpr (.notification isName other format)
    exact (parseStreamUri_eq_ok_iff.mp parsed).2 ⟨name, format, isName, begins, other, rfl⟩
  case mpr =>
    intro clear request
    exact parseStreamUri_eq_ok_iff.trans (and_iff_left clear)

/-- The parser expects the UUID of a subscription where the name goes on. -/
theorem parseStreamUri_subscribed_alarms :
    (∀ request, Impl.parseStreamUri (str "/streams/subscribed-alarms/JSON") ≠ .ok request) ∧
      MeansStream (str "/streams/subscribed-alarms/JSON")
        (.notification ⟨str "subscribed-alarms", .json, []⟩) :=
  ⟨nofun, @MeansStream.notification (str "subscribed-alarms") (by decide) (by decide) .json⟩

/-- What clients are told is accepted: the URI of an established subscription, below the scheme
and the host, and the locations of the stream of the server. -/
theorem parseStreamUri_advertised {uuid : Uuid} (bits : uuid < 2 ^ 128) (format : DataFormat) :
    Impl.parseStreamUri (subscribedPath (uuidToString uuid)) = .ok (.subscribed ⟨uuid⟩) ∧
      Impl.parseStreamUri (notificationPath (str "NETCONF") format) =
        .ok (.notification ⟨str "NETCONF", format, []⟩) := by
  constructor
  · exact parseStreamUri_eq_ok_iff.mpr
      ⟨.subscribed bits (map_toLower_uuidToString uuid), not_overshadowed_subscribed _⟩
  · have isName : IsIdentifier (str "NETCONF") := by decide
    exact parseStreamUri_eq_ok_iff.mpr ⟨.notification isName (by decide) format,
      not_overshadowed_notification isName (by decide) format⟩

end Rousette.Restconf
