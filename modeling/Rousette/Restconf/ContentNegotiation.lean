import Mathlib.Algebra.GroupWithZero.Nat
import Rousette.Http.MediaRanges
import Rousette.Restconf.DataFormats

/-!
# Content negotiation

Which formats `chooseDataEncoding` chooses, by the entries of the headers `accept` and
`content-type`.
-/

namespace Rousette.Restconf

open Library Http Parser
open Libyang (DataFormat)
open Http.AcceptGrammar (IsRange)

/-! ## Media types of the formats -/

def asPatchType : DataFormat → Str
  | .json => str "application/yang-patch+json"
  | .xml => str "application/yang-patch+xml"

/-- The media types of a format. -/
def mimeTypes (format : DataFormat) : List Str := [asMimeType format, asPatchType format]

/-- The ranges which have the media types of both formats in them. -/
def openRanges : List Str := [str "*/*", str "application/*"]

/-- The format of a media type or range. -/
def formatOf (wildcards : MimeTypeWildcards) (text : Str) : Option DataFormat :=
  if wildcards = .allowed ∧ text ∈ openRanges ∨ text ∈ mimeTypes .json then some .json
  else if text ∈ mimeTypes .xml then some .xml
  else none

theorem mimeMatchAny_pair {mime first second : Str} {wildcards : MimeTypeWildcards}
    {foundFirst foundSecond : Bool}
    (matchFirst : mimeMatch mime first wildcards = .ok foundFirst)
    (matchSecond : mimeMatch mime second wildcards = .ok foundSecond) :
    mimeMatchAny mime wildcards [first, second] = .ok (foundFirst || foundSecond) := by
  simp only [mimeMatchAny, matchFirst, matchSecond, except_ok_bind]
  cases foundFirst with
  | true => rfl
  | false => cases foundSecond <;> rfl

section Entries

variable {entry : MediaType} (range : IsRange entry.mime)

include range

theorem mem_openRanges_iff :
    entry.text ∈ openRanges ↔
      entry.mime.mediaType = str "*" ∨
        entry.mime.mediaType = str "application" ∧ entry.mime.mediaSubtype = str "*" := by
  have anything : entry.text = str "*/*" ↔ entry.mime.mediaType = str "*" := by
    rw [show str "*/*" = str "*" ++ str "/" ++ str "*" from rfl, range.text_eq_iff (by decide)]
    exact ⟨And.left, fun any => ⟨any, range.any any⟩⟩
  have application : entry.text = str "application/*" ↔
      entry.mime.mediaType = str "application" ∧ entry.mime.mediaSubtype = str "*" :=
    @IsRange.text_eq_iff entry range (str "application") (str "*") (by decide)
  rw [openRanges, List.mem_cons, List.mem_singleton, anything, application]

theorem mimeMatch_text {subtype : Str} (unslashed : Unslashed subtype)
    (wildcards : MimeTypeWildcards) :
    mimeMatch entry.text (str "application" ++ str "/" ++ subtype) wildcards =
      .ok (wildcards = .allowed ∧ entry.text ∈ openRanges ∨
        entry.text = str "application" ++ str "/" ++ subtype) := by
  have application : (str "application" ++ str "/" ++ subtype).splitOn (chr '/') =
      [str "application", subtype] := by
    rw [List.append_assoc]
    have split := List.splitOn_append_cons_self_of_not_mem
      (show chr '/' ∉ str "application" by decide) subtype
    rwa [List.splitOn_eq_singleton unslashed] at split
  simp only [mimeMatch, range.splitOn_text, application, elementAt, List.getElem?_cons_zero,
    List.getElem?_cons_succ]
  have named : entry.text = str "application" ++ str "/" ++ subtype ↔
      entry.mime.mediaType = str "application" ∧ entry.mime.mediaSubtype = subtype :=
    range.text_eq_iff (by decide)
  change (if wildcards = .allowed ∧ entry.mime.mediaType = str "*" then Except.ok true
    else if entry.mime.mediaType ≠ str "application" then .ok false
    else .ok (wildcards = .allowed ∧ entry.mime.mediaSubtype = str "*" ∨
      entry.mime.mediaSubtype = subtype : Bool)) = _
  simp only [mem_openRanges_iff range, named]
  by_cases any : wildcards = .allowed ∧ entry.mime.mediaType = str "*"
  · simp [any]
  · rw [if_neg any]
    by_cases same : entry.mime.mediaType = str "application"
    · have fixed : str "application" ≠ str "*" := by decide
      simp [same, fixed]
    · simpa [same] using any

theorem mimeMatch_mimeTypes (wildcards : MimeTypeWildcards) {format : DataFormat} {mime : Str}
    (member : mime ∈ mimeTypes format) :
    mimeMatch entry.text mime wildcards =
      .ok (wildcards = .allowed ∧ entry.text ∈ openRanges ∨ entry.text = mime) := by
  rcases List.mem_pair.mp member with rfl | rfl
  · cases format with
    | json => exact @mimeMatch_text entry range (str "yang-data+json") (by decide) wildcards
    | xml => exact @mimeMatch_text entry range (str "yang-data+xml") (by decide) wildcards
  · cases format with
    | json => exact @mimeMatch_text entry range (str "yang-patch+json") (by decide) wildcards
    | xml => exact @mimeMatch_text entry range (str "yang-patch+xml") (by decide) wildcards

theorem mimeMatchAny_mimeTypes (wildcards : MimeTypeWildcards) (format : DataFormat) :
    mimeMatchAny entry.text wildcards (mimeTypes format) =
      .ok (wildcards = .allowed ∧ entry.text ∈ openRanges ∨ entry.text ∈ mimeTypes format) := by
  have data := @mimeMatch_mimeTypes entry range wildcards format _ List.mem_cons_self
  have patch := @mimeMatch_mimeTypes entry range wildcards format _
    (List.mem_cons_of_mem _ List.mem_cons_self)
  rw [mimeTypes, mimeMatchAny_pair data patch, ← Bool.decide_or]
  simp only [List.mem_pair, ← or_or_distrib_left]

theorem dataTypeFromMimeType_text (lower : entry.text.map Ascii.toLower = entry.text)
    (wildcards : MimeTypeWildcards) :
    dataTypeFromMimeType entry.text wildcards = .ok (formatOf wildcards entry.text) := by
  have json : mimeMatchAny entry.text wildcards
      [asMimeType .json, str "application/yang-patch+json"] = _ :=
    mimeMatchAny_mimeTypes range wildcards .json
  have xml : mimeMatchAny entry.text wildcards
      [asMimeType .xml, str "application/yang-patch+xml"] = _ :=
    mimeMatchAny_mimeTypes range wildcards .xml
  simp only [dataTypeFromMimeType, lower, json, xml, except_ok_bind, decide_eq_true_eq, formatOf]
  by_cases isJson : wildcards = .allowed ∧ entry.text ∈ openRanges ∨
      entry.text ∈ mimeTypes .json
  · rw [if_pos isJson, if_pos isJson]
    rfl
  · rw [if_neg isJson, if_neg isJson]
    have notOpen : ¬(wildcards = .allowed ∧ entry.text ∈ openRanges) :=
      fun isOpen => isJson (.inl isOpen)
    simp only [or_iff_right notOpen]
    rfl

end Entries

/-! ## Entries of a header -/

section Headers

variable {Q : Type} [LinearOrder Q] [Zero Q] [One Q] (stod : Str → Option Q)
variable {headerValue : Str} {entries : List MediaType}

theorem mem_preferences {entry : MediaType} :
    entry ∈ preferences stod entries ↔ entry ∈ entries ∧ entry.qValue stod ≠ 0 := by
  rw [preferences, List.mem_insertionSort, List.mem_filter, decide_eq_true_eq]

/-- The entries by which the format of the response is chosen. -/
def usable (entries : List MediaType) : List MediaType :=
  if entries.all (MediaType.isRepresentable stod) then preferences stod entries else []

/-- The format of the first entry which has one. -/
def acceptedFormat (entries : List MediaType) : Option DataFormat :=
  (usable stod entries).findSome? fun entry => formatOf .allowed entry.text

theorem mem_usable {entry : MediaType} :
    entry ∈ usable stod entries ↔
      (∀ other ∈ entries, other.isRepresentable stod = true) ∧ entry ∈ entries ∧
        entry.qValue stod ≠ 0 := by
  rw [usable]
  split_ifs with representable
  · rw [mem_preferences, and_iff_right (List.all_eq_true.mp representable)]
  · simpa using fun all => absurd (List.all_eq_true.mpr all) representable

/-- The first supported one of some media types. -/
theorem supportedType_map (lists : Lists headerValue entries) {chosen : List MediaType}
    (among : ∀ entry ∈ chosen, entry ∈ entries) :
    supportedType (chosen.map MediaType.text) =
      .ok (chosen.findSome? fun entry => formatOf .allowed entry.text) := by
  induction chosen with
  | nil => rfl
  | cons entry rest ih =>
      obtain ⟨member, among⟩ := List.forall_mem_cons.mp among
      have found := dataTypeFromMimeType_text (lists.isRange member) (lists.text_toLower member)
      rw [List.map_cons, supportedType, found, except_ok_bind, List.findSome?_cons]
      cases formatOf .allowed entry.text with
      | none => exact ih among
      | some format => rfl

def notAcceptable : Exception :=
  .errorResponse ⟨406, str "application", str "operation-not-supported",
    str "No requested format supported", none, none⟩

def unsupportedMediaType : Exception :=
  .errorResponse ⟨415, str "application", str "operation-not-supported",
    str "content-type format value not supported", none, none⟩

/-- None of the entries is supported, although there are some. -/
def NothingAccepted (entries : List MediaType) : Prop :=
  usable stod entries ≠ [] ∧ acceptedFormat stod entries = none

section Accept

variable {headers : List (Str × Str)}
  (present : getHeaderValue headers (str "accept") = some headerValue)
  (lists : Lists headerValue entries)

include present lists

theorem acceptTypes_eq : acceptTypes stod headers = (usable stod entries).map MediaType.text := by
  rw [acceptTypes, present]
  change parseAcceptHeader stod headerValue = _
  rw [parseAcceptHeader_eq stod lists, usable, apply_ite (List.map MediaType.text), List.map_nil]

theorem acceptTypes_eq_nil_iff : acceptTypes stod headers = [] ↔ usable stod entries = [] := by
  rw [acceptTypes_eq stod present lists, List.map_eq_nil_iff]

theorem supportedType_acceptTypes :
    supportedType (acceptTypes stod headers) = .ok (acceptedFormat stod entries) := by
  rw [acceptTypes_eq stod present lists]
  exact supportedType_map lists fun entry member => ((mem_usable stod).mp member).2.1

theorem chooseAccepted_of_nothing (nothing : NothingAccepted stod entries) :
    chooseAccepted (acceptTypes stod headers) = .error notAcceptable := by
  obtain ⟨nonempty, unsupported⟩ := nothing
  have types : acceptTypes stod headers ≠ [] :=
    fun empty => nonempty ((acceptTypes_eq_nil_iff stod present lists).mp empty)
  rw [chooseAccepted, if_neg types, supportedType_acceptTypes stod present lists, unsupported]
  rfl

theorem chooseAccepted_of_not_nothing (something : ¬NothingAccepted stod entries) :
    chooseAccepted (acceptTypes stod headers) = .ok (acceptedFormat stod entries) := by
  by_cases empty : usable stod entries = []
  · rw [(acceptTypes_eq_nil_iff stod present lists).mpr empty, acceptedFormat, empty]
    rfl
  · have types : acceptTypes stod headers ≠ [] :=
      fun nothing => empty ((acceptTypes_eq_nil_iff stod present lists).mp nothing)
    obtain ⟨format, supported⟩ :=
      Option.ne_none_iff_exists'.mp fun unsupported => something ⟨empty, unsupported⟩
    rw [chooseAccepted, if_neg types, supportedType_acceptTypes stod present lists, supported]
    rfl

end Accept

/-- The entry whose media type is taken from the header `content-type`. -/
def IsTaken (entries : List MediaType) (entry : MediaType) : Prop :=
  IsLastGreatest (fun a b => a.isPreferred stod b = true)
    (entries.filter fun entry => entry.qValue stod ≠ 0) entry

variable {headers : List (Str × Str)}
  (present : getHeaderValue headers (str "content-type") = some headerValue)

include present

theorem providedType_eq_some_iff {text : Str} :
    providedType stod headers = some text ↔
      ∃ entries, Lists headerValue entries ∧
        (∀ entry ∈ entries, entry.isRepresentable stod = true) ∧
        ∃ entry, IsTaken stod entries entry ∧ entry.text = text := by
  rw [providedType, present]
  constructor
  case mp =>
    intro provided
    change (parseAcceptHeader stod headerValue).getLast? = some text at provided
    by_cases accepted : ∃ entries, Lists headerValue entries
    · obtain ⟨entries, lists⟩ := accepted
      rw [parseAcceptHeader_eq stod lists] at provided
      by_cases representable : entries.all (MediaType.isRepresentable stod) = true
      · rw [if_pos representable, List.getLast?_map] at provided
        obtain ⟨entry, isLast, same⟩ := Option.map_eq_some_iff.mp provided
        refine ⟨entries, lists, List.all_eq_true.mp representable, entry, ?_, same⟩
        exact (getLast?_insertionSort _).mp isLast
      · rw [if_neg representable] at provided
        cases provided
    · rw [parseAcceptHeader_eq_nil stod accepted] at provided
      cases provided
  case mpr =>
    rintro ⟨entries, lists, representable, entry, isTaken, rfl⟩
    change (parseAcceptHeader stod headerValue).getLast? = some entry.text
    rw [parseAcceptHeader_eq stod lists, if_pos (List.all_eq_true.mpr representable),
      List.getLast?_map, preferences, (getLast?_insertionSort _).mpr isTaken]
    rfl

theorem exists_entry_of_providedType {text : Str}
    (provided : providedType stod headers = some text) :
    ∃ entries entry, Lists headerValue entries ∧ entry ∈ entries ∧ entry.text = text := by
  obtain ⟨entries, lists, _, entry, isTaken, same⟩ :=
    (providedType_eq_some_iff stod present).mp provided
  obtain ⟨before, after, split, _, _⟩ := isTaken
  have member : entry ∈ entries.filter fun entry => entry.qValue stod ≠ 0 := by
    rw [split]
    simp
  exact ⟨entries, entry, lists, List.mem_of_mem_filter member, same⟩

/-- The last member of the header `content-type` is used if and only if the numbers in it can be
represented and the media type of the last member is the one of the entry which is taken. -/
theorem providedType_eq_last_iff (lists : Lists headerValue entries) :
    providedType stod headers = some (entries.getLast lists.ne_nil).text ↔
      (∀ entry ∈ entries, entry.isRepresentable stod = true) ∧
        ∃ entry, IsTaken stod entries entry ∧
          entry.text = (entries.getLast lists.ne_nil).text := by
  rw [providedType_eq_some_iff stod present]
  constructor
  case mp =>
    rintro ⟨others, listsOthers, taken⟩
    obtain rfl := lists.unique listsOthers
    exact taken
  case mpr =>
    intro taken
    exact ⟨entries, lists, taken⟩

omit present

/-- The format by the header `content-type`. -/
def contentFormat (headers : List (Str × Str)) : Option DataFormat :=
  (providedType stod headers).bind (formatOf .forbidden)

/-- There is a media type in the header `content-type`, and it is not supported. -/
def IsRefused (headers : List (Str × Str)) : Prop :=
  (providedType stod headers).isSome ∧ contentFormat stod headers = none

theorem dataTypeFromMimeType_provided {text : Str}
    (provided : providedType stod headers = some text) :
    dataTypeFromMimeType text .forbidden = .ok (formatOf .forbidden text) := by
  cases present : getHeaderValue headers (str "content-type") with
  | none =>
      rw [providedType, present] at provided
      cases provided
  | some headerValue =>
      obtain ⟨entries, entry, lists, member, rfl⟩ :=
        exists_entry_of_providedType stod present provided
      exact dataTypeFromMimeType_text (lists.isRange member) (lists.text_toLower member) _

theorem chooseProvided_of_refused (refused : IsRefused stod headers) :
    chooseProvided (providedType stod headers) = .error unsupportedMediaType := by
  obtain ⟨isSome, unsupported⟩ := refused
  obtain ⟨text, provided⟩ := Option.isSome_iff_exists.mp isSome
  rw [contentFormat, provided] at unsupported
  rw [provided, chooseProvided, dataTypeFromMimeType_provided stod provided]
  change formatOf .forbidden text = none at unsupported
  rw [unsupported]
  rfl

theorem chooseProvided_of_not_refused (accepted : ¬IsRefused stod headers) :
    chooseProvided (providedType stod headers) = .ok (contentFormat stod headers) := by
  cases provided : providedType stod headers with
  | none =>
      rw [contentFormat, provided]
      rfl
  | some text =>
      have supported : contentFormat stod headers ≠ none :=
        fun unsupported => accepted ⟨by rw [provided]; rfl, unsupported⟩
      rw [contentFormat, provided] at supported ⊢
      obtain ⟨format, supported⟩ := Option.ne_none_iff_exists'.mp supported
      change formatOf .forbidden text = some format at supported
      rw [chooseProvided, dataTypeFromMimeType_provided stod provided, Option.bind_some, supported]
      rfl

end Headers

/-! ## Repeated content types -/

namespace Repeated

/-- A number without a sign or a point -/
def wholeNumber (text : Str) : Option Nat :=
  if text ≠ [] ∧ text.all Ascii.isDigit then
    some (text.foldl (fun value c => 10 * value + (c.toNat - 48)) 0)
  else none

def json : MediaType := ⟨⟨str "application", str "yang-data+json"⟩, []⟩

def xml (quality : Str) : MediaType :=
  ⟨⟨str "application", str "yang-data+xml"⟩, [(str "q", quality)]⟩

/-- The XML format is preferred to the JSON format, which is the last one. -/
def lastJson : Str := str "application/yang-data+xml; q=2, application/yang-data+json"

theorem lists_lastJson : Lists lastJson [xml (str "2"), json] :=
  ⟨_, _, rfl, rfl⟩

theorem lastJson_used :
    providedType wholeNumber [(str "content-type", lastJson)] =
        some (List.getLast [xml (str "2"), json] lists_lastJson.ne_nil).text ↔
      (∀ entry ∈ [xml (str "2"), json], entry.isRepresentable wholeNumber = true) ∧
        ∃ entry, IsTaken wholeNumber [xml (str "2"), json] entry ∧
          entry.text = (List.getLast [xml (str "2"), json] lists_lastJson.ne_nil).text :=
  providedType_eq_last_iff wholeNumber rfl lists_lastJson

/-- The XML format is the last one and excluded. -/
def lastExcluded : Str := str "application/yang-data+json, application/yang-data+xml; q=0"

theorem lists_lastExcluded : Lists lastExcluded [json, xml (str "0")] :=
  ⟨_, _, rfl, rfl⟩

theorem lastExcluded_not_used :
    chooseDataEncoding wholeNumber [(str "content-type", lastExcluded)] =
        .ok ⟨some .json, .json⟩ ∧
      providedType wholeNumber [(str "content-type", lastExcluded)] ≠
        some (List.getLast [json, xml (str "0")] lists_lastExcluded.ne_nil).text := by
  constructor
  · rfl
  · decide

end Repeated

end Rousette.Restconf
