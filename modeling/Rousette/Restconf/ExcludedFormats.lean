import Rousette.Restconf.ContentNegotiation

/-!
# Excluded formats

A format which the header `accept` only lists with the number zero is not to be chosen for the
response.  The entries with that number are removed before the others are looked at, and a
wildcard stands for the JSON format first.
-/

namespace Rousette.Restconf

open Library Http
open Libyang (DataFormat)

section Choice

variable {Q : Type} [LinearOrder Q] [Zero Q] [One Q] (stod : Str → Option Q)
variable {headers : List (Str × Str)} {headerValue : Str} {entries : List MediaType}

section Chosen

variable (present : getHeaderValue headers (str "accept") = some headerValue)
  (lists : Lists headerValue entries)

include present lists

theorem chooseDataEncoding_of_nothing (nothing : NothingAccepted stod entries) :
    chooseDataEncoding stod headers = .error notAcceptable := by
  rw [chooseDataEncoding, chooseAccepted_of_nothing stod present lists nothing]
  rfl

theorem chooseDataEncoding_of_refused (something : ¬NothingAccepted stod entries)
    (refused : IsRefused stod headers) :
    chooseDataEncoding stod headers = .error unsupportedMediaType := by
  rw [chooseDataEncoding, chooseAccepted_of_not_nothing stod present lists something,
    chooseProvided_of_refused stod refused]
  rfl

theorem chooseDataEncoding_of_accepted (something : ¬NothingAccepted stod entries)
    (accepted : ¬IsRefused stod headers) :
    chooseDataEncoding stod headers =
      .ok ⟨contentFormat stod headers,
        ((acceptedFormat stod entries).or (contentFormat stod headers)).getD .json⟩ := by
  rw [chooseDataEncoding, chooseAccepted_of_not_nothing stod present lists something,
    chooseProvided_of_not_refused stod accepted]
  rfl

end Chosen

/-! ## What the header admits -/

/-- The number of an entry, nothing if it cannot be represented. -/
def quality (entry : MediaType) : Option Q :=
  match entry.parameters.find? fun param => param.1 == str "q" with
  | some param => stod param.2
  | none => some 1

/-- The header has the media range in it. -/
def IsListed (entries : List MediaType) (text : Str) : Prop :=
  ∃ entry ∈ entries, entry.text = text

/-- The header has the media range in it, with another number than zero. -/
def IsAccepted (entries : List MediaType) (text : Str) : Prop :=
  ∃ entry ∈ entries, entry.text = text ∧ quality stod entry ≠ some 0

/-- The most specific one of the ranges which the media type is in is accepted. -/
def AdmitsType (entries : List MediaType) (text : Str) : Prop :=
  IsAccepted stod entries text ∨
    ¬IsListed entries text ∧ (IsAccepted stod entries (str "application/*") ∨
      ¬IsListed entries (str "application/*") ∧ IsAccepted stod entries (str "*/*"))

/-- The header admits a response in the format. -/
def Admits (entries : List MediaType) (format : DataFormat) : Prop :=
  AdmitsType stod entries (asMimeType format) ∨ IsAccepted stod entries (asPatchType format)

/-- The media type of the format is only listed with the number zero. -/
structure Excludes (entries : List MediaType) (format : DataFormat) : Prop where
  isListed : IsListed entries (asMimeType format)
  zero : ∀ entry ∈ entries, entry.text = asMimeType format → quality stod entry = some 0
  noPatch : ¬IsListed entries (asPatchType format)

def otherFormat : DataFormat → DataFormat
  | .json => .xml
  | .xml => .json

/-- The response to a header which excludes a format: it is in the other one if the header admits
that, unless the content of the request is refused, and it is an error if the header does not. -/
def Respects (headers : List (Str × Str)) (entries : List MediaType) (format : DataFormat) : Prop :=
  (Admits stod entries (otherFormat format) →
    (∃ request, chooseDataEncoding stod headers = .ok ⟨request, otherFormat format⟩) ∨
      IsRefused stod headers ∧ chooseDataEncoding stod headers = .error unsupportedMediaType) ∧
  (¬Admits stod entries (otherFormat format) →
    chooseDataEncoding stod headers = .error notAcceptable)

section Outcomes

variable (present : getHeaderValue headers (str "accept") = some headerValue)
  (lists : Lists headerValue entries) {format : DataFormat}

include present lists

theorem respects_iff_of_nothing (nothing : NothingAccepted stod entries) :
    Respects stod headers entries format ↔ ¬Admits stod entries (otherFormat format) := by
  have chosen := chooseDataEncoding_of_nothing stod present lists nothing
  constructor
  case mp =>
    rintro ⟨respects, _⟩ admits
    rcases respects admits with ⟨_, ok⟩ | ⟨_, unsupported⟩
    · rw [chosen] at ok
      cases ok
    · rw [chosen] at unsupported
      cases unsupported
  case mpr =>
    intro refuses
    exact ⟨fun admits => absurd admits refuses, fun _ => chosen⟩

theorem respects_iff_of_something (something : ¬NothingAccepted stod entries) :
    Respects stod headers entries format ↔
      Admits stod entries (otherFormat format) ∧ (IsRefused stod headers ∨
        ((acceptedFormat stod entries).or (contentFormat stod headers)).getD .json =
          otherFormat format) := by
  by_cases refused : IsRefused stod headers
  · have chosen := chooseDataEncoding_of_refused stod present lists something refused
    rw [Respects, chosen]
    constructor
    case mp =>
      rintro ⟨_, others⟩
      by_contra refuses
      have unsupported := others fun admits => refuses ⟨admits, .inl refused⟩
      cases unsupported
    case mpr =>
      rintro ⟨admits, _⟩
      exact ⟨fun _ => .inr ⟨refused, rfl⟩, fun refuses => absurd admits refuses⟩
  · have chosen := chooseDataEncoding_of_accepted stod present lists something refused
    rw [Respects, chosen]
    constructor
    case mp =>
      rintro ⟨respects, others⟩
      have admits : Admits stod entries (otherFormat format) := by
        by_contra refuses
        cases others refuses
      rcases respects admits with ⟨request, ok⟩ | ⟨isRefused, _⟩
      · exact ⟨admits, .inr (congrArg DataEncoding.response (Except.ok.inj ok))⟩
      · exact absurd isRefused refused
    case mpr =>
      rintro ⟨admits, isRefused | same⟩
      · exact absurd isRefused refused
      · exact ⟨fun _ => .inl ⟨_, by rw [same]⟩, fun refuses => absurd admits refuses⟩

end Outcomes

/-! ## The entry which decides -/

theorem formatOf_eq_json_iff {text : Str} :
    formatOf .allowed text = some .json ↔ text ∈ openRanges ∨ text ∈ mimeTypes .json := by
  unfold formatOf
  simp only [true_and]
  split_ifs with isJson isXml
  · simp [isJson]
  · simp [isJson]
  · simp [isJson]

theorem formatOf_eq_xml_iff {text : Str} :
    formatOf .allowed text = some .xml ↔ text ∈ mimeTypes .xml := by
  have distinct : ∀ text ∈ mimeTypes .xml, ¬(text ∈ openRanges ∨ text ∈ mimeTypes .json) := by
    decide
  unfold formatOf
  simp only [true_and]
  split_ifs with isJson isXml
  · simpa using fun isXml => distinct text isXml isJson
  · simp [isXml]
  · simp [isXml]

omit [LinearOrder Q] in
theorem quality_eq_some {entry : MediaType} (representable : entry.isRepresentable stod = true) :
    quality stod entry = some (entry.qValue stod) := by
  unfold quality MediaType.qValue
  cases found : entry.parameters.find? fun param => param.1 == str "q" with
  | none => rfl
  | some param =>
      have isQ := List.find?_some found
      rw [beq_iff_eq] at isQ
      have checked := List.all_eq_true.mp representable param (List.mem_of_find?_eq_some found)
      rw [isQ, bne_self_eq_false, Bool.false_or] at checked
      obtain ⟨value, isValue⟩ := Option.isSome_iff_exists.mp checked
      simp only [isValue]
      rfl

section Representable

variable (representable : ∀ entry ∈ entries, entry.isRepresentable stod = true)

include representable

theorem quality_ne_zero_iff {entry : MediaType} (member : entry ∈ entries) :
    quality stod entry ≠ some 0 ↔ entry ∈ usable stod entries := by
  rw [quality_eq_some stod (representable entry member), mem_usable, ne_eq, Option.some.injEq,
    and_iff_right representable, and_iff_right member]

theorem isAccepted_iff {text : Str} :
    IsAccepted stod entries text ↔ ∃ entry ∈ usable stod entries, entry.text = text := by
  constructor
  case mp =>
    rintro ⟨entry, member, same, nonzero⟩
    exact ⟨entry, (quality_ne_zero_iff stod representable member).mp nonzero, same⟩
  case mpr =>
    rintro ⟨entry, isUsable, same⟩
    have member := ((mem_usable stod).mp isUsable).2.1
    exact ⟨entry, member, same, (quality_ne_zero_iff stod representable member).mpr isUsable⟩

/-- A format which the header admits has an entry. -/
theorem exists_usable_of_admits {format : DataFormat} (admits : Admits stod entries format) :
    ∃ entry ∈ usable stod entries, formatOf .allowed entry.text ≠ none := by
  have supported : ∀ text ∈ openRanges ++ mimeTypes format, formatOf .allowed text ≠ none := by
    cases format <;> decide
  have found : ∃ text ∈ openRanges ++ mimeTypes format, IsAccepted stod entries text := by
    rcases admits with (data | ⟨_, application | ⟨_, anything⟩⟩) | patch
    · exact ⟨_, by simp [mimeTypes], data⟩
    · exact ⟨_, by simp [openRanges], application⟩
    · exact ⟨_, by simp [openRanges], anything⟩
    · exact ⟨_, by simp [mimeTypes], patch⟩
  obtain ⟨text, member, accepted⟩ := found
  obtain ⟨entry, isUsable, rfl⟩ := (isAccepted_iff stod representable).mp accepted
  exact ⟨entry, isUsable, supported _ member⟩

/-- A media type of the format which is not excluded admits it. -/
theorem admits_of_usable {format : DataFormat} {entry : MediaType}
    (isUsable : entry ∈ usable stod entries) (member : entry.text ∈ mimeTypes format) :
    Admits stod entries format := by
  have accepted := (isAccepted_iff stod representable).mpr ⟨entry, isUsable, rfl⟩
  rcases List.mem_pair.mp member with data | patch
  · exact .inl (.inl (data ▸ accepted))
  · exact .inr (patch ▸ accepted)

end Representable

section Wildcards

variable {entry : MediaType} (range : AcceptGrammar.IsRange entry.mime)

include range

theorem wildcards_pos_of_open (isOpen : entry.text ∈ openRanges) : 0 < entry.wildcards := by
  unfold MediaType.wildcards
  rcases (mem_openRanges_iff range).mp isOpen with anything | ⟨_, anySubtype⟩
  · rw [if_pos anything]
    decide
  · split_ifs
    · decide
    · decide

theorem wildcards_eq_zero {format : DataFormat} (isFormat : entry.text ∈ mimeTypes format) :
    entry.wildcards = 0 := by
  have notAny : entry.mime.mediaSubtype ≠ str "*" := by
    intro anySubtype
    have last : entry.text.getLast? = some (chr '*') := by
      rw [MediaType.text, anySubtype]
      exact List.getLast?_concat
    have others : ∀ text ∈ mimeTypes format, text.getLast? ≠ some (chr '*') := by
      cases format <;> decide
    exact others _ isFormat last
  have notAnything : entry.mime.mediaType ≠ str "*" := fun anything => notAny (range.any anything)
  rw [MediaType.wildcards, if_neg notAnything, if_neg notAny]

end Wildcards

/-! ## When the exclusion is respected -/

/-- The response is in the format which is not excluded, although there is the open range. -/
def Outweighs (headers : List (Str × Str)) (entries : List MediaType) (range : MediaType) :
    DataFormat → Prop
  | .json =>
      (∃ entry ∈ entries, entry.text ∈ mimeTypes .xml ∧ entry.qValue stod ≠ 0 ∧
          range.qValue stod ≤ entry.qValue stod) ∨
        IsRefused stod headers ∧ Admits stod entries .xml
  | .xml => Admits stod entries .json

variable {format : DataFormat}

theorem exists_entry_of_acceptedFormat
    (representable : ∀ entry ∈ entries, entry.isRepresentable stod = true)
    (accepted : acceptedFormat stod entries = some format) :
    ∃ entry ∈ usable stod entries, formatOf .allowed entry.text = some format ∧
      ∀ other ∈ usable stod entries, formatOf .allowed other.text ≠ none →
        ¬other.isPreferred stod entry = true := by
  have all := List.all_eq_true.mpr representable
  rw [acceptedFormat, usable, if_pos all] at accepted
  obtain ⟨entry, member, isFound, least⟩ :=
    exists_of_findSome? (fun a b => MediaType.isPreferred stod a b = true) accepted
  simp only [usable, if_pos all, preferences, List.mem_insertionSort]
  exact ⟨entry, member, isFound, least⟩

/-- An excluded format is not among the usable entries. -/
theorem Excludes.not_mem_mimeTypes
    (representable : ∀ entry ∈ entries, entry.isRepresentable stod = true)
    (excludes : Excludes stod entries format) {entry : MediaType}
    (isUsable : entry ∈ usable stod entries) : entry.text ∉ mimeTypes format := by
  intro isFormat
  have member := ((mem_usable stod).mp isUsable).2.1
  rcases List.mem_pair.mp isFormat with data | patch
  · exact (quality_ne_zero_iff stod representable member).mpr isUsable
      (excludes.zero entry member data)
  · exact excludes.noPatch ⟨entry, member, patch⟩

section Main

variable (present : getHeaderValue headers (str "accept") = some headerValue)
  (lists : Lists headerValue entries)

include present lists

/-- The case in which an entry is chosen. -/
theorem respects_iff_of_acceptedFormat
    (representable : ∀ entry ∈ entries, entry.isRepresentable stod = true)
    (excludes : Excludes stod entries format) {chosen : DataFormat}
    (accepted : acceptedFormat stod entries = some chosen) :
    Respects stod headers entries format ↔
      ∀ range ∈ usable stod entries, range.text ∈ openRanges →
        Outweighs stod headers entries range format := by
  have something : ¬NothingAccepted stod entries := fun nothing => by
    rw [nothing.2] at accepted
    cases accepted
  rw [respects_iff_of_something stod present lists something, accepted, Option.some_or,
    Option.getD_some]
  obtain ⟨entry, isUsable, isFormat, least⟩ :=
    exists_entry_of_acceptedFormat stod representable accepted
  have notExcluded := excludes.not_mem_mimeTypes stod representable isUsable
  cases format with
  | json =>
      cases chosen with
      | json =>
          -- the format comes from an open range
          have isOpen := (formatOf_eq_json_iff.mp isFormat).resolve_right notExcluded
          constructor
          case mp =>
            rintro ⟨admits, refused | same⟩ range _ _
            · exact .inr ⟨refused, admits⟩
            · cases same
          case mpr =>
            intro outweighs
            rcases outweighs entry isUsable isOpen with
              ⟨better, member, isXml, nonzero, less⟩ | rest
            · have ranges := lists.isRange (((mem_usable stod).mp isUsable).2.1)
              have fewer : better.wildcards < entry.wildcards := by
                rw [wildcards_eq_zero (lists.isRange member) isXml]
                exact wildcards_pos_of_open ranges isOpen
              have preferred : better.isPreferred stod entry = true := by
                rw [MediaType.isPreferred_iff]
                rcases less.lt_or_eq with less | same
                · exact .inl less
                · exact .inr ⟨same.symm, fewer⟩
              have betterUsable := (mem_usable stod).mpr ⟨representable, member, nonzero⟩
              have supported := Option.ne_none_iff_exists'.mpr
                ⟨_, formatOf_eq_xml_iff.mpr isXml⟩
              exact absurd preferred (least better betterUsable supported)
            · exact ⟨rest.2, .inl rest.1⟩
      | xml =>
          have isXml := formatOf_eq_xml_iff.mp isFormat
          have admits := admits_of_usable stod representable isUsable isXml
          refine iff_of_true ⟨admits, .inr rfl⟩ fun range rangeUsable isOpen => .inl ?_
          have supported := Option.ne_none_iff_exists'.mpr
            ⟨_, formatOf_eq_json_iff.mpr (.inl isOpen)⟩
          have notPreferred := least range rangeUsable supported
          rw [MediaType.isPreferred_iff, not_or, not_lt] at notPreferred
          obtain ⟨_, member, nonzero⟩ := (mem_usable stod).mp isUsable
          exact ⟨entry, member, isXml, nonzero, notPreferred.1⟩
  | xml =>
      cases chosen with
      | json =>
          constructor
          case mp =>
            rintro ⟨admits, _⟩ range _ _
            exact admits
          case mpr =>
            intro outweighs
            refine ⟨?_, .inr rfl⟩
            rcases formatOf_eq_json_iff.mp isFormat with isOpen | isJson
            · exact outweighs entry isUsable isOpen
            · exact admits_of_usable stod representable isUsable isJson
      | xml => exact absurd (formatOf_eq_xml_iff.mp isFormat) notExcluded

/-- The case in which no entry has a format: that is an error unless there are none left. -/
theorem respects_iff_of_unsupported
    (representable : ∀ entry ∈ entries, entry.isRepresentable stod = true)
    (unsupported : acceptedFormat stod entries = none) :
    Respects stod headers entries format ↔ usable stod entries ≠ [] := by
  have refuses : ¬Admits stod entries (otherFormat format) := by
    intro admits
    obtain ⟨entry, isUsable, supported⟩ := exists_usable_of_admits stod representable admits
    exact supported (List.findSome?_eq_none_iff.mp unsupported entry isUsable)
  by_cases empty : usable stod entries = []
  · have something : ¬NothingAccepted stod entries := fun nothing => nothing.1 empty
    rw [respects_iff_of_something stod present lists something]
    exact iff_of_false (fun respects => refuses respects.1) (not_not.mpr empty)
  · rw [respects_iff_of_nothing stod present lists ⟨empty, unsupported⟩]
    exact iff_of_true refuses empty

/-- A format which the header `accept` excludes is not chosen, and the other one or the error is,
if and only if the numbers in the header can be represented, an entry is not excluded and the open
ranges are outweighed; or if they cannot be represented, so that the header does not count, and the
header `content-type` leads to the same. -/
theorem respects_iff (excludes : Excludes stod entries format) :
    Respects stod headers entries format ↔
      (∀ entry ∈ entries, entry.isRepresentable stod = true) ∧
          (∃ entry ∈ entries, entry.qValue stod ≠ 0) ∧
          (∀ range ∈ entries, range.text ∈ openRanges → range.qValue stod ≠ 0 →
            Outweighs stod headers entries range format) ∨
        (¬∀ entry ∈ entries, entry.isRepresentable stod = true) ∧
          Admits stod entries (otherFormat format) ∧ (IsRefused stod headers ∨
            (contentFormat stod headers).getD .json = otherFormat format) := by
  by_cases representable : ∀ entry ∈ entries, entry.isRepresentable stod = true
  · rw [and_iff_right representable, or_iff_left fun outside => outside.1 representable]
    have usable_iff : ∀ entry, entry ∈ usable stod entries ↔
        entry ∈ entries ∧ entry.qValue stod ≠ 0 := fun entry => by
      rw [mem_usable, and_iff_right representable]
    cases accepted : acceptedFormat stod entries with
    | some chosen =>
        obtain ⟨entry, isUsable, _⟩ :=
          exists_entry_of_acceptedFormat stod representable accepted
        rw [respects_iff_of_acceptedFormat stod present lists representable excludes accepted,
          and_iff_right ⟨entry, (usable_iff entry).mp isUsable⟩]
        simp only [usable_iff, and_imp]
        exact forall₂_congr fun range _ => forall_comm
    | none =>
        rw [respects_iff_of_unsupported stod present lists representable accepted]
        constructor
        case mp =>
          intro nonempty
          obtain ⟨entry, isUsable⟩ := List.exists_mem_of_ne_nil _ nonempty
          refine ⟨⟨entry, (usable_iff entry).mp isUsable⟩, ?_⟩
          intro range member isOpen nonzero
          have isUsable := (usable_iff range).mpr ⟨member, nonzero⟩
          have supported := formatOf_eq_json_iff.mpr (.inl isOpen)
          rw [List.findSome?_eq_none_iff.mp accepted range isUsable] at supported
          cases supported
        case mpr =>
          rintro ⟨⟨entry, inside⟩, _⟩
          exact List.ne_nil_of_mem ((usable_iff entry).mpr inside)
  · have empty : usable stod entries = [] :=
      if_neg fun all => representable (List.all_eq_true.mp all)
    have something : ¬NothingAccepted stod entries := fun nothing => nothing.1 empty
    rw [respects_iff_of_something stod present lists something, acceptedFormat, empty]
    simp only [representable, false_and, false_or, not_false_eq_true, true_and]
    rfl

end Main

end Choice

namespace ExcludedJson

open Repeated (wholeNumber)

def json : MediaType := ⟨⟨str "application", str "yang-data+json"⟩, [(str "q", str "0")]⟩

def xml : MediaType := ⟨⟨str "application", str "yang-data+xml"⟩, []⟩

def anything : MediaType := ⟨⟨str "*", str "*"⟩, []⟩

theorem excludes_json {entries : List MediaType}
    (others : ∀ entry ∈ entries, entry.text ≠ json.text ∧ entry.text ≠ asPatchType .json) :
    Excludes wholeNumber (json :: entries) .json where
  isListed := ⟨json, List.mem_cons_self, rfl⟩
  zero entry member same := by
    rcases List.mem_cons.mp member with rfl | member
    · rfl
    · exact absurd same (others entry member).1
  noPatch := by
    rintro ⟨entry, member, same⟩
    rcases List.mem_cons.mp member with rfl | member
    · exact absurd same (by decide)
    · exact (others entry member).2 same

/-- The other format is in the header as well. -/
theorem respects_xml :
    Respects wholeNumber
      [(str "accept", str "application/yang-data+json; q=0, application/yang-data+xml, */*")]
      [json, xml, anything] .json := by
  have lists : Lists (str "application/yang-data+json; q=0, application/yang-data+xml, */*")
      [json, xml, anything] := ⟨_, _, rfl, rfl⟩
  have excludes : Excludes wholeNumber [json, xml, anything] .json := excludes_json (by decide)
  refine (respects_iff wholeNumber rfl lists excludes).mpr
    (.inl ⟨by decide, ⟨xml, by decide, by decide⟩, ?_⟩)
  intro range member _ _
  have less : ∀ range ∈ [json, xml, anything],
      range.qValue wholeNumber ≤ xml.qValue wholeNumber := by decide
  exact Or.inl ⟨xml, by decide, by decide, by decide, less range member⟩

/-- Only a wildcard is left, which stands for the format which is excluded. -/
theorem not_respects_anything :
    Lists (str "application/yang-data+json; q=0, */*") [json, anything] ∧
      Excludes wholeNumber [json, anything] .json ∧
      chooseDataEncoding wholeNumber
        [(str "accept", str "application/yang-data+json; q=0, */*")] = .ok ⟨none, .json⟩ ∧
      ¬Respects wholeNumber [(str "accept", str "application/yang-data+json; q=0, */*")]
        [json, anything] .json := by
  have chosen : chooseDataEncoding wholeNumber
      [(str "accept", str "application/yang-data+json; q=0, */*")] = .ok ⟨none, .json⟩ := rfl
  refine ⟨⟨_, _, rfl, rfl⟩, excludes_json (by decide), chosen, ?_⟩
  rintro ⟨respects, others⟩
  rw [chosen] at respects others
  by_cases admits : Admits wholeNumber [json, anything] (otherFormat .json)
  · rcases respects admits with ⟨_, same⟩ | ⟨_, same⟩
    · cases same
    · cases same
  · cases others admits

end ExcludedJson

end Rousette.Restconf
