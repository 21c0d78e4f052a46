import Rousette.Restconf.ContentNegotiation
import Rousette.Restconf.Server.Write

/-!
# Detection of a YANG Patch

The handler of a payload compares the header `content-type` as it is, while the format of the
payload is chosen by the media type which was parsed from it.
-/

namespace Rousette.Restconf.Server

open Library Http

/-- The media types of a YANG Patch. -/
def IsPatchType (text : Str) : Prop := ∃ format, text = asPatchType format

section Detection

variable {ctx : RequestContext}

theorem isYangPatch_iff {headerValue : Str} (header : ctx.contentTypeHeader = some headerValue) :
    isYangPatch ctx = true ↔ IsPatchType headerValue := by
  rw [isYangPatch, header, Bool.or_eq_true, beq_iff_eq, beq_iff_eq, Option.some.injEq,
    Option.some.injEq]
  constructor
  case mp =>
    rintro (xml | json)
    · exact ⟨.xml, xml⟩
    · exact ⟨.json, json⟩
  case mpr =>
    rintro ⟨format, same⟩
    cases format with
    | json => exact .inr same
    | xml => exact .inl same

theorem processing_eq_yangPatch_iff (merge : ctx.restconfRequest.type = .mergeData) :
    processing ctx = .yangPatch ↔ isYangPatch ctx = true := by
  rw [processing, merge, if_neg nofun]
  cases isYangPatch ctx <;> simp

variable {Q : Type} [LinearOrder Q] [Zero Q] [One Q] (stod : Str → Option Q)

/-- The media type of a header without any parameters. -/
def patchEntry : Libyang.DataFormat → MediaType
  | .json => ⟨⟨str "application", str "yang-patch+json"⟩, []⟩
  | .xml => ⟨⟨str "application", str "yang-patch+xml"⟩, []⟩

theorem lists_patchType (format : Libyang.DataFormat) :
    Lists (asPatchType format) [patchEntry format] := by
  cases format with
  | json => exact ⟨_, _, rfl, rfl⟩
  | xml => exact ⟨_, _, rfl, rfl⟩

variable {headers : List (Str × Str)}

/-- A media type which is the whole header is the one which is used. -/
theorem providedType_patchType [NeZero (1 : Q)] {format : Libyang.DataFormat}
    (present : getHeaderValue headers (str "content-type") = some (asPatchType format)) :
    providedType stod headers = some (asPatchType format) := by
  rw [providedType_eq_some_iff stod present]
  have noParameters : (patchEntry format).parameters = [] := by cases format <;> rfl
  refine ⟨_, lists_patchType format, ?_, patchEntry format, ?_, ?_⟩
  · intro entry member
    rw [List.mem_singleton.mp member, MediaType.isRepresentable, noParameters]
    rfl
  · have nonzero : (patchEntry format).qValue stod ≠ 0 := by
      rw [MediaType.qValue, noParameters]
      exact NeZero.ne 1
    rw [IsTaken, List.filter_singleton, decide_eq_true nonzero]
    exact ⟨[], [], rfl, nofun, nofun⟩
  · cases format <;> rfl

variable {headerValue : Str}

/-- A `PATCH` is processed as a YANG Patch exactly if that is the media type which is used, if and
only if the header is nothing but such a media type or another one is taken from it. -/
theorem processing_agrees_iff [NeZero (1 : Q)]
    (present : getHeaderValue headers (str "content-type") = some headerValue)
    (header : ctx.contentTypeHeader = some headerValue)
    (merge : ctx.restconfRequest.type = .mergeData) :
    (processing ctx = .yangPatch ↔
        ∃ text, providedType stod headers = some text ∧ IsPatchType text) ↔
      IsPatchType headerValue ∨
        ∀ entries entry, Lists headerValue entries →
          (∀ other ∈ entries, other.isRepresentable stod = true) →
          IsTaken stod entries entry → ¬IsPatchType entry.text := by
  rw [processing_eq_yangPatch_iff merge, isYangPatch_iff header]
  by_cases isPatch : IsPatchType headerValue
  · refine iff_of_true (iff_of_true isPatch ?_) (.inl isPatch)
    obtain ⟨format, rfl⟩ := isPatch
    exact ⟨_, providedType_patchType stod present, format, rfl⟩
  · rw [iff_false_left isPatch, or_iff_right isPatch]
    constructor
    case mp =>
      intro unused entries entry lists representable isTaken patch
      refine unused ⟨entry.text, ?_, patch⟩
      exact (providedType_eq_some_iff stod present).mpr
        ⟨entries, lists, representable, entry, isTaken, rfl⟩
    case mpr =>
      rintro others ⟨text, provided, patch⟩
      obtain ⟨entries, lists, representable, entry, isTaken, rfl⟩ :=
        (providedType_eq_some_iff stod present).mp provided
      exact others entries entry lists representable isTaken patch

end Detection

namespace PatchWithCharset

open Repeated (wholeNumber)

/-- A `PATCH` of the datastore resource with a header `content-type`. -/
def context (contentType : Str) : RequestContext where
  method := str "PATCH"
  rawPath := str "/restconf/data"
  path := str "/restconf/data"
  responseFormat := .json
  urlPrefix := none
  requestFormat := .json
  activeDatastore := .running
  restconfRequest := ⟨.mergeData, none, str "/", []⟩
  contentTypeHeader := some contentType
  payload := []

/-- Without parameters it is detected. -/
theorem patchType_detected :
    processing (context (asPatchType .json)) = .yangPatch ↔
      ∃ text, providedType wholeNumber [(str "content-type", asPatchType .json)] = some text ∧
        IsPatchType text :=
  (processing_agrees_iff wholeNumber rfl rfl rfl).mpr (.inl ⟨.json, rfl⟩)

def withCharset : Str := str "application/yang-patch+json; charset=utf-8"

/-- With a parameter it is processed as a plain patch. -/
theorem withCharset_not_detected :
    chooseDataEncoding wholeNumber [(str "content-type", withCharset)] =
        .ok ⟨some .json, .json⟩ ∧
      processing (context withCharset) ≠ .yangPatch ∧
      providedType wholeNumber [(str "content-type", withCharset)] = some (asPatchType .json) ∧
      IsPatchType (asPatchType .json) :=
  ⟨rfl, by decide, by decide, .json, rfl⟩

end PatchWithCharset

end Rousette.Restconf.Server
