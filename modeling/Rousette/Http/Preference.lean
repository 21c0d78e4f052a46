import Rousette.Http.AcceptHeader
import Rousette.Library.StableSort

/-!
# Preference of media ranges

The comparator of `http::parseAcceptHeader` is a strict weak order, so that sorting by it is
defined: higher numbers come first, and among equal ones the more specific media ranges.
-/

namespace Rousette.Http

open Library Parser

namespace MediaType

/-- How much a media range leaves open: nothing, the subtype, or both. -/
def wildcards (entry : MediaType) : Nat :=
  if entry.mime.mediaType = str "*" then 2
  else if entry.mime.mediaSubtype = str "*" then 1
  else 0

section Order

variable {Q : Type} [LinearOrder Q] [Zero Q] [One Q] (stod : Str → Option Q)

/-- The comparator compares the numbers first, and then the wildcards. -/
theorem isPreferred_iff {a b : MediaType} :
    a.isPreferred stod b = true ↔
      b.qValue stod < a.qValue stod ∨
        (a.qValue stod = b.qValue stod ∧ a.wildcards < b.wildcards) := by
  unfold isPreferred
  by_cases same : a.qValue stod = b.qValue stod
  · rw [if_neg (not_not.mpr same)]
    unfold wildcards
    by_cases anyA : a.mime.mediaType = str "*"
    · simp only [anyA, if_true, same, lt_self_iff_false]
      split_ifs <;> simp
    · by_cases anyB : b.mime.mediaType = str "*"
      · simp only [anyA, anyB, if_true, if_false, same, lt_self_iff_false]
        split_ifs <;> simp
      · simp only [anyA, anyB, if_false, same, lt_self_iff_false]
        by_cases openA : a.mime.mediaSubtype = str "*"
        · simp only [openA, if_true]
          split_ifs <;> simp
        · by_cases openB : b.mime.mediaSubtype = str "*"
          · simp [openA, openB]
          · simp [openA, openB]
  · simp [same]

/-- Neither entry is put in front of the other one. -/
theorem not_isPreferred_iff {a b : MediaType} :
    (¬a.isPreferred stod b = true ∧ ¬b.isPreferred stod a = true) ↔
      a.qValue stod = b.qValue stod ∧ a.wildcards = b.wildcards := by
  rw [isPreferred_iff, isPreferred_iff]
  constructor
  case mp =>
    rintro ⟨first, second⟩
    rw [not_or, not_lt, not_and, not_lt] at first second
    have same := le_antisymm first.1 second.1
    exact ⟨same, le_antisymm (second.2 same.symm) (first.2 same)⟩
  case mpr =>
    rintro ⟨same, sameWildcards⟩
    rw [same, sameWildcards]
    simp

instance : IsStrictWeakOrder MediaType fun a b => a.isPreferred stod b = true where
  irrefl a := by simp [isPreferred_iff]
  trans a b c := by
    simp only [isPreferred_iff]
    rintro (less | ⟨same, fewer⟩) (further | ⟨further, fewest⟩)
    · exact .inl (further.trans less)
    · exact .inl (further ▸ less)
    · exact .inl (same ▸ further)
    · exact .inr ⟨same.trans further, fewer.trans fewest⟩
  incomp_trans a b c := by
    simp only [not_isPreferred_iff]
    rintro ⟨same, sameWildcards⟩ ⟨further, furtherWildcards⟩
    exact ⟨same.trans further, sameWildcards.trans furtherWildcards⟩

end Order

end MediaType

/-! ## Entries of a header -/

/-- The header is accepted, and these are its entries in lower case. -/
def Lists (headerValue : Str) (entries : List MediaType) : Prop :=
  ∃ parsed rest, AcceptGrammar.acceptHeader headerValue = .ok parsed rest ∧
    parsed.map MediaType.toLower = entries

theorem Lists.unique {headerValue : Str} {entries others : List MediaType}
    (lists : Lists headerValue entries) (listsOthers : Lists headerValue others) :
    entries = others := by
  obtain ⟨parsed, rest, accepted, rfl⟩ := lists
  obtain ⟨parsed', rest', accepted', rfl⟩ := listsOthers
  rw [accepted] at accepted'
  cases accepted'
  rfl

section Accept

variable {Q : Type} [LinearOrder Q] [Zero Q] [One Q] (stod : Str → Option Q)

/-- The entries which are not excluded, the preferred ones first. -/
def preferences (entries : List MediaType) : List MediaType :=
  (entries.filter fun entry => entry.qValue stod ≠ 0).insertionSort
    fun a b => ¬b.isPreferred stod a

theorem parseAcceptHeader_eq {headerValue : Str} {entries : List MediaType}
    (lists : Lists headerValue entries) :
    parseAcceptHeader stod headerValue =
      if entries.all (MediaType.isRepresentable stod) then
        (preferences stod entries).map MediaType.text
      else [] := by
  obtain ⟨parsed, rest, accepted, rfl⟩ := lists
  simp only [parseAcceptHeader, accepted]
  rfl

theorem parseAcceptHeader_eq_nil {headerValue : Str}
    (refused : ¬∃ entries, Lists headerValue entries) :
    parseAcceptHeader stod headerValue = [] := by
  unfold parseAcceptHeader
  split
  next parsed rest accepted => exact absurd ⟨_, parsed, rest, accepted, rfl⟩ refused
  · rfl

/-- The result is a stable sort of the entries which are not excluded, by a comparator which is a
strict weak order; there is no result if the header is not accepted, or a number in it cannot be
represented. -/
theorem parseAcceptHeader_stablySorted (headerValue : Str) :
    (∀ a b : MediaType, a.isPreferred stod b = true ↔
        b.qValue stod < a.qValue stod ∨
          (a.qValue stod = b.qValue stod ∧ a.wildcards < b.wildcards)) ∧
      IsStrictWeakOrder MediaType (fun a b => a.isPreferred stod b = true) ∧
      ((¬∃ entries, Lists headerValue entries ∧
          ∀ entry ∈ entries, entry.isRepresentable stod = true) →
        parseAcceptHeader stod headerValue = []) ∧
      ∀ entries, Lists headerValue entries →
        (∀ entry ∈ entries, entry.isRepresentable stod = true) →
        ∃ sorted, parseAcceptHeader stod headerValue = sorted.map MediaType.text ∧
          StablySorted (fun a b => a.isPreferred stod b = true)
            (entries.filter fun entry => entry.qValue stod ≠ 0) sorted := by
  refine ⟨fun a b => MediaType.isPreferred_iff stod, inferInstance, ?_, ?_⟩
  · intro refused
    by_cases accepted : ∃ entries, Lists headerValue entries
    · obtain ⟨entries, lists⟩ := accepted
      rw [parseAcceptHeader_eq stod lists, if_neg]
      intro representable
      exact refused ⟨entries, lists, List.all_eq_true.mp representable⟩
    · exact parseAcceptHeader_eq_nil stod accepted
  · intro entries lists representable
    refine ⟨preferences stod entries, ?_, stablySorted_insertionSort _ _⟩
    rw [parseAcceptHeader_eq stod lists, if_pos (List.all_eq_true.mpr representable)]

example : parseAcceptHeader (fun text => some text.length) (str "*/*, a/*, c/d, a/b;q=10") =
    [str "a/b", str "c/d", str "a/*", str "*/*"] := by decide

end Accept

end Rousette.Http
