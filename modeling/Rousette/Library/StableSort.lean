import Mathlib.Data.List.Sort

/-!
# Stable sorting

Sorting by a strict weak order, which may hold many elements for equal.  The result is a
permutation in which no element is less than one before it, and in which the elements that are
equal to each other are in the order they were in.
-/

namespace Rousette.Library

variable {α : Type} (lt : α → α → Prop)

section Orders

variable [IsStrictWeakOrder α lt]

/-- What is not less than something else is not less than what is less than that. -/
theorem not_lt_of_not_lt {a b c : α} (first : ¬lt b a) (second : ¬lt c b) : ¬lt c a := by
  intro less
  have notLess : ¬lt a b := fun other => second (IsTrans.trans _ _ _ less other)
  have notGreater : ¬lt b c := fun other => first (IsTrans.trans _ _ _ other less)
  have equal := IsStrictWeakOrder.incomp_trans a b c ⟨notLess, first⟩ ⟨notGreater, second⟩
  exact equal.2 less

theorem lt_or_lt {a c : α} (less : lt a c) (b : α) : lt a b ∨ lt b c := by
  by_contra neither
  rw [not_or] at neither
  exact not_lt_of_not_lt lt neither.2 neither.1 less

instance total_not_lt : Std.Total fun a b => ¬lt b a where
  total a b := by
    by_cases less : lt b a
    · exact .inr (asymm less)
    · exact .inl less

instance isTrans_not_lt : IsTrans α fun a b => ¬lt b a where
  trans _ _ _ := not_lt_of_not_lt lt

end Orders

/-- The last one of the elements which no other one is greater than. -/
def IsLastGreatest (input : List α) (element : α) : Prop :=
  ∃ before after, input = before ++ element :: after ∧ (∀ other ∈ before, ¬lt element other) ∧
    ∀ other ∈ after, lt other element

theorem IsLastGreatest.unique {input : List α} {element other : α}
    (greatest : IsLastGreatest lt input element) (another : IsLastGreatest lt input other) :
    element = other := by
  obtain ⟨before, after, rfl, notLess, less⟩ := greatest
  obtain ⟨before', after', same, notLess', less'⟩ := another
  rcases List.append_eq_append_iff.mp same with ⟨between, rfl, rest⟩ | ⟨between, rfl, rest⟩
  · cases between with
    | nil => exact (List.cons.inj rest).1
    | cons c between =>
        obtain ⟨rfl, rfl⟩ := List.cons.inj rest
        have less := less other (by simp)
        exact absurd less (notLess' element (by simp))
  · cases between with
    | nil => exact (List.cons.inj rest).1.symm
    | cons c between =>
        obtain ⟨rfl, rfl⟩ := List.cons.inj rest
        have less := less' element (by simp)
        exact absurd less (notLess other (by simp))

variable [DecidableRel lt]

/-- Neither element is less than the other one. -/
def AreTied (a b : α) : Bool := ¬lt a b ∧ ¬lt b a

/-- The result of a stable sort. -/
structure StablySorted (input output : List α) : Prop where
  perm : output.Perm input
  sorted : output.Pairwise fun a b => ¬lt b a
  stable : ∀ a, output.filter (AreTied lt a) = input.filter (AreTied lt a)

section Sorting

variable [IsStrictWeakOrder α lt]

/-- Elements which are tied with the same one are tied. -/
theorem not_lt_of_tied {a b c : α} (first : AreTied lt a b = true)
    (second : AreTied lt a c = true) : ¬lt c b := by
  rw [AreTied, decide_eq_true_eq] at first second
  exact not_lt_of_not_lt lt first.1 second.2

theorem stablySorted_insertionSort (input : List α) :
    StablySorted lt input (input.insertionSort fun a b => ¬lt b a) := by
  have permutes := List.perm_insertionSort (fun a b => ¬lt b a) input
  constructor
  case perm => exact permutes
  case sorted => exact List.pairwise_insertionSort _ input
  case stable =>
    intro a
    have tied : (input.filter (AreTied lt a)).Pairwise fun b c => ¬lt c b := by
      refine List.pairwise_of_forall_mem_list ?_
      intro b first c second
      exact not_lt_of_tied lt (List.mem_filter.mp first).2 (List.mem_filter.mp second).2
    have inside := List.sublist_insertionSort tied List.filter_sublist
    have filtered := inside.filter (AreTied lt a)
    rw [List.filter_filter] at filtered
    simp only [Bool.and_self] at filtered
    exact (filtered.eq_of_length (permutes.filter _).length_eq.symm).symm

/-- What is inserted gets to the end if it is greater than everything. -/
theorem getLast?_orderedInsert {sorted : List α} (pairwise : sorted.Pairwise fun a b => ¬lt b a)
    {last : α} (isLast : sorted.getLast? = some last) (element : α) :
    (sorted.orderedInsert (fun a b => ¬lt b a) element).getLast? =
      some (if lt last element then element else last) := by
  induction sorted with
  | nil => cases isLast
  | cons first rest ih =>
      obtain ⟨least, pairwise⟩ := List.pairwise_cons.mp pairwise
      by_cases less : lt first element
      · rw [List.orderedInsert_cons, if_neg (not_not.mpr less), List.getLast?_cons]
        cases rest with
        | nil =>
            obtain rfl : first = last := Option.some.inj isLast
            rw [if_pos less]
            rfl
        | cons next rest =>
            rw [List.getLast?_cons_cons] at isLast
            rw [ih pairwise isLast]
            rfl
      · rw [List.orderedInsert_cons, if_pos less, List.getLast?_cons_cons, isLast]
        have notLess : ¬lt last element := by
          rcases List.mem_cons.mp (List.mem_of_getLast? isLast) with rfl | member
          · exact less
          · exact fun other => (lt_or_lt lt other first).elim (least last member) less
        rw [if_neg notLess]

/-- The last element of the result is the last one of the greatest ones. -/
theorem getLast?_insertionSort {input : List α} {element : α} :
    (input.insertionSort fun a b => ¬lt b a).getLast? = some element ↔
      IsLastGreatest lt input element := by
  have exists_last : ∀ input : List α, input ≠ [] → ∃ last,
      (input.insertionSort fun a b => ¬lt b a).getLast? = some last ∧
        IsLastGreatest lt input last := by
    intro input
    induction input with
    | nil => exact fun nonempty => absurd rfl nonempty
    | cons first rest ih =>
        intro _
        by_cases single : rest = []
        · subst single
          exact ⟨first, rfl, [], [], rfl, nofun, nofun⟩
        · obtain ⟨last, isLast, before, after, rfl, notLess, less⟩ := ih single
          have inserted := getLast?_orderedInsert lt (List.pairwise_insertionSort _ _) isLast first
          refine ⟨_, inserted, ?_⟩
          by_cases greater : lt last first
          · rw [if_pos greater]
            refine ⟨[], _, rfl, nofun, ?_⟩
            intro other member
            rcases List.mem_append.mp member with member | member
            · rcases lt_or_lt lt greater other with above | below
              · exact absurd above (notLess other member)
              · exact below
            · rcases List.mem_cons.mp member with rfl | member
              · exact greater
              · exact IsTrans.trans _ _ _ (less other member) greater
          · rw [if_neg greater]
            exact ⟨first :: before, after, rfl, List.forall_mem_cons.mpr ⟨greater, notLess⟩, less⟩
  constructor
  case mp =>
    intro isLast
    have nonempty : input ≠ [] := by
      rintro rfl
      cases isLast
    obtain ⟨last, found, greatest⟩ := exists_last input nonempty
    rw [found] at isLast
    cases isLast
    exact greatest
  case mpr =>
    intro greatest
    have nonempty : input ≠ [] := by
      obtain ⟨before, after, rfl, _⟩ := greatest
      simp
    obtain ⟨last, found, other⟩ := exists_last input nonempty
    rw [found, greatest.unique lt other]

/-- Where a value is found first: none of the elements with a value is less than that one. -/
theorem exists_of_findSome? {β : Type} {input : List α} {f : α → Option β} {value : β}
    (found : (input.insertionSort fun a b => ¬lt b a).findSome? f = some value) :
    ∃ element ∈ input, f element = some value ∧
      ∀ other ∈ input, f other ≠ none → ¬lt other element := by
  obtain ⟨before, element, after, same, isFound, without⟩ := List.findSome?_eq_some_iff.mp found
  have sorted := List.pairwise_insertionSort (fun a b => ¬lt b a) input
  have inside : ∀ other, other ∈ (input.insertionSort fun a b => ¬lt b a) ↔ other ∈ input :=
    fun other => List.mem_insertionSort _
  rw [same] at inside sorted
  refine ⟨element, (inside element).mp (by simp), isFound, fun other member hasValue => ?_⟩
  rcases List.mem_append.mp ((inside other).mpr member) with member | member
  · exact absurd (without other member) hasValue
  · rcases List.mem_cons.mp member with rfl | member
    · exact irrefl other
    · exact (List.pairwise_cons.mp (List.pairwise_append.mp sorted).2.1).1 other member

end Sorting

end Rousette.Library
