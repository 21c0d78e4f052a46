import Mathlib.Algebra.Order.Ring.Nat
import Mathlib.Data.List.Induction
import Mathlib.Tactic.Ring

/-!
# Positional notation

Numbers in a fixed number of digits, most significant first.  A digit may have several
characters, such as the letters of hexadecimal notation in either case; `canonical` gives the
one which is written.
-/

namespace Rousette.Library.Positional

variable {α : Type} (base : Nat) (digit : α → Nat) (character : Nat → α)

/-- The number which some digits stand for. -/
def value (digits : List α) : Nat := digits.foldl (fun n c => n * base + digit c) 0

/-- The last digits of a number. -/
def render : Nat → Nat → List α
  | 0, _ => []
  | count + 1, n => render count (n / base) ++ [character (n % base)]

@[simp] theorem length_render (count n : Nat) : (render base character count n).length = count := by
  induction count generalizing n with
  | zero => rfl
  | succ count ih => simp [render, ih]

/-- The digits in front of the last ones are those of a quotient. -/
theorem render_add (more count n : Nat) :
    render base character (more + count) n =
      render base character more (n / base ^ count) ++ render base character count n := by
  induction count generalizing n with
  | zero => simp [render]
  | succ count ih =>
      rw [← Nat.add_assoc, render, ih, render, Nat.div_div_eq_div_mul, ← Nat.pow_succ',
        List.append_assoc]

variable {base digit character}

@[simp] theorem value_nil : value base digit [] = 0 := rfl

theorem value_append_singleton (digits : List α) (c : α) :
    value base digit (digits ++ [c]) = value base digit digits * base + digit c := by
  simp [value]

theorem value_append (digits more : List α) :
    value base digit (digits ++ more) =
      value base digit digits * base ^ more.length + value base digit more := by
  induction more using List.reverseRecOn with
  | nil => simp
  | append_singleton more c ih =>
      rw [← List.append_assoc, value_append_singleton, ih, value_append_singleton,
        List.length_append, List.length_singleton, Nat.pow_succ]
      ring

theorem value_lt {digits : List α} (below : ∀ c ∈ digits, digit c < base) :
    value base digit digits < base ^ digits.length := by
  induction digits using List.reverseRecOn with
  | nil => simp
  | append_singleton digits c ih =>
      have front := ih fun d member => below d (List.mem_append_left _ member)
      have last := below c (List.mem_append_right _ (List.mem_singleton_self c))
      rw [value_append_singleton, List.length_append, List.length_singleton, Nat.pow_succ]
      calc value base digit digits * base + digit c
          < value base digit digits * base + base := Nat.add_lt_add_left last _
        _ = (value base digit digits + 1) * base := by ring
        _ ≤ base ^ digits.length * base := Nat.mul_le_mul_right base front

/-- Reading what was written. -/
theorem value_render (reads : ∀ n < base, digit (character n) = n) (positive : 0 < base)
    (count n : Nat) : value base digit (render base character count n) = n % base ^ count := by
  induction count generalizing n with
  | zero => simp [render, Nat.mod_one]
  | succ count ih =>
      rw [render, value_append_singleton, ih, reads _ (Nat.mod_lt n positive), Nat.pow_succ',
        Nat.mod_mul, Nat.add_comm, Nat.mul_comm]

/-- Writing what was read, possibly behind other digits. -/
theorem render_value {canonical : α → α} {digits : List α}
    (reads : ∀ c ∈ digits, digit c < base ∧ character (digit c) = canonical c) (front : Nat) :
    render base character digits.length
        (front * base ^ digits.length + value base digit digits) =
      digits.map canonical := by
  induction digits using List.reverseRecOn with
  | nil => rfl
  | append_singleton digits c ih =>
      have others := ih fun d member => reads d (List.mem_append_left _ member)
      obtain ⟨below, canonicalHere⟩ :=
        reads c (List.mem_append_right _ (List.mem_singleton_self c))
      have positive : 0 < base := Nat.zero_lt_of_lt below
      have split : front * base ^ (digits.length + 1) +
          (value base digit digits * base + digit c) =
            digit c + base * (front * base ^ digits.length + value base digit digits) := by
        rw [Nat.pow_succ]
        ring
      rw [List.length_append, List.length_singleton, value_append_singleton, split, render,
        Nat.add_mul_div_left _ _ positive, Nat.div_eq_of_lt below, Nat.zero_add, others,
        Nat.add_mul_mod_self_left, Nat.mod_eq_of_lt below, canonicalHere, List.map_append]
      rfl

end Rousette.Library.Positional
