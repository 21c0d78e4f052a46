import Mathlib.Data.List.Basic

/-!
# Octet strings

A `std::string` is a sequence of octets without any encoding attached to it, so
texts are lists of `UInt8`.  Text literals of the source are plain ASCII and enter
through `str`.  The character classes are the ones of the "C" locale.
-/

namespace Rousette.Library

/-- A sequence of octets. -/
abbrev Str := List UInt8

/-- The octets of an ASCII literal. -/
def str (literal : String) : Str :=
  literal.toList.map fun c => c.toNat.toUInt8

/-- The octet of an ASCII character. -/
def chr (c : Char) : UInt8 := c.toNat.toUInt8

namespace Ascii

/-- `std::isdigit` -/
def isDigit (c : UInt8) : Bool := 48 ≤ c && c ≤ 57

/-- `std::isupper` -/
def isUpper (c : UInt8) : Bool := 65 ≤ c && c ≤ 90

/-- `std::islower` -/
def isLower (c : UInt8) : Bool := 97 ≤ c && c ≤ 122

/-- `std::isalpha` -/
def isAlpha (c : UInt8) : Bool := isUpper c || isLower c

/-- `std::isalnum` -/
def isAlnum (c : UInt8) : Bool := isAlpha c || isDigit c

/-- `std::isxdigit` -/
def isXDigit (c : UInt8) : Bool :=
  isDigit c || (65 ≤ c && c ≤ 70) || (97 ≤ c && c ≤ 102)

/-- `std::tolower` -/
def toLower (c : UInt8) : UInt8 := if isUpper c then c + 32 else c

theorem toLower_toLower (c : UInt8) : toLower (toLower c) = toLower c := by
  by_cases upper : isUpper c
  · simp only [toLower, upper, if_true]
    rw [if_neg]
    simp only [isUpper, Bool.and_eq_true, decide_eq_true_eq, UInt8.le_iff_toNat_le,
      UInt8.toNat_add] at upper ⊢
    simp at upper ⊢
    omega
  · simp [toLower, upper]

/-- Only letters are changed. -/
theorem toLower_eq_iff {c d : UInt8} (noLetter : isAlpha d = false) :
    toLower c = d ↔ c = d := by
  by_cases upper : isUpper c
  · simp only [toLower, upper, if_true]
    simp only [isAlpha, isUpper, isLower, Bool.or_eq_false_iff, Bool.and_eq_false_iff,
      Bool.and_eq_true, decide_eq_true_eq, decide_eq_false_iff_not, UInt8.le_iff_toNat_le]
      at upper noLetter
    rw [← UInt8.toNat_inj, ← UInt8.toNat_inj, UInt8.toNat_add]
    simp at upper noLetter ⊢
    omega
  · simp [toLower, upper]

end Ascii

/-- Decimal digits of a number, most significant first. -/
def decimal (n : Nat) : Str :=
  (Nat.toDigits 10 n).map chr

/-- `boost::algorithm::join` -/
def join (separator : Str) : List Str → Str
  | [] => []
  | [part] => part
  | part :: next :: rest => part ++ separator ++ join separator (next :: rest)

section Separated

variable {α τ : Type} {separator : α} {text : τ → List α}

/-- Parts which do not contain the separator in front of each of them: wherever a separator is
found in the whole, a part begins there. -/
theorem exists_split_of_separated {parts : List τ} (absent : ∀ part, separator ∉ text part)
    {before after : List α} (begins : after.head? = some separator)
    (whole : before ++ after = parts.flatMap fun part => [separator] ++ text part) :
    ∃ first second, parts = first ++ second ∧
      before = first.flatMap (fun part => [separator] ++ text part) ∧
      after = second.flatMap fun part => [separator] ++ text part := by
  induction parts generalizing before with
  | nil =>
      have empty := (List.append_eq_nil_iff.mp whole).2
      simp [empty] at begins
  | cons part parts ih =>
      cases before with
      | nil => exact ⟨[], part :: parts, rfl, rfl, whole⟩
      | cons c before =>
          simp only [List.flatMap_cons, List.cons_append, List.nil_append, List.cons.injEq]
            at whole
          obtain ⟨rfl, whole⟩ := whole
          rcases List.append_eq_append_iff.mp whole with ⟨middle, split, rest⟩ | ⟨middle, rfl, rest⟩
          · cases middle with
            | nil =>
                rw [List.nil_append] at rest
                rw [List.append_nil] at split
                exact ⟨[part], parts, rfl, by simp [split], rest⟩
            | cons d middle =>
                -- the separator would be inside of the part
                rw [rest, List.cons_append, List.head?_cons, Option.some.injEq] at begins
                subst begins
                exact absurd (split ▸ by simp) (absent part)
          · obtain ⟨first, second, rfl, rfl, split⟩ := ih rest.symm
            exact ⟨part :: first, second, rfl, by simp, split⟩

end Separated

section Lengths

variable {α β τ : Type} {f : τ → List α} {g : τ → List β}

theorem length_flatMap_le (each : ∀ part, (g part).length ≤ (f part).length) (parts : List τ) :
    (parts.flatMap g).length ≤ (parts.flatMap f).length := by
  induction parts with
  | nil => exact Nat.le_refl 0
  | cons part parts ih =>
      have first := each part
      simp only [List.flatMap_cons, List.length_append]
      omega

/-- Parts which are not shorter have the same length if the whole has. -/
theorem length_le_of_length_flatMap_le (each : ∀ part, (g part).length ≤ (f part).length)
    {parts : List τ} (whole : (parts.flatMap f).length ≤ (parts.flatMap g).length) :
    ∀ part ∈ parts, (f part).length ≤ (g part).length := by
  induction parts with
  | nil => exact nofun
  | cons part parts ih =>
      have first := each part
      have others := length_flatMap_le each parts
      simp only [List.flatMap_cons, List.length_append] at whole
      intro other member
      rcases List.mem_cons.mp member with rfl | member
      · omega
      · exact ih (by omega) other member

end Lengths

end Rousette.Library
