import Mathlib.Algebra.Ring.Nat
import Rousette.Library.Text

/-!
# Base64

The encoding of octets by the characters of a base64 alphabet, three octets by four characters,
with the padding kept apart from it.
-/

namespace Rousette.Library.Base64

/-- The characters for the numbers below 64. -/
def alphabet : Str :=
  str "ABCDEFGHIJKLMNOPQRSTUVWXYZabcdefghijklmnopqrstuvwxyz0123456789+/"

/-- The character for six bits. -/
def digit (bits : Nat) : UInt8 := alphabet.getD bits 0

/-- The characters for a text, without padding. -/
def encode : Str → Str
  | [] => []
  | [x] => [digit (x.toNat / 4), digit (x.toNat % 4 * 16)]
  | [x, y] =>
      [digit (x.toNat / 4), digit (x.toNat % 4 * 16 + y.toNat / 16), digit (y.toNat % 16 * 4)]
  | x :: y :: z :: rest =>
      digit (x.toNat / 4) :: digit (x.toNat % 4 * 16 + y.toNat / 16) ::
        digit (y.toNat % 16 * 4 + z.toNat / 64) :: digit (z.toNat % 64) :: encode rest

/-- What fills the last group of four characters. -/
def padding (text : Str) : Str := List.replicate ((3 - text.length % 3) % 3) (chr '=')

example : encode (str "ab") ++ padding (str "ab") = str "YWI=" := by decide

theorem length_padding_le (text : Str) : (padding text).length ≤ 2 := by
  rw [padding, List.length_replicate]
  omega

/-- Every character is one of the alphabet. -/
theorem forall_mem_encode {property : UInt8 → Prop}
    (digits : ∀ bits < 64, property (digit bits)) (text : Str) :
    ∀ c ∈ encode text, property c := by
  induction text using encode.induct with
  | case1 => exact nofun
  | case2 x =>
      have boundX := x.toNat_lt
      simp only [encode, List.forall_mem_cons]
      exact ⟨digits _ (by omega), digits _ (by omega), nofun⟩
  | case3 x y =>
      have boundX := x.toNat_lt
      have boundY := y.toNat_lt
      simp only [encode, List.forall_mem_cons]
      exact ⟨digits _ (by omega), digits _ (by omega), digits _ (by omega), nofun⟩
  | case4 x y z rest ih =>
      have boundX := x.toNat_lt
      have boundY := y.toNat_lt
      have boundZ := z.toNat_lt
      simp only [encode, List.forall_mem_cons]
      exact ⟨digits _ (by omega), digits _ (by omega), digits _ (by omega), digits _ (by omega),
        ih⟩

end Rousette.Library.Base64
