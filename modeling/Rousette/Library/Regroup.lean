import Mathlib.Algebra.Ring.Nat
import Rousette.Library.Text

/-!
# Regrouping of bits on demand

An iterator adaptor which turns a sequence of small groups of bits into a sequence
of larger ones, pulling input only when the bits of the current output are not
complete.  The end of the input is looked at only between two outputs; left-over
bits are dropped there.  An output which was started is completed no matter where
the input ends, so that it may ask for input behind the end.

The input is read by a parameter which may fail, in particular at the end.
-/

namespace Rousette.Library

/-- Position of the adaptor: the input not read yet, and the group of bits read
last with the number of its bits not used yet. -/
structure Regroup (α : Type) where
  rest : List α
  bufferIn : Nat
  remainingBits : Nat

namespace Regroup

variable {α ε : Type}

/-- The iterator at the beginning of a sequence. -/
def start (input : List α) : Regroup α := ⟨input, 0, 0⟩

/-- Append bits to the output until none is missing.  Each round completes a group
or the output, so that there are at most as many rounds as missing bits. -/
def fill (bitsIn : Nat) (read : List α → Except ε (Nat × List α)) :
    (rounds : Nat) → (missingBits bufferOut : Nat) → Regroup α →
      Except ε (Nat × Regroup α)
  | 0, _, bufferOut, iterator => .ok (bufferOut, iterator)
  | rounds + 1, missingBits, bufferOut, iterator => do
      let iterator ←
        if iterator.remainingBits = 0 then do
          let (bufferIn, rest) ← read iterator.rest
          pure (⟨rest, bufferIn, bitsIn⟩ : Regroup α)
        else
          pure iterator
      let i := min missingBits iterator.remainingBits
      let j := (iterator.bufferIn >>> (iterator.remainingBits - i)) % 2 ^ i
      let bufferOut := (bufferOut <<< i) + j
      let iterator := { iterator with remainingBits := iterator.remainingBits - i }
      if missingBits - i = 0 then
        .ok (bufferOut, iterator)
      else
        fill bitsIn read rounds (missingBits - i) bufferOut iterator

/-- One output. -/
def next (bitsOut bitsIn : Nat) (read : List α → Except ε (Nat × List α))
    (iterator : Regroup α) : Except ε (Nat × Regroup α) :=
  fill bitsIn read bitsOut bitsOut 0 iterator

/-- All outputs up to the end of the input.  Every output reads at least one group,
so the length of the input bounds their number. -/
def collect (bitsOut bitsIn : Nat) (read : List α → Except ε (Nat × List α)) :
    (bound : Nat) → Regroup α → Except ε (List Nat)
  | 0, _ => .ok []
  | bound + 1, iterator =>
      if iterator.rest.isEmpty then
        .ok []
      else do
        let (value, iterator) ← next bitsOut bitsIn read iterator
        let values ← collect bitsOut bitsIn read bound iterator
        return value :: values

/-- One output in front of the others. -/
theorem collect_cons {bitsOut bitsIn : Nat} {read : List α → Except ε (Nat × List α)}
    {iterator after : Regroup α} {value bound : Nat} (unread : iterator.rest ≠ [])
    (output : next bitsOut bitsIn read iterator = .ok (value, after)) :
    collect bitsOut bitsIn read (bound + 1) iterator =
      (collect bitsOut bitsIn read bound after).map (value :: ·) := by
  have notEmpty : iterator.rest.isEmpty = false := by simpa using unread
  cases others : collect bitsOut bitsIn read bound after <;>
    simp [collect, notEmpty, output, others, bind, Except.bind, pure, Except.pure,
      Except.map]

end Regroup

end Rousette.Library
