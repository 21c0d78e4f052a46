import Mathlib.Data.List.Basic

/-!
# Chunks of a queue

A queue of pieces is handed out in chunks of another size: whole pieces from the front as
long as there is room, and then as much of the next one as fits.
-/

namespace Rousette.Library

variable {α : Type}

/-- A chunk from the front of a queue, and what is left of the queue. -/
def chunk : List (List α) → Nat → List α × List (List α)
  | [], _ => ([], [])
  | piece :: rest, room =>
      if room < piece.length then (piece.take room, piece.drop room :: rest)
      else
        let further := chunk rest (room - piece.length)
        (piece ++ further.1, further.2)

/-- Nothing is lost, duplicated or reordered. -/
theorem chunk_append (queue : List (List α)) (room : Nat) :
    (chunk queue room).1 ++ (chunk queue room).2.flatten = queue.flatten := by
  induction queue generalizing room with
  | nil => rfl
  | cons piece rest ih =>
      unfold chunk
      split
      · rw [List.flatten_cons, List.flatten_cons, ← List.append_assoc, List.take_append_drop]
      · rw [List.flatten_cons, List.append_assoc, ih]

/-- No empty piece comes about. -/
theorem chunk_ne_nil {queue : List (List α)} (nonempty : ∀ piece ∈ queue, piece ≠ [])
    (room : Nat) : ∀ piece ∈ (chunk queue room).2, piece ≠ [] := by
  induction queue generalizing room with
  | nil => simp [chunk]
  | cons piece rest ih =>
      rw [List.forall_mem_cons] at nonempty
      unfold chunk
      split
      next fits =>
        refine List.forall_mem_cons.mpr ⟨?_, nonempty.2⟩
        intro nothing
        have length := congrArg List.length nothing
        rw [List.length_drop, List.length_nil] at length
        omega
      · exact ih nonempty.2 _

end Rousette.Library
