import Mathlib.Data.List.Forall2

/-!
# Loops

A loop is given by one iteration, which yields the next state, or nothing when the guard is
false.  It ends in a state if some number of iterations leads there and the guard is false
in it; a loop which does not end is one for which there is no such state.
-/

namespace Rousette.Library.Loop

variable {σ : Type} {iteration : σ → Option σ} {start middle final : σ}

/-- Run a loop, with a bound on the number of iterations. -/
def run (iteration : σ → Option σ) : Nat → σ → Option σ
  | 0, _ => none
  | fuel + 1, state =>
      match iteration state with
      | none => some state
      | some next => run iteration fuel next

/-- The loop ends in the state `final`. -/
def Ends (iteration : σ → Option σ) (start final : σ) : Prop :=
  ∃ fuel, run iteration fuel start = some final

/-- A bound which is enough stays enough when it grows. -/
theorem run_mono {fuel more : Nat} (le : fuel ≤ more)
    (done : run iteration fuel start = some final) :
    run iteration more start = some final := by
  induction fuel generalizing more start with
  | zero => cases done
  | succ fuel ih =>
      cases more with
      | zero => cases le
      | succ more =>
          simp only [run] at done ⊢
          cases taken : iteration start with
          | none => simpa only [taken] using done
          | some next =>
              simp only [taken] at done ⊢
              exact ih (Nat.le_of_succ_le_succ le) done

namespace Ends

theorem exit (guard : iteration start = none) : Ends iteration start start :=
  ⟨1, by simp only [run, guard]⟩

theorem next (taken : iteration start = some middle) (further : Ends iteration middle final) :
    Ends iteration start final := by
  obtain ⟨fuel, done⟩ := further
  exact ⟨fuel + 1, by simp only [run, taken, done]⟩

/-- A loop ends in at most one state. -/
theorem unique {other : σ} (ends : Ends iteration start final)
    (also : Ends iteration start other) : final = other := by
  obtain ⟨fuel, done⟩ := ends
  obtain ⟨more, finished⟩ := also
  have first := run_mono (Nat.le_max_left fuel more) done
  rw [run_mono (Nat.le_max_right fuel more) finished] at first
  exact (Option.some.inj first).symm

/-- What holds at the start and is kept by every iteration holds where the loop ends. -/
theorem invariant {holds : σ → Prop} (initial : holds start)
    (kept : ∀ state next, holds state → iteration state = some next → holds next)
    (ends : Ends iteration start final) : holds final ∧ iteration final = none := by
  obtain ⟨fuel, done⟩ := ends
  induction fuel generalizing start with
  | zero => cases done
  | succ fuel ih =>
      simp only [run] at done
      cases taken : iteration start with
      | none =>
          simp only [taken, Option.some.injEq] at done
          exact done ▸ ⟨initial, taken⟩
      | some next =>
          simp only [taken] at done
          exact ih (kept start next initial taken) done

end Ends

/-- A loop whose guard stays true does not end. -/
theorem not_ends {holds : σ → Prop} (initial : holds start)
    (kept : ∀ state, holds state → ∃ next, iteration state = some next ∧ holds next) :
    ¬Ends iteration start final := by
  intro ends
  have stays : ∀ state next, holds state → iteration state = some next → holds next := by
    intro state next here taken
    obtain ⟨other, also, there⟩ := kept state here
    rw [taken, Option.some.injEq] at also
    exact also ▸ there
  obtain ⟨here, exited⟩ := ends.invariant initial stays
  obtain ⟨next, taken, _⟩ := kept final here
  rw [taken] at exited
  cases exited

/-! ## Loops over a list -/

section Lists

variable {α β : Type}

/-- If there is a bound for each element of a list, then there is one for all of them. -/
theorem exists_bound {holds : Nat → α → Prop}
    (mono : ∀ {fuel more a}, fuel ≤ more → holds fuel a → holds more a) {list : List α}
    (each : ∀ a ∈ list, ∃ fuel, holds fuel a) : ∃ fuel, ∀ a ∈ list, holds fuel a := by
  induction list with
  | nil => exact ⟨0, nofun⟩
  | cons a list ih =>
      obtain ⟨first, others⟩ := List.forall_mem_cons.mp each
      obtain ⟨fuel, here⟩ := first
      obtain ⟨more, there⟩ := ih others
      refine ⟨max fuel more, List.forall_mem_cons.mpr ⟨?_, ?_⟩⟩
      · exact mono (Nat.le_max_left fuel more) here
      · exact fun b member => mono (Nat.le_max_right fuel more) (there b member)

theorem mapM_eq_some {f : α → Option β} {list : List α} {results : List β} :
    list.mapM f = some results ↔ List.Forall₂ (fun a result => f a = some result) list results := by
  induction list generalizing results with
  | nil => simp [eq_comm]
  | cons a list ih =>
      cases results with
      | nil => simp [Option.bind_eq_some_iff]
      | cons result results => simp [Option.bind_eq_some_iff, ih]

end Lists

end Rousette.Library.Loop
