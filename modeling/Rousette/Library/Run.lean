import Mathlib.Data.List.Basic

/-!
# Runs of a transition function

A partial function `step` gives the state after an event, or nothing when the event
cannot happen.  `Run` pairs a reachable state with the events which lead to it, so
that an invariant may speak about the history of the run.
-/

namespace Rousette.Library

variable {σ ε : Type}

/-- The state reached from `start` by a sequence of events, oldest first. -/
inductive Run (step : σ → ε → Option σ) (start : σ) : List ε → σ → Prop where
  | nil : Run step start [] start
  | snoc {events : List ε} {state next : σ} {event : ε} :
      Run step start events state → step state event = some next →
      Run step start (events ++ [event]) next

namespace Run

variable {step : σ → ε → Option σ} {start : σ}

/-- What holds at the start and is kept by every step holds along every run. -/
theorem invariant {holds : List ε → σ → Prop} (initial : holds [] start)
    (preserved : ∀ {events state event next}, holds events state →
      step state event = some next → holds (events ++ [event]) next)
    {events : List ε} {state : σ} (run : Run step start events state) :
    holds events state := by
  induction run with
  | nil => exact initial
  | snoc _ taken ih => exact preserved ih taken

/-- A run may go on from where another one has ended. -/
theorem append {before after : List ε} {between reached : σ}
    (run : Run step start before between) (later : Run step between after reached) :
    Run step start (before ++ after) reached := by
  induction later with
  | nil =>
      rw [List.append_nil]
      exact run
  | snoc _ taken ih =>
      rw [← List.append_assoc]
      exact ih.snoc taken

/-- Perform a sequence of events. -/
def execute (step : σ → ε → Option σ) : σ → List ε → Option σ
  | state, [] => some state
  | state, event :: events =>
      match step state event with
      | some next => execute step next events
      | none => none

theorem of_execute_from {reached : σ} :
    (before after : List ε) → {state : σ} → Run step start before state →
    execute step state after = some reached → Run step start (before ++ after) reached
  | before, [], state, run, done => by
      simp only [execute, Option.some.injEq] at done
      subst done
      simpa using run
  | before, event :: after, state, run, done => by
      cases taken : step state event with
      | none => simp [execute, taken] at done
      | some next =>
          simp only [execute, taken] at done
          have further := of_execute_from (before ++ [event]) after (.snoc run taken) done
          simpa using further

theorem execute_append {before after : List ε} {state reached : σ} :
    execute step state (before ++ after) = some reached ↔
      ∃ between, execute step state before = some between ∧
        execute step between after = some reached := by
  induction before generalizing state with
  | nil => simp [execute]
  | cons event before ih =>
      rw [List.cons_append]
      cases taken : step state event with
      | none => simp [execute, taken]
      | some next => simpa [execute, taken] using ih

/-- Performed events make a run. -/
theorem of_execute {events : List ε} {reached : σ}
    (done : execute step start events = some reached) : Run step start events reached :=
  of_execute_from [] events .nil done

end Run

/-- A run whose steps all meet a condition on the state before them and the event. -/
inductive RunWhen (allowed : σ → ε → Prop) (step : σ → ε → Option σ) (start : σ) :
    List ε → σ → Prop where
  | nil : RunWhen allowed step start [] start
  | snoc {events : List ε} {state next : σ} {event : ε} :
      RunWhen allowed step start events state → allowed state event →
      step state event = some next → RunWhen allowed step start (events ++ [event]) next

namespace RunWhen

variable {allowed : σ → ε → Prop} {step : σ → ε → Option σ} {start : σ} {events : List ε}
  {state : σ}

theorem run (restricted : RunWhen allowed step start events state) :
    Run step start events state := by
  induction restricted with
  | nil => exact .nil
  | snoc _ _ taken ih => exact ih.snoc taken

/-- What holds at the start and is kept by every allowed step holds along every such run. -/
@[elab_as_elim]
theorem invariant {holds : σ → Prop} (initial : holds start)
    (preserved : ∀ {events state event next}, RunWhen allowed step start events state →
      holds state → allowed state event → step state event = some next → holds next)
    (restricted : RunWhen allowed step start events state) : holds state := by
  induction restricted with
  | nil => exact initial
  | snoc before permitted taken ih => exact preserved before ih permitted taken

end RunWhen

end Rousette.Library
