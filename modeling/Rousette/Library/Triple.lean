import Rousette.Library.Program

/-!
# Pre- and postconditions

A triple tells what holds of the state after a run if something held before it: one condition for
the runs which return, and one for those which end with an exception.
-/

namespace Rousette.Library.Program

variable {σ ε α β : Type}

/-- A run from a state with the precondition ends in a state with the postcondition that belongs
to its outcome. -/
def Triple (before : σ → Prop) (program : Program σ ε α) (returned : α → σ → Prop)
    (raised : ε → σ → Prop) : Prop :=
  ∀ state, before state →
    match exec program state with
    | (.ok value, after) => returned value after
    | (.error exception, after) => raised exception after

namespace Triple

variable {before : σ → Prop} {returned : α → σ → Prop} {raised : ε → σ → Prop}
  {program : Program σ ε α}

/-- What a triple says about a run whose outcome does not matter. -/
theorem after {holds : σ → Prop}
    (triple : Triple before program (fun _ => holds) (fun _ => holds)) {state : σ}
    (start : before state) : holds (exec program state).2 := by
  have reached := triple state start
  rcases run : exec program state with ⟨exception | value, after⟩ <;>
    simpa only [run] using reached

theorem pure {value : α} (holds : ∀ state, before state → returned value state) :
    Triple before (Pure.pure value : Program σ ε α) returned raised :=
  holds

theorem throw {exception : ε} (holds : ∀ state, before state → raised exception state) :
    Triple before (MonadExcept.throw exception : Program σ ε α) returned raised :=
  holds

theorem modify {change : σ → σ} {returned : Unit → σ → Prop}
    (holds : ∀ state, before state → returned () (change state)) :
    Triple before (modify change : Program σ ε Unit) returned raised :=
  holds

theorem liftM {result : Except ε α}
    (returns : ∀ value, result = .ok value → ∀ state, before state → returned value state)
    (raises : ∀ exception, result = .error exception →
      ∀ state, before state → raised exception state) :
    Triple before (MonadLiftT.monadLift result : Program σ ε α) returned raised := by
  cases result with
  | error exception => exact raises exception rfl
  | ok value => exact returns value rfl

/-- One part after the other. -/
theorem bind {first : Program σ ε α} {second : α → Program σ ε β} {middle : α → σ → Prop}
    {returned : β → σ → Prop} (tripleFirst : Triple before first middle raised)
    (tripleSecond : ∀ value, Triple (middle value) (second value) returned raised) :
    Triple before (first >>= second) returned raised := by
  intro state start
  have reached := tripleFirst state start
  rw [exec_bind]
  rcases run : exec first state with ⟨exception | value, after⟩
  · simpa only [run] using reached
  · rw [run] at reached
    exact tripleSecond value after reached

/-- A computation which does not touch the state, with its result. -/
theorem bind_liftM {result : Except ε α} {second : α → Program σ ε β} {returned : β → σ → Prop}
    (raises : ∀ exception state, before state → raised exception state)
    (tripleSecond : ∀ value, Triple before (second value) returned raised) :
    Triple before (MonadLiftT.monadLift result >>= second : Program σ ε β) returned raised :=
  bind (liftM (fun _ _ _ => id) fun exception _ => raises exception) tripleSecond

theorem tryCatch {handler : ε → Program σ ε α} {caught : ε → σ → Prop}
    (triple : Triple before program returned caught)
    (tripleHandler : ∀ exception, Triple (caught exception) (handler exception) returned raised) :
    Triple before (MonadExcept.tryCatch program handler) returned raised := by
  intro state start
  have reached := triple state start
  rw [exec_tryCatch]
  rcases run : exec program state with ⟨exception | value, after⟩
  · rw [run] at reached
    exact tripleHandler exception after reached
  · simpa only [run] using reached

/-- The rule of consequence. -/
theorem mono {stronger : σ → Prop} {weaker : α → σ → Prop} {weakerRaised : ε → σ → Prop}
    (triple : Triple before program returned raised)
    (start : ∀ state, stronger state → before state)
    (returns : ∀ value state, returned value state → weaker value state)
    (raises : ∀ exception state, raised exception state → weakerRaised exception state) :
    Triple stronger program weaker weakerRaised := by
  intro state holds
  have reached := triple state (start state holds)
  rcases run : exec program state with ⟨exception | value, after⟩
  · rw [run] at reached
    exact raises exception after reached
  · rw [run] at reached
    exact returns value after reached

/-- The frame rule: what a run keeps may be added to a triple. -/
theorem frame {kept : σ → Prop} (triple : Triple before program returned raised)
    (keeps : Keeps (fun before after => kept before → kept after) program) :
    Triple (fun state => before state ∧ kept state) program
      (fun value state => returned value state ∧ kept state)
      fun exception state => raised exception state ∧ kept state := by
  rintro state ⟨start, framed⟩
  have reached := triple state start
  have still := keeps state framed
  rcases run : exec program state with ⟨exception | value, after⟩
  · rw [run] at reached still
    exact ⟨reached, still⟩
  · rw [run] at reached still
    exact ⟨reached, still⟩

/-- Whatever is known to exist before a run may be taken as given. -/
theorem of_exists {γ : Type} {known : γ → σ → Prop}
    (triple : ∀ witness, Triple (known witness) program returned raised) :
    Triple (fun state => ∃ witness, known witness state) program returned raised :=
  fun state ⟨witness, holds⟩ => triple witness state holds

/-- What a run never does to the state, used as a triple. -/
theorem of_keeps {relation : σ → σ → Prop} {holds : σ → Prop} (keeps : Keeps relation program)
    (carries : ∀ {state after}, before state → relation state after → holds after) :
    Triple before program (fun _ => holds) (fun _ => holds) := by
  intro state start
  have reached := carries start (keeps state)
  rcases run : exec program state with ⟨exception | value, after⟩ <;>
    simpa only [run] using reached

end Triple

end Rousette.Library.Program
