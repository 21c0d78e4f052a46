import Mathlib.Control.Basic

/-!
# Programs with state and exceptions

A program reads and writes a state and may end with an exception, which leaves the
state as it is at that point.  It is understood through `exec`, the outcome and the
state after a run, and through `Keeps`, what a run never does to the state whatever
its outcome is.
-/

namespace Rousette.Library

/-- A sequence of two computations returns exactly when both do. -/
theorem except_bind_eq_ok {ε α β : Type} {first : Except ε α} {second : α → Except ε β}
    {result : β} :
    (first >>= second) = .ok result ↔ ∃ value, first = .ok value ∧ second value = .ok result := by
  cases first with
  | error exception => simp [bind, Except.bind]
  | ok value => simp [bind, Except.bind]

theorem except_ok_bind {ε α β : Type} (value : α) (second : α → Except ε β) :
    (Except.ok value >>= second) = second value := rfl

/-- Every exception which a computation ends with has the property. -/
def Throws {ε α : Type} (property : ε → Prop) (result : Except ε α) : Prop :=
  ∀ exception, result = .error exception → property exception

namespace Throws

variable {ε α β : Type} {property : ε → Prop}

theorem ok (value : α) : Throws property (.ok value) := by
  intro exception failed
  cases failed

theorem error {exception : ε} (holds : property exception) :
    Throws property (.error exception : Except ε α) := by
  intro other failed
  cases failed
  exact holds

theorem mono {other : ε → Prop} {result : Except ε α} (throws : Throws property result)
    (weaker : ∀ exception, property exception → other exception) : Throws other result :=
  fun exception failed => weaker exception (throws exception failed)

theorem bind {first : Except ε α} {second : α → Except ε β} (throwsFirst : Throws property first)
    (throwsSecond : ∀ value, first = .ok value → Throws property (second value)) :
    Throws property (first >>= second) := by
  intro exception failed
  cases outcome : first with
  | error other =>
      rw [outcome] at failed
      cases failed
      exact throwsFirst exception outcome
  | ok value =>
      rw [outcome] at failed
      exact throwsSecond value outcome exception failed

/-- What the first of two computations raises is raised by both together. -/
theorem first {first : Except ε α} {second : α → Except ε β}
    (throws : Throws property (first >>= second)) : Throws property first := by
  intro exception failed
  apply throws
  rw [failed]
  rfl

end Throws

/-- A program over states `σ` which ends with an `α` or with an exception of type `ε`. -/
abbrev Program (σ ε α : Type) := ExceptT ε (StateM σ) α

namespace Program

variable {σ ε α β : Type}

/-- Run a program. -/
def exec (program : Program σ ε α) (state : σ) : Except ε α × σ :=
  StateT.run (ExceptT.run program) state

/-- A computation which does not depend on the state. -/
def ofExcept (result : Except ε α) : Program σ ε α := ExceptT.mk (pure result)

instance : MonadLift (Except ε) (ExceptT ε (StateM σ)) where
  monadLift := ofExcept

@[simp] theorem exec_pure (value : α) (state : σ) :
    exec (pure value : Program σ ε α) state = (.ok value, state) := rfl

@[simp] theorem exec_throw (exception : ε) (state : σ) :
    exec (throw exception : Program σ ε α) state = (.error exception, state) := rfl

@[simp] theorem exec_ofExcept (result : Except ε α) (state : σ) :
    exec (ofExcept result : Program σ ε α) state = (result, state) := rfl

@[simp] theorem exec_liftM (result : Except ε α) (state : σ) :
    exec (liftM result : Program σ ε α) state = (result, state) := rfl

@[simp] theorem exec_modify (change : σ → σ) (state : σ) :
    exec (modify change : Program σ ε Unit) state = (.ok (), change state) := rfl

theorem exec_bind (first : Program σ ε α) (second : α → Program σ ε β) (state : σ) :
    exec (first >>= second) state =
      match exec first state with
      | (.ok value, middle) => exec (second value) middle
      | (.error exception, middle) => (.error exception, middle) := by
  unfold exec ExceptT.run StateT.run
  simp only [bind, ExceptT.bind, ExceptT.mk, StateT.bind, ExceptT.bindCont]
  cases first state with
  | mk result middle => cases result <;> rfl

theorem exec_tryCatch (program : Program σ ε α) (handler : ε → Program σ ε α) (state : σ) :
    exec (tryCatch program handler) state =
      match exec program state with
      | (.ok value, middle) => (.ok value, middle)
      | (.error exception, middle) => exec (handler exception) middle := by
  unfold exec ExceptT.run StateT.run
  simp only [tryCatch, tryCatchThe, MonadExceptOf.tryCatch, ExceptT.tryCatch, ExceptT.mk,
    bind, StateT.bind]
  cases program state with
  | mk result middle => cases result <;> rfl

/-- A sequence of two programs returns exactly when both do. -/
theorem exec_bind_eq_ok {first : Program σ ε α} {second : α → Program σ ε β} {state : σ}
    {result : β} :
    (exec (first >>= second) state).1 = .ok result ↔
      ∃ value, (exec first state).1 = .ok value ∧
        (exec (second value) (exec first state).2).1 = .ok result := by
  rw [exec_bind]
  rcases exec first state with ⟨exception | value, middle⟩ <;> simp

/-! ## What a run does to the state -/

/-- Whatever the outcome of a run is, the states before and after it are related. -/
def Keeps (relation : σ → σ → Prop) (program : Program σ ε α) : Prop :=
  ∀ state, relation state (exec program state).2

namespace Keeps

variable {relation : σ → σ → Prop}

theorem pure (refl : ∀ state, relation state state) (value : α) :
    Keeps relation (Pure.pure value : Program σ ε α) :=
  refl

theorem throw (refl : ∀ state, relation state state) (exception : ε) :
    Keeps relation (MonadExcept.throw exception : Program σ ε α) :=
  refl

theorem liftM (refl : ∀ state, relation state state) (result : Except ε α) :
    Keeps relation (MonadLiftT.monadLift result : Program σ ε α) :=
  refl

theorem bind
    (trans : ∀ {first second third}, relation first second → relation second third →
      relation first third)
    {first : Program σ ε α} {second : α → Program σ ε β} (keepsFirst : Keeps relation first)
    (keepsSecond : ∀ value, Keeps relation (second value)) :
    Keeps relation (first >>= second) := by
  intro state
  have before := keepsFirst state
  rw [exec_bind]
  rcases outcome : exec first state with ⟨exception | value, middle⟩
  · simpa only [outcome] using before
  · rw [outcome] at before
    exact trans before (keepsSecond value middle)

theorem tryCatch
    (trans : ∀ {first second third}, relation first second → relation second third →
      relation first third)
    {program : Program σ ε α} {handler : ε → Program σ ε α} (keeps : Keeps relation program)
    (keepsHandler : ∀ exception, Keeps relation (handler exception)) :
    Keeps relation (MonadExcept.tryCatch program handler) := by
  intro state
  have before := keeps state
  rw [exec_tryCatch]
  rcases outcome : exec program state with ⟨exception | value, middle⟩
  · rw [outcome] at before
    exact trans before (keepsHandler exception middle)
  · simpa only [outcome] using before

/-- Keeping a property. -/
theorem bind_property {property : σ → Prop} {first : Program σ ε α}
    {second : α → Program σ ε β}
    (keepsFirst : Keeps (fun before after => property before → property after) first)
    (keepsSecond : ∀ value,
      Keeps (fun before after => property before → property after) (second value)) :
    Keeps (fun before after => property before → property after) (first >>= second) :=
  bind (fun before after holds => after (before holds)) keepsFirst keepsSecond

/-- A property which the first part of a run has reached is kept by the rest. -/
theorem reached_bind {property : σ → Prop} {first : Program σ ε α} {second : α → Program σ ε β}
    {state : σ} (reached : property (exec first state).2)
    (keeps : ∀ value, Keeps (fun before after => property before → property after)
      (second value)) : property (exec (first >>= second) state).2 := by
  rw [exec_bind]
  rcases outcome : exec first state with ⟨exception | value, middle⟩
  · simpa only [outcome] using reached
  · rw [outcome] at reached
    exact keeps value middle reached

theorem reached_tryCatch {property : σ → Prop} {program : Program σ ε α}
    {handler : ε → Program σ ε α} {state : σ} (reached : property (exec program state).2)
    (keeps : ∀ exception, Keeps (fun before after => property before → property after)
      (handler exception)) : property (exec (MonadExcept.tryCatch program handler) state).2 := by
  rw [exec_tryCatch]
  rcases outcome : exec program state with ⟨exception | value, middle⟩
  · rw [outcome] at reached
    exact keeps exception middle reached
  · simpa only [outcome] using reached

end Keeps

/-- A run which returns leaves the state with the property. -/
def Ensures (property : σ → Prop) (program : Program σ ε α) : Prop :=
  ∀ state value, (exec program state).1 = .ok value → property (exec program state).2

namespace Ensures

variable {property : σ → Prop}

theorem modify {change : σ → σ} (holds : ∀ state, property (change state)) :
    Ensures property (modify change : Program σ ε Unit) :=
  fun state _ _ => holds state

/-- The last part of a sequence ensures it. -/
theorem bind {first : Program σ ε α} {second : α → Program σ ε β}
    (ensures : ∀ value, Ensures property (second value)) :
    Ensures property (first >>= second) := by
  intro state result done
  rw [exec_bind] at done ⊢
  rcases outcome : exec first state with ⟨exception | value, middle⟩
  · simp [outcome] at done
  · simp only [outcome] at done ⊢
    exact ensures value middle result done

/-- The first part of a sequence ensures it, and the rest keeps it. -/
theorem bind_keeps {first : Program σ ε α} {second : α → Program σ ε β}
    (ensures : Ensures property first)
    (keeps : ∀ value, Keeps (fun before after => property before → property after)
      (second value)) : Ensures property (first >>= second) := by
  intro state result done
  have holds := ensures state
  rw [exec_bind] at done ⊢
  rcases outcome : exec first state with ⟨exception | value, middle⟩
  · simp [outcome] at done
  · rw [outcome] at holds
    exact keeps value middle (holds value rfl)

end Ensures

/-- Whatever its outcome is, a run leaves the state with the property. -/
def Always (property : σ → Prop) (program : Program σ ε α) : Prop :=
  ∀ state, property (exec program state).2

namespace Always

variable {property : σ → Prop}

/-- The first part of a sequence sees to it, and the rest keeps it. -/
theorem bind_keeps {first : Program σ ε α} {second : α → Program σ ε β}
    (always : Always property first)
    (keeps : ∀ value, Keeps (fun before after => property before → property after)
      (second value)) : Always property (first >>= second) :=
  fun state => Keeps.reached_bind (always state) keeps

/-- The rest sees to it after a computation which returns. -/
theorem bind_liftM {result : Except ε α} {value : α} {second : α → Program σ ε β}
    (returned : result = .ok value) (always : Always property (second value)) :
    Always property (MonadLiftT.monadLift result >>= second : Program σ ε β) := by
  intro state
  subst returned
  exact always state

end Always

/-- The outcome of a run does not depend on the state: the program only writes. -/
def Uniform (program : Program σ ε α) : Prop :=
  ∀ state other, (exec program state).1 = (exec program other).1

namespace Uniform

theorem pure (value : α) : Uniform (Pure.pure value : Program σ ε α) := fun _ _ => rfl

theorem throw (exception : ε) : Uniform (MonadExcept.throw exception : Program σ ε α) :=
  fun _ _ => rfl

theorem liftM (result : Except ε α) :
    Uniform (MonadLiftT.monadLift result : Program σ ε α) :=
  fun _ _ => rfl

theorem modify (change : σ → σ) : Uniform (modify change : Program σ ε Unit) :=
  fun _ _ => rfl

theorem bind {first : Program σ ε α} {second : α → Program σ ε β} (uniform : Uniform first)
    (uniformSecond : ∀ value, Uniform (second value)) : Uniform (first >>= second) := by
  intro state other
  have same := uniform state other
  rw [exec_bind, exec_bind]
  rcases outcome : exec first state with ⟨exception | value, middle⟩ <;>
    rcases outcome' : exec first other with ⟨exception' | value', middle'⟩ <;>
      simp only [outcome, outcome', reduceCtorEq, Except.ok.injEq, Except.error.injEq] at same
  · simp only [same]
  · subst same
    exact uniformSecond value middle middle'

theorem tryCatch {program : Program σ ε α} {handler : ε → Program σ ε α}
    (uniform : Uniform program) (uniformHandler : ∀ exception, Uniform (handler exception)) :
    Uniform (MonadExcept.tryCatch program handler) := by
  intro state other
  have same := uniform state other
  rw [exec_tryCatch, exec_tryCatch]
  rcases outcome : exec program state with ⟨exception | value, middle⟩ <;>
    rcases outcome' : exec program other with ⟨exception' | value', middle'⟩ <;>
      simp only [outcome, outcome', reduceCtorEq, Except.ok.injEq, Except.error.injEq] at same
  · subst same
    exact uniformHandler exception middle middle'
  · simp only [same]

end Uniform

/-! ## What a run adds to a trace -/

/-- Some run of the program returns the value. -/
def Returns (program : Program σ ε α) (value : α) : Prop :=
  ∃ state, (exec program state).1 = .ok value

namespace Returns

theorem pure {value result : α} (returns : Returns (Pure.pure value : Program σ ε α) result) :
    result = value := by
  obtain ⟨_, returned⟩ := returns
  cases returned
  rfl

theorem throw {exception : ε} {result : α}
    (returns : Returns (MonadExcept.throw exception : Program σ ε α) result) : False := by
  obtain ⟨_, returned⟩ := returns
  cases returned

theorem liftM {result : Except ε α} {value : α}
    (returns : Returns (MonadLiftT.monadLift result : Program σ ε α) value) :
    result = .ok value := by
  obtain ⟨_, returned⟩ := returns
  exact returned

theorem bind {first : Program σ ε α} {second : α → Program σ ε β} {result : β}
    (returns : Returns (first >>= second) result) :
    ∃ value, Returns first value ∧ Returns (second value) result := by
  obtain ⟨state, returned⟩ := returns
  obtain ⟨value, before, after⟩ := exec_bind_eq_ok.mp returned
  exact ⟨value, ⟨state, before⟩, ⟨_, after⟩⟩

end Returns

/-- Some run of the program ends with the exception. -/
def Raises (program : Program σ ε α) (exception : ε) : Prop :=
  ∃ state, (exec program state).1 = .error exception

namespace Raises

variable {exception : ε}

theorem pure {value : α} (raises : Raises (Pure.pure value : Program σ ε α) exception) :
    False := by
  obtain ⟨_, raised⟩ := raises
  cases raised

theorem throw {other : ε}
    (raises : Raises (MonadExcept.throw other : Program σ ε α) exception) :
    exception = other := by
  obtain ⟨_, raised⟩ := raises
  cases raised
  rfl

theorem liftM {result : Except ε α}
    (raises : Raises (MonadLiftT.monadLift result : Program σ ε α) exception) :
    result = .error exception := by
  obtain ⟨_, raised⟩ := raises
  exact raised

theorem modify {change : σ → σ}
    (raises : Raises (modify change : Program σ ε Unit) exception) : False := by
  obtain ⟨_, raised⟩ := raises
  cases raised

theorem of_liftM [Inhabited σ] {result : Except ε α} (failed : result = .error exception) :
    Raises (MonadLiftT.monadLift result : Program σ ε α) exception := by
  subst failed
  exact ⟨default, rfl⟩

/-- One of the two parts of a sequence ends with the exception. -/
theorem bind {first : Program σ ε α} {second : α → Program σ ε β}
    (raises : Raises (first >>= second) exception) :
    Raises first exception ∨ ∃ value, Returns first value ∧ Raises (second value) exception := by
  obtain ⟨state, raised⟩ := raises
  rw [exec_bind] at raised
  rcases outcome : exec first state with ⟨other | value, middle⟩
  · rw [outcome] at raised
    cases raised
    exact .inl ⟨state, by rw [outcome]⟩
  · rw [outcome] at raised
    exact .inr ⟨value, ⟨state, by rw [outcome]⟩, ⟨middle, raised⟩⟩

theorem of_bind_left {first : Program σ ε α} {second : α → Program σ ε β}
    (raises : Raises first exception) : Raises (first >>= second) exception := by
  obtain ⟨state, raised⟩ := raises
  refine ⟨state, ?_⟩
  rw [exec_bind]
  rcases outcome : exec first state with ⟨other | value, middle⟩
  · rw [outcome] at raised
    cases raised
    rfl
  · rw [outcome] at raised
    cases raised

/-- The second part of a sequence ends with the exception whatever the state is. -/
theorem of_bind_right {first : Program σ ε α} {second : α → Program σ ε β} {value : α}
    (returns : Returns first value) (uniform : Uniform (second value))
    (raises : Raises (second value) exception) : Raises (first >>= second) exception := by
  obtain ⟨state, returned⟩ := returns
  obtain ⟨other, raised⟩ := raises
  refine ⟨state, ?_⟩
  rw [exec_bind]
  rcases outcome : exec first state with ⟨failed | result, middle⟩
  · rw [outcome] at returned
    cases returned
  · rw [outcome] at returned
    cases returned
    exact (uniform middle other).trans raised

/-- What leaves a handler was raised for an exception of the program it is around. -/
theorem tryCatch {program : Program σ ε α} {handler : ε → Program σ ε α}
    (raises : Raises (MonadExcept.tryCatch program handler) exception) :
    ∃ caught, Raises program caught ∧ Raises (handler caught) exception := by
  obtain ⟨state, raised⟩ := raises
  rw [exec_tryCatch] at raised
  rcases outcome : exec program state with ⟨caught | value, middle⟩
  · rw [outcome] at raised
    exact ⟨caught, ⟨state, by rw [outcome]⟩, ⟨middle, raised⟩⟩
  · rw [outcome] at raised
    cases raised

theorem of_tryCatch {program : Program σ ε α} {handler : ε → Program σ ε α} {caught : ε}
    (raises : Raises program caught) (uniform : Uniform (handler caught))
    (raisesAgain : Raises (handler caught) exception) :
    Raises (MonadExcept.tryCatch program handler) exception := by
  obtain ⟨state, raised⟩ := raises
  obtain ⟨other, raisedAgain⟩ := raisesAgain
  refine ⟨state, ?_⟩
  rw [exec_tryCatch]
  rcases outcome : exec program state with ⟨failed | value, middle⟩
  · rw [outcome] at raised
    cases raised
    exact (uniform middle other).trans raisedAgain
  · rw [outcome] at raised
    cases raised

theorem of_bind_liftM {result : Except ε α} {value : α} {second : α → Program σ ε β}
    (returned : result = .ok value) (raises : Raises (second value) exception) :
    Raises (MonadLiftT.monadLift result >>= second : Program σ ε β) exception := by
  subst returned
  exact raises

end Raises

/-- Every item which a run adds to the trace in the state has the property. -/
def Emits {τ : Type} (trace : σ → List τ) (property : τ → Prop) (program : Program σ ε α) :
    Prop :=
  ∀ state, ∀ item ∈ trace (exec program state).2, item ∈ trace state ∨ property item

namespace Emits

variable {τ : Type} {trace : σ → List τ} {property : τ → Prop}

/-- Nothing is added. -/
theorem of_keeps {program : Program σ ε α}
    (keeps : Keeps (fun before after => trace after = trace before) program) :
    Emits trace property program := by
  intro state item member
  rw [keeps state] at member
  exact .inl member

theorem mono {other : τ → Prop} {program : Program σ ε α} (emits : Emits trace property program)
    (weaker : ∀ item, property item → other item) : Emits trace other program :=
  fun state item member => (emits state item member).imp_right (weaker item)

theorem pure (value : α) : Emits trace property (Pure.pure value : Program σ ε α) :=
  of_keeps fun _ => rfl

theorem throw (exception : ε) :
    Emits trace property (MonadExcept.throw exception : Program σ ε α) :=
  of_keeps fun _ => rfl

theorem liftM (result : Except ε α) :
    Emits trace property (MonadLiftT.monadLift result : Program σ ε α) :=
  of_keeps fun _ => rfl

theorem bind {first : Program σ ε α} {second : α → Program σ ε β}
    (emitsFirst : Emits trace property first)
    (emitsSecond : ∀ value, Returns first value → Emits trace property (second value)) :
    Emits trace property (first >>= second) := by
  intro state item member
  have before := emitsFirst state item
  rw [exec_bind] at member
  rcases outcome : exec first state with ⟨exception | value, middle⟩
  · rw [outcome] at member before
    exact before member
  · rw [outcome] at member before
    have returns : Returns first value := ⟨state, by rw [outcome]⟩
    rcases emitsSecond value returns middle item member with earlier | holds
    · exact before earlier
    · exact .inr holds

/-- A computation which does not touch the state, with its result. -/
theorem bind_liftM {result : Except ε α} {second : α → Program σ ε β}
    (emits : ∀ value, result = .ok value → Emits trace property (second value)) :
    Emits trace property (MonadLiftT.monadLift result >>= second : Program σ ε β) :=
  bind (liftM result) fun value returns => emits value returns.liftM

theorem tryCatch {program : Program σ ε α} {handler : ε → Program σ ε α}
    (emits : Emits trace property program)
    (emitsHandler : ∀ exception, Emits trace property (handler exception)) :
    Emits trace property (MonadExcept.tryCatch program handler) := by
  intro state item member
  have before := emits state item
  rw [exec_tryCatch] at member
  rcases outcome : exec program state with ⟨exception | value, middle⟩
  · rw [outcome] at member before
    rcases emitsHandler exception middle item member with earlier | holds
    · exact before earlier
    · exact .inr holds
  · rw [outcome] at member before
    exact before member

end Emits

end Program

end Rousette.Library
