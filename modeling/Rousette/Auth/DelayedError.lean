import Rousette.Library.Run
import Rousette.Library.Wait

/-!
# Delayed authentication errors

`processAuthError` from `auth/Http.cpp`: the response to a failed authentication is sent at once,
or by the handler of a wait on a timer if PAM has asked for a delay.  The callback which sends it
refers to the request and to the response, which are freed when the stream is closed; `on_close`
cancels the timer, which does not reach a completion that is already queued.

The io service has one thread.  It handles any number of such requests, in any order.
-/

namespace Rousette.Auth

open Library

/-- A request whose handler has caught an `auth::Error`; the program does not have the field
`calls`. -/
structure Rejection where
  /-- the wait on the timer, until its handler has run -/
  wait : Option WaitStatus
  /-- `on_close` was given the callback which cancels the timer -/
  cancels : Bool
  /-- `on_close` has run, and `req` and `res` are freed -/
  closed : Bool
  /-- for each call of `errorResponseCb`, whether `on_close` had run before it -/
  calls : List Bool
  deriving DecidableEq, Repr

namespace Rejection

/-- The error was caught while the stream is open. -/
def caught : Rejection where
  wait := none
  cancels := false
  closed := false
  calls := []

/-- `errorResponseCb` is called. -/
def errorResponseCb (r : Rejection) : Rejection :=
  { r with calls := r.calls ++ [r.closed] }

/-- `processAuthError` -/
def processAuthError (r : Rejection) (delay : Option Nat) : Rejection :=
  match delay with
  | some _ => { r with cancels := true, wait := some .pending }
  | none => r.errorResponseCb

/-- The stream is closed. -/
def onClose (r : Rejection) : Rejection :=
  let r := if r.cancels then { r with wait := r.wait.map WaitStatus.cancel } else r
  { r with closed := true }

end Rejection

/-- What the io service may do. -/
inductive Event where
  /-- a handler catches an `auth::Error` -/
  | caught (delay : Option Nat)
  /-- the timer of a request expires, and the completion of its wait is queued -/
  | expire (index : Nat)
  /-- the handler of a completed wait is run -/
  | complete (index : Nat)
  /-- the stream of a request is closed -/
  | close (index : Nat)
  /-- another handler is run -/
  | other
  deriving DecidableEq, Repr

/-- The state after an event, if it can happen. -/
def step (rejections : List Rejection) : Event → Option (List Rejection)
  | .caught delay => some (rejections ++ [Rejection.caught.processAuthError delay])
  | .expire index =>
      match rejections[index]? with
      | some r =>
          if r.wait = some .pending then
            some (rejections.set index { r with wait := some .expired })
          else none
      | none => none
  | .complete index =>
      match rejections[index]? with
      | some r =>
          match r.wait with
          | some .expired =>
              some (rejections.set index { r with wait := none }.errorResponseCb)
          | some .aborted => some (rejections.set index { r with wait := none })
          | _ => none
      | none => none
  | .close index =>
      match rejections[index]? with
      | some r => if r.closed then none else some (rejections.set index r.onClose)
      | none => none
  | .other => some rejections

/-- The response was sent at most once, and not after the stream was closed. -/
def Rejection.InTime (r : Rejection) : Prop :=
  (∀ closed ∈ r.calls, closed = false) ∧ r.calls.length ≤ 1

/-- The stream is closed when the completion of the wait is already queued. -/
theorem close_not_inTime :
    ¬∀ events rejections, Run step [] events rejections → ∀ r ∈ rejections, r.InTime := by
  intro always
  have run : Run step [] [.caught (some 2000000), .expire 0, .close 0, .complete 0]
      [⟨none, true, true, [true]⟩] := .of_execute rfl
  have inTime := always _ _ run _ (List.mem_singleton_self _)
  cases inTime.1 true (List.mem_singleton_self _)

/-! ## The effect of a step -/

/-- What a step does. -/
inductive Effect (rejections : List Rejection) : Event → List Rejection → Prop where
  | caught (delay : Option Nat) :
      Effect rejections (.caught delay)
        (rejections ++ [Rejection.caught.processAuthError delay])
  | expire {index : Nat} {r : Rejection} (found : rejections[index]? = some r)
      (pending : r.wait = some .pending) :
      Effect rejections (.expire index) (rejections.set index { r with wait := some .expired })
  | answer {index : Nat} {r : Rejection} (found : rejections[index]? = some r)
      (expired : r.wait = some .expired) :
      Effect rejections (.complete index)
        (rejections.set index { r with wait := none }.errorResponseCb)
  | drop {index : Nat} {r : Rejection} (found : rejections[index]? = some r)
      (aborted : r.wait = some .aborted) :
      Effect rejections (.complete index) (rejections.set index { r with wait := none })
  | close {index : Nat} {r : Rejection} (found : rejections[index]? = some r) :
      Effect rejections (.close index) (rejections.set index r.onClose)
  | other : Effect rejections .other rejections

theorem step_effect {rejections next : List Rejection} {event : Event}
    (taken : step rejections event = some next) : Effect rejections event next := by
  cases event with
  | caught delay =>
      cases taken
      exact .caught delay
  | expire index =>
      simp only [step] at taken
      split at taken
      next found =>
        split at taken
        next pending =>
          cases taken
          exact .expire found pending
        · cases taken
      · cases taken
  | complete index =>
      simp only [step] at taken
      split at taken
      next found =>
        split at taken
        next expired =>
          cases taken
          exact .answer found expired
        next aborted =>
          cases taken
          exact .drop found aborted
        · cases taken
      · cases taken
  | close index =>
      simp only [step] at taken
      split at taken
      next found =>
        split at taken
        · cases taken
        · cases taken
          exact .close found
      · cases taken
  | other =>
      cases taken
      exact .other

section Requests

variable {rejections next : List Rejection} {event : Event} {property : Rejection → Prop}

/-- Only the request of the step is touched. -/
theorem forall_set (every : ∀ r ∈ rejections, property r) {index : Nat} {changed : Rejection}
    (holds : property changed) : ∀ r ∈ rejections.set index changed, property r := by
  intro r member
  rcases List.mem_or_eq_of_mem_set member with before | rfl
  · exact every r before
  · exact holds

theorem forall_append (every : ∀ r ∈ rejections, property r) {new : Rejection}
    (holds : property new) : ∀ r ∈ rejections ++ [new], property r :=
  List.forall_mem_append.mpr ⟨every, List.forall_mem_singleton.mpr holds⟩

end Requests

/-! ## The response is sent once -/

/-- The callback was not called as long as it may still be. -/
structure Rejection.Once (r : Rejection) : Prop where
  unsent : r.wait ≠ none → r.calls = []
  calls : r.calls.length ≤ 1

namespace Rejection.Once

theorem processAuthError (delay : Option Nat) :
    (Rejection.caught.processAuthError delay).Once := by
  cases delay with
  | none => exact ⟨fun waiting => absurd rfl waiting, Nat.le_refl 1⟩
  | some delay => exact ⟨fun _ => rfl, Nat.zero_le 1⟩

variable {r : Rejection}

theorem errorResponseCb (once : r.Once) (waiting : r.wait ≠ none) :
    ({ r with wait := none }.errorResponseCb).Once := by
  constructor
  case unsent => exact fun waits => absurd rfl waits
  case calls =>
    rw [Rejection.errorResponseCb, once.unsent waiting]
    exact Nat.le_refl 1

theorem onClose (once : r.Once) : r.onClose.Once := by
  unfold Rejection.onClose
  by_cases cancels : r.cancels = true
  · rw [if_pos cancels]
    refine ⟨fun waiting => once.unsent fun none => waiting ?_, once.calls⟩
    change r.wait.map WaitStatus.cancel = Option.none
    rw [none]
    rfl
  · rw [if_neg cancels]
    exact ⟨once.unsent, once.calls⟩

end Rejection.Once

theorem once_of_step {rejections next : List Rejection} {event : Event}
    (once : ∀ r ∈ rejections, r.Once) (taken : step rejections event = some next) :
    ∀ r ∈ next, r.Once := by
  cases step_effect taken with
  | caught delay => exact forall_append once (.processAuthError delay)
  | @expire index r found pending =>
      have before := once r (List.mem_of_getElem? found)
      have waiting : r.wait ≠ none := by simp [pending]
      exact forall_set once ⟨fun _ => before.unsent waiting, before.calls⟩
  | @answer index r found expired =>
      have before := once r (List.mem_of_getElem? found)
      exact forall_set once (before.errorResponseCb (by simp [expired]))
  | @drop index r found _ =>
      have before := once r (List.mem_of_getElem? found)
      exact forall_set once ⟨fun waiting => absurd rfl waiting, before.calls⟩
  | @close index r found => exact forall_set once (once r (List.mem_of_getElem? found)).onClose
  | other => exact once

/-- Whatever the order of the steps is, the response is sent at most once. -/
theorem once_of_run {events : List Event} {rejections : List Rejection}
    (run : Run step [] events rejections) : ∀ r ∈ rejections, r.Once := by
  induction run with
  | nil => exact nofun
  | snoc _ taken ih => exact once_of_step ih taken

/-! ## Runs in which no stream is closed while its completion is queued -/

/-- A stream is not closed while the completion of the wait is queued. -/
def Patient (rejections : List Rejection) : Event → Prop
  | .close index => ∀ r ∈ rejections[index]?, r.wait ≠ some .expired
  | _ => True

/-- Once the stream is closed, the wait is aborted or its handler has run. -/
structure Rejection.Careful (r : Rejection) : Prop where
  calls : ∀ closed ∈ r.calls, closed = false
  cancels : r.wait ≠ none → r.cancels = true
  aborted : r.closed = true → r.wait = none ∨ r.wait = some .aborted

namespace Rejection.Careful

theorem processAuthError (delay : Option Nat) :
    (Rejection.caught.processAuthError delay).Careful := by
  cases delay with
  | none =>
      refine ⟨?_, fun waiting => absurd rfl waiting, nofun⟩
      exact List.forall_mem_singleton.mpr rfl
  | some delay => exact ⟨nofun, fun _ => rfl, nofun⟩

variable {r : Rejection}

/-- A wait which may still end with success belongs to an open stream. -/
theorem isOpen (careful : r.Careful) {status : WaitStatus} (waiting : r.wait = some status)
    (other : status ≠ .aborted) : r.closed = false := by
  cases closed : r.closed with
  | false => rfl
  | true =>
      rcases careful.aborted closed with none | aborted
      · rw [waiting] at none
        cases none
      · rw [waiting] at aborted
        exact absurd (Option.some.inj aborted) other

theorem expire (careful : r.Careful) (pending : r.wait = some .pending) :
    ({ r with wait := some .expired } : Rejection).Careful := by
  have isOpen := careful.isOpen pending nofun
  refine ⟨careful.calls, fun _ => careful.cancels (by simp [pending]), fun closed => ?_⟩
  exact absurd (isOpen.symm.trans closed) Bool.false_ne_true

theorem drop (careful : r.Careful) : ({ r with wait := none } : Rejection).Careful :=
  ⟨careful.calls, fun waiting => absurd rfl waiting, fun _ => .inl rfl⟩

theorem errorResponseCb (careful : r.Careful) (isOpen : r.closed = false) :
    r.errorResponseCb.Careful := by
  refine ⟨?_, careful.cancels, careful.aborted⟩
  exact List.forall_mem_append.mpr ⟨careful.calls, List.forall_mem_singleton.mpr isOpen⟩

theorem onClose (careful : r.Careful) (unqueued : r.wait ≠ some .expired) :
    r.onClose.Careful := by
  cases waiting : r.wait with
  | none =>
      have none : r.onClose.wait = none := by
        unfold Rejection.onClose
        split
        · exact congrArg (Option.map WaitStatus.cancel) waiting
        · exact waiting
      have calls : r.onClose.calls = r.calls := by
        unfold Rejection.onClose
        split <;> rfl
      refine ⟨calls ▸ careful.calls, fun waits => absurd none waits, fun _ => .inl none⟩
  | some status =>
      have cancels := careful.cancels (by simp [waiting])
      have aborted : status.cancel = .aborted := by
        cases status with
        | pending => rfl
        | expired => exact absurd waiting unqueued
        | aborted => rfl
      rw [Rejection.onClose, if_pos cancels, waiting, Option.map_some, aborted]
      exact ⟨careful.calls, fun _ => cancels, fun _ => .inr rfl⟩

end Rejection.Careful

theorem careful_of_step {rejections next : List Rejection} {event : Event}
    (careful : ∀ r ∈ rejections, r.Careful) (patient : Patient rejections event)
    (taken : step rejections event = some next) : ∀ r ∈ next, r.Careful := by
  cases step_effect taken with
  | caught delay => exact forall_append careful (.processAuthError delay)
  | @expire index r found pending =>
      exact forall_set careful ((careful r (List.mem_of_getElem? found)).expire pending)
  | @answer index r found expired =>
      have before := careful r (List.mem_of_getElem? found)
      exact forall_set careful (before.drop.errorResponseCb (before.isOpen expired nofun))
  | @drop index r found _ =>
      exact forall_set careful (careful r (List.mem_of_getElem? found)).drop
  | @close index r found =>
      have before := careful r (List.mem_of_getElem? found)
      exact forall_set careful (before.onClose (patient r found))
  | other => exact careful

/-- A completion which is queued when the stream is closed sends the response afterwards. -/
theorem late_of_queued {rejections next : List Rejection} {index : Nat} {r : Rejection}
    (found : rejections[index]? = some r) (expired : r.wait = some .expired)
    (taken : step rejections (.close index) = some next) :
    ∃ last late, step next (.complete index) = some last ∧ last[index]? = some late ∧
      true ∈ late.calls := by
  have bound : index < rejections.length := (List.getElem?_eq_some_iff.mp found).1
  have closed : next = rejections.set index r.onClose := by
    cases step_effect taken with
    | close again =>
        rw [found] at again
        cases again
        rfl
  have queued : r.onClose.wait = some .expired := by
    unfold Rejection.onClose
    split
    · exact congrArg (Option.map WaitStatus.cancel) expired
    · exact expired
  have there : next[index]? = some r.onClose := by
    rw [closed, List.getElem?_set_self bound]
  let late : Rejection := { r.onClose with wait := none }.errorResponseCb
  have still : index < next.length := by rwa [closed, List.length_set]
  refine ⟨next.set index late, late, ?_, List.getElem?_set_self still, ?_⟩
  · simp only [step, there, queued]
    rfl
  · exact List.mem_append_right _ (List.mem_singleton_self true)

/-- In every run in which no stream is closed while the completion of its wait is queued, every
response is sent at most once, and never after the stream was closed. -/
theorem inTime_of_patient {events : List Event} {rejections : List Rejection}
    (run : RunWhen Patient step [] events rejections) : ∀ r ∈ rejections, r.InTime := by
  have careful : ∀ r ∈ rejections, r.Careful := by
    have started : ∀ r ∈ ([] : List Rejection), r.Careful := nofun
    refine run.invariant started ?_
    intro _ _ _ _ _ before patient taken
    exact careful_of_step before patient taken
  intro r member
  exact ⟨(careful r member).calls, (once_of_run run.run r member).calls⟩

/-- One client goes away before the delay is over, and another one gets its response. -/
theorem closedEarly_inTime :
    ∃ rejections, RunWhen Patient step []
      [.caught (some 2000000), .caught (some 1000000), .close 0, .expire 1, .complete 0,
        .complete 1, .close 1] rejections ∧
      rejections.map Rejection.calls = [[], [false]] ∧ ∀ r ∈ rejections, r.InTime := by
  have run : ∃ rejections, RunWhen Patient step []
      [.caught (some 2000000), .caught (some 1000000), .close 0, .expire 1, .complete 0,
        .complete 1, .close 1] rejections ∧
      rejections.map Rejection.calls = [[], [false]] := by
    refine ⟨_, .snoc (.snoc (.snoc (.snoc (.snoc (.snoc (.snoc .nil trivial rfl) trivial rfl)
      ?_ rfl) trivial rfl) trivial rfl) trivial rfl) ?_ rfl, rfl⟩
    · rintro _ ⟨⟩
      decide
    · rintro _ ⟨⟩
      decide
  obtain ⟨rejections, run, calls⟩ := run
  exact ⟨rejections, run, calls, inTime_of_patient run⟩

end Rousette.Auth
