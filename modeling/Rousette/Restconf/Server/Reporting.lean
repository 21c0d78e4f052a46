import Rousette.Restconf.Server.Response

/-!
# What error reports do

An error report writes nothing but the response, and what it writes is an error.  Its
outcome does not depend on what was done before.
-/

namespace Rousette.Restconf.Server

open Library Libyang Program

variable {S : Type} {env : Env S} {req : Request}

/-- Nothing is applied or handed over, a response which was begun stays, and a response
which is begun is an error. -/
structure Rejects (before after : World S) : Prop where
  applied : after.applied = before.applied
  handed : after.handed = before.handed
  head : ∀ head, before.head = some head → after.head = some head
  error : before.head = none → ∀ code headers, after.head = some (code, headers) → 400 ≤ code

namespace Rejects

theorem refl (world : World S) : Rejects world world where
  applied := rfl
  handed := rfl
  head _ := id
  error absent _ _ present := by simp [absent] at present

theorem trans {first second third : World S} (before : Rejects first second)
    (after : Rejects second third) : Rejects first third where
  applied := after.applied.trans before.applied
  handed := after.handed.trans before.handed
  head head present := after.head head (before.head head present)
  error := by
    intro absent code headers present
    cases middle : second.head with
    | none => exact after.error middle code headers present
    | some head =>
        have same := after.head head middle
        rw [present, Option.some.injEq] at same
        subst same
        exact before.error absent code headers middle

/-- A change which does not concern the response. -/
theorem of_eq {before after : World S} (applied : after.applied = before.applied)
    (handed : after.handed = before.handed) (head : after.head = before.head) :
    Rejects before after where
  applied := applied
  handed := handed
  head _ present := head.trans present
  error absent _ _ present := by simp [head, absent] at present

end Rejects

theorem keeps_writeError (status : ErrorStatus) (headers : List (Str × Str)) :
    Keeps Rejects (writeHead status.toNat headers : Handler S Unit) := by
  intro world
  constructor
  case applied => rfl
  case handed => rfl
  case head =>
    intro head present
    simp [writeHead, present]
  case error =>
    intro absent code headers' present
    simp only [writeHead, exec_modify, absent, Option.none_or, Option.some.injEq,
      Prod.mk.injEq] at present
    rw [← present.1]
    exact status.le_toNat

theorem keeps_endWith (body : Str) : Keeps Rejects (endWith body : Handler S Unit) :=
  fun _ => .of_eq rfl rfl rfl

theorem keeps_rejectWithErrorImpl (document : Document) (container : Str)
    (error : ErrorResponse) :
    Keeps Rejects (rejectWithErrorImpl env req document container error) := by
  unfold rejectWithErrorImpl
  refine .bind .trans (.liftM .refl _) fun _ => ?_
  refine .bind .trans (.liftM .refl _) fun _ => ?_
  refine .bind .trans (.liftM .refl _) fun _ => ?_
  refine .bind .trans (keeps_writeError _ _) fun _ => ?_
  refine .bind .trans (.liftM .refl _) fun _ => ?_
  refine .bind .trans (.liftM .refl _) fun _ => ?_
  exact keeps_endWith _

theorem uniform_rejectWithErrorImpl (document : Document) (container : Str)
    (error : ErrorResponse) : Uniform (rejectWithErrorImpl env req document container error) := by
  unfold rejectWithErrorImpl
  refine .bind (.liftM _) fun _ => ?_
  refine .bind (.liftM _) fun _ => ?_
  refine .bind (.liftM _) fun _ => ?_
  refine .bind (.modify _) fun _ => ?_
  refine .bind (.liftM _) fun _ => ?_
  refine .bind (.liftM _) fun _ => ?_
  exact .modify _

/-- The head of a response has been written. -/
def HasHead (world : World S) : Prop := world.head.isSome = true

/-- The body of a response has been written. -/
def HasBody (world : World S) : Prop := world.body.isSome = true

theorem Rejects.hasHead {before after : World S} (rejects : Rejects before after)
    (written : HasHead before) : HasHead after := by
  obtain ⟨head, present⟩ := Option.isSome_iff_exists.mp written
  exact Option.isSome_iff_exists.mpr ⟨head, rejects.head head present⟩

theorem ensures_writeHead (code : Nat) (headers : List (Str × Str)) :
    Ensures HasHead (writeHead code headers : Handler S Unit) :=
  .modify fun world => by cases world.head <;> rfl

theorem ensures_endWith (body : Str) : Ensures HasBody (endWith body : Handler S Unit) :=
  .modify fun world => by cases world.body <;> rfl

theorem ensures_head_rejectWithErrorImpl (document : Document) (container : Str)
    (error : ErrorResponse) :
    Ensures HasHead (rejectWithErrorImpl env req document container error) := by
  unfold rejectWithErrorImpl
  refine .bind fun _ => .bind fun _ => .bind fun _ => ?_
  refine .bind_keeps (ensures_writeHead _ _) fun _ => ?_
  -- what follows does not touch the head
  refine .bind_property (fun _ => id) fun _ => ?_
  exact .bind_property (fun _ => id) fun _ _ => id

theorem ensures_body_rejectWithErrorImpl (document : Document) (container : Str)
    (error : ErrorResponse) :
    Ensures HasBody (rejectWithErrorImpl env req document container error) := by
  unfold rejectWithErrorImpl
  refine .bind fun _ => .bind fun _ => .bind fun _ => .bind fun _ => .bind fun _ => ?_
  exact .bind fun _ => ensures_endWith _

/-- A report: it only writes an error response, its outcome does not depend on what was
done before, and it writes the whole response if it returns. -/
structure Reports (report : Handler S Unit) : Prop where
  rejects : Keeps Rejects report
  uniform : Uniform report
  head : Ensures HasHead report
  body : Ensures HasBody report

theorem reports_rejectWithErrorImpl (document : Document) (container : Str)
    (error : ErrorResponse) : Reports (rejectWithErrorImpl env req document container error) where
  rejects := keeps_rejectWithErrorImpl document container error
  uniform := uniform_rejectWithErrorImpl document container error
  head := ensures_head_rejectWithErrorImpl document container error
  body := ensures_body_rejectWithErrorImpl document container error

namespace Reports

/-- Computing something before the report. -/
theorem of_liftM {α : Type} (result : Except Exception α) {report : α → Handler S Unit}
    (reports : ∀ value, Reports (report value)) :
    Reports (liftM result >>= report : Handler S Unit) where
  rejects := .bind .trans (.liftM .refl _) fun value => (reports value).rejects
  uniform := .bind (.liftM _) fun value => (reports value).uniform
  head := .bind fun value => (reports value).head
  body := .bind fun value => (reports value).body

end Reports

theorem reports_rejectWithError (error : ErrorResponse) :
    Reports (rejectWithError env req error) :=
  .of_liftM _ fun _ => reports_rejectWithErrorImpl _ _ error

theorem reports_rejectInStatus (patchId errorContainerXPath : Str) (error : ErrorResponse) :
    Reports (rejectInStatus env req patchId errorContainerXPath error) := by
  refine .of_liftM _ fun _ => .of_liftM _ fun found => .of_liftM _ fun _ => ?_
  exact .of_liftM _ fun _ => reports_rejectWithErrorImpl _ _ error

theorem reports_rejectYangPatch (patchId : Str) (error : ErrorResponse) :
    Reports (rejectYangPatch env req patchId error) :=
  reports_rejectInStatus _ _ error

theorem reports_rejectYangPatchEdit (patchId editId : Str) (error : ErrorResponse) :
    Reports (rejectYangPatchEdit env req patchId editId error) :=
  reports_rejectInStatus _ _ error

/-! ## The exception wrapper -/

/-- The outcome of a program which does not depend on the state. -/
def outcome {α : Type} (program : Handler S α) : Except Exception α :=
  (exec program World.initial).1

theorem reports_report {path : Str} {reject : ErrorResponse → Handler S Unit}
    (reports : ∀ error, Reports (reject error)) (exception : Exception) :
    Reports (report env path reject exception) :=
  .of_liftM _ reports

/-- What a report does. -/
theorem Reports.cases {report : Handler S Unit} (reports : Reports report) (world : World S) :
    ∃ after, Rejects world after ∧
      ((outcome report = .ok () ∧ exec report world = (.ok (), after) ∧ HasHead after ∧
          HasBody after) ∨
        ∃ exception, outcome report = .error exception ∧
          exec report world = (.error exception, after)) := by
  have same : outcome report = (exec report world).1 := reports.uniform _ _
  refine ⟨_, reports.rejects world, ?_⟩
  cases result : (exec report world).1 with
  | ok value =>
      exact .inl ⟨same.trans result, Prod.ext result rfl, reports.head world value result,
        reports.body world value result⟩
  | error exception => exact .inr ⟨exception, same.trans result, Prod.ext result rfl⟩

section Wrapper

variable {α : Type} {path : Str} {func : Handler S α}
  {reject : ErrorResponse → Handler S Unit} {before : α} {world middle : World S}

theorem exec_withRestconfExceptions_ok {value : α}
    (returned : exec func world = (.ok value, middle)) :
    exec (withRestconfExceptions env path func reject before) world = (.ok value, middle) := by
  rw [withRestconfExceptions, exec_tryCatch, returned]

theorem exec_withRestconfExceptions_error {exception : Exception}
    (raised : exec func world = (.error exception, middle)) :
    exec (withRestconfExceptions env path func reject before) world =
      match exec (report env path reject exception) middle with
      | (.ok _, after) => (.ok before, after)
      | (.error other, after) => (.error other, after) := by
  rw [withRestconfExceptions, exec_tryCatch, raised]
  simp only [exec_bind, exec_pure]
  rcases exec (report env path reject exception) middle with ⟨other | value, after⟩ <;> rfl

/-- A wrapped function returns, or its exception is reported, or the report fails. -/
theorem withRestconfExceptions_cases (reports : ∀ error, Reports (reject error))
    {result : Except Exception α} (run : exec func world = (result, middle)) :
    ∃ after, Rejects middle after ∧
      let wrapped := exec (withRestconfExceptions env path func reject before) world
      ((∃ value, result = .ok value ∧ wrapped = (.ok value, after) ∧ after = middle) ∨
        ∃ exception, result = .error exception ∧
          ((wrapped = (.ok before, after) ∧ HasHead after) ∨
            ∃ other, wrapped = (.error other, after))) := by
  cases result with
  | ok value =>
      exact ⟨middle, .refl middle, .inl ⟨value, rfl, exec_withRestconfExceptions_ok run, rfl⟩⟩
  | error exception =>
      have reporting : Reports (report env path reject exception) :=
        reports_report reports exception
      obtain ⟨after, rejects, ⟨_, reported, head, _⟩ | ⟨other, _, failed⟩⟩ :=
        reporting.cases middle
      · refine ⟨after, rejects, .inr ⟨exception, rfl, .inl ⟨?_, head⟩⟩⟩
        simp only [exec_withRestconfExceptions_error run, reported]
      · refine ⟨after, rejects, .inr ⟨exception, rfl, .inr ⟨other, ?_⟩⟩⟩
        simp only [exec_withRestconfExceptions_error run, failed]

end Wrapper

end Rousette.Restconf.Server
