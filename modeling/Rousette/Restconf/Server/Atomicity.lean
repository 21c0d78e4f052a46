import Rousette.Libyang.Example
import Rousette.Restconf.Server.PatchEdits

/-!
# Atomicity of YANG Patch

A YANG Patch is meant to be applied as a whole or not at all.  The exception wrapper
around each edit reports an error and then goes on with the next edit, so the edits
which could be processed are applied behind the back of the reported error.  This
module states when a patch is atomic all the same.
-/

namespace Rousette.Restconf.Server

open Library Libyang Program

section Outcomes

variable {S : Type} [DecidableEq S] (env : Env S) (ctx : RequestContext)

/-- The state after a YANG Patch. -/
def afterPatch : World S :=
  (exec (reportExceptions env ctx (processYangPatch env ctx)) World.initial).2

/-- Atomicity: a patch which is answered by an error has not been applied, and one which
is answered by its status was processed and applied as a whole. -/
structure Atomic : Prop where
  rollback : ∀ code headers, (afterPatch env ctx).head = some (code, headers) → 400 ≤ code →
    (afterPatch env ctx).applied = []
  complete : ∀ headers, (afterPatch env ctx).head = some (200, headers) →
    ∃ patch, env.libyang.parsePatch ctx.payload ctx.requestFormat = .ok (some patch) ∧
      (∀ edit ∈ patch.edits, Succeeds env ctx edit) ∧
      (afterPatch env ctx).applied =
        if patch.edits.isEmpty then [] else [succeeded env ctx patch.edits]

/-- The condition under which a patch is torn apart: some edits fail and are reported,
others do not fail, and these are accepted by sysrepo. -/
def Torn : Prop :=
  ∃ patch patchId, env.libyang.parsePatch ctx.payload ctx.requestFormat = .ok (some patch) ∧
    patch.patchId = some patchId ∧ Completes env ctx patchId patch.edits ∧
    (∃ edit ∈ patch.edits, Fails env ctx edit) ∧
    (∃ edit ∈ patch.edits, Succeeds env ctx edit) ∧
    env.session.editBatch (succeeded env ctx patch.edits) = .ok () ∧
    env.session.applyChanges = .ok ()

/-- The status document takes the patch-id which the patch had. -/
def BuildsStatus : Prop :=
  ∀ patch patchId, env.libyang.parsePatch ctx.payload ctx.requestFormat = .ok (some patch) →
    patch.patchId = some patchId → ∃ document, patchStatus env patchId = .ok document

end Outcomes

section Responses

variable {S : Type}

/-- Nothing was applied, and the response is an error if there is one. -/
structure Refused (world : World S) : Prop where
  applied : world.applied = []
  error : ∀ code headers, world.head = some (code, headers) → 400 ≤ code

theorem Refused.rejects {before after : World S} (refused : Refused before)
    (rejects : Rejects before after) : Refused after where
  applied := rejects.applied.trans refused.applied
  error := by
    intro code headers present
    cases head : before.head with
    | none => exact rejects.error head code headers present
    | some first =>
        rw [rejects.head first head, Option.some.injEq] at present
        subst present
        exact refused.error code headers head

/-- A response which was begun is not replaced by a good one. -/
def Settled (before after : World S) : Prop := HasHead before → Rejects before after

theorem Settled.refl (world : World S) : Settled world world := fun _ => .refl world

theorem Settled.trans {first second third : World S} (before : Settled first second)
    (after : Settled second third) : Settled first third :=
  fun written => (before written).trans (after ((before written).hasHead written))

theorem settled_writeHead (code : Nat) (headers : List (Str × Str)) :
    Keeps Settled (writeHead code headers : Handler S Unit) := by
  intro world written
  obtain ⟨head, present⟩ := Option.isSome_iff_exists.mp written
  exact .of_eq rfl rfl (by simp [writeHead, present])

/-- The wrapper around the request adds at most an error. -/
theorem exec_reportExceptions (env : Env S) (ctx : RequestContext) {func : Handler S Unit}
    {result : Except Exception Unit}
    {middle : World S} (run : exec func World.initial = (result, middle)) :
    Rejects middle (exec (reportExceptions env ctx func) World.initial).2 := by
  have reports : ∀ error, Reports (rejectWithError env ctx.toRequest error) :=
    reports_rejectWithError
  obtain ⟨after, rejects, ⟨_, _, wrapped, _⟩ | ⟨_, _, ⟨wrapped, _⟩ | ⟨_, wrapped⟩⟩⟩ :=
    withRestconfExceptions_cases reports run
  all_goals
    rw [reportExceptions, wrapped]
    exact rejects

end Responses

variable {S : Type} [DecidableEq S] (env : Env S) (ctx : RequestContext)

omit [DecidableEq S] in
theorem settled_reportPatchOk (patchId : Str) : Keeps Settled (reportPatchOk env ctx patchId) := by
  unfold reportPatchOk
  refine .bind .trans (.liftM .refl _) fun _ => ?_
  refine .bind .trans (settled_writeHead _ _) fun _ => ?_
  refine .bind .trans (.liftM .refl _) fun _ => ?_
  refine .bind .trans (.liftM .refl _) fun _ => ?_
  exact fun world _ => keeps_endWith _ world

/-- What processing the patch comes to, before the response for it is written. -/
inductive Processed (patch : Patch) (patchId : Str) (result : Except Exception Unit)
    (after : World S) : Prop where
  | whole (all : ∀ edit ∈ patch.edits, Succeeds env ctx edit) (returned : result = .ok ())
      (head : after.head = none)
      (applied : after.applied =
        if patch.edits.isEmpty then [] else [succeeded env ctx patch.edits])
  | torn (completes : Completes env ctx patchId patch.edits)
      (fails : ∃ edit ∈ patch.edits, Fails env ctx edit)
      (succeeds : ∃ edit ∈ patch.edits, Succeeds env ctx edit)
      (batched : env.session.editBatch (succeeded env ctx patch.edits) = .ok ())
      (accepted : env.session.applyChanges = .ok ()) (returned : result = .ok ())
      (written : HasHead after)
      (error : ∀ code headers, after.head = some (code, headers) → 400 ≤ code)
      (applied : after.applied ≠ [])
  | refused (refused : Refused after) (written : result = .ok () → HasHead after)
      (untorn : ¬(Completes env ctx patchId patch.edits ∧
        (∃ edit ∈ patch.edits, Fails env ctx edit) ∧
        (∃ edit ∈ patch.edits, Succeeds env ctx edit) ∧
        env.session.editBatch (succeeded env ctx patch.edits) = .ok () ∧
        env.session.applyChanges = .ok ()))

theorem processed (patch : Patch) (patchId : Str) :
    Processed env ctx patch patchId
      (exec (processYangPatchImpl env ctx patch patchId) World.initial).1
      (exec (processYangPatchImpl env ctx patch patchId) World.initial).2 := by
  have clean : Refused (World.initial : World S) := ⟨rfl, by simp [World.initial]⟩
  obtain ⟨after, rejects, run⟩ := exec_edits env ctx patchId patch.edits [] World.initial
  rcases run with ⟨completes, run, untouched, written⟩ | ⟨stuck, exception, run⟩
  case inr =>
    simp only [processYangPatchImpl, exec_bind, run]
    refine .refused (clean.rejects rejects) (fun returned => by cases returned) ?_
    exact fun torn => stuck torn.1
  have refused := clean.rejects rejects
  simp only [processYangPatchImpl, exec_bind, run, List.nil_append]
  by_cases empty : succeeded env ctx patch.edits = []
  · have noneSucceeds : ¬∃ edit ∈ patch.edits, Succeeds env ctx edit := fun succeeds =>
      (succeeded_ne_nil_iff env ctx).mpr succeeds empty
    simp only [empty, List.isEmpty_nil, Bool.not_true, Bool.false_eq_true, if_false, exec_pure]
    by_cases fails : ∃ edit ∈ patch.edits, Fails env ctx edit
    · exact .refused refused (fun _ => written fails) fun torn => noneSucceeds torn.2.2.1
    · have all := all_succeed env ctx fails
      have noEdits : patch.edits = [] := by
        cases edits : patch.edits with
        | nil => rfl
        | cons edit rest =>
            exact absurd ⟨edit, by simp [edits], all edit (by simp [edits])⟩ noneSucceeds
      refine .whole all rfl (untouched all) ?_
      simpa [noEdits] using refused.applied
  · have nonempty : (succeeded env ctx patch.edits).isEmpty = false := by
      simpa using empty
    have succeeds := (succeeded_ne_nil_iff env ctx).mp empty
    simp only [nonempty, Bool.not_false, if_true, exec_bind, editBatch, applyChanges,
      exec_modify, exec_liftM]
    have handedOver : Refused { after with
        handed := after.handed ++ [succeeded env ctx patch.edits] } :=
      ⟨refused.applied, refused.error⟩
    cases batch : env.session.editBatch (succeeded env ctx patch.edits) with
    | error error =>
        simp only [raiseSysrepo]
        refine .refused handedOver (fun returned => by cases returned) ?_
        exact fun torn => by simp [batch] at torn
    | ok _ =>
        cases apply : env.session.applyChanges with
        | error error =>
            simp only [raiseSysrepo]
            refine .refused handedOver (fun returned => by cases returned) ?_
            exact fun torn => by simp [apply] at torn
        | ok _ =>
            simp only [raiseSysrepo]
            by_cases fails : ∃ edit ∈ patch.edits, Fails env ctx edit
            · exact .torn completes fails succeeds batch apply rfl (written fails)
                refused.error (by simp)
            · have all := all_succeed env ctx fails
              refine .whole all rfl (untouched all) ?_
              obtain ⟨edit, member, _⟩ := succeeds
              have someEdits : patch.edits.isEmpty = false := by
                cases edits : patch.edits with
                | nil => simp [edits] at member
                | cons edit rest => rfl
              simp [refused.applied, someEdits]

theorem Refused.atomic (refused : Refused (afterPatch env ctx)) : Atomic env ctx where
  rollback _ _ _ _ := refused.applied
  complete headers present := by
    have error := refused.error 200 headers present
    omega

/-- A patch whose exception is not even reported with its id. -/
theorem atomic_of_raise {exception : Exception}
    (run : exec (processYangPatch env ctx) World.initial = (.error exception, World.initial)) :
    Atomic env ctx := by
  have clean : Refused (World.initial : World S) := ⟨rfl, by simp [World.initial]⟩
  exact Refused.atomic env ctx (clean.rejects (exec_reportExceptions env ctx run))

omit [DecidableEq S] in
/-- The response to a patch which went well, if no other was begun. -/
theorem exec_reportPatchOk {patchId : Str} {document : Document} {world : World S}
    (built : patchStatus env patchId = .ok document) (head : world.head = none) :
    ∃ result after, exec (reportPatchOk env ctx patchId) world = (result, after) ∧
      after.head = some (200, [contentType ctx.responseFormat, cors]) ∧
      after.applied = world.applied := by
  refine ⟨(exec (reportPatchOk env ctx patchId) world).1,
    (exec (reportPatchOk env ctx patchId) world).2, rfl, ?_⟩
  simp only [reportPatchOk, exec_bind, exec_liftM, built, writeHead, exec_modify, endWith]
  cases raise (env.libyang.printDocument document ctx.responseFormat) with
  | error exception => simp [head]
  | ok printed =>
      cases unwrapped : deref printed with
      | error exception => simp [head, unwrapped]
      | ok body => simp [head, unwrapped]

/-- The processing of a patch with an id, up to the request. -/
theorem exec_processYangPatch {patch : Patch} {patchId : Str}
    (parsed : env.libyang.parsePatch ctx.payload ctx.requestFormat = .ok (some patch))
    (identified : patch.patchId = some patchId) :
    exec (processYangPatch env ctx) World.initial =
      exec (withRestconfExceptions env ctx.restconfRequest.path
        (processYangPatchImpl env ctx patch patchId)
        (rejectYangPatch env ctx.toRequest patchId) () >>= fun _ =>
          reportPatchOk env ctx patchId) World.initial := by
  rw [processYangPatch, exec_bind]
  simp only [parsed, raise, exec_liftM]
  rw [exec_bind]
  simp only [identified, childLeafValue, exec_liftM]

/-- The state after a patch which left no response behind, or an error. -/
theorem rejects_afterPatch {patch : Patch} {patchId : Str}
    {result : Except Exception Unit} {middle : World S}
    (parsed : env.libyang.parsePatch ctx.payload ctx.requestFormat = .ok (some patch))
    (identified : patch.patchId = some patchId)
    (run : exec (processYangPatchImpl env ctx patch patchId) World.initial = (result, middle))
    (written : result = .ok () → HasHead middle) : Rejects middle (afterPatch env ctx) := by
  have reports : ∀ error, Reports (rejectYangPatch env ctx.toRequest patchId error) :=
    reports_rejectYangPatch patchId
  obtain ⟨after, rejects, wrapped⟩ := withRestconfExceptions_cases reports run
  have finished : ∀ {value : Unit}, exec (withRestconfExceptions env ctx.restconfRequest.path
      (processYangPatchImpl env ctx patch patchId) (rejectYangPatch env ctx.toRequest patchId)
      ()) World.initial = (.ok value, after) → HasHead after →
        Rejects middle (afterPatch env ctx) := by
    intro value returned head
    have settled := settled_reportPatchOk env ctx patchId after head
    refine (rejects.trans settled).trans (exec_reportExceptions env ctx (Prod.ext rfl ?_))
    rw [exec_processYangPatch env ctx parsed identified, exec_bind, returned]
  rcases wrapped with ⟨value, returned, wrapped, same⟩ | ⟨exception, _, reported | failed⟩
  · exact finished wrapped (same ▸ written returned)
  · exact finished reported.1 reported.2
  · obtain ⟨other, failed⟩ := failed
    refine rejects.trans (exec_reportExceptions env ctx (Prod.ext rfl ?_))
    rw [exec_processYangPatch env ctx parsed identified, exec_bind, failed]

/-- The state after a patch which was processed as a whole. -/
theorem afterPatch_whole {patch : Patch} {patchId : Str} {document : Document}
    {middle : World S}
    (parsed : env.libyang.parsePatch ctx.payload ctx.requestFormat = .ok (some patch))
    (identified : patch.patchId = some patchId)
    (run : exec (processYangPatchImpl env ctx patch patchId) World.initial = (.ok (), middle))
    (built : patchStatus env patchId = .ok document) (head : middle.head = none) :
    (afterPatch env ctx).head = some (200, [contentType ctx.responseFormat, cors]) ∧
      (afterPatch env ctx).applied = middle.applied := by
  obtain ⟨result, after, answered, good, applied⟩ :=
    exec_reportPatchOk env ctx built head
  have whole : exec (processYangPatch env ctx) World.initial = (result, after) := by
    rw [exec_processYangPatch env ctx parsed identified, exec_bind,
      exec_withRestconfExceptions_ok run]
    exact answered
  have rejects := exec_reportExceptions env ctx whole
  exact ⟨rejects.head _ good, rejects.applied.trans applied⟩

/-- A patch is atomic exactly when it is not torn apart. -/
theorem patch_atomic_iff (builds : BuildsStatus env ctx) : Atomic env ctx ↔ ¬Torn env ctx := by
  cases parsed : env.libyang.parsePatch ctx.payload ctx.requestFormat with
  | error error =>
      have raised : exec (processYangPatch env ctx) World.initial =
          (.error (.libyang error), World.initial) := by
        rw [processYangPatch, exec_bind]
        simp only [parsed, raise, exec_liftM]
      refine ⟨?_, fun _ => atomic_of_raise env ctx raised⟩
      rintro _ ⟨patch, _, present, _⟩
      simp [parsed] at present
  | ok found =>
      cases found with
      | none =>
          have raised : exec (processYangPatch env ctx) World.initial =
              (.error (invalidValue (str "Empty patch.") none), World.initial) := by
            rw [processYangPatch, exec_bind]
            simp only [parsed, raise, exec_liftM, exec_throw]
          refine ⟨?_, fun _ => atomic_of_raise env ctx raised⟩
          rintro _ ⟨patch, _, present, _⟩
          simp [parsed] at present
      | some patch =>
          cases identified : patch.patchId with
          | none =>
              have raised : exec (processYangPatch env ctx) World.initial =
                  (.error (leafMissing "patch-id"), World.initial) := by
                rw [processYangPatch, exec_bind]
                simp only [parsed, raise, exec_liftM]
                rw [exec_bind]
                simp only [identified, childLeafValue, exec_liftM]
              refine ⟨?_, fun _ => atomic_of_raise env ctx raised⟩
              rintro _ ⟨other, _, present, known, _⟩
              rw [parsed, Except.ok.injEq, Option.some.injEq] at present
              subst present
              simp [identified] at known
          | some patchId =>
              obtain ⟨document, built⟩ := builds patch patchId parsed identified
              have same : ∀ {other otherId}, env.libyang.parsePatch ctx.payload
                  ctx.requestFormat = .ok (some other) → other.patchId = some otherId →
                    other = patch ∧ otherId = patchId := by
                intro other otherId present known
                rw [parsed, Except.ok.injEq, Option.some.injEq] at present
                subst present
                rw [identified, Option.some.injEq] at known
                exact ⟨rfl, known.symm⟩
              rcases run : exec (processYangPatchImpl env ctx patch patchId) World.initial with
                ⟨result, middle⟩
              have outcome := processed env ctx patch patchId
              simp only [run] at outcome
              cases outcome with
              | whole all returned head applied =>
                  rw [returned] at run
                  obtain ⟨good, written⟩ :=
                    afterPatch_whole env ctx parsed identified run built head
                  refine iff_of_true ⟨?_, ?_⟩ ?_
                  · intro code headers present bad
                    rw [good, Option.some.injEq, Prod.mk.injEq] at present
                    omega
                  · exact fun _ _ => ⟨patch, parsed, all, written.trans applied⟩
                  · rintro ⟨other, otherId, present, known, _, ⟨edit, member, exception, failed⟩, _⟩
                    obtain ⟨rfl, rfl⟩ := same present known
                    obtain ⟨forest, processed⟩ := all edit member
                    simp [failed] at processed
              | torn completes fails succeeds batched accepted returned written error applied =>
                  rw [returned] at run
                  have rejects := rejects_afterPatch env ctx parsed identified run fun _ => written
                  refine iff_of_false ?_ (not_not_intro ?_)
                  · intro atomic
                    obtain ⟨head, present⟩ := Option.isSome_iff_exists.mp written
                    have nothing := atomic.rollback head.1 head.2 (rejects.head head present)
                      (error head.1 head.2 present)
                    exact applied (rejects.applied.symm.trans nothing)
                  · exact ⟨patch, patchId, parsed, identified, completes, fails, succeeds, batched,
                      accepted⟩
              | refused refused written untorn =>
                  have rejects := rejects_afterPatch env ctx parsed identified run written
                  refine iff_of_true (Refused.atomic env ctx (refused.rejects rejects)) ?_
                  rintro ⟨other, otherId, present, known, torn⟩
                  obtain ⟨rfl, rfl⟩ := same present known
                  exact untorn torn

/-- A patch of the datastore resource with two edits, which merge a leaf and whatever is
at the given target. -/
def twoEdits (target : String) : Patch where
  patchId := some (str "patch")
  edits :=
    [⟨some (str "edit1"), some (str "/example:top-level-leaf"), some (str "merge"), none, none,
        .data (.ok (some (str "\"x\"")))⟩,
      ⟨some (str "edit2"), some (str target), some (str "merge"), none, none,
        .data (.ok (some (str "\"x\"")))⟩]

/-- A server which receives the patch. -/
def twoEditsEnv (target : String) : Env Example.Node where
  libyang :=
    { Example.calls with
      parsePatch := fun _ _ => .ok (some (twoEdits target))
      parseData := fun _ _ => .ok [.leaf .topLevelLeaf (str "x")] }
  session := .accepting

/-- A patch of the datastore resource. -/
def patchContext : RequestContext where
  method := str "PATCH"
  rawPath := str "/restconf/data"
  path := str "/restconf/data"
  responseFormat := .json
  urlPrefix := none
  requestFormat := .json
  activeDatastore := .running
  restconfRequest := ⟨.mergeData, none, str "/", []⟩
  contentTypeHeader := some (str "application/yang-patch+json")
  payload := []

theorem buildsStatus_twoEdits (target : String) :
    BuildsStatus (twoEditsEnv target) patchContext :=
  fun _ _ _ _ => ⟨_, rfl⟩

theorem twoEdits_atomic :
    BuildsStatus (twoEditsEnv "/example:top-level-leaf") patchContext ∧
      Atomic (twoEditsEnv "/example:top-level-leaf") patchContext := by
  have builds := buildsStatus_twoEdits "/example:top-level-leaf"
  refine ⟨builds, (patch_atomic_iff _ _ builds).mpr ?_⟩
  rintro ⟨patch, patchId, parsed, _, _, ⟨edit, member, exception, failed⟩, _⟩
  cases parsed
  have processed : (twoEdits "/example:top-level-leaf").edits.all fun edit =>
      (editOutcome (twoEditsEnv "/example:top-level-leaf") patchContext edit).isOk := by
    decide +kernel
  have good := List.all_eq_true.mp processed edit member
  simp [failed, Except.isOk, Except.toBool] at good

/-- The second edit names an unknown node: an error is delivered, and the first edit is
applied. -/
theorem twoEdits_torn :
    (afterPatch (twoEditsEnv "/example:unknown") patchContext).head =
      some (400, [contentType .json, cors]) ∧
    (afterPatch (twoEditsEnv "/example:unknown") patchContext).applied.length = 1 ∧
    ¬Atomic (twoEditsEnv "/example:unknown") patchContext := by
  have head : (afterPatch (twoEditsEnv "/example:unknown") patchContext).head =
      some (400, [contentType .json, cors]) := by decide +kernel
  have applied : (afterPatch (twoEditsEnv "/example:unknown") patchContext).applied.length = 1 := by
    decide +kernel
  refine ⟨head, applied, fun atomic => ?_⟩
  have nothing := atomic.rollback 400 _ head (by decide)
  simp [nothing] at applied

end Rousette.Restconf.Server
