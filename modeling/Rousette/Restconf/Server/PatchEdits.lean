import Rousette.Restconf.Server.EditEffects
import Rousette.Restconf.Server.Reporting

/-!
# The edits of a YANG Patch

What the loop over the edits of a patch does: an edit which can be processed is
merged with those before it, and an edit which fails is reported and skipped.
-/

namespace Rousette.Restconf.Server

open Library Libyang Program

section Responses

variable {S : Type}

theorem ChecksOnly.rejects {before after : World S} :
    ChecksOnly before after → Rejects before after := by
  rintro ⟨checks, rfl⟩
  exact .of_eq rfl rfl rfl

theorem ChecksOnly.head {before after : World S} :
    ChecksOnly before after → after.head = before.head := by
  rintro ⟨checks, rfl⟩
  rfl

end Responses

variable {S : Type} [DecidableEq S] (env : Env S) (ctx : RequestContext)

/-- What processing a single edit gives. -/
def editOutcome (edit : PatchEdit) : Except Exception (Forest S) :=
  outcome (processYangPatchEdit env ctx edit)

/-- Whether the exception of an edit can be reported in the status of the edit. -/
def reportOutcome (patchId editId : Str) (exception : Exception) : Except Exception Unit :=
  outcome (report env ctx.restconfRequest.path
    (rejectYangPatchEdit env ctx.toRequest patchId editId) exception)

/-- The edits which could be processed, merged. -/
def succeeded (edits : List PatchEdit) : Forest S :=
  edits.flatMap fun edit => (editOutcome env ctx edit).toOption.getD []

/-- The loop over the edits gets to its end: every edit has an id, and the error of every
edit which fails is reported. -/
def Completes (patchId : Str) (edits : List PatchEdit) : Prop :=
  ∀ edit ∈ edits, ∃ editId, edit.editId = some editId ∧
    ∀ exception, editOutcome env ctx edit = .error exception →
      reportOutcome env ctx patchId editId exception = .ok ()

/-- The edit fails. -/
def Fails (edit : PatchEdit) : Prop :=
  ∃ exception, editOutcome env ctx edit = .error exception

/-- The edit can be processed. -/
def Succeeds (edit : PatchEdit) : Prop :=
  ∃ forest, editOutcome env ctx edit = .ok forest

theorem exec_processYangPatchEdit (edit : PatchEdit) (world : World S) :
    ∃ after, ChecksOnly world after ∧
      exec (processYangPatchEdit env ctx edit) world = (editOutcome env ctx edit, after) := by
  have builds := builds_processYangPatchEdit env ctx edit
  refine ⟨_, builds.checks world, Prod.ext ?_ rfl⟩
  exact builds.uniform world World.initial

/-- One turn of the loop over the edits. -/
theorem exec_edit (patchId editId : Str) (edit : PatchEdit) (mergedEdits : Forest S)
    (world : World S) :
    ∃ after, Rejects world after ∧
      let turn := exec (withRestconfExceptions env ctx.restconfRequest.path
        (do
          let singleEdit ← processYangPatchEdit env ctx edit
          return mergedEdits ++ singleEdit)
        (rejectYangPatchEdit env ctx.toRequest patchId editId) mergedEdits) world
      (∃ forest, editOutcome env ctx edit = .ok forest ∧
        turn = (.ok (mergedEdits ++ forest), after) ∧ after.head = world.head) ∨
      (∃ exception, editOutcome env ctx edit = .error exception ∧
        reportOutcome env ctx patchId editId exception = .ok () ∧
        turn = (.ok mergedEdits, after) ∧ HasHead after) ∨
      (∃ exception other, editOutcome env ctx edit = .error exception ∧
        reportOutcome env ctx patchId editId exception = .error other ∧
        turn = (.error other, after)) := by
  obtain ⟨middle, checks, processed⟩ := exec_processYangPatchEdit env ctx edit world
  cases result : editOutcome env ctx edit with
  | ok forest =>
      refine ⟨middle, checks.rejects, .inl ⟨forest, rfl, ?_, checks.head⟩⟩
      apply exec_withRestconfExceptions_ok
      simp only [exec_bind, processed, result, exec_pure]
  | error exception =>
      have raised : exec (do
          let singleEdit ← processYangPatchEdit env ctx edit
          return mergedEdits ++ singleEdit : Handler S (Forest S)) world =
          (.error exception, middle) := by
        simp only [exec_bind, processed, result]
      have reports : Reports (report env ctx.restconfRequest.path
          (rejectYangPatchEdit env ctx.toRequest patchId editId) exception) :=
        reports_report (reports_rejectYangPatchEdit patchId editId) exception
      obtain ⟨after, rejects, reported | ⟨other, failed, run⟩⟩ := reports.cases middle
      · obtain ⟨done, run, head, _⟩ := reported
        refine ⟨after, checks.rejects.trans rejects, .inr (.inl ⟨exception, rfl, done, ?_, head⟩)⟩
        simp only [exec_withRestconfExceptions_error raised, run]
      · refine ⟨after, checks.rejects.trans rejects,
          .inr (.inr ⟨exception, other, rfl, failed, ?_⟩)⟩
        simp only [exec_withRestconfExceptions_error raised, run]

theorem completes_cons {patchId : Str} {edit : PatchEdit} {rest : List PatchEdit} :
    Completes env ctx patchId (edit :: rest) ↔
      (∃ editId, edit.editId = some editId ∧
        ∀ exception, editOutcome env ctx edit = .error exception →
          reportOutcome env ctx patchId editId exception = .ok ()) ∧
      Completes env ctx patchId rest :=
  List.forall_mem_cons

/-- The loop over the edits makes one turn, and goes on with the rest of them. -/
theorem exec_edits_cons (patchId : Str) {editId : Str} {edit : PatchEdit}
    (identified : edit.editId = some editId) (rest : List PatchEdit) (mergedEdits : Forest S)
    (world : World S) :
    exec (processYangPatchEdits env ctx patchId mergedEdits (edit :: rest)) world =
      exec (withRestconfExceptions env ctx.restconfRequest.path
        (do
          let singleEdit ← processYangPatchEdit env ctx edit
          return mergedEdits ++ singleEdit)
        (rejectYangPatchEdit env ctx.toRequest patchId editId) mergedEdits >>=
          fun merged => processYangPatchEdits env ctx patchId merged rest) world := by
  rw [processYangPatchEdits, exec_bind]
  simp only [identified, childLeafValue, exec_liftM]

/-- The whole loop over the edits. -/
theorem exec_edits (patchId : Str) (edits : List PatchEdit) (mergedEdits : Forest S)
    (world : World S) :
    ∃ after, Rejects world after ∧
      let run := exec (processYangPatchEdits env ctx patchId mergedEdits edits) world
      (Completes env ctx patchId edits ∧
        run = (.ok (mergedEdits ++ succeeded env ctx edits), after) ∧
        ((∀ edit ∈ edits, Succeeds env ctx edit) → after.head = world.head) ∧
        ((∃ edit ∈ edits, Fails env ctx edit) → HasHead after)) ∨
      (¬Completes env ctx patchId edits ∧ ∃ exception, run = (.error exception, after)) := by
  induction edits generalizing mergedEdits world with
  | nil =>
      refine ⟨world, .refl world, .inl ⟨?_, ?_, fun _ => rfl, ?_⟩⟩
      · intro edit member
        cases member
      · simp [processYangPatchEdits, succeeded]
      · rintro ⟨edit, member, _⟩
        cases member
  | cons edit rest ih =>
      simp only [completes_cons, List.forall_mem_cons, List.exists_mem_cons_iff]
      cases identified : edit.editId with
      | none =>
          refine ⟨world, .refl world, .inr ⟨?_, leafMissing "edit-id", ?_⟩⟩
          · rintro ⟨⟨_, present, _⟩, _⟩
            cases present
          · simp only [processYangPatchEdits, exec_bind, identified, childLeafValue, exec_liftM]
      | some editId =>
          simp only [exec_edits_cons env ctx patchId identified, exec_bind]
          obtain ⟨middle, rejects, turn⟩ := exec_edit env ctx patchId editId edit mergedEdits world
          rcases turn with ⟨forest, processed, turn, head⟩ |
            ⟨exception, failed, reported, turn, head⟩ | ⟨exception, other, failed, raised, turn⟩
          · obtain ⟨after, further, remaining⟩ := ih (mergedEdits ++ forest) middle
            refine ⟨after, rejects.trans further, ?_⟩
            simp only [turn]
            rcases remaining with ⟨completes, run, untouched, written⟩ | ⟨stuck, stopped⟩
            · refine .inl ⟨⟨⟨editId, rfl, ?_⟩, completes⟩, ?_, ?_, ?_⟩
              · simp [processed]
              · simp [run, succeeded, processed, Except.toOption]
              · rintro ⟨_, all⟩
                rw [untouched all, head]
              · rintro (⟨exception, failed⟩ | later)
                · simp [processed] at failed
                · exact written later
            · exact .inr ⟨fun ⟨_, completes⟩ => stuck completes, stopped⟩
          · obtain ⟨after, further, remaining⟩ := ih mergedEdits middle
            refine ⟨after, rejects.trans further, ?_⟩
            simp only [turn]
            rcases remaining with ⟨completes, run, _, _⟩ | ⟨stuck, stopped⟩
            · refine .inl ⟨⟨⟨editId, rfl, ?_⟩, completes⟩, ?_, ?_, ?_⟩
              · simpa [failed] using reported
              · simp [run, succeeded, failed, Except.toOption]
              · rintro ⟨⟨forest, processed⟩, _⟩
                simp [failed] at processed
              · exact fun _ => further.hasHead head
            · exact .inr ⟨fun ⟨_, completes⟩ => stuck completes, stopped⟩
          · refine ⟨middle, rejects, .inr ⟨?_, other, by simp only [turn]⟩⟩
            rintro ⟨⟨_, same, reported⟩, _⟩
            cases same
            have contradiction := reported exception failed
            simp [raised] at contradiction

theorem forest_ne_nil {edit : PatchEdit} {forest : Forest S}
    (processed : editOutcome env ctx edit = .ok forest) : forest ≠ [] := by
  simp only [editOutcome, outcome, processYangPatchEdit, exec_bind_eq_ok, exec_liftM] at processed
  obtain ⟨_, _, _, _, _, _, nodes, created, _, _, annotated, marked, result⟩ := processed
  cases result
  have length := (annotated_setPatchOperation marked).length
  have present := edit_ne_nil_of_createEdit created
  rw [ne_eq, ← List.length_eq_zero_iff] at present ⊢
  rwa [length]

theorem succeeded_ne_nil_iff {edits : List PatchEdit} :
    succeeded env ctx edits ≠ [] ↔ ∃ edit ∈ edits, Succeeds env ctx edit := by
  simp only [succeeded, ne_eq, List.flatMap_eq_nil_iff, not_forall]
  constructor
  · rintro ⟨edit, member, present⟩
    cases processed : editOutcome env ctx edit with
    | error exception => simp [processed, Except.toOption] at present
    | ok forest => exact ⟨edit, member, forest, processed⟩
  · rintro ⟨edit, member, forest, processed⟩
    refine ⟨edit, member, ?_⟩
    simpa [processed, Except.toOption] using forest_ne_nil env ctx processed

theorem succeeds_or_fails (edit : PatchEdit) : Succeeds env ctx edit ∨ Fails env ctx edit := by
  cases result : editOutcome env ctx edit with
  | ok forest => exact .inl ⟨forest, result⟩
  | error exception => exact .inr ⟨exception, result⟩

theorem all_succeed {edits : List PatchEdit} (none : ¬∃ edit ∈ edits, Fails env ctx edit) :
    ∀ edit ∈ edits, Succeeds env ctx edit :=
  fun edit member => (succeeds_or_fails env ctx edit).resolve_right fun fails =>
    none ⟨edit, member, fails⟩

end Rousette.Restconf.Server
