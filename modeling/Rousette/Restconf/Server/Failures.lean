import Rousette.Restconf.Server.Raised

/-!
# The exceptions which a payload ends with

Each step of `processPutOrPlainPatch` and of `processYangPatch` may fail, and so may the
report of the failure.  This module lists the steps with what they fail with, and shows
that nothing else leaves the two functions.
-/

namespace Rousette.Restconf.Server

open Library Libyang Program Exception

section Fails

variable {S : Type} [DecidableEq S] (env : Env S) (ctx : RequestContext)

/-- Sysrepo does not take the edit, or does not apply it. -/
def NotApplied (edit : Forest S) (error : Sysrepo.ErrorWithCode) : Prop :=
  env.session.editBatch edit = .error error ∨
    env.session.editBatch edit = .ok () ∧ env.session.applyChanges = .error error

/-- The payload is a data tree without attributes that control edits. -/
structure Received (edit : Forest S) : Prop where
  parsed : env.libyang.parseData ctx.payload ctx.requestFormat = .ok edit
  nonempty : edit ≠ []
  validated : validateInputMetaAttributes env.libyang edit = .ok ()

/-- What a `PUT` or a plain `PATCH` of the datastore fails with. -/
inductive RootFails : Exception → Prop where
  | parse {error : Libyang.ErrorWithCode}
      (refused : env.libyang.parseData ctx.payload ctx.requestFormat = .error error) :
      RootFails (.libyang error)
  | empty (parsed : env.libyang.parseData ctx.payload ctx.requestFormat = .ok []) :
      RootFails (.errorResponse ⟨400, str "protocol", str "malformed-message",
        str "Empty data tree received.", none, none⟩)
  | metas {edit : Forest S} {exception : Exception}
      (parsed : env.libyang.parseData ctx.payload ctx.requestFormat = .ok edit)
      (nonempty : edit ≠ [])
      (rejected : validateInputMetaAttributes env.libyang edit = .error exception) :
      RootFails exception
  | replace {edit : Forest S} {error : Sysrepo.ErrorWithCode} (received : Received env ctx edit)
      (method : ctx.method = str "PUT") (refused : env.session.replaceConfig edit = .error error) :
      RootFails (.sysrepo error)
  | merge {edit : Forest S} {error : Sysrepo.ErrorWithCode} (received : Received env ctx edit)
      (method : ctx.method ≠ str "PUT") (refused : NotApplied env edit error) :
      RootFails (.sysrepo error)

/-- A `PUT` or a plain `PATCH` below the datastore has read its target. -/
structure HasTarget (data : Option (Forest S)) : Prop where
  locked : lockDatastore env ctx = .ok ()
  read : env.session.getData ctx.restconfRequest.path 0 .default = .ok data

/-- What a `PUT` or a plain `PATCH` below the datastore fails with. -/
inductive PutFails : Exception → Prop where
  | refused {error : Sysrepo.ErrorWithCode} (refuses : Refuses env ctx error) :
      PutFails (.sysrepo error)
  | missing (target : HasTarget env ctx none) (method : ctx.method = str "PATCH") :
      PutFails (invalidValue (str "Target resource does not exist") none)
  | create {data : Option (Forest S)} {exception : Exception}
      (target : HasTarget env ctx data)
      (present : (ctx.method != str "PATCH" || data.isSome) = true)
      (raised : Raises (createEdit env ctx) exception) : PutFails exception
  | metas {data : Option (Forest S)} {nodes : EditNodes S} {exception : Exception}
      (target : HasTarget env ctx data)
      (present : (ctx.method != str "PATCH" || data.isSome) = true)
      (created : Returns (createEdit env ctx) nodes)
      (rejected : validateInputMetaAttributes env.libyang nodes.edit = .error exception) :
      PutFails exception
  | operation {data : Option (Forest S)} {nodes : EditNodes S} {exception : Exception}
      (target : HasTarget env ctx data)
      (present : (ctx.method != str "PATCH" || data.isSome) = true)
      (created : Returns (createEdit env ctx) nodes)
      (validated : validateInputMetaAttributes env.libyang nodes.edit = .ok ())
      (rejected : setPutOperation env ctx nodes = .error exception) : PutFails exception

/-- What the loop over the edits of a YANG Patch fails with. -/
inductive LoopFails (patchId : Str) : List PatchEdit → Exception → Prop where
  | editId {edit : PatchEdit} {rest : List PatchEdit} (missing : edit.editId = none) :
      LoopFails patchId (edit :: rest) (leafMissing "edit-id")
  /-- the error of the edit is not reported -/
  | report {edit : PatchEdit} {rest : List PatchEdit} {editId : Str} {exception other : Exception}
      (identified : edit.editId = some editId)
      (failed : editOutcome env ctx edit = .error exception)
      (unreported : reportOutcome env ctx patchId editId exception = .error other) :
      LoopFails patchId (edit :: rest) other
  | later {edit : PatchEdit} {rest : List PatchEdit} {exception : Exception}
      (completes : Completes env ctx patchId [edit]) (fails : LoopFails patchId rest exception) :
      LoopFails patchId (edit :: rest) exception

/-- What processing the edits of a YANG Patch fails with. -/
inductive EditsFail (patchId : Str) (edits : List PatchEdit) : Exception → Prop where
  | loop {exception : Exception} (fails : LoopFails env ctx patchId edits exception) :
      EditsFail patchId edits exception
  | apply {error : Sysrepo.ErrorWithCode} (completes : Completes env ctx patchId edits)
      (nonempty : succeeded env ctx edits ≠ [])
      (refused : NotApplied env (succeeded env ctx edits) error) :
      EditsFail patchId edits (.sysrepo error)

/-- Whether an exception can be reported in the status of the patch. -/
def statusOutcome (patchId : Str) (exception : Exception) : Except Exception Unit :=
  outcome (Server.report env ctx.restconfRequest.path (rejectYangPatch env ctx.toRequest patchId)
    exception)

/-- What a YANG Patch fails with. -/
inductive PatchFails : Exception → Prop where
  | parse {error : Libyang.ErrorWithCode}
      (refused : env.libyang.parsePatch ctx.payload ctx.requestFormat = .error error) :
      PatchFails (.libyang error)
  | empty (parsed : env.libyang.parsePatch ctx.payload ctx.requestFormat = .ok none) :
      PatchFails (invalidValue (str "Empty patch.") none)
  | patchId {patch : Patch}
      (parsed : env.libyang.parsePatch ctx.payload ctx.requestFormat = .ok (some patch))
      (missing : patch.patchId = none) : PatchFails (leafMissing "patch-id")
  /-- the failure is not reported in the status -/
  | report {patch : Patch} {patchId : Str} {exception other : Exception}
      (parsed : env.libyang.parsePatch ctx.payload ctx.requestFormat = .ok (some patch))
      (identified : patch.patchId = some patchId)
      (fails : EditsFail env ctx patchId patch.edits exception)
      (unreported : statusOutcome env ctx patchId exception = .error other) : PatchFails other
  /-- the status for a patch which went well is not built -/
  | status {patch : Patch} {patchId : Str} {exception : Exception}
      (parsed : env.libyang.parsePatch ctx.payload ctx.requestFormat = .ok (some patch))
      (identified : patch.patchId = some patchId)
      (reported : ∀ other, EditsFail env ctx patchId patch.edits other →
        statusOutcome env ctx patchId other = .ok ())
      (unbuilt : patchStatus env patchId = .error exception) : PatchFails exception

/-- What the processing of a payload fails with. -/
inductive PayloadFails (exception : Exception) : Prop where
  | root (kind : processing ctx = .putOrPlainPatch) (path : ctx.restconfRequest.path = str "/")
      (fails : RootFails env ctx exception)
  | put (kind : processing ctx = .putOrPlainPatch) (path : ctx.restconfRequest.path ≠ str "/")
      (fails : PutFails env ctx exception)
  | patch (kind : processing ctx = .yangPatch) (fails : PatchFails env ctx exception)

/-- libyang does not take the report of the error which the payload is rejected with. -/
def Unreported : Prop :=
  ∃ exception error, PayloadFails env ctx exception ∧
    mappedErrorResponse env ctx.restconfRequest.path exception = .ok error ∧
    ¬TakesReport env error

end Fails

/-! ## PUT and plain PATCH -/

section Put

variable {S : Type} [DecidableEq S] {env : Env S} {ctx : RequestContext} {exception : Exception}

omit [DecidableEq S] in
/-- An edit is applied, or sysrepo refuses one of the two calls for it. -/
theorem raises_applyEdit_iff {edit : Forest S} :
    Raises (do editBatch env edit; applyChanges env edit : Handler S Unit) exception ↔
      ∃ error, NotApplied env edit error ∧ exception = .sysrepo error := by
  constructor
  case mp =>
    intro raises
    rcases raises.bind with batching | ⟨_, batched, applying⟩
    · obtain ⟨error, refused, rfl⟩ := raises_editBatch batching
      exact ⟨error, .inl refused, rfl⟩
    · obtain ⟨error, refused, rfl⟩ := raises_applyChanges applying
      exact ⟨error, .inr ⟨returns_editBatch batched, refused⟩, rfl⟩
  case mpr =>
    rintro ⟨error, refused | ⟨batched, refused⟩, rfl⟩
    · refine ⟨World.initial, ?_⟩
      simp only [editBatch, exec_bind, exec_modify, exec_liftM, refused, raiseSysrepo]
    · refine ⟨World.initial, ?_⟩
      simp only [editBatch, applyChanges, exec_bind, exec_modify, exec_liftM, batched, refused,
        raiseSysrepo]

omit [DecidableEq S] in
/-- What follows the two calls raises nothing. -/
theorem raises_applyEdit_bind_iff {edit : Forest S} {rest : Handler S Unit}
    (silent : ¬Raises rest exception) :
    Raises (do editBatch env edit; applyChanges env edit; rest) exception ↔
      ∃ error, NotApplied env edit error ∧ exception = .sysrepo error := by
  rw [← raises_applyEdit_iff, ← bind_assoc]
  constructor
  case mp =>
    intro raises
    rcases raises.bind with applying | ⟨_, _, raises⟩
    · exact applying
    · exact absurd raises silent
  case mpr => exact Raises.of_bind_left

omit [DecidableEq S] in
theorem rootFails_of_raises (raises : Raises (processRoot env ctx) exception) :
    RootFails env ctx exception := by
  unfold processRoot at raises
  rcases raises.bind with parsing | ⟨edit, parsed, raises⟩
  · obtain ⟨error, refused, rfl⟩ := raise_eq_error.mp parsing.liftM
    exact .parse refused
  have parsed := raise_eq_ok.mp parsed.liftM
  rcases raises.bind with empty | ⟨_, nonempty, raises⟩
  · obtain ⟨absent, rfl⟩ := require_eq_error.mp empty.liftM
    obtain rfl : edit = [] := by simpa using absent
    exact .empty parsed
  have nonempty : edit ≠ [] := by simpa using require_eq_ok.mp nonempty.liftM
  rcases raises.bind with validating | ⟨_, validated, raises⟩
  · exact .metas parsed nonempty validating.liftM
  have received : Received env ctx edit := ⟨parsed, nonempty, validated.liftM⟩
  split at raises
  next method =>
    rcases raises.bind with replacing | ⟨_, _, raises⟩
    · rcases replacing.bind with recording | ⟨_, _, replacing⟩
      · exact recording.modify.elim
      rcases replacing.bind with refusing | ⟨_, _, raises⟩
      · obtain ⟨error, refused, rfl⟩ := raiseSysrepo_eq_error refusing.liftM
        exact .replace received method refused
      · exact raises.modify.elim
    · exact absurd raises not_raises_respond
  next method =>
    obtain ⟨error, refused, rfl⟩ := (raises_applyEdit_bind_iff not_raises_respond).mp raises
    exact .merge received method refused

omit [DecidableEq S] in
/-- The branch for the datastore gets to the edit. -/
theorem Received.raises {edit : Forest S} (received : Received env ctx edit)
    (fails : Raises (do
      if ctx.method = str "PUT" then
        replaceConfig env edit
        writeHead 201 [cors]
      else
        editBatch env edit
        applyChanges env edit
        writeHead 204 [cors]
      endWith [] : Handler S Unit) exception) :
    Raises (processRoot env ctx) exception := by
  obtain ⟨parsed, nonempty, validated⟩ := received
  apply Raises.of_bind_liftM (raise_eq_ok.mpr parsed)
  apply Raises.of_bind_liftM
    (show require _ _ = .ok () from require_eq_ok.mpr (by simpa using nonempty))
  exact Raises.of_bind_liftM validated fails

omit [DecidableEq S] in
theorem RootFails.raises (fails : RootFails env ctx exception) :
    Raises (processRoot env ctx) exception := by
  cases fails with
  | parse refused => exact .of_bind_left (.of_liftM (by rw [refused, raise]))
  | empty parsed =>
      apply Raises.of_bind_liftM (raise_eq_ok.mpr parsed)
      exact .of_bind_left (.of_liftM rfl)
  | metas parsed nonempty rejected =>
      apply Raises.of_bind_liftM (raise_eq_ok.mpr parsed)
      apply Raises.of_bind_liftM
        (show require _ _ = .ok () from require_eq_ok.mpr (by simpa using nonempty))
      exact .of_bind_left (.of_liftM rejected)
  | replace received method refused =>
      apply received.raises
      rw [if_pos method]
      apply Raises.of_bind_left
      refine ⟨World.initial, ?_⟩
      simp only [replaceConfig, exec_bind, exec_modify, exec_liftM, refused, raiseSysrepo]
  | merge received method refused =>
      apply received.raises
      rw [if_neg method]
      exact (raises_applyEdit_bind_iff not_raises_respond).mpr ⟨_, refused, rfl⟩

omit [DecidableEq S] in
theorem lockDatastore_eq_error (failed : lockDatastore env ctx = .error exception) :
    ∃ error, exception = .sysrepo error := by
  unfold lockDatastore at failed
  split at failed
  · cases failed
  · obtain ⟨error, _, rfl⟩ := raiseSysrepo_eq_error failed
    exact ⟨error, rfl⟩

theorem putFails_of_raises (path : ctx.restconfRequest.path ≠ str "/")
    (raises : Raises (processPutOrPlainPatch env ctx) exception) : PutFails env ctx exception := by
  unfold processPutOrPlainPatch at raises
  rw [if_neg path] at raises
  rcases raises.bind with locking | ⟨_, locked, raises⟩
  · have failed := locking.liftM
    obtain ⟨error, rfl⟩ := lockDatastore_eq_error failed
    exact .refused (.lock failed)
  have locked : lockDatastore env ctx = .ok () := locked.liftM
  rcases raises.bind with reading | ⟨data, read, raises⟩
  · obtain ⟨error, refused, rfl⟩ := raiseSysrepo_eq_error reading.liftM
    exact .refused (.read locked refused)
  have target : HasTarget env ctx data := ⟨locked, raiseSysrepo_eq_ok.mp read.liftM⟩
  rcases raises.bind with missing | ⟨_, present, raises⟩
  · obtain ⟨absent, rfl⟩ := require_eq_error.mp missing.liftM
    obtain ⟨method, none⟩ := Bool.or_eq_false_iff.mp absent
    obtain rfl := Option.isSome_eq_false_iff.mp none |> Option.isNone_iff_eq_none.mp
    exact .missing target (by simpa using method)
  have present := require_eq_ok.mp present.liftM
  rcases raises.bind with creating | ⟨nodes, created, raises⟩
  · exact .create target present creating
  rcases raises.bind with validating | ⟨_, validated, raises⟩
  · exact .metas target present created validating.liftM
  have validated : validateInputMetaAttributes env.libyang nodes.edit = .ok () :=
    validated.liftM
  rcases raises.bind with setting | ⟨annotated, set, raises⟩
  · exact .operation target present created validated setting.liftM
  have silent : ¬Raises (do
      if ctx.method = str "PUT" then
        writeHead (if data.isSome then 204 else 201) [cors]
      else
        writeHead 204 [cors]
      endWith [] : Handler S Unit) exception := by
    split
    · exact not_raises_respond
    · exact not_raises_respond
  obtain ⟨error, refused, rfl⟩ := (raises_applyEdit_bind_iff silent).mp raises
  exact .refused (.edit target.locked target.read present created validated set.liftM refused)

omit [DecidableEq S] in
/-- A `PUT` or a plain `PATCH` goes on with its target. -/
theorem HasTarget.raises {data : Option (Forest S)} (target : HasTarget env ctx data)
    {goOn : Option (Forest S) → Handler S Unit} (raises : Raises (goOn data) exception) :
    Raises (do
      lockDatastore env ctx
      let data ← raiseSysrepo (env.session.getData ctx.restconfRequest.path 0 .default)
      goOn data : Handler S Unit) exception := by
  apply Raises.of_bind_liftM target.locked
  exact Raises.of_bind_liftM (raiseSysrepo_eq_ok.mpr target.read) raises

/-- What follows the building of an edit does not depend on what was done before. -/
theorem uniform_applyPut (data : Option (Forest S)) (nodes : EditNodes S) :
    Uniform (do
      validateInputMetaAttributes env.libyang nodes.edit
      let nodes ← setPutOperation env ctx nodes
      editBatch env nodes.edit
      applyChanges env nodes.edit
      if ctx.method = str "PUT" then
        writeHead (if data.isSome then 204 else 201) [cors]
      else
        writeHead 204 [cors]
      endWith [] : Handler S Unit) := by
  refine .bind (.liftM _) fun _ => .bind (.liftM _) fun annotated => ?_
  refine .bind (uniform_editBatch _) fun _ => .bind (uniform_applyChanges _) fun _ => ?_
  split
  · exact uniform_respond
  · exact uniform_respond

theorem PutFails.raises (path : ctx.restconfRequest.path ≠ str "/")
    (fails : PutFails env ctx exception) : Raises (processPutOrPlainPatch env ctx) exception := by
  cases fails with
  | refused refuses => exact refuses.raises path
  | missing target method =>
      unfold processPutOrPlainPatch
      rw [if_neg path]
      apply target.raises
      exact .of_bind_left (.of_liftM (by simp [require, method]))
  | create target present raised =>
      unfold processPutOrPlainPatch
      rw [if_neg path]
      apply target.raises
      apply Raises.of_bind_liftM (show require _ _ = .ok () from require_eq_ok.mpr present)
      exact .of_bind_left raised
  | metas target present created rejected =>
      unfold processPutOrPlainPatch
      rw [if_neg path]
      apply target.raises
      apply Raises.of_bind_liftM (show require _ _ = .ok () from require_eq_ok.mpr present)
      refine .of_bind_right created (uniform_applyPut _ _) ?_
      exact .of_bind_left (.of_liftM rejected)
  | operation target present created validated rejected =>
      unfold processPutOrPlainPatch
      rw [if_neg path]
      apply target.raises
      apply Raises.of_bind_liftM (show require _ _ = .ok () from require_eq_ok.mpr present)
      refine .of_bind_right created (uniform_applyPut _ _) ?_
      apply Raises.of_bind_liftM validated
      exact .of_bind_left (.of_liftM rejected)

end Put

/-! ## YANG Patch -/

section Patch

variable {S : Type} [DecidableEq S] {env : Env S} {ctx : RequestContext} {exception : Exception}

omit [DecidableEq S] in
/-- A report ends in the same way in every state. -/
theorem Reports.outcome_of_raises {report : Handler S Unit} (reports : Reports report)
    (raises : Raises report exception) : outcome report = .error exception := by
  obtain ⟨world, raised⟩ := raises
  exact (reports.uniform World.initial world).trans raised

/-- The loop ends with the edits which could be processed exactly if it completes. -/
theorem returns_processYangPatchEdits_of {patchId : Str} {edits : List PatchEdit}
    (completes : Completes env ctx patchId edits) (mergedEdits : Forest S) :
    Returns (processYangPatchEdits env ctx patchId mergedEdits edits)
      (mergedEdits ++ succeeded env ctx edits) := by
  obtain ⟨after, _, ⟨_, run, _⟩ | ⟨stuck, _⟩⟩ :=
    exec_edits env ctx patchId edits mergedEdits World.initial
  · exact ⟨World.initial, by rw [run]⟩
  · exact absurd completes stuck

theorem completes_of_returns_edits {patchId : Str} {edits : List PatchEdit}
    {mergedEdits result : Forest S}
    (returns : Returns (processYangPatchEdits env ctx patchId mergedEdits edits) result) :
    Completes env ctx patchId edits := by
  obtain ⟨world, returned⟩ := returns
  obtain ⟨after, _, ⟨completes, _⟩ | ⟨_, _, run⟩⟩ :=
    exec_edits env ctx patchId edits mergedEdits world
  · exact completes
  · rw [run] at returned
    cases returned

/-- What leaves a turn of the loop is raised by the report of the error of the edit. -/
theorem raises_edit_iff {patchId editId : Str} {edit : PatchEdit} {mergedEdits : Forest S} :
    Raises (withRestconfExceptions env ctx.restconfRequest.path
      (do
        let singleEdit ← processYangPatchEdit env ctx edit
        return mergedEdits ++ singleEdit)
      (rejectYangPatchEdit env ctx.toRequest patchId editId) mergedEdits) exception ↔
      ∃ caught, editOutcome env ctx edit = .error caught ∧
        reportOutcome env ctx patchId editId caught = .error exception := by
  have turns := fun world => exec_edit env ctx patchId editId edit mergedEdits world
  constructor
  case mp =>
    rintro ⟨world, raised⟩
    obtain ⟨_, _, ⟨_, _, turn, _⟩ | ⟨_, _, _, turn, _⟩ | ⟨caught, other, failed, again, turn⟩⟩ :=
      turns world
    · rw [turn] at raised
      cases raised
    · rw [turn] at raised
      cases raised
    · rw [turn] at raised
      cases raised
      exact ⟨caught, failed, again⟩
  case mpr =>
    rintro ⟨caught, failed, unreported⟩
    obtain ⟨_, _, ⟨_, processed, _⟩ | ⟨_, failed', reported, _⟩ | ⟨_, _, failed', again, turn⟩⟩ :=
      turns World.initial
    · rw [failed] at processed
      cases processed
    · rw [failed] at failed'
      cases failed'
      rw [unreported] at reported
      cases reported
    · rw [failed] at failed'
      cases failed'
      rw [unreported] at again
      cases again
      exact ⟨World.initial, by rw [turn]⟩

theorem raises_processYangPatchEdits_iff {patchId : Str} {edits : List PatchEdit}
    {mergedEdits : Forest S} :
    Raises (processYangPatchEdits env ctx patchId mergedEdits edits) exception ↔
      LoopFails env ctx patchId edits exception := by
  constructor
  case mp =>
    intro raises
    induction edits generalizing mergedEdits with
    | nil => exact raises.pure.elim
    | cons edit rest ih =>
        unfold processYangPatchEdits at raises
        rcases raises.bind with missing | ⟨editId, identified, raises⟩
        · have missing := missing.liftM
          cases present : edit.editId with
          | none =>
              rw [present] at missing
              cases missing
              exact .editId present
          | some editId =>
              rw [present] at missing
              cases missing
        have identified := childLeafValue_eq_ok.mp identified.liftM
        rcases raises.bind with turning | ⟨merged, turned, raises⟩
        · obtain ⟨caught, failed, unreported⟩ := raises_edit_iff.mp turning
          exact .report identified failed unreported
        · exact .later (completes_of_returns identified turned) (ih raises)
  case mpr =>
    intro fails
    induction fails generalizing mergedEdits with
    | editId missing =>
        rw [processYangPatchEdits, missing]
        exact .of_bind_left (.of_liftM rfl)
    | report identified failed unreported =>
        rw [processYangPatchEdits]
        apply Raises.of_bind_liftM (childLeafValue_eq_ok.mpr identified)
        exact .of_bind_left (raises_edit_iff.mpr ⟨_, failed, unreported⟩)
    | @later edit rest exception completes fails ih =>
        have single := returns_processYangPatchEdits_of completes mergedEdits
        rw [processYangPatchEdits] at single ⊢
        obtain ⟨editId, identified, single⟩ := single.bind
        obtain ⟨merged, turned, _⟩ := single.bind
        apply Raises.of_bind_liftM identified.liftM
        exact .of_bind_right turned (uniform_processYangPatchEdits _ _ _) ih

theorem raises_processYangPatchImpl_iff {patch : Patch} {patchId : Str} :
    Raises (processYangPatchImpl env ctx patch patchId) exception ↔
      EditsFail env ctx patchId patch.edits exception := by
  constructor
  case mp =>
    intro raises
    rcases raises.bind with looping | ⟨mergedEdits, looped, raises⟩
    · exact .loop (raises_processYangPatchEdits_iff.mp looping)
    have merged := returns_processYangPatchEdits env ctx looped
    rw [List.nil_append] at merged
    subst merged
    split at raises
    next nonempty =>
      obtain ⟨error, refused, rfl⟩ := raises_applyEdit_iff.mp raises
      exact .apply (completes_of_returns_edits looped) (by simpa using nonempty) refused
    next => exact raises.pure.elim
  case mpr =>
    intro fails
    cases fails with
    | loop fails => exact .of_bind_left (raises_processYangPatchEdits_iff.mpr fails)
    | apply completes nonempty refused =>
        refine .of_bind_right (returns_processYangPatchEdits_of completes []) ?_ ?_
        · split
          · exact .bind (uniform_editBatch _) fun _ => uniform_applyChanges _
          · exact .pure ()
        · rw [List.nil_append, if_pos (by simpa using nonempty)]
          exact raises_applyEdit_iff.mpr ⟨_, refused, rfl⟩

/-- What leaves the wrapper around the edits is raised by the report of what they fail with. -/
theorem raises_wrappedImpl_iff {patch : Patch} {patchId : Str} :
    Raises (withRestconfExceptions env ctx.restconfRequest.path
      (processYangPatchImpl env ctx patch patchId) (rejectYangPatch env ctx.toRequest patchId) ())
      exception ↔
      ∃ caught, EditsFail env ctx patchId patch.edits caught ∧
        statusOutcome env ctx patchId caught = .error exception := by
  have reports : ∀ caught, Reports (report env ctx.restconfRequest.path
      (rejectYangPatch env ctx.toRequest patchId) caught) :=
    reports_report (reports_rejectYangPatch patchId)
  constructor
  case mp =>
    intro raises
    obtain ⟨caught, raised, raises⟩ := raises.tryCatch
    refine ⟨caught, raises_processYangPatchImpl_iff.mp raised, ?_⟩
    rcases raises.bind with reporting | ⟨_, _, raises⟩
    · exact (reports caught).outcome_of_raises reporting
    · exact raises.pure.elim
  case mpr =>
    rintro ⟨caught, fails, unreported⟩
    refine .of_tryCatch (raises_processYangPatchImpl_iff.mpr fails) ?_ ?_
    · exact .bind (reports caught).uniform fun _ => .pure ()
    · exact .of_bind_left ⟨World.initial, unreported⟩

/-- The edits have failed with nothing which is not reported. -/
theorem returns_wrappedImpl_iff {patch : Patch} {patchId : Str} :
    Returns (withRestconfExceptions env ctx.restconfRequest.path
      (processYangPatchImpl env ctx patch patchId) (rejectYangPatch env ctx.toRequest patchId) ())
      () ↔
      ∀ caught, EditsFail env ctx patchId patch.edits caught →
        statusOutcome env ctx patchId caught = .ok () := by
  have uniform : Uniform (withRestconfExceptions env ctx.restconfRequest.path
      (processYangPatchImpl env ctx patch patchId) (rejectYangPatch env ctx.toRequest patchId)
      ()) :=
    uniform_withRestconfExceptions (uniform_processYangPatchImpl patch patchId)
      (reports_rejectYangPatch patchId)
  constructor
  case mp =>
    rintro ⟨world, returned⟩ caught fails
    cases reported : statusOutcome env ctx patchId caught with
    | ok done => rfl
    | error other =>
        obtain ⟨world', raised⟩ := raises_wrappedImpl_iff.mpr ⟨caught, fails, reported⟩
        rw [uniform world' world, returned] at raised
        cases raised
  case mpr =>
    intro reported
    refine ⟨World.initial, ?_⟩
    cases run : (exec (withRestconfExceptions env ctx.restconfRequest.path
      (processYangPatchImpl env ctx patch patchId) (rejectYangPatch env ctx.toRequest patchId) ())
      World.initial).1 with
    | ok done => rfl
    | error exception =>
        obtain ⟨caught, fails, unreported⟩ := raises_wrappedImpl_iff.mp ⟨World.initial, run⟩
        rw [reported caught fails] at unreported
        cases unreported

omit [DecidableEq S] in
theorem uniform_reportPatchOk (patchId : Str) : Uniform (reportPatchOk env ctx patchId) := by
  refine .bind (.liftM _) fun _ => .bind (.modify _) fun _ => ?_
  exact .bind (.liftM _) fun _ => .bind (.liftM _) fun _ => .modify _

omit [DecidableEq S] in
/-- The status of a patch which went well is delivered if it is built. -/
theorem raises_reportPatchOk_iff (documents : Documents env) {patchId : Str} :
    Raises (reportPatchOk env ctx patchId) exception ↔
      patchStatus env patchId = .error exception := by
  constructor
  case mp =>
    intro raises
    rcases raises.bind with building | ⟨document, built, raises⟩
    · exact building.liftM
    rcases raises.bind with writing | ⟨_, _, raises⟩
    · exact writing.modify.elim
    obtain ⟨text, known⟩ :=
      documents.prints document ctx.responseFormat (ne_nil_of_patchStatus built.liftM)
    rw [known, raise] at raises
    rcases raises.bind with printing | ⟨printed, prints, raises⟩
    · cases printing.liftM
    cases prints.liftM
    rcases raises.bind with unwrapping | ⟨body, _, raises⟩
    · cases unwrapping.liftM
    · exact raises.modify.elim
  case mpr =>
    intro unbuilt
    exact .of_bind_left (.of_liftM unbuilt)

theorem raises_processYangPatch_iff (documents : Documents env) :
    Raises (processYangPatch env ctx) exception ↔ PatchFails env ctx exception := by
  constructor
  case mp =>
    intro raises
    rcases raises.bind with parsing | ⟨found, parsed, raises⟩
    · obtain ⟨error, refused, rfl⟩ := raise_eq_error.mp parsing.liftM
      exact .parse refused
    have parsed := raise_eq_ok.mp parsed.liftM
    cases found with
    | none =>
        rw [raises.throw]
        exact .empty parsed
    | some patch =>
        rcases raises.bind with missing | ⟨patchId, identified, raises⟩
        · have missing := missing.liftM
          cases present : patch.patchId with
          | none =>
              rw [present] at missing
              cases missing
              exact .patchId parsed present
          | some patchId =>
              rw [present] at missing
              cases missing
        have identified := childLeafValue_eq_ok.mp identified.liftM
        rcases raises.bind with processing | ⟨_, processed, raises⟩
        · obtain ⟨caught, fails, unreported⟩ := raises_wrappedImpl_iff.mp processing
          exact .report parsed identified fails unreported
        · exact .status parsed identified (returns_wrappedImpl_iff.mp processed)
            ((raises_reportPatchOk_iff documents).mp raises)
  case mpr =>
    intro fails
    unfold processYangPatch
    cases fails with
    | parse refused => exact .of_bind_left (.of_liftM (by rw [refused, raise]))
    | empty parsed =>
        apply Raises.of_bind_liftM (raise_eq_ok.mpr parsed)
        exact ⟨World.initial, rfl⟩
    | patchId parsed missing =>
        apply Raises.of_bind_liftM (raise_eq_ok.mpr parsed)
        exact .of_bind_left (.of_liftM (by rw [missing, childLeafValue]))
    | report parsed identified fails unreported =>
        apply Raises.of_bind_liftM (raise_eq_ok.mpr parsed)
        apply Raises.of_bind_liftM (childLeafValue_eq_ok.mpr identified)
        exact .of_bind_left (raises_wrappedImpl_iff.mpr ⟨_, fails, unreported⟩)
    | status parsed identified reported unbuilt =>
        apply Raises.of_bind_liftM (raise_eq_ok.mpr parsed)
        apply Raises.of_bind_liftM (childLeafValue_eq_ok.mpr identified)
        refine .of_bind_right (returns_wrappedImpl_iff.mpr reported) (uniform_reportPatchOk _) ?_
        exact (raises_reportPatchOk_iff documents).mpr unbuilt

/-- What leaves the processing of a payload is what one of its steps fails with. -/
theorem raises_processPayload_iff (documents : Documents env) (kind : processing ctx ≠ .post) :
    Raises (processPayload env ctx) exception ↔ PayloadFails env ctx exception := by
  unfold processPayload
  cases processing : processing ctx with
  | post => exact absurd processing kind
  | yangPatch =>
      rw [raises_processYangPatch_iff documents]
      constructor
      case mp => exact .patch processing
      case mpr =>
        intro fails
        cases fails with
        | root other => simp [processing] at other
        | put other => simp [processing] at other
        | patch _ fails => exact fails
  | putOrPlainPatch =>
      constructor
      case mp =>
        intro raises
        by_cases path : ctx.restconfRequest.path = str "/"
        · refine .root processing path (rootFails_of_raises ?_)
          rwa [processPutOrPlainPatch, if_pos path] at raises
        · exact .put processing path (putFails_of_raises path raises)
      case mpr =>
        intro fails
        cases fails with
        | root _ path fails =>
            rw [processPutOrPlainPatch, if_pos path]
            exact fails.raises
        | put _ path fails => exact fails.raises path
        | patch other => simp [processing] at other

end Patch

/-! ## What the failures are -/

section Kinds

variable {S : Type} [DecidableEq S] {env : Env S} {ctx : RequestContext} {exception : Exception}

omit [DecidableEq S] in
theorem RootFails.isMapped (fails : RootFails env ctx exception) : exception.IsMapped := by
  cases fails with
  | metas parsed nonempty rejected =>
      exact (throws_validateInputMetaAttributes nonempty exception rejected).isMapped
  | parse | empty | replace | merge => trivial

theorem ne_nil_of_created {nodes : EditNodes S} (created : Returns (createEdit env ctx) nodes) :
    nodes.edit ≠ [] := by
  obtain ⟨_, returned⟩ := created
  exact edit_ne_nil_of_createEdit returned

/-- What a `PUT` or a plain `PATCH` fails with: something which is mapped and, if sysrepo raised
it, a refusal of one of the calls; or it gets to a key value which cannot be escaped. -/
theorem PutFails.mapped_or_breaks (path : ctx.restconfRequest.path ≠ str "/")
    (points : hasInsertParamBeforeOrAfter ctx.restconfRequest.queryParams = true →
      ∃ point, ctx.restconfRequest.queryParams.find "point" = some (.pointParsed point))
    (fails : PutFails env ctx exception) :
    (exception.IsMapped ∧ ∀ error, exception = .sysrepo error → Refuses env ctx error) ∨
      ¬exception.IsMapped ∧ PutBreaks env ctx := by
  have own : exception.IsLocal →
      exception.IsMapped ∧ ∀ error, exception = .sysrepo error → Refuses env ctx error := by
    intro raised
    refine ⟨raised.isMapped, ?_⟩
    rintro error rfl
    exact raised.elim
  cases fails with
  | refused refuses =>
      refine .inl ⟨trivial, ?_⟩
      rintro _ ⟨⟩
      exact refuses
  | missing => exact .inl (own trivial)
  | create target present raised =>
      by_cases mapped : exception.IsLocal
      · exact .inl (own mapped)
      · obtain ⟨unmapped, unbuildable⟩ := unbuildable_of_raises raised mapped
        exact .inr ⟨unmapped, path, target.locked, ⟨_, target.read, present⟩, unbuildable⟩
  | metas target present created rejected =>
      have nonempty := ne_nil_of_created created
      exact .inl (own (throws_validateInputMetaAttributes nonempty exception rejected).isLocal)
  | operation target present created validated rejected =>
      have located := (created_of_returns created).located
      exact .inl (own (throws_setPutOperation points located exception rejected))

/-- A key value which cannot be escaped makes a `PUT` or a plain `PATCH` fail with something
which is not mapped. -/
theorem PutBreaks.fails (breaks : PutBreaks env ctx) :
    ∃ exception, PutFails env ctx exception ∧ ¬exception.IsMapped := by
  obtain ⟨_, locked, ⟨data, read, present⟩, unbuildable⟩ := breaks
  obtain ⟨exception, raised, unmapped⟩ := raises_of_unbuildable unbuildable
  exact ⟨exception, .create ⟨locked, read⟩ present raised, unmapped⟩

omit [DecidableEq S] in
/-- A report of something which is not mapped ends with it. -/
theorem outcome_report_of_unmapped {path : Str} {reject : ErrorResponse → Handler S Unit}
    (unmapped : ¬exception.IsMapped) :
    outcome (report env path reject exception) = .error exception := by
  simp only [outcome, report, exec_bind, exec_liftM, mappedErrorResponse_of_unmapped unmapped]

/-- What the loop fails with: something which the server itself or libyang raises, or it gets to
an edit with a key value which cannot be escaped. -/
theorem LoopFails.local_or_breaks (documents : Documents env) {patchId : Str}
    {edits : List PatchEdit} (printed : ∀ edit ∈ edits, edit.value ≠ .data (.ok none))
    (fails : LoopFails env ctx patchId edits exception) :
    exception.IsLocal ∨ ¬exception.IsMapped ∧ LoopBreaks env ctx patchId edits := by
  induction fails with
  | editId missing => exact .inl trivial
  | @report edit rest editId caught other identified failed unreported =>
      have here := (List.forall_mem_cons.mp printed).1
      rcases raises_report (fun _ _ => raises_rejectInStatus documents (.edit _))
        ⟨World.initial, unreported⟩ with own | ⟨rfl, unmapped⟩
      · exact .inl own
      rcases raises_processYangPatchEdit here ⟨World.initial, failed⟩ with own | ⟨_, breaks⟩
      · exact absurd own.isMapped unmapped
      · exact .inr ⟨unmapped, [], edit, rest, editId, rfl, List.forall_mem_nil _, identified,
          breaks⟩
  | @later edit rest _ completes fails ih =>
      rcases ih (List.forall_mem_cons.mp printed).2 with
        own | ⟨unmapped, before, other, after, id, rfl, completed, rest⟩
      · exact .inl own
      · refine .inr ⟨unmapped, edit :: before, other, after, id, rfl, ?_, rest⟩
        exact List.forall_mem_cons.mpr ⟨completes edit List.mem_cons_self, completed⟩

theorem LoopBreaks.fails {patchId : Str} {edits : List PatchEdit}
    (breaks : LoopBreaks env ctx patchId edits) :
    ∃ exception, LoopFails env ctx patchId edits exception ∧ ¬exception.IsMapped := by
  obtain ⟨before, edit, after, editId, rfl, completes, identified, breaks⟩ := breaks
  obtain ⟨exception, ⟨world, raised⟩, unmapped⟩ := breaks.raises
  refine ⟨exception, ?_, unmapped⟩
  induction before with
  | nil =>
      have uniform := (builds_processYangPatchEdit env ctx edit).uniform World.initial world
      exact .report identified (uniform.trans raised) (outcome_report_of_unmapped unmapped)
  | cons first rest ih =>
      obtain ⟨completesFirst, completesRest⟩ := List.forall_mem_cons.mp completes
      refine .later ?_ (ih completesRest)
      exact List.forall_mem_cons.mpr ⟨completesFirst, List.forall_mem_nil _⟩

omit [DecidableEq S] in
theorem throws_patchStatus (patchId : Str) : Throws IsLibyang (patchStatus env patchId) := by
  apply Throws.bind (throws_extend _ _)
  intro _ _
  apply Throws.bind (throws_extend _ _)
  intro _ _
  exact throws_extend _ _

/-- What a YANG Patch fails with: something which the server itself or libyang raises, or it gets
to a key value which cannot be escaped. -/
theorem PatchFails.local_or_breaks (documents : Documents env)
    (fails : PatchFails env ctx exception) :
    exception.IsLocal ∨ ¬exception.IsMapped ∧ PatchBreaks env ctx := by
  cases fails with
  | parse | empty | patchId => exact .inl trivial
  | status parsed identified reported unbuilt =>
      exact .inl (throws_patchStatus _ exception unbuilt).isLocal
  | @report patch patchId caught _ parsed identified fails unreported =>
      rcases raises_report (fun _ _ => raises_rejectInStatus documents .patch)
        ⟨World.initial, unreported⟩ with own | ⟨rfl, unmapped⟩
      · exact .inl own
      cases fails with
      | apply => exact absurd trivial unmapped
      | loop fails =>
          rcases fails.local_or_breaks documents (documents.values parsed) with own | ⟨_, breaks⟩
          · exact .inl own
          · exact .inr ⟨unmapped, patch, patchId, parsed, identified, breaks⟩

theorem PatchBreaks.fails (breaks : PatchBreaks env ctx) :
    ∃ exception, PatchFails env ctx exception ∧ ¬exception.IsMapped := by
  obtain ⟨patch, patchId, parsed, identified, breaks⟩ := breaks
  obtain ⟨exception, fails, unmapped⟩ := breaks.fails
  refine ⟨exception, ?_, unmapped⟩
  exact .report parsed identified (.loop fails) (outcome_report_of_unmapped unmapped)

end Kinds

end Rousette.Restconf.Server
