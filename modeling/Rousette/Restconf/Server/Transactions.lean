import Rousette.Restconf.Server.Exchanges

/-!
# What requests write

Every request which writes hands over a single edit and applies it, or applies nothing.  Only
once an edit was applied is a good status written, and after that nothing can fail any more; a
YANG Patch, which builds its response afterwards, is left out of this.
-/

namespace Rousette.Restconf.Server

open Library Libyang Program

section States

variable {S : Type}

/-- Nothing was handed over or applied. -/
structure Idle (world : World S) : Prop where
  handed : world.handed = []
  applied : world.applied = []

/-- An edit was handed over. -/
structure Tried (edit : Forest S) (world : World S) : Prop where
  handed : world.handed = [edit]
  applied : world.applied = []

/-- An edit was applied. -/
structure Applied (edit : Forest S) (world : World S) : Prop where
  handed : world.handed = [edit]
  applied : world.applied = [edit]

/-- Nothing was applied, though an edit may have been handed over. -/
structure Unapplied (world : World S) : Prop where
  handed : world.handed.length ≤ 1
  applied : world.applied = []

/-- There is no response yet. -/
def NoHead (world : World S) : Prop := world.head = none

/-- Nothing was written at all. -/
def Fresh (world : World S) : Prop := Idle world ∧ NoHead world

/-- Nothing was applied, and there is no response yet. -/
def Unwritten (world : World S) : Prop := Unapplied world ∧ NoHead world

/-- An edit was applied, and the response says so. -/
structure Written (world : World S) : Prop where
  edit : ∃ edit, Applied edit world
  head : ∃ code headers, world.head = some (code, headers) ∧ (code = 201 ∨ code = 204)

/-- Nothing was applied, and the response is an error if there is one. -/
structure Declined (world : World S) : Prop extends Unapplied world where
  head : ∀ code headers, world.head = some (code, headers) → 400 ≤ code

/-- At most one edit was handed over, and at most this one was applied. -/
structure AtMostOnce (world : World S) : Prop where
  handed : world.handed.length ≤ 1
  applied : world.applied <+: world.handed

theorem fresh_initial : Fresh (World.initial : World S) := ⟨⟨rfl, rfl⟩, rfl⟩

theorem Idle.unapplied {world : World S} (idle : Idle world) : Unapplied world :=
  ⟨by simp [idle.handed], idle.applied⟩

theorem Tried.unapplied {edit : Forest S} {world : World S} (tried : Tried edit world) :
    Unapplied world :=
  ⟨by simp [tried.handed], tried.applied⟩

theorem Unapplied.atMostOnce {world : World S} (unapplied : Unapplied world) :
    AtMostOnce world :=
  ⟨unapplied.handed, by simp [unapplied.applied]⟩

theorem Applied.atMostOnce {edit : Forest S} {world : World S} (applied : Applied edit world) :
    AtMostOnce world := by
  have same : world.handed = world.applied := applied.handed.trans applied.applied.symm
  constructor
  · simp [applied.handed]
  · exact same ▸ List.prefix_rfl

theorem Idle.rejects {before after : World S} (idle : Idle before)
    (rejects : Rejects before after) : Idle after :=
  ⟨rejects.handed.trans idle.handed, rejects.applied.trans idle.applied⟩

theorem AtMostOnce.rejects {before after : World S} (once : AtMostOnce before)
    (rejects : Rejects before after) : AtMostOnce after := by
  constructor
  · rw [rejects.handed]
    exact once.handed
  · rw [rejects.handed, rejects.applied]
    exact once.applied

theorem Fresh.unwritten {world : World S} (fresh : Fresh world) : Unwritten world :=
  ⟨fresh.1.unapplied, fresh.2⟩

/-- What was not written is declined by a report, if there is one. -/
theorem Unwritten.declined {before after : World S} (unwritten : Unwritten before)
    (rejects : Rejects before after) : Declined after where
  handed := rejects.handed ▸ unwritten.1.handed
  applied := rejects.applied.trans unwritten.1.applied
  head := rejects.error unwritten.2

end States

/-- The same edits were handed over and applied before and after. -/
structure SameEdits {S : Type} (before after : World S) : Prop where
  handed : after.handed = before.handed
  applied : after.applied = before.applied

namespace SameEdits

variable {S : Type}

theorem refl (world : World S) : SameEdits world world := ⟨rfl, rfl⟩

theorem trans {first second third : World S} (before : SameEdits first second)
    (after : SameEdits second third) : SameEdits first third :=
  ⟨after.handed.trans before.handed, after.applied.trans before.applied⟩

theorem idle {before after : World S} (same : SameEdits before after) (idle : Idle before) :
    Idle after :=
  ⟨same.handed.trans idle.handed, same.applied.trans idle.applied⟩

end SameEdits

theorem Rejects.sameEdits {S : Type} {before after : World S} (rejects : Rejects before after) :
    SameEdits before after :=
  ⟨rejects.handed, rejects.applied⟩

theorem sameEdits_writeHead {S : Type} (code : Nat) (headers : List (Str × Str)) :
    Keeps SameEdits (writeHead code headers : Handler S Unit) :=
  fun _ => ⟨rfl, rfl⟩

theorem sameEdits_endWith {S : Type} (body : Str) :
    Keeps SameEdits (endWith body : Handler S Unit) :=
  fun _ => ⟨rfl, rfl⟩

/-- A response changes no edits, also if its body cannot be made. -/
theorem sameEdits_writing {S : Type} (code : Nat) (headers : List (Str × Str))
    (body : Except Exception Str) :
    Keeps SameEdits
      (do writeHead code headers; let text ← body; endWith text : Handler S Unit) := by
  refine .bind .trans (sameEdits_writeHead _ _) fun _ => ?_
  exact .bind .trans (.liftM .refl _) fun _ => sameEdits_endWith _

/-! ## Writing an edit -/

section Edits

variable {S : Type} (env : Env S)

/-- The edit is recorded. -/
theorem triple_handing (edit : Forest S) :
    Triple Idle
      (modify fun world => { world with handed := world.handed ++ [edit] } : Handler S Unit)
      (fun _ => Tried edit) fun _ => Unapplied := by
  refine .modify fun world idle => ⟨?_, idle.applied⟩
  change world.handed ++ [edit] = [edit]
  rw [idle.handed, List.nil_append]

theorem triple_applying (edit : Forest S) :
    Triple (Tried edit)
      (modify fun world => { world with applied := world.applied ++ [edit] } : Handler S Unit)
      (fun _ => Applied edit) fun _ => Unapplied := by
  refine .modify fun world tried => ⟨tried.handed, ?_⟩
  change world.applied ++ [edit] = [edit]
  rw [tried.applied, List.nil_append]

theorem triple_editBatch (edit : Forest S) :
    Triple Idle (editBatch env edit) (fun _ => Tried edit) fun _ => Unapplied := by
  refine .bind (triple_handing edit) fun _ => .liftM ?_ ?_
  · exact fun _ _ _ tried => tried
  · exact fun _ _ _ tried => tried.unapplied

theorem triple_applyChanges (edit : Forest S) :
    Triple (Tried edit) (applyChanges env edit) (fun _ => Applied edit) fun _ => Unapplied :=
  .bind_liftM (fun _ _ tried => tried.unapplied) fun _ => triple_applying edit

theorem triple_replaceConfig (edit : Forest S) :
    Triple Idle (replaceConfig env edit) (fun _ => Applied edit) fun _ => Unapplied := by
  refine .bind (triple_handing edit) fun _ => ?_
  exact .bind_liftM (fun _ _ tried => tried.unapplied) fun _ => triple_applying edit

/-- There is no response before and after it. -/
abbrev KeepsNoHead {α : Type} (program : Handler S α) : Prop :=
  Keeps (fun before after => NoHead before → NoHead after) program

theorem keepsNoHead_editBatch (edit : Forest S) : KeepsNoHead (editBatch env edit) :=
  .bind_property (fun _ => id) fun _ _ => id

theorem keepsNoHead_applyChanges (edit : Forest S) : KeepsNoHead (applyChanges env edit) :=
  .bind_property (fun _ => id) fun _ _ => id

theorem keepsNoHead_replaceConfig (edit : Forest S) : KeepsNoHead (replaceConfig env edit) :=
  .bind_property (fun _ => id) fun _ => .bind_property (fun _ => id) fun _ _ => id

/-- The response to a request whose edit was applied. -/
theorem triple_respond (edit : Forest S) {code : Nat} (good : code = 201 ∨ code = 204)
    (headers : List (Str × Str)) (body : Str) :
    Triple (fun world => Applied edit world ∧ NoHead world)
      (do writeHead code headers; endWith body : Handler S Unit)
      (fun _ => Written) fun _ => Unwritten := by
  have ending : Triple Written (endWith body : Handler S Unit) (fun _ => Written)
      fun _ => Unwritten := by
    refine .modify fun world written => ⟨?_, written.head⟩
    obtain ⟨edit, applied⟩ := written.edit
    exact ⟨edit, applied.handed, applied.applied⟩
  refine .bind (.modify ?_) fun _ => ending
  rintro world ⟨applied, noHead⟩
  refine ⟨⟨edit, applied.handed, applied.applied⟩, ⟨code, headers, ?_, good⟩⟩
  change world.head.or (some (code, headers)) = some (code, headers)
  rw [noHead, Option.none_or]

/-- A program which writes an edit and responds, or writes nothing. -/
abbrev Transacts (program : Handler S Unit) : Prop :=
  Triple Fresh program (fun _ => Written) (fun _ => Unwritten)

theorem transacts_throw (exception : Exception) : Transacts (throw exception : Handler S Unit) :=
  .throw fun _ fresh => fresh.unwritten

/-- Nothing is written before the edit. -/
theorem transacts_bind_builds {α : Type} {first : Handler S α} {second : α → Handler S Unit}
    (builds : Builds first) (transacts : ∀ value, Transacts (second value)) :
    Transacts (first >>= second) := by
  have keeps : Triple Fresh first (fun _ => Fresh) fun _ => Fresh := by
    refine .of_keeps builds.checks ?_
    rintro world _ fresh ⟨checks, rfl⟩
    exact ⟨⟨fresh.1.handed, fresh.1.applied⟩, fresh.2⟩
  refine .bind (keeps.mono (fun _ => id) (fun _ _ => id) fun _ _ fresh => ?_) transacts
  exact fresh.unwritten

theorem transacts_bind_liftM {α : Type} {result : Except Exception α}
    {second : α → Handler S Unit} (transacts : ∀ value, Transacts (second value)) :
    Transacts (liftM result >>= second) :=
  .bind_liftM (fun _ _ fresh => fresh.unwritten) transacts

/-- An edit is handed over and applied before the response. -/
theorem transacts_editBatch {edit : Forest S} {rest : Handler S Unit}
    (responds : Triple (fun world => Applied edit world ∧ NoHead world) rest (fun _ => Written)
      fun _ => Unwritten) :
    Transacts (do editBatch env edit; applyChanges env edit; rest) := by
  refine .bind ((triple_editBatch env edit).frame (keepsNoHead_editBatch env edit)) fun _ => ?_
  refine .bind ((triple_applyChanges env edit).frame ?_) fun _ => responds
  exact keepsNoHead_applyChanges env edit

theorem transacts_replaceConfig {edit : Forest S} {rest : Handler S Unit}
    (responds : Triple (fun world => Applied edit world ∧ NoHead world) rest (fun _ => Written)
      fun _ => Unwritten) :
    Transacts (do replaceConfig env edit; rest) := by
  refine .bind ((triple_replaceConfig env edit).frame ?_) fun _ => responds
  exact keepsNoHead_replaceConfig env edit

end Edits

/-! ## The requests -/

section Requests

variable {S : Type} [DecidableEq S] (env : Env S) (ctx : RequestContext)

theorem transacts_processPost : Transacts (processPost env ctx) := by
  refine transacts_bind_liftM fun created => transacts_bind_liftM fun _ => ?_
  obtain ⟨edit, position, indices⟩ := created
  unfold createChild
  split
  · refine transacts_bind_liftM fun nodes => transacts_bind_liftM fun nodes => ?_
    exact transacts_editBatch env (triple_respond nodes.edit (.inl rfl) _ _)
  · exact transacts_throw _

omit [DecidableEq S] in
theorem transacts_processRoot : Transacts (processRoot env ctx) := by
  refine transacts_bind_liftM fun edit => transacts_bind_liftM fun _ => ?_
  refine transacts_bind_liftM fun _ => ?_
  split
  · exact transacts_replaceConfig env (triple_respond edit (.inl rfl) _ _)
  · exact transacts_editBatch env (triple_respond edit (.inr rfl) _ _)

theorem transacts_processPutOrPlainPatch : Transacts (processPutOrPlainPatch env ctx) := by
  unfold processPutOrPlainPatch
  split
  · exact transacts_processRoot env ctx
  refine transacts_bind_liftM fun _ => transacts_bind_liftM fun data => ?_
  refine transacts_bind_liftM fun _ => ?_
  refine transacts_bind_builds (builds_createEditForPutAndPatch _ _ _ _) fun nodes => ?_
  refine transacts_bind_liftM fun _ => transacts_bind_liftM fun nodes => ?_
  refine transacts_editBatch env ?_
  have good : (if data.isSome then 204 else 201) = 201 ∨
      (if data.isSome then 204 else 201) = 204 := by
    cases data.isSome
    · exact .inl rfl
    · exact .inr rfl
  split
  · exact triple_respond nodes.edit good _ _
  · exact triple_respond nodes.edit (.inr rfl) _ _

omit [DecidableEq S] in
/-- The edit of a `DELETE` is applied, or nothing. -/
theorem transacts_deleteNode (request : RestconfRequest) : Transacts (deleteNode env request) := by
  refine transacts_bind_liftM fun _ => ?_
  have applies : Triple Fresh
      (do
        let nodes ← createEditForDelete env request
        editBatch env nodes.edit
        applyChanges env nodes.edit : Handler S Unit)
      (fun _ world => ∃ edit, Applied edit world ∧ NoHead world) fun _ => Unwritten := by
    refine .bind_liftM (fun _ _ fresh => fresh.unwritten) fun nodes => ?_
    refine .bind ((triple_editBatch env nodes.edit).frame ?_) fun _ => ?_
    · exact keepsNoHead_editBatch env nodes.edit
    refine ((triple_applyChanges env nodes.edit).frame ?_).mono (fun _ => id)
      (fun _ _ applied => ⟨nodes.edit, applied⟩) fun _ _ => id
    exact keepsNoHead_applyChanges env nodes.edit
  have rethrown : ∀ exception, Triple Unwritten
      (throw (deleteException request.path exception) : Handler S Unit)
      (fun _ world => ∃ edit, Applied edit world ∧ NoHead world) fun _ => Unwritten :=
    fun exception => .throw fun _ => id
  refine .bind (.tryCatch applies rethrown) fun _ => .of_exists fun edit => ?_
  exact triple_respond edit (.inr rfl) _ _

/-- What a request has come to. -/
def Concluded (world : World S) : Prop := Written world ∨ Declined world

omit [DecidableEq S] in
/-- After the exceptions were reported the edit was applied, or nothing. -/
theorem triple_reportExceptions {program : Handler S Unit} (transacts : Transacts program) :
    Triple Fresh (reportExceptions env ctx program) (fun _ => Concluded) fun _ => Concluded := by
  have written : Triple Fresh program (fun _ => Concluded) fun _ => Unwritten :=
    transacts.mono (fun _ => id) (fun _ _ => .inl) fun _ _ => id
  refine .tryCatch written fun exception => ?_
  have reporting : Triple Unwritten
      (report env ctx.restconfRequest.path (rejectWithError env ctx.toRequest) exception)
      (fun _ => Concluded) fun _ => Concluded := by
    have reports : Reports (report env ctx.restconfRequest.path
        (rejectWithError env ctx.toRequest) exception) :=
      reports_report reports_rejectWithError exception
    exact .of_keeps reports.rejects fun unwritten rejects => .inr (unwritten.declined rejects)
  exact .bind reporting fun _ => .pure fun _ => id

/-! ## YANG Patch -/

/-- At most one edit is handed over, and applied. -/
abbrev OnceFrom {α : Type} (before : World S → Prop) (program : Handler S α) : Prop :=
  Triple before program (fun _ => AtMostOnce) fun _ => AtMostOnce

omit [DecidableEq S] in
/-- The response does not matter. -/
theorem once_of_rejects {α : Type} {program : Handler S α} (keeps : Keeps Rejects program) :
    OnceFrom AtMostOnce program :=
  .of_keeps keeps fun once rejects => once.rejects rejects

omit [DecidableEq S] in
theorem once_withRestconfExceptions {path : Str} {func : Handler S Unit}
    {reject : ErrorResponse → Handler S Unit} {before : World S → Prop}
    (once : OnceFrom before func) (reports : ∀ error, Reports (reject error)) :
    OnceFrom before (withRestconfExceptions env path func reject ()) := by
  refine .tryCatch once fun exception => ?_
  have reporting : Reports (report env path reject exception) := reports_report reports exception
  exact .bind (once_of_rejects reporting.rejects) fun _ => .pure fun _ => id

theorem once_processYangPatchImpl (patch : Patch) (patchId : Str) :
    OnceFrom Idle (processYangPatchImpl env ctx patch patchId) := by
  have keeps : Keeps Rejects (processYangPatchEdits env ctx patchId [] patch.edits) := by
    intro world
    obtain ⟨after, rejects, ⟨_, run, _⟩ | ⟨_, _, run⟩⟩ :=
      exec_edits env ctx patchId patch.edits [] world
    · rw [run]
      exact rejects
    · rw [run]
      exact rejects
  have idle : Triple Idle (processYangPatchEdits env ctx patchId [] patch.edits) (fun _ => Idle)
      fun _ => Idle :=
    .of_keeps keeps fun idle rejects => idle.rejects rejects
  refine .bind (idle.mono (fun _ => id) (fun _ _ => id) ?_) fun mergedEdits => ?_
  · exact fun _ _ idle => idle.unapplied.atMostOnce
  split
  · have unapplied : ∀ (_ : Exception) (world : World S), Unapplied world → AtMostOnce world :=
      fun _ _ unapplied => unapplied.atMostOnce
    refine .bind ((triple_editBatch env mergedEdits).mono (fun _ => id) (fun _ _ => id) unapplied)
      fun _ => ?_
    refine (triple_applyChanges env mergedEdits).mono (fun _ => id) ?_ unapplied
    exact fun _ _ applied => applied.atMostOnce
  · exact .pure fun _ idle => idle.unapplied.atMostOnce

omit [DecidableEq S] in
theorem sameEdits_reportPatchOk (patchId : Str) :
    Keeps SameEdits (reportPatchOk env ctx patchId) := by
  refine .bind .trans (.liftM .refl _) fun _ => .bind .trans (sameEdits_writeHead _ _) fun _ => ?_
  refine .bind .trans (.liftM .refl _) fun _ => .bind .trans (.liftM .refl _) fun _ => ?_
  exact sameEdits_endWith _

omit [DecidableEq S] in
theorem once_reportPatchOk (patchId : Str) :
    OnceFrom AtMostOnce (reportPatchOk env ctx patchId) := by
  refine .of_keeps (sameEdits_reportPatchOk env ctx patchId) ?_
  intro before after once same
  constructor
  · rw [same.handed]
    exact once.handed
  · rw [same.handed, same.applied]
    exact once.applied

theorem once_processYangPatch : OnceFrom Idle (processYangPatch env ctx) := by
  have idle : ∀ (_ : Exception) (world : World S), Idle world → AtMostOnce world :=
    fun _ _ idle => idle.unapplied.atMostOnce
  refine .bind_liftM idle fun found => ?_
  cases found with
  | none => exact .throw fun _ idle => idle.unapplied.atMostOnce
  | some patch =>
      refine .bind_liftM idle fun patchId => .bind ?_ fun _ => once_reportPatchOk env ctx patchId
      exact once_withRestconfExceptions env (once_processYangPatchImpl env ctx patch patchId)
        (reports_rejectYangPatch patchId)

omit [DecidableEq S] in
theorem Concluded.atMostOnce {world : World S} (concluded : Concluded world) :
    AtMostOnce world := by
  rcases concluded with written | declined
  · obtain ⟨edit, applied⟩ := written.edit
    exact applied.atMostOnce
  · exact declined.toUnapplied.atMostOnce

/-- The end of the payload of a write. -/
theorem once_onPayload : OnceFrom Fresh (onPayload env ctx) := by
  have concluded {program : Handler S Unit} (transacts : Transacts program) :
      OnceFrom Fresh (reportExceptions env ctx program) :=
    (triple_reportExceptions env ctx transacts).mono (fun _ => id)
      (fun _ _ concluded => concluded.atMostOnce) fun _ _ concluded => concluded.atMostOnce
  unfold onPayload processPayload
  cases processing ctx with
  | post => exact concluded (transacts_processPost env ctx)
  | putOrPlainPatch => exact concluded (transacts_processPutOrPlainPatch env ctx)
  | yangPatch =>
      have once : OnceFrom Fresh (processYangPatch env ctx) :=
        (once_processYangPatch env ctx).mono (fun _ fresh => fresh.1) (fun _ _ => id) fun _ _ => id
      exact once_withRestconfExceptions env once reports_rejectWithError

/-- The end of the payload of a write other than a YANG Patch. -/
theorem concluded_onPayload (plain : processing ctx ≠ .yangPatch) :
    Triple Fresh (onPayload env ctx) (fun _ => Concluded) fun _ => Concluded := by
  unfold onPayload processPayload
  cases kind : processing ctx with
  | post => exact triple_reportExceptions env ctx (transacts_processPost env ctx)
  | putOrPlainPatch =>
      exact triple_reportExceptions env ctx (transacts_processPutOrPlainPatch env ctx)
  | yangPatch => exact absurd kind plain

end Requests

/-! ## The handler -/

section Handlers

variable {S : Type} {env : Env S} {req : Request} {request : RestconfRequest}

theorem keeps_handleException (exception : Exception) :
    Keeps Rejects (handleException env req exception) := by
  have rejecting : ∀ error, Keeps Rejects (do
      rejectWithError env req error
      return .nothing : Handler S Next) := by
    intro error
    have reports : Reports (rejectWithError env req error) := reports_rejectWithError error
    exact .bind .trans reports.rejects fun _ => .pure .refl _
  cases exception with
  | auth message delay =>
      cases delay with
      | none => exact rejecting _
      | some delay => exact .pure .refl _
  | errorResponse error => exact rejecting error
  | sysrepo error => exact rejecting _
  | _ => exact .throw .refl _

/-- A request which was not answered normally does not wait for its payload. -/
theorem handleException_ne_payload (exception : Exception) (world : World S) :
    (exec (handleException env req exception) world).1 ≠ .ok .payload := by
  have rejecting : ∀ error, (exec (do
      rejectWithError env req error
      return .nothing : Handler S Next) world).1 ≠ .ok .payload := by
    intro error returned
    obtain ⟨_, _, returned⟩ := exec_bind_eq_ok.mp returned
    cases returned
  cases exception with
  | auth message delay =>
      cases delay with
      | none => exact rejecting _
      | some delay => exact nofun
  | errorResponse error => exact rejecting error
  | sysrepo error => exact rejecting _
  | _ => exact nofun

theorem sameEdits_getResource : Keeps SameEdits (getResource env req request) :=
  sameEdits_writing _ _ _

theorem sameEdits_getData : Keeps SameEdits (getData env req request) := by
  refine .bind .trans (.liftM .refl _) fun data => ?_
  cases data with
  | none => exact .throw .refl _
  | some data => exact sameEdits_writing _ _ _

theorem sameEdits_optionsQuery : Keeps SameEdits (optionsQuery env req) := by
  refine .bind .trans (.liftM .refl _) fun allowed => ?_
  split
  · exact .bind .trans (sameEdits_writeHead _ _) fun _ => sameEdits_endWith _
  · exact .bind .trans (sameEdits_writeHead _ _) fun _ => sameEdits_endWith _

end Handlers

end Rousette.Restconf.Server
