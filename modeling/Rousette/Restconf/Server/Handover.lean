import Rousette.Restconf.Server.PatchEdits

/-!
# What is handed to sysrepo

Whatever request has a payload, the edits which it passes to sysrepo were built and
checked in one of four ways.
-/

namespace Rousette.Restconf.Server

open Library Libyang Program

section Handover

variable {S : Type} [DecidableEq S] (env : Env S) (ctx : RequestContext)

/-- The edit of a `PUT` or a plain `PATCH` on a resource below the datastore. -/
def createEdit : Handler S (EditNodes S) :=
  createEditForPutAndPatch env.libyang ctx.rawPath (some ctx.payload) ctx.requestFormat

/-- The ways in which an edit gets handed over. -/
inductive Handover : Forest S → Prop where
  | root {edit : Forest S} (kind : processing ctx = .putOrPlainPatch)
      (path : ctx.restconfRequest.path = str "/")
      (parsed : env.libyang.parseData ctx.payload ctx.requestFormat = .ok edit)
      (validated : validateInputMetaAttributes env.libyang edit = .ok ()) : Handover edit
  | target {nodes annotated : EditNodes S} (kind : processing ctx = .putOrPlainPatch)
      (path : ctx.restconfRequest.path ≠ str "/")
      (created : Returns (createEdit env ctx) nodes)
      (validated : validateInputMetaAttributes env.libyang nodes.edit = .ok ())
      (set : setPutOperation env ctx nodes = .ok annotated) : Handover annotated.edit
  | child {edit : Forest S} {position : Position} {index : Nat} {nodes annotated : EditNodes S}
      (kind : processing ctx = .post)
      (created : createEditForPost env ctx = .ok (edit, position, [index]))
      (validated : validatePost env edit = .ok ())
      (set : addMeta env.libyang (str "ietf-netconf") (str "operation") (str "create")
        ⟨edit, position ++ [index]⟩ = .ok nodes)
      (inserted : yangInsertFromQuery env.libyang ctx.restconfRequest.queryParams nodes =
        .ok annotated) : Handover annotated.edit
  | patch {patch : Patch} (kind : processing ctx = .yangPatch)
      (parsed : env.libyang.parsePatch ctx.payload ctx.requestFormat = .ok (some patch)) :
      Handover (succeeded env ctx patch.edits)

/-- The state after a request with a payload. -/
def afterPayload : World S := (exec (onPayload env ctx) World.initial).2

end Handover

variable {S : Type} {property : Forest S → Prop}

theorem emits_writeHead (code : Nat) (headers : List (Str × Str)) :
    Emits World.handed property (writeHead code headers : Handler S Unit) :=
  .of_keeps fun _ => rfl

theorem emits_endWith (body : Str) :
    Emits World.handed property (endWith body : Handler S Unit) :=
  .of_keeps fun _ => rfl

theorem emits_applyChanges (env : Env S) (edit : Forest S) :
    Emits World.handed property (applyChanges env edit) :=
  .bind (.liftM _) fun _ _ => .of_keeps fun _ => rfl

/-- Recording an edit which has the property. -/
theorem emits_record {edit : Forest S} (holds : property edit) :
    Emits World.handed property (modify fun world =>
      { world with handed := world.handed ++ [edit] } : Handler S Unit) := by
  intro world item member
  rcases List.mem_append.mp member with before | new
  · exact .inl before
  · cases List.mem_singleton.mp new
    exact .inr holds

theorem emits_editBatch (env : Env S) {edit : Forest S} (holds : property edit) :
    Emits World.handed property (editBatch env edit) :=
  .bind (emits_record holds) fun _ _ => .liftM _

theorem emits_replaceConfig (env : Env S) {edit : Forest S} (holds : property edit) :
    Emits World.handed property (replaceConfig env edit) :=
  .bind (emits_record holds) fun _ _ => .bind (.liftM _) fun _ _ => .of_keeps fun _ => rfl

theorem Builds.emits {α : Type} {program : Handler S α} (builds : Builds program) :
    Emits World.handed property program := by
  refine .of_keeps fun world => ?_
  obtain ⟨checks, after⟩ := builds.checks world
  rw [after]

theorem Reports.emits {report : Handler S Unit} (reports : Reports report) :
    Emits World.handed property report :=
  .of_keeps fun world => (reports.rejects world).handed

theorem emits_withRestconfExceptions {α : Type} {env : Env S} {path : Str}
    {func : Handler S α} {reject : ErrorResponse → Handler S Unit} {before : α}
    (emits : Emits World.handed property func) (reports : ∀ error, Reports (reject error)) :
    Emits World.handed property (withRestconfExceptions env path func reject before) :=
  .tryCatch emits fun exception =>
    .bind (reports_report reports exception).emits fun _ _ => .pure before

section Requests

variable [DecidableEq S] (env : Env S) (ctx : RequestContext)

theorem emits_processRoot (kind : processing ctx = .putOrPlainPatch)
    (path : ctx.restconfRequest.path = str "/") :
    Emits World.handed (Handover env ctx) (processRoot env ctx) := by
  unfold processRoot
  refine .bind_liftM fun edit parsed => .bind_liftM fun _ _ => ?_
  refine .bind_liftM fun _ validated => ?_
  have handed : Handover env ctx edit := .root kind path (raise_eq_ok.mp parsed) validated
  split
  · refine .bind (emits_replaceConfig env handed) fun _ _ => ?_
    exact .bind (emits_writeHead _ _) fun _ _ => emits_endWith _
  · refine .bind (emits_editBatch env handed) fun _ _ => ?_
    refine .bind (emits_applyChanges env edit) fun _ _ => ?_
    exact .bind (emits_writeHead _ _) fun _ _ => emits_endWith _

theorem emits_processPutOrPlainPatch (kind : processing ctx = .putOrPlainPatch) :
    Emits World.handed (Handover env ctx) (processPutOrPlainPatch env ctx) := by
  unfold processPutOrPlainPatch
  split
  next path => exact emits_processRoot env ctx kind path
  next path =>
    refine .bind_liftM fun _ _ => .bind_liftM fun data _ => .bind_liftM fun _ _ => ?_
    refine .bind (builds_createEditForPutAndPatch ..).emits fun nodes created => ?_
    refine .bind_liftM fun _ validated => .bind_liftM fun annotated set => ?_
    have handed : Handover env ctx annotated.edit := .target kind path created validated set
    refine .bind (emits_editBatch env handed) fun _ _ => ?_
    refine .bind (emits_applyChanges env _) fun _ _ => ?_
    split
    · exact .bind (emits_writeHead _ _) fun _ _ => emits_endWith _
    · exact .bind (emits_writeHead _ _) fun _ _ => emits_endWith _

theorem emits_processPost (kind : processing ctx = .post) :
    Emits World.handed (Handover env ctx) (processPost env ctx) := by
  unfold processPost
  refine .bind_liftM fun result created => .bind_liftM fun _ validated => ?_
  obtain ⟨edit, position, indices⟩ := result
  match indices with
  | [] => exact .throw _
  | _ :: _ :: _ => exact .throw _
  | [index] =>
      refine .bind_liftM fun nodes set => .bind_liftM fun annotated inserted => ?_
      have handed : Handover env ctx annotated.edit := .child kind created validated set inserted
      refine .bind (emits_editBatch env handed) fun _ _ => ?_
      refine .bind (emits_applyChanges env _) fun _ _ => ?_
      exact .bind (emits_writeHead _ _) fun _ _ => emits_endWith _

/-- Nothing is handed over while the edits of a patch are processed. -/
theorem emits_processYangPatchEdits (patchId : Str) (edits : List PatchEdit)
    (mergedEdits : Forest S) {property : Forest S → Prop} :
    Emits World.handed property (processYangPatchEdits env ctx patchId mergedEdits edits) := by
  refine .of_keeps fun world => ?_
  obtain ⟨after, rejects, ⟨_, run, _⟩ | ⟨_, _, run⟩⟩ :=
    exec_edits env ctx patchId edits mergedEdits world
  · rw [run]
    exact rejects.handed
  · rw [run]
    exact rejects.handed

theorem returns_processYangPatchEdits {patchId : Str} {edits : List PatchEdit}
    {mergedEdits result : Forest S}
    (returns : Returns (processYangPatchEdits env ctx patchId mergedEdits edits) result) :
    result = mergedEdits ++ succeeded env ctx edits := by
  obtain ⟨world, returned⟩ := returns
  obtain ⟨after, _, ⟨_, run, _⟩ | ⟨_, _, run⟩⟩ :=
    exec_edits env ctx patchId edits mergedEdits world
  · rw [run, Except.ok.injEq] at returned
    exact returned.symm
  · rw [run] at returned
    cases returned

theorem emits_processYangPatch (kind : processing ctx = .yangPatch) :
    Emits World.handed (Handover env ctx) (processYangPatch env ctx) := by
  unfold processYangPatch
  refine .bind_liftM fun found parsed => ?_
  cases found with
  | none => exact .throw _
  | some patch =>
      refine .bind_liftM fun patchId _ => .bind ?_ fun _ _ => ?_
      · refine emits_withRestconfExceptions ?_ (reports_rejectYangPatch patchId)
        refine .bind (emits_processYangPatchEdits env ctx patchId patch.edits [])
          fun mergedEdits returns => ?_
        have merged := returns_processYangPatchEdits env ctx returns
        have handed : Handover env ctx mergedEdits := by
          rw [merged, List.nil_append]
          exact .patch kind (raise_eq_ok.mp parsed)
        split
        · exact .bind (emits_editBatch env handed) fun _ _ => emits_applyChanges env _
        · exact .pure ()
      · refine .bind_liftM fun _ _ => .bind (emits_writeHead _ _) fun _ _ => ?_
        exact .bind_liftM fun _ _ => .bind_liftM fun _ _ => emits_endWith _

/-- Whatever a request hands over was built in one of the ways. -/
theorem handover_of_mem_handed {forest : Forest S}
    (member : forest ∈ (afterPayload env ctx).handed) : Handover env ctx forest := by
  have emits : Emits World.handed (Handover env ctx) (onPayload env ctx) := by
    refine emits_withRestconfExceptions ?_ reports_rejectWithError
    unfold processPayload
    cases kind : processing ctx with
    | post => exact emits_processPost env ctx kind
    | yangPatch => exact emits_processYangPatch env ctx kind
    | putOrPlainPatch => exact emits_processPutOrPlainPatch env ctx kind
  rcases emits World.initial forest member with initially | handed
  · cases initially
  · exact handed

end Requests

end Rousette.Restconf.Server
