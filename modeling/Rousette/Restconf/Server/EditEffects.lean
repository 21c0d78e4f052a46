import Rousette.Restconf.Server.Write

/-!
# What building an edit does

Until an edit is handed over, key checks are the only thing which is recorded, and
the outcome does not depend on what was recorded before.
-/

namespace Rousette.Restconf.Server

open Library Libyang Program

variable {S : Type}

/-- Nothing but key checks was recorded. -/
def ChecksOnly (before after : World S) : Prop :=
  ∃ checks, after = { before with keyChecks := before.keyChecks ++ checks }

theorem ChecksOnly.refl (world : World S) : ChecksOnly world world :=
  ⟨[], by simp⟩

theorem ChecksOnly.trans {first second third : World S} :
    ChecksOnly first second → ChecksOnly second third → ChecksOnly first third := by
  rintro ⟨checks, rfl⟩ ⟨further, rfl⟩
  exact ⟨checks ++ further, by simp⟩

/-- A program which records key checks and nothing else, and does not read the state. -/
structure Builds {α : Type} (program : Handler S α) : Prop where
  checks : Keeps ChecksOnly program
  uniform : Uniform program

namespace Builds

variable {α β : Type}

theorem pure (value : α) : Builds (Pure.pure value : Handler S α) :=
  ⟨.pure .refl value, .pure value⟩

theorem throw (exception : Exception) :
    Builds (MonadExcept.throw exception : Handler S α) :=
  ⟨.throw .refl exception, .throw exception⟩

theorem liftM (result : Except Exception α) :
    Builds (MonadLiftT.monadLift result : Handler S α) :=
  ⟨.liftM .refl result, .liftM result⟩

theorem bind {first : Handler S α} {second : α → Handler S β} (builds : Builds first)
    (buildsSecond : ∀ value, Builds (second value)) : Builds (first >>= second) :=
  ⟨.bind .trans builds.checks fun value => (buildsSecond value).checks,
    .bind builds.uniform fun value => (buildsSecond value).uniform⟩

end Builds

section Edits

variable [DecidableEq S] (calls : Calls S)

theorem builds_requireKeys (edit : Forest S) (position : Position) (node : DataNode S)
    (lyParentPath : Str) (lastPathSegment : PathSegment) :
    Builds (requireKeys calls edit position node lyParentPath lastPathSegment) := by
  unfold requireKeys
  refine .bind ⟨fun world => ⟨[(node, lastPathSegment)], rfl⟩, .modify _⟩ fun _ => ?_
  refine .bind (.liftM _) fun mismatch => ?_
  cases mismatch with
  | none => exact .pure ()
  | some mismatch => exact .throw _

theorem builds_findReplacement (edit : Forest S) (parent : DataNode S) (position : Position)
    (lyParentPath : Str) (lastPathSegment : PathSegment) (index : Nat)
    (children : List (DataNode S)) (replacement : Option Nat) :
    Builds (findReplacement calls edit parent position lyParentPath lastPathSegment index
      children replacement) := by
  induction children generalizing index replacement with
  | nil => exact .pure replacement
  | cons child rest ih =>
      unfold findReplacement
      split
      · exact .bind (builds_requireKeys ..) fun _ => ih (index + 1) (some index)
      · split
        · exact ih (index + 1) replacement
        · exact .throw _

theorem builds_createBelowParent (lyParentPath : Str) (lastPathSegment : PathSegment)
    (value : Str) (dataFormat : DataFormat) :
    Builds (createBelowParent calls lyParentPath lastPathSegment value dataFormat) := by
  unfold createBelowParent
  refine .bind (.liftM _) fun created => .bind (.liftM _) fun parsed => ?_
  refine .bind (builds_findReplacement ..) fun replacement => ?_
  cases replacement with
  | none => exact .throw _
  | some index => exact .pure _

theorem builds_createTopLevel (lyParentPath : Str) (lastPathSegment : PathSegment)
    (value : Str) (dataFormat : DataFormat) :
    Builds (createTopLevel calls lyParentPath lastPathSegment value dataFormat) := by
  unfold createTopLevel
  refine .bind (.liftM _) fun edit => ?_
  cases edit with
  | nil => exact .throw _
  | cons first rest =>
      exact .bind (.liftM _) fun _ => .bind (builds_requireKeys ..) fun _ => .pure _

theorem builds_createEditForPutAndPatch (uriPath : Str) (valueStr : Option Str)
    (dataFormat : DataFormat) :
    Builds (createEditForPutAndPatch calls uriPath valueStr dataFormat) := by
  unfold createEditForPutAndPatch
  refine .bind (.liftM _) fun split => ?_
  cases valueStr with
  | none =>
      exact .bind (.liftM _) fun request => .bind (.liftM _) fun created => .pure _
  | some value =>
      simp only
      split
      · exact builds_createTopLevel ..
      · exact builds_createBelowParent ..

theorem builds_processYangPatchEdit (env : Env S) (ctx : RequestContext) (edit : PatchEdit) :
    Builds (processYangPatchEdit env ctx edit) := by
  unfold processYangPatchEdit
  refine .bind (.liftM _) fun target => .bind (.liftM _) fun operation => ?_
  refine .bind (.liftM _) fun value => ?_
  refine .bind (builds_createEditForPutAndPatch ..) fun nodes => ?_
  exact .bind (.liftM _) fun _ => .bind (.liftM _) fun nodes => .pure _

end Edits

/-- An edit is never empty. -/
theorem edit_ne_nil_of_createEdit [DecidableEq S] {calls : Calls S} {uriPath : Str}
    {valueStr : Option Str} {dataFormat : DataFormat} {world : World S} {nodes : EditNodes S}
    (created : (exec (createEditForPutAndPatch calls uriPath valueStr dataFormat) world).1 =
      .ok nodes) : nodes.edit ≠ [] := by
  unfold createEditForPutAndPatch at created
  rw [exec_bind_eq_ok] at created
  obtain ⟨split, _, created⟩ := created
  cases valueStr with
  | none =>
      simp only [exec_bind_eq_ok] at created
      obtain ⟨request, _, root, _, result⟩ := created
      cases result
      simp
  | some value =>
      simp only at created
      split at created
      · unfold createTopLevel at created
        rw [exec_bind_eq_ok] at created
        obtain ⟨edit, _, created⟩ := created
        cases edit with
        | nil => cases created
        | cons first rest =>
            simp only [exec_bind_eq_ok] at created
            obtain ⟨_, _, _, _, result⟩ := created
            cases result
            simp
      · unfold createBelowParent at created
        simp only [exec_bind_eq_ok] at created
        obtain ⟨root, _, parsed, _, replacement, _, created⟩ := created
        cases replacement with
        | none => cases created
        | some index =>
            cases created
            simp

/-! ## Meta attributes of the server -/

/-- The server has added meta attributes to the node which the operation is set on. -/
def Annotated (before after : EditNodes S) : Prop :=
  ∃ metas : List Meta, (∀ item ∈ metas, item.byServer = true) ∧
    after = { before with
      edit := Forest.modifyAt (DataNode.addMetas metas) before.edit before.replacement }

namespace Annotated

theorem refl (nodes : EditNodes S) : Annotated nodes nodes := by
  refine ⟨[], by simp, ?_⟩
  have same : (DataNode.addMetas [] : DataNode S → DataNode S) = id := by
    funext node
    cases node
    simp [DataNode.addMetas, Tree.mapLabel]
  rw [same, Forest.modifyAt_id]

theorem trans {first second third : EditNodes S} :
    Annotated first second → Annotated second third → Annotated first third := by
  rintro ⟨metas, added, rfl⟩ ⟨further, addedFurther, rfl⟩
  refine ⟨metas ++ further, ?_, ?_⟩
  · intro item member
    rcases List.mem_append.mp member with before | after
    · exact added item before
    · exact addedFurther item after
  · have joined : (DataNode.addMetas (metas ++ further) : DataNode S → DataNode S) =
        DataNode.addMetas further ∘ DataNode.addMetas metas := by
      funext node
      simp [DataNode.addMetas, Tree.mapLabel]
    simp only [joined, Forest.modifyAt_modifyAt]

theorem length {before after : EditNodes S} (annotated : Annotated before after) :
    after.edit.length = before.edit.length := by
  obtain ⟨metas, _, rfl⟩ := annotated
  exact Forest.length_modifyAt _ _ _

end Annotated

section Metas

variable [DecidableEq S] {calls : Calls S}

omit [DecidableEq S] in
theorem annotated_addMeta {moduleName name value : Str} {before after : EditNodes S}
    (added : addMeta calls moduleName name value before = .ok after) :
    Annotated before after := by
  simp only [addMeta, except_bind_eq_ok] at added
  obtain ⟨node, _, _, _, result⟩ := added
  cases result
  exact ⟨_, by simp, rfl⟩

theorem annotated_yangInsert {wherePlace : Str} {point : Option (List PathSegment)}
    {before after : EditNodes S}
    (inserted : yangInsert calls before wherePlace point = .ok after) :
    Annotated before after := by
  simp only [yangInsert, except_bind_eq_ok] at inserted
  obtain ⟨node, _, _, _, middle, first, rest⟩ := inserted
  have annotated := annotated_addMeta first
  cases point with
  | none =>
      cases rest
      exact annotated
  | some point =>
      simp only [except_bind_eq_ok] at rest
      obtain ⟨schema, _, _, _, named, _, second⟩ := rest
      exact annotated.trans (annotated_addMeta second)

theorem annotated_yangInsertFromQuery {queryParams : QueryParams} {before after : EditNodes S}
    (inserted : yangInsertFromQuery calls queryParams before = .ok after) :
    Annotated before after := by
  unfold yangInsertFromQuery at inserted
  split at inserted
  · cases inserted
    exact .refl _
  · rw [except_bind_eq_ok] at inserted
    obtain ⟨place, _, inserted⟩ := inserted
    exact annotated_yangInsert inserted

theorem annotated_yangInsertFromEdit {wherePlace : Str} {point : Option Str}
    {before after : EditNodes S}
    (inserted : yangInsertFromEdit calls before wherePlace point = .ok after) :
    Annotated before after := by
  simp only [yangInsertFromEdit, except_bind_eq_ok] at inserted
  obtain ⟨parsed, _, inserted⟩ := inserted
  exact annotated_yangInsert inserted

theorem annotated_setPatchOperation {env : Env S} {ctx : RequestContext} {edit : PatchEdit}
    {operation : Str} {before after : EditNodes S}
    (done : setPatchOperation env ctx edit operation before = .ok after) :
    Annotated before after := by
  unfold setPatchOperation at done
  split at done
  · simp only [except_bind_eq_ok] at done
    obtain ⟨wherePlace, _, point, _, middle, first, second⟩ := done
    exact (annotated_addMeta first).trans (annotated_yangInsertFromEdit second)
  · exact annotated_addMeta done

theorem annotated_setPutOperation {env : Env S} {ctx : RequestContext}
    {before after : EditNodes S} (done : setPutOperation env ctx before = .ok after) :
    Annotated before after := by
  unfold setPutOperation at done
  split at done
  · simp only [except_bind_eq_ok] at done
    obtain ⟨middle, first, second⟩ := done
    exact (annotated_addMeta first).trans (annotated_yangInsertFromQuery second)
  · cases done
    exact .refl _

end Metas

end Rousette.Restconf.Server
