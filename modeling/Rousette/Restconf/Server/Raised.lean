import Rousette.Restconf.Server.Handover
import Rousette.Restconf.Server.Orderly

/-!
# What is raised while a payload is processed

The exceptions which leave `processPutOrPlainPatch` and `processYangPatch`, next to
those which the server itself, libyang and sysrepo raise, come from key values which
cannot be escaped.  Error reports raise nothing of their own; libyang may refuse them.
-/

namespace Rousette.Restconf.Server

open Library Libyang Program Exception

section Breaks

variable {S : Type} [DecidableEq S] (env : Env S) (ctx : RequestContext)

/-- The document of an error response. -/
def errorDocument (error : ErrorResponse) : Except Exception Document := do
  let container := str "/ietf-restconf:errors"
  let document ← extend env [] (.newPath [] container none)
  let document ← extendAll env container document (errorLeafs error)
  extendErrorInfo env document container error.errorInfo

/-- libyang takes the report of an error: its texts are values of the types which the leafs
of the report have. -/
def TakesReport (error : ErrorResponse) : Prop :=
  ∃ document, errorDocument env error = .ok document

/-- The paths of the containers for errors in the status of a patch. -/
inductive IsErrorsPath : Str → Prop where
  | patch : IsErrorsPath (str "/ietf-yang-patch:yang-patch-status/errors")
  | edit (editId : Str) : IsErrorsPath
      (str "/ietf-yang-patch:yang-patch-status/edit-status/edit[edit-id='" ++ editId ++
        str "']/errors")

/-- What libyang promises about documents: a container for errors which was created is found, and
printing gives a text if there is something to print. -/
structure Documents : Prop where
  finds : ∀ path, IsErrorsPath path → env.libyang.extend [] (.newPath [] path none) = .ok () →
    env.libyang.findXPath [.newPath [] path none] path ≠ .ok false
  prints : ∀ document format, document ≠ [] →
    ∃ text, env.libyang.printDocument document format = .ok (some text)
  values : ∀ {text format patch}, env.libyang.parsePatch text format = .ok (some patch) →
    ∀ edit ∈ patch.edits, edit.value ≠ .data (.ok none)

/-- A `PUT` or a plain `PATCH` gets to a key value which cannot be escaped. -/
structure PutBreaks : Prop where
  path : ctx.restconfRequest.path ≠ str "/"
  locked : lockDatastore env ctx = .ok ()
  read : ∃ data, env.session.getData ctx.restconfRequest.path 0 .default = .ok data ∧
    (ctx.method != str "PATCH" || data.isSome) = true
  unbuildable : Unbuildable env.libyang ctx.rawPath (some ctx.payload) ctx.requestFormat

/-- Sysrepo refuses one of the calls which a `PUT` or a plain `PATCH` below the datastore
makes. -/
inductive Refuses (error : Sysrepo.ErrorWithCode) : Prop where
  | lock (locked : lockDatastore env ctx = .error (.sysrepo error))
  | read (locked : lockDatastore env ctx = .ok ())
      (refused : env.session.getData ctx.restconfRequest.path 0 .default = .error error)
  | edit {data : Option (Forest S)} {nodes annotated : EditNodes S}
      (locked : lockDatastore env ctx = .ok ())
      (read : env.session.getData ctx.restconfRequest.path 0 .default = .ok data)
      (present : (ctx.method != str "PATCH" || data.isSome) = true)
      (created : Returns (createEdit env ctx) nodes)
      (validated : validateInputMetaAttributes env.libyang nodes.edit = .ok ())
      (set : setPutOperation env ctx nodes = .ok annotated)
      (refused : env.session.editBatch annotated.edit = .error error ∨
        env.session.editBatch annotated.edit = .ok () ∧ env.session.applyChanges = .error error)

/-- An edit of a YANG Patch gets to a key value which cannot be escaped. -/
def EditBreaks (edit : PatchEdit) : Prop :=
  ∃ target operation value, edit.target = some target ∧ edit.operation = some operation ∧
    yangPatchValueAsJSON edit.value = .ok value ∧
    Unbuildable env.libyang (uriJoin ctx.rawPath target) value .json

/-- The loop over the edits gets to an edit with a key value which cannot be escaped. -/
def LoopBreaks (patchId : Str) (edits : List PatchEdit) : Prop :=
  ∃ before edit after editId, edits = before ++ edit :: after ∧
    Completes env ctx patchId before ∧ edit.editId = some editId ∧ EditBreaks env ctx edit

/-- A YANG Patch gets to an edit with a key value which cannot be escaped. -/
def PatchBreaks : Prop :=
  ∃ patch patchId, env.libyang.parsePatch ctx.payload ctx.requestFormat = .ok (some patch) ∧
    patch.patchId = some patchId ∧ LoopBreaks env ctx patchId patch.edits

end Breaks

/-! ## Reports -/

section Reports

variable {S : Type} {env : Env S} {req : Request}

theorem extend_of_taking (takes : ∀ document entry, env.libyang.extend document entry = .ok ())
    (document : Document) (entry : Entry) :
    extend env document entry = .ok (document ++ [entry]) := by
  simp only [extend, takes, raise, bind, Except.bind, pure, Except.pure]

theorem extendAll_of_taking (takes : ∀ document entry, env.libyang.extend document entry = .ok ())
    (below : Str) (document : Document) (leafs : List (Str × Option Str)) :
    ∃ extended, extendAll env below document leafs = .ok extended := by
  induction leafs generalizing document with
  | nil => exact ⟨document, rfl⟩
  | cons leaf rest ih =>
      obtain ⟨path, value⟩ := leaf
      simp only [extendAll, extend_of_taking takes, bind, Except.bind]
      exact ih _

/-- Calls which take every step of a document take every report. -/
theorem takesReport_of_taking
    (takes : ∀ document entry, env.libyang.extend document entry = .ok ())
    (error : ErrorResponse) : TakesReport env error := by
  obtain ⟨document, extended⟩ := extendAll_of_taking takes (str "/ietf-restconf:errors")
    [.newPath [] (str "/ietf-restconf:errors") none] (errorLeafs error)
  simp only [TakesReport, errorDocument, extend_of_taking takes, List.nil_append, bind,
    Except.bind, extended]
  cases error.errorInfo with
  | none => exact ⟨document, rfl⟩
  | some info =>
      obtain ⟨inside, built⟩ := extendAll_of_taking takes (str "/rousette:" ++ info.containerName)
        [.newPath [] (str "/rousette:" ++ info.containerName) none]
        (info.leafs.map fun leaf => (leaf.1, some leaf.2))
      simp only [extendErrorInfo, extend_of_taking takes, List.nil_append, bind, Except.bind, built]
      exact ⟨_, rfl⟩

/-- Calls which find and print everything. -/
theorem documents_of_finding
    (finds : ∀ document path, env.libyang.findXPath document path = .ok true)
    (prints : ∀ document format, ∃ text,
      env.libyang.printDocument document format = .ok (some text))
    (unpatched : ∀ text format patch, env.libyang.parsePatch text format ≠ .ok (some patch)) :
    Documents env where
  finds path _ _ := by
    rw [finds]
    simp
  prints document format _ := prints document format
  values parsed := absurd parsed (unpatched _ _ _)

theorem extend_eq_ok {document extended : Document} {entry : Entry}
    (done : extend env document entry = .ok extended) :
    extended = document ++ [entry] ∧ env.libyang.extend document entry = .ok () := by
  obtain ⟨_, taken, result⟩ := except_bind_eq_ok.mp done
  cases result
  exact ⟨rfl, raise_eq_ok.mp taken⟩

theorem extendAll_eq_ok {below : Str} {document extended : Document}
    {leafs : List (Str × Option Str)} (done : extendAll env below document leafs = .ok extended) :
    extended = document ++ leafs.map fun leaf => .newPath below leaf.1 leaf.2 := by
  induction leafs generalizing document with
  | nil =>
      cases done
      simp
  | cons leaf rest ih =>
      obtain ⟨path, value⟩ := leaf
      obtain ⟨middle, first, others⟩ := except_bind_eq_ok.mp done
      obtain ⟨rfl, _⟩ := extend_eq_ok first
      rw [ih others, List.append_assoc]
      rfl

/-- The structured payload of an error is one more entry, if there is any. -/
theorem extendErrorInfo_eq_ok {document informed : Document} {container : Str}
    {info : Option ErrorInfo}
    (done : extendErrorInfo env document container info = .ok informed) :
    informed = document ++ info.toList.map fun given =>
      .newAny container (str "error[1]/error-info")
        (given.leafs.map fun leaf => (leaf.1, some leaf.2)) := by
  cases info with
  | none =>
      cases done
      exact (List.append_nil _).symm
  | some given =>
      obtain ⟨_, _, done⟩ := except_bind_eq_ok.mp done
      obtain ⟨_, _, done⟩ := except_bind_eq_ok.mp done
      exact (extend_eq_ok done).1

/-- The document of an error has its leafs in it. -/
theorem ne_nil_of_extendErrorInfo {document extended informed : Document} {container : Str}
    {error : ErrorResponse}
    (leafs : extendAll env container document (errorLeafs error) = .ok extended)
    (info : extendErrorInfo env extended container error.errorInfo = .ok informed) :
    informed ≠ [] := by
  rw [extendErrorInfo_eq_ok info, extendAll_eq_ok leafs]
  simp [errorLeafs]

theorem throws_extend (document : Document) (entry : Entry) :
    Throws IsLibyang (extend env document entry) := by
  apply Throws.bind (throws_libyang _)
  intro _ _
  exact .ok _

theorem throws_extendAll (below : Str) (document : Document)
    (leafs : List (Str × Option Str)) :
    Throws IsLibyang (extendAll env below document leafs) := by
  induction leafs generalizing document with
  | nil => exact .ok _
  | cons leaf rest ih =>
      obtain ⟨path, value⟩ := leaf
      apply Throws.bind (throws_extend _ _)
      intro extended _
      exact ih extended

theorem throws_extendErrorInfo (document : Document) (container : Str)
    (info : Option ErrorInfo) :
    Throws IsLibyang (extendErrorInfo env document container info) := by
  cases info with
  | none => exact .ok _
  | some info =>
      apply Throws.bind (throws_extend _ _)
      intro created _
      apply Throws.bind (throws_extendAll _ _ _)
      intro _ _
      exact throws_extend _ _

theorem errorHeaders_isOk (code : ErrorStatus) :
    ∃ headers, errorHeaders env req code = .ok headers := by
  unfold errorHeaders
  split
  · obtain ⟨methods, allowed⟩ := @allowedHttpMethodsForUri_isOk S env.libyang.ctx req.path
    rw [allowed]
    exact ⟨_, rfl⟩
  · exact ⟨_, rfl⟩

theorem raises_rejectWithErrorImpl (documents : Documents env) {document : Document}
    {container : Str} {error : ErrorResponse} {exception : Exception}
    (raises : Raises (rejectWithErrorImpl env req document container error) exception) :
    exception.IsLocal := by
  unfold rejectWithErrorImpl at raises
  rcases raises.bind with extending | ⟨extended, leafs, raises⟩
  · exact (throws_extendAll _ _ _ exception extending.liftM).isLocal
  rcases raises.bind with informing | ⟨document, informed, raises⟩
  · exact (throws_extendErrorInfo _ _ _ exception informing.liftM).isLocal
  have nonempty := ne_nil_of_extendErrorInfo leafs.liftM informed.liftM
  rcases raises.bind with heading | ⟨headers, _, raises⟩
  · obtain ⟨headers, built⟩ := @errorHeaders_isOk S env req error.code
    rw [heading.liftM] at built
    cases built
  rcases raises.bind with writing | ⟨_, _, raises⟩
  · exact writing.modify.elim
  rcases raises.bind with printing | ⟨printed, prints, raises⟩
  · exact throws_raise _ exception printing.liftM
  obtain ⟨text, known⟩ := documents.prints document req.responseFormat nonempty
  rw [raise_eq_ok.mp prints.liftM] at known
  cases known
  rcases raises.bind with unwrapping | ⟨body, _, raises⟩
  · cases unwrapping.liftM
  · exact raises.modify.elim

theorem raises_rejectInStatus (documents : Documents env) {patchId errorContainerXPath : Str}
    {error : ErrorResponse} {exception : Exception} (isErrors : IsErrorsPath errorContainerXPath)
    (raises : Raises (rejectInStatus env req patchId errorContainerXPath error) exception) :
    exception.IsLocal := by
  unfold rejectInStatus at raises
  rcases raises.bind with creating | ⟨document, created, raises⟩
  · exact (throws_extend _ _ exception creating.liftM).isLocal
  rcases raises.bind with looking | ⟨found, looked, raises⟩
  · exact throws_raise _ exception looking.liftM
  obtain ⟨_, extended, result⟩ := except_bind_eq_ok.mp created.liftM
  cases result
  have there := documents.finds errorContainerXPath isErrors (raise_eq_ok.mp extended)
  have looked := raise_eq_ok.mp looked.liftM
  cases found with
  | false => exact absurd looked there
  | true =>
      rcases raises.bind with missing | ⟨_, _, raises⟩
      · cases missing.liftM
      rcases raises.bind with extending | ⟨document, _, raises⟩
      · exact (throws_extend _ _ exception extending.liftM).isLocal
      exact raises_rejectWithErrorImpl documents raises

/-- An error is reported at the level of the request exactly if libyang takes the report. -/
theorem outcome_rejectWithError_iff (documents : Documents env) {error : ErrorResponse} :
    outcome (rejectWithError env req error) = .ok () ↔ TakesReport env error := by
  constructor
  case mp =>
    intro done
    simp only [outcome, rejectWithError, rejectWithErrorImpl, exec_bind_eq_ok, exec_liftM] at done
    obtain ⟨document, created, extended, leafs, informed, info, _⟩ := done
    refine ⟨informed, ?_⟩
    rw [errorDocument, created, except_ok_bind, leafs, except_ok_bind, info]
  case mpr =>
    rintro ⟨document, built⟩
    simp only [errorDocument, except_bind_eq_ok] at built
    obtain ⟨first, created, second, extended, informed⟩ := built
    obtain ⟨headers, heading⟩ := @errorHeaders_isOk S env req error.code
    obtain ⟨text, printed⟩ := documents.prints document req.responseFormat
      (ne_nil_of_extendErrorInfo extended informed)
    simp only [outcome, rejectWithError, rejectWithErrorImpl, exec_bind, exec_liftM, created,
      extended, informed, heading, writeHead, exec_modify, printed, raise, deref, endWith]

/-- An exception which is mapped to an error response, or fails to be because the path of
the request is not found. -/
theorem mappedErrorResponse_of_isMapped {path : Str} {exception : Exception}
    (mapped : exception.IsMapped) :
    (∃ error, mappedErrorResponse env path exception = .ok error) ∨
      (path ≠ str "/" ∧ (∃ error, exception = .sysrepo error ∧ error.code = .validationFailed) ∧
        ∃ error, env.libyang.ctx.findPath path = .error error ∧
          mappedErrorResponse env path exception = .error (.libyang error)) := by
  cases exception with
  | errorResponse error => exact .inl ⟨error, rfl⟩
  | libyang error => exact .inl ⟨_, rfl⟩
  | sysrepo error =>
      simp only [mappedErrorResponse, sysrepoErrorResponse]
      cases kind : error.code with
      | validationFailed =>
          by_cases root : path = str "/"
          · simp only [isAction, root, if_true]
            exact .inl ⟨_, rfl⟩
          · cases found : env.libyang.ctx.findPath path with
            | ok node =>
                simp only [isAction, root, if_false, found, raise]
                exact .inl ⟨_, rfl⟩
            | error failure =>
                refine .inr ⟨root, ⟨error, rfl, kind⟩, failure, rfl, ?_⟩
                simp only [isAction, root, if_false, found, raise]
                rfl
      | _ => exact .inl ⟨_, rfl⟩
  | _ => exact mapped.elim

theorem mappedErrorResponse_of_unmapped {path : Str} {exception : Exception}
    (unmapped : ¬exception.IsMapped) :
    mappedErrorResponse env path exception = .error exception := by
  cases exception with
  | errorResponse error => exact absurd trivial unmapped
  | libyang error => exact absurd trivial unmapped
  | sysrepo error => exact absurd trivial unmapped
  | _ => rfl

section Wrapper

variable {path : Str} {reject : ErrorResponse → Handler S Unit}

/-- A report raises nothing but exceptions of the server itself and of libyang, and what
it was to report if that is not mapped. -/
theorem raises_report (orderly : ∀ error exception, Raises (reject error) exception →
      exception.IsLocal) {caught exception : Exception}
    (raises : Raises (report env path reject caught) exception) :
    exception.IsLocal ∨ exception = caught ∧ ¬caught.IsMapped := by
  rcases raises.bind with mapping | ⟨error, _, raises⟩
  · by_cases mapped : caught.IsMapped
    · left
      rcases @mappedErrorResponse_of_isMapped S env path caught mapped with
        ⟨error, known⟩ | ⟨_, _, error, _, known⟩
      · rw [mapping.liftM] at known
        cases known
      · rw [mapping.liftM] at known
        cases known
        trivial
    · right
      have passed := @mappedErrorResponse_of_unmapped S env path caught mapped
      rw [mapping.liftM] at passed
      cases passed
      exact ⟨rfl, mapped⟩
  · exact .inl (orderly error exception raises)

theorem uniform_withRestconfExceptions {α : Type} {func : Handler S α} {before : α}
    (uniform : Uniform func) (reports : ∀ error, Reports (reject error)) :
    Uniform (withRestconfExceptions env path func reject before) :=
  .tryCatch uniform fun exception =>
    .bind (reports_report reports exception).uniform fun _ => .pure before

end Wrapper

end Reports

/-! ## PUT and plain PATCH -/

section Effects

variable {S : Type} {env : Env S} {exception : Exception}

theorem raiseSysrepo_eq_error {α : Type} {result : Except Sysrepo.ErrorWithCode α}
    (failed : raiseSysrepo result = .error exception) :
    ∃ error, result = .error error ∧ exception = .sysrepo error := by
  cases result with
  | ok value => cases failed
  | error error =>
      cases failed
      exact ⟨error, rfl, rfl⟩

theorem raises_editBatch {edit : Forest S} (raises : Raises (editBatch env edit) exception) :
    ∃ error, env.session.editBatch edit = .error error ∧ exception = .sysrepo error := by
  rcases raises.bind with recording | ⟨_, _, raises⟩
  · exact recording.modify.elim
  · exact raiseSysrepo_eq_error raises.liftM

theorem returns_editBatch {edit : Forest S} (returns : Returns (editBatch env edit) ()) :
    env.session.editBatch edit = .ok () := by
  obtain ⟨_, _, returns⟩ := returns.bind
  exact raiseSysrepo_eq_ok.mp returns.liftM

theorem raises_applyChanges {edit : Forest S}
    (raises : Raises (applyChanges env edit) exception) :
    ∃ error, env.session.applyChanges = .error error ∧ exception = .sysrepo error := by
  rcases raises.bind with applying | ⟨_, _, raises⟩
  · exact raiseSysrepo_eq_error applying.liftM
  · exact raises.modify.elim

/-- A response is written without an exception. -/
theorem not_raises_respond {code : Nat} {headers : List (Str × Str)} {body : Str} :
    ¬Raises (do writeHead code headers; endWith body : Handler S Unit) exception := by
  intro raises
  rcases raises.bind with writing | ⟨_, _, raises⟩
  · exact writing.modify
  · exact raises.modify

theorem uniform_editBatch (edit : Forest S) : Uniform (editBatch env edit) :=
  .bind (.modify _) fun _ => .liftM _

theorem uniform_applyChanges (edit : Forest S) : Uniform (applyChanges env edit) :=
  .bind (.liftM _) fun _ => .modify _

theorem uniform_replaceConfig (edit : Forest S) : Uniform (replaceConfig env edit) :=
  .bind (.modify _) fun _ => .bind (.liftM _) fun _ => .modify _

theorem uniform_respond {code : Nat} {headers : List (Str × Str)} {body : Str} :
    Uniform (do writeHead code headers; endWith body : Handler S Unit) :=
  .bind (.modify _) fun _ => .modify _

end Effects

section Put

variable {S : Type} [DecidableEq S] {env : Env S} {ctx : RequestContext} {exception : Exception}

omit [DecidableEq S] in
theorem uniform_processRoot : Uniform (processRoot env ctx) := by
  unfold processRoot
  refine .bind (.liftM _) fun edit => .bind (.liftM _) fun _ => .bind (.liftM _) fun _ => ?_
  split
  · exact .bind (uniform_replaceConfig edit) fun _ => uniform_respond
  · refine .bind (uniform_editBatch edit) fun _ => ?_
    exact .bind (uniform_applyChanges edit) fun _ => uniform_respond

theorem uniform_processPutOrPlainPatch : Uniform (processPutOrPlainPatch env ctx) := by
  unfold processPutOrPlainPatch
  split
  · exact uniform_processRoot
  · refine .bind (.liftM _) fun _ => .bind (.liftM _) fun data => .bind (.liftM _) fun _ => ?_
    refine .bind (builds_createEditForPutAndPatch ..).uniform fun nodes => ?_
    refine .bind (.liftM _) fun _ => .bind (.liftM _) fun annotated => ?_
    refine .bind (uniform_editBatch _) fun _ => .bind (uniform_applyChanges _) fun _ => ?_
    split
    · exact uniform_respond
    · exact uniform_respond

/-- A refusal of sysrepo leaves a `PUT` or a plain `PATCH`. -/
theorem Refuses.raises {error : Sysrepo.ErrorWithCode} (path : ctx.restconfRequest.path ≠ str "/")
    (refuses : Refuses env ctx error) :
    Raises (processPutOrPlainPatch env ctx) (.sysrepo error) := by
  unfold processPutOrPlainPatch
  rw [if_neg path]
  cases refuses with
  | lock locked => exact .of_bind_left (.of_liftM locked)
  | read locked refused =>
      apply Raises.of_bind_liftM locked
      apply Raises.of_bind_left
      exact .of_liftM (by rw [refused, raiseSysrepo])
  | @edit data nodes annotated locked read present created validated set refused =>
      apply Raises.of_bind_liftM locked
      apply Raises.of_bind_liftM (show raiseSysrepo _ = .ok data by rw [read, raiseSysrepo])
      apply Raises.of_bind_liftM (show require _ _ = .ok () from require_eq_ok.mpr present)
      refine .of_bind_right created ?_ ?_
      · refine .bind (.liftM _) fun _ => .bind (.liftM _) fun annotated => ?_
        refine .bind (uniform_editBatch _) fun _ => .bind (uniform_applyChanges _) fun _ => ?_
        split
        · exact uniform_respond
        · exact uniform_respond
      apply Raises.of_bind_liftM validated
      apply Raises.of_bind_liftM set
      rcases refused with batching | ⟨batched, applying⟩
      · apply Raises.of_bind_left
        refine ⟨World.initial, ?_⟩
        simp only [editBatch, exec_bind, exec_modify, exec_liftM, batching, raiseSysrepo]
      · refine ⟨World.initial, ?_⟩
        simp only [editBatch, applyChanges, exec_bind, exec_modify, exec_liftM, batched, applying,
          raiseSysrepo]

end Put

/-! ## YANG Patch -/

section Patch

variable {S : Type} [DecidableEq S] {env : Env S} {ctx : RequestContext} {exception : Exception}

/-- What an edit raises: something which the server itself or libyang raises, or it gets to
a key value which cannot be escaped. -/
theorem raises_processYangPatchEdit {edit : PatchEdit} (printed : edit.value ≠ .data (.ok none))
    (raises : Raises (processYangPatchEdit env ctx edit) exception) :
    exception.IsLocal ∨ ¬exception.IsMapped ∧ EditBreaks env ctx edit := by
  unfold processYangPatchEdit at raises
  rcases raises.bind with missing | ⟨target, targeted, raises⟩
  · exact .inl (throws_childLeafValue _ _ exception missing.liftM)
  rcases raises.bind with missing | ⟨operation, operated, raises⟩
  · exact .inl (throws_childLeafValue _ _ exception missing.liftM)
  rcases raises.bind with printing | ⟨value, valued, raises⟩
  · exact .inl (throws_yangPatchValueAsJSON printed exception printing.liftM)
  rcases raises.bind with creating | ⟨nodes, created, raises⟩
  · by_cases own : exception.IsLocal
    · exact .inl own
    · obtain ⟨unmapped, unbuildable⟩ := unbuildable_of_raises creating own
      exact .inr ⟨unmapped, target, operation, value, childLeafValue_eq_ok.mp targeted.liftM,
        childLeafValue_eq_ok.mp operated.liftM, valued.liftM, unbuildable⟩
  have nonempty : nodes.edit ≠ [] := by
    obtain ⟨_, returned⟩ := created
    exact edit_ne_nil_of_createEdit returned
  left
  rcases raises.bind with validating | ⟨_, _, raises⟩
  · exact (throws_validateInputMetaAttributes nonempty exception validating.liftM).isLocal
  rcases raises.bind with setting | ⟨annotated, _, raises⟩
  · have located := (created_of_returns created).located
    exact throws_setPatchOperation located exception setting.liftM
  · exact raises.pure.elim

theorem EditBreaks.raises {edit : PatchEdit} (breaks : EditBreaks env ctx edit) :
    ∃ exception, Raises (processYangPatchEdit env ctx edit) exception ∧ ¬exception.IsMapped := by
  obtain ⟨target, operation, value, targeted, operated, valued, unbuildable⟩ := breaks
  obtain ⟨exception, raises, unmapped⟩ := raises_of_unbuildable unbuildable
  refine ⟨exception, ?_, unmapped⟩
  unfold processYangPatchEdit
  apply Raises.of_bind_liftM (childLeafValue_eq_ok.mpr targeted)
  apply Raises.of_bind_liftM (childLeafValue_eq_ok.mpr operated)
  apply Raises.of_bind_liftM valued
  exact .of_bind_left raises

theorem uniform_merge {edit : PatchEdit} {mergedEdits : Forest S} :
    Uniform (do
      let singleEdit ← processYangPatchEdit env ctx edit
      return mergedEdits ++ singleEdit : Handler S (Forest S)) :=
  .bind (builds_processYangPatchEdit env ctx edit).uniform fun _ => .pure _

theorem uniform_processYangPatchEdits (patchId : Str) (edits : List PatchEdit)
    (mergedEdits : Forest S) :
    Uniform (processYangPatchEdits env ctx patchId mergedEdits edits) := by
  induction edits generalizing mergedEdits with
  | nil => exact .pure mergedEdits
  | cons edit rest ih =>
      unfold processYangPatchEdits
      refine .bind (.liftM _) fun editId => .bind ?_ ih
      exact uniform_withRestconfExceptions uniform_merge
        (reports_rejectYangPatchEdit patchId editId)

/-- A turn of the loop which returns: the edit went well, or its error was reported. -/
theorem completes_of_returns {patchId editId : Str} {edit : PatchEdit}
    {mergedEdits result : Forest S} (identified : edit.editId = some editId)
    (returns : Returns (withRestconfExceptions env ctx.restconfRequest.path
      (do
        let singleEdit ← processYangPatchEdit env ctx edit
        return mergedEdits ++ singleEdit)
      (rejectYangPatchEdit env ctx.toRequest patchId editId) mergedEdits) result) :
    Completes env ctx patchId [edit] := by
  obtain ⟨world, returned⟩ := returns
  intro other member
  cases List.mem_singleton.mp member
  refine ⟨editId, identified, ?_⟩
  intro exception failed
  obtain ⟨_, _, turn⟩ := exec_edit env ctx patchId editId edit mergedEdits world
  rcases turn with ⟨forest, processed, _⟩ | ⟨caught, raised, reported, _⟩ |
    ⟨_, _, _, _, turn⟩
  · rw [failed] at processed
    cases processed
  · rw [failed] at raised
    cases raised
    exact reported
  · rw [turn] at returned
    cases returned

omit [DecidableEq S] in
theorem ne_nil_of_patchStatus {patchId : Str} {document : Document}
    (built : patchStatus env patchId = .ok document) : document ≠ [] := by
  obtain ⟨_, _, built⟩ := except_bind_eq_ok.mp built
  obtain ⟨_, _, built⟩ := except_bind_eq_ok.mp built
  obtain ⟨rfl, _⟩ := extend_eq_ok built
  simp

theorem uniform_processYangPatchImpl (patch : Patch) (patchId : Str) :
    Uniform (processYangPatchImpl env ctx patch patchId) := by
  refine .bind (uniform_processYangPatchEdits patchId _ _) fun mergedEdits => ?_
  split
  · exact .bind (uniform_editBatch _) fun _ => uniform_applyChanges _
  · exact .pure ()

theorem uniform_processYangPatch : Uniform (processYangPatch env ctx) := by
  unfold processYangPatch
  refine .bind (.liftM _) fun found => ?_
  cases found with
  | none => exact .throw _
  | some patch =>
      refine .bind (.liftM _) fun patchId => .bind ?_ fun _ => ?_
      · exact uniform_withRestconfExceptions (uniform_processYangPatchImpl patch patchId)
          (reports_rejectYangPatch patchId)
      · refine .bind (.liftM _) fun _ => .bind (.modify _) fun _ => ?_
        exact .bind (.liftM _) fun _ => .bind (.liftM _) fun _ => .modify _

end Patch

end Rousette.Restconf.Server
