import Rousette.Restconf.DataPaths
import Rousette.Restconf.Server.Atomicity
import Rousette.Restconf.Server.Raised

/-!
# Errors of single edits

An error in an edit of a YANG Patch is reported in an entry of the status which has the edit-id
of the edit.  The edit-id comes from the client, and it is put into the path of the entry as it
is, between single quotes.
-/

namespace Rousette.Restconf.Server

open Library Libyang Program

/-! ## The path of the entry -/

/-- The container for the errors of an edit. -/
def editErrorsSteps (editId : Str) : List PathStep :=
  [⟨⟨some (str "ietf-yang-patch"), str "yang-patch-status"⟩, []⟩, ⟨⟨none, str "edit-status"⟩, []⟩,
    ⟨⟨none, str "edit"⟩, [(str "edit-id", editId)]⟩, ⟨⟨none, str "errors"⟩, []⟩]

/-- The container for the errors of a patch. -/
def patchErrorsSteps : List PathStep :=
  [⟨⟨some (str "ietf-yang-patch"), str "yang-patch-status"⟩, []⟩, ⟨⟨none, str "errors"⟩, []⟩]

/-- The path which `rejectYangPatch` makes for an edit. -/
def editErrorsPath (editId : Str) : Str :=
  str "/ietf-yang-patch:yang-patch-status/edit-status/edit[edit-id='" ++ editId ++ str "']/errors"

/-- The path which `rejectYangPatch` uses when there is no edit. -/
def patchErrorsPath : Str := str "/ietf-yang-patch:yang-patch-status/errors"

theorem isErrorsPath_edit (editId : Str) : IsErrorsPath (editErrorsPath editId) := .edit editId

theorem isErrorsPath_patch : IsErrorsPath patchErrorsPath := .patch

section Path

open Impl.Grammar DataPath

theorem read_patchErrorsPath : DataPath.read patchErrorsPath = some patchErrorsSteps := by
  decide

/-- A step without predicates has one text. -/
theorem text_of_value_nil {phrase : StepPhrase} {ident : ApiIdentifier}
    (value : phrase.value = ⟨ident, []⟩) : phrase.text = str "/" ++ ident.qualifiedName := by
  obtain ⟨name, predicates⟩ := phrase
  obtain ⟨rfl, none⟩ := PathStep.mk.inj value
  obtain rfl := List.map_eq_nil_iff.mp none
  rw [← name.text_eq, StepPhrase.text, List.flatMap_nil, List.append_nil]

/-- A step with one predicate has a choice of the quotes. -/
theorem text_of_value_singleton {phrase : StepPhrase} {ident : ApiIdentifier} {key keyValue : Str}
    (value : phrase.value = ⟨ident, [(key, keyValue)]⟩) :
    ∃ literal : Literal, literal.value = keyValue ∧
      phrase.text = str "/" ++ (ident.qualifiedName ++
        (str "[" ++ (key ++ (str "=" ++ (literal.text ++ str "]"))))) := by
  obtain ⟨name, predicates⟩ := phrase
  obtain ⟨rfl, one⟩ := PathStep.mk.inj value
  obtain ⟨⟨keyName, literal⟩, rfl, same⟩ := List.map_eq_singleton_iff.mp one
  obtain ⟨rfl, rfl⟩ := Prod.mk.inj same
  refine ⟨literal, rfl, ?_⟩
  rw [← name.text_eq, StepPhrase.text, List.flatMap_singleton, Predicate.text]

/-- The path, with the quotes apart from the rest. -/
theorem editErrorsPath_eq (editId : Str) :
    editErrorsPath editId =
      str "/ietf-yang-patch:yang-patch-status/edit-status/edit[edit-id=" ++
        ([singleQuote] ++ editId ++ [singleQuote] ++ str "]/errors") := by
  have opening : str "/ietf-yang-patch:yang-patch-status/edit-status/edit[edit-id='" =
      str "/ietf-yang-patch:yang-patch-status/edit-status/edit[edit-id=" ++ [singleQuote] := by
    decide
  have closing : str "']/errors" = [singleQuote] ++ str "]/errors" := by decide
  rw [editErrorsPath, opening, closing]
  simp only [List.append_assoc]

/-- The steps of the path, up to the literal. -/
def editErrorsPhrases (literal : Literal) : List StepPhrase :=
  [(⟨some ⟨chr 'i', str "etf-yang-patch", rfl, List.all_eq_true.mp rfl⟩,
      ⟨chr 'y', str "ang-patch-status", rfl, List.all_eq_true.mp rfl⟩⟩, []),
    (⟨none, ⟨chr 'e', str "dit-status", rfl, List.all_eq_true.mp rfl⟩⟩, []),
    (⟨none, ⟨chr 'e', str "dit", rfl, List.all_eq_true.mp rfl⟩⟩,
      [(.inr ⟨chr 'e', str "dit-id", rfl, List.all_eq_true.mp rfl⟩, literal)]),
    (⟨none, ⟨chr 'e', str "rrors", rfl, List.all_eq_true.mp rfl⟩⟩, [])]

theorem text_editErrorsPhrases (literal : Literal) :
    (editErrorsPhrases literal).flatMap StepPhrase.text =
      str "/ietf-yang-patch:yang-patch-status/edit-status/edit[edit-id=" ++
        (literal.text ++ str "]/errors") := by
  simp only [editErrorsPhrases, List.flatMap_cons, List.flatMap_nil, StepPhrase.text,
    Predicate.text, List.append_assoc]
  rfl

theorem read_editErrorsPath {editId : Str} (plain : singleQuote ∉ editId) :
    DataPath.read (editErrorsPath editId) = some (editErrorsSteps editId) := by
  have known := read_flatMap (editErrorsPhrases (.inl ⟨editId, plain⟩))
  rw [text_editErrorsPhrases] at known
  rw [editErrorsPath_eq]
  exact known

/-- No path with a single quote in the edit-id names the entry of the edit. -/
theorem plain_of_read_editErrorsPath {editId : Str}
    (known : DataPath.read (editErrorsPath editId) = some (editErrorsSteps editId)) :
    singleQuote ∉ editId := by
  obtain ⟨phrases, text, values⟩ := exists_of_read known
  -- four steps, of which the third has one predicate
  obtain ⟨status, phrases, rfl, first, values⟩ := List.map_eq_cons_iff.mp values
  obtain ⟨editStatus, phrases, rfl, second, values⟩ := List.map_eq_cons_iff.mp values
  obtain ⟨edit, phrases, rfl, third, values⟩ := List.map_eq_cons_iff.mp values
  obtain ⟨errors, phrases, rfl, fourth, values⟩ := List.map_eq_cons_iff.mp values
  obtain rfl := List.map_eq_nil_iff.mp values
  obtain ⟨literal, rfl, written⟩ := text_of_value_singleton third
  have shape : [status, editStatus, edit, errors].flatMap StepPhrase.text =
      str "/ietf-yang-patch:yang-patch-status/edit-status/edit[edit-id=" ++
        (literal.text ++ str "]/errors") := by
    simp only [List.flatMap_cons, List.flatMap_nil, text_of_value_nil first,
      text_of_value_nil second, written, text_of_value_nil fourth, List.append_assoc]
    rfl
  rw [shape, editErrorsPath_eq] at text
  have quotes := List.append_cancel_left text
  rcases literal with ⟨plain, noQuote⟩ | ⟨plain, noQuote⟩
  · exact noQuote
  · cases (List.cons.inj quotes).1

end Path

/-! ## The documents -/

section Documents

variable {S : Type} (env : Env S)

/-- The document of an error below the status of a patch. -/
def statusDocument (container patchId : Str) (error : ErrorResponse) :
    Except Exception Document := do
  let document ← extend env [] (.newPath [] container none)
  let document ← extend env document
    (.newPath (str "/ietf-yang-patch:yang-patch-status") (str "patch-id") (some patchId))
  let document ← extendAll env container document (errorLeafs error)
  extendErrorInfo env document container error.errorInfo

/-- What is in the document: the container, the patch-id, and the error inside of the
container. -/
def reportDocument (container patchId : Str) (error : ErrorResponse) : Document :=
  [.newPath [] container none,
    .newPath (str "/ietf-yang-patch:yang-patch-status") (str "patch-id") (some patchId)] ++
    (errorLeafs error).map (fun leaf => .newPath container leaf.1 leaf.2) ++
    error.errorInfo.toList.map fun info =>
      .newAny container (str "error[1]/error-info")
        (info.leafs.map fun leaf => (leaf.1, some leaf.2))

/-- libyang takes the report of the error in the container: it creates the container, and the
patch-id and the texts of the error are values of the types which the leafs have. -/
def Reportable (container patchId : Str) (error : ErrorResponse) : Prop :=
  ∃ document, statusDocument env container patchId error = .ok document

/-- What libyang promises about the status of a patch: a container which was created is found,
what there is is printed, and the text with the entry of an edit tells this entry from those of
other edits, from the errors of the patch, and from an error of the request. -/
structure StatusDocuments (format : DataFormat) : Prop where
  finds : ∀ path, IsErrorsPath path → env.libyang.extend [] (.newPath [] path none) = .ok () →
    env.libyang.findXPath [.newPath [] path none] path = .ok true
  prints : ∀ document, document ≠ [] →
    ∃ text, env.libyang.printDocument document format = .ok (some text)
  values : ∀ {text format patch}, env.libyang.parsePatch text format = .ok (some patch) →
    ∀ edit ∈ patch.edits, edit.value ≠ .data (.ok none)
  faithful : ∀ {editId container other patchId otherId error otherError text},
    DataPath.read container = some (editErrorsSteps editId) → IsErrorsPath other →
      env.libyang.printDocument (reportDocument container patchId error) format =
        .ok (some text) →
      env.libyang.printDocument (reportDocument other otherId otherError) format =
        .ok (some text) → DataPath.read other = some (editErrorsSteps editId)
  apart : ∀ {editId container patchId error otherError document text},
    DataPath.read container = some (editErrorsSteps editId) →
      env.libyang.printDocument (reportDocument container patchId error) format =
        .ok (some text) →
      errorDocument env otherError = .ok document →
      env.libyang.printDocument document format ≠ .ok (some text)

variable {env}

theorem statusDocument_eq_ok {container patchId : Str} {error : ErrorResponse}
    {document : Document} (built : statusDocument env container patchId error = .ok document) :
    document = reportDocument container patchId error := by
  simp only [statusDocument, except_bind_eq_ok] at built
  obtain ⟨first, created, second, identified, third, leafs, informed⟩ := built
  obtain ⟨rfl, _⟩ := extend_eq_ok created
  obtain ⟨rfl, _⟩ := extend_eq_ok identified
  obtain rfl := extendAll_eq_ok leafs
  rw [extendErrorInfo_eq_ok informed, reportDocument]
  rfl

/-- The document of an error of the request begins with the container for it. -/
theorem errorDocument_eq_ok {error : ErrorResponse} {document : Document}
    (built : errorDocument env error = .ok document) :
    ∃ rest, document = .newPath [] (str "/ietf-restconf:errors") none :: rest := by
  simp only [errorDocument, except_bind_eq_ok] at built
  obtain ⟨first, created, second, leafs, informed⟩ := built
  obtain ⟨rfl, _⟩ := extend_eq_ok created
  obtain rfl := extendAll_eq_ok leafs
  exact ⟨_, extendErrorInfo_eq_ok informed⟩

/-- A report in the status of a patch is written exactly if libyang takes it. -/
theorem exec_rejectInStatus {req : Request} (documents : StatusDocuments env req.responseFormat)
    {container : Str} (isErrors : IsErrorsPath container) (patchId : Str) (error : ErrorResponse)
    (world : World S) :
    (Reportable env container patchId error ∧
      ∃ after text, exec (rejectInStatus env req patchId container error) world = (.ok (), after) ∧
        after.body = world.body.or (some text) ∧
        env.libyang.printDocument (reportDocument container patchId error) req.responseFormat =
          .ok (some text)) ∨
    ¬Reportable env container patchId error ∧
      ∃ refused, exec (rejectInStatus env req patchId container error) world =
        (.error (.libyang refused), world) := by
  have unreported : ∀ exception, exception.IsLibyang →
      statusDocument env container patchId error = .error exception →
      exec (rejectInStatus env req patchId container error) world = (.error exception, world) →
      ¬Reportable env container patchId error ∧
        ∃ refused, exec (rejectInStatus env req patchId container error) world =
          (.error (.libyang refused), world) := by
    intro exception raised unbuilt run
    refine ⟨?_, ?_⟩
    · rintro ⟨document, built⟩
      cases built.symm.trans unbuilt
    · cases exception with
      | libyang refused => exact ⟨refused, run⟩
      | _ => exact raised.elim
  cases created : extend env [] (.newPath [] container none) with
  | error exception =>
      refine .inr (unreported exception (throws_extend _ _ _ created) ?_ ?_)
      · rw [statusDocument, created]
        rfl
      · rw [rejectInStatus, exec_bind, exec_liftM, created]
  | ok first =>
  have found := documents.finds container isErrors (extend_eq_ok created).2
  have shape : first = [.newPath [] container none] := (extend_eq_ok created).1
  rw [← shape] at found
  cases identified : extend env first
    (.newPath (str "/ietf-yang-patch:yang-patch-status") (str "patch-id") (some patchId)) with
  | error exception =>
      refine .inr (unreported exception (throws_extend _ _ _ identified) ?_ ?_)
      · rw [statusDocument, created, except_ok_bind, identified]
        rfl
      · simp only [rejectInStatus, exec_bind, exec_liftM, created, found, raise, require, if_true,
          identified]
  | ok second =>
  cases leafs : extendAll env container second (errorLeafs error) with
  | error exception =>
      refine .inr (unreported exception (throws_extendAll _ _ _ _ leafs) ?_ ?_)
      · rw [statusDocument, created, except_ok_bind, identified, except_ok_bind, leafs]
        rfl
      · simp only [rejectInStatus, rejectWithErrorImpl, exec_bind, exec_liftM, created, found,
          raise, require, if_true, identified, leafs]
  | ok third =>
  cases informed : extendErrorInfo env third container error.errorInfo with
  | error exception =>
      refine .inr (unreported exception (throws_extendErrorInfo _ _ _ _ informed) ?_ ?_)
      · rw [statusDocument, created, except_ok_bind, identified, except_ok_bind, leafs,
          except_ok_bind, informed]
      · simp only [rejectInStatus, rejectWithErrorImpl, exec_bind, exec_liftM, created, found,
          raise, require, if_true, identified, leafs, informed]
  | ok document =>
      have built : statusDocument env container patchId error = .ok document := by
        rw [statusDocument, created, except_ok_bind, identified, except_ok_bind, leafs,
          except_ok_bind, informed]
      obtain ⟨text, printed⟩ := documents.prints document (ne_nil_of_extendErrorInfo leafs informed)
      obtain ⟨headers, heading⟩ := @errorHeaders_isOk S env req error.code
      refine .inl ⟨⟨document, built⟩, { world with
        head := world.head.or (some (error.code.toNat, headers)),
        body := world.body.or (some text) }, text, ?_, rfl, ?_⟩
      · simp only [rejectInStatus, rejectWithErrorImpl, exec_bind, exec_liftM, created, found,
          raise, require, if_true, identified, leafs, informed, heading, writeHead, exec_modify,
          printed, deref, endWith]
      · rwa [← statusDocument_eq_ok built]

/-- What is delivered for an error of the request is a document of its own, if anything is. -/
theorem body_rejectWithError {req : Request} {error : ErrorResponse} {world : World S} {text : Str}
    (noBody : world.body = none)
    (delivered : (exec (rejectWithError env req error) world).2.body = some text) :
    ∃ document, errorDocument env error = .ok document ∧
      env.libyang.printDocument document req.responseFormat = .ok (some text) := by
  rw [rejectWithError, exec_bind, exec_liftM] at delivered
  cases created : extend env [] (.newPath [] (str "/ietf-restconf:errors") none) with
  | error exception =>
      rw [created] at delivered
      cases noBody.symm.trans delivered
  | ok first =>
  rw [created] at delivered
  simp only [rejectWithErrorImpl, exec_bind, exec_liftM] at delivered
  cases leafs : extendAll env (str "/ietf-restconf:errors") first (errorLeafs error) with
  | error exception =>
      rw [leafs] at delivered
      cases noBody.symm.trans delivered
  | ok second =>
  rw [leafs] at delivered
  dsimp only at delivered
  cases informed : extendErrorInfo env second (str "/ietf-restconf:errors") error.errorInfo with
  | error exception =>
      rw [informed] at delivered
      cases noBody.symm.trans delivered
  | ok document =>
      obtain ⟨headers, heading⟩ := @errorHeaders_isOk S env req error.code
      refine ⟨document, ?_, ?_⟩
      · rw [errorDocument, created, except_ok_bind, leafs, except_ok_bind, informed]
      · rw [informed] at delivered
        simp only [heading, writeHead, exec_modify] at delivered
        cases printed : env.libyang.printDocument document req.responseFormat with
        | error failure =>
            rw [printed] at delivered
            cases noBody.symm.trans delivered
        | ok result =>
            rw [printed] at delivered
            cases result with
            | none => cases noBody.symm.trans delivered
            | some printed =>
                simp only [raise, deref, endWith, exec_modify, noBody, Option.none_or] at delivered
                rw [Option.some.inj delivered]

end Documents

/-! ## The first body is delivered -/

section Bodies

variable {S : Type}

/-- The body was written, and this is what was written first. -/
def BodyIs (text : Str) (world : World S) : Prop := world.body = some text

/-- The body which is there stays. -/
abbrev KeepsBody {α : Type} (program : Handler S α) : Prop :=
  ∀ text, Keeps (fun before after => BodyIs text before → BodyIs text after) program

namespace KeepsBody

variable {α β : Type}

theorem pure (value : α) : KeepsBody (Pure.pure value : Handler S α) := fun _ _ => id

theorem liftM (result : Except Exception α) :
    KeepsBody (MonadLiftT.monadLift result : Handler S α) :=
  fun _ _ => id

theorem bind {first : Handler S α} {second : α → Handler S β} (keeps : KeepsBody first)
    (keepsSecond : ∀ value, KeepsBody (second value)) : KeepsBody (first >>= second) :=
  fun text => .bind_property (keeps text) fun value => keepsSecond value text

theorem tryCatch {program : Handler S α} {handler : Exception → Handler S α}
    (keeps : KeepsBody program) (keepsHandler : ∀ exception, KeepsBody (handler exception)) :
    KeepsBody (MonadExcept.tryCatch program handler) :=
  fun text => .tryCatch (fun before after there => after (before there)) (keeps text)
    fun exception => keepsHandler exception text

end KeepsBody

theorem keepsBody_writeHead (code : Nat) (headers : List (Str × Str)) :
    KeepsBody (writeHead code headers : Handler S Unit) :=
  fun _ _ => id

theorem keepsBody_endWith (body : Str) : KeepsBody (endWith body : Handler S Unit) := by
  intro text world there
  rw [BodyIs] at there ⊢
  simp [endWith, there]

theorem Builds.keepsBody {α : Type} {program : Handler S α} (builds : Builds program) :
    KeepsBody program := by
  intro text world there
  obtain ⟨checks, after⟩ := builds.checks world
  rw [after]
  exact there

variable {env : Env S} {req : Request}

theorem keepsBody_rejectWithErrorImpl (document : Document) (container : Str)
    (error : ErrorResponse) :
    KeepsBody (rejectWithErrorImpl env req document container error) := by
  unfold rejectWithErrorImpl
  refine .bind (.liftM _) fun _ => .bind (.liftM _) fun _ => .bind (.liftM _) fun _ => ?_
  refine .bind (keepsBody_writeHead _ _) fun _ => ?_
  exact .bind (.liftM _) fun _ => .bind (.liftM _) fun _ => keepsBody_endWith _

theorem keepsBody_rejectInStatus (patchId container : Str) (error : ErrorResponse) :
    KeepsBody (rejectInStatus env req patchId container error) := by
  unfold rejectInStatus
  refine .bind (.liftM _) fun _ => .bind (.liftM _) fun _ => .bind (.liftM _) fun _ => ?_
  exact .bind (.liftM _) fun _ => keepsBody_rejectWithErrorImpl _ _ _

theorem keepsBody_rejectWithError (error : ErrorResponse) :
    KeepsBody (rejectWithError env req error) :=
  .bind (.liftM _) fun _ => keepsBody_rejectWithErrorImpl _ _ _

theorem keepsBody_report {path : Str} {reject : ErrorResponse → Handler S Unit}
    (keeps : ∀ error, KeepsBody (reject error)) (exception : Exception) :
    KeepsBody (report env path reject exception) :=
  .bind (.liftM _) keeps

theorem keepsBody_withRestconfExceptions {α : Type} {path : Str} {func : Handler S α}
    {reject : ErrorResponse → Handler S Unit} {before : α} (keepsFunc : KeepsBody func)
    (keeps : ∀ error, KeepsBody (reject error)) :
    KeepsBody (withRestconfExceptions env path func reject before) :=
  .tryCatch keepsFunc fun exception =>
    .bind (keepsBody_report keeps exception) fun _ => .pure before

theorem keepsBody_processYangPatchEdits [DecidableEq S] {ctx : RequestContext} (patchId : Str)
    (edits : List PatchEdit) (mergedEdits : Forest S) :
    KeepsBody (processYangPatchEdits env ctx patchId mergedEdits edits) := by
  induction edits generalizing mergedEdits with
  | nil => exact .pure mergedEdits
  | cons edit rest ih =>
      unfold processYangPatchEdits
      refine .bind (.liftM _) fun editId => .bind ?_ ih
      refine keepsBody_withRestconfExceptions ?_ fun error => keepsBody_rejectInStatus _ _ _
      exact .bind (builds_processYangPatchEdit env ctx edit).keepsBody fun _ => .pure _

theorem keepsBody_applyEdits (edit : Forest S) :
    KeepsBody (do editBatch env edit; applyChanges env edit : Handler S Unit) := by
  refine .bind (.bind (fun _ _ => id) fun _ => .liftM _) fun _ => ?_
  exact .bind (.liftM _) fun _ _ _ => id

theorem keepsBody_reportPatchOk {ctx : RequestContext} (patchId : Str) :
    KeepsBody (reportPatchOk env ctx patchId) := by
  unfold reportPatchOk
  refine .bind (.liftM _) fun _ => .bind (keepsBody_writeHead _ _) fun _ => ?_
  exact .bind (.liftM _) fun _ => .bind (.liftM _) fun _ => keepsBody_endWith _

end Bodies

/-! ## The first edit which fails -/

section Runs

variable {S : Type} [DecidableEq S] (env : Env S) (ctx : RequestContext)

/-- The edits were processed without an error. -/
def AllProcessed (edits : List PatchEdit) : Prop :=
  ∀ edit ∈ edits, edit.editId.isSome = true ∧ Succeeds env ctx edit

/-- What is delivered is the status of the patch, with the error in the entry for the edit. -/
def Attributed (patchId editId : Str) (error : ErrorResponse) : Prop :=
  ∃ container text, DataPath.read container = some (editErrorsSteps editId) ∧
    env.libyang.printDocument (reportDocument container patchId error) ctx.responseFormat =
      .ok (some text) ∧
    (afterPatch env ctx).body = some text

variable {env ctx}

omit [DecidableEq S] in
theorem ChecksOnly.body {before after : World S} :
    ChecksOnly before after → after.body = before.body := by
  rintro ⟨checks, rfl⟩
  rfl

/-- The loop gets past the edits which are processed, and has not begun a response then. -/
theorem exec_edits_processed (patchId : Str) {edits : List PatchEdit}
    (processed : AllProcessed env ctx edits) (rest : List PatchEdit) (mergedEdits : Forest S)
    (world : World S) :
    ∃ merged middle, ChecksOnly world middle ∧
      exec (processYangPatchEdits env ctx patchId mergedEdits (edits ++ rest)) world =
        exec (processYangPatchEdits env ctx patchId merged rest) middle := by
  induction edits generalizing mergedEdits world with
  | nil => exact ⟨mergedEdits, world, .refl world, rfl⟩
  | cons edit edits ih =>
      obtain ⟨⟨identified, forest, good⟩, others⟩ := List.forall_mem_cons.mp processed
      obtain ⟨editId, identified⟩ := Option.isSome_iff_exists.mp identified
      obtain ⟨after, checks, run⟩ := exec_processYangPatchEdit env ctx edit world
      obtain ⟨merged, middle, further, remaining⟩ := ih others (mergedEdits ++ forest) after
      refine ⟨merged, middle, checks.trans further, ?_⟩
      have returned : exec (do
          let singleEdit ← processYangPatchEdit env ctx edit
          return mergedEdits ++ singleEdit : Handler S (Forest S)) world =
          (.ok (mergedEdits ++ forest), after) := by
        simp only [exec_bind, run, good, exec_pure]
      rw [List.cons_append, exec_edits_cons env ctx patchId identified, exec_bind,
        exec_withRestconfExceptions_ok returned]
      exact remaining

/-- The first edit which fails is reported before any response has been begun. -/
theorem exec_edits_failing (patchId : Str) {before after : List PatchEdit} {edit : PatchEdit}
    {editId : Str} {exception : Exception} (processed : AllProcessed env ctx before)
    (identified : edit.editId = some editId)
    (failed : editOutcome env ctx edit = .error exception) :
    ∃ (merged : Forest S) (middle : World S), middle.body = none ∧
      exec (processYangPatchEdits env ctx patchId [] (before ++ edit :: after)) World.initial =
        match exec (report env ctx.restconfRequest.path
          (rejectYangPatchEdit env ctx.toRequest patchId editId) exception) middle with
        | (.ok _, reported) => exec (processYangPatchEdits env ctx patchId merged after) reported
        | (.error other, reported) => (.error other, reported) := by
  obtain ⟨merged, world, checks, run⟩ :=
    exec_edits_processed patchId processed (edit :: after) [] World.initial
  obtain ⟨middle, further, turn⟩ := exec_processYangPatchEdit env ctx edit world
  refine ⟨merged, middle, (checks.trans further).body, ?_⟩
  have raised : exec (do
      let singleEdit ← processYangPatchEdit env ctx edit
      return merged ++ singleEdit : Handler S (Forest S)) world = (.error exception, middle) := by
    simp only [exec_bind, turn, failed]
  rw [run, exec_edits_cons env ctx patchId identified, exec_bind,
    exec_withRestconfExceptions_error raised]
  rcases exec (report env ctx.restconfRequest.path
    (rejectYangPatchEdit env ctx.toRequest patchId editId) exception) middle with
      ⟨other | _, reported⟩ <;> rfl

/-- An exception of an edit is one which is reported, unless a key cannot be escaped. -/
theorem isLocal_iff_not_editBreaks {edit : PatchEdit} {exception : Exception}
    (printed : edit.value ≠ .data (.ok none))
    (failed : editOutcome env ctx edit = .error exception) :
    exception.IsLocal ↔ ¬EditBreaks env ctx edit := by
  constructor
  · intro own breaks
    obtain ⟨other, ⟨world, raised⟩, unmapped⟩ := breaks.raises
    have uniform := (builds_processYangPatchEdit env ctx edit).uniform world World.initial
    rw [raised] at uniform
    have same : Except.error other = Except.error exception := uniform.trans failed
    cases same
    exact unmapped own.isMapped
  · intro intact
    rcases raises_processYangPatchEdit printed ⟨World.initial, failed⟩ with own | ⟨_, breaks⟩
    · exact own
    · exact absurd breaks intact

omit [DecidableEq S] in
theorem mappedErrorResponse_of_isLocal {path : Str} {exception : Exception}
    (own : exception.IsLocal) : ∃ error, mappedErrorResponse env path exception = .ok error := by
  cases exception with
  | errorResponse error => exact ⟨error, rfl⟩
  | libyang error => exact ⟨libyangErrorResponse error, rfl⟩
  | _ => exact own.elim

/-- The body which is written for the edits is the one which is delivered. -/
theorem bodyIs_afterPatch_of_impl {patch : Patch} {patchId text : Str}
    (parsed : env.libyang.parsePatch ctx.payload ctx.requestFormat = .ok (some patch))
    (identified : patch.patchId = some patchId)
    (reached : BodyIs text (exec (withRestconfExceptions env ctx.restconfRequest.path
      (processYangPatchImpl env ctx patch patchId) (rejectYangPatch env ctx.toRequest patchId) ())
      World.initial).2) :
    BodyIs text (afterPatch env ctx) := by
  have whole : BodyIs text (exec (processYangPatch env ctx) World.initial).2 := by
    rw [exec_processYangPatch env ctx parsed identified]
    exact Keeps.reached_bind reached fun _ => keepsBody_reportPatchOk patchId text
  refine Keeps.reached_tryCatch whole fun exception => ?_
  exact KeepsBody.bind (keepsBody_report keepsBody_rejectWithError exception)
    (fun _ => .pure ()) text

theorem bodyIs_afterPatch_of_edits {patch : Patch} {patchId text : Str}
    (parsed : env.libyang.parsePatch ctx.payload ctx.requestFormat = .ok (some patch))
    (identified : patch.patchId = some patchId)
    (reached : BodyIs text
      (exec (processYangPatchEdits env ctx patchId [] patch.edits) World.initial).2) :
    BodyIs text (afterPatch env ctx) := by
  have processed :
      BodyIs text (exec (processYangPatchImpl env ctx patch patchId) World.initial).2 := by
    unfold processYangPatchImpl
    refine Keeps.reached_bind reached fun merged => ?_
    split
    · exact keepsBody_applyEdits merged text
    · exact KeepsBody.pure () text
  refine bodyIs_afterPatch_of_impl parsed identified (Keeps.reached_tryCatch processed ?_)
  intro exception
  exact KeepsBody.bind (keepsBody_report (fun _ => keepsBody_rejectInStatus _ _ _) exception)
    (fun _ => .pure ()) text

/-- The error of an edit which is reported in the entry for the edit is delivered. -/
theorem delivered_in_entry {patch : Patch} {patchId editId text : Str} {after : List PatchEdit}
    {merged : Forest S} {middle reported : World S} {error : ErrorResponse}
    (parsed : env.libyang.parsePatch ctx.payload ctx.requestFormat = .ok (some patch))
    (identified : patch.patchId = some patchId) (noBody : middle.body = none)
    (run : exec (processYangPatchEdits env ctx patchId [] patch.edits) World.initial =
      match exec (rejectInStatus env ctx.toRequest patchId (editErrorsPath editId) error)
        middle with
      | (.ok _, reported) => exec (processYangPatchEdits env ctx patchId merged after) reported
      | (.error other, reported) => (.error other, reported))
    (rejected : exec (rejectInStatus env ctx.toRequest patchId (editErrorsPath editId) error)
      middle = (.ok (), reported))
    (body : reported.body = middle.body.or (some text)) : BodyIs text (afterPatch env ctx) := by
  refine bodyIs_afterPatch_of_edits parsed identified ?_
  rw [run, rejected]
  refine keepsBody_processYangPatchEdits patchId after merged text reported ?_
  rw [BodyIs, body, noBody, Option.none_or]

/-- If it is not reported there, then the error of libyang is delivered in its place: in the
status of the whole patch, or as an error of the request, if anything is delivered. -/
theorem delivered_outside (documents : StatusDocuments env ctx.responseFormat) {patch : Patch}
    {patchId text : Str} {middle : World S} {refused : Libyang.ErrorWithCode}
    (parsed : env.libyang.parsePatch ctx.payload ctx.requestFormat = .ok (some patch))
    (identified : patch.patchId = some patchId) (noBody : middle.body = none)
    (run : exec (processYangPatchEdits env ctx patchId [] patch.edits) World.initial =
      (.error (.libyang refused), middle))
    (delivered : BodyIs text (afterPatch env ctx)) :
    (∃ error, env.libyang.printDocument (reportDocument patchErrorsPath patchId error)
        ctx.responseFormat = .ok (some text)) ∨
      ∃ error document, errorDocument env error = .ok document ∧
        env.libyang.printDocument document ctx.responseFormat = .ok (some text) := by
  have raised : exec (processYangPatchImpl env ctx patch patchId) World.initial =
      (.error (.libyang refused), middle) := by
    rw [processYangPatchImpl, exec_bind, run]
  have wrapped := @exec_withRestconfExceptions_error S env Unit ctx.restconfRequest.path _
    (rejectYangPatch env ctx.toRequest patchId) () _ _ _ raised
  have reporting : exec (report env ctx.restconfRequest.path
      (rejectYangPatch env ctx.toRequest patchId) (.libyang refused)) middle =
        exec (rejectInStatus env ctx.toRequest patchId patchErrorsPath
          (libyangErrorResponse refused)) middle := rfl
  rw [reporting] at wrapped
  rcases exec_rejectInStatus documents isErrorsPath_patch patchId (libyangErrorResponse refused)
    middle with ⟨_, reported, text', rejected, body, shown⟩ | ⟨_, again, rejected⟩
  · have instead : BodyIs text' (afterPatch env ctx) := by
      refine bodyIs_afterPatch_of_impl parsed identified ?_
      rw [wrapped, rejected]
      rw [BodyIs, body, noBody, Option.none_or]
    obtain rfl : text = text' := Option.some.inj (delivered.symm.trans instead)
    exact .inl ⟨_, shown⟩
  · -- the error of libyang cannot be reported in the status either
    rw [rejected] at wrapped
    have failed : exec (processYangPatch env ctx) World.initial =
        (.error (.libyang again), middle) := by
      rw [exec_processYangPatch env ctx parsed identified, exec_bind, wrapped]
    have whole := @exec_withRestconfExceptions_error S env Unit ctx.restconfRequest.path _
      (rejectWithError env ctx.toRequest) () _ _ _ failed
    have outer : exec (report env ctx.restconfRequest.path (rejectWithError env ctx.toRequest)
        (.libyang again)) middle =
          exec (rejectWithError env ctx.toRequest (libyangErrorResponse again)) middle := rfl
    have last : (afterPatch env ctx).body =
        (exec (rejectWithError env ctx.toRequest (libyangErrorResponse again)) middle).2.body := by
      rw [afterPatch, reportExceptions, whole, outer]
      rcases exec (rejectWithError env ctx.toRequest (libyangErrorResponse again)) middle with
        ⟨other | _, after⟩ <;> rfl
    rw [BodyIs, last] at delivered
    obtain ⟨document, built, shown⟩ := body_rejectWithError noBody delivered
    exact .inr ⟨_, document, built, shown⟩

/-- The error of the first edit which fails is delivered in the entry for the edit, exactly if
there is no single quote in its edit-id, the edit does not get to a key which cannot be escaped,
and libyang takes the report of the error. -/
theorem attributed_iff (documents : StatusDocuments env ctx.responseFormat) {patch : Patch}
    {patchId editId : Str} {before after : List PatchEdit} {edit : PatchEdit}
    {exception : Exception}
    (parsed : env.libyang.parsePatch ctx.payload ctx.requestFormat = .ok (some patch))
    (identified : patch.patchId = some patchId) (edits : patch.edits = before ++ edit :: after)
    (processed : AllProcessed env ctx before) (named : edit.editId = some editId)
    (failed : editOutcome env ctx edit = .error exception) :
    (∃ error, mappedErrorResponse env ctx.restconfRequest.path exception = .ok error ∧
        Attributed env ctx patchId editId error) ↔
      singleQuote ∉ editId ∧ ¬EditBreaks env ctx edit ∧
        ∀ error, mappedErrorResponse env ctx.restconfRequest.path exception = .ok error →
          Reportable env (editErrorsPath editId) patchId error := by
  obtain ⟨merged, middle, noBody, run⟩ := @exec_edits_failing S _ env ctx patchId before after edit
    editId exception processed named failed
  have printed := documents.values parsed edit (edits ▸ by simp)
  rw [← edits] at run
  rw [← isLocal_iff_not_editBreaks printed failed]
  by_cases own : exception.IsLocal
  case neg =>
    refine iff_of_false ?_ fun condition => own condition.2.1
    rintro ⟨error, mapped, _⟩
    rcases raises_processYangPatchEdit printed ⟨World.initial, failed⟩ with own' | ⟨unmapped, _⟩
    · exact own own'
    · rw [mappedErrorResponse_of_unmapped unmapped] at mapped
      cases mapped
  obtain ⟨error, mapped⟩ :=
    @mappedErrorResponse_of_isLocal S env ctx.restconfRequest.path exception own
  have reporting : exec (report env ctx.restconfRequest.path
      (rejectYangPatchEdit env ctx.toRequest patchId editId) exception) middle =
        exec (rejectInStatus env ctx.toRequest patchId (editErrorsPath editId) error) middle := by
    rw [report, exec_bind, exec_liftM, mapped]
    rfl
  rw [reporting] at run
  rcases exec_rejectInStatus documents (isErrorsPath_edit editId) patchId error middle with
    ⟨reportable, reported, text, rejected, body, shown⟩ | ⟨unreportable, refused, rejected⟩
  · have delivered := delivered_in_entry parsed identified noBody run rejected body
    constructor
    case mp =>
      rintro ⟨error', _, container, text', known, shown', body'⟩
      obtain rfl : text = text' := Option.some.inj (delivered.symm.trans body')
      refine ⟨plain_of_read_editErrorsPath ?_, own, ?_⟩
      · exact documents.faithful known (isErrorsPath_edit editId) shown' shown
      · intro other same
        cases mapped.symm.trans same
        exact reportable
    case mpr =>
      rintro ⟨plain, _⟩
      exact ⟨error, mapped, editErrorsPath editId, text, read_editErrorsPath plain, shown,
        delivered⟩
  · refine iff_of_false ?_ fun condition => unreportable (condition.2.2 error mapped)
    rintro ⟨error', _, container, text, known, shown, body⟩
    rw [rejected] at run
    rcases delivered_outside documents parsed identified noBody run body with
      ⟨_, instead⟩ | ⟨_, document, built, instead⟩
    · have same := documents.faithful known isErrorsPath_patch shown instead
      cases read_patchErrorsPath.symm.trans same
    · exact documents.apart known shown built instead

end Runs

/-! ## An edit without an operation -/

namespace MissingOperation

/-- A patch with one edit, which has no operation. -/
def patch (editId : String) : Patch where
  patchId := some (str "patch")
  edits := [⟨some (str editId), some (str "/example:top-level-leaf"), none, none, none, .absent⟩]

def error : ErrorResponse :=
  ⟨400, str "protocol", str "invalid-value", str "Expected data node 'operation' not found.",
    none, none⟩

/-- The status with the error in the entry of the edit, as JSON. -/
def json : Str :=
  chr '\x7b' :: str ("\"ietf-yang-patch:yang-patch-status\":\x7b\"patch-id\":\"patch\"," ++
    "\"edit-status\":\x7b\"edit\":[\x7b\"edit-id\":\"edit1\",\"errors\":\x7b\"error\":" ++
    "[\x7b\"error-type\":\"protocol\",\"error-tag\":\"invalid-value\"," ++
    "\"error-message\":\"Expected data node 'operation' not found.\"\x7d]\x7d\x7d]\x7d\x7d\x7d")

/-- Other documents are printed as the path of what was created first, behind a mark. -/
def printDocument (document : Document) : Str :=
  if document = reportDocument (editErrorsPath (str "edit1")) (str "patch") error then json
  else
    match document with
    | .newPath _ path _ :: _ => chr '?' :: path
    | _ => []

/-- A path is created if it is not malformed. -/
def extend : Document → Entry → Except ErrorWithCode Unit
  | [], .newPath [] path none =>
      if (DataPath.read path).isSome then .ok () else .error Example.noAnswer
  | _, _ => .ok ()

def env (editId : String) : Env Example.Node where
  libyang :=
    { Example.calls with
      parsePatch := fun _ _ => .ok (some (patch editId))
      extend := extend
      printDocument := fun document _ => .ok (some (printDocument document)) }
  session := .accepting

theorem printDocument_report (container patchId : Str) (reported : ErrorResponse) :
    (printDocument (reportDocument container patchId reported) = json ∧
        container = editErrorsPath (str "edit1")) ∨
      printDocument (reportDocument container patchId reported) = chr '?' :: container := by
  by_cases same : reportDocument container patchId reported =
      reportDocument (editErrorsPath (str "edit1")) (str "patch") error
  · have first := congrArg List.head? same
    simp only [reportDocument, List.cons_append, List.head?_cons, Option.some.injEq,
      Entry.newPath.injEq] at first
    exact .inl ⟨if_pos same, first.2.1⟩
  · exact .inr (if_neg same)

theorem json_ne (container : Str) : json ≠ chr '?' :: container := by
  intro same
  exact absurd (List.cons.inj same).1 (by decide)

/-- What is printed tells the container. -/
theorem container_eq {container other patchId otherId : Str} {reported otherError : ErrorResponse}
    (same : printDocument (reportDocument container patchId reported) =
      printDocument (reportDocument other otherId otherError)) : container = other := by
  rcases printDocument_report container patchId reported with ⟨text, rfl⟩ | text <;>
    rcases printDocument_report other otherId otherError with ⟨text', rfl⟩ | text' <;>
      rw [text, text'] at same
  · exact absurd same (json_ne _)
  · exact absurd same.symm (json_ne _)
  · exact (List.cons.inj same).2

theorem reportable {editId : String} {container patchId : Str} {reported : ErrorResponse}
    (plain : reported.errorInfo = none)
    (created : (env editId).libyang.extend [] (.newPath [] container none) = .ok ()) :
    Reportable (env editId) container patchId reported := by
  have takes (document : Document) (entry : Entry) (some : document ≠ []) :
      Server.extend (env editId) document entry = .ok (document ++ [entry]) := by
    obtain ⟨first, others, rfl⟩ := List.exists_cons_of_ne_nil some
    rfl
  have leafs (document : Document) (some : document ≠ []) (leafs : List (Str × Option Str)) :
      ∃ extended, extendAll (env editId) container document leafs = .ok extended := by
    induction leafs generalizing document with
    | nil => exact ⟨document, rfl⟩
    | cons leaf rest ih =>
        obtain ⟨path, value⟩ := leaf
        simp only [extendAll, takes _ _ some, bind, Except.bind]
        exact ih _ (by simp)
  have begun : Server.extend (env editId) [] (.newPath [] container none) =
      .ok [.newPath [] container none] := by
    simp only [Server.extend, created, raise, bind, Except.bind, pure, Except.pure, List.nil_append]
  obtain ⟨document, extended⟩ := leafs
    ([.newPath [] container none] ++
      [.newPath (str "/ietf-yang-patch:yang-patch-status") (str "patch-id") (some patchId)])
    (List.cons_ne_nil _ _) (errorLeafs reported)
  refine ⟨document, ?_⟩
  simp only [statusDocument, begun, takes _ _ (List.cons_ne_nil _ _), extended, extendErrorInfo,
    plain, bind, Except.bind]

/-- The document of an error of the request begins with a container of its own. -/
theorem printDocument_errorDocument {editId : String} {reported : ErrorResponse}
    {document : Document} (built : errorDocument (env editId) reported = .ok document) :
    printDocument document = chr '?' :: str "/ietf-restconf:errors" := by
  obtain ⟨rest, rfl⟩ := errorDocument_eq_ok built
  refine if_neg fun same => ?_
  have first := congrArg List.head? same
  simp only [reportDocument, List.cons_append, List.head?_cons, Option.some.injEq,
    Entry.newPath.injEq] at first
  exact absurd first.2.1 (by decide)

theorem documents (editId : String) : StatusDocuments (env editId) .json where
  finds _ _ _ := rfl
  prints document _ := ⟨_, rfl⟩
  values := by
    rintro text format found ⟨⟩ edit member
    rw [List.mem_singleton.mp member]
    exact nofun
  apart := by
    intro edit container patchId reported otherError document text known shown built otherShown
    have first : printDocument (reportDocument container patchId reported) = text :=
      Option.some.inj (Except.ok.inj shown)
    have second : printDocument document = text := Option.some.inj (Except.ok.inj otherShown)
    rw [printDocument_errorDocument built] at second
    rcases printDocument_report container patchId reported with ⟨printed, _⟩ | printed
    · exact json_ne _ (printed.symm.trans (first.trans second.symm))
    · obtain rfl : str "/ietf-restconf:errors" = container :=
        (List.cons.inj (second.trans (first.symm.trans printed))).2
      have other : DataPath.read (str "/ietf-restconf:errors") =
          some [⟨⟨some (str "ietf-restconf"), str "errors"⟩, []⟩] := by decide
      rw [other] at known
      cases known
  faithful := by
    intro edit container other patchId otherId reported otherError text known _ printed
      otherPrinted
    have same : printDocument (reportDocument container patchId reported) =
        printDocument (reportDocument other otherId otherError) := by
      have first : printDocument (reportDocument container patchId reported) = text :=
        Option.some.inj (Except.ok.inj printed)
      have second : printDocument (reportDocument other otherId otherError) = text :=
        Option.some.inj (Except.ok.inj otherPrinted)
      rw [first, second]
    rw [← container_eq same, known]

/-- The failing edit. -/
def edit (editId : String) : PatchEdit :=
  ⟨some (str editId), some (str "/example:top-level-leaf"), none, none, none, .absent⟩

theorem edit1_attributed :
    ∃ mapped, mappedErrorResponse (env "edit1") patchContext.restconfRequest.path
        (leafMissing "operation") = .ok mapped ∧
      Attributed (env "edit1") patchContext (str "patch") (str "edit1") mapped := by
  have unescaped : ¬EditBreaks (env "edit1") patchContext (edit "edit1") := by
    rintro ⟨_, _, _, _, absent, _⟩
    cases absent
  refine (@attributed_iff _ _ (env "edit1") patchContext (documents "edit1") (patch "edit1")
    (str "patch") (str "edit1") [] [] (edit "edit1") (leafMissing "operation")
    rfl rfl rfl nofun rfl rfl).mpr ⟨by decide, unescaped, ?_⟩
  rintro mapped ⟨⟩
  exact reportable rfl (by
    simp [env, extend, read_editErrorsPath (show singleQuote ∉ str "edit1" by decide)])

/-- The error of an edit with a quote in its edit-id is reported without the edit. -/
theorem quotedEdit_not_attributed :
    StatusDocuments (env "a'b") .json ∧
      ¬∃ mapped, mappedErrorResponse (env "a'b") patchContext.restconfRequest.path
          (leafMissing "operation") = .ok mapped ∧
        Attributed (env "a'b") patchContext (str "patch") (str "a'b") mapped := by
  refine ⟨documents _, ?_⟩
  rintro ⟨mapped, _, container, text, known, printed, body⟩
  have delivered : (afterPatch (env "a'b") patchContext).body =
      some (chr '?' :: patchErrorsPath) := by decide +kernel
  obtain rfl := Option.some.inj (body.symm.trans delivered)
  have shown : printDocument (reportDocument container (str "patch") mapped) =
      chr '?' :: patchErrorsPath :=
    Option.some.inj (Except.ok.inj printed)
  rcases printDocument_report container (str "patch") mapped with ⟨first, _⟩ | second
  · exact json_ne _ (first.symm.trans shown)
  · obtain rfl : container = patchErrorsPath := (List.cons.inj (second.symm.trans shown)).2
    rw [read_patchErrorsPath] at known
    cases known

end MissingOperation

end Rousette.Restconf.Server
