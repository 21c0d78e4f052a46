import Rousette.Libyang.Example
import Rousette.Restconf.Server.Failures
import Rousette.Restconf.Server.Resources

/-!
# Containment of exceptions in the handler of requests

A request which needs no payload is answered by the handler of `/restconf/` at once.
The handler catches the error responses of the server and the exceptions of sysrepo,
but not those of libyang.  This module tells when one of these leaves the handler, be it
while a request is answered or while its rejection is reported.
-/

namespace Rousette.Restconf.Server

open Library Libyang Program Exception

section Answers

variable {S : Type} (env : Env S) (req : Request) (request : RestconfRequest)

/-- A run of the handler has written a response, and nothing is left to be done. -/
structure Answered (run : Except Exception Next × World S) : Prop where
  returns : run.1 = .ok .nothing
  head : HasHead run.2
  body : HasBody run.2

/-- The requests which are answered without a payload. -/
def IsImmediate : RequestType → Prop
  | .restconfRoot | .yangLibraryVersion | .listRPC | .getData | .deleteNode | .optionsQuery => True
  | _ => False

/-- The requests for the API resources. -/
def IsApiResource : RequestType → Prop
  | .restconfRoot | .yangLibraryVersion | .listRPC => True
  | _ => False

/-- The locations in the data from sysrepo cannot be rewritten, or libyang does not print
the result. -/
def Unprintable (data : Forest S) : Prop :=
  (∃ exception, Locations.replaceLocations env.libyang req.urlPrefix data = .error exception) ∨
    ∃ after flags, Locations.replaceLocations env.libyang req.urlPrefix data = .ok after ∧
      libyangPrintFlags env after request.path (request.queryParams.find "with-defaults") =
        .ok flags ∧
      ∀ text, env.libyang.printStr after req.responseFormat flags ≠ .ok (some text)

/-- libyang does not make the edit of a `DELETE`: the path cannot be created, or the
operation cannot be set on the node. -/
inductive Undeletable : Prop where
  | path {error : Libyang.ErrorWithCode}
      (refused : env.libyang.newOpaquePath2 request.path = .error error)
  | operation {created : CreatedNodes S} {isOpaque : Bool} {error : Libyang.ErrorWithCode}
      (path : env.libyang.newOpaquePath2 request.path = .ok (created, isOpaque))
      (validated : validateInputMetaAttributes env.libyang [created.createdParent] = .ok ())
      (refused : (if isOpaque then
          env.libyang.newAttrOpaqueJSON (str "ietf-netconf") (str "operation") (str "delete")
        else env.libyang.newMeta created.createdNode (str "ietf-netconf") (str "operation")
          (str "delete")) = .error error)

/-- What requests without a payload are rejected with before anything is written. -/
inductive RejectedWith : Exception → Prop where
  | read {exception : Exception} (kind : request.type = .getData)
      (failed : readData env request = .error exception) : RejectedWith exception
  | missing (kind : request.type = .getData) (read : readData env request = .ok none) :
      RejectedWith (reject 404 "application" "invalid-value" (str "No data from sysrepo."))
  | readOnly {exception : Exception} (kind : request.type = .deleteNode)
      (failed : openWritable env request = .error exception) : RejectedWith exception
  | edit {exception : Exception} (kind : request.type = .deleteNode)
      (writable : openWritable env request = .ok ())
      (failed : createEditForDelete env request = .error exception) :
      RejectedWith (deleteException request.path exception)
  | apply {nodes : EditNodes S} {error : Sysrepo.ErrorWithCode}
      (kind : request.type = .deleteNode) (writable : openWritable env request = .ok ())
      (created : createEditForDelete env request = .ok nodes)
      (refused : NotApplied env nodes.edit error) :
      RejectedWith (deleteException request.path (.sysrepo error))

/-- The error which the handler responds with to an exception that it catches. -/
def handledError : Exception → Option ErrorResponse
  | .auth _ none =>
      some ⟨401, str "protocol", str "access-denied", str "Access denied.", none, none⟩
  | .errorResponse error => some error
  | .sysrepo _ =>
      some ⟨500, str "application", str "operation-failed",
        str "Internal server error due to sysrepo exception.", none, none⟩
  | _ => none

/-- A libyang call for the answer itself has an exception raised. -/
inductive Leaks : Prop where
  | resource (kind : IsApiResource request.type)
      (unprinted : ∀ text, printResource env req request ≠ .ok text)
  | data {data : Forest S} (kind : request.type = .getData)
      (read : readData env request = .ok (some data))
      (unprintable : Unprintable env req request data)
  | delete (kind : request.type = .deleteNode) (writable : openWritable env request = .ok ())
      (undeletable : Undeletable env request)

/-- An exception leaves the handler. -/
inductive Escapes : Prop where
  | session {error : Sysrepo.ErrorWithCode} (refused : env.session.sessionStart = .error error)
  | leak (leaks : Leaks env req request)
  /-- libyang does not take the report of the error which the request is rejected with -/
  | report {exception : Exception} {error : ErrorResponse}
      (rejected : RejectedWith env request exception)
      (handled : handledError exception = some error) (untaken : ¬TakesReport env error)

end Answers

/-! ## What is raised -/

section Raised

variable {S : Type} {env : Env S} {req : Request} {request : RestconfRequest}

theorem throws_deref {α : Type} (value : Option α) : Throws IsForeign (deref value) := by
  cases value with
  | none => exact .error trivial
  | some value => exact .ok value

theorem throws_foreign {α : Type} (result : Except Libyang.ErrorWithCode α) :
    Throws IsForeign (raise result) :=
  (throws_libyang result).mono fun _ raised => raised.isForeign

theorem throws_sysrepo {α : Type} (result : Except Sysrepo.ErrorWithCode α) :
    Throws IsAnswered (raiseSysrepo result) := by
  cases result with
  | ok value => exact .ok value
  | error error => exact .error trivial

theorem throws_extendOperations (format : DataFormat) (operations : Str) (document : Document)
    (rpcs : List S) : Throws IsLibyang (extendOperations env format operations document rpcs) := by
  induction rpcs generalizing document with
  | nil => exact .ok _
  | cons rpc rest ih =>
      apply Throws.bind (throws_extend _ _)
      intro extended _
      exact ih extended

theorem throws_apiResource (type : RequestType) (format : DataFormat) :
    Throws IsForeign (apiResource env type format) := by
  have extends_ : ∀ document entry, Throws IsForeign (extend env document entry) :=
    fun document entry => (throws_extend document entry).mono fun _ raised => raised.isForeign
  apply Throws.bind (extends_ _ _)
  intro document _
  split
  · apply Throws.bind (extends_ _ _)
    intro _ _
    apply Throws.bind (throws_foreign _)
    intro found _
    apply Throws.bind
    · intro exception missing
      rw [(require_eq_error.mp missing).2]
      trivial
    intro _ _
    exact .ok _
  · apply Throws.bind (extends_ _ _)
    intro _ _
    apply Throws.bind (extends_ _ _)
    intro _ _
    apply Throws.bind (extends_ _ _)
    intro _ _
    exact .ok _
  · apply Throws.bind (extends_ _ _)
    intro _ _
    apply Throws.bind ((throws_extendOperations _ _ _ _).mono fun _ raised => raised.isForeign)
    intro _ _
    exact .ok _
  · exact .error trivial

theorem throws_printResource : Throws IsForeign (printResource env req request) := by
  apply Throws.bind (throws_apiResource _ _)
  intro resource _
  apply Throws.bind (throws_foreign _)
  intro printed _
  exact throws_deref printed

theorem throws_replaceLocations (schemeAndHost : Option Str) (data : Forest S) :
    Throws IsForeign (Locations.replaceLocations env.libyang schemeAndHost data) := by
  apply Throws.bind
  · apply Tree.throws_rewriteAll
    intro path node
    unfold Locations.relocateModule
    split
    · exact .ok _
    · split
      · split
        · exact .error trivial
        · apply Throws.bind (throws_foreign _)
          intro _ _
          exact .ok _
      · exact .ok _
  intro relocated _
  apply Tree.throws_rewriteAll
  intro path node
  unfold Locations.relocateStream
  split
  · exact .error trivial
  · split
    · exact .ok _
    · apply Throws.bind (throws_foreign _)
      intro _ _
      exact .ok _

/-- The mode for default values is one of those which the flags are made from. -/
theorem libyangPrintFlags_isOk (data : Forest S) (requestPath : Str)
    {withDefaults : Option QueryParams.QueryParamValue}
    (typed : ∀ value, withDefaults = some value → Impl.IsWithDefaults value) :
    ∃ flags, libyangPrintFlags env data requestPath withDefaults = .ok flags := by
  cases withDefaults with
  | none => exact ⟨_, rfl⟩
  | some value =>
      rcases typed value rfl with rfl | rfl | rfl | rfl
      · exact ⟨_, rfl⟩
      · exact ⟨_, rfl⟩
      · exact ⟨_, rfl⟩
      · exact ⟨_, rfl⟩

section Query

variable (typed : ∀ {name value}, request.queryParams.find name = some value →
  Impl.Typed (str name, value))
include typed

theorem throws_printData (data : Forest S) :
    Throws (fun exception => exception.IsForeign ∧ Unprintable env req request data)
      (printData env req request data) := by
  unfold printData
  cases relocated : Locations.replaceLocations env.libyang req.urlPrefix data with
  | error exception =>
      refine .error ⟨?_, .inl ⟨exception, relocated⟩⟩
      exact throws_replaceLocations _ _ exception relocated
  | ok after =>
      obtain ⟨flags, known⟩ := @libyangPrintFlags_isOk S env after request.path
        (request.queryParams.find "with-defaults") fun value found =>
          (typed found).withDefaults rfl
      have printing : ∀ result, env.libyang.printStr after req.responseFormat flags = result →
          (∀ text, result ≠ .ok (some text)) → Unprintable env req request data := by
        rintro _ rfl unprinted
        exact .inr ⟨after, flags, relocated, known, unprinted⟩
      simp only [bind, Except.bind, known]
      cases printed : env.libyang.printStr after req.responseFormat flags with
      | error error => exact .error ⟨trivial, printing _ printed (by simp)⟩
      | ok text =>
          cases text with
          | none => exact .error ⟨trivial, printing _ printed (by simp)⟩
          | some text => exact .ok text

theorem throws_requestedXPath : Throws IsErrorResponse (requestedXPath env request) := by
  unfold requestedXPath
  split
  · exact .ok _
  · exact throws_fieldsToXPath _ _
  next value other found =>
    obtain ⟨expr, fields⟩ := (typed found).fields rfl
    exact absurd fields (other expr)

theorem throws_readData : Throws IsAnswered (readData env request) := by
  apply Throws.bind (throws_sysrepo _)
  intro _ _
  apply Throws.bind ((throws_requestedXPath typed).mono fun _ response => response.isAnswered)
  intro _ _
  exact throws_sysrepo _

end Query

theorem Unprintable.error {data : Forest S} (unprintable : Unprintable env req request data) :
    ∃ exception, printData env req request data = .error exception := by
  rcases unprintable with ⟨exception, failed⟩ | ⟨after, flags, relocated, known, unprinted⟩
  · exact ⟨exception, by simp only [printData, failed, bind, Except.bind]⟩
  · simp only [printData, relocated, known, bind, Except.bind]
    cases printed : env.libyang.printStr after req.responseFormat flags with
    | error error => exact ⟨_, rfl⟩
    | ok text =>
        cases text with
        | none => exact ⟨_, rfl⟩
        | some text => exact absurd printed (unprinted text)

/-! ## The branches of the handler -/

theorem raises_getResource {exception : Exception}
    (raises : Raises (getResource env req request) exception) :
    printResource env req request = .error exception := by
  rcases raises.bind with writing | ⟨_, _, raises⟩
  · exact writing.modify.elim
  rcases raises.bind with printing | ⟨_, _, raises⟩
  · exact printing.liftM
  · exact raises.modify.elim

theorem raises_getResource_of {exception : Exception}
    (failed : printResource env req request = .error exception) :
    Raises (getResource env req request) exception := by
  refine ⟨World.initial, ?_⟩
  simp only [getResource, writeHead, exec_bind, exec_modify, exec_liftM, failed]

theorem raises_getData (typed : ∀ {name value}, request.queryParams.find name = some value →
      Impl.Typed (str name, value)) (kind : request.type = .getData) {exception : Exception}
    (raises : Raises (getData env req request) exception) :
    exception.IsAnswered ∧ RejectedWith env request exception ∨ exception.IsForeign ∧ ∃ data,
      readData env request = .ok (some data) ∧ Unprintable env req request data := by
  rcases raises.bind with reading | ⟨data, read, raises⟩
  · exact .inl ⟨throws_readData typed exception reading.liftM, .read kind reading.liftM⟩
  cases data with
  | none =>
      rw [raises.throw]
      exact .inl ⟨trivial, .missing kind read.liftM⟩
  | some data =>
      rcases raises.bind with writing | ⟨_, _, raises⟩
      · exact writing.modify.elim
      rcases raises.bind with printing | ⟨_, _, raises⟩
      · obtain ⟨foreign, unprintable⟩ := throws_printData typed data exception printing.liftM
        exact .inr ⟨foreign, data, read.liftM, unprintable⟩
      · exact raises.modify.elim

theorem raises_getData_of {data : Forest S} {exception : Exception}
    (read : readData env request = .ok (some data))
    (failed : printData env req request data = .error exception) :
    Raises (getData env req request) exception := by
  refine .of_bind_liftM read ⟨World.initial, ?_⟩
  simp only [writeHead, exec_bind, exec_modify, exec_liftM, failed]

theorem throws_openWritable : Throws IsAnswered (openWritable env request) := by
  apply Throws.bind (throws_require.mono fun _ response => response.isAnswered)
  intro _ _
  exact throws_sysrepo _

/-- Only libyang keeps the edit of a `DELETE` from being made, or attributes in it. -/
theorem throws_createEditForDelete :
    Throws (fun exception => exception.IsAnswered ∨
      exception.IsForeign ∧ Undeletable env request) (createEditForDelete env request) := by
  unfold createEditForDelete
  cases path : env.libyang.newOpaquePath2 request.path with
  | error error => exact .error (.inr ⟨trivial, .path path⟩)
  | ok result =>
      obtain ⟨created, isOpaque⟩ := result
      simp only [raise, bind, Except.bind]
      cases validated : validateInputMetaAttributes env.libyang [created.createdParent] with
      | error exception =>
          have response := throws_validateInputMetaAttributes (by simp) exception validated
          exact .error (.inl response.isAnswered)
      | ok value =>
          have refused : ∀ {error}, (if isOpaque then
                env.libyang.newAttrOpaqueJSON (str "ietf-netconf") (str "operation") (str "delete")
              else env.libyang.newMeta created.createdNode (str "ietf-netconf")
                (str "operation") (str "delete")) = .error error → Undeletable env request :=
            fun refused => .operation path validated refused
          cases isOpaque with
          | true =>
              apply Throws.bind
              · intro exception raised
                obtain ⟨error, failed, rfl⟩ := raise_eq_error.mp raised
                exact .inr ⟨trivial, refused failed⟩
              intro _ _
              exact .ok _
          | false =>
              have located : Forest.at? [created.createdParent] (0 :: created.position) =
                some created.createdNode := created.found
              apply Throws.bind
              · rw [located]
                exact .ok _
              intro node found
              rw [located] at found
              cases found
              apply Throws.bind
              · intro exception raised
                obtain ⟨error, failed, rfl⟩ := raise_eq_error.mp raised
                exact .inr ⟨trivial, refused failed⟩
              intro _ _
              exact .ok _

theorem Undeletable.error (undeletable : Undeletable env request) :
    ∃ error, createEditForDelete env request = .error (.libyang error) := by
  cases undeletable with
  | @path error refused =>
      exact ⟨error, by simp only [createEditForDelete, refused, raise, bind, Except.bind]⟩
  | @operation created isOpaque error path validated refused =>
      refine ⟨error, ?_⟩
      simp only [createEditForDelete, path, raise, bind, Except.bind, validated]
      cases isOpaque with
      | true =>
          have refused : env.libyang.newAttrOpaqueJSON _ _ _ = .error error := refused
          simp only [markDeleted, if_true, refused, raise, bind, Except.bind]
      | false =>
          have refused : env.libyang.newMeta _ _ _ _ = .error error := refused
          have located : Forest.at? [created.createdParent] (0 :: created.position) =
            some created.createdNode := created.found
          simp only [markDeleted, Bool.false_eq_true, if_false, addMeta, located, deref, refused,
            raise, bind, Except.bind]

theorem deleteException_isAnswered {path : Str} {exception : Exception}
    (answered : exception.IsAnswered) : (deleteException path exception).IsAnswered := by
  unfold deleteException
  split
  · trivial
  · trivial
  · exact answered

theorem deleteException_isForeign {path : Str} {exception : Exception}
    (foreign : exception.IsForeign) : deleteException path exception = exception := by
  cases exception with
  | sysrepo error => exact foreign.elim
  | _ => rfl

theorem raises_deleteNode (kind : request.type = .deleteNode) {exception : Exception}
    (raises : Raises (deleteNode env request) exception) :
    exception.IsAnswered ∧ RejectedWith env request exception ∨
      exception.IsForeign ∧ openWritable env request = .ok () ∧ Undeletable env request := by
  rcases raises.bind with opening | ⟨_, writable, raises⟩
  · exact .inl ⟨throws_openWritable exception opening.liftM, .readOnly kind opening.liftM⟩
  have writable : openWritable env request = .ok () := writable.liftM
  rcases raises.bind with deleting | ⟨_, _, raises⟩
  · obtain ⟨caught, inside, rethrown⟩ := deleting.tryCatch
    rw [rethrown.throw]
    rcases inside.bind with creating | ⟨nodes, created, inside⟩
    · rcases throws_createEditForDelete caught creating.liftM with answered | ⟨foreign, rest⟩
      · exact .inl ⟨deleteException_isAnswered answered, .edit kind writable creating.liftM⟩
      · rw [deleteException_isForeign foreign]
        exact .inr ⟨foreign, writable, rest⟩
    · obtain ⟨error, refused, rfl⟩ := raises_applyEdit_iff.mp inside
      exact .inl ⟨deleteException_isAnswered trivial, .apply kind writable created.liftM refused⟩
  · exact absurd raises not_raises_respond

theorem raises_deleteNode_of (writable : openWritable env request = .ok ())
    (undeletable : Undeletable env request) :
    ∃ error, Raises (deleteNode env request) (.libyang error) := by
  obtain ⟨error, failed⟩ := undeletable.error
  refine ⟨error, .of_bind_liftM writable (.of_bind_left ⟨World.initial, ?_⟩)⟩
  simp only [exec_tryCatch, exec_bind, exec_liftM, failed, deleteException, exec_throw]

/-- The exception which a request is rejected with leaves the branch for it. -/
theorem RejectedWith.raises {exception : Exception}
    (rejected : RejectedWith env request exception) :
    request.type = .getData ∧ Raises (getData env req request) exception ∨
      request.type = .deleteNode ∧ Raises (deleteNode env request) exception := by
  cases rejected with
  | read kind failed => exact .inl ⟨kind, .of_bind_left (.of_liftM failed)⟩
  | missing kind read => exact .inl ⟨kind, .of_bind_liftM read ⟨World.initial, rfl⟩⟩
  | readOnly kind failed => exact .inr ⟨kind, .of_bind_left (.of_liftM failed)⟩
  | edit kind writable failed =>
      refine .inr ⟨kind, .of_bind_liftM writable (.of_bind_left ⟨World.initial, ?_⟩)⟩
      simp only [exec_tryCatch, exec_bind, exec_liftM, failed, exec_throw]
  | apply kind writable created refused =>
      refine .inr ⟨kind, .of_bind_liftM writable (.of_bind_left ?_)⟩
      refine .of_tryCatch (.of_bind_liftM created ?_) (.throw _)
        ⟨World.initial, rfl⟩
      exact raises_applyEdit_iff.mpr ⟨_, refused, rfl⟩

theorem not_raises_optionsQuery {exception : Exception} :
    ¬Raises (optionsQuery env req) exception := by
  intro raises
  rcases raises.bind with asking | ⟨allowed, _, raises⟩
  · obtain ⟨methods, known⟩ := @allowedHttpMethodsForUri_isOk S env.libyang.ctx req.path
    rw [asking.liftM] at known
    cases known
  · split at raises
    · exact not_raises_respond raises
    · exact not_raises_respond raises

end Raised

/-! ## The response -/

section Response

variable {S : Type} {env : Env S} {req : Request} {request : RestconfRequest}

/-- A branch of the handler: its outcome does not depend on what was done before, and it
writes the whole response if it returns. -/
structure Responds (branch : Handler S Unit) : Prop where
  uniform : Uniform branch
  head : Ensures HasHead branch
  body : Ensures HasBody branch

/-- Writing a head and a body which may fail to be made. -/
theorem Responds.writing (code : Nat) (headers : List (Str × Str))
    (body : Except Exception Str) :
    Responds (do writeHead code headers; let text ← body; endWith text : Handler S Unit) where
  uniform := .bind (.modify _) fun _ => .bind (.liftM _) fun _ => .modify _
  head := .bind_keeps (ensures_writeHead _ _) fun _ => .bind_property (fun _ => id) fun _ _ => id
  body := .bind fun _ => .bind fun _ => ensures_endWith _

theorem Responds.respond (code : Nat) (headers : List (Str × Str)) (body : Str) :
    Responds (do writeHead code headers; endWith body : Handler S Unit) where
  uniform := uniform_respond
  head := .bind_keeps (ensures_writeHead _ _) fun _ _ => id
  body := .bind fun _ => ensures_endWith _

theorem Responds.throw (exception : Exception) :
    Responds (MonadExcept.throw exception : Handler S Unit) where
  uniform := .throw exception
  head _ _ returned := by cases returned
  body _ _ returned := by cases returned

theorem Responds.bind {α : Type} {first : Handler S α} {second : α → Handler S Unit}
    (uniform : Uniform first) (responds : ∀ value, Responds (second value)) :
    Responds (first >>= second) where
  uniform := .bind uniform fun value => (responds value).uniform
  head := .bind fun value => (responds value).head
  body := .bind fun value => (responds value).body

theorem responds_getResource : Responds (getResource env req request) :=
  .writing _ _ _

theorem responds_getData : Responds (getData env req request) := by
  refine .bind (.liftM _) fun data => ?_
  cases data with
  | none => exact .throw _
  | some data => exact .writing _ _ _

theorem responds_deleteNode : Responds (deleteNode env request) := by
  refine .bind (.liftM _) fun _ => .bind ?_ fun _ => .respond _ _ _
  refine .tryCatch (.bind (.liftM _) fun nodes => ?_) fun exception => .throw _
  exact .bind (uniform_editBatch _) fun _ => uniform_applyChanges _

theorem responds_optionsQuery : Responds (optionsQuery env req) := by
  refine .bind (.liftM _) fun allowed => ?_
  split
  · exact .respond _ _ _
  · exact .respond _ _ _

/-- An exception is answered exactly if the handler responds to it and libyang takes the
report. -/
theorem answered_handleException_iff (documents : Documents env) {exception : Exception}
    {world : World S} :
    Answered (exec (handleException env req exception) world) ↔
      ∃ error, handledError exception = some error ∧ TakesReport env error := by
  have rejected : ∀ error, Answered (exec (do
      rejectWithError env req error
      return .nothing : Handler S Next) world) ↔ TakesReport env error := by
    intro error
    rw [← @outcome_rejectWithError_iff S env req documents]
    have reports : Reports (rejectWithError env req error) := reports_rejectWithError error
    obtain ⟨after, _, ⟨done, run, head, body⟩ | ⟨other, failed, run⟩⟩ := reports.cases world
    · rw [exec_bind, run, done]
      exact iff_of_true ⟨rfl, head, body⟩ rfl
    · rw [exec_bind, run, failed]
      refine iff_of_false ?_ nofun
      rintro ⟨returns, _, _⟩
      cases returns
  have passed : ∀ {run : Except Exception Next × World S}, run.1 ≠ .ok .nothing →
      handledError exception = none →
      (Answered run ↔ ∃ error, handledError exception = some error ∧ TakesReport env error) := by
    intro run passes unhandled
    refine iff_of_false (fun answered => passes answered.returns) ?_
    rintro ⟨error, handled, _⟩
    rw [unhandled] at handled
    cases handled
  have reported : ∀ {error}, handledError exception = some error →
      handleException env req exception = (do
        rejectWithError env req error
        return .nothing) →
      (Answered (exec (handleException env req exception) world) ↔
        ∃ error, handledError exception = some error ∧ TakesReport env error) := by
    intro error handled same
    rw [same, rejected, handled]
    constructor
    case mp => exact fun takes => ⟨error, rfl, takes⟩
    case mpr =>
      rintro ⟨_, ⟨⟩, takes⟩
      exact takes
  cases exception with
  | errorResponse error => exact reported rfl rfl
  | sysrepo error => exact reported rfl rfl
  | auth message delay =>
      cases delay with
      | none => exact reported rfl rfl
      | some delay => exact passed nofun rfl
  | _ => exact passed nofun rfl

/-- A branch is answered exactly if the handler responds to all which leaves it, and libyang
takes the report. -/
theorem answered_branch_iff (documents : Documents env) {branch : Handler S Unit}
    (responds : Responds branch) (world : World S) :
    Answered (exec (tryCatch (do branch; return .nothing) (handleException env req)) world) ↔
      ∀ exception, Raises branch exception →
        ∃ error, handledError exception = some error ∧ TakesReport env error := by
  cases run : exec branch world with
  | mk result after =>
      cases result with
      | ok value =>
          have head := responds.head world value (by rw [run])
          have body := responds.body world value (by rw [run])
          rw [run] at head body
          have whole : exec (tryCatch (do branch; return .nothing) (handleException env req))
              world = (.ok .nothing, after) := by
            simp only [exec_tryCatch, exec_bind, run, exec_pure]
          rw [whole]
          refine ⟨fun _ exception raises => ?_, fun _ => ⟨rfl, head, body⟩⟩
          obtain ⟨other, failed⟩ := raises
          rw [responds.uniform other world, run] at failed
          cases failed
      | error exception =>
          have raises : Raises branch exception := ⟨world, by rw [run]⟩
          have whole : exec (tryCatch (do branch; return .nothing) (handleException env req))
              world = exec (handleException env req exception) after := by
            simp only [exec_tryCatch, exec_bind, run]
          have only : ∀ other, Raises branch other → other = exception := by
            rintro other ⟨world', failed⟩
            rw [responds.uniform world' world, run] at failed
            cases failed
            rfl
          rw [whole, answered_handleException_iff documents]
          constructor
          case mp =>
            intro reported other again
            rw [only other again]
            exact reported
          case mpr => exact fun reported => reported exception raises

end Response

section Handler

variable {S : Type} {env : Env S} {req : Request} {request : RestconfRequest}

theorem exec_handleRestconf {requestFormat : Option DataFormat} {admission : Except Exception Unit}
    {query : Str} (started : env.session.sessionStart = .ok ()) (admitted : admission = .ok ())
    (accepted : asRestconfRequest env.libyang.ctx req.method req.rawPath query = .ok request)
    (world : World S) :
    exec (handleRestconf env req requestFormat admission query) world =
      exec (tryCatch (dispatch env req request requestFormat) (handleException env req)) world := by
  simp only [handleRestconf, started, raiseSysrepo, exec_bind, exec_liftM, exec_tryCatch, admitted,
    accepted]

/-- The branch of an immediate request, what it is rejected with, and when something leaves
it which the handler does not catch. -/
theorem dispatch_immediate (kind : IsImmediate request.type)
    (typed : ∀ {name value}, request.queryParams.find name = some value →
      Impl.Typed (str name, value)) (requestFormat : Option DataFormat) :
    ∃ branch : Handler S Unit,
      dispatch env req request requestFormat = (do branch; return .nothing) ∧ Responds branch ∧
      (∀ exception, Raises branch exception →
        exception.IsAnswered ∧ RejectedWith env request exception ∨
          exception.IsForeign ∧ Leaks env req request) ∧
      (∀ exception, RejectedWith env request exception → Raises branch exception) ∧
      (Leaks env req request → ∃ exception, Raises branch exception ∧ exception.IsForeign) := by
  have resource : IsApiResource request.type →
      (∀ exception, Raises (getResource env req request) exception →
        exception.IsAnswered ∧ RejectedWith env request exception ∨
          exception.IsForeign ∧ Leaks env req request) ∧
      (∀ exception, RejectedWith env request exception →
        Raises (getResource env req request) exception) ∧
      (Leaks env req request →
        ∃ exception, Raises (getResource env req request) exception ∧ exception.IsForeign) := by
    intro api
    refine ⟨?_, ?_, ?_⟩
    · intro exception raises
      have failed := raises_getResource raises
      refine .inr ⟨throws_printResource exception failed, .resource api ?_⟩
      rw [failed]
      simp
    · intro exception rejected
      rcases @RejectedWith.raises S env req request exception rejected with ⟨other, _⟩ | ⟨other, _⟩
      · simp [other, IsApiResource] at api
      · simp [other, IsApiResource] at api
    · intro leaks
      cases failed : printResource env req request with
      | error exception =>
          exact ⟨exception, raises_getResource_of failed, throws_printResource exception failed⟩
      | ok text =>
          cases leaks with
          | resource _ unprinted => exact absurd failed (unprinted text)
          | data other => simp [other, IsApiResource] at api
          | delete other => simp [other, IsApiResource] at api
  cases type : request.type with
  | restconfRoot =>
      rw [type] at resource
      exact ⟨_, by rw [dispatch, type], responds_getResource, resource trivial⟩
  | yangLibraryVersion =>
      rw [type] at resource
      exact ⟨_, by rw [dispatch, type], responds_getResource, resource trivial⟩
  | listRPC =>
      rw [type] at resource
      exact ⟨_, by rw [dispatch, type], responds_getResource, resource trivial⟩
  | getData =>
      refine ⟨_, by rw [dispatch, type], responds_getData, ?_, ?_, ?_⟩
      · intro exception raises
        rcases raises_getData typed type raises with rejected | ⟨foreign, data, read, unprintable⟩
        · exact .inl rejected
        · exact .inr ⟨foreign, .data type read unprintable⟩
      · intro exception rejected
        rcases rejected.raises with ⟨_, raises⟩ | ⟨other, _⟩
        · exact raises
        · simp [type] at other
      · intro leaks
        cases leaks with
        | resource api => simp [type, IsApiResource] at api
        | @data data _ read unprintable =>
            obtain ⟨exception, failed⟩ := unprintable.error
            have foreign := (throws_printData typed data exception failed).1
            exact ⟨exception, raises_getData_of read failed, foreign⟩
        | delete other => simp [type] at other
  | deleteNode =>
      refine ⟨_, by rw [dispatch, type], responds_deleteNode, ?_, ?_, ?_⟩
      · intro exception raises
        rcases raises_deleteNode type raises with rejected | ⟨foreign, writable, undeletable⟩
        · exact .inl rejected
        · exact .inr ⟨foreign, .delete type writable undeletable⟩
      · intro exception rejected
        rcases @RejectedWith.raises S env req request exception rejected with
          ⟨other, _⟩ | ⟨_, raises⟩
        · simp [type] at other
        · exact raises
      · intro leaks
        cases leaks with
        | resource api => simp [type, IsApiResource] at api
        | data other => simp [type] at other
        | delete _ writable undeletable =>
            obtain ⟨error, raises⟩ := raises_deleteNode_of writable undeletable
            exact ⟨_, raises, trivial⟩
  | optionsQuery =>
      refine ⟨_, by rw [dispatch, type], responds_optionsQuery, ?_, ?_, ?_⟩
      · exact fun exception raises => absurd raises not_raises_optionsQuery
      · intro exception rejected
        rcases @RejectedWith.raises S env req request exception rejected with
          ⟨other, _⟩ | ⟨other, _⟩
        · simp [type] at other
        · simp [type] at other
      · intro leaks
        cases leaks with
        | resource api => simp [type, IsApiResource] at api
        | data other => simp [type] at other
        | delete other => simp [type] at other
  | _ =>
      rw [type] at kind
      exact kind.elim

theorem handledError_isSome_of_isAnswered {exception : Exception}
    (answered : exception.IsAnswered) : ∃ error, handledError exception = some error := by
  cases exception with
  | errorResponse error => exact ⟨error, rfl⟩
  | sysrepo error => exact ⟨_, rfl⟩
  | _ => exact answered.elim

theorem handledError_of_isForeign {exception : Exception} (foreign : exception.IsForeign) :
    handledError exception = none := by
  cases exception with
  | auth message delay => exact foreign.elim
  | errorResponse error => exact foreign.elim
  | sysrepo error => exact foreign.elim
  | _ => rfl

/-- A request without a payload is answered exactly if the session starts, libyang makes and
prints what the request needs, and takes the report of the error if the request is rejected. -/
theorem answered_iff (documents : Documents env) {requestFormat : Option DataFormat}
    {admission : Except Exception Unit} {query : Str} (admitted : admission = .ok ())
    (accepted : asRestconfRequest env.libyang.ctx req.method req.rawPath query = .ok request)
    (kind : IsImmediate request.type) :
    Answered (exec (handleRestconf env req requestFormat admission query) World.initial) ↔
      ¬Escapes env req request := by
  cases started : env.session.sessionStart with
  | error error =>
      have left : (exec (handleRestconf env req requestFormat admission query)
          World.initial).1 = .error (.sysrepo error) := by
        simp only [handleRestconf, started, raiseSysrepo, exec_bind, exec_liftM]
      refine ⟨?_, fun none => absurd (.session started) none⟩
      rintro ⟨returns, _, _⟩
      rw [left] at returns
      cases returns
  | ok value =>
      obtain ⟨branch, dispatched, responds, raised, rejects, leaking⟩ :=
        @dispatch_immediate S env req request kind (typed_of_accepted accepted) requestFormat
      rw [exec_handleRestconf started admitted accepted, dispatched,
        answered_branch_iff documents responds]
      constructor
      case mp =>
        intro reported escapes
        cases escapes with
        | session refused =>
            rw [started] at refused
            cases refused
        | leak leaks =>
            obtain ⟨exception, raises, foreign⟩ := leaking leaks
            obtain ⟨error, handled, _⟩ := reported exception raises
            rw [handledError_of_isForeign foreign] at handled
            cases handled
        | report rejected handled untaken =>
            obtain ⟨error, known, takes⟩ := reported _ (rejects _ rejected)
            rw [known] at handled
            cases handled
            exact untaken takes
      case mpr =>
        intro none exception raises
        rcases raised exception raises with ⟨answered, rejected⟩ | ⟨_, leaks⟩
        · obtain ⟨error, handled⟩ := handledError_isSome_of_isAnswered answered
          refine ⟨error, handled, ?_⟩
          by_contra untaken
          exact none (.report rejected handled untaken)
        · exact absurd (.leak leaks) none

end Handler

/-! ## An entry of a leaf-list -/

/-- A `DELETE` of the entry of `top-level-leaf-list` with the given value. -/
def deleteEntryRequest (value : String) : Request where
  method := str "DELETE"
  rawPath := str "/restconf/data/example:top-level-leaf-list=" ++ str value
  path := str "/restconf/data/example:top-level-leaf-list=" ++ str value
  responseFormat := .json
  urlPrefix := none

/-- What the request is taken for. -/
def deleteEntry (value : String) : RestconfRequest :=
  ⟨.deleteNode, none, str "/example:top-level-leaf-list[.='" ++ str value ++ str "']", []⟩

/-- A server whose leaf-list has numbers as values; the number 4 is among them. -/
def leafListEnv : Env Example.Node where
  libyang :=
    { Example.calls with
      newOpaquePath2 := fun path =>
        if path = str "/example:top-level-leaf-list[.='4']" then
          .ok (⟨.leaf .topLevelLeafList (str "4"), [], .leaf .topLevelLeafList (str "4"), rfl⟩,
            false)
        else .error Example.noAnswer }
  session := .accepting

/-- The value is one of the type of the leaf-list. -/
theorem deleteEntry_answered :
    Answered (exec (handleRestconf leafListEnv (deleteEntryRequest "4") none (.ok ()) [])
      World.initial) := by
  have documents : Documents leafListEnv :=
    documents_of_finding (fun _ _ => rfl) (fun _ _ => ⟨_, rfl⟩)
      (fun _ _ _ parsed => by cases parsed)
  have accepted : asRestconfRequest leafListEnv.libyang.ctx (deleteEntryRequest "4").method
      (deleteEntryRequest "4").rawPath [] = .ok (deleteEntry "4") := rfl
  have created : (createEditForDelete leafListEnv (deleteEntry "4")).isOk = true := by
    decide +kernel
  refine (answered_iff documents rfl accepted trivial).mpr ?_
  rintro (refused | (⟨api, _⟩ | ⟨other, _, _⟩ | ⟨_, _, undeletable⟩) | ⟨_, _, untaken⟩)
  · cases refused
  · exact api.elim
  · cases other
  · obtain ⟨error, failed⟩ := undeletable.error
    rw [failed] at created
    cases created
  · exact untaken (takesReport_of_taking (fun _ _ => rfl) _)

/-- The value is not a number. -/
theorem deleteEntry_escapes :
    asRestconfRequest Example.schema (str "DELETE")
        (str "/restconf/data/example:top-level-leaf-list=abc") [] = .ok (deleteEntry "abc") ∧
    ¬Answered (exec (handleRestconf leafListEnv (deleteEntryRequest "abc") none (.ok ()) [])
      World.initial) := by
  refine ⟨rfl, fun answered => ?_⟩
  have raised : (exec (handleRestconf leafListEnv (deleteEntryRequest "abc") none (.ok ()) [])
      World.initial).1.isOk = false := by
    decide +kernel
  rw [answered.returns] at raised
  cases raised

end Rousette.Restconf.Server
