import Rousette.Libyang.Example
import Rousette.Restconf.Server.Failures

/-!
# Containment of exceptions while a payload is processed

The payload of a `PUT`, a plain `PATCH` or a YANG Patch is processed to the end with
a response, unless an exception is raised which `withRestconfExceptions` does not
map to one, or libyang does not take the report of the error which it is mapped to.
This module tells when that happens.
-/

namespace Rousette.Restconf.Server

open Library Libyang Program Exception

section Breaks

variable {S : Type} [DecidableEq S] (env : Env S) (ctx : RequestContext)

/-- The processing of a payload ends with a response, and what is raised on the way is one
of the exceptions which are mapped to one. -/
structure Contained : Prop where
  returns : (exec (onPayload env ctx) World.initial).1 = .ok ()
  head : HasHead (afterPayload env ctx)
  body : HasBody (afterPayload env ctx)
  mapped : ∀ exception,
    (exec (processPayload env ctx) World.initial).1 = .error exception → exception.IsMapped

/-- A validation failure in sysrepo is to be reported for a path which is not found. -/
def PutUnresolved : Prop :=
  ctx.restconfRequest.path ≠ str "/" ∧
    (∃ error, env.libyang.ctx.findPath ctx.restconfRequest.path = .error error) ∧
    ∃ error, error.code = .validationFailed ∧ Refuses env ctx error

/-- The payload of a request has an exception raised which leaves the server. -/
inductive Breaks : Prop where
  | key (kind : processing ctx = .putOrPlainPatch) (breaks : PutBreaks env ctx)
  | path (kind : processing ctx = .putOrPlainPatch) (unresolved : PutUnresolved env ctx)
  | edit (kind : processing ctx = .yangPatch) (breaks : PatchBreaks env ctx)
  | report (unreported : Unreported env ctx)

end Breaks

/-! ## The response -/

section Response

variable {S : Type} [DecidableEq S] {env : Env S} {ctx : RequestContext}

omit [DecidableEq S] in
theorem ensures_head_respond {code : Nat} {headers : List (Str × Str)} {body : Str} :
    Ensures HasHead (do writeHead code headers; endWith body : Handler S Unit) :=
  .bind_keeps (ensures_writeHead _ _) fun _ _ => id

omit [DecidableEq S] in
theorem ensures_body_respond {code : Nat} {headers : List (Str × Str)} {body : Str} :
    Ensures HasBody (do writeHead code headers; endWith body : Handler S Unit) :=
  .bind fun _ => ensures_endWith _

/-- A `PUT` or a plain `PATCH` which raises nothing ends with what every response ends with. -/
theorem ensures_processPutOrPlainPatch {property : World S → Prop}
    (responds : ∀ code, Ensures property (do writeHead code [cors]; endWith [])) :
    Ensures property (processPutOrPlainPatch env ctx) := by
  unfold processPutOrPlainPatch processRoot
  split
  · refine .bind fun _ => .bind fun _ => .bind fun _ => ?_
    split
    · exact .bind fun _ => responds _
    · exact .bind fun _ => .bind fun _ => responds _
  · refine .bind fun _ => .bind fun _ => .bind fun _ => .bind fun _ => .bind fun _ => ?_
    refine .bind fun _ => .bind fun _ => .bind fun _ => ?_
    split
    · exact responds _
    · exact responds _

theorem ensures_processYangPatch {property : World S → Prop}
    (responds : ∀ patchId, Ensures property (reportPatchOk env ctx patchId)) :
    Ensures property (processYangPatch env ctx) := by
  refine .bind fun found => ?_
  cases found with
  | none =>
      intro _ _ returned
      cases returned
  | some patch => exact .bind fun patchId => .bind fun _ => responds patchId

omit [DecidableEq S] in
theorem ensures_head_reportPatchOk (patchId : Str) :
    Ensures HasHead (reportPatchOk env ctx patchId) := by
  refine .bind fun _ => .bind_keeps (ensures_writeHead _ _) fun _ => ?_
  exact .bind_property (fun _ => id) fun _ => .bind_property (fun _ => id) fun _ _ => id

omit [DecidableEq S] in
theorem ensures_body_reportPatchOk (patchId : Str) :
    Ensures HasBody (reportPatchOk env ctx patchId) :=
  .bind fun _ => .bind fun _ => .bind fun _ => .bind fun _ => ensures_endWith _

/-- Processing which returns has written a response. -/
theorem responds_of_returns (kind : processing ctx ≠ .post) {world : World S}
    (returned : (exec (processPayload env ctx) world).1 = .ok ()) :
    HasHead (exec (processPayload env ctx) world).2 ∧
      HasBody (exec (processPayload env ctx) world).2 := by
  unfold processPayload at returned ⊢
  cases processing : processing ctx with
  | post => exact absurd processing kind
  | yangPatch =>
      rw [processing] at returned
      exact ⟨ensures_processYangPatch ensures_head_reportPatchOk world () returned,
        ensures_processYangPatch ensures_body_reportPatchOk world () returned⟩
  | putOrPlainPatch =>
      rw [processing] at returned
      exact ⟨ensures_processPutOrPlainPatch (fun _ => ensures_head_respond) world () returned,
        ensures_processPutOrPlainPatch (fun _ => ensures_body_respond) world () returned⟩

theorem uniform_processPayload (kind : processing ctx ≠ .post) :
    Uniform (processPayload env ctx) := by
  unfold processPayload
  cases processing : processing ctx with
  | post => exact absurd processing kind
  | yangPatch => exact uniform_processYangPatch
  | putOrPlainPatch => exact uniform_processPutOrPlainPatch

/-- What a payload fails with is mapped to an error response, and libyang takes the report of it,
unless the payload breaks the server. -/
theorem PayloadFails.reported (documents : Documents env)
    (points : hasInsertParamBeforeOrAfter ctx.restconfRequest.queryParams = true →
      ∃ point, ctx.restconfRequest.queryParams.find "point" = some (.pointParsed point))
    (intact : ¬Breaks env ctx) {exception : Exception} (fails : PayloadFails env ctx exception) :
    exception.IsMapped ∧
      ∃ error, mappedErrorResponse env ctx.restconfRequest.path exception = .ok error ∧
        TakesReport env error := by
  have takes : ∀ error, mappedErrorResponse env ctx.restconfRequest.path exception = .ok error →
      TakesReport env error := by
    intro error known
    by_contra untaken
    exact intact (.report ⟨exception, error, fails, known, untaken⟩)
  have mapped : exception.IsMapped → (ctx.restconfRequest.path ≠ str "/" → ∀ error,
      exception = .sysrepo error → error.code = .validationFailed → ∀ failure,
        env.libyang.ctx.findPath ctx.restconfRequest.path = .error failure → False) →
      exception.IsMapped ∧
        ∃ error, mappedErrorResponse env ctx.restconfRequest.path exception = .ok error ∧
          TakesReport env error := by
    intro isMapped resolved
    refine ⟨isMapped, ?_⟩
    rcases @mappedErrorResponse_of_isMapped S env ctx.restconfRequest.path exception isMapped with
      ⟨error, known⟩ | ⟨path, ⟨error, rfl, failed⟩, failure, missing, _⟩
    · exact ⟨error, known, takes error known⟩
    · exact (resolved path error rfl failed failure missing).elim
  cases fails with
  | root kind path fails => exact mapped fails.isMapped fun other => absurd path other
  | put kind path fails =>
      rcases fails.mapped_or_breaks path points with ⟨isMapped, refusal⟩ | ⟨_, breaks⟩
      · refine mapped isMapped fun _ error same failed failure missing => ?_
        exact intact (.path kind ⟨path, ⟨failure, missing⟩, error, failed, refusal error same⟩)
      · exact absurd (.key kind breaks) intact
  | patch kind fails =>
      rcases fails.local_or_breaks documents with own | ⟨_, breaks⟩
      · refine mapped own.isMapped fun _ error same => ?_
        rw [same] at own
        exact own.elim
      · exact absurd (.edit kind breaks) intact

/-- Exceptions are contained if all of them are mapped to errors which are reported. -/
theorem contained_of_mapped (documents : Documents env) (kind : processing ctx ≠ .post)
    (mapped : ∀ exception, Raises (processPayload env ctx) exception → exception.IsMapped ∧
      ∃ error, mappedErrorResponse env ctx.restconfRequest.path exception = .ok error ∧
        TakesReport env error) :
    Contained env ctx := by
  have allMapped : ∀ exception,
      (exec (processPayload env ctx) World.initial).1 = .error exception → exception.IsMapped :=
    fun exception raised => (mapped exception ⟨World.initial, raised⟩).1
  cases run : exec (processPayload env ctx) World.initial with
  | mk result middle =>
      cases result with
      | ok value =>
          have whole : exec (onPayload env ctx) World.initial = (.ok (), middle) :=
            exec_withRestconfExceptions_ok run
          obtain ⟨head, body⟩ := responds_of_returns kind
            (show (exec (processPayload env ctx) World.initial).1 = .ok () by rw [run])
          rw [run] at head body
          refine ⟨?_, ?_, ?_, allMapped⟩
          · rw [whole]
          · rwa [afterPayload, whole]
          · rwa [afterPayload, whole]
      | error exception =>
          obtain ⟨_, error, known, takes⟩ := mapped exception ⟨World.initial, by rw [run]⟩
          have reports : Reports (rejectWithError env ctx.toRequest error) :=
            reports_rejectWithError error
          obtain ⟨after, _, ⟨_, done, head, body⟩ | ⟨_, failed, _⟩⟩ := reports.cases middle
          · have whole : exec (onPayload env ctx) World.initial = (.ok (), after) := by
              simp only [onPayload, reportExceptions, exec_withRestconfExceptions_error run, report,
                exec_bind, exec_liftM, known, done]
            refine ⟨?_, ?_, ?_, allMapped⟩
            · rw [whole]
            · rwa [afterPayload, whole]
            · rwa [afterPayload, whole]
          · rw [(outcome_rejectWithError_iff documents).mpr takes] at failed
            cases failed

/-- What a payload fails with is raised whatever was done before. -/
theorem PayloadFails.raised (documents : Documents env) (kind : processing ctx ≠ .post)
    {exception : Exception} (fails : PayloadFails env ctx exception) :
    (exec (processPayload env ctx) World.initial).1 = .error exception := by
  obtain ⟨world, raised⟩ := (raises_processPayload_iff documents kind).mpr fails
  exact (uniform_processPayload kind World.initial world).trans raised

/-- A payload which breaks the server fails with something which is not mapped, or not mapped to
an error, or mapped to an error whose report libyang does not take. -/
theorem Breaks.not_contained (documents : Documents env) (kind : processing ctx ≠ .post)
    (breaks : Breaks env ctx) : ¬Contained env ctx := by
  intro contained
  have returns := contained.returns
  cases breaks with
  | key kind' breaks =>
      obtain ⟨exception, fails, unmapped⟩ := breaks.fails
      exact unmapped (contained.mapped exception
        (PayloadFails.raised documents kind (.put kind' breaks.path fails)))
  | edit kind' breaks =>
      obtain ⟨exception, fails, unmapped⟩ := breaks.fails
      exact unmapped (contained.mapped exception
        (PayloadFails.raised documents kind (.patch kind' fails)))
  | path kind' unresolved =>
      obtain ⟨path, ⟨failure, missing⟩, error, failed, refuses⟩ := unresolved
      have raised := PayloadFails.raised documents kind (.put kind' path (.refused refuses))
      have unknown : mappedErrorResponse env ctx.restconfRequest.path (.sysrepo error) =
          .error (.libyang failure) := by
        simp only [mappedErrorResponse, sysrepoErrorResponse, failed, isAction, if_neg path,
          missing, raise]
        rfl
      rw [onPayload, reportExceptions, exec_withRestconfExceptions_error (Prod.ext raised rfl)]
        at returns
      simp only [Server.report, exec_bind, exec_liftM, unknown] at returns
      cases returns
  | report unreported =>
      obtain ⟨exception, error, fails, known, untaken⟩ := unreported
      have raised := fails.raised documents kind
      have reports : Reports (rejectWithError env ctx.toRequest error) :=
        reports_rejectWithError error
      obtain ⟨after, _, ⟨done, _⟩ | ⟨other, _, run⟩⟩ :=
        reports.cases (exec (processPayload env ctx) World.initial).2
      · exact untaken ((outcome_rejectWithError_iff documents).mp done)
      · rw [onPayload, reportExceptions, exec_withRestconfExceptions_error (Prod.ext raised rfl)]
          at returns
        simp only [Server.report, exec_bind, exec_liftM, known, run] at returns
        cases returns

end Response

section Containment

variable {S : Type} [DecidableEq S] {env : Env S} {ctx : RequestContext}

/-- The exceptions of a `PUT`, a plain `PATCH` or a YANG Patch are contained exactly if the
processing of the payload does not get to a key value which mixes quotes, a validation
failure is not reported for a path which is not found, and libyang takes the report of the
error which the payload is rejected with. -/
theorem contained_iff (documents : Documents env) {query : Str}
    (accepted : asRestconfRequest env.libyang.ctx ctx.method ctx.rawPath query =
      .ok ctx.restconfRequest) (kind : processing ctx ≠ .post) :
    Contained env ctx ↔ ¬Breaks env ctx := by
  constructor
  · intro contained breaks
    exact breaks.not_contained documents kind contained
  · intro intact
    apply contained_of_mapped documents kind
    intro exception raises
    have fails := (raises_processPayload_iff documents kind).mp raises
    exact fails.reported documents (point_of_accepted accepted) intact

/-! ## An entry of a list -/

/-- A `PUT` of an entry of the list `top-level-list`. -/
def listEntryContext : RequestContext where
  method := str "PUT"
  rawPath := str "/restconf/data/example:top-level-list=a"
  path := str "/restconf/data/example:top-level-list=a"
  responseFormat := .json
  urlPrefix := none
  requestFormat := .json
  activeDatastore := .running
  restconfRequest :=
    ⟨.createOrReplaceThisNode, none, str "/example:top-level-list[name='a']", []⟩
  contentTypeHeader := some (str "application/yang-data+json")
  payload := []

/-- The entry of the list with the given name. -/
def listEntry (name : Str) : DataNode Example.Node :=
  .inner .topLevelList [.leaf .topLevelListName name]

/-- A server which parses every payload as an entry of the list. -/
def listEntryEnv (name : Str) : Env Example.Node where
  libyang :=
    { Example.calls with
      parseData := fun _ _ => .ok [listEntry name]
      newPath2 := fun path =>
        if path = str "/example:top-level-list[name='a']/name" then
          .ok ⟨listEntry (str "a"), [0], .leaf .topLevelListName (str "a"), rfl⟩
        else .error Example.noAnswer }
  session := .accepting

theorem documents_listEntryEnv (name : Str) : Documents (listEntryEnv name) :=
  documents_of_finding (fun _ _ => rfl) (fun _ _ => ⟨_, rfl⟩)
    (fun _ _ _ parsed => by cases parsed)

theorem listEntry_accepted (name : Str) :
    asRestconfRequest (listEntryEnv name).libyang.ctx listEntryContext.method
      listEntryContext.rawPath [] = .ok listEntryContext.restconfRequest := by
  rfl

/-- The name of the entry is the one of the URI. -/
theorem listEntry_contained : Contained (listEntryEnv (str "a")) listEntryContext := by
  have created : (exec (createEdit (listEntryEnv (str "a")) listEntryContext)
      World.initial).1.isOk = true := by
    decide +kernel
  refine (contained_iff (documents_listEntryEnv _) (listEntry_accepted _) (by decide)).mpr ?_
  rintro (⟨_, breaks⟩ | ⟨_, _, ⟨_, missing⟩, _⟩ | ⟨kind, _⟩ | ⟨_, error, _, _, untaken⟩)
  · obtain ⟨exception, ⟨world, raised⟩, _⟩ := raises_of_unbuildable breaks.unbuildable
    have uniform : Uniform (createEdit (listEntryEnv (str "a")) listEntryContext) :=
      (builds_createEditForPutAndPatch ..).uniform
    rw [uniform World.initial world, createEdit, raised] at created
    cases created
  · cases missing
  · cases kind
  · exact untaken (takesReport_of_taking (fun _ _ => rfl) error)

/-- The name of the entry mixes both kinds of quotes. -/
theorem listEntry_escapes :
    asRestconfRequest Example.schema (str "PUT")
        (str "/restconf/data/example:top-level-list=a") [] =
      .ok listEntryContext.restconfRequest ∧
    ¬Contained (listEntryEnv (str "a'b\"c")) listEntryContext := by
  refine ⟨rfl, fun contained => ?_⟩
  have raised : (exec (onPayload (listEntryEnv (str "a'b\"c")) listEntryContext)
      World.initial).1.isOk = false := by
    decide +kernel
  rw [contained.returns] at raised
  cases raised

end Containment

end Rousette.Restconf.Server
