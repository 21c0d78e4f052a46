import Rousette.Restconf.UriPaths

/-!
# Errors of request URIs

Whatever is wrong with the method, the path or the query of a request is reported by
an error response: no other exception leaves `asRestconfRequest`.
-/

namespace Rousette.Restconf

open Library Libyang Exception

variable {S : Type} {ctx : Context S}

theorem throws_require {condition : Bool} {error : ErrorResponse} :
    Throws IsErrorResponse (require condition (.errorResponse error)) := by
  intro exception failed
  rw [(require_eq_error.mp failed).2]
  trivial

theorem throws_parse {α : Type} (uriSegment : Str) (grammar : Parser α) (input : Str)
    (positionOffset : Nat) :
    Throws IsErrorResponse (Impl.parse uriSegment grammar input positionOffset) := by
  simp only [Impl.parse]
  split
  · exact .ok _
  · exact .error trivial
  · exact .error trivial

theorem throws_nextNode (current : Option S) (ident : ApiIdentifier) :
    Throws IsErrorResponse (nextNode ctx current ident) := by
  unfold nextNode
  split
  · split
    · exact .ok _
    · exact .error trivial
  · split
    · exact .ok _
    · exact .error trivial

/-- With enough values, only quotes are a problem. -/
theorem listKeyPredicate_error_of_length {keys : List S} {values : List Str}
    {exception : Exception} (enough : keys.length ≤ values.length)
    (failed : listKeyPredicate ctx keys values = .error exception) :
    ∃ what, exception = .invalidArgument what := by
  induction keys generalizing values with
  | nil => cases failed
  | cons key keys ih =>
      cases values with
      | nil => simp at enough
      | cons value values =>
          simp only [List.length_cons, Nat.add_le_add_iff_right] at enough
          simp only [listKeyPredicate, bind, Except.bind] at failed
          cases escaping : escapeListKey value with
          | error other =>
              simp only [escaping, Except.error.injEq] at failed
              subst failed
              exact (escapeListKey_error escaping).2
          | ok text =>
              simp only [escaping] at failed
              cases rest : listKeyPredicate ctx keys values with
              | error other =>
                  simp only [rest, Except.error.injEq] at failed
                  subst failed
                  exact ih enough rest
              | ok predicate => simp [rest, pure, Except.pure] at failed

theorem throws_reportInvalidArgument {α : Type} {result : Except Exception α}
    (throws : Throws (fun exception => ∃ what, exception = .invalidArgument what) result) :
    Throws IsErrorResponse (reportInvalidArgument result) := by
  intro exception failed
  cases outcome : result with
  | ok value =>
      rw [outcome] at failed
      cases failed
  | error other =>
      obtain ⟨what, rfl⟩ := throws other outcome
      rw [outcome] at failed
      cases failed
      trivial

theorem throws_leaflistKeyPredicate (value : Str) :
    Throws (fun exception => ∃ what, exception = .invalidArgument what)
      (leaflistKeyPredicate value) := by
  apply Throws.bind
  · intro exception failed
    exact (escapeListKey_error failed).2
  · intro escaped _
    exact .ok _

theorem throws_keysPredicate (node : S) (keys : List Str) :
    Throws IsErrorResponse (keysPredicate ctx node keys) := by
  unfold keysPredicate
  cases ctx.nodeType node with
  | list =>
      dsimp only
      split
      · exact .error trivial
      · split
        · exact .error trivial
        next same =>
          apply throws_reportInvalidArgument
          intro exception failed
          exact listKeyPredicate_error_of_length (Nat.le_of_eq (not_not.mp same).symm) failed
  | leaflist =>
      dsimp only
      split
      next key => exact throws_reportInvalidArgument (throws_leaflistKeyPredicate key)
      · exact .error trivial
  | _ =>
      dsimp only
      split
      · exact .error trivial
      · exact .ok _

theorem throws_asLibyangPathFrom (current : Option S) (res : Str) (segments : List PathSegment) :
    Throws IsErrorResponse (asLibyangPathFrom ctx current res segments) := by
  induction segments generalizing current res with
  | nil => exact .ok _
  | cons segment rest ih =>
      apply Throws.bind (throws_nextNode current segment.apiIdent)
      intro node _
      apply Throws.bind (throws_keysPredicate node segment.keys)
      intro predicate _
      apply Throws.bind throws_require
      intro _ _
      exact ih _ _

theorem throws_asLibyangPathSplit (uriPath : Str) :
    Throws IsErrorResponse (asLibyangPathSplit ctx uriPath) := by
  apply Throws.bind (throws_parse _ _ _ _)
  intro uri _
  cases lastOne : uri.segments.getLast? with
  | none => exact .error trivial
  | some last =>
      apply Throws.bind (throws_asLibyangPathFrom none [] _)
      intro parent _
      split
      · exact .ok _
      · apply Throws.bind (throws_asLibyangPathFrom none [] _)
        intro full whole
        have nonempty : uri.segments ≠ [] := by
          intro empty
          simp [empty] at lastOne
        obtain ⟨node, known⟩ := (asLibyangPathFrom_ne_nil whole nonempty).2
        rw [known]
        exact .ok _

/-! ## Requests -/

theorem throws_checkValidDataResource (node : S) (uriPrefix : Impl.URIPrefix) :
    Throws IsErrorResponse (checkValidDataResource ctx node uriPrefix) := by
  unfold checkValidDataResource
  split
  · exact .error trivial
  · cases ctx.nodeType node with
    | container | leaf | anyXML | anyData | leaflist | list => exact .ok _
    | _ => exact .error trivial

theorem throws_validateMethodForNode (httpMethod : Str) (uriPrefix : Impl.URIPrefix)
    (node : Option S) :
    Throws IsErrorResponse (validateMethodForNode ctx httpMethod uriPrefix node) := by
  unfold validateMethodForNode
  split
  · exact .ok _
  · cases node with
    | none =>
        dsimp only
        split
        case h_1 | h_2 =>
          split
          · exact .error trivial
          · exact .ok _
        all_goals
          split
          · exact .error trivial
          · exact .ok _
    | some node =>
        dsimp only
        split
        · split
          · split
            · exact .error trivial
            · exact .ok _
          · split
            · exact .ok _
            · exact .error trivial
          · exact throws_checkValidDataResource node uriPrefix
        · exact throws_checkValidDataResource node uriPrefix

theorem throws_refuseQuery (message : Option Str) :
    Throws IsErrorResponse (refuseQuery message) := by
  cases message with
  | none => exact .ok _
  | some message => exact .error trivial

theorem throws_validateQueryParameters (params : QueryParams) (httpMethod : Str) :
    Throws IsErrorResponse (validateQueryParameters params httpMethod) := by
  apply Throws.bind (throws_refuseQuery _)
  intro _ _
  apply Throws.bind (throws_refuseQuery _)
  intro _ _
  apply Throws.bind (throws_refuseQuery _)
  intro _ _
  apply Throws.bind (throws_refuseQuery _)
  intro _ _
  exact throws_require

theorem throws_datastoreFromApiIdentifier {datastore : Option ApiIdentifier}
    (qualified : ∀ ident ∈ datastore, ident.modulePrefix.isSome = true) :
    Throws IsErrorResponse (datastoreFromApiIdentifier datastore) := by
  match datastore with
  | none => exact .ok _
  | some ⟨none, identifier⟩ => simp at qualified
  | some ⟨some modulePrefix, identifier⟩ =>
      simp only [datastoreFromApiIdentifier]
      split
      · exact .ok _
      · exact .error trivial

/-- `DELETE` is only for data nodes. -/
theorem isSome_of_delete {uriPrefix : Impl.URIPrefix} {schemaNode : Option S}
    (valid : validateMethodForNode ctx (str "DELETE") uriPrefix schemaNode = .ok ()) :
    schemaNode.isSome = true := by
  cases schemaNode with
  | some node => rfl
  | none =>
      obtain ⟨resourceType, datastore⟩ := uriPrefix
      cases resourceType <;> cases valid

/-- `POST` is for operations and for data. -/
theorem operation_or_data_of_post {uriPrefix : Impl.URIPrefix} {schemaNode : Option S}
    (valid : validateMethodForNode ctx (str "POST") uriPrefix schemaNode = .ok ()) :
    schemaNode.any (isOperation ctx) = true ∨
      (uriPrefix.resourceType = .basicRestconfData ∨ uriPrefix.resourceType = .nmdaDatastore) := by
  obtain ⟨resourceType, datastore⟩ := uriPrefix
  cases resourceType with
  | basicRestconfData => exact .inr (.inl rfl)
  | nmdaDatastore => exact .inr (.inr rfl)
  | restconfRoot | basicRestconfOperations | yangLibraryVersion =>
      cases schemaNode with
      | none => cases valid
      | some node =>
          left
          have notOptions : str "POST" ≠ str "OPTIONS" := by decide
          simp only [validateMethodForNode, notOptions, if_false, if_true] at valid
          cases kind : ctx.nodeType node with
          | rpc => simp [isOperation, kind]
          | action => simp [isOperation, kind]
          | _ => simp [kind, checkValidDataResource] at valid

/-- A resource which a method is valid for has a request type. -/
theorem requestType_isOk {httpMethod uriPath lyPath : Str} {uri : Impl.URIPath}
    {schemaNode : Option S} (method : httpMethods.contains httpMethod = true)
    (notOptions : httpMethod ≠ str "OPTIONS")
    (valid : validateMethodForNode ctx httpMethod uri.uriPrefix schemaNode = .ok ()) :
    ∃ typeAndPath, requestType ctx httpMethod uriPath uri lyPath schemaNode = .ok typeAndPath := by
  simp only [requestType]
  split
  · exact ⟨_, rfl⟩
  next notGet =>
  split
  · exact ⟨_, rfl⟩
  next notPut =>
  split
  · exact ⟨_, rfl⟩
  next notDelete =>
  split
  · split
    · exact ⟨_, rfl⟩
    · exact ⟨_, rfl⟩
  next notOperation =>
  split
  · exact ⟨_, rfl⟩
  next notChildren =>
  split
  · exact ⟨_, rfl⟩
  next notPatch =>
  -- none of the methods is left
  exfalso
  simp only [httpMethods, List.contains_iff_mem, List.mem_cons, List.not_mem_nil, or_false]
    at method
  rcases method with rfl | rfl | rfl | rfl | rfl | rfl | rfl
  · exact notGet (.inl rfl)
  · exact notPut rfl
  · rcases operation_or_data_of_post valid with operation | data
    · exact notOperation ⟨rfl, operation⟩
    · exact notChildren ⟨rfl, data⟩
  · exact notDelete ⟨rfl, isSome_of_delete valid⟩
  · exact notGet (.inr rfl)
  · exact notOptions rfl
  · exact notPatch rfl

/-- No other exception than an error response leaves `asRestconfRequest`. -/
theorem throws_asRestconfRequest (httpMethod uriPath uriQueryString : Str) :
    Throws IsErrorResponse (asRestconfRequest ctx httpMethod uriPath uriQueryString) := by
  apply Throws.bind throws_require
  intro _ method
  apply Throws.bind (throws_parse _ _ _ _)
  intro uri parsed
  apply Throws.bind (throws_parse _ _ _ _)
  intro queryParameters _
  apply Throws.bind (throws_validateQueryParameters queryParameters httpMethod)
  intro _ _
  apply Throws.bind (throws_asLibyangPathFrom none [] uri.segments)
  intro resolved _
  apply Throws.bind (throws_validateMethodForNode httpMethod uri.uriPrefix resolved.schemaNode)
  intro _ valid
  split
  · exact .ok _
  next notOptions =>
    split
    · exact .ok _
    · exact .ok _
    · exact .ok _
    · obtain ⟨typeAndPath, typed⟩ := requestType_isOk (require_eq_ok.mp method) notOptions valid
      have throwsType : Throws IsErrorResponse (requestType ctx httpMethod uriPath uri
          resolved.dataPath resolved.schemaNode) := by
        rw [typed]
        exact .ok typeAndPath
      apply Throws.bind throwsType
      intro _ _
      apply Throws.bind
      · exact throws_datastoreFromApiIdentifier (Impl.parseUriPath_qualified parsed).datastore
      · intro datastore _
        exact .ok _

/-- The methods for a URI are always found out. -/
theorem allowedHttpMethodsForUri_isOk (uriPath : Str) :
    ∃ methods, allowedHttpMethodsForUri ctx uriPath = .ok methods := by
  have decided : ∀ httpMethod, ∃ allowed, isAllowed ctx httpMethod uriPath = .ok allowed := by
    intro httpMethod
    unfold isAllowed
    cases outcome : asRestconfRequest ctx httpMethod uriPath [] with
    | ok request => exact ⟨true, rfl⟩
    | error exception =>
        have response := throws_asRestconfRequest httpMethod uriPath [] exception outcome
        cases exception with
        | errorResponse error => exact ⟨false, rfl⟩
        | _ => exact response.elim
  obtain ⟨get, getOk⟩ := decided (str "GET")
  obtain ⟨put, putOk⟩ := decided (str "PUT")
  obtain ⟨post, postOk⟩ := decided (str "POST")
  obtain ⟨delete, deleteOk⟩ := decided (str "DELETE")
  obtain ⟨head, headOk⟩ := decided (str "HEAD")
  obtain ⟨patch, patchOk⟩ := decided (str "PATCH")
  simp only [allowedHttpMethodsForUri, getOk, putOk, postOk, deleteOk, headOk, patchOk]
  exact ⟨_, rfl⟩

theorem throws_validateFields (paths : List Str) :
    Throws IsErrorResponse (validateFields ctx paths) := by
  induction paths with
  | nil => exact .ok _
  | cons xpath rest ih =>
      unfold validateFields
      cases ctx.findPath xpath with
      | ok node =>
          apply Throws.bind (throws_validateMethodForNode _ _ _)
          intro _ _
          exact ih
      | error error => exact .error trivial

theorem throws_fieldsToXPath (pathPrefix : Str) (expr : QueryParams.FieldsExpr) :
    Throws IsErrorResponse (fieldsToXPath ctx pathPrefix expr) := by
  apply Throws.bind (throws_validateFields _)
  intro _ _
  exact .ok _

/-- What the query of an accepted request has gone through. -/
theorem queryParams_of_accepted {httpMethod uriPath uriQueryString : Str}
    {request : RestconfRequest}
    (accepted : asRestconfRequest ctx httpMethod uriPath uriQueryString = .ok request) :
    request.queryParams = [] ∨
      Impl.parseQueryParams uriQueryString (uriPath.length + 1) = .ok request.queryParams ∧
        validateQueryParameters request.queryParams httpMethod = .ok () := by
  simp only [asRestconfRequest, except_bind_eq_ok] at accepted
  obtain ⟨_, _, uri, _, params, parsed, _, validated, resolved, _, _, _, result⟩ := accepted
  split at result
  · cases result
    exact .inl rfl
  · split at result
    · cases result
      exact .inr ⟨parsed, validated⟩
    · cases result
      exact .inr ⟨parsed, validated⟩
    · cases result
      exact .inr ⟨parsed, validated⟩
    · obtain ⟨_, _, result⟩ := except_bind_eq_ok.mp result
      obtain ⟨_, _, result⟩ := except_bind_eq_ok.mp result
      cases result
      exact .inr ⟨parsed, validated⟩

/-- The parameters of an accepted request have values of their kinds. -/
theorem typed_of_accepted {httpMethod uriPath uriQueryString : Str} {request : RestconfRequest}
    (accepted : asRestconfRequest ctx httpMethod uriPath uriQueryString = .ok request)
    {name : String} {value : QueryParams.QueryParamValue}
    (found : request.queryParams.find name = some value) : Impl.Typed (str name, value) := by
  obtain ⟨param, member, rfl⟩ := Option.map_eq_some_iff.mp found
  have tested := List.find?_some member
  have named : param.1 = str name := beq_iff_eq.mp tested
  have member := List.mem_of_find?_eq_some member
  rcases queryParams_of_accepted accepted with none | ⟨parsed, _⟩
  · rw [none] at member
    cases member
  · rw [← named]
    exact Impl.parseQueryParams_typed parsed param member

/-- In an accepted request, a place next to an entry comes with a point, which is a path. -/
theorem point_of_accepted {httpMethod uriPath uriQueryString : Str} {request : RestconfRequest}
    (accepted : asRestconfRequest ctx httpMethod uriPath uriQueryString = .ok request)
    (before : hasInsertParamBeforeOrAfter request.queryParams = true) :
    ∃ point, request.queryParams.find "point" = some (.pointParsed point) := by
  rcases queryParams_of_accepted accepted with none | ⟨_, validated⟩
  · rw [none] at before
    cases before
  · simp only [validateQueryParameters, except_bind_eq_ok] at validated
    obtain ⟨_, _, _, _, _, _, _, _, together⟩ := validated
    have present := beq_iff_eq.mp (require_eq_ok.mp together)
    rw [before] at present
    obtain ⟨value, found⟩ := Option.isSome_iff_exists.mp present
    obtain ⟨segments, path⟩ := (typed_of_accepted accepted found).point rfl
    have path : value = .pointParsed segments := path
    exact ⟨segments, by rw [found, path]⟩

end Rousette.Restconf
