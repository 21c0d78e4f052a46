import Rousette.Libyang.Example
import Rousette.Restconf.PercentDecoding
import Rousette.Restconf.Server.Resources
import Rousette.Restconf.UriErrors

/-!
# Advertised methods

The methods which a resource has are those which `asRestconfRequest` accepts.  They depend on the
kind of the resource only.  The dispatcher finds out the resource from the path as it was sent;
the header `allow`, of an `OPTIONS` reply and of the status code 405, is about the percent-decoded
path.
-/

namespace Rousette.Restconf

open Library Libyang

/-! ## Kinds of resources -/

/-- Resources with the same methods. -/
inductive ResourceKind where
  /-- no method is accepted -/
  | unavailable
  /-- the API resources, which are only read -/
  | api
  | datastore
  | data
  /-- an RPC or an action where it can be invoked -/
  | operation
  deriving DecidableEq, Repr

/-- The methods for resources of a kind, apart from `OPTIONS`. -/
def ResourceKind.methods : ResourceKind → List Str
  | .unavailable => []
  | .api => [str "GET", str "HEAD"]
  | .datastore => [str "GET", str "HEAD", str "PATCH", str "POST", str "PUT"]
  | .data => [str "DELETE", str "GET", str "HEAD", str "PATCH", str "POST", str "PUT"]
  | .operation => [str "POST"]

/-- The same for the methods which a request may have. -/
def ResourceKind.Allows (httpMethod : Str) : ResourceKind → Prop
  | .unavailable => False
  | .api => httpMethod = str "GET" ∨ httpMethod = str "HEAD"
  | .datastore => httpMethod ≠ str "DELETE"
  | .data => True
  | .operation => httpMethod = str "POST"

theorem ResourceKind.mem_methods {kind : ResourceKind} {httpMethod : Str}
    (known : httpMethod ∈ httpMethods) (notOptions : httpMethod ≠ str "OPTIONS") :
    httpMethod ∈ kind.methods ↔ kind.Allows httpMethod := by
  simp only [httpMethods, List.mem_cons, List.not_mem_nil, or_false] at known
  rcases known with rfl | rfl | rfl | rfl | rfl | rfl | rfl
  case inr.inr.inr.inr.inr.inl => exact absurd rfl notOptions
  all_goals cases kind <;> simp only [ResourceKind.Allows] <;> decide

theorem ResourceKind.known_of_mem {kind : ResourceKind} {httpMethod : Str}
    (allowed : httpMethod ∈ kind.methods) :
    httpMethod ∈ httpMethods ∧ httpMethod ≠ str "OPTIONS" := by
  have known : ∀ httpMethod ∈ kind.methods,
      httpMethod ∈ httpMethods ∧ httpMethod ≠ str "OPTIONS" := by
    cases kind <;> decide
  exact known httpMethod allowed

theorem ResourceKind.options_notMem (kind : ResourceKind) : str "OPTIONS" ∉ kind.methods :=
  fun allowed => (known_of_mem allowed).2 rfl

/-- A kind is determined by its methods. -/
theorem ResourceKind.eq_of_methods {kind other : ResourceKind}
    (same : ∀ httpMethod, httpMethod ∈ kind.methods ↔ httpMethod ∈ other.methods) :
    kind = other := by
  have get := same (str "GET")
  have put := same (str "PUT")
  have delete := same (str "DELETE")
  have post := same (str "POST")
  revert get put delete post
  cases kind <;> cases other <;> decide

section Kinds

variable {S : Type} (ctx : Context S)

/-- The nodes which are data resources. -/
def isDataNode (node : S) : Bool :=
  match ctx.nodeType node with
  | .container | .leaf | .anyXML | .anyData | .leaflist | .list => true
  | _ => false

/-- Resources below which there is data. -/
def isDataPrefix (uriPrefix : Impl.URIPrefix) : Bool :=
  uriPrefix.resourceType == .basicRestconfData || uriPrefix.resourceType == .nmdaDatastore

/-- An RPC is invoked below the operations, an action below the data of the unified or of the
operational datastore. -/
def isInvocable (uriPrefix : Impl.URIPrefix) (node : S) : Bool :=
  match ctx.nodeType node with
  | .rpc => uriPrefix.resourceType == .basicRestconfOperations
  | .action =>
      uriPrefix.resourceType == .basicRestconfData ||
        (uriPrefix.resourceType == .nmdaDatastore &&
          uriPrefix.datastore == some ⟨some (str "ietf-datastores"), str "operational"⟩)
  | _ => false

/-- The kind of what is found below a known datastore or API resource. -/
def nodeKind (uriPrefix : Impl.URIPrefix) : Option S → ResourceKind
  | none => if isDataPrefix uriPrefix then .datastore else .api
  | some node =>
      if isInvocable ctx uriPrefix node then .operation
      else if isDataPrefix uriPrefix && isDataNode ctx node then .data
      else .unavailable

/-- The kind of the resource which a path names. -/
def resourceKind (uriPath : Str) : ResourceKind :=
  match Impl.parseUriPath uriPath with
  | .error _ => .unavailable
  | .ok uri =>
      match asLibyangPath ctx uri.segments, datastoreFromApiIdentifier uri.uriPrefix.datastore with
      | .ok resolved, .ok _ => nodeKind ctx uri.uriPrefix resolved.schemaNode
      | _, _ => .unavailable

variable {ctx}

theorem checkValidDataResource_eq_ok_iff {node : S} {uriPrefix : Impl.URIPrefix} :
    checkValidDataResource ctx node uriPrefix = .ok () ↔
      isDataPrefix uriPrefix = true ∧ isDataNode ctx node = true := by
  obtain ⟨resourceType, datastore⟩ := uriPrefix
  simp only [checkValidDataResource, isDataPrefix, isDataNode]
  cases resourceType <;> cases ctx.nodeType node <;> simp

/-- An operation is not a data resource. -/
theorem not_isDataNode_of_isInvocable {node : S} {uriPrefix : Impl.URIPrefix}
    (invocable : isInvocable ctx uriPrefix node = true) : isDataNode ctx node = false := by
  simp only [isInvocable, isDataNode] at invocable ⊢
  cases type : ctx.nodeType node with
  | rpc => rfl
  | action => rfl
  | _ => simp [type] at invocable

theorem validateMethodForNode_none_iff {httpMethod : Str} {uriPrefix : Impl.URIPrefix}
    (notOptions : httpMethod ≠ str "OPTIONS") :
    validateMethodForNode ctx httpMethod uriPrefix none = .ok () ↔
      if isDataPrefix uriPrefix then httpMethod ≠ str "DELETE"
      else httpMethod = str "GET" ∨ httpMethod = str "HEAD" := by
  obtain ⟨resourceType, datastore⟩ := uriPrefix
  simp only [validateMethodForNode, notOptions, if_false, isDataPrefix]
  cases resourceType with
  | basicRestconfData | nmdaDatastore => simp
  | restconfRoot | basicRestconfOperations | yangLibraryVersion =>
      by_cases get : httpMethod = str "GET"
      · simp [get]
      · by_cases head : httpMethod = str "HEAD"
        · simp [head]
        · simp [get, head]

theorem validateMethodForNode_some_iff {httpMethod : Str} {uriPrefix : Impl.URIPrefix} {node : S}
    (notOptions : httpMethod ≠ str "OPTIONS") :
    validateMethodForNode ctx httpMethod uriPrefix (some node) = .ok () ↔
      (httpMethod = str "POST" ∧ isInvocable ctx uriPrefix node = true) ∨
        (isDataPrefix uriPrefix = true ∧ isDataNode ctx node = true) := by
  by_cases post : httpMethod = str "POST"
  · subst post
    simp only [validateMethodForNode, notOptions, if_false, if_true, true_and]
    cases type : ctx.nodeType node with
    | rpc => simp [isInvocable, isDataNode, type]
    | action =>
        simp only [isInvocable, isDataNode, type, Bool.or_eq_true, Bool.and_eq_true, beq_iff_eq,
          and_false, or_false, Bool.false_eq_true]
        constructor
        · intro valid
          by_contra refused
          rw [if_neg refused] at valid
          cases valid
        · exact fun allowed => if_pos allowed
    | _ => simp [isInvocable, type, checkValidDataResource_eq_ok_iff]
  · simp only [validateMethodForNode, notOptions, if_false, post, false_and, false_or]
    exact checkValidDataResource_eq_ok_iff

/-- The methods which are valid for what was found are those of its kind. -/
theorem mem_methods_nodeKind {httpMethod : Str} {uriPrefix : Impl.URIPrefix}
    {schemaNode : Option S} (known : httpMethod ∈ httpMethods)
    (notOptions : httpMethod ≠ str "OPTIONS") :
    httpMethod ∈ (nodeKind ctx uriPrefix schemaNode).methods ↔
      validateMethodForNode ctx httpMethod uriPrefix schemaNode = .ok () := by
  rw [ResourceKind.mem_methods known notOptions]
  cases schemaNode with
  | none =>
      rw [validateMethodForNode_none_iff notOptions, nodeKind]
      cases isDataPrefix uriPrefix <;> simp [ResourceKind.Allows]
  | some node =>
      rw [validateMethodForNode_some_iff notOptions, nodeKind]
      cases invocable : isInvocable ctx uriPrefix node with
      | true => simp [ResourceKind.Allows, not_isDataNode_of_isInvocable invocable]
      | false =>
          cases isDataPrefix uriPrefix <;> cases isDataNode ctx node <;>
            simp [ResourceKind.Allows]

/-- Which resources have a datastore. -/
theorem datastore_of_parseUriPath {uriPath : Str} {uri : Impl.URIPath}
    (parsed : Impl.parseUriPath uriPath = .ok uri)
    (notData : isDataPrefix uri.uriPrefix = false) : uri.uriPrefix.datastore = none := by
  obtain ⟨phrase, _, rfl⟩ := Impl.parseUriPath_eq_ok_iff.mp parsed
  cases phrase with
  | ds modulePrefix name path => cases notData
  | _ => rfl

theorem validateQueryParameters_nil (httpMethod : Str) :
    validateQueryParameters [] httpMethod = .ok () := by
  simp [validateQueryParameters, repeatedParameter, misplaced, firstPresent, refuseQuery,
    hasInsertParamBeforeOrAfter, require, QueryParams.find, bind, Except.bind]

/-- A path without a query is accepted if it is resolved, the method is valid for the node, and
the datastore is known. -/
theorem asRestconfRequest_isOk_iff {httpMethod uriPath : Str}
    (notOptions : httpMethod ≠ str "OPTIONS") :
    (∃ request, asRestconfRequest ctx httpMethod uriPath [] = .ok request) ↔
      httpMethod ∈ httpMethods ∧ ∃ uri resolved datastore,
        Impl.parseUriPath uriPath = .ok uri ∧ asLibyangPath ctx uri.segments = .ok resolved ∧
        datastoreFromApiIdentifier uri.uriPrefix.datastore = .ok datastore ∧
        validateMethodForNode ctx httpMethod uri.uriPrefix resolved.schemaNode = .ok () := by
  have query : Impl.parseQueryParams [] (uriPath.length + 1) = .ok [] :=
    Impl.parse_eq_ok_iff.mpr rfl
  have apiResource {uri : Impl.URIPath} (parsed : Impl.parseUriPath uriPath = .ok uri)
      (notData : isDataPrefix uri.uriPrefix = false) :
      datastoreFromApiIdentifier uri.uriPrefix.datastore = .ok none := by
    rw [datastore_of_parseUriPath parsed notData]
    rfl
  constructor
  case mp =>
    rintro ⟨request, accepted⟩
    simp only [asRestconfRequest, except_bind_eq_ok, notOptions, if_false] at accepted
    obtain ⟨_, known, uri, parsed, _, _, _, _, resolved, walked, _, valid, result⟩ := accepted
    have known := List.contains_iff_mem.mp (require_eq_ok.mp known)
    have api {resourceType : Impl.ResourceType} (type : uri.uriPrefix.resourceType = resourceType)
        (notData : (resourceType == .basicRestconfData || resourceType == .nmdaDatastore) = false) :
        datastoreFromApiIdentifier uri.uriPrefix.datastore = .ok none := by
      apply apiResource parsed
      rw [isDataPrefix, type, notData]
    split at result
    case h_1 type => exact ⟨known, uri, resolved, none, parsed, walked, api type rfl, valid⟩
    case h_2 type => exact ⟨known, uri, resolved, none, parsed, walked, api type rfl, valid⟩
    case h_3 type _ => exact ⟨known, uri, resolved, none, parsed, walked, api type rfl, valid⟩
    case h_4 =>
      obtain ⟨_, _, result⟩ := except_bind_eq_ok.mp result
      obtain ⟨datastore, found, _⟩ := except_bind_eq_ok.mp result
      exact ⟨known, uri, resolved, datastore, parsed, walked, found, valid⟩
  case mpr =>
    rintro ⟨known, uri, resolved, datastore, parsed, walked, found, valid⟩
    have contained : httpMethods.contains httpMethod = true := List.contains_iff_mem.mpr known
    have accepted (exception : Exception) :
        require (httpMethods.contains httpMethod) exception = .ok () :=
      require_eq_ok.mpr contained
    obtain ⟨typeAndPath, typed⟩ := requestType_isOk contained notOptions valid
    simp only [asRestconfRequest, accepted, parsed, query, validateQueryParameters_nil, walked,
      valid, notOptions, if_false, bind, Except.bind, pure, Except.pure]
    split
    · exact ⟨_, rfl⟩
    · exact ⟨_, rfl⟩
    · exact ⟨_, rfl⟩
    · rw [typed, found]
      exact ⟨_, rfl⟩

/-- The methods other than `OPTIONS` which are accepted for a path are those of its kind. -/
theorem isDispatched_iff {httpMethod uriPath : Str} (notOptions : httpMethod ≠ str "OPTIONS") :
    (∃ request, asRestconfRequest ctx httpMethod uriPath [] = .ok request) ↔
      httpMethod ∈ (resourceKind ctx uriPath).methods := by
  rw [asRestconfRequest_isOk_iff notOptions]
  constructor
  case mp =>
    rintro ⟨known, uri, resolved, datastore, parsed, walked, found, valid⟩
    simp only [resourceKind, parsed, walked, found]
    exact (mem_methods_nodeKind known notOptions).mpr valid
  case mpr =>
    intro allowed
    have known := (ResourceKind.known_of_mem allowed).1
    cases parsed : Impl.parseUriPath uriPath with
    | error exception => simp [resourceKind, parsed, ResourceKind.methods] at allowed
    | ok uri =>
        cases walked : asLibyangPath ctx uri.segments with
        | error exception => simp [resourceKind, parsed, walked, ResourceKind.methods] at allowed
        | ok resolved =>
            cases found : datastoreFromApiIdentifier uri.uriPrefix.datastore with
            | error exception =>
                simp [resourceKind, parsed, walked, found, ResourceKind.methods] at allowed
            | ok datastore =>
                simp only [resourceKind, parsed, walked, found] at allowed
                exact ⟨known, uri, resolved, datastore, rfl, walked, found,
                  (mem_methods_nodeKind known notOptions).mp allowed⟩

/-- The sorted set of methods for the header. -/
def ResourceKind.advertised : ResourceKind → List Str
  | .unavailable => []
  | .api => [str "GET", str "HEAD", str "OPTIONS"]
  | .datastore => [str "GET", str "HEAD", str "OPTIONS", str "PATCH", str "POST", str "PUT"]
  | .data =>
      [str "DELETE", str "GET", str "HEAD", str "OPTIONS", str "PATCH", str "POST", str "PUT"]
  | .operation => [str "OPTIONS", str "POST"]

theorem ResourceKind.mem_advertised {kind : ResourceKind} {httpMethod : Str} :
    httpMethod ∈ kind.advertised ↔
      httpMethod ∈ kind.methods ∨ (httpMethod = str "OPTIONS" ∧ kind.methods ≠ []) := by
  cases kind <;> simp only [ResourceKind.advertised, ResourceKind.methods, List.mem_cons,
    List.not_mem_nil] <;> grind

theorem isAllowed_eq {httpMethod uriPath : Str} (notOptions : httpMethod ≠ str "OPTIONS") :
    isAllowed ctx httpMethod uriPath =
      .ok (decide (httpMethod ∈ (resourceKind ctx uriPath).methods)) := by
  have dispatched := @isDispatched_iff S ctx httpMethod uriPath notOptions
  cases outcome : asRestconfRequest ctx httpMethod uriPath [] with
  | ok request =>
      have allowed := dispatched.mp ⟨request, outcome⟩
      simp only [isAllowed, outcome, allowed, decide_true]
  | error exception =>
      have refused : httpMethod ∉ (resourceKind ctx uriPath).methods := by
        intro allowed
        obtain ⟨request, accepted⟩ := dispatched.mpr allowed
        rw [outcome] at accepted
        cases accepted
      have response := throws_asRestconfRequest httpMethod uriPath [] exception outcome
      cases exception with
      | errorResponse error => simp only [isAllowed, outcome, refused, decide_false]
      | _ => exact response.elim

/-- The methods which are found out by trying all of them. -/
theorem allowedHttpMethodsForUri_eq (uriPath : Str) :
    allowedHttpMethodsForUri ctx uriPath = .ok (resourceKind ctx uriPath).advertised := by
  have allowed (httpMethod : String) (notOptions : str httpMethod ≠ str "OPTIONS") :=
    @isAllowed_eq S ctx (str httpMethod) uriPath notOptions
  simp only [allowedHttpMethodsForUri, allowed "GET" (by decide), allowed "PUT" (by decide),
    allowed "POST" (by decide), allowed "DELETE" (by decide), allowed "HEAD" (by decide),
    allowed "PATCH" (by decide), bind, Except.bind, pure, Except.pure]
  cases resourceKind ctx uriPath <;> decide

/-- Without reserved octets in its keys, a path for data keeps its kind when it is decoded. -/
theorem resourceKind_percentDecode {rawPath : Str} {uri : Impl.URIPath}
    (accepted : Impl.parseUriPath rawPath = .ok uri) (isData : uri.IsData)
    (unreserved : Impl.Grammar.NeedsNoEncoding uri.segments) :
    resourceKind ctx (percentDecode rawPath) = resourceKind ctx rawPath := by
  simp only [resourceKind, parseUriPath_percentDecode accepted isData unreserved, accepted]

end Kinds

namespace Server

open Program

variable {S : Type} (env : Env S) (req : Request)

/-! ## The header -/

/-- The response to `OPTIONS` which advertises the methods. -/
def optionsHead (methods : List Str) : Nat × List (Str × Str) :=
  if methods = [] then (404, [cors]) else (200, cors :: httpOptionsHeaders methods)

/-- The head of an error response for a method which is not allowed. -/
def notAllowedHead (methods : List Str) : Nat × List (Str × Str) :=
  (405, [contentType req.responseFormat, cors] ++ httpOptionsHeaders methods)

/-- The dispatcher accepts the method on the path as it was sent. -/
def IsDispatched (httpMethod : Str) : Prop :=
  ∃ request, asRestconfRequest env.libyang.ctx httpMethod req.rawPath [] = .ok request

theorem head_optionsQuery (world : World S) :
    (exec (optionsQuery env req) world).2.head =
      world.head.or (some (optionsHead (resourceKind env.libyang.ctx req.path).advertised)) := by
  have allowed := @allowedHttpMethodsForUri_eq S env.libyang.ctx req.path
  generalize (resourceKind env.libyang.ctx req.path).advertised = methods at allowed
  rw [optionsQuery, exec_bind, exec_liftM, allowed]
  cases methods with
  | nil => rfl
  | cons method methods => rfl

/-- The head is written once the document of the error is complete. -/
theorem head_rejectWithErrorImpl {document : Document} {container : Str} {error : ErrorResponse}
    {before after : World S} (notAllowed : error.code = 405)
    (reported : exec (rejectWithErrorImpl env req document container error) before =
      (.ok (), after)) :
    after.head = before.head.or
      (some (notAllowedHead req (resourceKind env.libyang.ctx req.path).advertised)) := by
  have headers : errorHeaders env req error.code =
      .ok ([contentType req.responseFormat, cors] ++
        httpOptionsHeaders (resourceKind env.libyang.ctx req.path).advertised) := by
    simp only [errorHeaders, notAllowed, if_true, allowedHttpMethodsForUri_eq, bind, Except.bind,
      pure, Except.pure]
  rw [rejectWithErrorImpl, exec_bind, exec_liftM] at reported
  cases leafs : extendAll env container document (errorLeafs error) with
  | error exception => simp [leafs] at reported
  | ok document =>
      simp only [leafs, exec_bind, exec_liftM] at reported
      cases info : extendErrorInfo env document container error.errorInfo with
      | error exception => simp [info] at reported
      | ok document =>
          simp only [info, headers, writeHead, exec_modify] at reported
          cases printed : raise (env.libyang.printDocument document req.responseFormat) with
          | error exception => simp [printed] at reported
          | ok text =>
              simp only [printed] at reported
              cases body : deref text with
              | error exception => simp [body] at reported
              | ok body' =>
                  simp only [body, endWith, exec_modify, Prod.mk.injEq, true_and] at reported
                  rw [← reported, notAllowed]
                  rfl

/-- Both headers advertise the same methods.  These are the ones which the dispatcher accepts,
and `OPTIONS` if there are any, if and only if the decoded path names a resource of the same kind
as the path which was sent. -/
theorem advertised_iff (decoded : req.path = percentDecode req.rawPath) :
    ∃ methods,
      (∀ world : World S, (exec (optionsQuery env req) world).2.head =
        world.head.or (some (optionsHead methods))) ∧
      (∀ (document : Document) (container : Str) (error : ErrorResponse)
          (before after : World S), error.code = 405 →
        exec (rejectWithErrorImpl env req document container error) before = (.ok (), after) →
        after.head = before.head.or (some (notAllowedHead req methods))) ∧
      ((∀ httpMethod, httpMethod ∈ methods ↔
          (httpMethod ≠ str "OPTIONS" ∧ IsDispatched env req httpMethod) ∨
            (httpMethod = str "OPTIONS" ∧
              ∃ other, other ≠ str "OPTIONS" ∧ IsDispatched env req other)) ∧
        ((optionsHead methods).1 = 404 →
          ∀ httpMethod, httpMethod ≠ str "OPTIONS" → ¬IsDispatched env req httpMethod) ↔
        resourceKind env.libyang.ctx (percentDecode req.rawPath) =
          resourceKind env.libyang.ctx req.rawPath) := by
  refine ⟨_, head_optionsQuery env req,
    fun _ _ _ _ _ notAllowed reported => head_rejectWithErrorImpl env req notAllowed reported, ?_⟩
  rw [decoded]
  generalize resourceKind env.libyang.ctx (percentDecode req.rawPath) = kind
  have dispatched {httpMethod : Str} (notOptions : httpMethod ≠ str "OPTIONS") :
      IsDispatched env req httpMethod ↔
        httpMethod ∈ (resourceKind env.libyang.ctx req.rawPath).methods :=
    isDispatched_iff notOptions
  generalize resourceKind env.libyang.ctx req.rawPath = rawKind at dispatched
  constructor
  case mp =>
    rintro ⟨same, _⟩
    apply ResourceKind.eq_of_methods
    intro httpMethod
    by_cases options : httpMethod = str "OPTIONS"
    · subst options
      exact iff_of_false kind.options_notMem rawKind.options_notMem
    · have advertised := same httpMethod
      rw [ResourceKind.mem_advertised, dispatched options] at advertised
      simpa [options] using advertised
  case mpr =>
    rintro rfl
    constructor
    · intro httpMethod
      rw [ResourceKind.mem_advertised]
      by_cases options : httpMethod = str "OPTIONS"
      · subst options
        have some : kind.methods ≠ [] ↔
            ∃ other, other ≠ str "OPTIONS" ∧ IsDispatched env req other := by
          constructor
          · intro some
            obtain ⟨other, allowed⟩ := List.exists_mem_of_ne_nil _ some
            have notOptions := (ResourceKind.known_of_mem allowed).2
            exact ⟨other, notOptions, (dispatched notOptions).mpr allowed⟩
          · rintro ⟨other, notOptions, accepted⟩
            exact List.ne_nil_of_mem ((dispatched notOptions).mp accepted)
        rw [some]
        simp only [kind.options_notMem, ne_eq, not_true_eq_false, true_and, false_and, false_or]
      · simp [options, dispatched options]
    · intro missing httpMethod notOptions accepted
      have allowed := (dispatched notOptions).mp accepted
      have advertised : kind.advertised = [] := by
        by_contra some
        simp [optionsHead, some] at missing
      have member := ResourceKind.mem_advertised.mpr (.inl allowed)
      rw [advertised] at member
      cases member

/-- A request for the methods of a list entry, with its key as it was sent. -/
def listEntryOptions (encoded : String) : Request where
  method := str "OPTIONS"
  rawPath := str "/restconf/data/example:top-level-list=" ++ str encoded
  path := percentDecode (str "/restconf/data/example:top-level-list=" ++ str encoded)
  responseFormat := .json
  urlPrefix := none

/-- The module `example`, with a session in which every call succeeds. -/
def exampleEnv : Env Example.Node := ⟨Example.calls, .accepting⟩

theorem plainKey_advertised :
    ∃ methods,
      (exec (optionsQuery exampleEnv (listEntryOptions "a")) World.initial).2.head =
        some (optionsHead methods) ∧
      ∀ httpMethod, httpMethod ∈ methods ↔
        (httpMethod ≠ str "OPTIONS" ∧
          IsDispatched exampleEnv (listEntryOptions "a") httpMethod) ∨
        (httpMethod = str "OPTIONS" ∧ ∃ other, other ≠ str "OPTIONS" ∧
          IsDispatched exampleEnv (listEntryOptions "a") other) := by
  obtain ⟨methods, options, _, same⟩ := advertised_iff exampleEnv (listEntryOptions "a") rfl
  have accepted : Impl.parseUriPath (listEntryOptions "a").rawPath =
      .ok ⟨⟨.basicRestconfData, none⟩,
        [⟨⟨some (str "example"), str "top-level-list"⟩, [str "a"]⟩]⟩ := by
    decide
  have unreserved : Impl.Grammar.NeedsNoEncoding
      [⟨⟨some (str "example"), str "top-level-list"⟩, [str "a"]⟩] := by
    decide
  have kinds := @resourceKind_percentDecode _ Example.schema _ _ accepted (.inl rfl) unreserved
  exact ⟨methods, options World.initial, (same.mpr kinds).1⟩

/-- A comma in the key: there is no such entry for `OPTIONS`, which the other methods find. -/
theorem encodedKey_not_advertised :
    (exec (optionsQuery exampleEnv (listEntryOptions "a%2Cb")) World.initial).2.head =
        some (404, [cors]) ∧
      IsDispatched exampleEnv (listEntryOptions "a%2Cb") (str "GET") := by
  have kind : resourceKind Example.schema (listEntryOptions "a%2Cb").path = .unavailable := by
    decide
  have rawKind : resourceKind Example.schema (listEntryOptions "a%2Cb").rawPath = .data := by
    decide
  constructor
  · rw [head_optionsQuery, show exampleEnv.libyang.ctx = Example.schema from rfl, kind]
    rfl
  · refine (isDispatched_iff (by decide)).mpr ?_
    rw [show exampleEnv.libyang.ctx = Example.schema from rfl, rawKind]
    decide

end Server

end Rousette.Restconf
