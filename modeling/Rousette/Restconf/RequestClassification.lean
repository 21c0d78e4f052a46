import Rousette.Restconf.Server.AllowedMethods

/-!
# Classification of requests

`asRestconfRequest` decides on the type of a request by a chain of conditions.  None of its ends is
missed, because the checks before it have refused the remaining combinations of a method, a kind
of resource and a node.
-/

namespace Rousette.Restconf

open Library Libyang

variable {S : Type} (ctx : Context S)

/-- The types of requests which write to a datastore. -/
def RequestType.Writes (type : RequestType) : Prop :=
  type = .createChildren ∨ type = .createOrReplaceThisNode ∨ type = .mergeData ∨
    type = .deleteNode

/-- An RPC below the operations, or an action below the data or in the operational datastore. -/
def IsInvokedAt (resourceType : Impl.ResourceType) (datastore : Option Datastore) (node : S) :
    Prop :=
  (ctx.nodeType node = .rpc ∧ resourceType = .basicRestconfOperations) ∨
    (ctx.nodeType node = .action ∧ (resourceType = .basicRestconfData ∨
      (resourceType = .nmdaDatastore ∧ datastore = some .operational)))

/-- A list with all of its keys, a leaf-list with its value, or another node without keys. -/
def IsFullyKeyed (node : S) (keys : List Str) : Prop :=
  match ctx.nodeType node with
  | .list => ctx.keys node ≠ [] ∧ keys.length = (ctx.keys node).length
  | .leaflist => keys.length = 1
  | _ => keys = []

/-- The steps of a path lead to its target, and name every node with its keys. -/
structure Addressed (segments : List PathSegment) (schemaNode : Option S)
    (steps : List (Server.Step S)) : Prop where
  resolved : Server.resolveSegments ctx none segments = .ok steps
  target : Server.lastNode none steps = schemaNode
  whole : schemaNode = none ↔ segments = []
  keyed : ∀ step ∈ steps, IsFullyKeyed ctx step.1 step.2

/-- What the type of a request promises about its method, resource and target. -/
structure Classified (httpMethod : Str) (uriPrefix : Impl.URIPrefix)
    (resolved : SchemaNodeAndPath S)
    (request : RestconfRequest) : Prop where
  executes : request.type = .execute ∨ request.type = .executeInternal →
    httpMethod = str "POST" ∧ ∃ node, resolved.schemaNode = some node ∧
      IsInvokedAt ctx uriPrefix.resourceType request.datastore node
  writes : request.type.Writes → isDataPrefix uriPrefix = true ∧
    ∀ node, resolved.schemaNode = some node →
      isDataNode ctx node = true ∧ isOperation ctx node = false
  deletes : request.type = .deleteNode → resolved.schemaNode.isSome = true
  reads : request.type = .getData →
    (httpMethod = str "GET" ∨ httpMethod = str "HEAD") ∧ isDataPrefix uriPrefix = true ∧
      (resolved.schemaNode = none → request.path = str "/*") ∧
      ∀ node, resolved.schemaNode = some node →
        isDataNode ctx node = true ∧ request.path = resolved.dataPath

/-! ## Keys -/

section Resolution

variable {ctx}

theorem isFullyKeyed_of_keysPredicate {node : S} {keys : List Str} {predicate : Str}
    (built : keysPredicate ctx node keys = .ok predicate) : IsFullyKeyed ctx node keys := by
  unfold keysPredicate at built
  unfold IsFullyKeyed
  cases kind : ctx.nodeType node with
  | list =>
      simp only [kind] at built
      split at built
      · cases built
      next keyed =>
        split at built
        · cases built
        next same =>
          constructor
          · intro keyless
            exact keyed (by rw [keyless]; rfl)
          · exact not_not.mp same
  | leaflist =>
      simp only [kind] at built
      split at built
      · rfl
      · cases built
  | _ =>
      simp only [kind] at built
      split at built
      · cases built
      next noKeys => exact List.length_eq_zero_iff.mp (Nat.eq_zero_of_not_pos noKeys)

theorem isFullyKeyed_of_asLibyangPathFrom {current : Option S} {res : Str}
    {segments : List PathSegment} {resolved : SchemaNodeAndPath S} {steps : List (Server.Step S)}
    (walked : asLibyangPathFrom ctx current res segments = .ok resolved)
    (resolves : Server.resolveSegments ctx current segments = .ok steps) :
    ∀ step ∈ steps, IsFullyKeyed ctx step.1 step.2 := by
  induction segments generalizing current res steps with
  | nil =>
      cases resolves
      exact nofun
  | cons segment rest ih =>
      simp only [asLibyangPathFrom, except_bind_eq_ok] at walked
      obtain ⟨node, found, predicate, built, _, _, walked⟩ := walked
      simp only [Server.resolveSegments, found, except_bind_eq_ok] at resolves
      obtain ⟨_, same, below, further, result⟩ := resolves
      cases same
      cases result
      intro step member
      rcases List.mem_cons.mp member with rfl | member
      · exact isFullyKeyed_of_keysPredicate built
      · exact ih walked further step member

/-- Every resolved path names its nodes with their keys. -/
theorem exists_addressed {segments : List PathSegment} {resolved : SchemaNodeAndPath S}
    (walked : asLibyangPath ctx segments = .ok resolved) :
    ∃ steps, Addressed ctx segments resolved.schemaNode steps := by
  obtain ⟨steps, resolves, _, last⟩ := Server.resolveSegments_of_asLibyangPathFrom walked
  refine ⟨steps, ?_⟩
  constructor
  case resolved => exact resolves
  case target => exact last
  case whole =>
    constructor
    · intro none
      by_contra nonempty
      obtain ⟨_, node, some⟩ := asLibyangPathFrom_ne_nil walked nonempty
      rw [none] at some
      cases some
    · rintro rfl
      cases walked
      rfl
  case keyed => exact isFullyKeyed_of_asLibyangPathFrom walked resolves

/-! ## Types -/

/-- Which requests are given a type, where the API resources and `OPTIONS` are left out. -/
inductive HasType (ctx : Context S) (httpMethod : Str) (schemaNode : Option S) :
    RequestType → Prop where
  | getData (read : httpMethod = str "GET" ∨ httpMethod = str "HEAD") :
      HasType ctx httpMethod schemaNode .getData
  | createOrReplaceThisNode (put : httpMethod = str "PUT") :
      HasType ctx httpMethod schemaNode .createOrReplaceThisNode
  | deleteNode (delete : httpMethod = str "DELETE") (some : schemaNode.isSome = true) :
      HasType ctx httpMethod schemaNode .deleteNode
  | execute (post : httpMethod = str "POST")
      (operation : schemaNode.any (isOperation ctx) = true) :
      HasType ctx httpMethod schemaNode .execute
  | executeInternal (post : httpMethod = str "POST")
      (operation : schemaNode.any (isOperation ctx) = true) :
      HasType ctx httpMethod schemaNode .executeInternal
  | createChildren (post : httpMethod = str "POST")
      (data : schemaNode.any (isOperation ctx) = false) :
      HasType ctx httpMethod schemaNode .createChildren
  | mergeData (patch : httpMethod = str "PATCH") : HasType ctx httpMethod schemaNode .mergeData

/-- What the chain of conditions has decided on. -/
theorem requestType_eq_ok {httpMethod uriPath lyPath path : Str} {uri : Impl.URIPath}
    {schemaNode : Option S} {type : RequestType}
    (decided : requestType ctx httpMethod uriPath uri lyPath schemaNode = .ok (type, path)) :
    HasType ctx httpMethod schemaNode type ∧
      (type = .getData → path = if uri.segments.isEmpty then str "/*" else lyPath) := by
  simp only [requestType] at decided
  split at decided
  next read =>
    cases decided
    refine ⟨.getData read, fun _ => ?_⟩
    cases uri.segments.isEmpty <;> rfl
  split at decided
  next put =>
    cases decided
    exact ⟨.createOrReplaceThisNode put, fun isGet => by cases isGet⟩
  split at decided
  next delete =>
    cases decided
    exact ⟨.deleteNode delete.1 delete.2, fun isGet => by cases isGet⟩
  split at decided
  next post =>
    split at decided
    · cases decided
      exact ⟨.executeInternal post.1 post.2, fun isGet => by cases isGet⟩
    · cases decided
      exact ⟨.execute post.1 post.2, fun isGet => by cases isGet⟩
  next notOperation =>
  split at decided
  next post =>
    cases decided
    have noOperation := Bool.eq_false_iff.mpr fun operation => notOperation ⟨post.1, operation⟩
    exact ⟨.createChildren post.1 noOperation, fun isGet => by cases isGet⟩
  split at decided
  next patch =>
    cases decided
    exact ⟨.mergeData patch, fun isGet => by cases isGet⟩
  · cases decided

/-- An operation is invoked where the method is valid for it. -/
theorem isInvokedAt_of_isInvocable {uriPrefix : Impl.URIPrefix} {node : S}
    {datastore : Option Datastore}
    (known : datastoreFromApiIdentifier uriPrefix.datastore = .ok datastore)
    (invocable : isInvocable ctx uriPrefix node = true) :
    IsInvokedAt ctx uriPrefix.resourceType datastore node := by
  unfold isInvocable at invocable
  cases kind : ctx.nodeType node with
  | rpc =>
      simp only [kind, beq_iff_eq] at invocable
      exact .inl ⟨kind, invocable⟩
  | action =>
      simp only [kind, Bool.or_eq_true, Bool.and_eq_true, beq_iff_eq] at invocable
      rcases invocable with data | ⟨nmda, operational⟩
      · exact .inr ⟨kind, .inl data⟩
      · rw [operational] at known
        cases known
        exact .inr ⟨kind, .inr ⟨nmda, rfl⟩⟩
  | _ => simp [kind] at invocable

/-- A data node is no operation. -/
theorem not_isOperation_of_isDataNode {node : S} (data : isDataNode ctx node = true) :
    isOperation ctx node = false := by
  unfold isDataNode at data
  unfold isOperation
  cases kind : ctx.nodeType node with
  | rpc | action => simp [kind] at data
  | _ => rfl

/-- A data resource is what remains when the method does not invoke an operation. -/
theorem isData_of_valid {httpMethod : Str} {uriPrefix : Impl.URIPrefix} {schemaNode : Option S}
    (notOptions : httpMethod ≠ str "OPTIONS")
    (valid : validateMethodForNode ctx httpMethod uriPrefix schemaNode = .ok ())
    (notApi : schemaNode = none → isDataPrefix uriPrefix = true)
    (other : httpMethod = str "POST" → schemaNode.any (isOperation ctx) = false) :
    isDataPrefix uriPrefix = true ∧ ∀ node, schemaNode = some node →
      isDataNode ctx node = true ∧ isOperation ctx node = false := by
  cases schemaNode with
  | none => exact ⟨notApi rfl, nofun⟩
  | some node =>
      rcases (validateMethodForNode_some_iff notOptions).mp valid with ⟨post, invocable⟩ | data
      · exfalso
        have operation : isOperation ctx node = false := other post
        simp only [isInvocable] at invocable
        cases kind : ctx.nodeType node with
        | rpc | action => simp [isOperation, kind] at operation
        | _ => simp [kind] at invocable
      · refine ⟨data.1, fun same equal => ?_⟩
        cases equal
        exact ⟨data.2, not_isOperation_of_isDataNode data.2⟩

/-! ## Requests -/

/-- There is nothing to say about a request which has no target. -/
theorem Classified.of_api {httpMethod : Str} {uriPrefix : Impl.URIPrefix}
    {resolved : SchemaNodeAndPath S} {request : RestconfRequest}
    (api : request.type ∈ [.optionsQuery, .restconfRoot, .yangLibraryVersion, .listRPC]) :
    Classified ctx httpMethod uriPrefix resolved request := by
  obtain ⟨type, datastore, path, queryParams⟩ := request
  simp only [List.mem_cons, List.not_mem_nil, or_false] at api
  rcases api with rfl | rfl | rfl | rfl <;>
    exact ⟨by simp, by simp [RequestType.Writes], nofun, nofun⟩

theorem Classified.of_hasType {httpMethod uriPath : Str} {uri : Impl.URIPath}
    {resolved : SchemaNodeAndPath S} {steps : List (Server.Step S)} {request : RestconfRequest}
    (addressed : Addressed ctx uri.segments resolved.schemaNode steps)
    (notOptions : httpMethod ≠ str "OPTIONS")
    (valid : validateMethodForNode ctx httpMethod uri.uriPrefix resolved.schemaNode = .ok ())
    (notApi : resolved.schemaNode = none → isDataPrefix uri.uriPrefix = true)
    (known : datastoreFromApiIdentifier uri.uriPrefix.datastore = .ok request.datastore)
    (decided : requestType ctx httpMethod uriPath uri resolved.dataPath resolved.schemaNode =
      .ok (request.type, request.path)) :
    Classified ctx httpMethod uri.uriPrefix resolved request := by
  obtain ⟨typed, path⟩ := requestType_eq_ok decided
  have data := isData_of_valid notOptions valid notApi
  have notPost {other : String} (method : httpMethod = str other)
      (differs : str other ≠ str "POST") :
      httpMethod = str "POST" → resolved.schemaNode.any (isOperation ctx) = false :=
    fun post => absurd (method.symm.trans post) differs
  constructor
  case executes =>
    intro executed
    have operation : httpMethod = str "POST" ∧
        resolved.schemaNode.any (isOperation ctx) = true := by
      rcases executed with execute | execute <;> rw [execute] at typed
      · cases typed with
        | execute post operation => exact ⟨post, operation⟩
      · cases typed with
        | executeInternal post operation => exact ⟨post, operation⟩
    obtain ⟨post, operation⟩ := operation
    obtain ⟨node, target, operation⟩ := (Option.any_eq_true _ _).mp operation
    refine ⟨post, node, target, isInvokedAt_of_isInvocable known ?_⟩
    rw [target] at valid
    rcases (validateMethodForNode_some_iff notOptions).mp valid with ⟨_, invocable⟩ | ⟨_, isData⟩
    · exact invocable
    · rw [not_isOperation_of_isDataNode isData] at operation
      cases operation
  case writes =>
    intro writes
    refine data ?_
    rcases writes with create | put | merge | delete
    · rw [create] at typed
      cases typed with
      | createChildren _ children => exact fun _ => children
    · rw [put] at typed
      cases typed with
      | createOrReplaceThisNode put => exact notPost put (by decide)
    · rw [merge] at typed
      cases typed with
      | mergeData patch => exact notPost patch (by decide)
    · rw [delete] at typed
      cases typed with
      | deleteNode delete => exact notPost delete (by decide)
  case deletes =>
    intro delete
    rw [delete] at typed
    cases typed with
    | deleteNode _ some => exact some
  case reads =>
    intro get
    have path := path get
    rw [get] at typed
    cases typed with
    | getData read =>
        have notPost : httpMethod = str "POST" →
            resolved.schemaNode.any (isOperation ctx) = false := by
          rcases read with get | head
          · exact notPost get (by decide)
          · exact notPost head (by decide)
        have isData := data notPost
        refine ⟨read, isData.1, ?_, ?_⟩
        · intro whole
          rw [addressed.whole.mp whole] at path
          exact path
        · intro node target
          refine ⟨(isData.2 node target).1, ?_⟩
          have nonempty : uri.segments ≠ [] := by
            intro empty
            rw [addressed.whole.mpr empty] at target
            cases target
          rwa [List.isEmpty_eq_false_iff.mpr nonempty] at path

end Resolution

/-- A request is refused with an error response, or it is given a type which fits its method and
the resource its path names with all keys. -/
theorem asRestconfRequest_classified (httpMethod uriPath uriQueryString : Str) :
    Throws Exception.IsErrorResponse
        (asRestconfRequest ctx httpMethod uriPath uriQueryString) ∧
      ∀ request, asRestconfRequest ctx httpMethod uriPath uriQueryString = .ok request →
        ∃ uri resolved steps, Impl.parseUriPath uriPath = .ok uri ∧
          asLibyangPath ctx uri.segments = .ok resolved ∧
          Addressed ctx uri.segments resolved.schemaNode steps ∧
          Classified ctx httpMethod uri.uriPrefix resolved request := by
  refine ⟨throws_asRestconfRequest httpMethod uriPath uriQueryString, ?_⟩
  intro request accepted
  simp only [asRestconfRequest, except_bind_eq_ok] at accepted
  obtain ⟨_, _, uri, parsed, _, _, _, _, resolved, walked, _, valid, result⟩ := accepted
  obtain ⟨steps, addressed⟩ := exists_addressed walked
  refine ⟨uri, resolved, steps, parsed, walked, addressed, ?_⟩
  split at result
  · cases result
    exact .of_api (by simp)
  next notOptions =>
  split at result
  · cases result
    exact .of_api (by simp)
  · cases result
    exact .of_api (by simp)
  · cases result
    exact .of_api (by simp)
  next notRoot notVersion notOperations =>
    obtain ⟨⟨type, path⟩, decided, result⟩ := except_bind_eq_ok.mp result
    obtain ⟨datastore, known, result⟩ := except_bind_eq_ok.mp result
    cases result
    refine .of_hasType addressed notOptions valid ?_ known decided
    intro none
    unfold isDataPrefix
    cases kind : uri.uriPrefix.resourceType with
    | restconfRoot => exact absurd kind notRoot
    | yangLibraryVersion => exact absurd kind notVersion
    | basicRestconfOperations => exact absurd none (notOperations kind)
    | basicRestconfData | nmdaDatastore => rfl

/-- An entry of a list is deleted. -/
theorem deletedEntry_classified :
    ∃ uri resolved steps,
      Impl.parseUriPath (str "/restconf/data/example:top-level-list=a") = .ok uri ∧
      asLibyangPath Example.schema uri.segments = .ok resolved ∧
      Addressed Example.schema uri.segments resolved.schemaNode steps ∧
      Classified Example.schema (str "DELETE") uri.uriPrefix resolved
        ⟨.deleteNode, none, str "/example:top-level-list[name='a']", []⟩ :=
  (asRestconfRequest_classified Example.schema (str "DELETE")
    (str "/restconf/data/example:top-level-list=a") []).2 _ rfl

end Rousette.Restconf
