import Rousette.Restconf.Uri

/-!
# Resolving of paths

What a path which was resolved has gone through: its last segment is looked up below
the node of the path before it, and its keys are what that node needs.
-/

namespace Rousette.Restconf

open Library Libyang

variable {S : Type} {ctx : Context S}

/-- The number of key values which a node needs in a path, if it is a list or a
leaf-list. -/
def KeyCount (ctx : Context S) (node : S) (count : Nat) : Prop :=
  match ctx.nodeType node with
  | .list => count = (ctx.keys node).length
  | .leaflist => count = 1
  | _ => True

theorem keyCount_of_keysPredicate {node : S} {keys : List Str} {predicate : Str}
    (built : keysPredicate ctx node keys = .ok predicate) : KeyCount ctx node keys.length := by
  unfold keysPredicate at built
  unfold KeyCount
  cases kind : ctx.nodeType node with
  | list =>
      simp only [kind] at built
      split at built
      · cases built
      · split at built
        · cases built
        next same => exact not_not.mp same
  | leaflist =>
      simp only [kind] at built
      split at built
      · rfl
      · cases built
  | _ => trivial

theorem listKeyPredicate_of_keysPredicate {node : S} {keys : List Str} {predicate : Str}
    (list : ctx.nodeType node = .list) (built : keysPredicate ctx node keys = .ok predicate) :
    ∃ text, listKeyPredicate ctx (ctx.keys node) keys = .ok text := by
  simp only [keysPredicate, list] at built
  split at built
  · cases built
  · split at built
    · cases built
    · cases predicates : listKeyPredicate ctx (ctx.keys node) keys with
      | ok text => exact ⟨text, rfl⟩
      | error exception =>
          rw [predicates] at built
          rcases listKeyPredicate_error predicates with rfl | ⟨what, rfl⟩
          · cases built
          · cases built

theorem findChildSchemaNode_eq_some {node child : S} {ident : ApiIdentifier}
    (found : findChildSchemaNode ctx node ident = some child) :
    child ∈ ctx.childInstantiables node ∧ ctx.name child = ident.identifier ∧
      ∀ modulePrefix ∈ ident.modulePrefix, ctx.moduleName child = modulePrefix := by
  have named := List.find?_some found
  rw [Bool.and_eq_true, beq_iff_eq] at named
  refine ⟨List.mem_of_find?_eq_some found, named.1, ?_⟩
  intro modulePrefix known
  rw [Option.mem_def.mp known] at named
  exact beq_iff_eq.mp named.2

/-- The node after another one is a child of it. -/
theorem nextNode_some_eq_ok {node child : S} {ident : ApiIdentifier}
    (found : nextNode ctx (some node) ident = .ok child) :
    child ∈ ctx.childInstantiables node ∧ ctx.name child = ident.identifier ∧
      ∀ modulePrefix ∈ ident.modulePrefix, ctx.moduleName child = modulePrefix := by
  simp only [nextNode] at found
  split at found
  next other present =>
    cases found
    exact findChildSchemaNode_eq_some present
  · cases found

/-- A node of the top level is found by its name. -/
theorem nextNode_none_eq_ok {node : S} {ident : ApiIdentifier}
    (found : nextNode ctx none ident = .ok node) :
    ctx.findPath (str "/" ++ ident.qualifiedName) = .ok node := by
  simp only [nextNode] at found
  split at found
  next other present =>
    cases found
    exact present
  · cases found

/-- A path with one more segment. -/
theorem asLibyangPathFrom_append_singleton {current : Option S} {res : Str}
    {segments : List PathSegment} {last : PathSegment} {full : SchemaNodeAndPath S}
    (walked : asLibyangPathFrom ctx current res (segments ++ [last]) = .ok full) :
    ∃ parent node predicate, asLibyangPathFrom ctx current res segments = .ok parent ∧
      nextNode ctx parent.schemaNode last.apiIdent = .ok node ∧
      keysPredicate ctx node last.keys = .ok predicate ∧
      full = ⟨parent.dataPath ++ str "/" ++ maybeQualified ctx node ++ predicate, some node⟩ := by
  induction segments generalizing current res with
  | nil =>
      simp only [List.nil_append, asLibyangPathFrom, except_bind_eq_ok] at walked
      obtain ⟨node, found, predicate, built, _, _, result⟩ := walked
      cases result
      exact ⟨⟨res, current⟩, node, predicate, rfl, found, built, rfl⟩
  | cons segment rest ih =>
      simp only [List.cons_append, asLibyangPathFrom, except_bind_eq_ok] at walked
      obtain ⟨node, found, predicate, built, _, allowed, walked⟩ := walked
      obtain ⟨parent, child, childPredicate, before, after⟩ := ih walked
      refine ⟨parent, child, childPredicate, ?_, after⟩
      have inner : isOperation ctx node = false := by
        simpa using require_eq_ok.mp allowed
      simp only [asLibyangPathFrom, except_bind_eq_ok]
      exact ⟨node, found, predicate, built, (), require_eq_ok.mpr (by simp [inner]), before⟩

/-- A path which is not that of the datastore leads to a node, and it has a text. -/
theorem asLibyangPathFrom_ne_nil {current : Option S} {res : Str} {segments : List PathSegment}
    {resolved : SchemaNodeAndPath S}
    (walked : asLibyangPathFrom ctx current res segments = .ok resolved)
    (nonempty : segments ≠ []) :
    resolved.dataPath ≠ [] ∧ ∃ node, resolved.schemaNode = some node := by
  obtain ⟨before, last, rfl⟩ := List.eq_nil_or_concat segments |>.resolve_left nonempty
  rw [List.concat_eq_append] at walked
  obtain ⟨parent, node, predicate, _, _, _, rfl⟩ := asLibyangPathFrom_append_singleton walked
  refine ⟨?_, node, rfl⟩
  simp [str]

/-- What splitting a path has found out: the parent path was resolved, and the module of
the last segment is the one which the segment has or, failing that, the one of the node
which the whole path leads to. -/
theorem asLibyangPathSplit_eq_ok {uriPath lyParentPath : Str} {lastPathSegment : PathSegment}
    (split : asLibyangPathSplit ctx uriPath = .ok (lyParentPath, lastPathSegment)) :
    ∃ uri segments last parent, Impl.parseUriPath uriPath = .ok uri ∧
      uri.segments = segments ++ [last] ∧ asLibyangPath ctx segments = .ok parent ∧
      lyParentPath = parent.dataPath ∧ lastPathSegment.keys = last.keys ∧
      lastPathSegment.apiIdent.identifier = last.apiIdent.identifier ∧
      ((∃ modulePrefix, last.apiIdent.modulePrefix = some modulePrefix ∧
          lastPathSegment = last) ∨
        (last.apiIdent.modulePrefix = none ∧ ∃ full node,
          asLibyangPath ctx (segments ++ [last]) = .ok full ∧ full.schemaNode = some node ∧
          lastPathSegment.apiIdent.modulePrefix = some (ctx.moduleName node))) := by
  simp only [asLibyangPathSplit, except_bind_eq_ok] at split
  obtain ⟨uri, parsed, split⟩ := split
  cases lastOne : uri.segments.getLast? with
  | none => simp [lastOne] at split
  | some last =>
      obtain ⟨segments, shape⟩ := List.getLast?_eq_some_iff.mp lastOne
      simp only [lastOne, except_bind_eq_ok] at split
      obtain ⟨parent, resolved, split⟩ := split
      rw [shape, List.dropLast_concat] at resolved
      cases qualified : last.apiIdent.modulePrefix with
      | some modulePrefix =>
          simp only [qualified] at split
          cases split
          exact ⟨uri, segments, _, parent, parsed, shape, resolved, rfl, rfl, rfl,
            .inl ⟨modulePrefix, qualified, rfl⟩⟩
      | none =>
          simp only [qualified, except_bind_eq_ok] at split
          obtain ⟨full, whole, split⟩ := split
          cases target : full.schemaNode with
          | none => simp [target] at split
          | some node =>
              simp only [target] at split
              cases split
              rw [shape] at whole
              exact ⟨uri, segments, last, parent, parsed, shape, resolved, rfl, rfl, rfl,
                .inr ⟨qualified, full, node, whole, target, rfl⟩⟩

/-- The path of a request which was accepted has been resolved as a whole. -/
theorem asRestconfRequest_eq_ok {httpMethod uriPath uriQueryString : Str}
    {request : RestconfRequest}
    (accepted : asRestconfRequest ctx httpMethod uriPath uriQueryString = .ok request) :
    ∃ uri full, Impl.parseUriPath uriPath = .ok uri ∧
      asLibyangPath ctx uri.segments = .ok full := by
  simp only [asRestconfRequest, except_bind_eq_ok] at accepted
  obtain ⟨_, _, uri, parsed, _, _, _, _, full, resolved, _⟩ := accepted
  exact ⟨uri, full, parsed, resolved⟩

/-! ## The nodes which segments name -/

namespace Server

/-- A node which the URI names, with the key values of its segment. -/
abbrev Step (S : Type) := S × List Str

/-- The nodes which path segments name. -/
def resolveSegments (ctx : Context S) (current : Option S) :
    List PathSegment → Except Exception (List (Step S))
  | [] => .ok []
  | segment :: rest => do
      let node ← nextNode ctx current segment.apiIdent
      let below ← resolveSegments ctx (some node) rest
      return (node, segment.keys) :: below

/-- The node which is reached by steps from another one. -/
def lastNode (current : Option S) (steps : List (Step S)) : Option S :=
  match steps.getLast? with
  | some step => some step.1
  | none => current

theorem lastNode_cons (current : Option S) (step : Step S) (rest : List (Step S)) :
    lastNode current (step :: rest) = lastNode (some step.1) rest := by
  unfold lastNode
  cases rest with
  | nil => rfl
  | cons next rest => rw [List.getLast?_cons_cons]; rfl

/-- The nodes of a path which was resolved. -/
theorem resolveSegments_of_asLibyangPathFrom {current : Option S} {res : Str}
    {segments : List PathSegment} {resolved : SchemaNodeAndPath S}
    (walked : asLibyangPathFrom ctx current res segments = .ok resolved) :
    ∃ steps, resolveSegments ctx current segments = .ok steps ∧
      steps.map Prod.snd = segments.map PathSegment.keys ∧
      lastNode current steps = resolved.schemaNode := by
  induction segments generalizing current res with
  | nil =>
      cases walked
      exact ⟨[], rfl, rfl, rfl⟩
  | cons segment rest ih =>
      simp only [asLibyangPathFrom, except_bind_eq_ok] at walked
      obtain ⟨node, found, predicate, _, _, _, walked⟩ := walked
      obtain ⟨steps, resolves, keys, last⟩ := ih walked
      refine ⟨(node, segment.keys) :: steps, ?_, ?_, ?_⟩
      · simp only [resolveSegments, found, resolves, bind, Except.bind, pure, Except.pure]
      · rw [List.map_cons, List.map_cons, keys]
      · rw [lastNode_cons, last]

/-- One more segment. -/
theorem resolveSegments_append_singleton {current : Option S} {segments : List PathSegment}
    {last : PathSegment} {all : List (Step S)} :
    resolveSegments ctx current (segments ++ [last]) = .ok all ↔
      ∃ steps node, resolveSegments ctx current segments = .ok steps ∧
        nextNode ctx (lastNode current steps) last.apiIdent = .ok node ∧
        all = steps ++ [(node, last.keys)] := by
  induction segments generalizing current all with
  | nil =>
      simp only [List.nil_append, resolveSegments, except_bind_eq_ok]
      constructor
      · rintro ⟨node, found, below, none, result⟩
        cases none
        cases result
        exact ⟨[], node, rfl, found, rfl⟩
      · rintro ⟨steps, node, none, found, rfl⟩
        cases none
        exact ⟨node, found, [], rfl, rfl⟩
  | cons segment rest ih =>
      simp only [List.cons_append, resolveSegments, except_bind_eq_ok]
      constructor
      · rintro ⟨first, found, below, resolves, result⟩
        cases result
        obtain ⟨steps, node, before, next, rfl⟩ := ih.mp resolves
        refine ⟨(first, segment.keys) :: steps, node, ⟨first, found, steps, before, rfl⟩, ?_, rfl⟩
        rwa [lastNode_cons]
      · rintro ⟨_, node, ⟨first, found, steps, before, result⟩, next, rfl⟩
        cases result
        rw [lastNode_cons] at next
        exact ⟨first, found, _, ih.mpr ⟨steps, node, before, next, rfl⟩, rfl⟩

end Server

end Rousette.Restconf
