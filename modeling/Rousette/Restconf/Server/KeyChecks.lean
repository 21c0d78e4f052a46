import Rousette.Libyang.Example
import Rousette.Restconf.Server.CreatedEdit
import Rousette.Restconf.UriPaths

/-!
# Key values in comparisons

`checkKeysMismatch` indexes the key values of the last path segment by the keys of
the node it is called on, so there have to be as many as the node needs.  That is
checked when the whole path is resolved; a last segment with a module prefix spares
that.
-/

namespace Rousette.Restconf.Server

open Library Libyang Program

section Checks

variable {S : Type} [DecidableEq S] (calls : Calls S) (uriPath : Str) (valueStr : Option Str)
  (dataFormat : DataFormat)

/-- The calls of `checkKeysMismatch` while an edit is built. -/
def keyChecks : List (DataNode S × PathSegment) :=
  (exec (createEditForPutAndPatch calls uriPath valueStr dataFormat) World.initial).2.keyChecks

/-- Every call finds as many key values as it needs. -/
def InBounds : Prop :=
  ∀ check ∈ keyChecks calls uriPath valueStr dataFormat,
    KeyCount calls.ctx check.1.schema check.2.keys.length

/-- The node of the payload which is compared with the last path segment first: there is
nothing but keys of the parent before it. -/
inductive Compared : DataNode S → PathSegment → Prop where
  | topLevel {value : Str} {lastPathSegment : PathSegment} {first : DataNode S}
      {rest : Forest S} (given : valueStr = some value)
      (splits : asLibyangPathSplit calls.ctx uriPath = .ok ([], lastPathSegment))
      (parsed : calls.parseData value dataFormat = .ok (first :: rest))
      (same : isSameNode calls first lastPathSegment = true) :
      Compared first lastPathSegment
  | nested {value lyParentPath : Str} {lastPathSegment : PathSegment}
      {created : CreatedNodes S} {parsed before after : Forest S} {child : DataNode S}
      (given : valueStr = some value)
      (splits : asLibyangPathSplit calls.ctx uriPath = .ok (lyParentPath, lastPathSegment))
      (level : lyParentPath ≠ []) (path : calls.newPath2 lyParentPath = .ok created)
      (parses : calls.parseSubtree created.createdNode value dataFormat = .ok parsed)
      (children : created.createdNode.children ++ parsed = before ++ child :: after)
      (keysOnly : ∀ other ∈ before, isSameNode calls other lastPathSegment = false ∧
        isKeyNode calls.ctx (created.createdNode.append parsed) other = true)
      (same : isSameNode calls child lastPathSegment = true) :
      Compared child lastPathSegment

/-- The whole path of a URI was resolved, and the text of its parent's path leads to the
node which the URI names as the parent. -/
structure Walked : Prop where
  whole : ∃ uri full, Impl.parseUriPath uriPath = .ok uri ∧
    asLibyangPath calls.ctx uri.segments = .ok full
  faithful : ∀ uri parent node, Impl.parseUriPath uriPath = .ok uri →
    asLibyangPath calls.ctx uri.segments.dropLast = .ok parent →
    parent.schemaNode = some node → calls.ctx.findPath parent.dataPath = .ok node

end Checks

variable {S : Type} [DecidableEq S] {calls : Calls S}

omit [DecidableEq S] in
/-- The name of a child and its module tell which schema node it has. -/
theorem isSameNode_unique {parent : S} {node other : DataNode S}
    {lastPathSegment : PathSegment}
    (child : node.schema ∈ calls.ctx.childInstantiables parent)
    (otherChild : other.schema ∈ calls.ctx.childInstantiables parent)
    (same : isSameNode calls node lastPathSegment = true)
    (otherSame : isSameNode calls other lastPathSegment = true) :
    node.schema = other.schema := by
  simp only [isSameNode, Bool.and_eq_true, beq_iff_eq] at same otherSame
  have module := same.1.symm.trans otherSame.1
  rw [Option.some.injEq] at module
  exact calls.ctx.children_unique child otherChild module (same.2.trans otherSame.2.symm)

/-! ## What is compared -/

/-- The calls made by the loop over the children. -/
def ComparedIn (calls : Calls S) (parent : DataNode S) (lastPathSegment : PathSegment)
    (children : List (DataNode S)) (check : DataNode S × PathSegment) : Prop :=
  check.2 = lastPathSegment ∧ check.1 ∈ children ∧
    isSameNode calls check.1 lastPathSegment = true ∧
    ∃ before child after, children = before ++ child :: after ∧
      (∀ other ∈ before, isSameNode calls other lastPathSegment = false ∧
        isKeyNode calls.ctx parent other = true) ∧
      isSameNode calls child lastPathSegment = true

theorem emits_requireKeys {property : DataNode S × PathSegment → Prop} {edit : Forest S}
    {position : Position} {node : DataNode S} {lyParentPath : Str}
    {lastPathSegment : PathSegment} (holds : property (node, lastPathSegment)) :
    Emits World.keyChecks property
      (requireKeys calls edit position node lyParentPath lastPathSegment) := by
  unfold requireKeys
  refine .bind ?_ fun _ _ => .bind (.liftM _) fun mismatch _ => ?_
  · intro world check member
    rcases List.mem_append.mp member with before | new
    · exact .inl before
    · cases List.mem_singleton.mp new
      exact .inr holds
  · cases mismatch with
    | none => exact .pure ()
    | some mismatch => exact .throw _

theorem emits_findReplacement {edit : Forest S} {parent : DataNode S} {position : Position}
    {lyParentPath : Str} {lastPathSegment : PathSegment} (index : Nat)
    (children : List (DataNode S)) (replacement : Option Nat) :
    Emits World.keyChecks (ComparedIn calls parent lastPathSegment children)
      (findReplacement calls edit parent position lyParentPath lastPathSegment index children
        replacement) := by
  induction children generalizing index replacement with
  | nil => exact .pure replacement
  | cons child rest ih =>
      unfold findReplacement
      split
      case isTrue same =>
        have first : ∃ before other after, child :: rest = before ++ other :: after ∧
            (∀ key ∈ before, isSameNode calls key lastPathSegment = false ∧
              isKeyNode calls.ctx parent key = true) ∧
            isSameNode calls other lastPathSegment = true :=
          ⟨[], child, rest, rfl, by simp, same⟩
        refine .bind (emits_requireKeys ⟨rfl, List.mem_cons_self, same, first⟩) fun _ _ => ?_
        refine (ih (index + 1) (some index)).mono fun check compared => ?_
        exact ⟨compared.1, List.mem_cons_of_mem _ compared.2.1, compared.2.2.1, first⟩
      case isFalse other =>
        split
        case isTrue key =>
          refine (ih (index + 1) replacement).mono fun check compared => ?_
          obtain ⟨segment, member, same, before, found, after, rfl, keysOnly, sameFound⟩ :=
            compared
          refine ⟨segment, List.mem_cons_of_mem _ member, same, child :: before, found, after,
            rfl, ?_, sameFound⟩
          refine List.forall_mem_cons.mpr ⟨⟨?_, key⟩, keysOnly⟩
          simpa using other
        case isFalse => exact .throw _

omit [DecidableEq S] in
/-- A call which was recorded stays recorded. -/
theorem Builds.keeps_check {α : Type} {program : Handler S α} (builds : Builds program)
    (check : DataNode S × PathSegment) :
    Keeps (fun before after => check ∈ before.keyChecks → check ∈ after.keyChecks) program := by
  intro world member
  obtain ⟨checks, after⟩ := builds.checks world
  rw [after]
  exact List.mem_append_left _ member

theorem always_requireKeys {edit : Forest S} {position : Position} {node : DataNode S}
    {lyParentPath : Str} {lastPathSegment : PathSegment} :
    Always (fun world => (node, lastPathSegment) ∈ world.keyChecks)
      (requireKeys calls edit position node lyParentPath lastPathSegment) := by
  unfold requireKeys
  refine .bind_keeps (fun world => ?_) fun _ => ?_
  · exact List.mem_append_right _ (List.mem_singleton_self _)
  · refine Builds.keeps_check (.bind (.liftM _) fun mismatch => ?_) _
    cases mismatch with
    | none => exact .pure ()
    | some mismatch => exact .throw _

/-- The first child which the URI names is compared. -/
theorem always_findReplacement {edit : Forest S} {parent : DataNode S} {position : Position}
    {lyParentPath : Str} {lastPathSegment : PathSegment} {before after : List (DataNode S)}
    {child : DataNode S} (same : isSameNode calls child lastPathSegment = true)
    (keysOnly : ∀ other ∈ before, isSameNode calls other lastPathSegment = false ∧
      isKeyNode calls.ctx parent other = true) (index : Nat) (replacement : Option Nat) :
    Always (fun world => (child, lastPathSegment) ∈ world.keyChecks)
      (findReplacement calls edit parent position lyParentPath lastPathSegment index
        (before ++ child :: after) replacement) := by
  induction before generalizing index with
  | nil =>
      rw [List.nil_append, findReplacement, if_pos same]
      refine .bind_keeps always_requireKeys fun _ => ?_
      exact (builds_findReplacement ..).keeps_check _
  | cons first rest ih =>
      obtain ⟨⟨other, key⟩, keysOnly⟩ := List.forall_mem_cons.mp keysOnly
      have differs : ¬isSameNode calls first lastPathSegment = true := by simp [other]
      rw [List.cons_append, findReplacement, if_neg differs, if_pos key]
      exact ih keysOnly (index + 1)

theorem mem_keyChecks_of_compared {uriPath : Str} {valueStr : Option Str}
    {dataFormat : DataFormat} {node : DataNode S} {lastPathSegment : PathSegment}
    (compared : Compared calls uriPath valueStr dataFormat node lastPathSegment) :
    (node, lastPathSegment) ∈ keyChecks calls uriPath valueStr dataFormat := by
  have always : Always (fun world => (node, lastPathSegment) ∈ world.keyChecks)
      (createEditForPutAndPatch calls uriPath valueStr dataFormat) := by
    unfold createEditForPutAndPatch
    cases compared with
    | topLevel given splits parsed same =>
        subst given
        refine .bind_liftM splits (.bind_liftM (raise_eq_ok.mpr parsed) ?_)
        refine .bind_liftM (show require _ _ = .ok () from require_eq_ok.mpr same) ?_
        exact .bind_keeps always_requireKeys fun _ _ => id
    | nested given splits level path parses children keysOnly same =>
        subst given
        refine .bind_liftM splits ?_
        dsimp only
        rw [if_neg (by simpa using level)]
        refine .bind_liftM (raise_eq_ok.mpr path) (.bind_liftM (raise_eq_ok.mpr parses) ?_)
        refine .bind_keeps ?_ fun replacement => ?_
        · have inside : (Tree.append _ _).children = _ := children
          rw [inside]
          exact always_findReplacement same keysOnly 0 none
        · cases replacement with
          | none => exact fun _ => id
          | some index => exact fun _ => id
  exact always World.initial

/-- Every node which is compared has the same schema node as the first one of them. -/
theorem compared_of_mem_keyChecks (conforms : calls.Conforms) {uriPath : Str}
    {valueStr : Option Str} {dataFormat : DataFormat} {check : DataNode S × PathSegment}
    (member : check ∈ keyChecks calls uriPath valueStr dataFormat) :
    ∃ node, Compared calls uriPath valueStr dataFormat node check.2 ∧
      node.schema = check.1.schema := by
  have emits : Emits World.keyChecks
      (fun check => ∃ node, Compared calls uriPath valueStr dataFormat node check.2 ∧
        node.schema = check.1.schema)
      (createEditForPutAndPatch calls uriPath valueStr dataFormat) := by
    unfold createEditForPutAndPatch
    refine .bind_liftM fun ⟨lyParentPath, lastPathSegment⟩ splits => ?_
    cases valueStr with
    | none => exact .bind_liftM fun _ _ => .bind_liftM fun _ _ => .pure _
    | some value =>
        cases lyParentPath with
        | nil =>
            refine .bind_liftM fun edit parsed => ?_
            cases edit with
            | nil => exact .throw _
            | cons first rest =>
                refine .bind_liftM fun _ same => .bind (emits_requireKeys ?_) fun _ _ => .pure _
                exact ⟨first, .topLevel rfl splits (raise_eq_ok.mp parsed)
                  (require_eq_ok.mp same), rfl⟩
        | cons c text =>
            refine .bind_liftM fun created path => .bind_liftM fun parsed parses => ?_
            have path := raise_eq_ok.mp path
            have parses := raise_eq_ok.mp parses
            refine .bind ?_ fun replacement _ => ?_
            · refine (emits_findReplacement 0 _ none).mono fun check compared => ?_
              obtain ⟨segment, inside, same, before, child, after, children, keysOnly,
                sameChild⟩ := compared
              have child_mem : child ∈ (created.createdNode.append parsed).children := by
                simp [children]
              have schema := conforms.children path parses
              rw [segment]
              refine ⟨child, .nested rfl splits (by simp) path parses children keysOnly sameChild,
                ?_⟩
              exact isSameNode_unique (schema child child_mem) (schema check.1 inside)
                sameChild same
            · cases replacement with
              | none => exact .throw _
              | some index => exact .pure _
  rcases emits World.initial check member with initially | compared
  · cases initially
  · exact compared

omit [DecidableEq S] in
/-- A node of the top level with the name of a single segment. -/
theorem schema_of_topLevel (conforms : calls.Conforms) {value : Str} {dataFormat : DataFormat}
    {first : DataNode S} {rest : Forest S} {segment : PathSegment} {target : S}
    (parsed : calls.parseData value dataFormat = .ok (first :: rest))
    (same : isSameNode calls first segment = true)
    (found : nextNode calls.ctx none segment.apiIdent = .ok target) : target = first.schema := by
  simp only [isSameNode, Bool.and_eq_true, beq_iff_eq] at same
  have root := conforms.parseData_topLevel parsed first List.mem_cons_self
  have known := calls.ctx.findPath_topLevel root
  have looked := nextNode_none_eq_ok found
  simp only [ApiIdentifier.qualifiedName, same.1, ← same.2, ← List.append_assoc] at looked
  rw [known, Except.ok.injEq] at looked
  exact looked.symm

/-- A node which is compared needs as many key values as there are, if the whole path was
resolved. -/
theorem Walked.keyCount (conforms : calls.Conforms) {uriPath : Str} {valueStr : Option Str}
    {dataFormat : DataFormat} (walked : Walked calls uriPath) {node : DataNode S}
    {lastPathSegment : PathSegment}
    (compared : Compared calls uriPath valueStr dataFormat node lastPathSegment) :
    KeyCount calls.ctx node.schema lastPathSegment.keys.length := by
  obtain ⟨uri, full, parsed, whole⟩ := walked.whole
  cases compared with
  | topLevel given splits parsedData same =>
      obtain ⟨_, segments, last, parent, reparsed, shape, resolved, path, keys, _, ident⟩ :=
        asLibyangPathSplit_eq_ok splits
      cases parsed.symm.trans reparsed
      rw [shape] at whole
      obtain ⟨_, target, predicate, before, next, built, _⟩ :=
        asLibyangPathFrom_append_singleton whole
      have single : segments = [] := by
        by_contra nonempty
        exact (asLibyangPathFrom_ne_nil resolved nonempty).1 path.symm
      subst single
      cases before
      have qualified := (Impl.parseUriPath_qualified parsed).first last (by simp [shape])
      rcases ident with ⟨modulePrefix, _, rfl⟩ | ⟨unqualified, _⟩
      · rw [← schema_of_topLevel conforms parsedData same next]
        exact keyCount_of_keysPredicate built
      · simp [unqualified] at qualified
  | nested given splits level path parses children keysOnly same =>
      obtain ⟨_, segments, last, parent, reparsed, shape, resolved, parentPath, keys, name,
        ident⟩ := asLibyangPathSplit_eq_ok splits
      cases parsed.symm.trans reparsed
      rw [shape] at whole
      obtain ⟨_, target, predicate, before, next, built, rfl⟩ :=
        asLibyangPathFrom_append_singleton whole
      cases before.symm.trans resolved
      have several : segments ≠ [] := by
        rintro rfl
        cases resolved
        exact level parentPath
      obtain ⟨above, known⟩ := (asLibyangPathFrom_ne_nil resolved several).2
      -- the text of the parent's path leads to the node which the URI names
      have faithful := walked.faithful uri parent above parsed
        (by rw [shape, List.dropLast_concat]; exact resolved) known
      rw [← parentPath, conforms.newPath2_findPath path, Except.ok.injEq] at faithful
      rw [known, ← faithful] at next
      obtain ⟨child, childName, childModule⟩ := nextNode_some_eq_ok next
      have module : lastPathSegment.apiIdent.modulePrefix =
          some (calls.ctx.moduleName target) := by
        rcases ident with
          ⟨modulePrefix, qualified, rfl⟩ | ⟨_, resolvedFull, named, again, last, filled⟩
        · rw [qualified, childModule modulePrefix qualified]
        · cases whole.symm.trans again
          cases last
          exact filled
      have inside := conforms.children path parses node (by rw [children]; simp)
      simp only [isSameNode, Bool.and_eq_true, beq_iff_eq] at same
      have schema : node.schema = target := by
        refine calls.ctx.children_unique inside child ?_ ?_
        · rw [← Option.some.injEq, ← same.1, module]
        · rw [same.2, name, childName]
      rw [schema, keys]
      exact keyCount_of_keysPredicate built

/-- Key values are in bounds exactly if the path was resolved as a whole, or the first node
which is compared happens to need as many as there are. -/
theorem inBounds_iff (conforms : calls.Conforms) (uriPath : Str) (valueStr : Option Str)
    (dataFormat : DataFormat) :
    InBounds calls uriPath valueStr dataFormat ↔
      Walked calls uriPath ∨ ∀ node lastPathSegment,
        Compared calls uriPath valueStr dataFormat node lastPathSegment →
          KeyCount calls.ctx node.schema lastPathSegment.keys.length := by
  constructor
  case mp =>
    intro inBounds
    refine .inr fun node lastPathSegment compared => ?_
    exact inBounds (node, lastPathSegment) (mem_keyChecks_of_compared compared)
  case mpr =>
    intro guarded check member
    obtain ⟨node, compared, schema⟩ := compared_of_mem_keyChecks conforms member
    rw [← schema]
    rcases guarded with walked | fits
    · exact walked.keyCount conforms compared
    · exact fits node check.2 compared

/-- The requests which `asRestconfRequest` has accepted are on the safe side. -/
theorem inBounds_of_accepted (conforms : calls.Conforms) {httpMethod uriPath query : Str}
    {request : RestconfRequest}
    (accepted : asRestconfRequest calls.ctx httpMethod uriPath query = .ok request)
    (faithful : ∀ uri parent node, Impl.parseUriPath uriPath = .ok uri →
      asLibyangPath calls.ctx uri.segments.dropLast = .ok parent →
      parent.schemaNode = some node → calls.ctx.findPath parent.dataPath = .ok node)
    (valueStr : Option Str) (dataFormat : DataFormat) :
    InBounds calls uriPath valueStr dataFormat := by
  intro check member
  obtain ⟨node, compared, schema⟩ := compared_of_mem_keyChecks conforms member
  have walked : Walked calls uriPath := ⟨asRestconfRequest_eq_ok accepted, faithful⟩
  rw [← schema]
  exact walked.keyCount conforms compared

/-- Every payload is parsed as an entry of the list `top-level-list`. -/
def listEntryCalls : Calls Example.Node :=
  { Example.calls with
    parseData := fun _ _ => .ok [.inner .topLevelList [.leaf .topLevelListName (str "a")]] }

theorem listEntryCalls_conforms : listEntryCalls.Conforms where
  parseData_topLevel := by
    intro _ _ forest parsed tree member
    cases parsed
    cases List.mem_singleton.mp member
    exact List.mem_of_elem_eq_true rfl
  parseData_byClient := by
    intro _ _ forest parsed tree member
    cases parsed
    cases List.mem_singleton.mp member
    simp [DataNode.inner, DataNode.leaf, Tree.all_node]
  parseSubtree_child parsed := by cases parsed
  newPath2_findPath created := by cases created
  newPath2_child created := by cases created

/-- An edit of a YANG Patch whose target has the key of the list. -/
theorem listEntry_inBounds :
    InBounds listEntryCalls (uriJoin (str "/restconf/data") (str "/example:top-level-list=a"))
      (some []) .json := by
  refine (inBounds_iff listEntryCalls_conforms _ _ _).mpr (.inl ⟨?_, ?_⟩)
  · exact ⟨_, _, rfl, rfl⟩
  · intro uri parent node parsed resolved
    cases parsed
    cases resolved
    intro known
    cases known

/-- An edit of a YANG Patch whose target lacks the key of the list. -/
theorem listEntry_outOfBounds :
    ¬InBounds listEntryCalls (uriJoin (str "/restconf/data") (str "/example:top-level-list"))
      (some []) .json := by
  intro inBounds
  have lacking : (keyChecks listEntryCalls
      (uriJoin (str "/restconf/data") (str "/example:top-level-list")) (some []) .json).any
        fun check => decide (check.1.schema = .topLevelList) && check.2.keys.isEmpty := by
    decide +kernel
  simp only [List.any_eq_true, Bool.and_eq_true, decide_eq_true_eq, List.isEmpty_iff] at lacking
  obtain ⟨check, member, schema, keys⟩ := lacking
  have count := inBounds check member
  rw [schema, keys] at count
  exact Nat.zero_ne_one count

end Rousette.Restconf.Server
