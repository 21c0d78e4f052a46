import Rousette.Restconf.Server.KeyChecks

/-!
# Edits confined to a resource

What an edit may consist of when it is written for a resource: the nodes which the
URI names, one below the other, each with the keys of the URI and nothing else, and
below them the resource itself.

libyang is assumed to create the nodes which a path has steps for, each with the keys
in its predicate.
-/

namespace Rousette.Restconf.Server

open Library Libyang

section Confinement

variable {S : Type} (ctx : Context S) (canonical : S → Str → Str)

/-- The leaf is a key with the value of the URI, in its canonical form. -/
def KeyOf (step : Step S) (leaf : DataNode S) : Prop :=
  ∃ (index : Nat) (value : Str), (ctx.keys step.1)[index]? = some leaf.schema ∧
    step.2[index]? = some value ∧
    leaf.valueStr = canonical leaf.schema value

/-- The forest consists of the nodes of the steps, one below the other, and of one node
below them.  Apart from the next one, the children of a node are keys of it, and all keys
of a node have the values of its step. -/
inductive Confined [DecidableEq S] (target : DataNode S → Prop) :
    List (Step S) → Forest S → Prop where
  | target {node : DataNode S} (holds : target node) : Confined target [] [node]
  | ancestor {step : Step S} {rest : List (Step S)} {tree child : DataNode S}
      {before after : Forest S} (named : tree.schema = step.1)
      (split : tree.children = before ++ child :: after)
      (keysOnly : ∀ other ∈ before ++ after, isKeyNode ctx tree other = true)
      (keys : ∀ leaf ∈ tree.children, isKeyNode ctx tree leaf = true →
        KeyOf ctx canonical step leaf)
      (below : Confined target rest [child]) : Confined target (step :: rest) [tree]

/-- All leafs which are keys of a list entry have the values of the URI. -/
def OwnKeys (node : DataNode S) (keys : List Str) : Prop :=
  ctx.nodeType node.schema = .list → ∀ (index : Nat) key value,
    (ctx.keys node.schema)[index]? = some key → keys[index]? = some value →
    ∀ leaf ∈ node.children, DataNode.schema leaf = key →
      canonical key (DataNode.valueStr leaf) = canonical key value

/-- The keys of a list entry, or the value of an entry of a leaf-list, are those of the
URI. -/
structure SameKeys [DecidableEq S] (node : DataNode S) (keys : List Str) : Prop where
  count : KeyCount ctx node.schema keys.length
  present : ctx.nodeType node.schema = .list → ∀ key ∈ ctx.keys node.schema,
    ∃ leaf, node.child? key = some leaf
  list : OwnKeys ctx canonical node keys
  leaflist : ctx.nodeType node.schema = .leaflist → ∀ value ∈ keys.head?,
    canonical node.schema node.valueStr = canonical node.schema value

/-- The node is the one which the last segment of a URI names. -/
structure IsTarget [DecidableEq S] (schema : S) (keys : List Str) (node : DataNode S) : Prop where
  named : node.schema = schema
  keys : SameKeys ctx canonical node keys

/-- The node is a child of the resource, or of the datastore, and no key of it. -/
def IsChild (parent : Option S) (node : DataNode S) : Prop :=
  match parent with
  | none => node.schema ∈ ctx.topLevel
  | some parent =>
      node.schema ∈ ctx.childInstantiables parent ∧
        ¬(ctx.nodeType parent = .list ∧ node.schema ∈ ctx.keys parent)

end Confinement

/-! ## What libyang creates -/

section Creation

variable {S : Type} (ctx : Context S) (canonical : S → Str → Str)

/-- The leafs for the keys of a list entry. -/
def keyLeafs (step : Step S) : List (DataNode S) :=
  match ctx.nodeType step.1 with
  | .list =>
      List.zipWith (fun key value => .leaf key (canonical key value)) (ctx.keys step.1) step.2
  | _ => []

/-- A tree of nodes one below the other, each with its keys, and the last one of them with
its position. -/
inductive Chain : List (Step S) → DataNode S → Position → DataNode S → Prop where
  | last {step : Step S} (inner : ctx.nodeType step.1 ≠ .leaf) :
      Chain [step] (.inner step.1 (keyLeafs ctx canonical step)) []
        (.inner step.1 (keyLeafs ctx canonical step))
  | above {step : Step S} {rest : List (Step S)} {tree node : DataNode S} {position : Position}
      (inner : ctx.nodeType step.1 ≠ .leaf) (below : Chain rest tree position node) :
      Chain (step :: rest) (.inner step.1 (keyLeafs ctx canonical step ++ [tree]))
        ((keyLeafs ctx canonical step).length :: position) node

/-- A path leads to a schema node: it names a node of the top level, or a child of the node
which is created for the path before it. -/
inductive Leads (calls : Calls S) (schema : S) : Str → Prop where
  | topLevel (member : schema ∈ calls.ctx.topLevel) :
      Leads calls schema
        (str "/" ++ calls.ctx.moduleName schema ++ str ":" ++ calls.ctx.name schema)
  | child {path : Str} {created : CreatedNodes S} (above : calls.newPath2 path = .ok created)
      (member : schema ∈ calls.ctx.childInstantiables created.createdNode.schema) :
      Leads calls schema
        (path ++ str "/" ++ calls.ctx.moduleName schema ++ str ":" ++ calls.ctx.name schema)

/-- What libyang promises about paths: a node is created for every step of a path, each
below the one before it and with the keys of its predicate; and the values in predicates
are stored in their canonical form. -/
structure CreatesPaths (calls : Calls S) : Prop where
  chain : ∀ {segments resolved created text format parsed},
    asLibyangPath calls.ctx segments = .ok resolved →
    calls.newPath2 resolved.dataPath = .ok created →
    calls.parseSubtree created.createdNode text format = .ok parsed →
    ∃ nodes : List S, nodes.length = segments.length ∧
      Chain calls.ctx canonical (nodes.zip (segments.map PathSegment.keys)) created.createdParent
        created.position created.createdNode
  key : ∀ {list path values predicate key value created} {index : Nat}, Leads calls list path →
    calls.ctx.nodeType list = .list →
    listKeyPredicate calls.ctx (calls.ctx.keys list) values = .ok predicate →
    (calls.ctx.keys list)[index]? = some key → values[index]? = some value →
    calls.newPath2 (path ++ predicate ++ (str "/" ++ calls.ctx.name key)) = .ok created →
    created.createdNode.valueStr = canonical key value
  entry : ∀ {schema path value predicate created}, Leads calls schema path →
    calls.ctx.nodeType schema = .leaflist → leaflistKeyPredicate value = .ok predicate →
    calls.newPath2 (path ++ predicate) = .ok created →
    created.createdNode.valueStr = canonical schema value
  named : ∀ node, calls.ctx.name node ≠ []

end Creation

/-! ## Chains -/

section Chains

variable {S : Type} [DecidableEq S] {ctx : Context S} {canonical : S → Str → Str}
  {target : DataNode S → Prop}

theorem isKeyNode_iff {tree leaf : DataNode S} :
    isKeyNode ctx tree leaf = true ↔
      ctx.nodeType tree.schema = .list ∧ leaf.schema ∈ ctx.keys tree.schema := by
  unfold isKeyNode
  split
  next list => simp [list]
  next other =>
    simp only [Bool.false_eq_true, false_iff, not_and]
    exact fun list => absurd list other

/-- A key is a leaf. -/
theorem nodeType_of_isKeyNode {tree leaf : DataNode S} (key : isKeyNode ctx tree leaf = true) :
    ctx.nodeType leaf.schema = .leaf := by
  obtain ⟨list, member⟩ := isKeyNode_iff.mp key
  exact ((ctx.keys_children list).mp member).2.1

omit [DecidableEq S] in
theorem mem_keyLeafs {step : Step S} {leaf : DataNode S}
    (member : leaf ∈ keyLeafs ctx canonical step) :
    ctx.nodeType step.1 = .list ∧ leaf.schema ∈ ctx.keys step.1 ∧
      KeyOf ctx canonical step leaf := by
  unfold keyLeafs at member
  split at member
  next list =>
    obtain ⟨index, found⟩ := List.mem_iff_getElem?.mp member
    rw [List.getElem?_zipWith_eq_some] at found
    obtain ⟨key, value, keyAt, valueAt, rfl⟩ := found
    exact ⟨list, List.mem_of_getElem? keyAt, index, value, keyAt, valueAt, rfl⟩
  · cases member

omit [DecidableEq S] in
theorem map_bare_keyLeafs (step : Step S) :
    (keyLeafs ctx canonical step).map DataNode.bare = keyLeafs ctx canonical step := by
  unfold keyLeafs
  split
  · rw [List.map_zipWith]
    simp [DataNode.bare, DataNode.leaf]
  · rfl

omit [DecidableEq S] in
theorem Chain.bare {steps : List (Step S)} {tree node : DataNode S} {position : Position}
    (chain : Chain ctx canonical steps tree position node) : tree.bare = tree := by
  induction chain with
  | last inner =>
      rw [DataNode.bare, DataNode.inner, Tree.map_node]
      exact congrArg _ (map_bare_keyLeafs _)
  | above inner below ih =>
      rw [DataNode.bare, DataNode.inner, Tree.map_node, List.map_append]
      refine congrArg _ (congrArg₂ _ (map_bare_keyLeafs _) ?_)
      exact congrArg (fun tree => [tree]) ih

omit [DecidableEq S] in
/-- The last node of a chain. -/
theorem Chain.last_eq {steps : List (Step S)} {tree node : DataNode S} {position : Position}
    (chain : Chain ctx canonical steps tree position node) :
    ∃ before step, steps = before ++ [step] ∧
      node = .inner step.1 (keyLeafs ctx canonical step) := by
  induction chain with
  | last inner => exact ⟨[], _, rfl, rfl⟩
  | @above step _ _ _ _ inner below ih =>
      obtain ⟨before, last, rfl, same⟩ := ih
      exact ⟨step :: before, last, rfl, same⟩

/-- The children of one step: keys with the values of the step, and one other node. -/
theorem confined_cons_iff {step : Step S} {rest : List (Step S)} {tree : DataNode S} :
    Confined ctx canonical target (step :: rest) [tree] ↔
      tree.schema = step.1 ∧
        (∃ before child after, tree.children = before ++ child :: after ∧
          (∀ other ∈ before ++ after, isKeyNode ctx tree other = true) ∧
          Confined ctx canonical target rest [child]) ∧
        ∀ leaf ∈ tree.children, isKeyNode ctx tree leaf = true → KeyOf ctx canonical step leaf := by
  constructor
  · intro confined
    cases confined with
    | ancestor named split keysOnly keys below =>
        exact ⟨named, ⟨_, _, _, split, keysOnly, below⟩, keys⟩
  · rintro ⟨named, ⟨before, child, after, split, keysOnly, below⟩, keys⟩
    exact .ancestor named split keysOnly keys below

omit [DecidableEq S] in
/-- The root of a chain is not a leaf, whatever is added at its end. -/
theorem Chain.nodeType_modifyAt {steps : List (Step S)} {tree node : DataNode S}
    {position : Position} (chain : Chain ctx canonical steps tree position node)
    (more : List (DataNode S)) :
    ctx.nodeType (DataNode.schema (tree.modifyAt (·.append more) position)) ≠ .leaf := by
  cases chain with
  | last inner => exact inner
  | above inner below => exact inner

/-- A node between two others has nothing but its keys besides the next one. -/
theorem confined_above_iff {step own : Step S} {rest : List (Step S)} {next : DataNode S}
    (values : step.2 = own.2) (inner : ctx.nodeType next.schema ≠ .leaf) :
    Confined ctx canonical target (step :: rest)
        [.inner own.1 (keyLeafs ctx canonical own ++ [next])] ↔
      step = own ∧ Confined ctx canonical target rest [next] := by
  have notKey : ∀ {tree : DataNode S}, isKeyNode ctx tree next ≠ true :=
    fun key => inner (nodeType_of_isKeyNode key)
  have ownKey : ∀ leaf ∈ keyLeafs ctx canonical own, isKeyNode ctx
      (.inner own.1 (keyLeafs ctx canonical own ++ [next])) leaf = true := by
    intro leaf member
    obtain ⟨list, key, _⟩ := mem_keyLeafs member
    exact isKeyNode_iff.mpr ⟨list, key⟩
  rw [confined_cons_iff]
  constructor
  · rintro ⟨named, ⟨before, child, after, split, keysOnly, below⟩, _⟩
    refine ⟨Prod.ext named.symm values, ?_⟩
    -- the next node is not a key, so it is the one which is not among the others
    have member : next ∈ before ++ child :: after := by
      rw [← split]
      exact List.mem_append_right _ List.mem_cons_self
    have same : next = child := by
      rcases List.mem_append.mp member with earlier | rest
      · exact absurd (keysOnly next (List.mem_append_left _ earlier)) notKey
      · rcases List.mem_cons.mp rest with same | later
        · exact same
        · exact absurd (keysOnly next (List.mem_append_right _ later)) notKey
    rwa [same]
  · rintro ⟨rfl, below⟩
    refine ⟨rfl, ⟨keyLeafs ctx canonical step, next, [], rfl, ?_, below⟩, ?_⟩
    · rw [List.append_nil]
      exact ownKey
    · intro leaf member key
      rcases List.mem_append.mp member with own | only
      · exact (mem_keyLeafs own).2.2
      · cases List.mem_singleton.mp only
        exact absurd key notKey

/-- Adding nodes at the end of a chain gives an edit for the steps exactly if the chain was
created for these steps, and its last node is confined to its keys and one of the added
nodes. -/
theorem Chain.tree_confined_iff {steps own : List (Step S)} {last : Step S} {tree node : DataNode S}
    {position : Position} (chain : Chain ctx canonical (own ++ [last]) tree position node)
    (values : steps.map Prod.snd = (own ++ [last]).map Prod.snd) (more : List (DataNode S)) :
    Confined ctx canonical target steps [tree.modifyAt (·.append more) position] ↔
      steps = own ++ [last] ∧
        Confined ctx canonical target [last]
          [.inner last.1 (keyLeafs ctx canonical last ++ more)] := by
  generalize whole : own ++ [last] = all at chain values
  induction chain generalizing steps own with
  | @last step inner =>
      have only : own = [] ∧ last = step := by
        cases own with
        | nil => exact ⟨rfl, by simpa using whole⟩
        | cons first rest => simp at whole
      obtain ⟨rfl, rfl⟩ := only
      have shape : ∃ other : Step S, steps = [other] ∧ other.2 = last.2 := by
        have one : steps.length = 1 := by simpa using congrArg List.length values
        obtain ⟨other, rfl⟩ := List.length_eq_one_iff.mp one
        exact ⟨other, rfl, by simpa using values⟩
      obtain ⟨other, rfl, same⟩ := shape
      have changed : Tree.modifyAt (·.append more) [] (DataNode.inner last.1
          (keyLeafs ctx canonical last)) =
          DataNode.inner last.1 (keyLeafs ctx canonical last ++ more) := rfl
      rw [changed]
      constructor
      · intro confined
        have named := (confined_cons_iff.mp confined).1
        have equal : other = last := Prod.ext named.symm same
        exact ⟨by rw [equal], by rwa [equal] at confined⟩
      · rintro ⟨equal, confined⟩
        rwa [equal]
  | @above step rest tree node position inner below ih =>
      obtain ⟨own, rfl, rfl⟩ : ∃ before, own = step :: before ∧ rest = before ++ [last] := by
        cases own with
        | nil =>
            rw [List.nil_append, List.cons.injEq] at whole
            rw [← whole.2] at below
            cases below
        | cons first before =>
            rw [List.cons_append, List.cons.injEq] at whole
            exact ⟨before, by rw [whole.1], whole.2.symm⟩
      obtain ⟨other, others, rfl, same, valuesBelow⟩ : ∃ other others, steps = other :: others ∧
          other.2 = step.2 ∧ others.map Prod.snd = (own ++ [last]).map Prod.snd := by
        match steps, values with
        | other :: others, values =>
            rw [List.map_cons, List.map_cons, List.cons.injEq] at values
            exact ⟨other, others, rfl, values.1, values.2⟩
      have changed : Tree.modifyAt (·.append more)
          ((keyLeafs ctx canonical step).length :: position)
          (DataNode.inner step.1 (keyLeafs ctx canonical step ++ [tree])) =
          DataNode.inner step.1 (keyLeafs ctx canonical step ++
            [tree.modifyAt (·.append more) position]) := by
        rw [Tree.modifyAt, DataNode.inner, DataNode.inner, Tree.label_node, Tree.children_node,
          List.modify_eq_take_drop]
        simp
      rw [changed, confined_above_iff same (below.nodeType_modifyAt more),
        ih rfl valuesBelow, List.cons.injEq, and_assoc]

end Chains

end Rousette.Restconf.Server
