import Rousette.Restconf.Server.Confinement
import Rousette.Restconf.Server.ControlMetas
import Rousette.Restconf.Server.KeyEscaping

/-!
# Confinement of what is written

When the edit which a request hands to sysrepo is confined to the resource of its URI.
The server looks at the first node of a payload for the top level only, and it takes
every key of the parent for one which libyang has created.
-/

namespace Rousette.Restconf.Server

open Library Libyang Program

/-- A resource which is written to with a payload, or which gets a new child by one. -/
inductive Write where
  | resource (uriPath value : Str) (format : DataFormat)
  | child (uriPath value : Str) (format : DataFormat)

section Writes

variable {S : Type} [DecidableEq S] (calls : Calls S) (canonical : S → Str → Str)

/-- The edit, apart from its meta attributes, is confined to what is written. -/
def Confines : Write → Forest S → Prop
  | .resource uriPath _ _, forest =>
      ∃ uri steps schema keys, Impl.parseUriPath uriPath = .ok uri ∧
        resolveSegments calls.ctx none uri.segments = .ok (steps ++ [(schema, keys)]) ∧
        Confined calls.ctx canonical (IsTarget calls.ctx canonical schema keys) steps
          (forest.map DataNode.bare)
  | .child uriPath _ _, forest =>
      ∃ uri steps, Impl.parseUriPath uriPath = .ok uri ∧
        resolveSegments calls.ctx none uri.segments = .ok steps ∧
        Confined calls.ctx canonical (IsChild calls.ctx (lastNode none steps)) steps
          (forest.map DataNode.bare)

/-- No key of a list entry occurs with two values. -/
def Unambiguous (node : DataNode S) : Prop :=
  calls.ctx.nodeType node.schema = .list → ∀ key ∈ calls.ctx.keys node.schema,
    ∀ leaf ∈ node.children, ∀ other ∈ node.children, DataNode.schema leaf = key →
      DataNode.schema other = key →
      canonical key (DataNode.valueStr leaf) = canonical key (DataNode.valueStr other)

/-- A node of the payload has as many keys as the last segment has values, and none of
them twice. -/
structure FitsSegment (node : DataNode S) (last : PathSegment) : Prop where
  count : KeyCount calls.ctx node.schema last.keys.length
  unambiguous : Unambiguous calls canonical node

/-- The payload is parsed below the node which libyang creates for path segments. -/
structure ParsedBelow (segments : List PathSegment) (value : Str) (format : DataFormat)
    (steps : List (Step S)) (created : CreatedNodes S) (parsed : Forest S) : Prop where
  level : segments ≠ []
  resolves : resolveSegments calls.ctx none segments = .ok steps
  path : ∃ resolved, asLibyangPath calls.ctx segments = .ok resolved ∧
    calls.newPath2 resolved.dataPath = .ok created
  parses : calls.parseSubtree created.createdNode value format = .ok parsed

/-- libyang has created the nodes of the steps, and keys of the last one which are in the
payload have the values of the URI. -/
structure FitsParent (steps : List (Step S)) (created : CreatedNodes S) (parsed : Forest S) :
    Prop where
  chain : Chain calls.ctx canonical steps created.createdParent created.position
    created.createdNode
  keys : ∀ step ∈ steps.getLast?, ∀ leaf ∈ parsed,
    isKeyNode calls.ctx created.createdNode leaf = true → KeyOf calls.ctx canonical step leaf

/-- The payload fits what is written: there is one node at the top level, or one which is
not a key of its parent. -/
inductive Fits : Write → Prop where
  | topLevel {uriPath value : Str} {format : DataFormat} {uri : Impl.URIPath}
      {last : PathSegment} {node : DataNode S} (uriParsed : Impl.parseUriPath uriPath = .ok uri)
      (level : uri.segments = [last]) (parsed : calls.parseData value format = .ok [node])
      (segment : FitsSegment calls canonical node last) : Fits (.resource uriPath value format)
  | nested {uriPath value : Str} {format : DataFormat} {uri : Impl.URIPath}
      {segments : List PathSegment} {last : PathSegment} {steps : List (Step S)}
      {created : CreatedNodes S} {parsed : Forest S}
      (uriParsed : Impl.parseUriPath uriPath = .ok uri) (level : uri.segments = segments ++ [last])
      (below : ParsedBelow calls segments value format steps created parsed)
      (parent : FitsParent calls canonical steps created parsed)
      (single : (parsed.filter fun node =>
        !isKeyNode calls.ctx created.createdNode node).length ≤ 1)
      (segment : ∀ node ∈ parsed, isKeyNode calls.ctx created.createdNode node = false →
        FitsSegment calls canonical node last) : Fits (.resource uriPath value format)
  | datastore {uriPath value : Str} {format : DataFormat} {uri : Impl.URIPath}
      (uriParsed : Impl.parseUriPath uriPath = .ok uri) (level : uri.segments = []) :
      Fits (.child uriPath value format)
  | below {uriPath value : Str} {format : DataFormat} {uri : Impl.URIPath}
      {steps : List (Step S)} {created : CreatedNodes S} {parsed : Forest S}
      (uriParsed : Impl.parseUriPath uriPath = .ok uri)
      (below : ParsedBelow calls uri.segments value format steps created parsed)
      (parent : FitsParent calls canonical steps created parsed) :
      Fits (.child uriPath value format)

end Writes

variable {S : Type} [DecidableEq S] {calls : Calls S} {canonical : S → Str → Str}

/-! ## Keys of the resource -/

/-- All keys of a list entry have passed the comparison. -/
theorem passed_of_checkListKeys {node : DataNode S} {pathPrefix : Str} {uriKeys : List Str}
    {start : Nat} {keys : List S}
    (checked : checkListKeys calls node pathPrefix uriKeys start keys = .ok none) {offset : Nat}
    {key : S} (at_ : keys[offset]? = some key) :
    ∃ leaf paths, node.child? key = some leaf ∧
      keyPaths calls node.schema key pathPrefix uriKeys (start + offset) leaf.valueStr = .ok paths ∧
      compareKeyValue calls paths.1 paths.2 = .ok true := by
  induction keys generalizing start offset with
  | nil => simp at at_
  | cons first rest ih =>
      unfold checkListKeys at checked
      split at checked
      · cases checked
      next leaf present =>
        simp only [except_bind_eq_ok] at checked
        obtain ⟨paths, built, same, compared, checked⟩ := checked
        cases same with
        | false => cases checked
        | true =>
            cases offset with
            | zero =>
                cases at_
                exact ⟨leaf, paths, present, built, compared⟩
            | succ offset =>
                obtain ⟨other, further, found⟩ := ih checked at_
                refine ⟨other, further, ?_⟩
                rwa [show start + (offset + 1) = start + 1 + offset by omega]

omit [DecidableEq S] in
/-- Two paths which compare as equal. -/
theorem created_of_compareKeyValue {pathA pathB : Str}
    (compared : compareKeyValue calls pathA pathB = .ok true) :
    ∃ a b, calls.newPath2 pathA = .ok a ∧ calls.newPath2 pathB = .ok b ∧
      a.createdNode.valueStr = b.createdNode.valueStr := by
  simp only [compareKeyValue, except_bind_eq_ok] at compared
  obtain ⟨a, createsA, b, createsB, result⟩ := compared
  simp only [pure, Except.pure, Except.ok.injEq, beq_iff_eq] at result
  exact ⟨a, b, raise_eq_ok.mp createsA, raise_eq_ok.mp createsB, result⟩

/-- The first leaf for every key of a list entry has the value of the URI. -/
theorem canonical_of_checkListKeys (creates : CreatesPaths canonical calls) {node : DataNode S}
    {pathPrefix : Str} {uriKeys : List Str} (leads : Leads calls node.schema pathPrefix)
    (list : calls.ctx.nodeType node.schema = .list)
    (checked : checkListKeys calls node pathPrefix uriKeys 0 (calls.ctx.keys node.schema) =
      .ok none) {index : Nat} {key : S} (at_ : (calls.ctx.keys node.schema)[index]? = some key) :
    ∃ leaf value, node.child? key = some leaf ∧ uriKeys[index]? = some value ∧
      canonical key leaf.valueStr = canonical key value := by
  obtain ⟨leaf, paths, present, built, compared⟩ := passed_of_checkListKeys checked at_
  rw [Nat.zero_add] at built
  simp only [keyPaths, except_bind_eq_ok] at built
  obtain ⟨assigned, set, fromData, dataKeys, fromUri, uriPredicate, result⟩ := built
  cases result
  obtain ⟨a, b, createsA, createsB, same⟩ := created_of_compareKeyValue compared
  have inside : index < uriKeys.length := by
    unfold assignKey at set
    split at set
    next inside => exact inside
    · cases set
  rw [assignKey_eq_ok inside] at set
  cases set
  have valueAt : uriKeys[index]? = some uriKeys[index] := List.getElem?_eq_getElem inside
  have assignedAt : (uriKeys.set index leaf.valueStr)[index]? = some leaf.valueStr := by
    rw [List.getElem?_set_self inside]
  have dataValue := creates.key leads list dataKeys at_ assignedAt createsA
  have uriValue := creates.key leads list uriPredicate at_ valueAt createsB
  exact ⟨leaf, uriKeys[index], present, valueAt, by rw [← dataValue, same, uriValue]⟩

theorem schema_of_child? {node leaf : DataNode S} {key : S}
    (present : node.child? key = some leaf) :
    leaf ∈ node.children ∧ leaf.schema = key := by
  have named := List.find?_some present
  exact ⟨List.mem_of_find?_eq_some present, by simpa using named⟩

/-- A node which was compared with the last segment has the keys of the URI, if it fits the
segment. -/
theorem sameKeys_of_matching (creates : CreatesPaths canonical calls) {node : DataNode S}
    {lyParentPath : Str} {last segment : PathSegment}
    (leads : Leads calls node.schema (lyParentPath ++ str "/" ++ last.apiIdent.qualifiedName))
    (matching : checkKeysMismatch calls node lyParentPath last = .ok none)
    (keys : last.keys = segment.keys) (fits : FitsSegment calls canonical node segment) :
    SameKeys calls.ctx canonical node segment.keys := by
  rw [← keys]
  constructor
  case count =>
    rw [keys]
    exact fits.count
  case present =>
    intro list key member
    simp only [checkKeysMismatch, list] at matching
    obtain ⟨index, at_⟩ := List.mem_iff_getElem?.mp member
    obtain ⟨leaf, _, present, _⟩ := canonical_of_checkListKeys creates leads list matching at_
    exact ⟨leaf, present⟩
  case list =>
    intro list index key value at_ valueAt leaf member same
    simp only [checkKeysMismatch, list] at matching
    obtain ⟨first, other, present, otherAt, equal⟩ :=
      canonical_of_checkListKeys creates leads list matching at_
    rw [valueAt, Option.some.injEq] at otherAt
    subst otherAt
    obtain ⟨firstMember, firstKey⟩ := schema_of_child? present
    rw [← equal]
    exact fits.unambiguous list key (List.mem_of_getElem? at_) leaf member first firstMember same
      firstKey
  case leaflist =>
    intro leaflist value head
    simp only [checkKeysMismatch, leaflist, except_bind_eq_ok] at matching
    obtain ⟨fromData, dataKey, uriKey, first, fromUri, uriKeyed, same, compared, result⟩ := matching
    rw [Option.mem_def.mp head, deref, Except.ok.injEq] at first
    subst first
    cases same with
    | false => cases result
    | true =>
        obtain ⟨a, b, createsA, createsB, equal⟩ := created_of_compareKeyValue compared
        rw [← creates.entry leads leaflist dataKey createsA, equal,
          creates.entry leads leaflist uriKeyed createsB]

/-- What has the keys of the URI fits the segment. -/
theorem fitsSegment_of_sameKeys {node : DataNode S} {segment : PathSegment}
    (same : SameKeys calls.ctx canonical node segment.keys) :
    FitsSegment calls canonical node segment := by
  refine ⟨same.count, ?_⟩
  intro list key member leaf leafMember other otherMember leafKey otherKey
  obtain ⟨index, at_⟩ := List.mem_iff_getElem?.mp member
  have count : segment.keys.length = (calls.ctx.keys node.schema).length := by
    have count := same.count
    rwa [KeyCount, list] at count
  have inside : index < segment.keys.length := by
    rw [count]
    exact (List.getElem?_eq_some_iff.mp at_).1
  have valueAt : segment.keys[index]? = some segment.keys[index] :=
    List.getElem?_eq_getElem inside
  rw [same.list list index key _ at_ valueAt leaf leafMember leafKey,
    same.list list index key _ at_ valueAt other otherMember otherKey]

/-- A key, which is a leaf, has no keys itself. -/
theorem sameKeys_of_leaf {node : DataNode S} (leaf : calls.ctx.nodeType node.schema = .leaf)
    (keys : List Str) : SameKeys calls.ctx canonical node keys := by
  constructor
  case count =>
    rw [KeyCount, leaf]
    trivial
  case present => exact fun list => by simp [leaf] at list
  case list => exact fun list => by simp [leaf] at list
  case leaflist => exact fun list => by simp [leaf] at list

/-! ## Meta attributes make no difference -/

theorem child?_bare (node : DataNode S) (key : S) :
    node.bare.child? key = (node.child? key).map DataNode.bare := by
  simp only [DataNode.child?, DataNode.children_bare, List.find?_map, Function.comp_def,
    DataNode.schema_bare]

omit [DecidableEq S] in
theorem ownKeys_bare {node : DataNode S} {keys : List Str} :
    OwnKeys calls.ctx canonical node.bare keys ↔ OwnKeys calls.ctx canonical node keys := by
  simp only [OwnKeys, DataNode.schema_bare, DataNode.children_bare, List.forall_mem_map,
    DataNode.valueStr_bare]

theorem sameKeys_bare {node : DataNode S} {keys : List Str} :
    SameKeys calls.ctx canonical node.bare keys ↔ SameKeys calls.ctx canonical node keys := by
  have present : ∀ key, (∃ leaf, node.bare.child? key = some leaf) ↔
      ∃ leaf, node.child? key = some leaf := by
    intro key
    rw [child?_bare]
    simp
  constructor
  · rintro ⟨count, there, list, leaflist⟩
    simp only [DataNode.schema_bare, DataNode.valueStr_bare, present] at count there leaflist
    exact ⟨count, there, ownKeys_bare.mp list, leaflist⟩
  · rintro ⟨count, there, list, leaflist⟩
    refine ⟨?_, ?_, ownKeys_bare.mpr list, ?_⟩
    · rwa [DataNode.schema_bare]
    · simpa only [DataNode.schema_bare, present] using there
    · simpa only [DataNode.schema_bare, DataNode.valueStr_bare] using leaflist

theorem isKeyNode_congr {ctx : Context S} {tree other leaf another : DataNode S}
    (above : tree.schema = other.schema) (below : leaf.schema = another.schema) :
    isKeyNode ctx tree leaf = isKeyNode ctx other another := by
  simp only [isKeyNode, above, below]

omit [DecidableEq S] in
theorem keyOf_bare {step : Step S} {leaf : DataNode S} :
    KeyOf calls.ctx canonical step leaf.bare ↔ KeyOf calls.ctx canonical step leaf := by
  simp only [KeyOf, DataNode.schema_bare, DataNode.valueStr_bare]

/-! ## The name of the resource -/

omit [DecidableEq S] in
/-- The path which a compared node is looked for with leads to it. -/
theorem qualifiedName_of_isSameNode {node : DataNode S} {last : PathSegment}
    (same : isSameNode calls node last = true) :
    last.apiIdent.qualifiedName =
      calls.ctx.moduleName node.schema ++ str ":" ++ calls.ctx.name node.schema := by
  simp only [isSameNode, Bool.and_eq_true, beq_iff_eq] at same
  rw [ApiIdentifier.qualifiedName, same.1, same.2]

omit [DecidableEq S] in
theorem leads_topLevel {node : DataNode S} {last : PathSegment}
    (root : node.schema ∈ calls.ctx.topLevel) (same : isSameNode calls node last = true) :
    Leads calls node.schema ([] ++ str "/" ++ last.apiIdent.qualifiedName) := by
  have leads := Leads.topLevel root
  rw [qualifiedName_of_isSameNode same, List.nil_append]
  simpa only [List.append_assoc] using leads

omit [DecidableEq S] in
theorem leads_child {path : Str} {created : CreatedNodes S} {node : DataNode S}
    {last : PathSegment} (above : calls.newPath2 path = .ok created)
    (member : node.schema ∈ calls.ctx.childInstantiables created.createdNode.schema)
    (same : isSameNode calls node last = true) :
    Leads calls node.schema (path ++ str "/" ++ last.apiIdent.qualifiedName) := by
  have leads := Leads.child above member
  rw [qualifiedName_of_isSameNode same]
  simpa only [List.append_assoc] using leads

omit [DecidableEq S] in
/-- The node of the last segment below another one: a child which is named by the segment
as it was completed. -/
theorem nextNode_of_isSameNode {parent : S} {node : DataNode S} {last segment : PathSegment}
    (member : node.schema ∈ calls.ctx.childInstantiables parent)
    (same : isSameNode calls node last = true)
    (named : last = segment ∨ ∃ target,
      nextNode calls.ctx (some parent) segment.apiIdent = .ok target ∧
        last.apiIdent.modulePrefix = some (calls.ctx.moduleName target) ∧
        last.apiIdent.identifier = segment.apiIdent.identifier) :
    nextNode calls.ctx (some parent) segment.apiIdent = .ok node.schema := by
  simp only [isSameNode, Bool.and_eq_true, beq_iff_eq] at same
  rcases named with rfl | ⟨target, found, module, name⟩
  · cases found : findChildSchemaNode calls.ctx parent last.apiIdent with
    | none =>
        have none := List.find?_eq_none.mp found node.schema member
        simp [same.1, same.2] at none
    | some child =>
        obtain ⟨child', childName, childModule⟩ := findChildSchemaNode_eq_some found
        have equal : child = node.schema :=
          calls.ctx.children_unique child' member (childModule _ same.1)
            (childName.trans same.2.symm)
        simp only [nextNode, found, equal]
  · obtain ⟨child, childName, _⟩ := nextNode_some_eq_ok found
    have equal : target = node.schema := by
      refine calls.ctx.children_unique child member ?_ ?_
      · rw [← Option.some.injEq, ← module, same.1]
      · rw [childName, ← name, same.2]
    rw [found, equal]

omit [DecidableEq S] in
theorem nextNode_topLevel {node : DataNode S} {last : PathSegment}
    (root : node.schema ∈ calls.ctx.topLevel) (same : isSameNode calls node last = true) :
    nextNode calls.ctx none last.apiIdent = .ok node.schema := by
  have known := calls.ctx.findPath_topLevel root
  have path : str "/" ++ last.apiIdent.qualifiedName = str "/" ++
      calls.ctx.moduleName node.schema ++ str ":" ++ calls.ctx.name node.schema := by
    rw [qualifiedName_of_isSameNode same]
    simp only [List.append_assoc]
  simp only [nextNode, path, known]

/-! ## The children of the parent -/

section Children

variable {α : Type} {passes : α → Bool}

/-- An item next to others which pass. -/
theorem exists_split {items : List α} {item : α} (member : item ∈ items)
    (single : (items.filter fun other => !passes other).length ≤ 1)
    (chosen : passes item = false ∨ ∀ other ∈ items, passes other = true) :
    ∃ before after, items = before ++ item :: after ∧
      ∀ other ∈ before ++ after, passes other = true := by
  obtain ⟨before, after, rfl⟩ := List.append_of_mem member
  refine ⟨before, after, rfl, ?_⟩
  rcases chosen with fails | all
  · have none : (before ++ after).filter (fun other => !passes other) = [] := by
      rw [List.filter_append, List.filter_cons_of_pos (by simp [fails])] at single
      rw [← List.length_eq_zero_iff, List.filter_append, List.length_append]
      rw [List.length_append, List.length_cons] at single
      omega
    intro other among
    simpa using List.filter_eq_nil_iff.mp none other among
  · intro other among
    apply all
    simp only [List.mem_append, List.mem_cons] at among ⊢
    exact among.imp_right .inr

theorem length_filter_of_split {before after : List α} {item : α}
    (others : ∀ other ∈ before ++ after, passes other = true) :
    ((before ++ item :: after).filter fun other => !passes other).length ≤ 1 := by
  have none : ∀ {items : List α}, (∀ other ∈ items, passes other = true) →
      items.filter (fun other => !passes other) = [] := by
    intro items all
    refine List.filter_eq_nil_iff.mpr fun other member => ?_
    simp [all other member]
  rw [List.forall_mem_append] at others
  rw [List.filter_append, none others.1, List.nil_append, List.filter_cons]
  split
  · rw [none others.2]
    simp
  · rw [none others.2]
    simp

end Children

section Below

variable {segments : List PathSegment} {value : Str} {format : DataFormat}
  {steps : List (Step S)} {created : CreatedNodes S} {parsed : Forest S}
  {target : DataNode S → Prop}

omit [DecidableEq S] in
theorem ParsedBelow.unique {otherSteps : List (Step S)} {otherCreated : CreatedNodes S}
    {otherParsed : Forest S} (below : ParsedBelow calls segments value format steps created parsed)
    (other : ParsedBelow calls segments value format otherSteps otherCreated otherParsed) :
    steps = otherSteps ∧ created = otherCreated ∧ parsed = otherParsed := by
  cases below.resolves.symm.trans other.resolves
  obtain ⟨resolved, walked, path⟩ := below.path
  obtain ⟨_, again, otherPath⟩ := other.path
  cases walked.symm.trans again
  cases path.symm.trans otherPath
  cases below.parses.symm.trans other.parses
  exact ⟨rfl, rfl, rfl⟩

omit [DecidableEq S] in
theorem map_bare_append (tree : DataNode S) (position : Position) (more : Forest S) :
    DataNode.bare (tree.modifyAt (·.append more) position) =
      tree.bare.modifyAt (·.append (more.map DataNode.bare)) position :=
  Tree.map_modifyAt (fun node => Tree.map_append _ node more) position tree

/-- An edit which is made below a parent: libyang has created the nodes which the URI names,
and the children of the last one are as they should be. -/
theorem ParsedBelow.edit_confined_iff (creates : CreatesPaths canonical calls)
    (below : ParsedBelow calls segments value format steps created parsed) :
    Confined calls.ctx canonical target steps
        [DataNode.bare (created.createdParent.modifyAt (·.append parsed) created.position)] ↔
      ∃ own last, steps = own ++ [last] ∧
        Chain calls.ctx canonical steps created.createdParent created.position
          created.createdNode ∧
        Confined calls.ctx canonical target [last]
          [.inner last.1 (keyLeafs calls.ctx canonical last ++ parsed.map DataNode.bare)] := by
  obtain ⟨resolved, walked, path⟩ := below.path
  obtain ⟨nodes, length, chain⟩ := creates.chain walked path below.parses
  obtain ⟨same, resolves, values, _⟩ := resolveSegments_of_asLibyangPathFrom walked
  cases below.resolves.symm.trans resolves
  rw [map_bare_append, chain.bare]
  constructor
  · intro confined
    obtain ⟨own, last, shape, _⟩ := chain.last_eq
    rw [shape] at chain
    have keys : steps.map Prod.snd = (own ++ [last]).map Prod.snd := by
      rw [← shape, values, List.map_snd_zip (by simp [length])]
    obtain ⟨rfl, inside⟩ := (chain.tree_confined_iff keys _).mp confined
    exact ⟨own, last, rfl, chain, inside⟩
  · rintro ⟨own, last, rfl, chain, confined⟩
    exact (chain.tree_confined_iff rfl _).mpr ⟨rfl, confined⟩

omit [DecidableEq S] in
theorem createdNode_eq {own : List (Step S)} {last : Step S}
    (chain : Chain calls.ctx canonical (own ++ [last]) created.createdParent created.position
      created.createdNode) :
    created.createdNode = .inner last.1 (keyLeafs calls.ctx canonical last) := by
  obtain ⟨_, step, shape, node⟩ := chain.last_eq
  obtain ⟨_, same⟩ := List.append_inj' shape rfl
  rw [List.cons.injEq] at same
  rw [node, same.1]

/-- The children of the last ancestor. -/
theorem confined_last_iff {own : List (Step S)} {last : Step S}
    (chain : Chain calls.ctx canonical (own ++ [last]) created.createdParent created.position
      created.createdNode) :
    Confined calls.ctx canonical target [last]
        [.inner last.1 (keyLeafs calls.ctx canonical last ++ parsed.map DataNode.bare)] ↔
      (∃ before child after,
        keyLeafs calls.ctx canonical last ++ parsed.map DataNode.bare = before ++ child :: after ∧
        (∀ other ∈ before ++ after, isKeyNode calls.ctx created.createdNode other = true) ∧
        target child) ∧
      ∀ leaf ∈ parsed, isKeyNode calls.ctx created.createdNode leaf = true →
        KeyOf calls.ctx canonical last leaf := by
  have node := createdNode_eq chain
  have schema : DataNode.schema (.inner last.1
      (keyLeafs calls.ctx canonical last ++ parsed.map DataNode.bare)) =
        created.createdNode.schema := by
    rw [node]
    rfl
  have only : ∀ child, Confined calls.ctx canonical target [] [child] ↔ target child := by
    intro child
    refine ⟨fun confined => ?_, fun holds => .target holds⟩
    cases confined with
    | target holds => exact holds
  rw [confined_cons_iff]
  simp only [only, isKeyNode_congr schema rfl]
  constructor
  · rintro ⟨_, split, keys⟩
    refine ⟨split, fun leaf member key => ?_⟩
    rw [← isKeyNode_congr rfl leaf.schema_bare] at key
    exact keyOf_bare.mp (keys leaf.bare
      (List.mem_append_right _ (List.mem_map_of_mem member)) key)
  · rintro ⟨split, keys⟩
    refine ⟨rfl, split, fun leaf member key => ?_⟩
    rcases List.mem_append.mp member with own | added
    · exact (mem_keyLeafs own).2.2
    · obtain ⟨original, inside, rfl⟩ := List.mem_map.mp added
      rw [isKeyNode_congr rfl original.schema_bare] at key
      exact keyOf_bare.mpr (keys original inside key)

omit [DecidableEq S] in
/-- The nodes of a payload with the keys which libyang has created before. -/
theorem children_append_bare {own : List (Step S)} {last : Step S}
    (chain : Chain calls.ctx canonical (own ++ [last]) created.createdParent created.position
      created.createdNode) :
    (created.createdNode.children ++ parsed).map DataNode.bare =
      keyLeafs calls.ctx canonical last ++ parsed.map DataNode.bare := by
  rw [List.map_append, createdNode_eq chain]
  exact congrArg (· ++ parsed.map DataNode.bare) (map_bare_keyLeafs last)

theorem isKeyNode_of_mem_children {own : List (Step S)} {last : Step S}
    (chain : Chain calls.ctx canonical (own ++ [last]) created.createdParent created.position
      created.createdNode) {leaf : DataNode S} (member : leaf ∈ created.createdNode.children) :
    isKeyNode calls.ctx created.createdNode leaf = true := by
  rw [createdNode_eq chain] at member ⊢
  obtain ⟨list, key, _⟩ := mem_keyLeafs member
  exact isKeyNode_iff.mpr ⟨list, key⟩

/-- The keys which libyang has created do not count. -/
theorem length_filter_children {own : List (Step S)} {last : Step S}
    (chain : Chain calls.ctx canonical (own ++ [last]) created.createdParent created.position
      created.createdNode) :
    ((keyLeafs calls.ctx canonical last ++ parsed.map DataNode.bare).filter fun other =>
        !isKeyNode calls.ctx created.createdNode other).length =
      (parsed.filter fun other => !isKeyNode calls.ctx created.createdNode other).length := by
  have keys : (keyLeafs calls.ctx canonical last).filter (fun other =>
      !isKeyNode calls.ctx created.createdNode other) = [] := by
    refine List.filter_eq_nil_iff.mpr fun leaf member => ?_
    have children : created.createdNode.children = keyLeafs calls.ctx canonical last := by
      rw [createdNode_eq chain]
      rfl
    simp [isKeyNode_of_mem_children chain (children ▸ member)]
  have parsedNodes : ((fun other => !isKeyNode calls.ctx created.createdNode other) ∘
      DataNode.bare) = fun other => !isKeyNode calls.ctx created.createdNode other := by
    funext other
    simp only [Function.comp_apply, isKeyNode_congr rfl other.schema_bare]
  rw [List.filter_append, keys, List.nil_append, List.filter_map, parsedNodes, List.length_map]

end Below

/-! ## PUT, PATCH and the edits of a YANG Patch -/

section Resource

variable {uriPath value : Str} {format : DataFormat} {forest : Forest S}

/-- A resource of the top level: the URI has one segment, and there is nothing besides the
node which was compared with it. -/
theorem confines_topLevel_iff (conforms : calls.Conforms) (creates : CreatesPaths canonical calls)
    {lastPathSegment : PathSegment} {first : DataNode S} {rest : Forest S}
    (splits : asLibyangPathSplit calls.ctx uriPath = .ok ([], lastPathSegment))
    (parsed : calls.parseData value format = .ok (first :: rest))
    (same : isSameNode calls first lastPathSegment = true)
    (matching : checkKeysMismatch calls first [] lastPathSegment = .ok none) :
    Confines calls canonical (.resource uriPath value format) (first :: rest) ↔
      Fits calls canonical (.resource uriPath value format) := by
  obtain ⟨uri, segments, last, parent, uriParsed, shape, resolved, path, keys, _, ident⟩ :=
    asLibyangPathSplit_eq_ok splits
  have single : segments = [] := by
    by_contra nonempty
    exact (asLibyangPathFrom_ne_nil resolved nonempty).1 path.symm
  subst single
  have qualified := (Impl.parseUriPath_qualified uriParsed).first last (by simp [shape])
  obtain rfl : lastPathSegment = last := by
    rcases ident with ⟨_, _, same⟩ | ⟨unqualified, _⟩
    · exact same
    · simp [unqualified] at qualified
  have root := conforms.parseData_topLevel parsed first List.mem_cons_self
  have next := nextNode_topLevel root same
  constructor
  · rintro ⟨again, steps, schema, uriKeys, reparsed, resolves, confined⟩
    cases uriParsed.symm.trans reparsed
    rw [shape, resolveSegments_append_singleton] at resolves
    obtain ⟨_, node, none, found, all⟩ := resolves
    cases none
    cases next.symm.trans found
    obtain ⟨rfl, only⟩ := List.append_inj' all rfl
    rw [List.cons.injEq, Prod.mk.injEq] at only
    obtain ⟨⟨rfl, rfl⟩, _⟩ := only
    generalize bare : (first :: rest).map DataNode.bare = nodes at confined
    cases confined with
    | target holds =>
        rw [List.map_cons, List.cons.injEq, List.map_eq_nil_iff] at bare
        obtain ⟨rfl, rfl⟩ := bare
        exact .topLevel uriParsed shape parsed
          (fitsSegment_of_sameKeys (sameKeys_bare.mp holds.keys))
  · intro fits
    cases fits with
    | topLevel reparsed level again segment =>
        cases uriParsed.symm.trans reparsed
        cases shape.symm.trans level
        cases parsed.symm.trans again
        refine ⟨uri, [], first.schema, lastPathSegment.keys, uriParsed, ?_, ?_⟩
        · rw [shape, resolveSegments_append_singleton]
          exact ⟨[], first.schema, rfl, next, rfl⟩
        · refine .target ⟨first.schema_bare, sameKeys_bare.mpr ?_⟩
          exact sameKeys_of_matching creates (leads_topLevel root same) matching rfl segment
    | nested reparsed level below parent single segment =>
        cases uriParsed.symm.trans reparsed
        rw [shape] at level
        obtain ⟨rfl, _⟩ := List.append_inj' level rfl
        exact absurd rfl below.level

omit [DecidableEq S] in
/-- A child of the parent which was compared with the last segment is the one which the URI
names. -/
theorem nextNode_of_ident {segments : List PathSegment} {last lastPathSegment : PathSegment}
    {parent : SchemaNodeAndPath S} {above : S} {node : DataNode S}
    (resolved : asLibyangPath calls.ctx segments = .ok parent)
    (leads : parent.schemaNode = some above)
    (ident : (∃ modulePrefix, last.apiIdent.modulePrefix = some modulePrefix ∧
        lastPathSegment = last) ∨
      (last.apiIdent.modulePrefix = none ∧ ∃ full node,
        asLibyangPath calls.ctx (segments ++ [last]) = .ok full ∧ full.schemaNode = some node ∧
        lastPathSegment.apiIdent.modulePrefix = some (calls.ctx.moduleName node)))
    (name : lastPathSegment.apiIdent.identifier = last.apiIdent.identifier)
    (member : node.schema ∈ calls.ctx.childInstantiables above)
    (same : isSameNode calls node lastPathSegment = true) :
    nextNode calls.ctx (some above) last.apiIdent = .ok node.schema := by
  apply nextNode_of_isSameNode member same
  rcases ident with ⟨_, _, unchanged⟩ | ⟨_, full, target, whole, reaches, module⟩
  · exact .inl unchanged
  · obtain ⟨_, found, _, before, next, _, rfl⟩ := asLibyangPathFrom_append_singleton whole
    cases resolved.symm.trans before
    rw [leads] at next
    cases reaches
    exact .inr ⟨target, next, module, name⟩

/-- One of the nodes below the parent is the one which the URI names, and it is not a key of
the parent if there is a node which is none. -/
theorem exists_target (conforms : calls.Conforms) (creates : CreatesPaths canonical calls)
    {lyParentPath : Str} {last lastPathSegment : PathSegment} {created : CreatedNodes S}
    {parsed : Forest S} {own : List (Step S)} {step : Step S} {index : Nat} {node : DataNode S}
    (path : calls.newPath2 lyParentPath = .ok created)
    (parses : calls.parseSubtree created.createdNode value format = .ok parsed)
    (chain : Chain calls.ctx canonical (own ++ [step]) created.createdParent created.position
      created.createdNode)
    (admitted : ∀ child ∈ created.createdNode.children ++ parsed,
      Admitted calls (created.createdNode.append parsed) lyParentPath lastPathSegment child)
    (found : (created.createdNode.children ++ parsed)[index]? = some node)
    (same : isSameNode calls node lastPathSegment = true) (keys : lastPathSegment.keys = last.keys)
    (segment : ∀ node ∈ parsed, isKeyNode calls.ctx created.createdNode node = false →
      FitsSegment calls canonical node last) :
    ∃ child ∈ created.createdNode.children ++ parsed,
      isSameNode calls child lastPathSegment = true ∧
      SameKeys calls.ctx canonical child last.keys ∧
      (isKeyNode calls.ctx created.createdNode child = false ∨
        ∀ other ∈ created.createdNode.children ++ parsed,
          isKeyNode calls.ctx created.createdNode other = true) := by
  by_cases all : ∀ other ∈ created.createdNode.children ++ parsed,
      isKeyNode calls.ctx created.createdNode other = true
  case pos =>
    have member := List.mem_of_getElem? found
    have leaf := nodeType_of_isKeyNode (all node member)
    exact ⟨node, member, same, sameKeys_of_leaf leaf _, .inr all⟩
  case neg =>
    push Not at all
    obtain ⟨child, member, other⟩ := all
    rw [Ne, Bool.not_eq_true] at other
    have admits := admitted child member
    have notKey : isKeyNode calls.ctx (created.createdNode.append parsed) child ≠ true := by
      have schema : DataNode.schema (created.createdNode.append parsed) =
          created.createdNode.schema := rfl
      rw [isKeyNode_congr schema rfl, other]
      exact Bool.false_ne_true
    rw [Admitted] at admits
    split at admits
    next sameChild =>
      have inside : child ∈ parsed := by
        rcases List.mem_append.mp member with own | parsed
        · simp [isKeyNode_of_mem_children chain own] at other
        · exact parsed
      have below := conforms.children path parses child member
      exact ⟨child, member, sameChild, sameKeys_of_matching creates
        (leads_child path below sameChild) admits keys (segment child inside other), .inl other⟩
    next => exact absurd admits notKey

/-- A resource below another one: the nodes of the payload are the one which was compared
with the last segment and keys of the parent. -/
theorem confines_nested_iff (conforms : calls.Conforms) (creates : CreatesPaths canonical calls)
    {lyParentPath : Str} {lastPathSegment : PathSegment} {created : CreatedNodes S}
    {parsed : Forest S} {index : Nat} {node : DataNode S}
    (splits : asLibyangPathSplit calls.ctx uriPath = .ok (lyParentPath, lastPathSegment))
    (level : lyParentPath ≠ []) (path : calls.newPath2 lyParentPath = .ok created)
    (parses : calls.parseSubtree created.createdNode value format = .ok parsed)
    (admitted : ∀ child ∈ created.createdNode.children ++ parsed,
      Admitted calls (created.createdNode.append parsed) lyParentPath lastPathSegment child)
    (found : (created.createdNode.children ++ parsed)[index]? = some node)
    (same : isSameNode calls node lastPathSegment = true) :
    Confines calls canonical (.resource uriPath value format)
        [created.createdParent.modifyAt (·.append parsed) created.position] ↔
      Fits calls canonical (.resource uriPath value format) := by
  obtain ⟨uri, segments, last, parent, uriParsed, shape, resolved, parentPath, keys, name, ident⟩ :=
    asLibyangPathSplit_eq_ok splits
  have several : segments ≠ [] := by
    rintro rfl
    cases resolved
    exact level parentPath
  obtain ⟨steps, resolves, _, leads⟩ := resolveSegments_of_asLibyangPathFrom resolved
  have below : ParsedBelow calls segments value format steps created parsed :=
    ⟨several, resolves, ⟨parent, resolved, parentPath ▸ path⟩, parses⟩
  constructor
  · rintro ⟨again, _, schema, uriKeys, reparsed, whole, confined⟩
    cases uriParsed.symm.trans reparsed
    rw [shape, resolveSegments_append_singleton] at whole
    obtain ⟨_, target, before, next, all⟩ := whole
    cases resolves.symm.trans before
    obtain ⟨rfl, only⟩ := List.append_inj' all rfl
    rw [List.cons.injEq, Prod.mk.injEq] at only
    obtain ⟨⟨rfl, rfl⟩, _⟩ := only
    rw [List.map_cons, List.map_nil, below.edit_confined_iff creates] at confined
    obtain ⟨own, step, rfl, chain, confined⟩ := confined
    obtain ⟨⟨before, child, after, split, keysOnly, holds⟩, keysMatch⟩ :=
      (confined_last_iff chain).mp confined
    refine .nested uriParsed shape below ⟨chain, ?_⟩ ?_ ?_
    · simpa using keysMatch
    · rw [← length_filter_children chain, split]
      exact length_filter_of_split keysOnly
    · intro node member notKey
      have inside : node.bare ∈ before ++ child :: after := by
        rw [← split]
        exact List.mem_append_right _ (List.mem_map_of_mem member)
      rw [← isKeyNode_congr rfl node.schema_bare] at notKey
      obtain rfl : node.bare = child := by
        by_contra other
        have among : node.bare ∈ before ++ after := by
          simpa [other] using inside
        simp [keysOnly _ among] at notKey
      exact fitsSegment_of_sameKeys (sameKeys_bare.mp holds.keys)
  · intro fits
    cases fits with
    | topLevel reparsed single _ _ =>
        cases uriParsed.symm.trans reparsed
        have length := congrArg List.length (shape.symm.trans single)
        simp [several] at length
    | nested reparsed again belowAgain fitsParent single segment =>
        cases uriParsed.symm.trans reparsed
        rw [shape] at again
        obtain ⟨rfl, only⟩ := List.append_inj' again rfl
        cases only
        obtain ⟨rfl, rfl, rfl⟩ := below.unique belowAgain
        obtain ⟨chain, keysMatch⟩ := fitsParent
        obtain ⟨own, step, rfl, _⟩ := chain.last_eq
        have above : parent.schemaNode = some created.createdNode.schema := by
          rw [← leads, createdNode_eq chain]
          simp [lastNode, DataNode.inner, DataNode.schema]
        obtain ⟨child, member, sameChild, sameKeys, chosen⟩ := exists_target conforms creates path
          parses chain admitted found same keys segment
        have next := nextNode_of_ident resolved above ident name
          (conforms.children path parses child member) sameChild
        refine ⟨uri, own ++ [step], DataNode.schema child, last.keys, uriParsed, ?_, ?_⟩
        · rw [shape, resolveSegments_append_singleton]
          refine ⟨own ++ [step], DataNode.schema child, resolves, ?_, rfl⟩
          rwa [leads, above]
        · rw [List.map_cons, List.map_nil, below.edit_confined_iff creates]
          refine ⟨own, step, rfl, chain, (confined_last_iff chain).mpr ⟨?_, ?_⟩⟩
          · have inside := List.mem_map_of_mem (f := DataNode.bare) member
            rw [children_append_bare chain] at inside
            obtain ⟨before, after, split, others⟩ :=
              @exists_split _ (isKeyNode calls.ctx created.createdNode) _ _ inside
                (le_of_eq_of_le (length_filter_children chain) single) (by
                  rw [← children_append_bare chain]
                  simp only [List.forall_mem_map, isKeyNode_congr rfl (DataNode.schema_bare _)]
                  exact chosen)
            exact ⟨before, DataNode.bare child, after, split, others,
              DataNode.schema_bare child, sameKeys_bare.mpr sameKeys⟩
          · simpa using keysMatch

/-- Every edit which is built for a resource and a value. -/
theorem Created.confines_iff (conforms : calls.Conforms) (creates : CreatesPaths canonical calls)
    {nodes : EditNodes S} (created : Created calls uriPath (some value) format nodes) :
    Confines calls canonical (.resource uriPath value format) nodes.edit ↔
      Fits calls canonical (.resource uriPath value format) := by
  cases created with
  | bare absent splits accepted path => cases absent
  | topLevel given splits parsed same matching =>
      cases given
      exact confines_topLevel_iff conforms creates splits parsed same matching
  | nested given splits level path parses admitted found same =>
      cases given
      exact confines_nested_iff conforms creates splits level path parses admitted found same

end Resource

/-! ## POST -/

section Child

variable {env : Env S} {ctx : RequestContext} {query : Str}

/-- A payload is processed as that of a `POST` if the request creates a child. -/
theorem createChildren_of_processing (kind : processing ctx = .post) :
    ctx.restconfRequest.type = .createChildren := by
  unfold processing at kind
  split at kind
  next type => exact type
  next => split at kind <;> cases kind

omit [DecidableEq S] in
theorem path_of_requestType {httpMethod uriPath lyPath path : Str} {uri : Impl.URIPath}
    {schemaNode : Option S} {type : RequestType}
    (typed : requestType env.libyang.ctx httpMethod uriPath uri lyPath schemaNode =
      .ok (type, path)) (kind : type = .createChildren) :
    path = if uri.segments.isEmpty then str "/" else lyPath := by
  subst kind
  unfold requestType at typed
  dsimp only at typed
  split_ifs at typed <;> simp_all

omit [DecidableEq S] in
/-- The path of a request which creates a child. -/
theorem path_of_createChildren {httpMethod uriPath : Str} {request : RestconfRequest}
    (accepted : asRestconfRequest env.libyang.ctx httpMethod uriPath query = .ok request)
    (type : request.type = .createChildren) :
    ∃ uri full, Impl.parseUriPath uriPath = .ok uri ∧
      asLibyangPath env.libyang.ctx uri.segments = .ok full ∧
      request.path = if uri.segments.isEmpty then str "/" else full.dataPath := by
  simp only [asRestconfRequest, except_bind_eq_ok] at accepted
  obtain ⟨_, _, uri, parsed, _, _, _, _, full, resolved, _, _, result⟩ := accepted
  refine ⟨uri, full, parsed, resolved, ?_⟩
  split at result
  · cases result
    cases type
  · split at result
    · cases result
      cases type
    · cases result
      cases type
    · cases result
      cases type
    · simp only [except_bind_eq_ok] at result
      obtain ⟨⟨_, path⟩, typed, _, _, request⟩ := result
      cases request
      exact path_of_requestType typed type

omit [DecidableEq S] in
/-- The path of a resource below the datastore is longer than that of the datastore. -/
theorem dataPath_ne (names : ∀ node, calls.ctx.name node ≠ []) {segments : List PathSegment}
    {full : SchemaNodeAndPath S} (resolved : asLibyangPath calls.ctx segments = .ok full)
    (several : segments ≠ []) : full.dataPath ≠ str "/" := by
  obtain ⟨before, last, rfl⟩ := List.eq_nil_or_concat segments |>.resolve_left several
  rw [List.concat_eq_append] at resolved
  obtain ⟨parent, node, predicate, _, _, _, rfl⟩ := asLibyangPathFrom_append_singleton resolved
  have name : 0 < (calls.ctx.name node).length := List.length_pos_iff.mpr (names node)
  have qualified : 0 < (maybeQualified calls.ctx node).length := by
    unfold maybeQualified
    split
    · simp only [List.length_append]
      omega
    · split
      · exact name
      · simp only [List.length_append]
        omega
  intro root
  have length := congrArg List.length root
  simp only [List.length_append, str] at length
  simp at length
  omega

/-- The keys which a `POST` does not count are those of the node. -/
theorem isOwnKey_eq_isKeyNode {node child : DataNode S}
    (below : child.schema ∈ env.libyang.ctx.childInstantiables node.schema) :
    isOwnKey env node child = isKeyNode env.libyang.ctx node child := by
  rw [Bool.eq_iff_iff, isKeyNode_iff]
  simp only [isOwnKey, Bool.and_eq_true, beq_iff_eq, and_assoc]
  constructor
  · rintro ⟨list, leaf, key⟩
    exact ⟨list, (env.libyang.ctx.keys_children list).mpr ⟨below, leaf, key⟩⟩
  · rintro ⟨list, key⟩
    exact ⟨list, ((env.libyang.ctx.keys_children list).mp key).2⟩

omit [DecidableEq S] in
theorem length_createdIndices {node : DataNode S} {nodes : List (DataNode S)} :
    (createdIndices env node nodes).length =
      (nodes.filter fun child => !isOwnKey env node child).length := by
  have kept : (nodes.zipIdx.map Prod.fst).filter (fun child => !isOwnKey env node child) =
      (nodes.zipIdx.filter fun entry => !isOwnKey env node entry.1).map Prod.fst :=
    List.filter_map ..
  rw [List.zipIdx_map_fst] at kept
  rw [createdIndices, List.length_map, kept, List.length_map]

/-- The only node below the resource which is not one of its keys. -/
theorem exists_created (conforms : env.libyang.Conforms) {path text : Str} {format : DataFormat}
    {created : CreatedNodes S} {parsed : Forest S} {index : Nat}
    (creates : env.libyang.newPath2 path = .ok created)
    (parses : env.libyang.parseSubtree created.createdNode text format = .ok parsed)
    (single : createdIndices env created.createdNode (created.createdNode.children ++ parsed) =
      [index]) :
    ∃ child ∈ created.createdNode.children ++ parsed,
      isKeyNode env.libyang.ctx created.createdNode child = false ∧
      (parsed.filter fun other =>
        !isKeyNode env.libyang.ctx created.createdNode other).length ≤ 1 := by
  have length := congrArg List.length single
  rw [length_createdIndices] at length
  have same : (created.createdNode.children ++ parsed).filter (fun other =>
      !isOwnKey env created.createdNode other) =
        (created.createdNode.children ++ parsed).filter fun other =>
          !isKeyNode env.libyang.ctx created.createdNode other := by
    refine List.filter_congr fun other member => ?_
    rw [isOwnKey_eq_isKeyNode (conforms.children creates parses other member)]
  rw [same] at length
  obtain ⟨child, only⟩ := List.length_eq_one_iff.mp length
  have kept : child ∈ (created.createdNode.children ++ parsed).filter fun other =>
      !isKeyNode env.libyang.ctx created.createdNode other := by
    rw [only]
    exact List.mem_cons_self
  obtain ⟨member, notKey⟩ := List.mem_filter.mp kept
  refine ⟨child, member, by simpa using notKey, ?_⟩
  rw [List.filter_append, List.length_append, List.length_singleton] at length
  omega

/-- A child which is created below a resource. -/
theorem confines_below_iff (conforms : env.libyang.Conforms)
    (creates : CreatesPaths canonical env.libyang) {uriPath text : Str} {format : DataFormat}
    {uri : Impl.URIPath} {full : SchemaNodeAndPath S} {created : CreatedNodes S}
    {parsed : Forest S} {index : Nat} (uriParsed : Impl.parseUriPath uriPath = .ok uri)
    (several : uri.segments ≠ [])
    (resolved : asLibyangPath env.libyang.ctx uri.segments = .ok full)
    (path : env.libyang.newPath2 full.dataPath = .ok created)
    (parses : env.libyang.parseSubtree created.createdNode text format = .ok parsed)
    (single : createdIndices env created.createdNode (created.createdNode.children ++ parsed) =
      [index]) :
    Confines env.libyang canonical (.child uriPath text format)
        [created.createdParent.modifyAt (·.append parsed) created.position] ↔
      Fits env.libyang canonical (.child uriPath text format) := by
  obtain ⟨steps, resolves, _, _⟩ := resolveSegments_of_asLibyangPathFrom resolved
  have below : ParsedBelow env.libyang uri.segments text format steps created parsed :=
    ⟨several, resolves, ⟨full, resolved, path⟩, parses⟩
  constructor
  · rintro ⟨_, _, reparsed, again, confined⟩
    cases uriParsed.symm.trans reparsed
    cases resolves.symm.trans again
    rw [List.map_cons, List.map_nil, below.edit_confined_iff creates] at confined
    obtain ⟨own, last, rfl, chain, confined⟩ := confined
    obtain ⟨_, keys⟩ := (confined_last_iff chain).mp confined
    exact .below uriParsed below ⟨chain, by simpa using keys⟩
  · intro fits
    cases fits with
    | datastore reparsed level =>
        cases uriParsed.symm.trans reparsed
        exact absurd level several
    | below reparsed belowAgain fitsParent =>
        cases uriParsed.symm.trans reparsed
        obtain ⟨rfl, rfl, rfl⟩ := below.unique belowAgain
        obtain ⟨chain, keys⟩ := fitsParent
        obtain ⟨own, last, rfl, _⟩ := chain.last_eq
        obtain ⟨child, member, notKey, one⟩ := exists_created conforms path parses single
        refine ⟨uri, own ++ [last], uriParsed, resolves, ?_⟩
        rw [List.map_cons, List.map_nil, below.edit_confined_iff creates]
        refine ⟨own, last, rfl, chain, (confined_last_iff chain).mpr ⟨?_, by simpa using keys⟩⟩
        have inside := List.mem_map_of_mem (f := DataNode.bare) member
        rw [children_append_bare chain] at inside
        obtain ⟨before, after, split, others⟩ :=
          @exists_split _ (isKeyNode env.libyang.ctx created.createdNode) _ _ inside
            (le_of_eq_of_le (length_filter_children chain) one)
            (.inl (by rw [isKeyNode_congr rfl (DataNode.schema_bare child), notKey]))
        refine ⟨before, DataNode.bare child, after, split, others, ?_⟩
        have parent : created.createdNode.schema = last.1 := by
          rw [createdNode_eq chain]
          rfl
        have inSchema := conforms.children path parses child member
        have noKey := mt isKeyNode_iff.mpr (Bool.eq_false_iff.mp notKey)
        rw [parent] at inSchema noKey
        simpa [lastNode, IsChild] using And.intro inSchema noKey

/-- The edit of a `POST`. -/
theorem confines_post_iff (conforms : env.libyang.Conforms)
    (creates : CreatesPaths canonical env.libyang)
    (accepted : asRestconfRequest env.libyang.ctx ctx.method ctx.rawPath query =
      .ok ctx.restconfRequest) (kind : processing ctx = .post)
    {edit : Forest S} {position : Position} {index : Nat}
    (built : createEditForPost env ctx = .ok (edit, position, [index])) :
    Confines env.libyang canonical (.child ctx.rawPath ctx.payload ctx.requestFormat) edit ↔
      Fits env.libyang canonical (.child ctx.rawPath ctx.payload ctx.requestFormat) := by
  obtain ⟨uri, full, uriParsed, resolved, path⟩ :=
    path_of_createChildren accepted (createChildren_of_processing kind)
  obtain ⟨node, rfl⟩ := post_single conforms built
  simp only [createEditForPost] at built
  by_cases level : uri.segments = []
  case pos =>
    rw [level, List.isEmpty_nil, if_pos rfl] at path
    rw [if_pos path, except_bind_eq_ok] at built
    obtain ⟨forest, parsed, result⟩ := built
    simp only [pure, Except.pure, Except.ok.injEq, Prod.mk.injEq] at result
    obtain ⟨rfl, _⟩ := result
    have root := conforms.parseData_topLevel (raise_eq_ok.mp parsed) node List.mem_cons_self
    refine ⟨fun _ => .datastore uriParsed level, fun _ => ?_⟩
    refine ⟨uri, [], uriParsed, by rw [level]; rfl, .target ?_⟩
    rwa [lastNode, List.getLast?_nil, IsChild, DataNode.schema_bare]
  case neg =>
    rw [if_neg (by simpa using level)] at path
    rw [path, if_neg (dataPath_ne creates.named resolved level)] at built
    simp only [except_bind_eq_ok] at built
    obtain ⟨created, made, parsed, parses, result⟩ := built
    simp only [pure, Except.pure, Except.ok.injEq, Prod.mk.injEq] at result
    obtain ⟨edit, _, indices⟩ := result
    rw [← edit]
    exact confines_below_iff conforms creates uriParsed level resolved (raise_eq_ok.mp made)
      (raise_eq_ok.mp parses) indices

end Child

/-! ## What is handed over -/

section Handed

variable (env : Env S) (ctx : RequestContext)

/-- The edits which a request hands over for what it writes.  Each edit of a YANG Patch is
part of the forest which the patch hands over. -/
inductive Handed : Write → Forest S → Prop where
  | target {forest : Forest S} (kind : processing ctx = .putOrPlainPatch)
      (path : ctx.restconfRequest.path ≠ str "/")
      (member : forest ∈ (afterPayload env ctx).handed) :
      Handed (.resource ctx.rawPath ctx.payload ctx.requestFormat) forest
  | edit {merged forest : Forest S} {patch : Patch} {edit : PatchEdit} {target value : Str}
      (kind : processing ctx = .yangPatch) (member : merged ∈ (afterPayload env ctx).handed)
      (parsed : env.libyang.parsePatch ctx.payload ctx.requestFormat = .ok (some patch))
      (inside : edit ∈ patch.edits) (targeted : edit.target = some target)
      (carries : yangPatchValueAsJSON edit.value = .ok (some value))
      (processed : editOutcome env ctx edit = .ok forest) :
      Handed (.resource (uriJoin ctx.rawPath target) value .json) forest
  | child {forest : Forest S} (kind : processing ctx = .post)
      (member : forest ∈ (afterPayload env ctx).handed) :
      Handed (.child ctx.rawPath ctx.payload ctx.requestFormat) forest

end Handed

variable {env : Env S} {ctx : RequestContext}

/-- The attributes which the server adds make no difference. -/
theorem Annotated.confines_iff {before after : EditNodes S} (annotated : Annotated before after)
    {write : Write} :
    Confines calls canonical write after.edit ↔ Confines calls canonical write before.edit := by
  obtain ⟨metas, _, rfl⟩ := annotated
  cases write with
  | resource uriPath value format => simp only [Confines, Forest.map_bare_modifyAt]
  | child uriPath value format => simp only [Confines, Forest.map_bare_modifyAt]

/-- An edit of a YANG Patch which carries a value. -/
theorem confines_edit_iff (conforms : env.libyang.Conforms)
    (creates : CreatesPaths canonical env.libyang) {edit : PatchEdit} {forest : Forest S}
    {target value : Str} (targeted : edit.target = some target)
    (carries : yangPatchValueAsJSON edit.value = .ok (some value))
    (processed : editOutcome env ctx edit = .ok forest) :
    Confines env.libyang canonical (.resource (uriJoin ctx.rawPath target) value .json) forest ↔
      Fits env.libyang canonical (.resource (uriJoin ctx.rawPath target) value .json) := by
  have returns : Returns (processYangPatchEdit env ctx edit) forest := ⟨_, processed⟩
  unfold processYangPatchEdit at returns
  obtain ⟨found, hasTarget, returns⟩ := returns.bind
  obtain ⟨operation, _, returns⟩ := returns.bind
  obtain ⟨given, hasValue, returns⟩ := returns.bind
  obtain ⟨nodes, created, returns⟩ := returns.bind
  obtain ⟨_, validated, returns⟩ := returns.bind
  obtain ⟨annotated, set, returns⟩ := returns.bind
  cases returns.pure
  have hasTarget := hasTarget.liftM
  rw [targeted, childLeafValue, Except.ok.injEq] at hasTarget
  subst hasTarget
  cases carries.symm.trans hasValue.liftM
  rw [(annotated_setPatchOperation set.liftM).confines_iff]
  exact (created_of_returns created).confines_iff conforms creates

/-- What is handed over is confined to what the URI names exactly if the payload fits it. -/
theorem confined_iff (conforms : env.libyang.Conforms)
    (creates : CreatesPaths canonical env.libyang) {query : Str}
    (accepted : asRestconfRequest env.libyang.ctx ctx.method ctx.rawPath query =
      .ok ctx.restconfRequest) {write : Write} {forest : Forest S}
    (handed : Handed env ctx write forest) :
    Confines env.libyang canonical write forest ↔ Fits env.libyang canonical write := by
  cases handed with
  | target kind path member =>
      cases handover_of_mem_handed env ctx member with
      | root _ root _ _ => exact absurd root path
      | target _ _ created validated set =>
          rw [(annotated_setPutOperation set).confines_iff]
          exact (created_of_returns created).confines_iff conforms creates
      | child post _ _ _ _ => simp [kind] at post
      | patch patch _ => simp [kind] at patch
  | edit kind member parsed inside targeted carries processed =>
      exact confines_edit_iff conforms creates targeted carries processed
  | child kind member =>
      cases handover_of_mem_handed env ctx member with
      | root other _ _ _ => simp [kind] at other
      | target other _ _ _ _ => simp [kind] at other
      | child _ built validated set inserted =>
          have annotated := (annotated_addMeta set).trans (annotated_yangInsertFromQuery inserted)
          rw [annotated.confines_iff]
          exact confines_post_iff conforms creates accepted kind built
      | patch patch _ => simp [kind] at patch

/-- Without any path which it creates, libyang has nothing to promise. -/
theorem putLeafEnv_createsPaths (further : Forest Example.Node) :
    CreatesPaths (fun _ value => value) (putLeafEnv further).libyang where
  chain := by
    intro _ _ _ _ _ _ _ created
    cases created
  key := by
    intro _ _ _ _ _ _ _ _ _ _ _ _ _ created
    cases created
  entry := by
    intro _ _ _ _ _ _ _ _ created
    cases created
  named := by
    have named : ∀ node, Example.Node.name node ≠ [] := by
      intro node
      cases node <;> decide
    exact named

theorem putLeaf_accepted (further : Forest Example.Node) :
    asRestconfRequest (putLeafEnv further).libyang.ctx putLeafContext.method
      putLeafContext.rawPath [] = .ok putLeafContext.restconfRequest := by
  rfl

/-- The URI of the leaf. -/
def topLevelLeafSegment : PathSegment := ⟨⟨some (str "example"), str "top-level-leaf"⟩, []⟩

theorem parseUriPath_putLeaf : Impl.parseUriPath putLeafContext.rawPath =
    .ok ⟨⟨.basicRestconfData, none⟩, [topLevelLeafSegment]⟩ := rfl

theorem putLeaf_confined : ∃ forest,
    Handed (putLeafEnv []) putLeafContext (.resource putLeafContext.rawPath [] .json) forest ∧
      Confines (putLeafEnv []).libyang (fun _ value => value)
        (.resource putLeafContext.rawPath [] .json) forest := by
  have handed : (afterPayload (putLeafEnv []) putLeafContext).handed.length = 1 := by
    decide +kernel
  obtain ⟨forest, only⟩ := List.length_eq_one_iff.mp handed
  have member : forest ∈ (afterPayload (putLeafEnv []) putLeafContext).handed := by simp [only]
  have handed : Handed (putLeafEnv []) putLeafContext
      (.resource putLeafContext.rawPath [] .json) forest :=
    .target (by decide) (by decide) member
  refine ⟨forest, handed, ?_⟩
  refine (confined_iff (putLeafEnv_conforms (by simp) (by simp)) (putLeafEnv_createsPaths [])
    (putLeaf_accepted []) handed).mpr ?_
  refine .topLevel parseUriPath_putLeaf rfl rfl ⟨trivial, ?_⟩
  intro list
  cases list

/-- A payload with a second leaf changes the leaf which is not named by the URI, too. -/
theorem putLeaf_escapes : ∃ forest,
    Handed (putLeafEnv [.leaf .topLevelLeaf2 (str "y")]) putLeafContext
        (.resource putLeafContext.rawPath [] .json) forest ∧
      ¬Confines (putLeafEnv [.leaf .topLevelLeaf2 (str "y")]).libyang (fun _ value => value)
        (.resource putLeafContext.rawPath [] .json) forest := by
  have handed : (afterPayload (putLeafEnv [.leaf .topLevelLeaf2 (str "y")])
      putLeafContext).handed.map List.length = [2] := by
    decide +kernel
  obtain ⟨forest, only, length⟩ := List.map_eq_singleton_iff.mp handed
  refine ⟨forest, .target (by decide) (by decide) (by simp [only]), ?_⟩
  rintro ⟨uri, steps, schema, keys, parsed, resolves, confined⟩
  cases parseUriPath_putLeaf.symm.trans parsed
  rw [← List.nil_append [topLevelLeafSegment], resolveSegments_append_singleton] at resolves
  obtain ⟨_, node, none, found, all⟩ := resolves
  cases none
  obtain ⟨rfl, _⟩ := List.append_inj' all rfl
  generalize bare : forest.map DataNode.bare = nodes at confined
  have single : nodes.length = 1 := by
    cases confined with
    | target holds => rfl
  rw [← bare, List.length_map, length] at single
  cases single

end Rousette.Restconf.Server
