import Rousette.Restconf.QueryRecognition
import Rousette.Restconf.SchemaResolution
import Rousette.Restconf.Server.WriteConfinement

/-!
# Points of insertion

An entry of a list or leaf-list which the user orders is inserted next to another one, the
point.  The point is a path of its own, with a value for every key on its way, and so is the
URI of the entry.  Of the point, `yangInsert` looks at the schema node and at the keys of the
last segment; sysrepo gets these keys and looks for them next to the inserted entry.
-/

namespace Rousette.Restconf.Server

open Library Libyang Program

/-! ## Instances -/

section Instances

variable {S : Type} (ctx : Context S) (canonical : S → Str → Str)

/-- What tells an instance of a schema node from the others below the same node: the values of
its keys, if it is an entry of a list. -/
abbrev InstanceStep (S : Type) := S × List (Option Str)

/-- The step to a node, with the keys which are found in it. -/
def instanceStep [DecidableEq S] (node : DataNode S) : InstanceStep S :=
  (node.schema,
    match ctx.nodeType node.schema with
    | .list => (ctx.keys node.schema).map fun key => (node.child? key).map DataNode.valueStr
    | _ => [])

/-- The step which a segment stands for. -/
def namedStep (step : Step S) : InstanceStep S :=
  (step.1,
    match ctx.nodeType step.1 with
    | .list =>
        List.zipWith (fun key value => some (canonical key value)) (ctx.keys step.1) step.2
    | _ => [])

/-- The instance in which the entry is that gets the operation. -/
def parentInstance [DecidableEq S] (nodes : EditNodes S) : List (InstanceStep S) :=
  ((Forest.along nodes.edit nodes.replacement).map (instanceStep ctx)).dropLast

/-- The entry and the point are of the same schema node and in the same instance. -/
def IsSibling [DecidableEq S] (nodes : EditNodes S) (point : List PathSegment) : Prop :=
  ∃ (entry : DataNode S) (steps : List (Step S)) (keys : List Str),
    Forest.at? nodes.edit nodes.replacement = some entry ∧
    resolveSegments ctx none point = .ok (steps ++ [(entry.schema, keys)]) ∧
    parentInstance ctx nodes = steps.map (namedStep ctx canonical)

/-- Above its last segment, the point has the same keys as the path of a parent, up to the
form in which they are written. -/
def SameAncestors (parents point : List PathSegment) : Prop :=
  ∃ steps, resolveSegments ctx none point.dropLast = .ok steps ∧
    List.Forall₂ (fun step segment =>
      namedStep ctx canonical step = namedStep ctx canonical (step.1, PathSegment.keys segment))
      steps parents

/-- Nodes one below the other, from the top level to the last one. -/
inductive Route : List S → Option S → Prop where
  | root : Route [] none
  | next {nodes : List S} {current : Option S} {node : S} (before : Route nodes current)
      (below : IsNext ctx current node) : Route (nodes ++ [node]) (some node)

/-- What libyang promises about paths: a node is created for every step of a path, each below
the one before it, and each with the keys of its predicate in their canonical form. -/
structure CreatesInstances [DecidableEq S] (calls : Calls S) : Prop where
  instances : ∀ {segments resolved created}, asLibyangPath calls.ctx segments = .ok resolved →
    calls.newPath2 resolved.dataPath = .ok created →
    ∃ steps : List (Step S), steps.map Prod.snd = segments.map PathSegment.keys ∧
      Route calls.ctx (steps.map Prod.fst) (some created.createdNode.schema) ∧
      (created.createdParent.along created.position).map (instanceStep calls.ctx) =
        steps.map (namedStep calls.ctx canonical)
  named : ∀ node, calls.ctx.name node ≠ []

end Instances

section Routes

variable {S : Type} {ctx : Context S} {canonical : S → Str → Str}

theorem Route.getLast?_eq {nodes : List S} {current : Option S} (route : Route ctx nodes current) :
    nodes.getLast? = current := by
  cases route with
  | root => rfl
  | next before below => exact List.getLast?_concat

/-- There is only one way to a node. -/
theorem Route.unique (tree : SchemaTree ctx) {nodes others : List S} {current : Option S}
    (route : Route ctx nodes current) (again : Route ctx others current) : nodes = others := by
  induction route generalizing others with
  | root =>
      cases again
      rfl
  | next _ below ih =>
      cases again with
      | next before belowAgain =>
          obtain rfl := (below.isBelow tree).unique (belowAgain.isBelow tree)
          rw [ih before]

/-- The nodes which segments name are one below the other. -/
theorem Route.append_resolved (tree : SchemaTree ctx) {segments : List PathSegment}
    {current : Option S} {nodes : List S} (route : Route ctx nodes current)
    (qualified : current = none → ∀ segment ∈ segments.head?, IsQualified segment.apiIdent)
    {steps : List (Step S)} (resolves : resolveSegments ctx current segments = .ok steps) :
    Route ctx (nodes ++ steps.map Prod.fst) (lastNode current steps) := by
  induction segments generalizing current nodes steps with
  | nil =>
      cases resolves
      rw [List.map_nil, List.append_nil]
      exact route
  | cons segment rest ih =>
      simp only [resolveSegments, except_bind_eq_ok] at resolves
      obtain ⟨node, found, below, further, result⟩ := resolves
      cases result
      have next := (isNext_of_nextNode tree found fun top => qualified top segment rfl).1
      have longer :=
        ih (route.next next) (fun top => absurd top (Option.some_ne_none node)) further
      rw [lastNode_cons]
      rwa [List.append_assoc] at longer

/-- A path has a last segment if it leads to a node. -/
theorem exists_last_step {point : List PathSegment} {node : S}
    (known : asLibyangSchemaNode ctx point = .ok (some node)) :
    ∃ steps keys, resolveSegments ctx none point = .ok (steps ++ [(node, keys)]) ∧
      resolveSegments ctx none point.dropLast = .ok steps := by
  obtain ⟨resolved, accepted, known⟩ := except_bind_eq_ok.mp known
  obtain ⟨all, resolves, _, last⟩ := resolveSegments_of_asLibyangPathFrom accepted
  rw [Except.ok.inj known] at last
  rcases List.eq_nil_or_concat point with rfl | ⟨segments, segment, rfl⟩
  · cases resolves
    cases last
  · rw [List.concat_eq_append] at resolves ⊢
    obtain ⟨steps, other, before, _, rfl⟩ := resolveSegments_append_singleton.mp resolves
    rw [lastNode, List.getLast?_concat] at last
    cases last
    exact ⟨steps, segment.keys, resolves, by rwa [List.dropLast_concat]⟩

end Routes

/-! ## Where entries are put -/

section Placing

variable {S : Type} [DecidableEq S] {calls : Calls S} {canonical : S → Str → Str}

/-- The keys of a node are seen in the labels of its children. -/
theorem instanceStep_congr {ctx : Context S} {node other : DataNode S}
    (label : node.label = other.label)
    (children : node.children.map Tree.label = other.children.map Tree.label) :
    instanceStep ctx node = instanceStep ctx other := by
  have value (node : DataNode S) (key : S) : (node.child? key).map DataNode.valueStr =
      ((node.children.map Tree.label).find? fun data => data.schema = key).map NodeData.value := by
    rw [List.find?_map, Option.map_map]
    rfl
  have schema : node.schema = other.schema := congrArg NodeData.schema label
  simp only [instanceStep, value, children, schema]

theorem instanceStep_bare {ctx : Context S} (node : DataNode S) :
    instanceStep ctx node.bare = instanceStep ctx node := by
  have value (leaf : DataNode S) : (DataNode.valueStr ∘ DataNode.bare) leaf = leaf.valueStr :=
    DataNode.valueStr_bare leaf
  simp only [instanceStep, DataNode.schema_bare, child?_bare, Option.map_map, funext value]

/-- Meta attributes do not change where an entry is. -/
theorem parentInstance_bare {ctx : Context S} (nodes : EditNodes S) :
    parentInstance ctx { nodes with edit := nodes.edit.map DataNode.bare } =
      parentInstance ctx nodes := by
  have step (node : DataNode S) : (instanceStep ctx ∘ DataNode.bare) node = instanceStep ctx node :=
    instanceStep_bare node
  simp only [parentInstance, Forest.along_bare, List.map_map, funext step]

theorem Annotated.parentInstance_eq {ctx : Context S} {before after : EditNodes S}
    (annotated : Annotated before after) :
    parentInstance ctx after = parentInstance ctx before := by
  obtain ⟨metas, _, rfl⟩ := annotated
  rw [← parentInstance_bare, ← parentInstance_bare before]
  simp only [Forest.map_bare_modifyAt]

/-- The entry is below the nodes of a path, each of which has the keys of its segment. -/
def Placed (calls : Calls S) (canonical : S → Str → Str) (parents : List PathSegment)
    (nodes : EditNodes S) : Prop :=
  ∃ (entry : DataNode S) (steps : List (Step S)),
    Forest.at? nodes.edit nodes.replacement = some entry ∧
    steps.map Prod.snd = parents.map PathSegment.keys ∧
    Route calls.ctx (steps.map Prod.fst ++ [entry.schema]) (some entry.schema) ∧
    parentInstance calls.ctx nodes = steps.map (namedStep calls.ctx canonical)

theorem Annotated.placed {parents : List PathSegment} {before after : EditNodes S}
    (annotated : Annotated before after) (placed : Placed calls canonical parents before) :
    Placed calls canonical parents after := by
  obtain ⟨entry, steps, found, keys, route, parent⟩ := placed
  have same := @Annotated.parentInstance_eq S _ calls.ctx _ _ annotated
  obtain ⟨metas, _, rfl⟩ := annotated
  refine ⟨entry.addMetas metas, steps, ?_, keys, ?_, same.trans parent⟩
  · rw [Forest.at?_modifyAt, found, Option.map_some]
  · cases entry
    exact route

/-- Keys which are there already are found before those of the payload. -/
theorem instanceStep_append {ctx : Context S} {node : DataNode S} {step : Step S}
    (named : namedStep ctx canonical step = instanceStep ctx node) (more : List (DataNode S)) :
    instanceStep ctx (node.append more) = instanceStep ctx node := by
  have schema : DataNode.schema (node.append more) = node.schema := rfl
  rw [instanceStep, schema, instanceStep]
  cases kind : ctx.nodeType node.schema with
  | list =>
      have same : step.1 = node.schema := congrArg Prod.fst named
      have values := congrArg Prod.snd named
      simp only [namedStep, instanceStep, same, kind] at values
      refine congrArg _ (List.map_congr_left fun key member => ?_)
      have value : (node.child? key).map DataNode.valueStr ∈ List.zipWith
          (fun key value => some (canonical key value)) (ctx.keys node.schema) step.2 := by
        rw [values]
        exact List.mem_map_of_mem member
      obtain ⟨index, found⟩ := List.mem_iff_getElem?.mp value
      rw [List.getElem?_zipWith_eq_some] at found
      obtain ⟨_, _, _, _, present⟩ := found
      obtain ⟨leaf, there, _⟩ := Option.map_eq_some_iff.mp present.symm
      have first : DataNode.child? (node.append more) key = some leaf := by
        rw [DataNode.child?, Tree.append, Tree.children_node, List.find?_append]
        exact congrArg (Option.or · _) there
      rw [first, there]
  | _ => rfl

/-- A node which was made below the node for a path. -/
theorem placed_child (conforms : calls.Conforms) (creates : CreatesInstances canonical calls)
    {segments : List PathSegment} {resolved : SchemaNodeAndPath S} {created : CreatedNodes S}
    (accepted : asLibyangPath calls.ctx segments = .ok resolved)
    (path : calls.newPath2 resolved.dataPath = .ok created) {text : Str} {format : DataFormat}
    {parsed : Forest S} (parses : calls.parseSubtree created.createdNode text format = .ok parsed)
    {index : Nat} {child : DataNode S}
    (member : (created.createdNode.children ++ parsed)[index]? = some child) :
    Placed calls canonical segments
      ⟨[created.createdParent.modifyAt (·.append parsed) created.position],
        0 :: created.position ++ [index]⟩ := by
  obtain ⟨steps, keys, route, along⟩ := creates.instances accepted path
  have changed : (created.createdParent.modifyAt (·.append parsed) created.position).at?
      created.position = some (created.createdNode.append parsed) := by
    rw [Tree.at?_modifyAt, created.found, Option.map_some]
  have way := Tree.along_append_singleton changed member
  have step : ∃ step, namedStep calls.ctx canonical step =
      instanceStep calls.ctx created.createdNode := by
    have inside := List.mem_map_of_mem (f := instanceStep calls.ctx) (Tree.mem_along created.found)
    rw [along] at inside
    obtain ⟨step, _, same⟩ := List.mem_map.mp inside
    exact ⟨step, same⟩
  obtain ⟨step, named⟩ := step
  refine ⟨child, steps, ?_, keys, ?_, ?_⟩
  · simp only [Forest.at?, List.cons_append, List.getElem?_cons_zero, Option.bind_some,
      Tree.at?_append, changed, Tree.at?]
    rw [show (created.createdNode.append parsed).children[index]? = some child from member]
    rfl
  · exact route.next (conforms.children path parses child (List.mem_of_getElem? member))
  · simp only [parentInstance, Forest.along, List.cons_append, List.getElem?_cons_zero, way,
      List.map_append, List.map_cons, List.map_nil, List.dropLast_concat]
    have labels : ∀ node : DataNode S, (node.append parsed).label = node.label := fun _ => rfl
    have kept := @Tree.map_along_modifyAt _ _ (instanceStep calls.ctx) _ labels
      instanceStep_congr _ _ _ created.found (instanceStep_append named parsed)
    exact kept.trans along

/-- A node of the top level has nothing above it. -/
theorem placed_topLevel {forest : Forest S} {index : Nat} {node : DataNode S}
    (member : forest[index]? = some node) (root : node.schema ∈ calls.ctx.topLevel) :
    Placed calls canonical [] ⟨forest, [index]⟩ := by
  refine ⟨node, [], ?_, rfl, Route.root.next root, ?_⟩
  · simp [Forest.at?, member, Tree.at?]
  · simp [parentInstance, Forest.along, member, Tree.along]

/-- The node for a path itself. -/
theorem placed_created (creates : CreatesInstances canonical calls) {segments : List PathSegment}
    {resolved : SchemaNodeAndPath S} {created : CreatedNodes S}
    (accepted : asLibyangPath calls.ctx segments = .ok resolved)
    (path : calls.newPath2 resolved.dataPath = .ok created) :
    Placed calls canonical segments.dropLast
      ⟨[created.createdParent], 0 :: created.position⟩ := by
  obtain ⟨steps, keys, route, along⟩ := creates.instances accepted path
  refine ⟨created.createdNode, steps.dropLast, ?_, ?_, ?_, ?_⟩
  · simp [Forest.at?, created.found]
  · rw [List.map_dropLast, keys, List.map_dropLast]
  · have last := route.getLast?_eq
    obtain ⟨before, shape⟩ := List.getLast?_eq_some_iff.mp last
    rw [List.map_dropLast, shape, List.dropLast_concat, ← shape]
    exact route
  · simp only [parentInstance, Forest.along, List.getElem?_cons_zero, along, List.map_dropLast]

omit [DecidableEq S] in
/-- The path of a request with the method `PATCH`. -/
theorem path_of_patch {uriPath : Str} {uri : Impl.URIPath} {request : RestconfRequest}
    (accepted : asRestconfRequest calls.ctx (str "PATCH") uriPath [] = .ok request)
    (parsed : Impl.parseUriPath uriPath = .ok uri) (several : uri.segments ≠ []) :
    ∃ full, asLibyangPath calls.ctx uri.segments = .ok full ∧ request.path = full.dataPath := by
  simp only [asRestconfRequest, except_bind_eq_ok] at accepted
  obtain ⟨_, _, uri', parsed', _, _, _, _, full, resolved, _, valid, result⟩ := accepted
  cases parsed.symm.trans parsed'
  obtain ⟨node, known⟩ := (asLibyangPathFrom_ne_nil resolved several).2
  refine ⟨full, resolved, ?_⟩
  have notOptions : str "PATCH" ≠ str "OPTIONS" := by decide
  have notPost : str "PATCH" ≠ str "POST" := by decide
  have data : uri.uriPrefix.resourceType = .basicRestconfData ∨
      uri.uriPrefix.resourceType = .nmdaDatastore := by
    simp only [validateMethodForNode, known, if_neg notOptions, if_neg notPost,
      checkValidDataResource] at valid
    by_contra neither
    rw [if_pos (not_or.mp neither)] at valid
    cases valid
  have typed : requestType calls.ctx (str "PATCH") uriPath uri full.dataPath full.schemaNode =
      .ok (.mergeData, full.dataPath) := by
    have nonempty : uri.segments.isEmpty = false := by simp [several]
    simp only [requestType, nonempty]
    rfl
  rw [if_neg notOptions] at result
  rcases data with data | data <;>
  · simp only [data, typed, except_bind_eq_ok, Except.ok.injEq] at result
    obtain ⟨_, rfl, _, _, request⟩ := result
    cases request
    rfl

/-- An edit for a URI, which names the entry itself. -/
theorem Created.placed (conforms : calls.Conforms) (creates : CreatesInstances canonical calls)
    {uriPath : Str} {valueStr : Option Str} {dataFormat : DataFormat} {nodes : EditNodes S}
    (created : Created calls uriPath valueStr dataFormat nodes) {uri : Impl.URIPath}
    (uriParsed : Impl.parseUriPath uriPath = .ok uri) :
    Placed calls canonical uri.segments.dropLast nodes := by
  cases created with
  | bare value splits accepted path =>
      obtain ⟨_, segments, last, parent, reparsed, shape, _⟩ := asLibyangPathSplit_eq_ok splits
      cases uriParsed.symm.trans reparsed
      obtain ⟨full, resolved, same⟩ := path_of_patch accepted uriParsed (by simp [shape])
      rw [same] at path
      exact placed_created creates resolved path
  | topLevel given splits parsed same matching =>
      obtain ⟨_, segments, last, parent, reparsed, shape, resolved, empty, _⟩ :=
        asLibyangPathSplit_eq_ok splits
      cases uriParsed.symm.trans reparsed
      have single : segments = [] := by
        by_contra nonempty
        exact (asLibyangPathFrom_ne_nil resolved nonempty).1 empty.symm
      rw [shape, single]
      exact placed_topLevel rfl (conforms.parseData_topLevel parsed _ List.mem_cons_self)
  | nested given splits level path parses admitted found same =>
      obtain ⟨_, segments, last, parent, reparsed, shape, resolved, parentPath, _⟩ :=
        asLibyangPathSplit_eq_ok splits
      cases uriParsed.symm.trans reparsed
      rw [parentPath] at path
      rw [shape, List.dropLast_concat]
      exact placed_child conforms creates resolved path parses found

/-- The entry of a `POST`, which is a child of what the URI names. -/
theorem placed_post {env : Env S} {ctx : RequestContext} (conforms : env.libyang.Conforms)
    (creates : CreatesInstances canonical env.libyang) {query : Str}
    (accepted : asRestconfRequest env.libyang.ctx ctx.method ctx.rawPath query =
      .ok ctx.restconfRequest) (kind : processing ctx = .post) {uri : Impl.URIPath}
    (uriParsed : Impl.parseUriPath ctx.rawPath = .ok uri) {edit : Forest S} {position : Position}
    {index : Nat} (built : createEditForPost env ctx = .ok (edit, position, [index])) :
    Placed env.libyang canonical uri.segments ⟨edit, position ++ [index]⟩ := by
  obtain ⟨uri', full, uriParsed', resolved, path⟩ :=
    path_of_createChildren accepted (createChildren_of_processing kind)
  cases uriParsed.symm.trans uriParsed'
  have child {node : DataNode S} {nodes : List (DataNode S)}
      (indices : createdIndices env node nodes = [index]) :
      ∃ child, nodes[index]? = some child := by
    have member : index ∈ createdIndices env node nodes := indices ▸ List.mem_singleton_self _
    obtain ⟨⟨child, _⟩, kept, rfl⟩ := List.mem_map.mp member
    exact ⟨child, List.mem_zipIdx_iff_getElem?.mp (List.mem_filter.mp kept).1⟩
  unfold createEditForPost at built
  by_cases level : uri.segments = []
  case pos =>
    rw [level, List.isEmpty_nil, if_pos rfl] at path
    rw [if_pos path, except_bind_eq_ok] at built
    obtain ⟨forest, parsed, result⟩ := built
    cases forest with
    | nil => cases result
    | cons first rest =>
        simp only [pure, Except.pure, Except.ok.injEq, Prod.mk.injEq] at result
        obtain ⟨rfl, rfl, indices⟩ := result
        obtain ⟨node, member⟩ := child indices
        rw [level]
        exact placed_topLevel member
          (conforms.parseData_topLevel (raise_eq_ok.mp parsed) _ (List.mem_of_getElem? member))
  case neg =>
    rw [if_neg (by simpa using level)] at path
    rw [path, if_neg (dataPath_ne creates.named resolved level)] at built
    simp only [except_bind_eq_ok] at built
    obtain ⟨created, made, parsed, parses, result⟩ := built
    simp only [pure, Except.pure, Except.ok.injEq, Prod.mk.injEq] at result
    obtain ⟨rfl, rfl, indices⟩ := result
    obtain ⟨node, member⟩ := child indices
    exact placed_child conforms creates resolved (raise_eq_ok.mp made) (raise_eq_ok.mp parses)
      member

end Placing

/-! ## Points -/

section Points

variable {S : Type} [DecidableEq S] (env : Env S) (ctx : RequestContext)

/-- The query asks to insert an entry before or after a point. -/
def AsksFor (queryParams : QueryParams) (point : List PathSegment) : Prop :=
  (queryParams.find "insert" = some .before ∨ queryParams.find "insert" = some .after) ∧
    queryParams.find "point" = some (.pointParsed point)

/-- The entries which are accepted for insertion before or after a point: the segments above the
entry, the edit with it, and the point. -/
inductive Inserts : List PathSegment → EditNodes S → List PathSegment → Prop where
  | post {uri : Impl.URIPath} {point : List PathSegment} {edit : Forest S} {position : Position}
      {index : Nat} {nodes handed : EditNodes S} (kind : processing ctx = .post)
      (uriParsed : Impl.parseUriPath ctx.rawPath = .ok uri)
      (asks : AsksFor ctx.restconfRequest.queryParams point)
      (built : createEditForPost env ctx = .ok (edit, position, [index]))
      (set : addMeta env.libyang (str "ietf-netconf") (str "operation") (str "create")
        ⟨edit, position ++ [index]⟩ = .ok nodes)
      (inserted : yangInsertFromQuery env.libyang ctx.restconfRequest.queryParams nodes =
        .ok handed) : Inserts uri.segments handed point
  | put {uri : Impl.URIPath} {point : List PathSegment} {nodes handed : EditNodes S}
      (kind : processing ctx = .putOrPlainPatch) (method : ctx.method = str "PUT")
      (uriParsed : Impl.parseUriPath ctx.rawPath = .ok uri)
      (asks : AsksFor ctx.restconfRequest.queryParams point)
      (built : Returns (createEdit env ctx) nodes)
      (set : setPutOperation env ctx nodes = .ok handed) :
      Inserts uri.segments.dropLast handed point
  | patch {edit : PatchEdit} {target operation wherePlace text : Str} {value : Option Str}
      {uri : Impl.URIPath} {point : List PathSegment} {nodes handed : EditNodes S}
      (kind : processing ctx = .yangPatch) (targeted : edit.target = some target)
      (operates : edit.operation = some operation)
      (inserting : operation = str "insert" ∨ operation = str "move")
      (located : edit.wherePlace = some wherePlace)
      (pointed : patchPoint ctx edit wherePlace = .ok (some text))
      (pointParsed : asPathSegments text = .ok point)
      (carries : yangPatchValueAsJSON edit.value = .ok value)
      (uriParsed : Impl.parseUriPath (uriJoin ctx.rawPath target) = .ok uri)
      (built : Returns (createEditForPutAndPatch env.libyang (uriJoin ctx.rawPath target) value
        .json) nodes)
      (set : setPatchOperation env ctx edit operation nodes = .ok handed) :
      Inserts uri.segments.dropLast handed point

variable {env ctx}

/-- What `yangInsert` has checked about a point: it is of the schema node of the entry. -/
def OfSameSchema (context : Context S) (nodes : EditNodes S) (point : List PathSegment) : Prop :=
  ∃ entry : DataNode S, Forest.at? nodes.edit nodes.replacement = some entry ∧
    asLibyangSchemaNode context point = .ok (some entry.schema)

omit [DecidableEq S] in
theorem Annotated.ofSameSchema {context : Context S} {before after : EditNodes S}
    {point : List PathSegment} (annotated : Annotated before after)
    (same : OfSameSchema context before point) : OfSameSchema context after point := by
  obtain ⟨entry, found, known⟩ := same
  obtain ⟨metas, _, rfl⟩ := annotated
  refine ⟨entry.addMetas metas, ?_, ?_⟩
  · rw [Forest.at?_modifyAt, found, Option.map_some]
  · cases entry
    exact known

theorem ofSameSchema_of_yangInsert {calls : Calls S} {nodes handed : EditNodes S}
    {wherePlace : Str} {point : List PathSegment}
    (inserted : yangInsert calls nodes wherePlace (some point) = .ok handed) :
    OfSameSchema calls.ctx handed point := by
  refine (annotated_yangInsert inserted).ofSameSchema ?_
  simp only [yangInsert, except_bind_eq_ok] at inserted
  obtain ⟨entry, found, _, _, _, _, pointSchema, known, _, same, _⟩ := inserted
  rw [require_eq_ok, beq_iff_eq] at same
  subst same
  refine ⟨entry, ?_, known⟩
  cases there : Forest.at? nodes.edit nodes.replacement with
  | none => simp [there, deref] at found
  | some other =>
      rw [there] at found
      cases found
      rfl

/-- Such a query asks for some place with the point. -/
theorem AsksFor.queryPlace {queryParams : QueryParams} {point : List PathSegment}
    (asks : AsksFor queryParams point) :
    ∃ insert wherePlace, queryParams.find "insert" = some insert ∧
      queryPlace queryParams insert = .ok (wherePlace, some point) := by
  obtain ⟨insert, given⟩ := asks
  have known : queryPoint queryParams = .ok point := by rw [queryPoint, given]
  rcases insert with before | after
  · exact ⟨_, str "before", before, except_bind_eq_ok.mpr ⟨point, known, rfl⟩⟩
  · exact ⟨_, str "after", after, except_bind_eq_ok.mpr ⟨point, known, rfl⟩⟩

theorem ofSameSchema_of_query {calls : Calls S} {queryParams : QueryParams}
    {nodes handed : EditNodes S} {point : List PathSegment} (asks : AsksFor queryParams point)
    (inserted : yangInsertFromQuery calls queryParams nodes = .ok handed) :
    OfSameSchema calls.ctx handed point := by
  obtain ⟨insert, wherePlace, found, place⟩ := asks.queryPlace
  simp only [yangInsertFromQuery, found, place, bind, Except.bind] at inserted
  exact ofSameSchema_of_yangInsert inserted

theorem ofSameSchema_of_patch {edit : PatchEdit} {operation wherePlace text : Str}
    {point : List PathSegment} {nodes handed : EditNodes S}
    (inserting : operation = str "insert" ∨ operation = str "move")
    (located : edit.wherePlace = some wherePlace)
    (pointed : patchPoint ctx edit wherePlace = .ok (some text))
    (pointParsed : asPathSegments text = .ok point)
    (set : setPatchOperation env ctx edit operation nodes = .ok handed) :
    OfSameSchema env.libyang.ctx handed point := by
  rw [setPatchOperation, if_pos inserting] at set
  simp only [except_bind_eq_ok] at set
  obtain ⟨place, known, asked, found, _, _, inserted⟩ := set
  rw [located, childLeafValue, Except.ok.injEq] at known
  subst known
  cases pointed.symm.trans found
  obtain ⟨parsed, segments, inserted⟩ := except_bind_eq_ok.mp inserted
  have single : (some text).mapM asPathSegments = .ok (some point) := by
    simp [pointParsed]
  cases single.symm.trans segments
  exact ofSameSchema_of_yangInsert inserted

open Impl.Grammar in
/-- A phrase whose value is a point is a path. -/
theorem wellFormed_of_value {phrase : ParamPhrase} {point : List PathSegment}
    (value : phrase.value = (str "point", .pointParsed point)) : WellFormed point := by
  have name := congrArg Prod.fst value
  cases phrase with
  | point path =>
      cases value
      exact path.wellFormed
  | _ => exact absurd name (by simp only [ParamPhrase.value]; decide)

open Impl.Grammar in
omit [DecidableEq S] in
/-- The point of a query is a path of the grammar. -/
theorem wellFormed_of_queryPoint {context : Context S} {httpMethod uriPath query : Str}
    {request : RestconfRequest}
    (accepted : asRestconfRequest context httpMethod uriPath query = .ok request)
    {point : List PathSegment}
    (given : request.queryParams.find "point" = some (.pointParsed point)) : WellFormed point := by
  obtain ⟨param, found, value⟩ := Option.map_eq_some_iff.mp given
  have tested := List.find?_some found
  have member := List.mem_of_find?_eq_some found
  rcases queryParams_of_accepted accepted with none | ⟨parsed, _⟩
  · rw [none] at member
    cases member
  · obtain ⟨phrases, _, collected, _⟩ := queryParamGrammar_sound (Impl.parse_eq_ok_iff.mp parsed)
    rw [collected] at member
    have kept : param ∈ (collect phrases).filter fun param => param.1 == str "point" :=
      List.mem_filter.mpr ⟨member, tested⟩
    rw [collect, (QueryParams.holds_foldl _).same, List.mem_filter] at kept
    obtain ⟨phrase, _, same⟩ := List.mem_map.mp kept.1
    exact wellFormed_of_value (same.trans (Prod.ext (beq_iff_eq.mp tested) value))

/-- What is accepted for insertion is put where the URI says, and the point is of the same
schema node. -/
theorem Inserts.placed (conforms : env.libyang.Conforms) {canonical : S → Str → Str}
    (creates : CreatesInstances canonical env.libyang) {query : Str}
    (accepted : asRestconfRequest env.libyang.ctx ctx.method ctx.rawPath query =
      .ok ctx.restconfRequest) {parents point : List PathSegment} {handed : EditNodes S}
    (inserts : Inserts env ctx parents handed point) :
    Placed env.libyang canonical parents handed ∧ OfSameSchema env.libyang.ctx handed point ∧
      Impl.Grammar.WellFormed point := by
  cases inserts with
  | post kind uriParsed asks built set inserted =>
      have annotated := (annotated_addMeta set).trans (annotated_yangInsertFromQuery inserted)
      exact ⟨annotated.placed (placed_post conforms creates accepted kind uriParsed built),
        ofSameSchema_of_query asks inserted, wellFormed_of_queryPoint accepted asks.2⟩
  | put kind method uriParsed asks built set =>
      have placed := (created_of_returns built).placed conforms creates uriParsed
      refine ⟨(annotated_setPutOperation set).placed placed, ?_,
        wellFormed_of_queryPoint accepted asks.2⟩
      rw [setPutOperation, if_pos method] at set
      obtain ⟨_, _, inserted⟩ := except_bind_eq_ok.mp set
      exact ofSameSchema_of_query asks inserted
  | patch kind targeted operates inserting located pointed pointParsed carries uriParsed built
      set =>
      have placed := (created_of_returns built).placed conforms creates uriParsed
      refine ⟨(annotated_setPatchOperation set).placed placed,
        ofSameSchema_of_patch inserting located pointed pointParsed set, ?_⟩
      obtain ⟨uri, parsed, same⟩ := except_bind_eq_ok.mp pointParsed
      cases same
      exact wellFormed_of_parseUriPath parsed

omit [DecidableEq S] in
/-- Steps to the same nodes name the same instances exactly if their keys agree. -/
theorem map_namedStep_eq_iff {context : Context S} {canonical : S → Str → Str}
    {steps pointSteps : List (Step S)} {parents : List PathSegment}
    (keys : steps.map Prod.snd = parents.map PathSegment.keys)
    (nodes : steps.map Prod.fst = pointSteps.map Prod.fst) :
    steps.map (namedStep context canonical) = pointSteps.map (namedStep context canonical) ↔
      List.Forall₂ (fun step segment => namedStep context canonical step =
        namedStep context canonical (step.1, PathSegment.keys segment)) pointSteps parents := by
  induction pointSteps generalizing steps parents with
  | nil =>
      obtain rfl := List.map_eq_nil_iff.mp nodes
      obtain rfl := List.map_eq_nil_iff.mp keys.symm
      simp
  | cons pointStep pointSteps ih =>
      obtain ⟨step, steps, rfl, same, nodes⟩ := List.map_eq_cons_iff.mp nodes
      obtain ⟨segment, parents, rfl, values, keys⟩ := List.map_eq_cons_iff.mp keys.symm
      have shape : step = (pointStep.1, segment.keys) := Prod.ext same values.symm
      rw [List.map_cons, List.map_cons, List.cons.injEq, List.forall₂_cons, ih keys.symm nodes,
        shape, eq_comm]

/-- An accepted point is next to the inserted entry exactly if it has the keys of the URI for
every list above its last segment. -/
theorem isSibling_iff (tree : SchemaTree env.libyang.ctx) (conforms : env.libyang.Conforms)
    {canonical : S → Str → Str} (creates : CreatesInstances canonical env.libyang) {query : Str}
    (accepted : asRestconfRequest env.libyang.ctx ctx.method ctx.rawPath query =
      .ok ctx.restconfRequest) {parents point : List PathSegment} {handed : EditNodes S}
    (inserts : Inserts env ctx parents handed point) :
    IsSibling env.libyang.ctx canonical handed point ↔
      SameAncestors env.libyang.ctx canonical parents point := by
  obtain ⟨⟨entry, steps, found, keys, route, placed⟩, ⟨entry', found', known⟩, wellFormed⟩ :=
    inserts.placed conforms creates accepted
  obtain rfl := Option.some.inj (found'.symm.trans found)
  obtain ⟨pointSteps, lastKeys, resolves, above⟩ := exists_last_step known
  -- both ways lead to the node of the entry, so they go through the same nodes
  have pointRoute := Route.root.append_resolved tree (fun _ => wellFormed.isQualified) resolves
  rw [lastNode, List.getLast?_concat, List.nil_append, List.map_append] at pointRoute
  have nodes := List.append_cancel_right (route.unique tree pointRoute)
  have agree :=
    @map_namedStep_eq_iff S env.libyang.ctx canonical steps pointSteps parents keys nodes
  constructor
  · rintro ⟨entry, steps', _, found', resolves', same⟩
    obtain rfl := Option.some.inj (found'.symm.trans found)
    obtain ⟨rfl, _⟩ := List.append_inj' (Except.ok.inj (resolves'.symm.trans resolves)) rfl
    exact ⟨steps', above, agree.mp (placed.symm.trans same)⟩
  · rintro ⟨steps', above', same⟩
    obtain rfl := Except.ok.inj (above'.symm.trans above)
    exact ⟨_, steps', lastKeys, found, resolves, placed.trans (agree.mpr same)⟩

end Points

/-! ## Lists of rules -/

namespace RuleLists

/-- The rules of `ietf-netconf-acm`: both the lists of rules and the rules in them are ordered by
the user. -/
inductive Node where
  | nacm
  | ruleList
  | ruleListName
  | rule
  | ruleName
  deriving DecidableEq, Repr

namespace Node

def name : Node → Str
  | nacm => str "nacm"
  | ruleList => str "rule-list"
  | rule => str "rule"
  | ruleListName | ruleName => str "name"

def nodeType : Node → NodeType
  | nacm => .container
  | ruleList | rule => .list
  | ruleListName | ruleName => .leaf

def parent : Node → Option Node
  | nacm => none
  | ruleList => some nacm
  | ruleListName | rule => some ruleList
  | ruleName => some rule

def path : Node → Str
  | nacm => str "/ietf-netconf-acm:nacm"
  | ruleList => str "/ietf-netconf-acm:nacm/rule-list"
  | ruleListName => str "/ietf-netconf-acm:nacm/rule-list/name"
  | rule => str "/ietf-netconf-acm:nacm/rule-list/rule"
  | ruleName => str "/ietf-netconf-acm:nacm/rule-list/rule/name"

def keys : Node → List Node
  | ruleList => [ruleListName]
  | rule => [ruleName]
  | _ => []

def childInstantiables : Node → List Node
  | nacm => [ruleList]
  | ruleList => [ruleListName, rule]
  | rule => [ruleName]
  | _ => []

end Node

/-- The path of the list of rules which is changed. -/
def listPath : Str := str "/ietf-netconf-acm:nacm/rule-list[name='a']"

/-- `Context::findPath`; only these two paths are asked for. -/
def findPath (path : Str) : Except ErrorWithCode Node :=
  if path = str "/ietf-netconf-acm:nacm" then .ok .nacm
  else if path = listPath then .ok .ruleList
  else .error Example.noAnswer

def schema : Context Node where
  moduleName _ := str "ietf-netconf-acm"
  ns _ := str "urn:ietf:params:xml:ns:yang:ietf-netconf-acm"
  name := Node.name
  nodeType := Node.nodeType
  parent := Node.parent
  path := Node.path
  keys := Node.keys
  isKey node := node = .ruleListName ∨ node = .ruleName
  isUserOrdered node := node = .ruleList ∨ node = .rule
  childInstantiables := Node.childInstantiables
  topLevel := [.nacm]
  findPath := findPath
  children_unique := by
    intro parent child other
    cases parent <;> cases child <;> cases other <;> decide
  findPath_topLevel := by decide
  keys_children := by
    intro list key
    cases list <;> cases key <;> decide
  topLevel_isKey := by decide

theorem schema_named : SchemaNames schema where
  name node := by cases node <;> decide
  moduleName _ := show Impl.Grammar.IsIdentifier (str "ietf-netconf-acm") by decide

theorem schema_tree : SchemaTree schema where
  children := by
    intro node child
    cases node <;> cases child <;> intro member <;>
      first | exact .child rfl rfl | exact absurd member (by decide)
  topLevel := by
    intro node member
    cases List.mem_singleton.mp member
    exact .topLevel rfl
  findPath := by
    intro modulePrefix name node isModule isName found
    -- the name is what a path has behind the colon
    have named {rest : Str} (same : str "/" ++ (modulePrefix ++ str ":" ++ name) =
        str "/" ++ (str "ietf-netconf-acm" ++ (str ":" ++ rest))) :
        modulePrefix = str "ietf-netconf-acm" ∧ name = rest := by
      rw [List.append_assoc] at same
      exact isModule.cancel_colon (schema_named.moduleName .nacm) (List.append_cancel_left same)
    simp only [schema, findPath] at found
    split at found
    next same =>
      cases found
      obtain ⟨rfl, rfl⟩ := @named (str "nacm") same
      exact ⟨List.mem_singleton_self _, rfl, rfl⟩
    next =>
      split at found
      next same =>
        obtain ⟨_, rfl⟩ := @named (str "nacm/rule-list[name='a']") same
        exact absurd isName.2 (by decide)
      next => cases found

/-! ### The request -/

/-- The key `a`, which needs no encoding. -/
def keyA : Impl.Grammar.Key := (str "a").pmap .plain (List.all_eq_true.mp rfl)

def keyB : Impl.Grammar.Key := (str "b").pmap .plain (List.all_eq_true.mp rfl)

/-- The path of the rule `a` in a list of rules. -/
def rulePath (list : Impl.Grammar.Key) : Impl.Grammar.Path :=
  .segments (schema_named.moduleName .nacm).phrase (schema_named.name .nacm).phrase []
    [⟨⟨none, (schema_named.name .ruleList).phrase⟩, [list]⟩,
      ⟨⟨none, (schema_named.name .rule).phrase⟩, [keyA]⟩]

/-- The query which asks to insert before this rule. -/
def query (list : Impl.Grammar.Key) : Str :=
  Impl.Grammar.queryText
    [.insert ("before", .before) (by simp [Impl.Grammar.insertWords]), .point (rulePath list)]

/-- A request which creates a rule in the list `a`. -/
def context (list : Impl.Grammar.Key) : RequestContext where
  method := str "POST"
  rawPath := str "/restconf/data/ietf-netconf-acm:nacm/rule-list=a"
  path := str "/restconf/data/ietf-netconf-acm:nacm/rule-list=a"
  responseFormat := .json
  urlPrefix := none
  requestFormat := .json
  activeDatastore := .running
  restconfRequest := ⟨.createChildren, none, listPath,
    [(str "insert", .before), (str "point", .pointParsed (rulePath list).value)]⟩
  contentTypeHeader := some (str "application/yang-data+json")
  payload := str "\x7b\"ietf-netconf-acm:rule\":[\x7b\"name\":\"c\"\x7d]\x7d"

/-- The list of rules. -/
def ruleList : DataNode Node := .inner .ruleList [.leaf .ruleListName (str "a")]

/-- The rule of the payload. -/
def rule : DataNode Node := .inner .rule [.leaf .ruleName (str "c")]

def env : Env Node where
  libyang :=
    { Calls.refusing schema Example.noAnswer with
      newPath2 := fun path =>
        if path = listPath then .ok ⟨.inner .nacm [ruleList], [0], ruleList, rfl⟩
        else .error Example.noAnswer
      parseSubtree := fun node _ _ =>
        if node.schema = .ruleList then .ok [rule] else .error Example.noAnswer
      newMeta := fun _ _ _ _ => .ok () }
  session := .accepting

theorem query_text :
    query keyB = str "insert=before&point=/ietf-netconf-acm:nacm/rule-list=b/rule=a" := by
  decide

theorem accepted (list : Impl.Grammar.Key) :
    asRestconfRequest env.libyang.ctx (context list).method (context list).rawPath (query list) =
      .ok (context list).restconfRequest := by
  have parsed : Impl.parseQueryParams (query list) ((context list).rawPath.length + 1) =
      .ok [(str "insert", .before), (str "point", .pointParsed (rulePath list).value)] := by
    refine Impl.parse_eq_ok_iff.mpr ?_
    exact Impl.Grammar.queryParamGrammar_complete _ ⟨nofun, nofun, trivial⟩
  rw [asRestconfRequest, parsed]
  rfl

theorem newPath2_eq_ok {path : Str} {created : CreatedNodes Node}
    (creates : env.libyang.newPath2 path = .ok created) :
    path = listPath ∧ created = ⟨.inner .nacm [ruleList], [0], ruleList, rfl⟩ := by
  simp only [env] at creates
  split at creates
  next same => exact ⟨same, (Except.ok.inj creates).symm⟩
  next => cases creates

theorem conforms : env.libyang.Conforms where
  parseData_topLevel parsed := nomatch parsed
  parseData_byClient parsed := nomatch parsed
  parseSubtree_child := by
    intro node text format parsed parses child member
    simp only [env] at parses
    split at parses
    next same =>
      cases parses
      rw [List.mem_singleton.mp member, same]
      decide
    next => cases parses
  newPath2_findPath := by
    intro path created creates
    obtain ⟨rfl, rfl⟩ := newPath2_eq_ok creates
    rfl
  newPath2_child := by
    intro path created creates child member
    obtain ⟨rfl, rfl⟩ := newPath2_eq_ok creates
    rw [List.mem_singleton.mp member]
    decide

/-- A step is known by how it is written, as only the leafs have the same name. -/
theorem step_eq_of_written {step other : Step Node}
    (isInner : other.1 = .nacm ∨ other.1 = .ruleList)
    (written : writtenStep schema step = writtenStep schema other)
    (keys : (namedKeys schema step.1 step.2).map Prod.snd = step.2)
    (otherKeys : (namedKeys schema other.1 other.2).map Prod.snd = other.2) : step = other := by
  have unique (node : Node) : (node.name = Node.nacm.name → node = .nacm) ∧
      (node.name = Node.ruleList.name → node = .ruleList) := by
    cases node <;> decide
  have name : step.1.name = other.1.name :=
    congrArg (ApiIdentifier.identifier ∘ PathStep.ident) written
  have node : step.1 = other.1 := by
    rcases isInner with inner | inner <;> rw [inner] at name ⊢
    · exact (unique step.1).1 name
    · exact (unique step.1).2 name
  have values := congrArg (List.map Prod.snd ∘ PathStep.predicates) written
  exact Prod.ext node (keys.symm.trans (Eq.trans values otherKeys))

theorem creates : CreatesInstances (fun _ value => value) env.libyang where
  instances := by
    intro segments resolved created accepted creates
    obtain ⟨path, rfl⟩ := newPath2_eq_ok creates
    obtain ⟨steps, resolves, written⟩ := read_asLibyangPath schema_named accepted
    obtain ⟨_, again, keys, _⟩ := resolveSegments_of_asLibyangPathFrom accepted
    cases resolves.symm.trans again
    have complete := (keys_of_asLibyangPathFrom accepted resolves).1
    have read : DataPath.read listPath =
        some ([(.nacm, []), (.ruleList, [str "a"])].map (writtenStep schema)) := by
      decide
    rw [path, read, Option.some.injEq] at written
    obtain ⟨container, _, rfl, first, further⟩ := List.map_eq_cons_iff.mp written.symm
    obtain ⟨list, _, rfl, second, last⟩ := List.map_eq_cons_iff.mp further
    obtain rfl := List.map_eq_nil_iff.mp last
    obtain rfl := step_eq_of_written (.inl rfl) first (complete _ (by simp)) rfl
    obtain rfl := step_eq_of_written (.inr rfl) second (complete _ (by simp)) rfl
    refine ⟨_, keys, ?_, rfl⟩
    exact .next (.next .root (List.mem_singleton_self _)) (List.mem_singleton_self _)
  named := by
    intro node
    cases node <;> decide

/-- What sysrepo gets: of the point, only the key of the rule is left. -/
def handed : EditNodes Node :=
  ⟨[.inner .nacm [ruleList.append
    [((rule.newMeta (str "ietf-netconf") (str "operation") (str "create")).newMeta
      (str "yang") (str "insert") (str "before")).newMeta
      (str "yang") (str "key") (str "[name='a']")]]], [0, 0, 1]⟩

/-- It is the same for a point in either list of rules. -/
theorem inserts {list : Impl.Grammar.Key} (known : list = keyA ∨ list = keyB) :
    Inserts env (context list) (rulePath keyA).value.dropLast handed (rulePath list).value := by
  have uriParsed : Impl.parseUriPath (context keyA).rawPath =
      .ok ⟨⟨.basicRestconfData, none⟩, (rulePath keyA).value.dropLast⟩ := by
    decide
  have built : createEditForPost env (context list) =
      .ok ([.inner .nacm [ruleList.append [rule]]], [0, 0], [1]) := rfl
  have inserted : yangInsertFromQuery env.libyang (context list).restconfRequest.queryParams
      ⟨[.inner .nacm [ruleList.append
        [rule.newMeta (str "ietf-netconf") (str "operation") (str "create")]]], [0, 0, 1]⟩ =
      .ok handed := by
    rcases known with rfl | rfl <;> rfl
  exact @Inserts.post _ _ env (context list) _ _ _ _ _ _ _ rfl uriParsed ⟨.inl rfl, rfl⟩ built rfl
    inserted

/-- The point in the list of the request is next to the rule. -/
theorem keyA_isSibling :
    IsSibling env.libyang.ctx (fun _ value => value) handed (rulePath keyA).value := by
  refine (isSibling_iff schema_tree conforms creates (accepted keyA) (inserts (.inl rfl))).mpr ?_
  exact ⟨[(.nacm, []), (.ruleList, [str "a"])], rfl, .cons rfl (.cons rfl .nil)⟩

/-- A rule of another list is accepted as the point. -/
theorem keyB_not_isSibling :
    asRestconfRequest env.libyang.ctx (str "POST") (context keyB).rawPath
        (str "insert=before&point=/ietf-netconf-acm:nacm/rule-list=b/rule=a") =
      .ok (context keyB).restconfRequest ∧
    SchemaTree env.libyang.ctx ∧ env.libyang.Conforms ∧
    CreatesInstances (fun _ value => value) env.libyang ∧
    Inserts env (context keyB) (rulePath keyA).value.dropLast handed (rulePath keyB).value ∧
    ¬IsSibling env.libyang.ctx (fun _ value => value) handed (rulePath keyB).value := by
  refine ⟨?_, schema_tree, conforms, creates, inserts (.inr rfl), ?_⟩
  · rw [← query_text]
    exact accepted keyB
  · rintro ⟨entry, steps, keys, found, resolves, same⟩
    have point : resolveSegments schema none (rulePath keyB).value =
        .ok ([(.nacm, []), (.ruleList, [str "b"])] ++ [(.rule, [str "a"])]) := rfl
    obtain ⟨rfl, _⟩ := List.append_inj' (Except.ok.inj (resolves.symm.trans point)) rfl
    have list := congrArg (fun steps => steps.map Prod.snd) same
    exact absurd list (by decide)

end RuleLists

end Rousette.Restconf.Server
