import Rousette.Libyang.Example
import Rousette.Restconf.Server.CreatedEdit
import Rousette.Restconf.Server.Handover

/-!
# Meta attributes which control sysrepo

A client must not be able to put NETCONF operations or other attributes which
sysrepo acts on into an edit.  `validateInputMetaAttributes` walks through the first
tree of an edit; the trees after it are handed over as they are.
-/

namespace Rousette.Restconf.Server

open Library Libyang Program

section Attributes

variable {S : Type}

/-- No attribute in the tree which could alter sysrepo's behaviour came from the client. -/
def CleanTree (tree : DataNode S) : Prop :=
  tree.All fun data => ∀ item ∈ data.metas, isControl item = true → item.byServer = true

/-- The same of all trees of an edit. -/
def Clean (edit : Forest S) : Prop := ∀ tree ∈ edit, CleanTree tree

/-- There is no attribute in the tree at all which could alter sysrepo's behaviour. -/
def NoControl (tree : DataNode S) : Prop :=
  tree.All fun data => ∀ item ∈ data.metas, isControl item = false

theorem NoControl.clean {tree : DataNode S} (none : NoControl tree) : CleanTree tree := by
  intro inner within item member control
  simp [none inner within item member] at control

theorem cleanTree_iff_noControl {tree : DataNode S}
    (byClient : tree.All fun data => ∀ item ∈ data.metas, item.byServer = false) :
    CleanTree tree ↔ NoControl tree := by
  refine ⟨fun clean inner within item member => ?_, NoControl.clean⟩
  have fromClient := byClient inner within item member
  cases control : isControl item with
  | false => rfl
  | true => simp [clean inner within item member control] at fromClient

/-- The attributes which the server adds make no difference. -/
theorem Annotated.clean_iff {before after : EditNodes S} (annotated : Annotated before after) :
    Clean after.edit ↔ Clean before.edit := by
  obtain ⟨metas, added, rfl⟩ := annotated
  obtain ⟨edit, replacement⟩ := before
  cases replacement with
  | nil => rfl
  | cons index position =>
      refine Tree.forall_mem_modify_iff (fun tree => ?_) edit index
      unfold CleanTree DataNode.addMetas
      refine Tree.all_modifyAt_mapLabel (fun data => ?_) position tree
      simp only [List.mem_append]
      constructor
      · exact fun clean item member => clean item (.inl member)
      · rintro clean item (member | new) control
        · exact clean item member control
        · exact added item new

/-- The check passes exactly if there is nothing to object to in the first tree. -/
theorem validateNodes_eq_ok_iff {calls : Calls S} {edit : Forest S}
    {nodes : List (Position × DataNode S)} :
    validateNodes calls edit nodes = .ok () ↔
      ∀ node ∈ nodes, ∀ item ∈ DataNode.metas node.2, isControl item = false := by
  induction nodes with
  | nil => simp [validateNodes]
  | cons first rest ih =>
      obtain ⟨position, node⟩ := first
      simp only [validateNodes, List.forall_mem_cons, ← ih]
      cases found : node.metas.find? isControl with
      | none =>
          have absent := List.find?_eq_none.mp found
          simp only [Bool.not_eq_true] at absent
          exact ⟨fun passed => ⟨absent, passed⟩, And.right⟩
      | some item =>
          have member := List.mem_of_find?_eq_some found
          have control := List.find?_some found
          simp only [reduceCtorEq, false_iff, not_and]
          intro none
          simp [none item member] at control

theorem validateInputMetaAttributes_eq_ok_iff {calls : Calls S} {edit : Forest S} :
    validateInputMetaAttributes calls edit = .ok () ↔
      ∃ first rest, edit = first :: rest ∧ NoControl first := by
  cases edit with
  | nil => simp [validateInputMetaAttributes]
  | cons first rest =>
      simp only [validateInputMetaAttributes, validateNodes_eq_ok_iff, List.cons.injEq]
      constructor
      · intro none
        refine ⟨first, rest, ⟨rfl, rfl⟩, fun inner within => ?_⟩
        obtain ⟨position, member⟩ := Tree.mem_dfs_of_within within
        exact none (position, inner) member
      · rintro ⟨_, _, ⟨rfl, rfl⟩, none⟩ ⟨position, node⟩ member
        exact none node (Tree.within_of_mem_dfs _ member)

/-- A forest whose first tree was checked. -/
theorem clean_cons_iff {first : DataNode S} {rest : Forest S} (none : NoControl first)
    (byClient : ∀ tree ∈ rest,
      tree.All fun data => ∀ item ∈ data.metas, item.byServer = false) :
    Clean (first :: rest) ↔ ∀ tree ∈ rest, NoControl tree := by
  simp only [Clean, List.forall_mem_cons, none.clean, true_and]
  exact forall₂_congr fun tree member => cleanTree_iff_noControl (byClient tree member)

end Attributes

section Unvalidated

variable {S : Type} [DecidableEq S]

/-- The trees after the first one of a payload. -/
def furtherTrees (calls : Calls S) (value : Str) (dataFormat : DataFormat) : Forest S :=
  ((calls.parseData value dataFormat).toOption.getD []).tail

/-- The trees of the value for a resource which are not checked: those after the first one
if the resource is at the top level. -/
def unchecked (calls : Calls S) (uriPath : Str) (valueStr : Option Str)
    (dataFormat : DataFormat) : Forest S :=
  match asLibyangPathSplit calls.ctx uriPath, valueStr with
  | .ok (lyParentPath, _), some value =>
      if lyParentPath.isEmpty then furtherTrees calls value dataFormat else []
  | _, _ => []

variable (env : Env S) (ctx : RequestContext)

/-- The trees of the value of an edit which are not checked. -/
def uncheckedInEdit (edit : PatchEdit) : Forest S :=
  match edit.target, yangPatchValueAsJSON edit.value with
  | some target, .ok value => unchecked env.libyang (uriJoin ctx.rawPath target) value .json
  | _, _ => []

/-- The trees of a payload which are handed over without being checked. -/
def unvalidated : Forest S :=
  match processing ctx with
  | .post => []
  | .yangPatch =>
      match env.libyang.parsePatch ctx.payload ctx.requestFormat with
      | .ok (some patch) =>
          (patch.edits.filter fun edit => (editOutcome env ctx edit).isOk).flatMap
            (uncheckedInEdit env ctx)
      | _ => []
  | .putOrPlainPatch =>
      if ctx.restconfRequest.path = str "/" then
        furtherTrees env.libyang ctx.payload ctx.requestFormat
      else unchecked env.libyang ctx.rawPath (some ctx.payload) ctx.requestFormat

end Unvalidated

variable {S : Type} [DecidableEq S]

/-- An edit consists of a tree which is checked and the trees which are not. -/
theorem Created.eq_cons_unchecked {calls : Calls S} {uriPath : Str} {valueStr : Option Str}
    {dataFormat : DataFormat} {nodes : EditNodes S}
    (created : Created calls uriPath valueStr dataFormat nodes) :
    ∃ first, nodes.edit = first :: unchecked calls uriPath valueStr dataFormat := by
  cases created with
  | bare value splits accepted path =>
      simp [unchecked, splits, value]
  | topLevel given splits parsed same matching =>
      simp [unchecked, splits, given, furtherTrees, parsed, Except.toOption]
  | nested given splits level path parses admitted found same =>
      simp [unchecked, splits, given, level]

omit [DecidableEq S] in
/-- Trees which are not checked came from the client. -/
theorem byClient_of_mem_furtherTrees {calls : Calls S} (conforms : calls.Conforms) {value : Str}
    {dataFormat : DataFormat} {tree : DataNode S}
    (member : tree ∈ furtherTrees calls value dataFormat) :
    tree.All fun data => ∀ item ∈ data.metas, item.byServer = false := by
  unfold furtherTrees at member
  cases parsed : calls.parseData value dataFormat with
  | error error => simp [parsed, Except.toOption] at member
  | ok forest =>
      simp only [parsed, Except.toOption, Option.getD_some] at member
      exact conforms.parseData_byClient parsed tree (List.mem_of_mem_tail member)

omit [DecidableEq S] in
theorem byClient_of_mem_unchecked {calls : Calls S} (conforms : calls.Conforms)
    {uriPath : Str} {valueStr : Option Str} {dataFormat : DataFormat} {tree : DataNode S}
    (member : tree ∈ unchecked calls uriPath valueStr dataFormat) :
    tree.All fun data => ∀ item ∈ data.metas, item.byServer = false := by
  unfold unchecked at member
  split at member
  · split at member
    · exact byClient_of_mem_furtherTrees conforms member
    · cases member
  · cases member

/-- An edit which was built and checked is clean exactly if its unchecked trees are. -/
theorem Created.clean_iff {calls : Calls S} (conforms : calls.Conforms) {uriPath : Str}
    {valueStr : Option Str} {dataFormat : DataFormat} {nodes : EditNodes S}
    (created : Created calls uriPath valueStr dataFormat nodes)
    (validated : validateInputMetaAttributes calls nodes.edit = .ok ()) :
    Clean nodes.edit ↔ ∀ tree ∈ unchecked calls uriPath valueStr dataFormat, NoControl tree := by
  obtain ⟨first, shape⟩ := created.eq_cons_unchecked
  obtain ⟨_, _, same, none⟩ := validateInputMetaAttributes_eq_ok_iff.mp validated
  rw [shape, List.cons.injEq] at same
  obtain ⟨rfl, rfl⟩ := same
  rw [shape]
  exact clean_cons_iff none fun tree member => byClient_of_mem_unchecked conforms member

variable {env : Env S} {ctx : RequestContext}

/-- An edit of a patch. -/
theorem clean_edit_iff (conforms : env.libyang.Conforms) {edit : PatchEdit} {forest : Forest S}
    (processed : editOutcome env ctx edit = .ok forest) :
    Clean forest ↔ ∀ tree ∈ uncheckedInEdit env ctx edit, NoControl tree := by
  have returns : Returns (processYangPatchEdit env ctx edit) forest := ⟨_, processed⟩
  unfold processYangPatchEdit at returns
  obtain ⟨target, hasTarget, returns⟩ := returns.bind
  obtain ⟨operation, _, returns⟩ := returns.bind
  obtain ⟨value, hasValue, returns⟩ := returns.bind
  obtain ⟨nodes, created, returns⟩ := returns.bind
  obtain ⟨_, validated, returns⟩ := returns.bind
  obtain ⟨annotated, set, returns⟩ := returns.bind
  cases returns.pure
  rw [(annotated_setPatchOperation set.liftM).clean_iff,
    (created_of_returns created).clean_iff conforms validated.liftM]
  have present : edit.target = some target := by
    have hasTarget := hasTarget.liftM
    cases targeted : edit.target with
    | none => simp [targeted, childLeafValue] at hasTarget
    | some found =>
        simp only [targeted, childLeafValue, Except.ok.injEq] at hasTarget
        rw [hasTarget]
  simp only [uncheckedInEdit, present, hasValue.liftM]

theorem clean_succeeded_iff (conforms : env.libyang.Conforms) (edits : List PatchEdit) :
    Clean (succeeded env ctx edits) ↔
      ∀ tree ∈ (edits.filter fun edit => (editOutcome env ctx edit).isOk).flatMap
        (uncheckedInEdit env ctx), NoControl tree := by
  induction edits with
  | nil => simp [succeeded, Clean]
  | cons edit rest ih =>
      have split : Clean (succeeded env ctx (edit :: rest)) ↔
          Clean ((editOutcome env ctx edit).toOption.getD []) ∧
            Clean (succeeded env ctx rest) := by
        simp only [Clean, succeeded, List.flatMap_cons, List.forall_mem_append]
      rw [split, ih]
      cases processed : editOutcome env ctx edit with
      | error exception => simp [processed, Except.toOption, Except.isOk, Except.toBool, Clean]
      | ok forest =>
          have first := clean_edit_iff conforms processed
          simp only [Except.toOption, Option.getD_some, first, processed, Except.isOk,
            Except.toBool, List.filter_cons_of_pos, List.flatMap_cons, List.forall_mem_append]

omit [DecidableEq S] in
/-- All nodes of the top level count as created by a `POST`. -/
theorem post_single (conforms : env.libyang.Conforms) {edit : Forest S} {position : Position}
    {index : Nat} (created : createEditForPost env ctx = .ok (edit, position, [index])) :
    ∃ first, edit = [first] := by
  unfold createEditForPost at created
  split at created
  · obtain ⟨forest, parsed, result⟩ := except_bind_eq_ok.mp created
    have topLevel := conforms.parseData_topLevel (raise_eq_ok.mp parsed)
    cases forest with
    | nil => cases result
    | cons first rest =>
        simp only [pure, Except.pure, Except.ok.injEq, Prod.mk.injEq] at result
        obtain ⟨rfl, _, single⟩ := result
        have length := congrArg List.length single
        have all : ∀ entry ∈ (first :: rest).zipIdx, (!isOwnKey env first entry.1) = true := by
          rintro ⟨tree, place⟩ member
          have root := topLevel tree (List.fst_mem_of_mem_zipIdx member)
          simp [isOwnKey, env.libyang.ctx.topLevel_isKey root]
        rw [createdIndices, List.filter_eq_self.mpr all] at length
        simp only [List.length_map, List.length_zipIdx, List.length_cons, List.length_nil,
          Nat.zero_add, Nat.add_eq_right, List.length_eq_zero_iff] at length
        exact ⟨first, by rw [length]⟩
  · simp only [except_bind_eq_ok] at created
    obtain ⟨root, _, parsed, _, result⟩ := created
    simp only [pure, Except.pure, Except.ok.injEq, Prod.mk.injEq] at result
    exact ⟨_, result.1.symm⟩

/-- What is handed over is free of the client's control attributes exactly if the trees
which are not checked are. -/
theorem clean_handed_iff (conforms : env.libyang.Conforms) {forest : Forest S}
    (member : forest ∈ (afterPayload env ctx).handed) :
    Clean forest ↔ ∀ tree ∈ unvalidated env ctx, NoControl tree := by
  cases handover_of_mem_handed env ctx member with
  | root kind path parsed validated =>
      obtain ⟨first, rest, rfl, none⟩ := validateInputMetaAttributes_eq_ok_iff.mp validated
      have further : furtherTrees env.libyang ctx.payload ctx.requestFormat = rest := by
        simp [furtherTrees, parsed, Except.toOption]
      simp only [unvalidated, kind, path, if_true]
      rw [further]
      refine clean_cons_iff none fun tree member => ?_
      exact conforms.parseData_byClient parsed tree (List.mem_cons_of_mem _ member)
  | target kind path created validated set =>
      simp only [unvalidated, kind, path, if_false]
      rw [(annotated_setPutOperation set).clean_iff]
      exact (created_of_returns created).clean_iff conforms validated
  | child kind created validated set inserted =>
      obtain ⟨first, rfl⟩ := post_single conforms created
      have annotated := (annotated_addMeta set).trans (annotated_yangInsertFromQuery inserted)
      have validated : validateInputMetaAttributes env.libyang [first] = .ok () := validated
      obtain ⟨_, _, same, none⟩ := validateInputMetaAttributes_eq_ok_iff.mp validated
      cases same
      simp only [unvalidated, kind]
      rw [annotated.clean_iff]
      exact clean_cons_iff none fun tree member => by cases member
  | patch kind parsed =>
      simp only [unvalidated, kind, parsed]
      exact clean_succeeded_iff conforms _

/-- A `PUT` of the top-level leaf of the tests. -/
def putLeafContext : RequestContext where
  method := str "PUT"
  rawPath := str "/restconf/data/example:top-level-leaf"
  path := str "/restconf/data/example:top-level-leaf"
  responseFormat := .json
  urlPrefix := none
  requestFormat := .json
  activeDatastore := .running
  restconfRequest := ⟨.createOrReplaceThisNode, none, str "/example:top-level-leaf", []⟩
  contentTypeHeader := some (str "application/yang-data+json")
  payload := []

/-- A server which parses every payload as the leaf `top-level-leaf` and the given trees
after it. -/
def putLeafEnv (further : Forest Example.Node) : Env Example.Node where
  libyang :=
    { Example.calls with
      parseData := fun _ _ => .ok (.leaf .topLevelLeaf (str "x") :: further) }
  session := .accepting

/-- The leaf `top-level-leaf2`, with an attribute for the NETCONF operation `delete`. -/
def deletedLeaf : DataNode Example.Node :=
  .node ⟨.topLevelLeaf2, str "y",
    [⟨str "ietf-netconf", str "operation", str "delete", false, false⟩]⟩ []

theorem putLeafEnv_conforms {further : Forest Example.Node}
    (topLevel : ∀ tree ∈ further, DataNode.schema tree ∈ Example.schema.topLevel)
    (byClient : ∀ tree ∈ further,
      tree.All fun data => ∀ item ∈ data.metas, item.byServer = false) :
    (putLeafEnv further).libyang.Conforms where
  parseData_topLevel := by
    intro _ _ forest parsed
    cases parsed
    exact List.forall_mem_cons.mpr ⟨List.mem_cons_self, topLevel⟩
  parseData_byClient := by
    intro _ _ forest parsed
    cases parsed
    refine List.forall_mem_cons.mpr ⟨?_, byClient⟩
    exact Tree.all_node.mpr ⟨by simp, by simp⟩
  parseSubtree_child parsed := by cases parsed
  newPath2_findPath created := by cases created
  newPath2_child created := by cases created

theorem putLeaf_clean :
    ∃ forest ∈ (afterPayload (putLeafEnv []) putLeafContext).handed, Clean forest := by
  have handed : (afterPayload (putLeafEnv []) putLeafContext).handed.length = 1 := by
    decide +kernel
  have unvalidatedTrees : (unvalidated (putLeafEnv []) putLeafContext).length = 0 := by
    decide +kernel
  obtain ⟨forest, only⟩ := List.length_eq_one_iff.mp handed
  have member : forest ∈ (afterPayload (putLeafEnv []) putLeafContext).handed := by simp [only]
  refine ⟨forest, member, (clean_handed_iff (putLeafEnv_conforms ?_ ?_) member).mpr ?_⟩
  · simp
  · simp
  · simp [List.length_eq_zero_iff.mp unvalidatedTrees]

/-- A second leaf in the payload brings along an operation of its own. -/
theorem putLeaf_smuggles :
    ∃ forest ∈ (afterPayload (putLeafEnv [deletedLeaf]) putLeafContext).handed,
      ¬Clean forest := by
  have handed : (afterPayload (putLeafEnv [deletedLeaf]) putLeafContext).handed.any
      fun forest => forest.any fun tree =>
        tree.metas.any fun item => isControl item && !item.byServer := by
    decide +kernel
  simp only [List.any_eq_true, Bool.and_eq_true, Bool.not_eq_true'] at handed
  obtain ⟨forest, member, tree, inside, item, attached, control, byClient⟩ := handed
  refine ⟨forest, member, fun clean => ?_⟩
  have byServer := clean tree inside tree .here item attached control
  simp [byServer] at byClient

end Rousette.Restconf.Server
