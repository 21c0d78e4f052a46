import Rousette.Restconf.Server.KeyEscaping

/-!
# Exceptions while an edit is built

All exceptions which leave the functions that build an edit are reported, but for
those of key values which cannot be escaped.
-/

namespace Rousette.Restconf.Server

open Library Libyang Program Exception

section Building

variable {S : Type} [DecidableEq S] (calls : Calls S) (uriPath : Str) (valueStr : Option Str)
  (dataFormat : DataFormat)

/-- The loop over the payload gets to a node whose key values cannot be escaped: it is the
one which the URI names, and what is before it was passed. -/
inductive Unbuildable : Prop where
  | topLevel {value : Str} {lastPathSegment : PathSegment} {first : DataNode S}
      {rest : Forest S} (given : valueStr = some value)
      (splits : asLibyangPathSplit calls.ctx uriPath = .ok ([], lastPathSegment))
      (parsed : calls.parseData value dataFormat = .ok (first :: rest))
      (same : isSameNode calls first lastPathSegment = true)
      (unescapable : Unescapable calls first [] lastPathSegment)
  | nested {value lyParentPath : Str} {lastPathSegment : PathSegment}
      {created : CreatedNodes S} {parsed before after : Forest S} {child : DataNode S}
      (given : valueStr = some value)
      (splits : asLibyangPathSplit calls.ctx uriPath = .ok (lyParentPath, lastPathSegment))
      (level : lyParentPath ≠ []) (path : calls.newPath2 lyParentPath = .ok created)
      (parses : calls.parseSubtree created.createdNode value dataFormat = .ok parsed)
      (children : created.createdNode.children ++ parsed = before ++ child :: after)
      (passed : ∀ other ∈ before, Admitted calls (created.createdNode.append parsed)
        lyParentPath lastPathSegment other)
      (same : isSameNode calls child lastPathSegment = true)
      (unescapable : Unescapable calls child lyParentPath lastPathSegment)

end Building

variable {S : Type} [DecidableEq S] {calls : Calls S}

/-! ## Building an edit -/

theorem raises_requireKeys {edit : Forest S} {position : Position} {node : DataNode S}
    {lyParentPath : Str} {lastPathSegment : PathSegment} {exception : Exception}
    (raises : Raises (requireKeys calls edit position node lyParentPath lastPathSegment)
      exception) (foreign : ¬exception.IsLocal) :
    checkKeysMismatch calls node lyParentPath lastPathSegment = .error exception := by
  rcases raises.bind with recording | ⟨_, _, raises⟩
  · exact recording.modify.elim
  · rcases raises.bind with checking | ⟨mismatch, _, raises⟩
    · exact checking.liftM
    · cases mismatch with
      | none => exact raises.pure.elim
      | some mismatch =>
          rw [raises.throw] at foreign
          exact absurd trivial foreign

theorem returns_requireKeys_of {edit : Forest S} {position : Position} {node : DataNode S}
    {lyParentPath : Str} {lastPathSegment : PathSegment}
    (matching : checkKeysMismatch calls node lyParentPath lastPathSegment = .ok none) :
    Returns (requireKeys calls edit position node lyParentPath lastPathSegment) () := by
  refine ⟨World.initial, ?_⟩
  simp only [requireKeys, exec_bind, exec_modify, exec_liftM, matching, exec_pure]

theorem raises_requireKeys_of {edit : Forest S} {position : Position} {node : DataNode S}
    {lyParentPath : Str} {lastPathSegment : PathSegment} {exception : Exception}
    (failed : checkKeysMismatch calls node lyParentPath lastPathSegment = .error exception) :
    Raises (requireKeys calls edit position node lyParentPath lastPathSegment) exception := by
  refine ⟨World.initial, ?_⟩
  simp only [requireKeys, exec_bind, exec_modify, exec_liftM, failed]

/-- What the loop over the children raises, if neither the server itself nor libyang has
raised it. -/
theorem raises_findReplacement {edit : Forest S} {parent : DataNode S} {position : Position}
    {lyParentPath : Str} {lastPathSegment : PathSegment} {index : Nat}
    {children : List (DataNode S)} {replacement : Option Nat} {exception : Exception}
    (raises : Raises (findReplacement calls edit parent position lyParentPath lastPathSegment
      index children replacement) exception) (foreign : ¬exception.IsLocal) :
    ∃ before child after, children = before ++ child :: after ∧
      (∀ other ∈ before, Admitted calls parent lyParentPath lastPathSegment other) ∧
      isSameNode calls child lastPathSegment = true ∧
      checkKeysMismatch calls child lyParentPath lastPathSegment = .error exception := by
  induction children generalizing index replacement with
  | nil => exact raises.pure.elim
  | cons child rest ih =>
      unfold findReplacement at raises
      split at raises
      case isTrue same =>
        rcases raises.bind with checking | ⟨_, checked, raises⟩
        · exact ⟨[], child, rest, rfl, by simp, same, raises_requireKeys checking foreign⟩
        · have matching := returns_requireKeys checked
          obtain ⟨before, other, after, rfl, passed, found⟩ := ih raises
          refine ⟨child :: before, other, after, rfl, ?_, found⟩
          refine List.forall_mem_cons.mpr ⟨?_, passed⟩
          rwa [Admitted, if_pos same]
      case isFalse different =>
        split at raises
        case isTrue key =>
          obtain ⟨before, other, after, rfl, passed, found⟩ := ih raises
          refine ⟨child :: before, other, after, rfl, ?_, found⟩
          refine List.forall_mem_cons.mpr ⟨?_, passed⟩
          rwa [Admitted, if_neg different]
        case isFalse =>
          rw [raises.throw] at foreign
          exact absurd trivial foreign

/-- The loop gets to the node whose check fails. -/
theorem raises_findReplacement_of {edit : Forest S} {parent : DataNode S} {position : Position}
    {lyParentPath : Str} {lastPathSegment : PathSegment} {before after : List (DataNode S)}
    {child : DataNode S} {exception : Exception}
    (passed : ∀ other ∈ before, Admitted calls parent lyParentPath lastPathSegment other)
    (same : isSameNode calls child lastPathSegment = true)
    (failed : checkKeysMismatch calls child lyParentPath lastPathSegment = .error exception)
    (index : Nat) (replacement : Option Nat) :
    Raises (findReplacement calls edit parent position lyParentPath lastPathSegment index
      (before ++ child :: after) replacement) exception := by
  induction before generalizing index replacement with
  | nil =>
      rw [List.nil_append, findReplacement, if_pos same]
      exact .of_bind_left (raises_requireKeys_of failed)
  | cons first rest ih =>
      obtain ⟨admitted, passed⟩ := List.forall_mem_cons.mp passed
      rw [List.cons_append, findReplacement]
      by_cases sameFirst : isSameNode calls first lastPathSegment = true
      · rw [Admitted, if_pos sameFirst] at admitted
        rw [if_pos sameFirst]
        refine .of_bind_right (returns_requireKeys_of admitted) ?_ (ih passed _ _)
        exact (builds_findReplacement ..).uniform
      · rw [Admitted, if_neg sameFirst] at admitted
        rw [if_neg sameFirst, if_pos admitted]
        exact ih passed _ _

/-- What building an edit raises, if neither the server itself nor libyang has raised it. -/
theorem unbuildable_of_raises {uriPath : Str} {valueStr : Option Str} {dataFormat : DataFormat}
    {exception : Exception}
    (raises : Raises (createEditForPutAndPatch calls uriPath valueStr dataFormat) exception)
    (foreign : ¬exception.IsLocal) :
    ¬exception.IsMapped ∧ Unbuildable calls uriPath valueStr dataFormat := by
  have foreignCheck : ∀ {node : DataNode S} {lyParentPath : Str} {lastPathSegment : PathSegment},
      checkKeysMismatch calls node lyParentPath lastPathSegment = .error exception →
        ¬exception.IsMapped ∧ Unescapable calls node lyParentPath lastPathSegment := by
    intro node lyParentPath lastPathSegment failed
    have unmapped := (throws_checkKeysMismatch _ _ _ exception failed).resolve_left foreign
    exact ⟨unmapped, checkKeysMismatch_unmapped_iff.mp ⟨exception, failed, unmapped⟩⟩
  have notLibyang : ∀ {α : Type} {result : Except Libyang.ErrorWithCode α},
      ¬Raises (MonadLiftT.monadLift (raise result) : Handler S α) exception :=
    fun raises => foreign (throws_raise _ exception raises.liftM)
  unfold createEditForPutAndPatch at raises
  rcases raises.bind with splitting | ⟨⟨lyParentPath, lastPathSegment⟩, splits, raises⟩
  · exact absurd (throws_asLibyangPathSplit uriPath exception splitting.liftM).isLocal foreign
  have splits := splits.liftM
  cases valueStr with
  | none =>
      rcases Raises.bind raises with requesting | ⟨request, _, raises⟩
      · exact absurd (throws_asRestconfRequest _ _ _ exception requesting.liftM).isLocal foreign
      · rcases raises.bind with creating | ⟨_, _, raises⟩
        · exact absurd creating notLibyang
        · exact raises.pure.elim
  | some value =>
      cases lyParentPath with
      | nil =>
          rcases Raises.bind raises with parsing | ⟨edit, parsed, raises⟩
          · exact absurd parsing notLibyang
          cases edit with
          | nil =>
              rw [raises.throw] at foreign
              exact absurd trivial foreign
          | cons first rest =>
              rcases raises.bind with naming | ⟨_, same, raises⟩
              · exact absurd (throws_require exception naming.liftM).isLocal foreign
              rcases raises.bind with checking | ⟨_, _, raises⟩
              · obtain ⟨unmapped, unescapable⟩ :=
                  foreignCheck (raises_requireKeys checking foreign)
                exact ⟨unmapped, .topLevel rfl splits (raise_eq_ok.mp parsed.liftM)
                  (require_eq_ok.mp same.liftM) unescapable⟩
              · exact raises.pure.elim
      | cons c text =>
          rcases Raises.bind raises with creating | ⟨created, path, raises⟩
          · exact absurd creating notLibyang
          rcases raises.bind with parsing | ⟨parsed, parses, raises⟩
          · exact absurd parsing notLibyang
          rcases raises.bind with looping | ⟨replacement, _, raises⟩
          · obtain ⟨before, child, after, children, passed, same, failed⟩ :=
              raises_findReplacement looping foreign
            obtain ⟨unmapped, unescapable⟩ := foreignCheck failed
            exact ⟨unmapped, .nested rfl splits (by simp) (raise_eq_ok.mp path.liftM)
              (raise_eq_ok.mp parses.liftM) children passed same unescapable⟩
          · cases replacement with
            | none =>
                rw [raises.throw] at foreign
                exact absurd trivial foreign
            | some index => exact raises.pure.elim

theorem raises_of_unbuildable {uriPath : Str} {valueStr : Option Str} {dataFormat : DataFormat}
    (unbuildable : Unbuildable calls uriPath valueStr dataFormat) :
    ∃ exception, Raises (createEditForPutAndPatch calls uriPath valueStr dataFormat) exception ∧
      ¬exception.IsMapped := by
  unfold createEditForPutAndPatch
  cases unbuildable with
  | topLevel given splits parsed same unescapable =>
      obtain ⟨exception, failed, unmapped⟩ := checkKeysMismatch_unmapped_iff.mpr unescapable
      refine ⟨exception, ?_, unmapped⟩
      subst given
      refine .of_bind_liftM splits (.of_bind_liftM (raise_eq_ok.mpr parsed) ?_)
      refine .of_bind_liftM (show require _ _ = .ok () from require_eq_ok.mpr same) ?_
      exact .of_bind_left (raises_requireKeys_of failed)
  | nested given splits level path parses children passed same unescapable =>
      obtain ⟨exception, failed, unmapped⟩ := checkKeysMismatch_unmapped_iff.mpr unescapable
      refine ⟨exception, ?_, unmapped⟩
      subst given
      refine .of_bind_liftM splits ?_
      dsimp only
      rw [if_neg (by simpa using level)]
      refine .of_bind_liftM (raise_eq_ok.mpr path) (.of_bind_liftM (raise_eq_ok.mpr parses) ?_)
      apply Raises.of_bind_left
      rw [show (Tree.append _ _).children = _ from children]
      exact raises_findReplacement_of passed same failed 0 none

/-! ## Setting the operation -/

/-- The node which the operation is set on is there. -/
def Located (nodes : EditNodes S) : Prop :=
  ∃ node, Forest.at? nodes.edit nodes.replacement = some node

theorem Created.located {uriPath : Str} {valueStr : Option Str} {dataFormat : DataFormat}
    {nodes : EditNodes S} (created : Created calls uriPath valueStr dataFormat nodes) :
    Located nodes := by
  cases created with
  | bare value splits accepted path => exact ⟨_, CreatedNodes.found _⟩
  | topLevel given splits parsed same matching => exact ⟨_, rfl⟩
  | nested given splits level path parses admitted found same =>
      simp only [Located, Forest.at?, List.cons_append, List.getElem?_cons_zero,
        Option.bind_some]
      rw [Tree.at?_append, Tree.at?_modifyAt, CreatedNodes.found]
      simp only [Option.map_some, Option.bind_some, Tree.at?, Tree.append, Tree.children_node]
      rw [found]
      exact ⟨_, rfl⟩

omit [DecidableEq S] in
theorem Annotated.located {before after : EditNodes S} (annotated : Annotated before after)
    (located : Located before) : Located after := by
  obtain ⟨metas, _, rfl⟩ := annotated
  obtain ⟨node, found⟩ := located
  rw [Located, Forest.at?_modifyAt, found]
  exact ⟨_, rfl⟩

omit [DecidableEq S] in
theorem throws_addMeta {moduleName name value : Str} {nodes : EditNodes S}
    (located : Located nodes) : Throws IsLocal (addMeta calls moduleName name value nodes) := by
  obtain ⟨node, found⟩ := located
  unfold addMeta
  apply Throws.bind
  · rw [found]
    exact .ok node
  intro _ _
  apply Throws.bind (throws_raise _)
  intro _ _
  exact .ok _

omit [DecidableEq S] in
/-- The last segment of a path has the keys which its node needs. -/
theorem keysPredicate_of_asLibyangSchemaNode {point : List PathSegment} {schema : S}
    (resolved : asLibyangSchemaNode calls.ctx point = .ok (some schema)) :
    ∃ last predicate, point.getLast? = some last ∧
      keysPredicate calls.ctx schema last.keys = .ok predicate := by
  obtain ⟨found, walked, result⟩ := except_bind_eq_ok.mp resolved
  simp only [pure, Except.pure, Except.ok.injEq] at result
  have nonempty : point ≠ [] := by
    rintro rfl
    cases walked
    cases result
  obtain ⟨before, last, rfl⟩ := List.eq_nil_or_concat point |>.resolve_left nonempty
  rw [List.concat_eq_append] at walked ⊢
  obtain ⟨_, node, predicate, _, _, built, rfl⟩ := asLibyangPathFrom_append_singleton walked
  cases result
  exact ⟨last, predicate, List.getLast?_concat, built⟩

omit [DecidableEq S] in
/-- The keys of a point which leads to a list or a leaf-list can be used. -/
theorem throws_insertionPoint {schema : S} {point : List PathSegment}
    (kind : calls.ctx.nodeType schema = .list ∨ calls.ctx.nodeType schema = .leaflist)
    (resolved : asLibyangSchemaNode calls.ctx point = .ok (some schema)) :
    Throws IsLocal (insertionPoint calls schema point) := by
  obtain ⟨last, predicate, lastOne, built⟩ := keysPredicate_of_asLibyangSchemaNode resolved
  unfold insertionPoint
  apply Throws.bind
  · rw [lastOne]
    exact .ok last
  intro segment same
  rw [lastOne] at same
  cases same
  rcases kind with list | leaflist
  · simp only [list]
    apply Throws.bind
    · obtain ⟨text, keyed⟩ := listKeyPredicate_of_keysPredicate list built
      rw [keyed]
      exact .ok text
    intro key _
    exact .ok _
  · simp only [leaflist]
    have single := keyCount_of_keysPredicate built
    simp only [KeyCount, leaflist] at single
    obtain ⟨key, only⟩ := List.length_eq_one_iff.mp single
    rw [only]
    exact .ok _

theorem throws_yangInsert {nodes : EditNodes S} {wherePlace : Str}
    {point : Option (List PathSegment)} (located : Located nodes) :
    Throws IsLocal (yangInsert calls nodes wherePlace point) := by
  obtain ⟨node, found⟩ := located
  unfold yangInsert
  apply Throws.bind
  · rw [found]
    exact .ok node
  intro inserted same
  rw [found] at same
  cases same
  apply Throws.bind
  · exact throws_require.mono fun _ response => response.isLocal
  intro _ ordered
  have ordered := require_eq_ok.mp ordered
  apply Throws.bind (throws_addMeta ⟨node, found⟩)
  intro annotated added
  have located := (annotated_addMeta added).located ⟨node, found⟩
  cases point with
  | none => exact .ok _
  | some point =>
      apply Throws.bind
      · apply Throws.bind
        · exact (throws_asLibyangPathFrom none [] point).mono fun _ response =>
            response.isLocal
        intro _ _
        exact .ok _
      intro pointSchema resolved
      apply Throws.bind
      · exact throws_require.mono fun _ response => response.isLocal
      intro _ same
      have same := beq_iff_eq.mp (require_eq_ok.mp same)
      subst same
      have kind : calls.ctx.nodeType node.schema = .list ∨
          calls.ctx.nodeType node.schema = .leaflist := by
        unfold isUserOrderedList at ordered
        split at ordered
        next list => exact .inl list
        next leaflist => exact .inr leaflist
        · cases ordered
      apply Throws.bind (throws_insertionPoint kind resolved)
      rintro ⟨name, key⟩ _
      exact throws_addMeta located

theorem throws_yangInsertFromQuery {queryParams : QueryParams} {nodes : EditNodes S}
    (points : hasInsertParamBeforeOrAfter queryParams = true →
      ∃ point, queryParams.find "point" = some (.pointParsed point)) (located : Located nodes) :
    Throws IsLocal (yangInsertFromQuery calls queryParams nodes) := by
  have queried : hasInsertParamBeforeOrAfter queryParams = true →
      ∃ point, queryPoint queryParams = .ok point := by
    intro beside
    obtain ⟨point, present⟩ := points beside
    exact ⟨point, by rw [queryPoint, present]⟩
  unfold yangInsertFromQuery
  cases insert : queryParams.find "insert" with
  | none => exact .ok _
  | some place =>
      apply Throws.bind
      · unfold queryPlace
        cases place with
        | before =>
            obtain ⟨point, known⟩ := queried (by rw [hasInsertParamBeforeOrAfter, insert])
            rw [known]
            exact .ok _
        | after =>
            obtain ⟨point, known⟩ := queried (by rw [hasInsertParamBeforeOrAfter, insert])
            rw [known]
            exact .ok _
        | _ => exact .ok _
      rintro ⟨wherePlace, point⟩ _
      exact throws_yangInsert located

theorem throws_yangInsertFromEdit {nodes : EditNodes S} {wherePlace : Str} {point : Option Str}
    (located : Located nodes) :
    Throws IsLocal (yangInsertFromEdit calls nodes wherePlace point) := by
  unfold yangInsertFromEdit
  apply Throws.bind
  · cases point with
    | none => exact .ok _
    | some point =>
        apply Throws.bind
        · apply Throws.bind
          · exact (throws_parse _ _ _ _).mono fun _ response => response.isLocal
          intro _ _
          exact .ok _
        intro _ _
        exact .ok _
  intro parsed _
  exact throws_yangInsert located

theorem throws_childLeafValue (leaf : Option Str) (childName : String) :
    Throws IsLocal (childLeafValue leaf childName) := by
  cases leaf with
  | none => exact .error trivial
  | some value => exact .ok value

theorem childLeafValue_eq_ok {leaf : Option Str} {childName : String} {value : Str} :
    childLeafValue leaf childName = .ok value ↔ leaf = some value := by
  cases leaf with
  | none => simp [childLeafValue]
  | some present => simp [childLeafValue]

/-- The value of an edit which libyang can print. -/
theorem throws_yangPatchValueAsJSON {value : PatchValue} (printed : value ≠ .data (.ok none)) :
    Throws IsLocal (yangPatchValueAsJSON value) := by
  cases value with
  | absent => exact .ok _
  | notData path => exact .error trivial
  | data text =>
      apply Throws.bind (throws_raise text)
      intro printing returned
      cases printing with
      | some body => exact .ok _
      | none =>
          rw [raise_eq_ok.mp returned] at printed
          exact absurd rfl printed

section Operations

variable {env : Env S} {ctx : RequestContext} {nodes : EditNodes S}

theorem throws_setPatchOperation {edit : PatchEdit} {operation : Str}
    (located : Located nodes) :
    Throws IsLocal (setPatchOperation env ctx edit operation nodes) := by
  unfold setPatchOperation
  split
  · apply Throws.bind (throws_childLeafValue _ _)
    intro wherePlace _
    apply Throws.bind
    · unfold patchPoint
      split
      · exact .error trivial
      · exact .ok _
      · exact .ok _
      · exact .error trivial
    intro point _
    apply Throws.bind (throws_addMeta located)
    intro annotated added
    exact throws_yangInsertFromEdit ((annotated_addMeta added).located located)
  · exact throws_addMeta located

theorem throws_setPutOperation
    (points : hasInsertParamBeforeOrAfter ctx.restconfRequest.queryParams = true →
      ∃ point, ctx.restconfRequest.queryParams.find "point" = some (.pointParsed point))
    (located : Located nodes) : Throws IsLocal (setPutOperation env ctx nodes) := by
  unfold setPutOperation
  split
  · apply Throws.bind (throws_addMeta located)
    intro annotated added
    exact throws_yangInsertFromQuery points ((annotated_addMeta added).located located)
  · exact .ok _

omit [DecidableEq S] in
theorem throws_validateInputMetaAttributes {edit : Forest S} (nonempty : edit ≠ []) :
    Throws IsErrorResponse (validateInputMetaAttributes calls edit) := by
  cases edit with
  | nil => exact absurd rfl nonempty
  | cons first rest =>
      have nodes : ∀ nodes, Throws IsErrorResponse (validateNodes calls (first :: rest) nodes) := by
        intro nodes
        induction nodes with
        | nil => exact .ok _
        | cons entry others ih =>
            obtain ⟨position, node⟩ := entry
            unfold validateNodes
            split
            · exact .error trivial
            · exact ih
      exact nodes _

end Operations

end Rousette.Restconf.Server
