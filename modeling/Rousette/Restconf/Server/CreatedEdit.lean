import Rousette.Restconf.Server.EditEffects

/-!
# The edits which are built

What `createEditForPutAndPatch` has found out about the edit which it returns.
-/

namespace Rousette.Restconf.Server

open Library Libyang Program

section Created

variable {S : Type} [DecidableEq S] (calls : Calls S)

/-- A child of the parent node which the loop over the children passes. -/
def Admitted (parent : DataNode S) (lyParentPath : Str) (lastPathSegment : PathSegment)
    (child : DataNode S) : Prop :=
  if isSameNode calls child lastPathSegment = true then
    checkKeysMismatch calls child lyParentPath lastPathSegment = .ok none
  else isKeyNode calls.ctx parent child = true

/-- The edits which are built for a URI and a value. -/
inductive Created (uriPath : Str) (valueStr : Option Str) (dataFormat : DataFormat) :
    EditNodes S → Prop where
  | bare {split : Str × PathSegment} {request : RestconfRequest} {created : CreatedNodes S}
      (value : valueStr = none) (splits : asLibyangPathSplit calls.ctx uriPath = .ok split)
      (accepted : asRestconfRequest calls.ctx (str "PATCH") uriPath [] = .ok request)
      (path : calls.newPath2 request.path = .ok created) :
      Created uriPath valueStr dataFormat ⟨[created.createdParent], 0 :: created.position⟩
  | topLevel {value : Str} {lastPathSegment : PathSegment} {first : DataNode S}
      {rest : Forest S} (given : valueStr = some value)
      (splits : asLibyangPathSplit calls.ctx uriPath = .ok ([], lastPathSegment))
      (parsed : calls.parseData value dataFormat = .ok (first :: rest))
      (same : isSameNode calls first lastPathSegment = true)
      (matching : checkKeysMismatch calls first [] lastPathSegment = .ok none) :
      Created uriPath valueStr dataFormat ⟨first :: rest, [0]⟩
  | nested {value lyParentPath : Str} {lastPathSegment : PathSegment}
      {created : CreatedNodes S} {parsed : Forest S} {index : Nat} {node : DataNode S}
      (given : valueStr = some value)
      (splits : asLibyangPathSplit calls.ctx uriPath = .ok (lyParentPath, lastPathSegment))
      (level : lyParentPath ≠ []) (path : calls.newPath2 lyParentPath = .ok created)
      (parses : calls.parseSubtree created.createdNode value dataFormat = .ok parsed)
      (admitted : ∀ child ∈ created.createdNode.children ++ parsed,
        Admitted calls (created.createdNode.append parsed) lyParentPath lastPathSegment child)
      (found : (created.createdNode.children ++ parsed)[index]? = some node)
      (same : isSameNode calls node lastPathSegment = true) :
      Created uriPath valueStr dataFormat
        ⟨[created.createdParent.modifyAt (·.append parsed) created.position],
          0 :: created.position ++ [index]⟩

end Created

variable {S : Type} [DecidableEq S] {calls : Calls S}

theorem returns_requireKeys {edit : Forest S} {position : Position} {node : DataNode S}
    {lyParentPath : Str} {lastPathSegment : PathSegment}
    (returns : Returns (requireKeys calls edit position node lyParentPath lastPathSegment) ()) :
    checkKeysMismatch calls node lyParentPath lastPathSegment = .ok none := by
  unfold requireKeys at returns
  obtain ⟨_, _, returns⟩ := returns.bind
  obtain ⟨mismatch, checked, returns⟩ := returns.bind
  cases mismatch with
  | none => exact checked.liftM
  | some mismatch => exact returns.throw.elim

/-- The loop passes every child, and what it gives is the index of a node which the URI
names. -/
theorem returns_findReplacement {edit : Forest S} {parent : DataNode S} {position : Position}
    {lyParentPath : Str} {lastPathSegment : PathSegment} {index : Nat}
    {children : List (DataNode S)} {replacement result : Option Nat}
    (returns : Returns (findReplacement calls edit parent position lyParentPath lastPathSegment
      index children replacement) result) :
    (∀ child ∈ children, Admitted calls parent lyParentPath lastPathSegment child) ∧
      (result = replacement ∨ ∃ offset node, children[offset]? = some node ∧
        isSameNode calls node lastPathSegment = true ∧ result = some (index + offset)) := by
  induction children generalizing index replacement with
  | nil =>
      refine ⟨by simp, .inl ?_⟩
      exact returns.pure
  | cons child rest ih =>
      unfold findReplacement at returns
      split at returns
      case isTrue same =>
        obtain ⟨_, checked, returns⟩ := returns.bind
        have matching := returns_requireKeys checked
        obtain ⟨admitted, found⟩ := ih returns
        refine ⟨List.forall_mem_cons.mpr ⟨?_, admitted⟩, ?_⟩
        · rwa [Admitted, if_pos same]
        · rcases found with rfl | ⟨offset, node, at_, sameNode, rfl⟩
          · exact .inr ⟨0, child, rfl, same, rfl⟩
          · exact .inr ⟨offset + 1, node, at_, sameNode, congrArg some (by omega)⟩
      case isFalse other =>
        split at returns
        case isTrue key =>
          obtain ⟨admitted, found⟩ := ih returns
          refine ⟨List.forall_mem_cons.mpr ⟨?_, admitted⟩, ?_⟩
          · rwa [Admitted, if_neg other]
          · rcases found with rfl | ⟨offset, node, at_, sameNode, rfl⟩
            · exact .inl rfl
            · exact .inr ⟨offset + 1, node, at_, sameNode, congrArg some (by omega)⟩
        case isFalse => exact returns.throw.elim

theorem created_of_returns {uriPath : Str} {valueStr : Option Str} {dataFormat : DataFormat}
    {nodes : EditNodes S}
    (returns : Returns (createEditForPutAndPatch calls uriPath valueStr dataFormat) nodes) :
    Created calls uriPath valueStr dataFormat nodes := by
  unfold createEditForPutAndPatch at returns
  obtain ⟨⟨lyParentPath, lastPathSegment⟩, splits, returns⟩ := returns.bind
  have splits := splits.liftM
  cases valueStr with
  | none =>
      obtain ⟨request, accepted, returns⟩ := Returns.bind returns
      obtain ⟨created, path, returns⟩ := returns.bind
      cases returns.pure
      exact .bare rfl splits accepted.liftM (raise_eq_ok.mp path.liftM)
  | some value =>
      cases lyParentPath with
      | nil =>
          obtain ⟨edit, parsed, returns⟩ := Returns.bind returns
          cases edit with
          | nil => exact returns.throw.elim
          | cons first rest =>
              obtain ⟨_, same, returns⟩ := returns.bind
              obtain ⟨_, matching, returns⟩ := returns.bind
              cases returns.pure
              exact .topLevel rfl splits (raise_eq_ok.mp parsed.liftM)
                (require_eq_ok.mp same.liftM) (returns_requireKeys matching)
      | cons c text =>
          obtain ⟨created, path, returns⟩ := Returns.bind returns
          obtain ⟨parsed, parses, returns⟩ := returns.bind
          obtain ⟨replacement, loop, returns⟩ := returns.bind
          obtain ⟨admitted, found⟩ := returns_findReplacement loop
          cases replacement with
          | none => exact returns.throw.elim
          | some index =>
              cases returns.pure
              rcases found with absent | ⟨offset, node, at_, same, index_eq⟩
              · cases absent
              · rw [Option.some.injEq, Nat.zero_add] at index_eq
                subst index_eq
                exact .nested rfl splits (by simp) (raise_eq_ok.mp path.liftM)
                  (raise_eq_ok.mp parses.liftM) admitted at_ same

end Rousette.Restconf.Server
