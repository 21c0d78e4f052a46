import Mathlib.Data.List.Forall2
import Rousette.Library.Program

/-!
# Ordered labelled trees

Trees whose nodes carry a label and a list of children, as data trees are.  A node
of a tree is referred to by its position, the indices of the children on the way to
it.  A forest is a list of trees, and a position in a forest starts with the index
of a tree.
-/

namespace Rousette.Library

/-- A node with its subtrees. -/
inductive Tree (α : Type) where
  | node (label : α) (children : List (Tree α))

/-- The way from a root to a node. -/
abbrev Position := List Nat

namespace Tree

variable {α : Type}

/-- The label of the root. -/
def label : Tree α → α
  | .node label _ => label

/-- The subtrees of the root. -/
def children : Tree α → List (Tree α)
  | .node _ children => children

@[simp] theorem label_node (label : α) (children : List (Tree α)) :
    (node label children).label = label := rfl

@[simp] theorem children_node (label : α) (children : List (Tree α)) :
    (node label children).children = children := rfl

/-- The subtree at a position. -/
def at? : Position → Tree α → Option (Tree α)
  | [], tree => some tree
  | index :: position, tree => (tree.children[index]?).bind (at? position)

/-- Change the subtree at a position. -/
def modifyAt (change : Tree α → Tree α) : Position → Tree α → Tree α
  | [], tree => change tree
  | index :: position, tree =>
      .node tree.label (tree.children.modify index (modifyAt change position))

/-- Change the label of the root. -/
def mapLabel (change : α → α) (tree : Tree α) : Tree α :=
  .node (change tree.label) tree.children

/-- Add subtrees behind the ones of the root. -/
def append (tree : Tree α) (more : List (Tree α)) : Tree α :=
  .node tree.label (tree.children ++ more)

theorem modifyAt_id (position : Position) (tree : Tree α) :
    modifyAt id position tree = tree := by
  induction position generalizing tree with
  | nil => rfl
  | cons index position ih =>
      have same : (modifyAt id position : Tree α → Tree α) = id := funext ih
      cases tree with
      | node label children => simp [modifyAt, same]

/-- Two changes at the same position are one. -/
theorem modifyAt_modifyAt (change further : Tree α → Tree α) (position : Position)
    (tree : Tree α) :
    modifyAt further position (modifyAt change position tree) =
      modifyAt (further ∘ change) position tree := by
  induction position generalizing tree with
  | nil => rfl
  | cons index position ih =>
      simp only [modifyAt, label_node, children_node, List.modify_modify_eq]
      congr 2
      funext child
      exact ih child

theorem at?_append (first second : Position) (tree : Tree α) :
    at? (first ++ second) tree = (at? first tree).bind (at? second) := by
  induction first generalizing tree with
  | nil => rfl
  | cons index first ih =>
      simp only [List.cons_append, at?, Option.bind_assoc]
      congr 1
      funext child
      exact ih child

/-- A change is what is found at its position. -/
theorem at?_modifyAt (change : Tree α → Tree α) (position : Position) (tree : Tree α) :
    at? position (modifyAt change position tree) = (at? position tree).map change := by
  induction position generalizing tree with
  | nil => rfl
  | cons index position ih =>
      simp only [at?, modifyAt, children_node, List.getElem?_modify_eq]
      cases tree.children[index]? with
      | none => rfl
      | some child => exact ih child

/-- The nodes on the way from the root to a position. -/
def along : Position → Tree α → List (Tree α)
  | [], tree => [tree]
  | index :: position, tree =>
      tree :: match tree.children[index]? with
        | some child => along position child
        | none => []

theorem mem_along {position : Position} {tree inner : Tree α}
    (found : at? position tree = some inner) : inner ∈ along position tree := by
  induction position generalizing tree with
  | nil =>
      cases found
      exact List.mem_singleton_self _
  | cons index position ih =>
      obtain ⟨child, there, found⟩ := Option.bind_eq_some_iff.mp found
      simp only [along, there]
      exact List.mem_cons_of_mem _ (ih found)

/-- The way to a child of the subtree at a position. -/
theorem along_append_singleton {position : Position} {index : Nat} {tree inner child : Tree α}
    (found : at? position tree = some inner) (below : inner.children[index]? = some child) :
    along (position ++ [index]) tree = along position tree ++ [child] := by
  induction position generalizing tree with
  | nil =>
      cases found
      simp [along, below]
  | cons first position ih =>
      obtain ⟨next, there, found⟩ := Option.bind_eq_some_iff.mp found
      simp only [List.cons_append, along, there, ih found]

/-- The label of the root is the same after a change which keeps labels. -/
theorem label_modifyAt {change : Tree α → Tree α} (keeps : ∀ tree, (change tree).label = tree.label)
    (position : Position) (tree : Tree α) : (modifyAt change position tree).label = tree.label := by
  cases position with
  | nil => exact keeps tree
  | cons index position => rfl

/-- A change which keeps labels does not show in what is seen of the nodes on the way to it, if
it does not show in the changed node itself. -/
theorem map_along_modifyAt {β : Type} {view : Tree α → β} {change : Tree α → Tree α}
    (keeps : ∀ tree, (change tree).label = tree.label)
    (views : ∀ {tree other : Tree α}, tree.label = other.label →
      tree.children.map label = other.children.map label → view tree = view other)
    {position : Position} {tree inner : Tree α} (found : at? position tree = some inner)
    (same : view (change inner) = view inner) :
    (along position (modifyAt change position tree)).map view = (along position tree).map view := by
  induction position generalizing tree with
  | nil =>
      cases found
      simp only [along, modifyAt, List.map_cons, List.map_nil, same]
  | cons index position ih =>
      obtain ⟨child, there, found⟩ := Option.bind_eq_some_iff.mp found
      have labels : (tree.children.modify index (modifyAt change position)).map label =
          tree.children.map label := by
        refine List.ext_getElem? fun other => ?_
        rw [List.getElem?_map, List.getElem?_map, List.getElem?_modify]
        split
        · simp [Function.comp_def, label_modifyAt keeps]
        · simp
      have root : view (.node tree.label (tree.children.modify index (modifyAt change position))) =
          view tree := views rfl labels
      simp only [along, modifyAt, children_node, List.getElem?_modify_eq, there, Option.map_eq_map,
        Option.map_some, List.map_cons, root, ih found]

mutual

/-- All nodes of a tree with their positions, parents before their children. -/
def dfs : Tree α → List (Position × Tree α)
  | .node label children => ([], .node label children) :: dfsFrom 0 children

/-- All nodes of the trees which follow the first `index` ones of a forest. -/
def dfsFrom (index : Nat) : List (Tree α) → List (Position × Tree α)
  | [] => []
  | tree :: rest =>
      (dfs tree).map (fun found => (index :: found.1, found.2)) ++ dfsFrom (index + 1) rest

end

/-- The first tree is a subtree of the second one. -/
inductive Within (inner : Tree α) : Tree α → Prop where
  | here : Within inner inner
  | inside {label : α} {children : List (Tree α)} {child : Tree α} :
      child ∈ children → Within inner child → Within inner (.node label children)

mutual

theorem within_of_mem_dfs {inner : Tree α} {position : Position} :
    (tree : Tree α) → (position, inner) ∈ tree.dfs → Within inner tree
  | .node label children, member => by
      rw [dfs, List.mem_cons, Prod.mk.injEq] at member
      rcases member with ⟨_, rfl⟩ | deeper
      · exact .here
      · obtain ⟨child, childMem, within⟩ := within_of_mem_dfsFrom 0 children deeper
        exact .inside childMem within

theorem within_of_mem_dfsFrom {inner : Tree α} {position : Position} (index : Nat) :
    (forest : List (Tree α)) → (position, inner) ∈ dfsFrom index forest →
      ∃ tree ∈ forest, Within inner tree
  | [], member => by simp [dfsFrom] at member
  | tree :: rest, member => by
      rw [dfsFrom, List.mem_append, List.mem_map] at member
      rcases member with ⟨found, foundMem, same⟩ | later
      · obtain ⟨path, node⟩ := found
        rw [Prod.mk.injEq] at same
        obtain ⟨_, rfl⟩ := same
        exact ⟨tree, List.mem_cons_self, within_of_mem_dfs tree foundMem⟩
      · obtain ⟨other, otherMem, within⟩ := within_of_mem_dfsFrom (index + 1) rest later
        exact ⟨other, List.mem_cons_of_mem _ otherMem, within⟩

end

theorem mem_dfsFrom {inner tree : Tree α} {position : Position} {forest : List (Tree α)}
    (member : tree ∈ forest) (found : (position, inner) ∈ tree.dfs) (index : Nat) :
    ∃ path, (path, inner) ∈ dfsFrom index forest := by
  induction forest generalizing index with
  | nil => cases member
  | cons head rest ih =>
      simp only [dfsFrom, List.mem_append, List.mem_map]
      rcases List.mem_cons.mp member with rfl | member
      · exact ⟨index :: position, .inl ⟨(position, inner), found, rfl⟩⟩
      · obtain ⟨path, later⟩ := ih member (index + 1)
        exact ⟨path, .inr later⟩

theorem mem_dfs_of_within {inner tree : Tree α} (within : Within inner tree) :
    ∃ position, (position, inner) ∈ tree.dfs := by
  induction within with
  | here =>
      cases inner with
      | node label children => exact ⟨[], by simp [dfs]⟩
  | inside member _ ih =>
      obtain ⟨position, found⟩ := ih
      obtain ⟨path, below⟩ := mem_dfsFrom member found 0
      exact ⟨path, by rw [dfs]; exact List.mem_cons_of_mem _ below⟩

/-- The labels of all nodes have the property. -/
def All (property : α → Prop) (tree : Tree α) : Prop :=
  ∀ inner, Within inner tree → property inner.label

theorem all_node {property : α → Prop} {label : α} {children : List (Tree α)} :
    All property (.node label children) ↔
      property label ∧ ∀ child ∈ children, All property child := by
  constructor
  case mp =>
    intro all
    exact ⟨all _ .here, fun child member inner within => all inner (.inside member within)⟩
  case mpr =>
    rintro ⟨root, below⟩ inner within
    cases within with
    | here => exact root
    | inside member within => exact below _ member inner within

theorem forall_mem_modify_iff {β : Type} {property : β → Prop} {change : β → β}
    (same : ∀ item, property (change item) ↔ property item) (items : List β) (index : Nat) :
    (∀ item ∈ items.modify index change, property item) ↔ ∀ item ∈ items, property item := by
  induction items generalizing index with
  | nil => simp
  | cons first rest ih =>
      cases index with
      | zero => simp [same]
      | succ index => simp [ih]

/-- Changing a label in a way which makes no difference to the property. -/
theorem all_modifyAt_mapLabel {property : α → Prop} {change : α → α}
    (same : ∀ label, property (change label) ↔ property label) (position : Position)
    (tree : Tree α) :
    All property (modifyAt (mapLabel change) position tree) ↔ All property tree := by
  induction position generalizing tree with
  | nil =>
      cases tree with
      | node label children =>
          simp only [modifyAt, mapLabel, label_node, children_node, all_node, same]
  | cons index position ih =>
      cases tree with
      | node label children =>
          simp only [modifyAt, label_node, children_node, all_node]
          rw [forall_mem_modify_iff ih]

/-! ## Changing all labels -/

section Map

variable {β : Type}

mutual

/-- Change the labels of all nodes. -/
def map (change : α → β) : Tree α → Tree β
  | .node label children => .node (change label) (mapAll change children)

/-- Change the labels of all nodes of a forest. -/
def mapAll (change : α → β) : List (Tree α) → List (Tree β)
  | [] => []
  | tree :: rest => map change tree :: mapAll change rest

end

@[simp] theorem map_node (change : α → β) (label : α) (children : List (Tree α)) :
    map change (.node label children) = .node (change label) (children.map (map change)) := by
  have all : ∀ forest, mapAll change forest = forest.map (map change) := by
    intro forest
    induction forest with
    | nil => rfl
    | cons tree rest ih => rw [mapAll, ih, List.map_cons]
  rw [map, all]

@[simp] theorem label_map (change : α → β) (tree : Tree α) :
    (map change tree).label = change tree.label := by
  cases tree with
  | node label children => rw [map_node, label_node, label_node]

@[simp] theorem children_map (change : α → β) (tree : Tree α) :
    (map change tree).children = tree.children.map (map change) := by
  cases tree with
  | node label children => rw [map_node, children_node, children_node]

/-- A change of one item which another change of all items passes. -/
theorem map_modify {γ δ : Type} {change : γ → γ} {changed : δ → δ} {each : γ → δ}
    (commutes : ∀ item, each (change item) = changed (each item)) (items : List γ)
    (index : Nat) :
    (items.modify index change).map each = (items.map each).modify index changed := by
  induction items generalizing index with
  | nil => simp
  | cons first rest ih =>
      cases index with
      | zero => simp [commutes]
      | succ index => simp [ih]

theorem map_modifyAt {relabel : α → β} {change : Tree α → Tree α} {changed : Tree β → Tree β}
    (commutes : ∀ tree, map relabel (change tree) = changed (map relabel tree))
    (position : Position) (tree : Tree α) :
    map relabel (modifyAt change position tree) =
      modifyAt changed position (map relabel tree) := by
  induction position generalizing tree with
  | nil => exact commutes tree
  | cons index position ih =>
      rw [modifyAt, map_node, modifyAt, label_map, children_map, map_modify ih]

theorem along_map (relabel : α → β) (position : Position) (tree : Tree α) :
    along position (map relabel tree) = (along position tree).map (map relabel) := by
  induction position generalizing tree with
  | nil => rfl
  | cons index position ih =>
      simp only [along, children_map, List.getElem?_map, List.map_cons]
      cases tree.children[index]? with
      | none => rfl
      | some child => simp only [Option.map_some, ih]

theorem map_append (relabel : α → β) (tree : Tree α) (more : List (Tree α)) :
    map relabel (tree.append more) = (map relabel tree).append (more.map (map relabel)) := by
  rw [append, map_node, append, label_map, children_map, List.map_append]

end Map

/-! ## Selecting and rewriting nodes by their path

A node is selected by the keys of the labels from the root of the forest down to it.
-/

section Rewrite

/-- How the children of a node are to be changed, for a node with its path. -/
abbrev Plan (α κ ε : Type) :=
  List κ → Tree α → Except ε (List (Tree α) → List (Tree α))

variable {κ ε : Type} (key : α → κ) (selects : List κ → Bool)

mutual

/-- The selected nodes of a tree with their paths, parents before their children. -/
def select (above : List κ) : Tree α → List (List κ × Tree α)
  | .node label children =>
      (if selects (above ++ [key label]) then [(above ++ [key label], .node label children)]
        else []) ++
        selectAll (above ++ [key label]) children

/-- The selected nodes of a forest. -/
def selectAll (above : List κ) : List (Tree α) → List (List κ × Tree α)
  | [] => []
  | tree :: rest => select above tree ++ selectAll above rest

end

/-- What is to be done to the children of a node on the given path. -/
def planAt (plan : Plan α κ ε) (path : List κ) (tree : Tree α) :
    Except ε (List (Tree α) → List (Tree α)) :=
  if selects path then plan path tree else .ok id

mutual

/-- Edit the children of every selected node.  What is done to them is planned from the
node as it was, so nodes which are edited inside of it make no difference. -/
def rewrite (plan : Plan α κ ε) (above : List κ) :
    Tree α → Except ε (Tree α)
  | .node label children => do
      let edit ← planAt selects plan (above ++ [key label]) (.node label children)
      let rewritten ← rewriteAll plan (above ++ [key label]) children
      return .node label (edit rewritten)

/-- Edit the children of every selected node of a forest. -/
def rewriteAll (plan : Plan α κ ε) (above : List κ) :
    List (Tree α) → Except ε (List (Tree α))
  | [] => .ok []
  | tree :: rest => do
      let first ← rewrite plan above tree
      let others ← rewriteAll plan above rest
      return first :: others

end

mutual

/-- Keep only some children of the selected nodes. -/
def strip (keep : α → Bool) (above : List κ) : Tree α → Tree α
  | .node label children =>
      let stripped := stripAll keep (above ++ [key label]) children
      .node label
        (if selects (above ++ [key label]) then stripped.filter (fun child => keep child.label)
          else stripped)

/-- Keep only some children of the selected nodes of a forest. -/
def stripAll (keep : α → Bool) (above : List κ) : List (Tree α) → List (Tree α)
  | [] => []
  | tree :: rest => strip keep above tree :: stripAll keep above rest

end

variable {key selects} {plan : Plan α κ ε}

@[simp] theorem label_strip (keep : α → Bool) (above : List κ) (tree : Tree α) :
    (strip key selects keep above tree).label = tree.label := by
  cases tree with
  | node label children => simp [strip]

theorem stripAll_eq_map (keep : α → Bool) (above : List κ) (forest : List (Tree α)) :
    stripAll key selects keep above forest = forest.map (strip key selects keep above) := by
  induction forest with
  | nil => simp [stripAll]
  | cons tree rest ih => simp [stripAll, ih]

/-- Filtering by labels commutes with stripping. -/
theorem filter_stripAll (keep : α → Bool) (above : List κ) (forest : List (Tree α)) :
    (stripAll key selects keep above forest).filter (fun child => keep child.label) =
      stripAll key selects keep above (forest.filter fun child => keep child.label) := by
  simp [stripAll_eq_map, List.filter_map, Function.comp_def]

mutual

/-- Rewriting succeeds exactly when every selected node has a plan. -/
theorem rewrite_isOk_iff (above : List κ) : (tree : Tree α) →
    ((∃ after, rewrite key selects plan above tree = .ok after) ↔
      ∀ found ∈ select key selects above tree, ∃ edit, plan found.1 found.2 = .ok edit)
  | .node label children => by
      have inner := rewriteAll_isOk_iff (above ++ [key label]) children
      simp only [rewrite, select, except_bind_eq_ok, List.mem_append, or_imp, forall_and]
      rw [← inner]
      by_cases selected : selects (above ++ [key label]) = true
      · simp [planAt, selected, pure, Except.pure]
      · simp [planAt, selected, pure, Except.pure]

theorem rewriteAll_isOk_iff (above : List κ) : (forest : List (Tree α)) →
    ((∃ after, rewriteAll key selects plan above forest = .ok after) ↔
      ∀ found ∈ selectAll key selects above forest, ∃ edit, plan found.1 found.2 = .ok edit)
  | [] => by simp [rewriteAll, selectAll]
  | tree :: rest => by
      have first := rewrite_isOk_iff above tree
      have others := rewriteAll_isOk_iff above rest
      simp only [rewriteAll, selectAll, except_bind_eq_ok, List.mem_append, or_imp, forall_and]
      rw [← first, ← others]
      simp [pure, Except.pure]

end

mutual

/-- Edits of selected nodes which only concern children that are not kept do not show in
the rest. -/
theorem strip_rewrite {strips : List κ → Bool} {keep : α → Bool}
    (covers : ∀ path, selects path = true → strips path = true)
    (keeps : ∀ {above node edit}, selects (above ++ [key node.label]) = true →
      plan (above ++ [key node.label]) node = .ok edit → ∀ children,
        (edit children).filter (fun child => keep child.label) =
          children.filter (fun child => keep child.label)) (above : List κ) :
    (tree : Tree α) → {after : Tree α} → rewrite key selects plan above tree = .ok after →
      strip key strips keep above after = strip key strips keep above tree
  | .node label children, after, done => by
      simp only [rewrite, except_bind_eq_ok] at done
      obtain ⟨edit, planned, rewritten, inner, result⟩ := done
      cases result
      have same := stripAll_rewriteAll covers keeps (above ++ [key label]) children inner
      by_cases selected : selects (above ++ [key label]) = true
      · simp only [planAt, selected, if_true] at planned
        simp only [strip, covers _ selected, if_true]
        rw [filter_stripAll, @keeps above (.node label children) edit selected planned,
          ← filter_stripAll, same]
      · simp only [planAt, selected, if_false, Bool.false_eq_true, Except.ok.injEq] at planned
        subst planned
        simp only [strip, id_eq, same]

theorem stripAll_rewriteAll {strips : List κ → Bool} {keep : α → Bool}
    (covers : ∀ path, selects path = true → strips path = true)
    (keeps : ∀ {above node edit}, selects (above ++ [key node.label]) = true →
      plan (above ++ [key node.label]) node = .ok edit → ∀ children,
        (edit children).filter (fun child => keep child.label) =
          children.filter (fun child => keep child.label)) (above : List κ) :
    (forest : List (Tree α)) → {after : List (Tree α)} →
      rewriteAll key selects plan above forest = .ok after →
      stripAll key strips keep above after = stripAll key strips keep above forest
  | [], after, done => by
      simp only [rewriteAll, Except.ok.injEq] at done
      rw [← done]
  | tree :: rest, after, done => by
      simp only [rewriteAll, except_bind_eq_ok] at done
      obtain ⟨tree', first, rest', others, result⟩ := done
      cases result
      simp only [stripAll]
      rw [strip_rewrite covers keeps above tree first,
        stripAll_rewriteAll covers keeps above rest others]

end

mutual

/-- Rewriting raises nothing but what the plan for a node raises. -/
theorem throws_rewrite {property : ε → Prop}
    (throws : ∀ path node, Throws property (plan path node)) (above : List κ) :
    (tree : Tree α) → Throws property (rewrite key selects plan above tree)
  | .node label children => by
      apply Throws.bind
      · unfold planAt
        split
        · exact throws _ _
        · exact .ok _
      intro _ _
      apply Throws.bind (throws_rewriteAll throws (above ++ [key label]) children)
      intro _ _
      exact .ok _

theorem throws_rewriteAll {property : ε → Prop}
    (throws : ∀ path node, Throws property (plan path node)) (above : List κ) :
    (forest : List (Tree α)) → Throws property (rewriteAll key selects plan above forest)
  | [] => .ok _
  | tree :: rest => by
      apply Throws.bind (throws_rewrite throws above tree)
      intro _ _
      apply Throws.bind (throws_rewriteAll throws above rest)
      intro _ _
      exact .ok _

end

mutual

/-- Rewriting leaves a tree alone which has no selected node. -/
theorem rewrite_unselected {above : List κ} : (tree : Tree α) →
    (∀ below, selects (above ++ [key tree.label] ++ below) = false) →
    rewrite key selects plan above tree = .ok tree
  | .node label children, unselected => by
      have root : selects (above ++ [key label]) = false := by simpa using unselected []
      have inner := rewriteAll_unselected (above ++ [key label]) children unselected
      simp [rewrite, planAt, root, inner, bind, Except.bind, pure, Except.pure]

theorem rewriteAll_unselected (above : List κ) : (forest : List (Tree α)) →
    (∀ below, selects (above ++ below) = false) →
    rewriteAll key selects plan above forest = .ok forest
  | [], _ => by simp [rewriteAll]
  | tree :: rest, unselected => by
      have first : rewrite key selects plan above tree = .ok tree :=
        rewrite_unselected tree fun below => by
          simpa using unselected (key tree.label :: below)
      have others := rewriteAll_unselected above rest unselected
      simp [rewriteAll, first, others, bind, Except.bind, pure, Except.pure]

end

mutual

theorem select_unselected {above : List κ} : (tree : Tree α) →
    (∀ below, selects (above ++ [key tree.label] ++ below) = false) →
    select key selects above tree = []
  | .node label children, unselected => by
      have root : selects (above ++ [key label]) = false := by simpa using unselected []
      have inner := selectAll_unselected (above ++ [key label]) children unselected
      simp [select, root, inner]

theorem selectAll_unselected (above : List κ) : (forest : List (Tree α)) →
    (∀ below, selects (above ++ below) = false) →
    selectAll key selects above forest = []
  | [], _ => by simp [selectAll]
  | tree :: rest, unselected => by
      have first : select key selects above tree = [] :=
        select_unselected tree fun below => by
          simpa using unselected (key tree.label :: below)
      have others := selectAll_unselected above rest unselected
      simp [selectAll, first, others]

end

/-- There is nothing to be selected below a node. -/
theorem selectAll_below {above : List κ} (unselected : ∀ step below,
    selects (above ++ step :: below) = false) (forest : List (Tree α)) :
    selectAll key selects above forest = [] := by
  induction forest with
  | nil => rfl
  | cons tree rest ih =>
      have first : select key selects above tree = [] :=
        select_unselected tree fun below => by simpa using unselected (key tree.label) below
      rw [selectAll, first, ih, List.append_nil]

/-- There is nothing to be rewritten below a node. -/
theorem rewriteAll_below {above : List κ} (unselected : ∀ step below,
    selects (above ++ step :: below) = false) (forest : List (Tree α)) :
    rewriteAll key selects plan above forest = .ok forest := by
  induction forest with
  | nil => rfl
  | cons tree rest ih =>
      have first : rewrite key selects plan above tree = .ok tree :=
        rewrite_unselected tree fun below => by simpa using unselected (key tree.label) below
      rw [rewriteAll, first, except_ok_bind, ih]
      rfl

theorem label_rewrite {above : List κ} {tree after : Tree α}
    (done : rewrite key selects plan above tree = .ok after) : after.label = tree.label := by
  cases tree with
  | node label children =>
      simp only [rewrite, except_bind_eq_ok] at done
      obtain ⟨edit, _, rewritten, _, result⟩ := done
      cases result
      rfl

/-- Two selections which never meet in the same tree of a forest do not interfere. -/
theorem selectAll_rewriteAll {others : List κ → Bool}
    (apart : ∀ root, (∀ below, selects (root :: below) = false) ∨
      ∀ below, others (root :: below) = false) {forest after : List (Tree α)}
    (done : rewriteAll key selects plan [] forest = .ok after) :
    selectAll key others [] after = selectAll key others [] forest := by
  induction forest generalizing after with
  | nil =>
      simp only [rewriteAll, Except.ok.injEq] at done
      rw [← done]
  | cons tree rest ih =>
      simp only [rewriteAll, except_bind_eq_ok] at done
      obtain ⟨tree', first, rest', remaining, result⟩ := done
      cases result
      simp only [selectAll, ih remaining]
      congr 1
      rcases apart (key tree.label) with unselected | unselected
      · rw [rewrite_unselected tree unselected, Except.ok.injEq] at first
        rw [first]
      · have label := label_rewrite first
        rw [select_unselected tree unselected, select_unselected tree' (label ▸ unselected)]

theorem selectAll_append (above : List κ) (forest others : List (Tree α)) :
    selectAll key selects above (forest ++ others) =
      selectAll key selects above forest ++ selectAll key selects above others := by
  induction forest with
  | nil => rfl
  | cons tree rest ih => rw [List.cons_append, selectAll, selectAll, ih, List.append_assoc]

theorem mem_select_node {above : List κ} {label : α} {children : List (Tree α)}
    {entry : List κ × Tree α} :
    entry ∈ select key selects above (.node label children) ↔
      selects (above ++ [key label]) = true ∧ entry = (above ++ [key label], .node label children) ∨
        entry ∈ selectAll key selects (above ++ [key label]) children := by
  rw [select, List.mem_append]
  cases selects (above ++ [key label]) <;> simp

/-- Trees without selected nodes may be left out. -/
theorem selectAll_filter (keep : α → Bool) {above : List κ}
    (unselected : ∀ label, keep label = false → ∀ below,
      selects (above ++ [key label] ++ below) = false) (forest : List (Tree α)) :
    selectAll key selects above (forest.filter fun tree => keep tree.label) =
      selectAll key selects above forest := by
  induction forest with
  | nil => rfl
  | cons tree rest ih =>
      rw [List.filter_cons]
      cases kept : keep tree.label with
      | true =>
          rw [if_pos rfl, selectAll, selectAll, ih]
      | false =>
          have absent := select_unselected tree (unselected tree.label kept)
          rw [if_neg Bool.false_ne_true, selectAll, absent, List.nil_append, ih]

variable (key selects plan) in
/-- What becomes of a selected node: its children are edited as it was planned from the node
as it was, after what is below them. -/
structure Edited (entry entry' : List κ × Tree α) : Prop where
  selected : selects entry.1 = true
  ends : ∃ above, entry.1 = above ++ [key entry.2.label]
  path : entry'.1 = entry.1
  label : entry'.2.label = entry.2.label
  children : ∃ edit rewritten, plan entry.1 entry.2 = .ok edit ∧
    rewriteAll key selects plan entry.1 entry.2.children = .ok rewritten ∧
    entry'.2.children = edit rewritten

mutual

/-- Edits which leave the selected nodes below a node alone keep all selected nodes. -/
theorem select_rewrite
    (unseen : ∀ {above node edit}, selects (above ++ [key node.label]) = true →
      plan (above ++ [key node.label]) node = .ok edit → ∀ children,
        selectAll key selects (above ++ [key node.label]) (edit children) =
          selectAll key selects (above ++ [key node.label]) children) (above : List κ) :
    (tree : Tree α) → {after : Tree α} → rewrite key selects plan above tree = .ok after →
      List.Forall₂ (Edited key selects plan) (select key selects above tree)
        (select key selects above after)
  | .node label children, after, done => by
      simp only [rewrite, except_bind_eq_ok] at done
      obtain ⟨edit, planned, rewritten, inner, result⟩ := done
      cases result
      have below := selectAll_rewriteAll_edited unseen (above ++ [key label]) children inner
      by_cases selected : selects (above ++ [key label]) = true
      · simp only [planAt, selected, if_true] at planned
        have same := @unseen above (.node label children) edit selected planned rewritten
        rw [label_node] at same
        simp only [select, selected, if_true, same, List.singleton_append]
        refine .cons ?_ below
        exact ⟨selected, ⟨above, rfl⟩, rfl, rfl, edit, rewritten, planned, inner, rfl⟩
      · simp only [planAt, selected, if_false, Bool.false_eq_true, Except.ok.injEq] at planned
        subst planned
        simpa only [select, selected, if_false, Bool.false_eq_true, List.nil_append, id_eq]
          using below

theorem selectAll_rewriteAll_edited
    (unseen : ∀ {above node edit}, selects (above ++ [key node.label]) = true →
      plan (above ++ [key node.label]) node = .ok edit → ∀ children,
        selectAll key selects (above ++ [key node.label]) (edit children) =
          selectAll key selects (above ++ [key node.label]) children) (above : List κ) :
    (forest : List (Tree α)) → {after : List (Tree α)} →
      rewriteAll key selects plan above forest = .ok after →
      List.Forall₂ (Edited key selects plan) (selectAll key selects above forest)
        (selectAll key selects above after)
  | [], after, done => by
      simp only [rewriteAll, Except.ok.injEq] at done
      subst done
      exact .nil
  | tree :: rest, after, done => by
      simp only [rewriteAll, except_bind_eq_ok] at done
      obtain ⟨tree', first, rest', others, result⟩ := done
      cases result
      simp only [selectAll]
      apply List.rel_append
      · exact select_rewrite unseen above tree first
      · exact selectAll_rewriteAll_edited unseen above rest others

end

end Rewrite

end Tree

end Rousette.Library
