import Rousette.Library.Tree

/-!
# Growing trees

A forest grows if every tree is still there, with the same label and at least what was below it.
This is what happens if a path is created in a forest: the first fit tree on each level is gone
into, and a new one is added where there is none.
-/

namespace Rousette.Library.Tree

variable {α ε : Type}

/-- All of a tree is found in another one, from the root on.  `place` tells which subtree of the
other one a subtree is found in. -/
inductive Embeds : Tree α → Tree α → Prop where
  | node {label : α} {children children' : List (Tree α)} (place : Tree α → Tree α)
      (present : ∀ child ∈ children, place child ∈ children')
      (embeds : ∀ child ∈ children, Embeds child (place child)) :
      Embeds (.node label children) (.node label children')

/-- All trees of a forest are found in another one. -/
def Grows (forest after : List (Tree α)) : Prop :=
  ∀ tree ∈ forest, ∃ tree' ∈ after, Embeds tree tree'

/-! ## Trees which are found in others -/

theorem Embeds.refl (tree : Tree α) : Embeds tree tree := by
  cases tree with
  | node label children =>
      apply Embeds.node id
      · exact fun child member => member
      · exact fun child member => Embeds.refl child

theorem Embeds.label {tree tree' : Tree α} (embeds : Embeds tree tree') :
    tree'.label = tree.label := by
  cases embeds
  rfl

theorem Embeds.children {tree tree' : Tree α} (embeds : Embeds tree tree') :
    Grows tree.children tree'.children := by
  cases embeds with
  | node place present embeds =>
      intro child member
      exact ⟨place child, present child member, embeds child member⟩

/-- A tree is found in one with the same label if what is below it is found there. -/
theorem Embeds.of_grows {label : α} {children children' : List (Tree α)}
    (grows : Grows children children') :
    Embeds (.node label children) (.node label children') := by
  choose place present embeds using grows
  classical
  apply Embeds.node fun child => if member : child ∈ children then place child member else child
  · intro child member
    rw [dif_pos member]
    exact present child member
  · intro child member
    rw [dif_pos member]
    exact embeds child member

theorem Embeds.trans {tree tree' tree'' : Tree α} (first : Embeds tree tree')
    (second : Embeds tree' tree'') : Embeds tree tree'' := by
  induction first generalizing tree'' with
  | @node label children children' place present embeds ih =>
      cases second with
      | node further there embeds' =>
          apply Embeds.node (further ∘ place)
          · exact fun child member => there _ (present child member)
          · exact fun child member => ih child member (embeds' _ (present child member))

namespace Grows

theorem refl (forest : List (Tree α)) : Grows forest forest :=
  fun tree member => ⟨tree, member, .refl tree⟩

theorem trans {forest middle after : List (Tree α)} (first : Grows forest middle)
    (second : Grows middle after) : Grows forest after := by
  intro tree member
  obtain ⟨tree', member', embeds⟩ := first tree member
  obtain ⟨tree'', member'', embeds'⟩ := second tree' member'
  exact ⟨tree'', member'', embeds.trans embeds'⟩

theorem append (forest more : List (Tree α)) : Grows forest (forest ++ more) :=
  fun tree member => ⟨tree, List.mem_append_left more member, .refl tree⟩

/-- One of the trees has grown. -/
theorem replace {tree tree' : Tree α} (embeds : Embeds tree tree') (before rest : List (Tree α)) :
    Grows (before ++ tree :: rest) (before ++ tree' :: rest) := by
  intro other member
  rcases List.mem_append.mp member with early | late
  · exact ⟨other, List.mem_append_left _ early, .refl other⟩
  · rcases List.mem_cons.mp late with rfl | later
    · exact ⟨tree', List.mem_append_right _ List.mem_cons_self, embeds⟩
    · exact ⟨other, List.mem_append_right _ (List.mem_cons_of_mem _ later), .refl other⟩

end Grows

/-! ## Changing the first fit tree -/

variable (fit : Tree α → Bool) (change : Tree α → Except ε (Tree α)) (fresh : Tree α)

/-- Change the first fit tree, or add a new one if there is none. -/
def changeFirst : List (Tree α) → Except ε (List (Tree α))
  | [] => .ok [fresh]
  | tree :: rest =>
      if fit tree then do
        let changed ← change tree
        return changed :: rest
      else do
        let others ← changeFirst rest
        return tree :: others

/-- What has become of the trees. -/
inductive ChangedFirst : List (Tree α) → List (Tree α) → Prop where
  | added {forest : List (Tree α)} (unfit : ∀ tree ∈ forest, fit tree = false) :
      ChangedFirst forest (forest ++ [fresh])
  | changed {before rest : List (Tree α)} {tree tree' : Tree α}
      (unfit : ∀ tree ∈ before, fit tree = false) (fits : fit tree = true)
      (done : change tree = .ok tree') :
      ChangedFirst (before ++ tree :: rest) (before ++ tree' :: rest)

variable {fit change fresh}

theorem changedFirst_of_changeFirst {forest after : List (Tree α)}
    (done : changeFirst fit change fresh forest = .ok after) :
    ChangedFirst fit change fresh forest after := by
  induction forest generalizing after with
  | nil =>
      cases done
      exact @ChangedFirst.added _ _ fit change fresh [] (by simp)
  | cons tree rest ih =>
      cases fits : fit tree with
      | true =>
          rw [changeFirst, if_pos fits, except_bind_eq_ok] at done
          obtain ⟨tree', changed, result⟩ := done
          cases result
          exact @ChangedFirst.changed _ _ fit change fresh [] rest tree tree' (by simp) fits changed
      | false =>
          rw [changeFirst, if_neg (by simp [fits]), except_bind_eq_ok] at done
          obtain ⟨others, inside, result⟩ := done
          cases result
          have unfit : ∀ before : List (Tree α), (∀ other ∈ before, fit other = false) →
              ∀ other ∈ tree :: before, fit other = false := by
            intro before all other member
            rcases List.mem_cons.mp member with rfl | member
            · exact fits
            · exact all other member
          cases ih inside with
          | added all =>
              exact @ChangedFirst.added _ _ fit change fresh (tree :: rest) (unfit rest all)
          | @changed before later middle middle' all fitsMiddle changed =>
              exact @ChangedFirst.changed _ _ fit change fresh (tree :: before) later middle middle'
                (unfit before all) fitsMiddle changed

/-- A forest grows if the tree which is changed does. -/
theorem grows_of_changeFirst {forest after : List (Tree α)}
    (done : changeFirst fit change fresh forest = .ok after)
    (embeds : ∀ tree tree', change tree = .ok tree' → Embeds tree tree') : Grows forest after := by
  cases changedFirst_of_changeFirst done with
  | added unfit => exact .append forest [fresh]
  | @changed before rest tree tree' unfit fits changed =>
      exact .replace (embeds tree tree' changed) before rest

/-- The labels of all nodes have a property still, if those which are new have it. -/
theorem all_of_changeFirst {property : α → Prop} {forest after : List (Tree α)}
    (done : changeFirst fit change fresh forest = .ok after) (new : All property fresh)
    (keeps : ∀ tree tree', change tree = .ok tree' → All property tree → All property tree')
    (all : ∀ tree ∈ forest, All property tree) : ∀ tree ∈ after, All property tree := by
  cases changedFirst_of_changeFirst done with
  | added unfit =>
      intro tree member
      rcases List.mem_append.mp member with old | added
      · exact all tree old
      · rw [List.mem_singleton.mp added]
        exact new
  | @changed before rest tree tree' unfit fits changed =>
      intro other member
      rcases List.mem_append.mp member with early | late
      · exact all other (List.mem_append_left _ early)
      · rcases List.mem_cons.mp late with rfl | later
        · exact keeps tree _ changed (all tree (List.mem_append_right _ List.mem_cons_self))
        · exact all other (List.mem_append_right _ (List.mem_cons_of_mem _ later))

end Rousette.Library.Tree
