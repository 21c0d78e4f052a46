import Mathlib.Data.Finset.Basic
import Mathlib.Logic.Function.Basic
import Rousette.Library.Program

/-!
# Allocated memory

Blocks are allocated, changed and freed.  Every allocation has an address of its own, and whether
it succeeds is up to the environment.  An access to what is not allocated has no meaning.

`Extends` is the invariant of a program which is to account for what it allocates: it names the
addresses at which there is more than there was at the beginning.
-/

namespace Rousette.Library

variable {β ε : Type}

/-- What is allocated, and how the further allocations turn out. -/
structure Memory (β : Type) where
  blocks : Nat → Option β
  /-- the allocations which were tried so far; the next one gets this address -/
  next : Nat
  succeeds : Nat → Bool
  unused : ∀ address, next ≤ address → blocks address = none

namespace Memory

/-- The memory after an allocation was tried. -/
def tried (m : Memory β) (block : β) : Memory β where
  blocks := if m.succeeds m.next then Function.update m.blocks m.next (some block) else m.blocks
  next := m.next + 1
  succeeds := m.succeeds
  unused := by
    intro address later
    split
    · rw [Function.update_of_ne (by omega)]
      exact m.unused address (by omega)
    · exact m.unused address (by omega)

/-- The memory after a block was freed. -/
def freed (m : Memory β) (address : Nat) : Memory β :=
  { m with
    blocks := Function.update m.blocks address none
    unused := by
      intro other later
      by_cases same : other = address
      · rw [same, Function.update_self]
      · rw [Function.update_of_ne same]
        exact m.unused other later }

/-- The memory after a block which is in use was changed. -/
def stored (m : Memory β) (address : Nat) (block : β) : Memory β :=
  { m with
    blocks := fun other => if other = address then (m.blocks other).map fun _ => block
      else m.blocks other
    unused := by
      intro other later
      simp only [m.unused other later, Option.map_none, ite_self] }

/-! ## Programs -/

/-- Allocate a block; the address is missing if there is no memory left. -/
def alloc (block : β) : Program (Memory β) ε (Option Nat) := do
  let m ← get
  set (m.tried block)
  return if m.succeeds m.next then some m.next else none

variable (undefined : ε)

/-- Read a block. -/
def load (address : Nat) : Program (Memory β) ε β := do
  match (← get).blocks address with
  | some block => return block
  | none => throw undefined

/-- Change a block. -/
def store (address : Nat) (block : β) : Program (Memory β) ε Unit := do
  let m ← get
  match m.blocks address with
  | some _ => set (m.stored address block)
  | none => throw undefined

/-- Free a block.  Nothing happens without an address. -/
def free : Option Nat → Program (Memory β) ε Unit
  | none => pure ()
  | some address => do
      let m ← get
      match m.blocks address with
      | some _ => set (m.freed address)
      | none => throw undefined

variable {undefined} {m m₀ : Memory β} {address : Nat} {block : β}

theorem exec_alloc :
    Program.exec (alloc block : Program (Memory β) ε (Option Nat)) m =
      (.ok (if m.succeeds m.next then some m.next else none), m.tried block) := rfl

theorem exec_load (held : m.blocks address = some block) :
    Program.exec (load undefined address) m = (.ok block, m) := by
  change Program.exec (match m.blocks address with
    | some block => pure block
    | none => throw undefined) m = _
  rw [held]
  rfl

theorem exec_store (held : (m.blocks address).isSome = true) :
    Program.exec (store undefined address block) m = (.ok (), m.stored address block) := by
  obtain ⟨before, held⟩ := Option.isSome_iff_exists.mp held
  change Program.exec (match m.blocks address with
    | some _ => set (m.stored address block)
    | none => throw undefined) m = _
  rw [held]
  rfl

theorem exec_free (held : (m.blocks address).isSome = true) :
    Program.exec (free undefined (some address)) m = (.ok (), m.freed address) := by
  obtain ⟨before, held⟩ := Option.isSome_iff_exists.mp held
  change Program.exec (match m.blocks address with
    | some _ => set (m.freed address)
    | none => throw undefined) m = _
  rw [held]
  rfl

theorem tried_of_succeeds (succeeds : m.succeeds m.next = true) :
    (m.tried block).blocks = Function.update m.blocks m.next (some block) := if_pos succeeds

theorem tried_of_fails (fails : m.succeeds m.next = false) :
    (m.tried block).blocks = m.blocks := by
  apply if_neg
  rw [fails]
  exact Bool.false_ne_true

theorem stored_same (held : (m.blocks address).isSome = true) :
    (m.stored address block).blocks address = some block := by
  obtain ⟨before, held⟩ := Option.isSome_iff_exists.mp held
  simp [stored, held]

theorem stored_other {other : Nat} (different : other ≠ address) :
    (m.stored address block).blocks other = m.blocks other := if_neg different

theorem freed_other {other : Nat} (different : other ≠ address) :
    (m.freed address).blocks other = m.blocks other := Function.update_of_ne different _ _

/-! ## What is allocated on top -/

/-- The blocks at the addresses `added` are what is allocated in addition. -/
structure Extends (m₀ m : Memory β) (added : Finset Nat) : Prop where
  le : m₀.next ≤ m.next
  succeeds : m.succeeds = m₀.succeeds
  later : ∀ address ∈ added, m₀.next ≤ address ∧ address < m.next
  live : ∀ address ∈ added, (m.blocks address).isSome = true
  others : ∀ address ∉ added, m.blocks address = m₀.blocks address

namespace Extends

variable {added : Finset Nat}

theorem refl (m : Memory β) : Extends m m ∅ where
  le := Nat.le_refl _
  succeeds := rfl
  later := by simp
  live := by simp
  others := fun _ _ => rfl

/-- Nothing is left of what was allocated. -/
theorem blocks_eq (extension : Extends m₀ m ∅) : m.blocks = m₀.blocks :=
  funext fun address => extension.others address (Finset.notMem_empty address)

/-- The address of the next block is not in use. -/
theorem next_notMem (extension : Extends m₀ m added) : m.next ∉ added :=
  fun member => Nat.lt_irrefl _ (extension.later _ member).2

theorem tried (extension : Extends m₀ m added) (succeeds : m.succeeds m.next = true) :
    Extends m₀ (m.tried block) (insert m.next added) where
  le := Nat.le_succ_of_le extension.le
  succeeds := extension.succeeds
  later := by
    intro address member
    rcases Finset.mem_insert.mp member with rfl | member
    · exact ⟨extension.le, Nat.lt_succ_self _⟩
    · have later := extension.later address member
      exact ⟨later.1, Nat.lt_succ_of_lt later.2⟩
  live := by
    intro address member
    rw [tried_of_succeeds succeeds]
    rcases Finset.mem_insert.mp member with rfl | member
    · rw [Function.update_self]
      rfl
    · have later := (extension.later address member).2
      rw [Function.update_of_ne (Nat.ne_of_lt later)]
      exact extension.live address member
  others := by
    intro address missing
    rw [Finset.mem_insert, not_or] at missing
    rw [tried_of_succeeds succeeds, Function.update_of_ne missing.1]
    exact extension.others address missing.2

theorem tried_of_fails (extension : Extends m₀ m added) (fails : m.succeeds m.next = false) :
    Extends m₀ (m.tried block) added where
  le := Nat.le_succ_of_le extension.le
  succeeds := extension.succeeds
  later := fun address member =>
    ⟨(extension.later address member).1, Nat.lt_succ_of_lt (extension.later address member).2⟩
  live := by
    rw [Memory.tried_of_fails fails]
    exact extension.live
  others := by
    rw [Memory.tried_of_fails fails]
    exact extension.others

theorem stored (extension : Extends m₀ m added) (member : address ∈ added) :
    Extends m₀ (m.stored address block) added where
  le := extension.le
  succeeds := extension.succeeds
  later := extension.later
  live := by
    intro other otherMember
    by_cases same : other = address
    · rw [same, stored_same (extension.live address member)]
      rfl
    · rw [stored_other same]
      exact extension.live other otherMember
  others := by
    intro other missing
    have different : other ≠ address := fun same => missing (same ▸ member)
    rw [stored_other different]
    exact extension.others other missing

theorem freed (extension : Extends m₀ m added) (member : address ∈ added) :
    Extends m₀ (m.freed address) (added.erase address) where
  le := extension.le
  succeeds := extension.succeeds
  later := fun other otherMember => extension.later other (Finset.mem_of_mem_erase otherMember)
  live := by
    intro other otherMember
    rw [freed_other (Finset.ne_of_mem_erase otherMember)]
    exact extension.live other (Finset.mem_of_mem_erase otherMember)
  others := by
    intro other missing
    by_cases same : other = address
    · -- the address is newer than everything there was at the beginning
      have before := m₀.unused address (extension.later address member).1
      rw [same, before]
      exact Function.update_self _ _ _
    · rw [freed_other same]
      apply extension.others
      intro otherMember
      exact missing (Finset.mem_erase.mpr ⟨same, otherMember⟩)

end Extends

end Memory

end Rousette.Library
