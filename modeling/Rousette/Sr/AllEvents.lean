import Rousette.Library.Loop
import Rousette.Libyang.Data

/-!
# Changes of the operational datastore

`sr/AllEvents.cpp`: when a module has changed, every tree of the data in which something has
changed is copied, the meta attributes are stripped off the nodes of the copy, and the copy
is given out as a text.

Stripping erases attributes of a collection while an iterator goes through it.  Erasing
returns the iterator which follows the erased attribute, and the value of a postfix increment
is the iterator as it was before.
-/

namespace Rousette.Sr

open Library
open Libyang (Meta)

/-- `isEmptyOperationAndOrigin` -/
def isEmptyOperationAndOrigin (attr : Meta) : Bool :=
  if attr.moduleName = str "sysrepo" ∧ attr.name = str "operation" ∧ attr.value = str "none" then
    true
  else if attr.moduleName = str "ietf-origin" ∧ attr.name = str "origin" ∧
      attr.value = str "ietf-origin:unknown" then
    true
  else false

/-- `AllEvents::WithAttributes` -/
inductive WithAttributes where
  | all
  | removeEmptyOperationAndOrigin
  | none
  deriving DecidableEq, Repr

/-- The attributes of a node with an iterator into them, which is the index of an attribute or
that of the end. -/
structure MetaCollection where
  attributes : List Meta
  it : Nat
  deriving DecidableEq, Repr

namespace MetaCollection

/-- `it = meta.begin()` -/
def atBegin (attributes : List Meta) : MetaCollection := ⟨attributes, 0⟩

/-- `it = meta.erase(it)` -/
def erase (collection : MetaCollection) : MetaCollection :=
  { collection with attributes := collection.attributes.eraseIdx collection.it }

/-- `it++`, its value and what it does to the iterator -/
def postIncrement (collection : MetaCollection) : Nat × MetaCollection :=
  (collection.it, { collection with it := collection.it + 1 })

/-- One iteration of the loop for `RemoveEmptyOperationAndOrigin`. -/
def removeEmpty (collection : MetaCollection) : Option MetaCollection :=
  match collection.attributes[collection.it]? with
  | .none => .none
  | .some attr =>
      if isEmptyOperationAndOrigin attr then some collection.erase
      else
        -- `attr = attr++`
        let (value, advanced) := collection.postIncrement
        some { advanced with it := value }

/-- One iteration of the loop for `None`. -/
def removeAny (collection : MetaCollection) : Option MetaCollection :=
  match collection.attributes[collection.it]? with
  | .none => .none
  | .some _ => some collection.erase

end MetaCollection

open MetaCollection

/-- The `switch` over `attrBehavior`, with a bound on the iterations of its loops. -/
def stripWithin (fuel : Nat) (attrBehavior : WithAttributes) (attributes : List Meta) :
    Option (List Meta) :=
  match attrBehavior with
  | .all => some attributes
  | .removeEmptyOperationAndOrigin =>
      (Loop.run removeEmpty fuel (atBegin attributes)).map MetaCollection.attributes
  | .none => (Loop.run removeAny fuel (atBegin attributes)).map MetaCollection.attributes

/-- The `switch` ends, and leaves these attributes. -/
def Strips (attrBehavior : WithAttributes) (attributes left : List Meta) : Prop :=
  ∃ fuel, stripWithin fuel attrBehavior attributes = some left

/-- The attributes which are to be left. -/
def wanted : WithAttributes → List Meta → List Meta
  | .all, attributes => attributes
  | .removeEmptyOperationAndOrigin, attributes =>
      attributes.filter fun attr => !isEmptyOperationAndOrigin attr
  | .none, _ => []

/-! ## The loops -/

@[simp] theorem removeEmpty_nil : removeEmpty (atBegin []) = none := rfl

/-- An attribute which is removed gives way to the next one. -/
theorem removeEmpty_erase {attr : Meta} (empty : isEmptyOperationAndOrigin attr = true)
    (rest : List Meta) : removeEmpty (atBegin (attr :: rest)) = some (atBegin rest) := by
  simp [removeEmpty, atBegin, empty, erase]

/-- An attribute which is kept leaves everything as it is, the iterator included. -/
theorem removeEmpty_stay {attr : Meta} (kept : isEmptyOperationAndOrigin attr = false)
    (rest : List Meta) :
    removeEmpty (atBegin (attr :: rest)) = some (atBegin (attr :: rest)) := by
  simp [removeEmpty, atBegin, kept, postIncrement]

@[simp] theorem removeAny_nil : removeAny (atBegin []) = none := rfl

@[simp] theorem removeAny_cons (attr : Meta) (rest : List Meta) :
    removeAny (atBegin (attr :: rest)) = some (atBegin rest) := rfl

theorem removeAny_ends (attributes : List Meta) :
    Loop.Ends removeAny (atBegin attributes) (atBegin []) := by
  induction attributes with
  | nil => exact .exit removeAny_nil
  | cons attr rest ih => exact .next (removeAny_cons attr rest) ih

theorem removeEmpty_ends {attributes : List Meta}
    (empty : ∀ attr ∈ attributes, isEmptyOperationAndOrigin attr = true) :
    Loop.Ends removeEmpty (atBegin attributes) (atBegin []) := by
  induction attributes with
  | nil => exact .exit removeEmpty_nil
  | cons attr rest ih =>
      obtain ⟨first, others⟩ := List.forall_mem_cons.mp empty
      exact .next (removeEmpty_erase first rest) (ih others)

/-- The iterator never gets past an attribute which is kept. -/
theorem removeEmpty_not_ends {attributes : List Meta}
    (kept : ∃ attr ∈ attributes, isEmptyOperationAndOrigin attr = false)
    (final : MetaCollection) : ¬Loop.Ends removeEmpty (atBegin attributes) final := by
  let blocked (collection : MetaCollection) : Prop :=
    ∃ attributes, collection = atBegin attributes ∧
      ∃ attr ∈ attributes, isEmptyOperationAndOrigin attr = false
  have initial : blocked (atBegin attributes) := ⟨attributes, rfl, kept⟩
  refine Loop.not_ends initial ?_
  rintro _ ⟨attributes, rfl, attr, member, keptHere⟩
  cases attributes with
  | nil => cases member
  | cons first rest =>
      cases isEmpty : isEmptyOperationAndOrigin first with
      | false => exact ⟨_, removeEmpty_stay isEmpty rest, _, rfl, attr, member, keptHere⟩
      | true =>
          refine ⟨_, removeEmpty_erase isEmpty rest, rest, rfl, attr, ?_, keptHere⟩
          rcases List.mem_cons.mp member with rfl | further
          · rw [isEmpty] at keptHere
            cases keptHere
          · exact further

/-! ## The attributes of a node -/

/-- The loop for `RemoveEmptyOperationAndOrigin` gets on with these attributes. -/
def GetsOn (attrBehavior : WithAttributes) (attributes : List Meta) : Prop :=
  attrBehavior = .removeEmptyOperationAndOrigin →
    ∀ attr ∈ attributes, isEmptyOperationAndOrigin attr = true

theorem GetsOn.wanted_eq {attributes : List Meta}
    (getsOn : GetsOn .removeEmptyOperationAndOrigin attributes) :
    wanted .removeEmptyOperationAndOrigin attributes = [] := by
  rw [wanted, List.filter_eq_nil_iff]
  intro attr member
  simp [getsOn rfl attr member]

/-- A loop which leaves nothing, seen through the attributes only. -/
theorem exists_run_iff {iteration : MetaCollection → Option MetaCollection}
    {start : MetaCollection} (ends : Loop.Ends iteration start (atBegin [])) {left : List Meta} :
    (∃ fuel, (Loop.run iteration fuel start).map MetaCollection.attributes = some left) ↔
      left = [] := by
  constructor
  case mp =>
    rintro ⟨fuel, done⟩
    obtain ⟨final, finished, rfl⟩ := Option.map_eq_some_iff.mp done
    rw [Loop.Ends.unique ⟨fuel, finished⟩ ends]
    rfl
  case mpr =>
    rintro rfl
    obtain ⟨fuel, done⟩ := ends
    exact ⟨fuel, by rw [done]; rfl⟩

/-- When stripping ends, and what it leaves. -/
theorem strips_iff {attrBehavior : WithAttributes} {attributes left : List Meta} :
    Strips attrBehavior attributes left ↔
      left = wanted attrBehavior attributes ∧ GetsOn attrBehavior attributes := by
  cases attrBehavior with
  | all =>
      constructor
      case mp =>
        rintro ⟨_, done⟩
        exact ⟨(Option.some.inj done).symm, fun other => by cases other⟩
      case mpr =>
        rintro ⟨rfl, _⟩
        exact ⟨0, rfl⟩
  | none =>
      have emptied := @exists_run_iff _ _ (removeAny_ends attributes) left
      simpa [Strips, stripWithin, wanted, GetsOn] using emptied
  | removeEmptyOperationAndOrigin =>
      by_cases empty : ∀ attr ∈ attributes, isEmptyOperationAndOrigin attr = true
      · have getsOn : GetsOn .removeEmptyOperationAndOrigin attributes := fun _ => empty
        have emptied := @exists_run_iff _ _ (removeEmpty_ends empty) left
        rw [getsOn.wanted_eq]
        exact emptied.trans (and_iff_left getsOn).symm
      · constructor
        case mp =>
          rintro ⟨fuel, done⟩
          obtain ⟨final, finished, _⟩ := Option.map_eq_some_iff.mp done
          simp only [not_forall, Bool.not_eq_true, exists_prop] at empty
          exact absurd ⟨fuel, finished⟩ (removeEmpty_not_ends empty final)
        case mpr => exact fun ends => absurd (ends.2 rfl) empty

/-- With `None` nothing is left of any attributes, and with `RemoveEmptyOperationAndOrigin` the
loop leaves what it should, or ends at all, exactly if there is nothing to leave. -/
theorem strips_wanted_iff (attrBehavior : WithAttributes) (attributes : List Meta) :
    Strips attrBehavior attributes (wanted attrBehavior attributes) ↔
      (attrBehavior = .removeEmptyOperationAndOrigin →
        ∀ attr ∈ attributes, isEmptyOperationAndOrigin attr = true) :=
  strips_iff.trans (and_iff_right rfl)

/-- The attribute of a node which is known to be configured. -/
def intendedOrigin : Meta :=
  ⟨str "ietf-origin", str "origin", str "ietf-origin:intended", false, false⟩

theorem intendedOrigin_hangs :
    ¬∃ left, Strips .removeEmptyOperationAndOrigin [intendedOrigin] left := by
  rintro ⟨left, ends⟩
  have empty := (strips_iff.mp ends).2 rfl intendedOrigin (List.mem_singleton_self _)
  exact absurd empty (by decide)

/-! ## The trees of a change -/

section Changes

variable {Change Root : Type} [DecidableEq Root]
  -- the node of a change with its parents, up to the last one
  (rootOf : Change → Root)
  -- the attributes of the nodes of a copy of the tree, as `childrenDfs` goes through them
  (copied : Root → List (List Meta))
  (printStr : Root → List (List Meta) → Str)

/-- `AllEvents::onChange` from some change on; the result are the texts which `change` is
called with. -/
def onChangeWithin (fuel : Nat) (attrBehavior : WithAttributes) :
    List Change → List Root → Option (List Str)
  | [], _ => some []
  | srChange :: changes, seen =>
      let node := rootOf srChange
      if node ∈ seen then onChangeWithin fuel attrBehavior changes seen
      else do
        let copy ← (copied node).mapM (stripWithin fuel attrBehavior)
        let further ← onChangeWithin fuel attrBehavior changes (node :: seen)
        return printStr node copy :: further

/-- `AllEvents::onChange` returns after it has given out these texts. -/
def OnChange (attrBehavior : WithAttributes) (changes : List Change) (texts : List Str) : Prop :=
  ∃ fuel, onChangeWithin rootOf copied printStr fuel attrBehavior changes [] = some texts

/-- The roots which a loop over some nodes comes upon for the first time. -/
def unseen : List Root → List Root → List Root
  | [], _ => []
  | node :: nodes, seen =>
      if node ∈ seen then unseen nodes seen else node :: unseen nodes (node :: seen)

variable {rootOf copied printStr}

theorem stripWithin_mono {attrBehavior : WithAttributes} {fuel more : Nat}
    {attributes left : List Meta} (le : fuel ≤ more)
    (done : stripWithin fuel attrBehavior attributes = some left) :
    stripWithin more attrBehavior attributes = some left := by
  cases attrBehavior with
  | all => exact done
  | removeEmptyOperationAndOrigin | none =>
      obtain ⟨final, finished, rfl⟩ := Option.map_eq_some_iff.mp done
      exact Option.map_eq_some_iff.mpr ⟨final, Loop.run_mono le finished, rfl⟩

/-- Stripping the nodes of a copy. -/
theorem exists_copy_iff {attrBehavior : WithAttributes} {nodes copy : List (List Meta)} :
    (∃ fuel, nodes.mapM (stripWithin fuel attrBehavior) = some copy) ↔
      copy = nodes.map (wanted attrBehavior) ∧
        ∀ attributes ∈ nodes, GetsOn attrBehavior attributes := by
  constructor
  case mp =>
    rintro ⟨fuel, done⟩
    have each := Loop.mapM_eq_some.mp done
    clear done
    induction each with
    | nil => exact ⟨rfl, nofun⟩
    | cons first _ ih =>
        obtain ⟨rfl, getsOn⟩ := strips_iff.mp ⟨fuel, first⟩
        obtain ⟨rfl, others⟩ := ih
        exact ⟨rfl, List.forall_mem_cons.mpr ⟨getsOn, others⟩⟩
  case mpr =>
    rintro ⟨rfl, getsOn⟩
    let enough (fuel : Nat) (attributes : List Meta) : Prop :=
      stripWithin fuel attrBehavior attributes = some (wanted attrBehavior attributes)
    have each : ∀ attributes ∈ nodes, ∃ fuel, enough fuel attributes :=
      fun attributes member => strips_iff.mpr ⟨rfl, getsOn attributes member⟩
    obtain ⟨fuel, all⟩ := @Loop.exists_bound _ enough stripWithin_mono nodes each
    refine ⟨fuel, Loop.mapM_eq_some.mpr ?_⟩
    rw [List.forall₂_map_right_iff, List.forall₂_same]
    exact all

theorem onChangeWithin_mono {attrBehavior : WithAttributes} {fuel more : Nat}
    {changes : List Change} {seen : List Root} {texts : List Str} (le : fuel ≤ more)
    (done : onChangeWithin rootOf copied printStr fuel attrBehavior changes seen = some texts) :
    onChangeWithin rootOf copied printStr more attrBehavior changes seen = some texts := by
  induction changes generalizing seen texts with
  | nil => exact done
  | cons srChange changes ih =>
      simp only [onChangeWithin] at done ⊢
      split at done
      next known => rw [if_pos known, ih done]
      next new =>
        rw [if_neg new]
        obtain ⟨copy, copying, done⟩ := Option.bind_eq_some_iff.mp done
        obtain ⟨further, others, same⟩ := Option.bind_eq_some_iff.mp done
        refine Option.bind_eq_some_iff.mpr ⟨copy, ?_, Option.bind_eq_some_iff.mpr
          ⟨further, ih others, same⟩⟩
        refine Loop.mapM_eq_some.mpr ((Loop.mapM_eq_some.mp copying).imp ?_)
        exact fun _ _ => stripWithin_mono le

/-- The callback returns exactly if stripping gets on with every node of the trees in which
something has changed, and then it gives out each of these trees once, without the attributes
which are not wanted. -/
theorem onChange_iff {attrBehavior : WithAttributes} {changes : List Change}
    {texts : List Str} :
    OnChange rootOf copied printStr attrBehavior changes texts ↔
      texts = (unseen (changes.map rootOf) []).map (fun node =>
          printStr node ((copied node).map (wanted attrBehavior))) ∧
        ∀ node ∈ unseen (changes.map rootOf) [], ∀ attributes ∈ copied node,
          GetsOn attrBehavior attributes := by
  unfold OnChange
  generalize ([] : List Root) = seen
  induction changes generalizing seen texts with
  | nil => simp [onChangeWithin, unseen, eq_comm]
  | cons srChange changes ih =>
      simp only [onChangeWithin, List.map_cons, unseen]
      by_cases known : rootOf srChange ∈ seen
      · simp only [known, if_true]
        exact ih seen
      · simp only [known, if_false, List.map_cons, List.forall_mem_cons]
        constructor
        case mp =>
          rintro ⟨fuel, done⟩
          obtain ⟨copy, copying, done⟩ := Option.bind_eq_some_iff.mp done
          obtain ⟨further, others, same⟩ := Option.bind_eq_some_iff.mp done
          obtain ⟨rfl, here⟩ := exists_copy_iff.mp ⟨fuel, copying⟩
          obtain ⟨rfl, there⟩ := (ih _).mp ⟨fuel, others⟩
          exact ⟨(Option.some.inj same).symm, here, there⟩
        case mpr =>
          rintro ⟨rfl, here, there⟩
          obtain ⟨fuel, copying⟩ := exists_copy_iff.mpr ⟨rfl, here⟩
          obtain ⟨more, others⟩ := (ih _).mpr ⟨rfl, there⟩
          refine ⟨max fuel more, Option.bind_eq_some_iff.mpr ⟨_, ?_,
            Option.bind_eq_some_iff.mpr ⟨_, ?_, rfl⟩⟩⟩
          · refine Loop.mapM_eq_some.mpr ((Loop.mapM_eq_some.mp copying).imp ?_)
            exact fun _ _ => stripWithin_mono (Nat.le_max_left fuel more)
          · exact onChangeWithin_mono (Nat.le_max_right fuel more) others

end Changes

end Rousette.Sr
