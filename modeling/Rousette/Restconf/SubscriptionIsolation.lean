import Mathlib.Data.List.Nodup
import Mathlib.Logic.Function.Basic
import Rousette.Restconf.SubscriptionLifecycle

/-!
# Isolation of users

What a user other than the NACM recovery user can do with subscriptions, by a `GET` on a
stream and by the RPCs which delete a subscription.  The registry as such a user gets to
know it is a private store, which holds the subscriptions of that user by their UUID; the
operations of the server are those of the private store, whatever else is registered.
-/

namespace Rousette.Restconf.Subscriptions

open Library
open Libyang (DataFormat)

/-! ## Operations -/

/-- The operations of a user.  Deleting comes with the answer of sysrepo, which may raise an
error when it is asked to terminate the subscription. -/
inductive Operation where
  | get (uuid : Uuid)
  | delete (isKill : Bool) (subId : Nat) (error : Option Sysrepo.ErrorWithCode)

/-- What a user gets for an operation. -/
inductive Answer where
  /-- the event stream of a subscription -/
  | stream (subscription : SubscriptionData)
  | deleted
  | error (exception : Exception)

/-- The answer to a `GET` for an unknown UUID. -/
def streamNotFound : Exception :=
  .errorResponse
    ⟨404, str "application", str "invalid-value", str "Subscription not found.", none, none⟩

/-- The answer to a `GET` for a subscription which is not ready. -/
def streamTaken : Exception :=
  .errorResponse
    ⟨409, str "application", str "resource-denied",
      str "There is already another GET request on this subscription.", none, none⟩

section Operations

variable (recoveryUser user : Str)

/-- The handler of a `GET` on a stream. -/
def getStream (s : Subscriptions) (uuid : Uuid) : Answer × Subscriptions :=
  match s.getSubscriptionForUserByUuid recoveryUser uuid (some user) with
  | none => (.error streamNotFound, s)
  | some ref =>
      if s.isReadyToAcceptClient ref then (.stream (s.heap ref), s.attach ref)
      else (.error streamTaken, s)

/-- Sysrepo is asked to terminate the subscription. -/
def askToTerminate (s : Subscriptions) (ref : SubscriptionRef) : Subscriptions :=
  s.update ref fun sub => { sub with terminateCalls := sub.terminateCalls + 1 }

/-- `DynamicSubscriptions::deleteSubscription` -/
def deleteSubscription (s : Subscriptions) (isKill : Bool) (subId : Nat)
    (error : Option Sysrepo.ErrorWithCode) : Answer × Subscriptions :=
  match s.deletableSubscription recoveryUser isKill subId (some user) with
  | .error exception => (.error exception, s)
  | .ok ref =>
      match error with
      | some error => (.error (.sysrepo error), s.askToTerminate ref)
      | none => (.deleted, (((s.askToTerminate ref).erase (s.heap ref).uuid).release ref))

/-- An operation of the user. -/
def perform (s : Subscriptions) : Operation → Answer × Subscriptions
  | .get uuid => s.getStream recoveryUser user uuid
  | .delete isKill subId error => s.deleteSubscription recoveryUser user isKill subId error

/-- The answers to a sequence of operations. -/
def answers (s : Subscriptions) : List Operation → List Answer
  | [] => []
  | operation :: rest =>
      let result := s.perform recoveryUser user operation
      result.1 :: answers result.2 rest

/-- The state after a sequence of operations. -/
def performAll (s : Subscriptions) : List Operation → Subscriptions
  | [] => s
  | operation :: rest => performAll (s.perform recoveryUser user operation).2 rest

end Operations

/-! ## The private store -/

/-- The subscriptions of a user by their UUID. -/
abbrev Store := Uuid → Option SubscriptionData

/-- The subscriptions of a user in the registry. -/
def owned (s : Subscriptions) (user : Str) : Store := fun uuid =>
  match s.registry.find? (·.1 == uuid) with
  | some (_, ref) => if (s.heap ref).user = user then some (s.heap ref) else none
  | none => none

theorem owned_of_absent {s : Subscriptions} {user : Str} {uuid : Uuid}
    (absent : s.registry.find? (·.1 == uuid) = none) : s.owned user uuid = none := by
  simp only [owned, absent]

namespace Store

/-- The path of the RPC in an error. -/
def rpcPath (isKill : Bool) : Str :=
  if isKill then str "/ietf-subscribed-notifications:kill-subscription"
  else str "/ietf-subscribed-notifications:delete-subscription"

/-- The answer to the RPCs for an unknown id. -/
def idNotFound (isKill : Bool) : Exception :=
  .errorResponse
    ⟨404, str "application", str "invalid-value", str "Subscription not found.",
      some (rpcPath isKill), none⟩

/-- A `GET` on a stream of the store. -/
def getStream (store : Store) (uuid : Uuid) : Answer × Store :=
  match store uuid with
  | none => (.error streamNotFound, store)
  | some sub =>
      if sub.state = .start then
        (.stream sub, Function.update store uuid (some { sub with state := .receiverActive }))
      else (.error streamTaken, store)

open Classical in
/-- Deleting a subscription of the store by its id. -/
noncomputable def deleteSubscription (store : Store) (isKill : Bool) (subId : Nat)
    (error : Option Sysrepo.ErrorWithCode) : Answer × Store :=
  if found : ∃ sub, store sub.uuid = some sub ∧ sub.subscriptionId = subId then
    match error with
    | some error =>
        (.error (.sysrepo error), Function.update store found.choose.uuid
          (some { found.choose with terminateCalls := found.choose.terminateCalls + 1 }))
    | none => (.deleted, Function.update store found.choose.uuid none)
  else (.error (idNotFound isKill), store)

/-- Deleting the only subscription of the store which has the id. -/
theorem deleteSubscription_eq {store : Store} {sub : SubscriptionData} {isKill : Bool}
    {error : Option Sysrepo.ErrorWithCode} (present : store sub.uuid = some sub)
    (unique : ∀ other, store other.uuid = some other →
      other.subscriptionId = sub.subscriptionId → other = sub) :
    store.deleteSubscription isKill sub.subscriptionId error =
      match error with
      | some error =>
          (.error (.sysrepo error), Function.update store sub.uuid
            (some { sub with terminateCalls := sub.terminateCalls + 1 }))
      | none => (.deleted, Function.update store sub.uuid none) := by
  have found : ∃ other, store other.uuid = some other ∧
      other.subscriptionId = sub.subscriptionId := ⟨sub, present, rfl⟩
  have chosen : found.choose = sub := unique _ found.choose_spec.1 found.choose_spec.2
  rw [deleteSubscription, dif_pos found, chosen]

/-- An operation on the store. -/
noncomputable def perform (store : Store) : Operation → Answer × Store
  | .get uuid => store.getStream uuid
  | .delete isKill subId error => store.deleteSubscription isKill subId error

/-- The answers to a sequence of operations. -/
noncomputable def answers (store : Store) : List Operation → List Answer
  | [] => []
  | operation :: rest => (store.perform operation).1 :: answers (store.perform operation).2 rest

end Store

/-! ## The registry as a map -/

/-- The registry has every UUID and every id once, and a subscription under its own UUID. -/
structure WellKept (s : Subscriptions) : Prop where
  keys : (s.registry.map Prod.fst).Nodup
  uuid : ∀ {uuid ref}, (uuid, ref) ∈ s.registry → (s.heap ref).uuid = uuid
  ids : ∀ {ref other}, s.Registered ref → s.Registered other →
    (s.heap ref).subscriptionId = (s.heap other).subscriptionId → ref = other

theorem keys_nodup {recoveryUser : Str} {events : List Event} {s : Subscriptions}
    (run : Run (Subscriptions.step recoveryUser) empty events s) :
    (s.registry.map Prod.fst).Nodup := by
  induction run with
  | nil => exact List.nodup_nil
  | @snoc _ state next _ _ taken ih =>
      cases step_effect taken with
      | winds winds => exact ih.sublist (winds.registry.map _)
      | @establish _ _ _ dataFormat subscriptionId uuid user _ _ _ winds =>
          refine List.Nodup.sublist (winds.registry.map _) ?_
          simp only [place, List.map_append, List.map_cons, List.map_nil]
          refine List.nodup_append.mpr ⟨ih.sublist (List.filter_sublist.map _), by simp, ?_⟩
          intro key member other only
          obtain ⟨entry, inside, rfl⟩ := List.mem_map.mp member
          rw [List.mem_singleton.mp only]
          simpa using (List.mem_filter.mp inside).2
      | connect => exact ih
      | @disconnect ref _ _ =>
          by_cases terminating : (state.heap ref).state = .terminating
          · rw [detach_of_terminating terminating]
            exact ih
          · rw [detach_of_running terminating]
            exact ih
      | expire => exact ih
      | deleteTerminate _ winds => exact ih.sublist (winds.registry.map _)

theorem WellKept.of_run {recoveryUser : Str} {events : List Event} {s : Subscriptions}
    (run : Run (Subscriptions.step recoveryUser) empty events s) : WellKept s :=
  ⟨keys_nodup run, (Invariant.of_run run).registry_uuid, (Invariant.of_run run).registry_ids⟩

namespace WellKept

variable {s : Subscriptions} {uuid : Uuid} {ref : SubscriptionRef} {user recoveryUser : Str}

theorem find_eq_some_iff (kept : WellKept s) {entry : Uuid × SubscriptionRef} :
    s.registry.find? (·.1 == uuid) = some entry ↔ entry ∈ s.registry ∧ entry.1 = uuid := by
  constructor
  · intro found
    exact ⟨List.mem_of_find?_eq_some found, by simpa using List.find?_some found⟩
  · rintro ⟨member, rfl⟩
    cases found : s.registry.find? (·.1 == entry.1) with
    | none =>
        have absent := List.find?_eq_none.mp found entry member
        simp at absent
    | some other =>
        have same : other.1 = entry.1 := by simpa using List.find?_some found
        rw [List.inj_on_of_nodup_map kept.keys (List.mem_of_find?_eq_some found) member same]

theorem owned_eq_some_iff (kept : WellKept s) {sub : SubscriptionData} :
    s.owned user uuid = some sub ↔
      ∃ ref, (uuid, ref) ∈ s.registry ∧ s.heap ref = sub ∧ sub.user = user := by
  unfold owned
  constructor
  · intro found
    split at found
    next key ref search =>
      obtain ⟨member, rfl⟩ := kept.find_eq_some_iff.mp search
      split at found
      next own =>
        cases found
        exact ⟨ref, member, rfl, own⟩
      · cases found
    · cases found
  · rintro ⟨ref, member, rfl, own⟩
    rw [kept.find_eq_some_iff.mpr ⟨member, rfl⟩]
    simp [own]

/-- Looking a subscription up by its UUID. -/
theorem getByUuid_eq_some_iff (kept : WellKept s) (other : user ≠ recoveryUser) :
    s.getSubscriptionForUserByUuid recoveryUser uuid (some user) = some ref ↔
      (uuid, ref) ∈ s.registry ∧ (s.heap ref).user = user := by
  unfold getSubscriptionForUserByUuid
  constructor
  · intro found
    split at found
    next key found' search =>
      obtain ⟨member, rfl⟩ := kept.find_eq_some_iff.mp search
      split at found
      next own =>
        cases found
        simp [other] at own
        exact ⟨member, own⟩
      · cases found
    · cases found
  · rintro ⟨member, own⟩
    rw [kept.find_eq_some_iff.mpr ⟨member, rfl⟩]
    simp [own]

theorem findById_eq (kept : WellKept s) (member : (uuid, ref) ∈ s.registry) :
    s.findById (s.heap ref).subscriptionId = some (uuid, ref) :=
  findById_of_mem kept.uuid kept.ids member

/-- Erasing the key of a subscription removes that subscription and nothing else. -/
theorem mem_erased_iff (kept : WellKept s) (member : (uuid, ref) ∈ s.registry)
    {entry : Uuid × SubscriptionRef} :
    entry ∈ s.registry.filter (·.1 != uuid) ↔ entry ∈ s.registry ∧ entry.2 ≠ ref := by
  rw [List.mem_filter, bne_iff_ne]
  refine and_congr_right fun inside => not_congr ?_
  constructor
  case mp =>
    intro same
    exact congrArg Prod.snd (List.inj_on_of_nodup_map kept.keys inside member same)
  case mpr =>
    rintro rfl
    exact (kept.uuid inside).symm.trans (kept.uuid member)

/-- Whom the RPCs delete. -/
theorem deletable_of_mem (kept : WellKept s) (other : user ≠ recoveryUser) (isKill : Bool)
    (member : (uuid, ref) ∈ s.registry) (own : (s.heap ref).user = user) :
    s.deletableSubscription recoveryUser isKill (s.heap ref).subscriptionId (some user) =
      .ok ref := by
  simp [deletableSubscription, getSubscriptionForUserById, kept.findById_eq member, own, other]

theorem deletable_eq_error (other : user ≠ recoveryUser) (isKill : Bool) {subId : Nat}
    (absent : ∀ uuid ref, (uuid, ref) ∈ s.registry → (s.heap ref).subscriptionId = subId →
      (s.heap ref).user ≠ user) :
    s.deletableSubscription recoveryUser isKill subId (some user) =
      .error (Store.idNotFound isKill) := by
  have nothing : s.getSubscriptionForUserById recoveryUser subId (some user) = none := by
    unfold getSubscriptionForUserById
    split
    next key found search =>
      have member := List.mem_of_find?_eq_some search
      have sameId : (s.heap found).subscriptionId = subId := by
        simpa using List.find?_some search
      simp [absent key found member sameId, other]
    · rfl
  simp [deletableSubscription, nothing, Store.idNotFound, Store.rpcPath]

end WellKept

/-! ## Operations are those of the private store -/

section Refinement

variable {s t : Subscriptions} {uuid : Uuid} {ref : SubscriptionRef} {user recoveryUser : Str}

/-- A subscription of the user has changed. -/
theorem owned_of_update (kept : WellKept s) (member : (uuid, ref) ∈ s.registry)
    {sub : SubscriptionData} (own : sub.user = user) (registry : t.registry = s.registry)
    (changed : t.heap ref = sub) (others : ∀ other, other ≠ ref → t.heap other = s.heap other) :
    t.owned user = Function.update (s.owned user) uuid (some sub) := by
  funext key
  by_cases same : key = uuid
  · subst same
    rw [Function.update_self, owned, registry, kept.find_eq_some_iff.mpr ⟨member, rfl⟩]
    simp [changed, own]
  · rw [Function.update_of_ne same, owned, owned, registry]
    cases found : s.registry.find? (·.1 == key) with
    | none => rfl
    | some entry =>
        obtain ⟨inside, rfl⟩ := kept.find_eq_some_iff.mp found
        have another : entry.2 ≠ ref := by
          rintro rfl
          exact same ((kept.uuid inside).symm.trans (kept.uuid member))
        simp only [others entry.2 another]

/-- A subscription of the user was erased. -/
theorem owned_of_erase (kept : WellKept s) (member : (uuid, ref) ∈ s.registry)
    (registry : t.registry = s.registry.filter (·.1 != uuid))
    (others : ∀ other, other ≠ ref → t.heap other = s.heap other) :
    t.owned user = Function.update (s.owned user) uuid none := by
  funext key
  rw [owned, registry, List.find?_filter]
  by_cases same : key = uuid
  · subst same
    have nothing : s.registry.find? (fun entry =>
        decide ((entry.1 != key) = true ∧ (entry.1 == key) = true)) = none := by
      refine List.find?_eq_none.mpr fun entry _ => ?_
      simp
    rw [Function.update_self, nothing]
  · have unchanged : (fun entry : Uuid × SubscriptionRef =>
        decide ((entry.1 != uuid) = true ∧ (entry.1 == key) = true)) =
        fun entry => entry.1 == key := by
      funext entry
      by_cases hit : entry.1 = key
      · simp [hit, same]
      · simp [hit]
    rw [Function.update_of_ne same, owned, unchanged]
    cases found : s.registry.find? (·.1 == key) with
    | none => rfl
    | some entry =>
        obtain ⟨inside, rfl⟩ := kept.find_eq_some_iff.mp found
        have another : entry.2 ≠ ref := by
          rintro rfl
          exact same ((kept.uuid inside).symm.trans (kept.uuid member))
        simp only [others entry.2 another]

theorem release_registry (s : Subscriptions) (ref : SubscriptionRef) :
    (s.release ref).registry = s.registry := by
  unfold release terminate
  split
  · rfl
  · split <;> rfl

theorem release_heap_other (s : Subscriptions) {other : SubscriptionRef} (another : other ≠ ref) :
    (s.release ref).heap other = s.heap other := by
  unfold release terminate
  split
  · rfl
  · split
    · rfl
    · exact update_heap_other _ _ another

theorem getStream_refines (kept : WellKept s) (other : user ≠ recoveryUser) (uuid : Uuid) :
    (s.getStream recoveryUser user uuid).1 = ((s.owned user).getStream uuid).1 ∧
      (s.getStream recoveryUser user uuid).2.owned user = ((s.owned user).getStream uuid).2 := by
  cases found : s.getSubscriptionForUserByUuid recoveryUser uuid (some user) with
  | none =>
      have absent : s.owned user uuid = none := by
        refine Option.eq_none_iff_forall_ne_some.mpr fun sub present => ?_
        obtain ⟨ref, member, rfl, own⟩ := kept.owned_eq_some_iff.mp present
        have again := (kept.getByUuid_eq_some_iff other).mpr ⟨member, own⟩
        rw [found] at again
        cases again
      simp [getStream, found, Store.getStream, absent]
  | some ref =>
      obtain ⟨member, own⟩ := (kept.getByUuid_eq_some_iff other).mp found
      have present : s.owned user uuid = some (s.heap ref) :=
        kept.owned_eq_some_iff.mpr ⟨ref, member, rfl, own⟩
      by_cases ready : (s.heap ref).state = .start
      · have connected : (s.attach ref).owned user = Function.update (s.owned user) uuid
            (some { s.heap ref with state := .receiverActive }) := by
          refine owned_of_update kept member own rfl ?_ ?_
          · rw [attach_heap, update_heap_self]
          · intro another different
            rw [attach_heap, update_heap_other s _ different]
        simp [getStream, found, Store.getStream, present, isReadyToAcceptClient, ready, connected]
      · simp [getStream, found, Store.getStream, present, isReadyToAcceptClient, ready]

theorem deleteSubscription_refines (kept : WellKept s) (other : user ≠ recoveryUser)
    (isKill : Bool) (subId : Nat) (error : Option Sysrepo.ErrorWithCode) :
    (s.deleteSubscription recoveryUser user isKill subId error).1 =
        ((s.owned user).deleteSubscription isKill subId error).1 ∧
      (s.deleteSubscription recoveryUser user isKill subId error).2.owned user =
        ((s.owned user).deleteSubscription isKill subId error).2 := by
  by_cases found : ∃ sub, s.owned user sub.uuid = some sub ∧ sub.subscriptionId = subId
  · obtain ⟨sub, present, rfl⟩ := found
    obtain ⟨ref, member, rfl, own⟩ := kept.owned_eq_some_iff.mp present
    have deletable := kept.deletable_of_mem other isKill member own
    have unique : ∀ another, s.owned user another.uuid = some another →
        another.subscriptionId = (s.heap ref).subscriptionId → another = s.heap ref := by
      intro another alsoPresent sameId
      obtain ⟨otherRef, otherMember, rfl, _⟩ := kept.owned_eq_some_iff.mp alsoPresent
      rw [kept.ids ⟨_, otherMember⟩ ⟨_, member⟩ sameId]
    rw [Store.deleteSubscription_eq present unique]
    cases error with
    | some error =>
        refine ⟨by simp [deleteSubscription, deletable], ?_⟩
        simp only [deleteSubscription, deletable]
        refine owned_of_update kept member own rfl (update_heap_self _ _ _) ?_
        exact fun another different => update_heap_other s _ different
    | none =>
        refine ⟨by simp [deleteSubscription, deletable], ?_⟩
        simp only [deleteSubscription, deletable]
        refine owned_of_erase kept member (release_registry _ _) ?_
        intro another different
        rw [release_heap_other _ different]
        change (s.askToTerminate ref).heap another = s.heap another
        exact update_heap_other s _ different
  · have absent : ∀ uuid ref, (uuid, ref) ∈ s.registry → (s.heap ref).subscriptionId = subId →
        (s.heap ref).user ≠ user := by
      intro uuid ref member sameId own
      refine found ⟨s.heap ref, kept.owned_eq_some_iff.mpr ⟨ref, ?_, rfl, own⟩, sameId⟩
      rwa [kept.uuid member]
    simp [deleteSubscription, WellKept.deletable_eq_error other isKill absent,
      Store.deleteSubscription, found]

/-- What a user gets for an operation, and what it does to the subscriptions of that user, is
the same as with the private store. -/
theorem perform_refines (kept : WellKept s) (other : user ≠ recoveryUser)
    (operation : Operation) :
    (s.perform recoveryUser user operation).1 = ((s.owned user).perform operation).1 ∧
      (s.perform recoveryUser user operation).2.owned user =
        ((s.owned user).perform operation).2 := by
  cases operation with
  | get uuid => exact getStream_refines kept other uuid
  | delete isKill subId error => exact deleteSubscription_refines kept other isKill subId error

/-! ## The other users -/

/-- The subscriptions of others stay as they are, in the registry and in the heap. -/
structure Untouched (user : Str) (s t : Subscriptions) : Prop where
  users : ∀ ref, (t.heap ref).user = (s.heap ref).user
  heap : ∀ ref, (s.heap ref).user ≠ user → t.heap ref = s.heap ref
  registry : ∀ entry, (s.heap entry.2).user ≠ user → (entry ∈ t.registry ↔ entry ∈ s.registry)

namespace Untouched

theorem refl (user : Str) (s : Subscriptions) : Untouched user s s :=
  ⟨fun _ => rfl, fun _ _ => rfl, fun _ _ => Iff.rfl⟩

theorem trans {u : Subscriptions} (first : Untouched user s t) (second : Untouched user t u) :
    Untouched user s u where
  users ref := (second.users ref).trans (first.users ref)
  heap ref other := by
    rw [second.heap ref (by rwa [first.users]), first.heap ref other]
  registry entry other := by
    rw [second.registry entry (by rwa [first.users]), first.registry entry other]

/-- Only one subscription of the user has changed, and only its entry was taken away. -/
theorem of_own {ref : SubscriptionRef} (own : (s.heap ref).user = user)
    (users : (t.heap ref).user = (s.heap ref).user)
    (others : ∀ other, other ≠ ref → t.heap other = s.heap other)
    (registry : ∀ entry, entry.2 ≠ ref → (entry ∈ t.registry ↔ entry ∈ s.registry)) :
    Untouched user s t where
  users other := by
    by_cases same : other = ref
    · rw [same, users]
    · rw [others other same]
  heap other foreign := others other fun same => foreign (same ▸ own)
  registry entry foreign := registry entry fun same => foreign (same ▸ own)

end Untouched

theorem release_user (s : Subscriptions) (ref : SubscriptionRef) :
    ((s.release ref).heap ref).user = (s.heap ref).user := by
  rcases (Winds.release s ref).heap ref with same | ⟨_, same | same⟩ <;> rw [same]

theorem untouched_of_getStream (kept : WellKept s) (other : user ≠ recoveryUser) (uuid : Uuid) :
    Untouched user s (s.getStream recoveryUser user uuid).2 := by
  unfold getStream
  split
  · exact .refl user s
  next ref found =>
    obtain ⟨_, own⟩ := (kept.getByUuid_eq_some_iff other).mp found
    split
    · refine .of_own own ?_ ?_ fun _ _ => Iff.rfl
      · rw [attach_heap, update_heap_self]
      · intro another different
        rw [attach_heap, update_heap_other s _ different]
    · exact .refl user s

theorem untouched_of_deleteSubscription (kept : WellKept s) (other : user ≠ recoveryUser)
    (isKill : Bool) (subId : Nat) (error : Option Sysrepo.ErrorWithCode) :
    Untouched user s (s.deleteSubscription recoveryUser user isKill subId error).2 := by
  by_cases present : ∃ uuid ref, (uuid, ref) ∈ s.registry ∧ (s.heap ref).subscriptionId = subId ∧
      (s.heap ref).user = user
  · obtain ⟨uuid, ref, member, rfl, own⟩ := present
    have deletable := kept.deletable_of_mem other isKill member own
    have asked : Untouched user s (s.askToTerminate ref) := by
      refine .of_own own ?_ ?_ fun _ _ => Iff.rfl
      · rw [askToTerminate, update_heap_self]
      · exact fun another different => update_heap_other s _ different
    cases error with
    | some error =>
        simp only [deleteSubscription, deletable]
        exact asked
    | none =>
        simp only [deleteSubscription, deletable]
        refine asked.trans (@Untouched.of_own _ _ _ ref ?_ (release_user _ ref) ?_ ?_)
        · rw [asked.users, own]
        · intro another different
          rw [release_heap_other _ different]
          rfl
        · intro entry different
          rw [release_registry, kept.uuid member]
          change entry ∈ s.registry.filter (·.1 != uuid) ↔ _
          rw [kept.mem_erased_iff member, and_iff_left different]
          rfl
  · have absent : ∀ uuid ref, (uuid, ref) ∈ s.registry → (s.heap ref).subscriptionId = subId →
        (s.heap ref).user ≠ user :=
      fun uuid ref member sameId own => present ⟨uuid, ref, member, sameId, own⟩
    simp only [deleteSubscription, WellKept.deletable_eq_error other isKill absent]
    exact .refl user s

theorem untouched_of_perform (kept : WellKept s) (other : user ≠ recoveryUser)
    (operation : Operation) : Untouched user s (s.perform recoveryUser user operation).2 := by
  cases operation with
  | get uuid => exact untouched_of_getStream kept other uuid
  | delete isKill subId error => exact untouched_of_deleteSubscription kept other isKill subId error

/-! ## Operations consist of steps -/

theorem io_idle (idle : s.io = .idle) : { s with io := .idle } = s := by
  rw [← idle]

theorem release_of_registered {ref : SubscriptionRef} (registered : s.Registered ref) :
    s.release ref = s := by
  rw [release, if_pos (alive_iff.mpr (.inl registered))]

section Steps

variable (quiet : s.quiet = true)
include quiet

theorem idle_of_quiet : s.io = .idle := by
  simp only [Subscriptions.quiet, Bool.and_eq_true, beq_iff_eq] at quiet
  exact quiet.1

theorem free_of_quiet : s.stopping = none := by
  simp only [Subscriptions.quiet, Bool.and_eq_true, Option.isNone_iff_eq_none] at quiet
  exact quiet.2

theorem execute_getStream (uuid : Uuid) :
    ∃ events, Run.execute (Subscriptions.step recoveryUser) s events =
      some (s.getStream recoveryUser user uuid).2 := by
  cases found : s.getSubscriptionForUserByUuid recoveryUser uuid (some user) with
  | none =>
      refine ⟨[.find uuid (some user)], ?_⟩
      simp [Run.execute, Subscriptions.step, quiet, found, getStream]
  | some ref =>
      have first : s.step recoveryUser (.find uuid (some user)) =
          some { s with io := .found ref } := by
        simp [Subscriptions.step, quiet, found]
      cases ready : s.isReadyToAcceptClient ref with
      | true =>
          have second : Subscriptions.step recoveryUser { s with io := .found ref } .checkReady =
              some { s with io := .accepted ref } := by
            have still : isReadyToAcceptClient { s with io := .found ref } ref = true := ready
            simp only [Subscriptions.step, still, if_true]
          have third : Subscriptions.step recoveryUser { s with io := .accepted ref } .connect =
              some (s.attach ref) := rfl
          refine ⟨[.find uuid (some user), .checkReady, .connect], ?_⟩
          simp only [Run.execute, first, second, third, getStream, found, ready, if_true]
      | false =>
          have second : Subscriptions.step recoveryUser { s with io := .found ref } .checkReady =
              some s := by
            have still : isReadyToAcceptClient { s with io := .found ref } ref = false := ready
            have registered : s.Registered ref := registered_of_getByUuid found
            simp only [Subscriptions.step, still, Bool.false_eq_true, if_false]
            rw [io_idle (idle_of_quiet quiet), release_of_registered registered]
          refine ⟨[.find uuid (some user), .checkReady], ?_⟩
          simp [Run.execute, first, second, getStream, found, ready]

theorem execute_deleteSubscription (isKill : Bool) (subId : Nat)
    (error : Option Sysrepo.ErrorWithCode) :
    ∃ events, Run.execute (Subscriptions.step recoveryUser) s events =
      some (s.deleteSubscription recoveryUser user isKill subId error).2 := by
  cases found : s.deletableSubscription recoveryUser isKill subId (some user) with
  | error exception =>
      refine ⟨[.delete isKill subId (some user)], ?_⟩
      simp [Run.execute, Subscriptions.step, quiet, found, deleteSubscription]
  | ok ref =>
      have idle : (s.askToTerminate ref).io = .idle := idle_of_quiet quiet
      have known : s.Registered ref := registered_of_deletable found
      have registered : (s.askToTerminate ref).Registered ref := known
      have first : s.step recoveryUser (.delete isKill subId (some user)) =
          some { s with io := .deleting ref } := by
        simp [Subscriptions.step, quiet, found]
      cases error with
      | some error =>
          have second : Subscriptions.step recoveryUser { s with io := .deleting ref }
              (.deleteTerminate (some error)) =
                some ({ s.askToTerminate ref with io := .idle }.release ref) := rfl
          rw [io_idle idle, release_of_registered registered] at second
          refine ⟨[.delete isKill subId (some user), .deleteTerminate (some error)], ?_⟩
          simp only [Run.execute, first, second, deleteSubscription, found]
      | none =>
          have second : Subscriptions.step recoveryUser { s with io := .deleting ref }
              (.deleteTerminate none) = some { s.askToTerminate ref with io := .erasing ref } := rfl
          have third : Subscriptions.step recoveryUser
              { s.askToTerminate ref with io := .erasing ref } .deleteErase =
                some (((s.askToTerminate ref).erase (s.heap ref).uuid).release ref) := by
            have free : (s.askToTerminate ref).stopping = none := free_of_quiet quiet
            have uuid : ((s.askToTerminate ref).heap ref).uuid = (s.heap ref).uuid := by
              rw [askToTerminate, update_heap_self]
            have erased : ((s.askToTerminate ref).erase (s.heap ref).uuid).io = .idle := idle
            simp only [Subscriptions.step, free]
            rw [← io_idle erased, ← uuid]
            simp only [erase, free]
          refine ⟨[.delete isKill subId (some user), .deleteTerminate none, .deleteErase], ?_⟩
          simp only [Run.execute, first, second, third, deleteSubscription, found]

theorem execute_perform (operation : Operation) :
    ∃ events, Run.execute (Subscriptions.step recoveryUser) s events =
      some (s.perform recoveryUser user operation).2 := by
  cases operation with
  | get uuid => exact execute_getStream quiet uuid
  | delete isKill subId error => exact execute_deleteSubscription quiet isKill subId error

/-- After an operation the io thread is free again. -/
theorem quiet_of_perform (operation : Operation) :
    (s.perform recoveryUser user operation).2.quiet = true := by
  have idle := idle_of_quiet quiet
  have free := free_of_quiet quiet
  have released : ∀ (t : Subscriptions) (ref : SubscriptionRef), t.quiet = true →
      (t.release ref).quiet = true := by
    intro t ref calm
    unfold release terminate
    split
    · exact calm
    · split <;> exact calm
  cases operation with
  | get uuid =>
      simp only [perform, getStream]
      split
      · exact quiet
      · split
        · simp [Subscriptions.quiet, attach, clientConnected, update, inactivityCancel, free]
        · exact quiet
  | delete isKill subId error =>
      simp only [perform, deleteSubscription]
      split
      · exact quiet
      · split
        · exact quiet
        · exact released _ _ quiet

end Steps

end Refinement

/-! ## Isolation -/

section Isolation

variable {recoveryUser user : Str}

/-- The answers to a sequence of operations are those of the private store, and nothing of
the other users is touched. -/
theorem answers_eq (other : user ≠ recoveryUser) {events : List Event} {s : Subscriptions}
    (run : Run (Subscriptions.step recoveryUser) empty events s) (quiet : s.quiet = true)
    (operations : List Operation) :
    s.answers recoveryUser user operations = (s.owned user).answers operations ∧
      Untouched user s (s.performAll recoveryUser user operations) := by
  induction operations generalizing s events with
  | nil => exact ⟨rfl, .refl user s⟩
  | cons operation rest ih =>
      have kept := WellKept.of_run run
      obtain ⟨answer, store⟩ := perform_refines kept other operation
      obtain ⟨more, executed⟩ := @execute_perform s user recoveryUser quiet operation
      have further := Run.of_execute_from events more run executed
      obtain ⟨answers, untouched⟩ := ih further (quiet_of_perform quiet operation)
      constructor
      · simp only [Subscriptions.answers, Store.answers]
        rw [answer, answers, store]
      · exact (untouched_of_perform kept other operation).trans untouched

/-- Two reachable states which agree on the subscriptions of a user other than the recovery
user are the same to that user, and nothing of the other users is touched.  What belongs to
someone else is answered as if it did not exist. -/
theorem isolated (other : user ≠ recoveryUser) {events moreEvents : List Event}
    {s t : Subscriptions} (run : Run (Subscriptions.step recoveryUser) empty events s)
    (anotherRun : Run (Subscriptions.step recoveryUser) empty moreEvents t)
    (quiet : s.quiet = true) (quietToo : t.quiet = true) (agree : s.owned user = t.owned user)
    (operations : List Operation) :
    s.answers recoveryUser user operations = t.answers recoveryUser user operations ∧
      Untouched user s (s.performAll recoveryUser user operations) ∧
      (∀ uuid, s.owned user uuid = none →
        s.perform recoveryUser user (.get uuid) = (.error streamNotFound, s)) ∧
      ∀ isKill subId error,
        (∀ uuid sub, s.owned user uuid = some sub → sub.subscriptionId ≠ subId) →
        s.perform recoveryUser user (.delete isKill subId error) =
          (.error (Store.idNotFound isKill), s) := by
  have kept := WellKept.of_run run
  obtain ⟨answers, untouched⟩ := answers_eq other run quiet operations
  refine ⟨?_, untouched, ?_, ?_⟩
  · rw [answers, (answers_eq other anotherRun quietToo operations).1, agree]
  · intro uuid absent
    cases found : s.getSubscriptionForUserByUuid recoveryUser uuid (some user) with
    | none => simp [perform, getStream, found]
    | some ref =>
        obtain ⟨member, own⟩ := (kept.getByUuid_eq_some_iff other).mp found
        rw [kept.owned_eq_some_iff.mpr ⟨ref, member, rfl, own⟩] at absent
        cases absent
  · intro isKill subId error absent
    have nothing := @WellKept.deletable_eq_error s user recoveryUser other isKill subId
      fun uuid ref member sameId own =>
        absent uuid _ (kept.owned_eq_some_iff.mpr ⟨ref, member, rfl, own⟩) sameId
    simp [perform, deleteSubscription, nothing]

end Isolation

/-- A subscription of a user. -/
def established (subscriptionId : Nat) (uuid : Uuid) (user : Str) : Event :=
  .establish (some (str "http://localhost")) none .json (.ok subscriptionId) uuid user

/-- A user with and without a subscription of somebody else, which the user tries to get at. -/
theorem established_isolated : ∃ s t,
    Run (Subscriptions.step (str "root")) empty
        [established 1 7 (str "norules"), established 2 8 (str "dwdm")] s ∧
      Run (Subscriptions.step (str "root")) empty [established 2 8 (str "dwdm")] t ∧
      s.owned (str "dwdm") = t.owned (str "dwdm") ∧
      s.answers (str "root") (str "dwdm") [.get 7, .delete false 1 none, .get 8] =
        t.answers (str "root") (str "dwdm") [.get 7, .delete false 1 none, .get 8] := by
  have runs : ∃ s t,
      Run (Subscriptions.step (str "root")) empty
          [established 1 7 (str "norules"), established 2 8 (str "dwdm")] s ∧
        Run (Subscriptions.step (str "root")) empty [established 2 8 (str "dwdm")] t ∧
        s.quiet = true ∧ t.quiet = true ∧ s.owned (str "dwdm") = t.owned (str "dwdm") := by
    refine ⟨_, _, .of_execute rfl, .of_execute rfl, rfl, rfl, ?_⟩
    funext uuid
    by_cases first : uuid = 7
    · subst first
      rfl
    · by_cases second : uuid = 8
      · subst second
        rfl
      · have absent : [((7 : Uuid), (0 : SubscriptionRef)), (8, 1)].find? (·.1 == uuid) = none := by
          simp [Ne.symm first, Ne.symm second]
        have absentToo : [((8 : Uuid), (0 : SubscriptionRef))].find? (·.1 == uuid) = none := by
          simp [Ne.symm second]
        exact (owned_of_absent absent).trans (owned_of_absent absentToo).symm
  obtain ⟨s, t, run, anotherRun, quiet, quietToo, agree⟩ := runs
  have isolated := isolated (by decide) run anotherRun quiet quietToo agree
    [.get 7, .delete false 1 none, .get 8]
  exact ⟨s, t, run, anotherRun, agree, isolated.1⟩

end Rousette.Restconf.Subscriptions
