import Rousette.Restconf.StreamRequests
import Rousette.Restconf.StreamUris
import Rousette.Restconf.SubscriptionIsolation

/-!
# The streams of subscriptions

What a client gets which asks for the stream of a subscription by the URI that
`establish-subscription` has returned, at any later time.
-/

namespace Rousette.Restconf.Subscriptions

open Library
open Libyang (DataFormat)

/-! ## Receivers -/

/-- A subscription with a receiver has an event stream which is active. -/
def Attended (s : Subscriptions) : Prop :=
  ∀ ref, (s.heap ref).state = .receiverActive → ref ∈ s.activeStreams

namespace Attended

variable {s t : Subscriptions}

theorem winds (attended : Attended s) (winds : Winds s t) : Attended t := by
  intro ref active
  have same := (winds.heap ref).eq_of_running (by simp [active])
  rw [winds.active]
  exact attended ref (same ▸ active)

theorem update (attended : Attended s) (ref : SubscriptionRef)
    {change : SubscriptionData → SubscriptionData} (state : ∀ sub, (change sub).state = sub.state) :
    Attended (s.update ref change) := by
  intro other active
  apply attended other
  simp only [Subscriptions.update] at active
  split at active
  · rwa [state] at active
  · exact active

theorem place (attended : Attended s) (subscriptionId : Nat) (dataFormat : DataFormat)
    (uuid : Uuid) (user : Str) : Attended (s.place subscriptionId dataFormat uuid user) := by
  intro ref active
  by_cases new : ref = s.fresh
  · simp [Subscriptions.place, new] at active
  · simp only [Subscriptions.place, new, if_false] at active
    exact attended ref active

theorem attach (attended : Attended s) (ref : SubscriptionRef) : Attended (s.attach ref) := by
  intro other active
  by_cases same : other = ref
  · exact List.mem_cons.mpr (.inl same)
  · rw [attach_heap, update_heap_other s _ same] at active
    exact List.mem_cons_of_mem ref (attended other active)

theorem detach (attended : Attended s) (ref : SubscriptionRef) : Attended (s.detach ref) := by
  intro other active
  rw [detach_activeStreams]
  by_cases same : other = ref
  · subst same
    by_cases terminating : (s.heap other).state = .terminating
    · rw [detach_of_terminating terminating] at active
      rw [terminating] at active
      cases active
    · rw [detach_of_running terminating] at active
      simp [Subscriptions.update] at active
  · rw [detach_heap_other s same] at active
    exact (List.mem_erase_of_ne same).mpr (attended other active)

theorem step {recoveryUser : Str} {event : Event} (attended : Attended s)
    (taken : s.step recoveryUser event = some t) : Attended t := by
  cases step_effect taken with
  | winds winds => exact attended.winds winds
  | establish _ _ winds => exact (attended.place _ _ _ _).winds winds
  | connect => exact attended.attach _
  | disconnect => exact attended.detach _
  | expire => exact attended
  | @deleteTerminate ref _ _ _ winds =>
      have asked : Attended (s.update ref fun sub =>
          { sub with terminateCalls := sub.terminateCalls + 1 }) :=
        attended.update ref fun _ => rfl
      exact asked.winds winds

theorem of_run {recoveryUser : Str} {events : List Event} {s : Subscriptions}
    (run : Run (Subscriptions.step recoveryUser) empty events s) : Attended s := by
  induction run with
  | nil => exact nofun
  | snoc _ taken ih => exact ih.step taken

end Attended

/-- In a reachable state a subscription is ready exactly if it has no active event stream and was
not terminated. -/
theorem isReady_iff {recoveryUser : Str} {events : List Event} {s : Subscriptions}
    (run : Run (Subscriptions.step recoveryUser) empty events s) (ref : SubscriptionRef) :
    s.isReadyToAcceptClient ref = true ↔
      ref ∉ s.activeStreams ∧ (s.heap ref).state ≠ .terminating := by
  rw [isReadyToAcceptClient, beq_iff_eq]
  constructor
  case mp =>
    intro start
    exact ⟨(Exclusive.of_run run).start start, by simp [start]⟩
  case mpr =>
    rintro ⟨inactive, running⟩
    cases state : (s.heap ref).state with
    | start => rfl
    | receiverActive => exact absurd (Attended.of_run run ref state) inactive
    | terminating => exact absurd state running

/-! ## Identity -/

/-- What never changes about a subscription. -/
structure SameSubscription (old new : SubscriptionData) : Prop where
  subscriptionId : new.subscriptionId = old.subscriptionId
  dataFormat : new.dataFormat = old.dataFormat
  uuid : new.uuid = old.uuid
  user : new.user = old.user

namespace SameSubscription

variable {old new newer : SubscriptionData}

theorem refl (sub : SubscriptionData) : SameSubscription sub sub := ⟨rfl, rfl, rfl, rfl⟩

theorem trans (first : SameSubscription old new) (second : SameSubscription new newer) :
    SameSubscription old newer where
  subscriptionId := second.subscriptionId.trans first.subscriptionId
  dataFormat := second.dataFormat.trans first.dataFormat
  uuid := second.uuid.trans first.uuid
  user := second.user.trans first.user

theorem of_retires (retires : Retires old new) : SameSubscription old new := by
  rcases retires with rfl | ⟨_, rfl | rfl⟩
  · exact refl new
  · exact ⟨rfl, rfl, rfl, rfl⟩
  · exact ⟨rfl, rfl, rfl, rfl⟩

theorem of_update {s : Subscriptions} (ref : SubscriptionRef) {updated : SubscriptionRef}
    {change : SubscriptionData → SubscriptionData}
    (same : ∀ sub, SameSubscription sub (change sub)) :
    SameSubscription (s.heap ref) ((s.update updated change).heap ref) := by
  simp only [update]
  split
  · exact same _
  · exact refl _

/-- A known subscription stays the same. -/
theorem of_step {recoveryUser : Str} {s t : Subscriptions} {event : Event}
    (taken : s.step recoveryUser event = some t) {ref : SubscriptionRef} (known : ref < s.fresh) :
    SameSubscription (s.heap ref) (t.heap ref) := by
  cases step_effect taken with
  | winds winds => exact of_retires (winds.heap ref)
  | @establish _ _ _ dataFormat subscriptionId uuid user _ _ _ winds =>
      have older : (s.place subscriptionId dataFormat uuid user).heap ref = s.heap ref := by
        simp [place, Nat.ne_of_lt known]
      rw [← older]
      exact of_retires (winds.heap ref)
  | connect =>
      rw [attach_heap]
      exact of_update ref fun _ => ⟨rfl, rfl, rfl, rfl⟩
  | @disconnect closed _ _ =>
      by_cases terminating : (s.heap closed).state = .terminating
      · rw [detach_of_terminating terminating]
        exact refl _
      · rw [detach_of_running terminating]
        exact @of_update s ref closed (fun sub => { sub with state := .start })
          fun _ => ⟨rfl, rfl, rfl, rfl⟩
  | expire => exact refl _
  | @deleteTerminate deleted _ _ _ winds =>
      have asked : SameSubscription (s.heap ref) ((s.update deleted fun sub =>
          { sub with terminateCalls := sub.terminateCalls + 1 }).heap ref) :=
        of_update ref fun _ => ⟨rfl, rfl, rfl, rfl⟩
      exact asked.trans (of_retires (winds.heap ref))

theorem of_run {recoveryUser : Str} {s t : Subscriptions} {events : List Event}
    (run : Run (Subscriptions.step recoveryUser) s events t) {ref : SubscriptionRef}
    (known : ref < s.fresh) : ref < t.fresh ∧ SameSubscription (s.heap ref) (t.heap ref) := by
  induction run with
  | nil => exact ⟨known, refl _⟩
  | snoc _ taken ih =>
      exact ⟨Nat.lt_of_lt_of_le ih.1 (fresh_of_step taken), ih.2.trans (of_step taken ih.1)⟩

end SameSubscription

/-- A subscription which was just established. -/
theorem established_heap {s t : Subscriptions} {requestSchemeAndHost encoding : Option Str}
    {requestEncoding : DataFormat} {subscriptionId : Nat} {uuid : Uuid} {user : Str}
    (established : s.establishSubscription requestSchemeAndHost encoding requestEncoding
      (.ok subscriptionId) uuid user = .ok t) :
    s.fresh < t.fresh ∧ ∃ dataFormat, getEncoding encoding requestEncoding = .ok dataFormat ∧
      SameSubscription ⟨subscriptionId, dataFormat, uuid, user, .start, 0⟩ (t.heap s.fresh) := by
  unfold establishSubscription at established
  split at established
  · cases established
  · obtain ⟨dataFormat, format, placed⟩ := except_bind_eq_ok.mp established
    cases placed
    have winds := winds_assign s subscriptionId dataFormat uuid user
    have new : (s.place subscriptionId dataFormat uuid user).heap s.fresh =
        ⟨subscriptionId, dataFormat, uuid, user, .start, 0⟩ := by simp [place]
    refine ⟨?_, dataFormat, format, ?_⟩
    · rw [winds.fresh]
      exact Nat.lt_succ_self s.fresh
    · rw [← new]
      exact .of_retires (winds.heap s.fresh)

end Rousette.Restconf.Subscriptions
