import Rousette.Restconf.SubscriptionLifecycle

/-!
# Expiry of the inactivity timer

The handler of the inactivity timer terminates a subscription by its id.  Connecting a
client cancels the timer, but a completion which is queued by then still runs, and the
handler does not look at the state of the subscription.  A subscription in use is spared
along the runs in which no client comes while such a completion is queued.
-/

namespace Rousette.Restconf.Subscriptions

open Library
open Libyang (DataFormat)

/-- If the event is the handler of an inactivity timer which goes on to
`terminateSubscription`, no client is attached to a subscription with the id which it
passes. -/
def Spares (s : Subscriptions) (event : Event) : Prop :=
  ∀ index wait self, event = .complete index → s.waits[index]? = some wait →
    wait.status = .expired → wait.weakThis = some self → s.alive self = true →
    ∀ ref, s.alive ref = true → (s.heap ref).subscriptionId = (s.heap self).subscriptionId →
      (s.heap ref).state ≠ .receiverActive

/-- No client is connected to a subscription while a completion of its timer which will
find it is queued. -/
def Punctual (s : Subscriptions) : Event → Prop
  | .connect => ∀ ref, s.io = .accepted ref → ∀ wait ∈ s.waits, wait.weakThis = some ref →
      wait.status ≠ .expired
  | _ => True

/-- What sysrepo promises about the ids of subscriptions: a new one has none which is still
in use. -/
def NewId (s : Subscriptions) : Event → Prop
  | .establish _ _ _ (.ok subscriptionId) _ _ =>
      ∀ ref, s.alive ref = true → (s.heap ref).subscriptionId ≠ subscriptionId
  | _ => True

theorem Retires.subscriptionId {old new : SubscriptionData} (retires : Retires old new) :
    new.subscriptionId = old.subscriptionId := by
  rcases retires with rfl | ⟨_, rfl | rfl⟩ <;> rfl

/-- No two subscriptions have the same id. -/
def UniqueIds (s : Subscriptions) : Prop :=
  ∀ ref other, s.alive ref = true → s.alive other = true →
    (s.heap ref).subscriptionId = (s.heap other).subscriptionId → ref = other

/-- All waits on the timer of a subscription in use are aborted. -/
def Cancelled (s : Subscriptions) : Prop :=
  ∀ ref wait, (s.heap ref).state = .receiverActive → wait ∈ s.waits →
    wait.weakThis = some ref → wait.status = .aborted

section Steps

variable {recoveryUser : Str} {events : List Event} {s t : Subscriptions} {event : Event}

/-- Nothing but a new subscription comes to life. -/
theorem alive_of_step (invariant : Invariant events s)
    (taken : s.step recoveryUser event = some t) {ref : SubscriptionRef}
    (live : t.alive ref = true) : s.alive ref = true ∨ ref = s.fresh := by
  rcases step_cases invariant taken with ⟨_, settles⟩ |
    ⟨subscriptionId, dataFormat, uuid, user, _, _, rfl⟩ | ⟨closed, _, active, rfl⟩
  · exact .inl (settles.alive live)
  · have placed := (Settles.releaseAll _ _).alive live
    rw [alive_iff] at placed
    rcases placed with ⟨key, member⟩ | others
    · rcases List.mem_append.mp member with older | new
      · have inside := (List.mem_filter.mp older).1
        have kept : (s.construct subscriptionId dataFormat uuid user).registry = s.registry := by
          simp [construct, inactivityStart]
        rw [kept] at inside
        exact .inl (alive_iff.mpr (.inl ⟨key, inside⟩))
      · cases List.mem_singleton.mp new
        exact .inr rfl
    · left
      refine alive_iff.mpr (.inr ?_)
      simpa [construct, inactivityStart] using others
  · left
    refine (Settles.closeStream active).alive ?_
    unfold clientDisconnected inactivityStart at live
    split at live
    · exact live
    · split at live <;> exact live

/-- A subscription keeps its id. -/
theorem subscriptionId_of_step (taken : s.step recoveryUser event = some t)
    {ref : SubscriptionRef} (known : ref < s.fresh) :
    (t.heap ref).subscriptionId = (s.heap ref).subscriptionId := by
  have updated : ∀ (other : SubscriptionRef) (change : SubscriptionData → SubscriptionData),
      (∀ sub, (change sub).subscriptionId = sub.subscriptionId) →
      ((s.update other change).heap ref).subscriptionId = (s.heap ref).subscriptionId := by
    intro other change same
    simp only [update]
    split
    · exact same _
    · rfl
  cases step_effect taken with
  | winds winds => exact (winds.heap ref).subscriptionId
  | establish _ _ winds =>
      rw [(winds.heap ref).subscriptionId]
      simp [place, Nat.ne_of_lt known]
  | @connect accepted _ =>
      rw [attach_heap]
      exact updated accepted _ fun _ => rfl
  | @disconnect closed _ _ =>
      by_cases terminating : (s.heap closed).state = .terminating
      · rw [detach_of_terminating terminating]
      · rw [detach_of_running terminating]
        exact updated closed (fun sub => { sub with state := .start }) fun _ => rfl
  | expire => rfl
  | @deleteTerminate deleted _ _ _ winds =>
      rw [(winds.heap ref).subscriptionId]
      exact updated deleted _ fun _ => rfl

/-- The id of a new subscription is the one which sysrepo has chosen. -/
theorem newId_of_step (newId : NewId s event) (taken : s.step recoveryUser event = some t)
    (new : s.fresh < t.fresh) :
    ∀ ref, s.alive ref = true → (s.heap ref).subscriptionId ≠ (t.heap s.fresh).subscriptionId := by
  have stays : t.fresh = s.fresh → False := fun same => Nat.lt_irrefl _ (same ▸ new)
  cases step_effect taken with
  | winds winds => exact (stays winds.fresh).elim
  | establish _ _ winds =>
      intro ref live
      rw [(winds.heap s.fresh).subscriptionId]
      simpa [place] using newId ref live
  | connect => exact (stays rfl).elim
  | disconnect => exact (stays (detach_fresh s _)).elim
  | expire => exact (stays rfl).elim
  | deleteTerminate _ winds => exact (stays winds.fresh).elim

/-- Ids stay unique. -/
theorem UniqueIds.step (unique : UniqueIds s) (invariant : Invariant events s)
    (newId : NewId s event) (taken : s.step recoveryUser event = some t) : UniqueIds t := by
  intro ref other live otherLive same
  have keeps : ∀ {ref}, s.alive ref = true →
      (t.heap ref).subscriptionId = (s.heap ref).subscriptionId :=
    fun before => subscriptionId_of_step taken (invariant.alive_fresh before)
  have new : ∀ {ref}, t.alive ref = true → ref = s.fresh → s.fresh < t.fresh :=
    fun live fresh => fresh ▸ (invariant.step taken).alive_fresh live
  rcases alive_of_step invariant taken live with before | fresh
  · rcases alive_of_step invariant taken otherLive with otherBefore | otherFresh
    · rw [keeps before, keeps otherBefore] at same
      exact unique ref other before otherBefore same
    · rw [keeps before, otherFresh] at same
      exact absurd same (newId_of_step newId taken (new otherLive otherFresh) ref before)
  · rcases alive_of_step invariant taken otherLive with otherBefore | otherFresh
    · rw [keeps otherBefore, fresh] at same
      exact absurd same.symm (newId_of_step newId taken (new live fresh) other otherBefore)
    · rw [fresh, otherFresh]

end Steps

namespace Cancelled

variable {s t : Subscriptions}

theorem winds (cancelled : Cancelled s) (winds : Winds s t) : Cancelled t := by
  intro ref wait state member weakThis
  obtain ⟨old, inside, stems⟩ := winds.exists_wait member
  have same := (winds.heap ref).eq_of_running (by simp [state])
  exact stems.aborted (cancelled ref old (same ▸ state) inside (stems.weakThis ▸ weakThis))

/-- Another subscription gets a new wait. -/
theorem arm (cancelled : Cancelled s) {armed : SubscriptionRef} {added : Wait}
    (weakThis : added.weakThis = some armed ∨ added.weakThis = none)
    (heap : ∀ ref, (t.heap ref).state = .receiverActive →
      ref ≠ armed ∧ (s.heap ref).state = .receiverActive)
    (waits : t.waits = s.waits.map (Wait.cancel armed) ++ [added]) : Cancelled t := by
  intro ref wait state member captured
  obtain ⟨another, before⟩ := heap ref state
  rw [waits] at member
  rcases List.mem_append.mp member with older | new
  · obtain ⟨old, inside, rfl⟩ := List.mem_map.mp older
    have stems := Wait.StemsFrom.cancel armed old
    exact stems.aborted (cancelled ref old before inside (stems.weakThis ▸ captured))
  · cases List.mem_singleton.mp new
    rcases weakThis with own | empty
    · rw [own, Option.some.injEq] at captured
      exact absurd captured.symm another
    · simp [empty] at captured

theorem place (cancelled : Cancelled s) (subscriptionId : Nat) (dataFormat : DataFormat)
    (uuid : Uuid) (user : Str) : Cancelled (s.place subscriptionId dataFormat uuid user) := by
  refine cancelled.arm (.inr rfl) ?_ rfl
  intro ref state
  by_cases same : ref = s.fresh
  · simp [Subscriptions.place, same] at state
  · exact ⟨same, by simpa [Subscriptions.place, same] using state⟩

theorem detach (cancelled : Cancelled s) (ref : SubscriptionRef) : Cancelled (s.detach ref) := by
  by_cases terminating : (s.heap ref).state = .terminating
  · rw [detach_of_terminating terminating]
    exact cancelled
  · rw [detach_of_running terminating]
    refine cancelled.arm (.inl rfl) ?_ rfl
    intro other state
    by_cases same : other = ref
    · simp [Subscriptions.update, same] at state
    · exact ⟨same, by simpa [Subscriptions.update, same] using state⟩

/-- A client is connected: what is still pending is aborted, and nothing may be queued. -/
theorem attach {events : List Event} (cancelled : Cancelled s) (invariant : Invariant events s)
    {ref : SubscriptionRef}
    (punctual : ∀ wait ∈ s.waits, wait.weakThis = some ref → wait.status ≠ .expired) :
    Cancelled (s.attach ref) := by
  intro other wait state member weakThis
  rw [attach_waits] at member
  obtain ⟨old, inside, rfl⟩ := List.mem_map.mp member
  have stems := Wait.StemsFrom.cancel ref old
  rw [stems.weakThis] at weakThis
  rw [attach_heap] at state
  by_cases same : other = ref
  · subst same
    have timer := (invariant.weak inside weakThis).1
    have queued := punctual old inside weakThis
    cases status : old.status with
    | pending => simp [Wait.cancel, ← timer, status]
    | expired => exact absurd status queued
    | aborted => exact stems.aborted status
  · rw [update_heap_other s _ same] at state
    exact stems.aborted (cancelled other old state inside weakThis)

theorem step {recoveryUser : Str} {events : List Event} {event : Event} (cancelled : Cancelled s)
    (invariant : Invariant events s) (punctual : Punctual s event)
    (taken : s.step recoveryUser event = some t) : Cancelled t := by
  cases step_effect taken with
  | winds winds => exact cancelled.winds winds
  | establish _ _ winds => exact (cancelled.place _ _ _ _).winds winds
  | connect io => exact cancelled.attach invariant (punctual _ io)
  | disconnect => exact cancelled.detach _
  | expire present pending =>
      intro ref wait state member weakThis
      rcases List.mem_or_eq_of_mem_set member with older | rfl
      · exact cancelled ref wait state older weakThis
      · have aborted := cancelled ref _ state (List.mem_of_getElem? present) weakThis
        simp [pending] at aborted
  | @deleteTerminate deleted _ _ _ winds =>
      have asked : Cancelled (s.update deleted fun sub =>
          { sub with terminateCalls := sub.terminateCalls + 1 }) := by
        intro ref wait state member weakThis
        refine cancelled ref wait ?_ member weakThis
        simp only [update] at state
        split at state <;> exact state
      exact asked.winds winds

end Cancelled

/-- In every run in which no client is connected while a completion is queued, the handler
of the inactivity timer spares the subscriptions in use. -/
theorem spares_of_punctual {recoveryUser : Str} {events : List Event} {s : Subscriptions}
    (run : RunWhen (fun s event => Punctual s event ∧ NewId s event)
      (Subscriptions.step recoveryUser) empty events s) (event : Event) : Spares s event := by
  have both : Cancelled s ∧ UniqueIds s := by
    have initial : Cancelled empty ∧ UniqueIds empty := by
      constructor
      · simp [Cancelled, empty]
      · simp [UniqueIds, empty, alive, IoTask.holds]
    refine run.invariant initial ?_
    intro _ _ _ _ earlier before allowed taken
    have invariant := Invariant.of_run earlier.run
    exact ⟨before.1.step invariant allowed.1 taken, before.2.step invariant allowed.2 taken⟩
  intro index wait self _ present expired weakThis live ref refLive same state
  obtain rfl : ref = self := both.2 ref self refLive live same
  have aborted := both.1 ref wait state (List.mem_of_getElem? present) weakThis
  simp [expired] at aborted

/-- The client of the first subscription goes, and the timer expires. -/
def expiredVisit : List Event := visit ++ [.expire 1]

theorem expiredVisit_spares : ∃ s,
    RunWhen (fun s event => Punctual s event ∧ NewId s event) (Subscriptions.step (str "root"))
        empty expiredVisit s ∧
      s.waits[1]? = some ⟨0, some 0, .expired⟩ ∧ Spares s (.complete 1) := by
  have run : ∃ s, RunWhen (fun s event => Punctual s event ∧ NewId s event)
      (Subscriptions.step (str "root")) empty expiredVisit s ∧
      s.waits[1]? = some ⟨0, some 0, .expired⟩ := by
    refine ⟨_, .snoc (.snoc (.snoc (.snoc (.snoc (.snoc .nil ⟨trivial, ?_⟩ rfl)
      ⟨trivial, trivial⟩ rfl) ⟨trivial, trivial⟩ rfl) ⟨?_, trivial⟩ rfl) ⟨trivial, trivial⟩ rfl)
      ⟨trivial, trivial⟩ rfl, rfl⟩
    · intro ref live
      simp [empty, alive, IoTask.holds] at live
    · intro ref accepted wait member weakThis
      cases List.mem_singleton.mp member
      cases weakThis
  obtain ⟨s, run, queued⟩ := run
  exact ⟨s, run, queued, spares_of_punctual run _⟩

/-- Another client comes while the completion is queued, and loses its subscription. -/
theorem lateVisit_not_spared : ∃ s t, Run (Subscriptions.step (str "root")) empty
      (expiredVisit ++ [.find 7 (some (str "dwdm")), .checkReady, .connect]) s ∧
    (s.heap 0).state = .receiverActive ∧ 0 ∈ s.activeStreams ∧ ¬Spares s (.complete 1) ∧
    s.step (str "root") (.complete 1) = some t ∧ (t.heap 0).state = .terminating := by
  refine ⟨_, _, .of_execute rfl, rfl, List.mem_singleton_self _, ?_, rfl, rfl⟩
  intro spares
  exact spares 1 ⟨0, some 0, .expired⟩ 0 rfl rfl rfl rfl rfl 0 rfl rfl rfl

end Rousette.Restconf.Subscriptions
