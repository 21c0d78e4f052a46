import Mathlib.Data.List.Forall2
import Rousette.Restconf.InactiveSubscriptions

/-!
# What the steps of subscriptions do

Most steps only wind something down: references are given up, waits are aborted or
completed, and subscriptions are terminated.  A subscription is added by
`establish`, and only `connect`, `disconnect`, `expire` and `deleteTerminate` do
something else to one.  The invariants of the later modules are proved for these
five steps and for winding down.
-/

namespace Rousette.Restconf.Subscriptions

open Library
open Libyang (DataFormat)

/-! ## Winding down -/

/-- A wait as it was, or aborted before it has expired. -/
def Wait.StemsFrom (new old : Wait) : Prop :=
  new = old ∨ old.status = .pending ∧ new = { old with status := .aborted }

namespace Wait.StemsFrom

variable {newer new old : Wait}

instance : Std.Refl Wait.StemsFrom := ⟨fun _ => .inl rfl⟩

instance : IsTrans Wait Wait.StemsFrom where
  trans := by
    rintro newer new old second (rfl | ⟨pending, rfl⟩)
    · exact second
    · rcases second with rfl | ⟨again, _⟩
      · exact .inr ⟨pending, rfl⟩
      · cases again

theorem timer (stems : Wait.StemsFrom new old) : new.timer = old.timer := by
  rcases stems with rfl | ⟨_, rfl⟩ <;> rfl

theorem weakThis (stems : Wait.StemsFrom new old) : new.weakThis = old.weakThis := by
  rcases stems with rfl | ⟨_, rfl⟩ <;> rfl

/-- What was aborted stays so. -/
theorem aborted (stems : Wait.StemsFrom new old) (status : old.status = .aborted) :
    new.status = .aborted := by
  rcases stems with rfl | ⟨_, rfl⟩
  · exact status
  · rfl

theorem cancel (ref : SubscriptionRef) (wait : Wait) :
    Wait.StemsFrom (Wait.cancel ref wait) wait := by
  unfold Wait.cancel
  split
  next pending => exact .inr ⟨pending.2, rfl⟩
  · exact .inl rfl

end Wait.StemsFrom

/-- A subscription as it was, or terminated, for which sysrepo is asked at most once. -/
def Retires (old new : SubscriptionData) : Prop :=
  new = old ∨ old.state ≠ .terminating ∧
    (new = { old with state := .terminating } ∨
      new = { old with state := .terminating, terminateCalls := old.terminateCalls + 1 })

namespace Retires

variable {old new newer : SubscriptionData}

theorem trans (first : Retires old new) (second : Retires new newer) : Retires old newer := by
  rcases first with rfl | ⟨running, terminated⟩
  · exact second
  · have done : new.state = .terminating := by
      rcases terminated with rfl | rfl <;> rfl
    rcases second with rfl | ⟨again, _⟩
    · exact .inr ⟨running, terminated⟩
    · exact absurd done again

theorem eq_of_running (retires : Retires old new) (running : new.state ≠ .terminating) :
    new = old := by
  rcases retires with same | ⟨_, rfl | rfl⟩
  · exact same
  · exact absurd rfl running
  · exact absurd rfl running

theorem eq_of_terminating (retires : Retires old new) (terminated : old.state = .terminating) :
    new = old := by
  rcases retires with same | ⟨running, _⟩
  · exact same
  · exact absurd terminated running

end Retires

/-- References are given up, waits are aborted or completed, and subscriptions are
terminated.  The io thread may accept a client for a subscription which is ready, and
`stop` may begin with the registered ones. -/
structure Winds (s t : Subscriptions) : Prop where
  fresh : t.fresh = s.fresh
  registry : t.registry.Sublist s.registry
  active : t.activeStreams = s.activeStreams
  heap : ∀ ref, Retires (s.heap ref) (t.heap ref)
  waits : List.SublistForall₂ Wait.StemsFrom t.waits s.waits
  accepted : ∀ {ref}, t.io = .accepted ref →
    s.io = .accepted ref ∨ (s.heap ref).state = .start
  stopping : ∀ {refs ref}, t.stopping = some refs → ref ∈ refs →
    (∃ earlier, s.stopping = some earlier ∧ ref ∈ earlier) ∨ s.Registered ref

namespace Winds

variable {s t u : Subscriptions}

theorem registered (winds : Winds s t) {ref : SubscriptionRef} :
    t.Registered ref → s.Registered ref
  | ⟨uuid, member⟩ => ⟨uuid, winds.registry.subset member⟩

/-- Every wait stems from one which was there before. -/
theorem exists_wait (winds : Winds s t) {wait : Wait} (member : wait ∈ t.waits) :
    ∃ old ∈ s.waits, Wait.StemsFrom wait old := by
  obtain ⟨kept, matched, inside⟩ := List.sublistForall₂_iff.mp winds.waits
  obtain ⟨index, atIndex, rfl⟩ := List.getElem_of_mem member
  have bound : index < kept.length := by rwa [← matched.length_eq]
  exact ⟨kept[index], inside.subset (List.getElem_mem bound), matched.get atIndex bound⟩

/-- Only what `stop` is still to do changes, and it is about known subscriptions. -/
theorem setStopping {now : Option (List SubscriptionRef)}
    (known : ∀ {refs ref}, now = some refs → ref ∈ refs →
      (∃ earlier, s.stopping = some earlier ∧ ref ∈ earlier) ∨ s.Registered ref) :
    Winds s { s with stopping := now } where
  fresh := rfl
  registry := .refl _
  active := rfl
  heap _ := .inl rfl
  waits := Std.Refl.refl _
  accepted := .inl
  stopping := known

theorem refl (s : Subscriptions) : Winds s s :=
  setStopping fun stopping member => .inl ⟨_, stopping, member⟩

theorem trans (first : Winds s t) (second : Winds t u) : Winds s u where
  fresh := second.fresh.trans first.fresh
  registry := second.registry.trans first.registry
  active := second.active.trans first.active
  heap ref := (first.heap ref).trans (second.heap ref)
  waits := IsTrans.trans _ _ _ second.waits first.waits
  accepted := by
    intro ref accepted
    rcases second.accepted accepted with before | start
    · exact first.accepted before
    · right
      rw [← (first.heap ref).eq_of_running (by simp [start])]
      exact start
  stopping := by
    intro refs ref stopping member
    rcases second.stopping stopping member with ⟨earlier, before, inside⟩ | registered
    · exact first.stopping before inside
    · exact .inr (first.registered registered)

/-- Giving up references, without touching heap and timers. -/
theorem of_references (heap : t.heap = s.heap) (fresh : t.fresh = s.fresh)
    (waits : t.waits = s.waits) (registry : t.registry.Sublist s.registry)
    (active : t.activeStreams = s.activeStreams) (stopping : t.stopping = s.stopping)
    (accepted : ∀ {ref}, t.io = .accepted ref →
      s.io = .accepted ref ∨ (s.heap ref).state = .start) : Winds s t where
  fresh := fresh
  registry := registry
  active := active
  heap _ := .inl (by rw [heap])
  waits := waits ▸ Std.Refl.refl _
  accepted := accepted
  stopping := by
    intro refs ref during member
    exact .inl ⟨refs, stopping ▸ during, member⟩

theorem update (s : Subscriptions) (ref : SubscriptionRef)
    {change : SubscriptionData → SubscriptionData}
    (retires : Retires (s.heap ref) (change (s.heap ref))) : Winds s (s.update ref change) where
  fresh := rfl
  registry := .refl _
  active := rfl
  heap other := by
    simp only [Subscriptions.update]
    split
    next same => exact same ▸ retires
    · exact .inl rfl
  waits := Std.Refl.refl _
  accepted := .inl
  stopping stopping member := .inl ⟨_, stopping, member⟩

theorem inactivityCancel (s : Subscriptions) (ref : SubscriptionRef) :
    Winds s (s.inactivityCancel ref) where
  fresh := rfl
  registry := .refl _
  active := rfl
  heap _ := .inl rfl
  waits := by
    refine List.sublistForall₂_map_left_iff.mpr (List.sublistForall₂_iff.mpr ?_)
    refine ⟨s.waits, List.forall₂_same.mpr fun wait _ => ?_, .refl _⟩
    exact Wait.StemsFrom.cancel ref wait
  accepted := .inl
  stopping stopping member := .inl ⟨_, stopping, member⟩

theorem terminate (s : Subscriptions) (ref : SubscriptionRef) : Winds s (s.terminate ref) := by
  unfold Subscriptions.terminate
  split
  · exact refl s
  next running => exact update s ref (.inr ⟨running, .inr rfl⟩)

theorem stopSubscription (s : Subscriptions) (ref : SubscriptionRef) :
    Winds s (s.stopSubscription ref) := by
  refine (inactivityCancel s ref).trans (update _ ref ?_)
  by_cases terminating : (s.heap ref).state = .terminating
  · left
    change { s.heap ref with state := .terminating } = s.heap ref
    rw [← terminating]
  · exact .inr ⟨terminating, .inl rfl⟩

theorem release (s : Subscriptions) (ref : SubscriptionRef) : Winds s (s.release ref) := by
  unfold Subscriptions.release
  split
  · exact refl s
  · exact (inactivityCancel s ref).trans (terminate _ ref)

theorem releaseAll (s : Subscriptions) (entries : List (Uuid × SubscriptionRef)) :
    Winds s (entries.foldl (fun t entry => t.release entry.2) s) := by
  induction entries generalizing s with
  | nil => exact refl s
  | cons entry entries ih => exact (release s entry.2).trans (ih _)

theorem erase (s : Subscriptions) (uuid : Uuid) : Winds s (s.erase uuid) :=
  of_references rfl rfl rfl List.filter_sublist rfl rfl .inl

theorem terminateSubscription (s : Subscriptions) (subId : Nat) :
    Winds s (s.terminateSubscription subId) := by
  unfold Subscriptions.terminateSubscription
  split
  · exact refl s
  · exact ((terminate s _).trans (erase _ _)).trans (release _ _)

theorem inactivityHandler (s : Subscriptions) (wait : Wait) :
    Winds s (s.inactivityHandler wait) := by
  unfold Subscriptions.inactivityHandler
  split
  · exact refl s
  · split
    · exact terminateSubscription s _
    · exact refl s

/-- A completed wait is removed. -/
theorem eraseWait (s : Subscriptions) (index : Nat) :
    Winds s { s with waits := s.waits.eraseIdx index } where
  fresh := rfl
  registry := .refl _
  active := rfl
  heap _ := .inl rfl
  waits := (List.eraseIdx_sublist ..).sublistForall₂
  accepted := .inl
  stopping stopping member := .inl ⟨_, stopping, member⟩

/-- `stop` begins with all registered subscriptions. -/
theorem stop (s : Subscriptions) :
    Winds s { s with stopping := some (s.registry.map Prod.snd) } := by
  apply setStopping
  intro refs ref during member
  cases during
  obtain ⟨⟨uuid, _⟩, inside, rfl⟩ := List.mem_map.mp member
  exact .inr ⟨uuid, inside⟩

/-- `stop` goes on. -/
theorem stopFewer {fewer : Option (List SubscriptionRef)}
    (inside : ∀ refs, fewer = some refs → ∀ ref ∈ refs,
      ∃ earlier, s.stopping = some earlier ∧ ref ∈ earlier) :
    Winds s { s with stopping := fewer } := by
  apply setStopping
  intro refs ref during member
  exact .inl (inside refs during ref member)

/-- The io thread moves on to a task which does not accept a client. -/
theorem io (s : Subscriptions) {task : IoTask} (other : ∀ ref, task ≠ .accepted ref) :
    Winds s { s with io := task } :=
  of_references rfl rfl rfl (.refl _) rfl rfl fun accepted => absurd accepted (other _)

end Winds

/-! ## The effect of a step -/

/-- A new subscription under its key of the registry. -/
def place (s : Subscriptions) (subscriptionId : Nat) (dataFormat : DataFormat) (uuid : Uuid)
    (user : Str) : Subscriptions :=
  { s with
    heap := fun r =>
      if r = s.fresh then ⟨subscriptionId, dataFormat, uuid, user, .start, 0⟩ else s.heap r
    fresh := s.fresh + 1
    registry := s.registry.filter (·.1 != uuid) ++ [(uuid, s.fresh)]
    waits := s.waits.map (Wait.cancel s.fresh) ++ [⟨s.fresh, none, .pending⟩] }

/-- A client is attached to the subscription by a new event stream. -/
def attach (s : Subscriptions) (ref : SubscriptionRef) : Subscriptions :=
  { s.clientConnected ref with io := .idle, activeStreams := ref :: s.activeStreams }

/-- An event stream of the subscription is closed. -/
def detach (s : Subscriptions) (ref : SubscriptionRef) : Subscriptions :=
  { s with
    activeStreams := s.activeStreams.erase ref
    closedStreams := ref :: s.closedStreams }.clientDisconnected ref

theorem detach_of_terminating {s : Subscriptions} {ref : SubscriptionRef}
    (terminating : (s.heap ref).state = .terminating) :
    s.detach ref =
      { s with
        activeStreams := s.activeStreams.erase ref
        closedStreams := ref :: s.closedStreams } := by
  simp [detach, clientDisconnected, terminating]

theorem detach_of_running {s : Subscriptions} {ref : SubscriptionRef}
    (running : (s.heap ref).state ≠ .terminating) :
    s.detach ref =
      { s.update ref fun sub => { sub with state := .start } with
        activeStreams := s.activeStreams.erase ref
        closedStreams := ref :: s.closedStreams
        waits := s.waits.map (Wait.cancel ref) ++ [⟨ref, some ref, .pending⟩] } := by
  simp [detach, clientDisconnected, running, inactivityStart, update]

@[simp] theorem detach_activeStreams (s : Subscriptions) (ref : SubscriptionRef) :
    (s.detach ref).activeStreams = s.activeStreams.erase ref := by
  by_cases terminating : (s.heap ref).state = .terminating
  · rw [detach_of_terminating terminating]
  · rw [detach_of_running terminating]

@[simp] theorem detach_io (s : Subscriptions) (ref : SubscriptionRef) :
    (s.detach ref).io = s.io := by
  by_cases terminating : (s.heap ref).state = .terminating
  · rw [detach_of_terminating terminating]
  · rw [detach_of_running terminating]
    rfl

@[simp] theorem detach_fresh (s : Subscriptions) (ref : SubscriptionRef) :
    (s.detach ref).fresh = s.fresh := by
  by_cases terminating : (s.heap ref).state = .terminating
  · rw [detach_of_terminating terminating]
  · rw [detach_of_running terminating]
    rfl

theorem detach_heap_other (s : Subscriptions) {ref other : SubscriptionRef}
    (another : other ≠ ref) : (s.detach ref).heap other = s.heap other := by
  by_cases terminating : (s.heap ref).state = .terminating
  · rw [detach_of_terminating terminating]
  · rw [detach_of_running terminating]
    simp [update, another]

theorem attach_heap (s : Subscriptions) (ref : SubscriptionRef) :
    (s.attach ref).heap = (s.update ref fun sub => { sub with state := .receiverActive }).heap :=
  rfl

theorem attach_waits (s : Subscriptions) (ref : SubscriptionRef) :
    (s.attach ref).waits = s.waits.map (Wait.cancel ref) := rfl

theorem update_heap_self (s : Subscriptions) (ref : SubscriptionRef)
    (change : SubscriptionData → SubscriptionData) :
    (s.update ref change).heap ref = change (s.heap ref) := by
  simp [update]

theorem update_heap_other (s : Subscriptions) {ref other : SubscriptionRef}
    (change : SubscriptionData → SubscriptionData) (another : other ≠ ref) :
    (s.update ref change).heap other = s.heap other := by
  simp [update, another]

/-- What a step does. -/
inductive Effect (s : Subscriptions) : Event → Subscriptions → Prop where
  | winds {event : Event} {t : Subscriptions} (winds : Winds s t) : Effect s event t
  | establish {requestSchemeAndHost encoding : Option Str} {requestEncoding dataFormat : DataFormat}
      {subscriptionId : Nat} {uuid : Uuid} {user : Str} {t : Subscriptions}
      (quiet : s.quiet = true) (unique : s.findById subscriptionId = none)
      (winds : Winds (s.place subscriptionId dataFormat uuid user) t) :
      Effect s (.establish requestSchemeAndHost encoding requestEncoding (.ok subscriptionId) uuid
        user) t
  | connect {ref : SubscriptionRef} (io : s.io = .accepted ref) : Effect s .connect (s.attach ref)
  | disconnect {ref : SubscriptionRef} (io : s.io = .idle) (active : ref ∈ s.activeStreams) :
      Effect s (.disconnect ref) (s.detach ref)
  | expire {index : Nat} {wait : Wait} (present : s.waits[index]? = some wait)
      (pending : wait.status = .pending) :
      Effect s (.expire index)
        { s with waits := s.waits.set index { wait with status := .expired } }
  | deleteTerminate {ref : SubscriptionRef} {error : Option Sysrepo.ErrorWithCode}
      {t : Subscriptions} (io : s.io = .deleting ref)
      (winds : Winds (s.update ref fun sub =>
        { sub with terminateCalls := sub.terminateCalls + 1 }) t) :
      Effect s (.deleteTerminate error) t

/-- The subscription which was under the key before loses its owner. -/
theorem winds_assign (s : Subscriptions) (subscriptionId : Nat) (dataFormat : DataFormat)
    (uuid : Uuid) (user : Str) :
    Winds (s.place subscriptionId dataFormat uuid user)
      ((s.construct subscriptionId dataFormat uuid user).assign uuid s.fresh) := by
  have placed : { s.construct subscriptionId dataFormat uuid user with
      registry := (s.construct subscriptionId dataFormat uuid user).registry.filter
        (·.1 != uuid) ++ [(uuid, s.fresh)] } =
      s.place subscriptionId dataFormat uuid user := by
    simp [construct, inactivityStart, place]
  rw [assign, ← placed]
  exact Winds.releaseAll _ _

theorem effect_of_establish {s t : Subscriptions} {requestSchemeAndHost encoding : Option Str}
    {requestEncoding : DataFormat} {made : Except Exception Nat} {uuid : Uuid} {user : Str}
    (quiet : s.quiet = true) (unique : made.toOption.all fun id => (s.findById id).isNone)
    (established : s.establishSubscription requestSchemeAndHost encoding requestEncoding made uuid
      user = .ok t) :
    Effect s (.establish requestSchemeAndHost encoding requestEncoding made uuid user) t := by
  obtain ⟨subscriptionId, dataFormat, rfl, rfl⟩ := establishSubscription_eq_ok established
  exact .establish quiet (by simpa [Except.toOption] using unique) (winds_assign ..)

/-- What a step can do. -/
theorem step_effect {recoveryUser : Str} {s t : Subscriptions} {event : Event}
    (taken : s.step recoveryUser event = some t) : Effect s event t := by
  cases event with
  | establish requestSchemeAndHost encoding requestEncoding made uuid user =>
      simp only [Subscriptions.step] at taken
      split at taken
      next possible =>
        rw [Bool.and_eq_true] at possible
        split at taken
        next next established =>
          cases taken
          exact effect_of_establish possible.1 possible.2 established
        · cases taken
          exact .winds (.refl s)
      · cases taken
  | find uuid user =>
      simp only [Subscriptions.step] at taken
      split at taken
      · split at taken
        · cases taken
          exact .winds (.io s fun _ => by simp)
        · cases taken
          exact .winds (.refl s)
      · cases taken
  | checkReady =>
      simp only [Subscriptions.step] at taken
      split at taken
      next ref task =>
        split at taken
        next ready =>
          cases taken
          refine .winds (.of_references rfl rfl rfl (.refl _) rfl rfl ?_)
          intro other accepted
          cases accepted
          exact .inr (by simpa [isReadyToAcceptClient] using ready)
        · cases taken
          exact .winds ((Winds.io s fun _ => by simp).trans (.release _ ref))
      · cases taken
  | connect =>
      simp only [Subscriptions.step] at taken
      split at taken
      next ref task =>
        cases taken
        exact .connect task
      · cases taken
  | disconnect ref =>
      simp only [Subscriptions.step] at taken
      split at taken
      next possible =>
        simp only [Bool.and_eq_true, beq_iff_eq, List.contains_iff_mem] at possible
        cases taken
        exact .disconnect possible.1 possible.2
      · cases taken
  | destroyStream ref =>
      simp only [Subscriptions.step] at taken
      split at taken
      · cases taken
        have dropped : Winds s { s with closedStreams := s.closedStreams.erase ref } :=
          .of_references rfl rfl rfl (.refl _) rfl rfl .inl
        exact .winds (dropped.trans (.release _ ref))
      · cases taken
  | delete isKill subId user =>
      simp only [Subscriptions.step] at taken
      split at taken
      · split at taken
        · cases taken
          exact .winds (.io s fun _ => by simp)
        · cases taken
          exact .winds (.refl s)
      · cases taken
  | deleteTerminate error =>
      simp only [Subscriptions.step] at taken
      split at taken
      next ref task =>
        split at taken
        · cases taken
          exact .deleteTerminate task (.io _ fun _ => by simp)
        · cases taken
          exact .deleteTerminate task ((Winds.io _ fun _ => by simp).trans (.release _ ref))
      · cases taken
  | deleteErase =>
      simp only [Subscriptions.step] at taken
      split at taken
      next ref task _ =>
        cases taken
        exact .winds (((Winds.erase s _).trans (.io _ fun _ => by simp)).trans (.release _ ref))
      · cases taken
  | expire index =>
      simp only [Subscriptions.step] at taken
      split at taken
      next wait present =>
        split at taken
        next pending =>
          cases taken
          exact .expire present pending
        · cases taken
      · cases taken
  | complete index =>
      simp only [Subscriptions.step] at taken
      split at taken
      next wait present =>
        split at taken
        · split at taken
          · cases taken
          · cases taken
            exact .winds (.eraseWait s index)
          · cases taken
            exact .winds ((Winds.eraseWait s index).trans (.inactivityHandler _ wait))
        · cases taken
      · cases taken
  | shutdown ref =>
      simp only [Subscriptions.step] at taken
      split at taken
      · cases taken
        exact .winds (.terminate s ref)
      · cases taken
  | stop =>
      simp only [Subscriptions.step] at taken
      split at taken
      · cases taken
        exact .winds (.stop s)
      · cases taken
  | stopNext =>
      simp only [Subscriptions.step] at taken
      split at taken
      next ref rest during =>
        cases taken
        refine .winds ((Winds.stopSubscription s ref).trans (.stopFewer ?_))
        intro refs same other member
        cases same
        exact ⟨_, during, List.mem_cons_of_mem _ member⟩
      · cases taken
        exact .winds (.stopFewer fun _ none => by cases none)
      · cases taken

end Rousette.Restconf.Subscriptions
