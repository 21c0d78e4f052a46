import Rousette.Restconf.DynamicSubscriptions

/-!
# Reaping of inactive subscriptions

A subscription in the registry which no client consumes is meant to be removed by
its inactivity timer.  The first wait on that timer is armed by the constructor,
where no shared pointer owns the object yet, so that its handler captures an empty
weak pointer and does nothing; later waits are armed when a client disconnects.
The result of this module is that the second kind of wait is what makes a
subscription reapable, along every run.
-/

namespace Rousette.Restconf.Subscriptions

open Library
open Libyang (DataFormat)

/-- Is the subscription in the registry? -/
def Registered (s : Subscriptions) (ref : SubscriptionRef) : Prop :=
  ∃ uuid, (uuid, ref) ∈ s.registry

/-- There is a wait on the timer of the subscription which was not aborted, and its
handler, run with success, terminates the subscription and removes it. -/
def Reapable (s : Subscriptions) (ref : SubscriptionRef) : Prop :=
  ∃ wait ∈ s.waits, wait.timer = ref ∧ wait.status ≠ .aborted ∧
    s.inactivityHandler wait = s.terminateSubscription (s.heap ref).subscriptionId ∧
    ¬(s.inactivityHandler wait).Registered ref

/-- A wait whose handler will find the subscription. -/
def Armed (s : Subscriptions) (ref : SubscriptionRef) : Prop :=
  ∃ wait ∈ s.waits, wait.timer = ref ∧ wait.weakThis = some ref ∧ wait.status ≠ .aborted

/-- What holds along every run. -/
structure Invariant (events : List Event) (s : Subscriptions) : Prop where
  alive_fresh : ∀ {ref}, s.alive ref = true → ref < s.fresh
  history_fresh : ∀ {ref}, Event.disconnect ref ∈ events → ref < s.fresh
  registry_uuid : ∀ {uuid ref}, (uuid, ref) ∈ s.registry → (s.heap ref).uuid = uuid
  registry_ids : ∀ {ref other}, s.Registered ref → s.Registered other →
    (s.heap ref).subscriptionId = (s.heap other).subscriptionId → ref = other
  weak : ∀ {wait target}, wait ∈ s.waits → wait.weakThis = some target →
    target = wait.timer ∧ Event.disconnect target ∈ events
  armed : ∀ {ref}, s.Registered ref → (s.heap ref).state = .start →
    Event.disconnect ref ∈ events → s.Armed ref

/-- A change which makes no subscription wait for a client and arms no timer.  It may
take a timer away only from a subscription which is no longer registered and waiting. -/
structure Settles (s t : Subscriptions) : Prop where
  fresh : t.fresh = s.fresh
  registry : ∀ {entry}, entry ∈ t.registry → entry ∈ s.registry
  alive : ∀ {ref}, t.alive ref = true → s.alive ref = true
  identity : ∀ ref, (t.heap ref).uuid = (s.heap ref).uuid ∧
    (t.heap ref).subscriptionId = (s.heap ref).subscriptionId
  start : ∀ {ref}, (t.heap ref).state = .start → (s.heap ref).state = .start
  waits : ∀ {wait}, wait ∈ t.waits →
    ∃ old ∈ s.waits, old.timer = wait.timer ∧ old.weakThis = wait.weakThis
  armed : ∀ {ref}, t.Registered ref → (t.heap ref).state = .start → s.Armed ref → t.Armed ref

theorem alive_iff {s : Subscriptions} {ref : SubscriptionRef} :
    s.alive ref = true ↔
      s.Registered ref ∨ s.io.holds = some ref ∨ ref ∈ s.activeStreams ∨
        ref ∈ s.closedStreams := by
  simp [alive, Registered, or_assoc]

theorem Settles.registered {s t : Subscriptions} (settles : Settles s t)
    {ref : SubscriptionRef} : t.Registered ref → s.Registered ref
  | ⟨uuid, member⟩ => ⟨uuid, settles.registry member⟩

/-- Settling keeps the invariant. -/
theorem Invariant.settle {events : List Event} {s t : Subscriptions}
    (invariant : Invariant events s) (settles : Settles s t) : Invariant events t where
  alive_fresh live := settles.fresh ▸ invariant.alive_fresh (settles.alive live)
  history_fresh member := settles.fresh ▸ invariant.history_fresh member
  registry_uuid := by
    intro uuid ref member
    rw [(settles.identity ref).1]
    exact invariant.registry_uuid (settles.registry member)
  registry_ids := by
    intro ref other refIn otherIn same
    rw [(settles.identity ref).2, (settles.identity other).2] at same
    exact invariant.registry_ids (settles.registered refIn) (settles.registered otherIn) same
  weak := by
    intro wait target member weakThis
    obtain ⟨old, oldMem, timer, weak⟩ := settles.waits member
    obtain ⟨same, disconnected⟩ := invariant.weak oldMem (weak.trans weakThis)
    exact ⟨same.trans timer, disconnected⟩
  armed := by
    intro ref refIn state disconnected
    exact settles.armed refIn state
      (invariant.armed (settles.registered refIn) (settles.start state) disconnected)

/-- Only the events which disconnect a client are looked up in the history. -/
theorem Invariant.note {events : List Event} {s : Subscriptions} {event : Event}
    (invariant : Invariant events s) (quiet : ∀ ref, event ≠ .disconnect ref) :
    Invariant (events ++ [event]) s := by
  have history : ∀ {ref}, Event.disconnect ref ∈ events ++ [event] ↔
      Event.disconnect ref ∈ events := by
    intro ref
    simp [(quiet ref).symm]
  constructor
  case alive_fresh => exact invariant.alive_fresh
  case history_fresh => exact fun member => invariant.history_fresh (history.mp member)
  case registry_uuid => exact invariant.registry_uuid
  case registry_ids => exact invariant.registry_ids
  case weak =>
    intro wait target member weakThis
    obtain ⟨same, disconnected⟩ := invariant.weak member weakThis
    exact ⟨same, history.mpr disconnected⟩
  case armed =>
    intro ref refIn state disconnected
    exact invariant.armed refIn state (history.mp disconnected)

namespace Settles

variable {s t u : Subscriptions}

theorem refl (s : Subscriptions) : Settles s s where
  fresh := rfl
  registry := id
  alive := id
  identity _ := ⟨rfl, rfl⟩
  start := id
  waits member := ⟨_, member, rfl, rfl⟩
  armed _ _ := id

theorem trans (first : Settles s t) (second : Settles t u) : Settles s u where
  fresh := second.fresh.trans first.fresh
  registry member := first.registry (second.registry member)
  alive live := first.alive (second.alive live)
  identity ref := ⟨(second.identity ref).1.trans (first.identity ref).1,
    (second.identity ref).2.trans (first.identity ref).2⟩
  start state := first.start (second.start state)
  waits := by
    intro wait member
    obtain ⟨middle, middleMem, timer, weak⟩ := second.waits member
    obtain ⟨old, oldMem, timer', weak'⟩ := first.waits middleMem
    exact ⟨old, oldMem, timer'.trans timer, weak'.trans weak⟩
  armed registered state armed :=
    second.armed registered state
      (first.armed (second.registered registered) (second.start state) armed)

/-- Dropping references, without touching heap and timers. -/
theorem of_references (heap : t.heap = s.heap) (fresh : t.fresh = s.fresh)
    (waits : t.waits = s.waits) (registry : ∀ {entry}, entry ∈ t.registry → entry ∈ s.registry)
    (alive : ∀ {ref}, t.alive ref = true → s.alive ref = true) : Settles s t where
  fresh := fresh
  registry := registry
  alive := alive
  identity _ := by rw [heap]; exact ⟨rfl, rfl⟩
  start := by rw [heap]; exact id
  waits := by rw [waits]; exact fun member => ⟨_, member, rfl, rfl⟩
  armed := by
    intro ref _ _ armed
    simpa only [Armed, waits] using armed

/-- Changing a subscription without making it wait for a client. -/
theorem update (s : Subscriptions) (ref : SubscriptionRef)
    {change : SubscriptionData → SubscriptionData}
    (uuid : ∀ sub, (change sub).uuid = sub.uuid)
    (subscriptionId : ∀ sub, (change sub).subscriptionId = sub.subscriptionId)
    (start : ∀ sub, (change sub).state = .start → sub.state = .start) :
    Settles s (s.update ref change) where
  fresh := rfl
  registry := id
  alive := id
  identity other := by
    simp only [Subscriptions.update]
    split
    · exact ⟨uuid _, subscriptionId _⟩
    · exact ⟨rfl, rfl⟩
  start := by
    intro other state
    simp only [Subscriptions.update] at state
    split at state
    · exact start _ state
    · exact state
  waits member := ⟨_, member, rfl, rfl⟩
  armed _ _ := id

theorem terminate (s : Subscriptions) (ref : SubscriptionRef) :
    Settles s (s.terminate ref) := by
  unfold Subscriptions.terminate
  split
  · exact refl s
  · exact update s ref (fun _ => rfl) (fun _ => rfl) (fun _ state => by simp at state)

/-- Cancelling the timer of a subscription which is not registered or will not be
waiting. -/
theorem cancel (s : Subscriptions) (ref : SubscriptionRef)
    {change : SubscriptionData → SubscriptionData}
    (uuid : ∀ sub, (change sub).uuid = sub.uuid)
    (subscriptionId : ∀ sub, (change sub).subscriptionId = sub.subscriptionId)
    (start : ∀ sub, (change sub).state = .start → sub.state = .start)
    (harmless : s.Registered ref → ∀ sub, (change sub).state ≠ .start) :
    Settles s ((s.inactivityCancel ref).update ref change) where
  fresh := rfl
  registry := id
  alive := id
  identity := (update s ref uuid subscriptionId start).identity
  start := (update s ref uuid subscriptionId start).start
  waits := by
    intro wait member
    obtain ⟨old, oldMem, rfl⟩ := List.mem_map.mp member
    refine ⟨old, oldMem, ?_, ?_⟩ <;>
      · unfold Wait.cancel
        split <;> rfl
  armed := by
    intro other registered state ⟨wait, member, timer, weakThis, status⟩
    have another : other ≠ ref := by
      rintro rfl
      simp only [Subscriptions.update, if_true] at state
      exact harmless registered _ state
    refine ⟨wait, List.mem_map.mpr ⟨wait, member, ?_⟩, timer, weakThis, status⟩
    have otherTimer : wait.timer ≠ ref := timer ▸ another
    simp [Wait.cancel, otherTimer]

theorem release (s : Subscriptions) (ref : SubscriptionRef) :
    Settles s (s.release ref) := by
  unfold Subscriptions.release
  split
  · exact refl s
  next dead =>
    have cancelled : Settles s (s.inactivityCancel ref) := by
      have unregistered : ¬s.Registered ref := fun registered =>
        dead (alive_iff.mpr (.inl registered))
      have same : (s.inactivityCancel ref).update ref id = s.inactivityCancel ref := by
        simp [Subscriptions.update]
      rw [← same]
      exact cancel s ref (fun _ => rfl) (fun _ => rfl) (fun _ => id)
        fun registered => absurd registered unregistered
    exact cancelled.trans (terminate _ ref)

theorem releaseAll (s : Subscriptions) (entries : List (Uuid × SubscriptionRef)) :
    Settles s (entries.foldl (fun t entry => t.release entry.2) s) := by
  induction entries generalizing s with
  | nil => exact refl s
  | cons entry entries ih => exact (release s entry.2).trans (ih _)

theorem erase (s : Subscriptions) (uuid : Uuid) : Settles s (s.erase uuid) := by
  have fewer : ∀ {entry}, entry ∈ (s.erase uuid).registry → entry ∈ s.registry :=
    fun member => (List.mem_filter.mp member).1
  refine of_references rfl rfl rfl fewer ?_
  intro ref live
  rw [alive_iff] at live ⊢
  exact live.imp_left fun ⟨uuid, member⟩ => ⟨uuid, fewer member⟩

theorem clientConnected (s : Subscriptions) (ref : SubscriptionRef) :
    Settles s (s.clientConnected ref) :=
  cancel s ref (fun _ => rfl) (fun _ => rfl) (fun _ state => by simp at state)
    fun _ _ => by simp

theorem stopSubscription (s : Subscriptions) (ref : SubscriptionRef) :
    Settles s (s.stopSubscription ref) :=
  cancel s ref (fun _ => rfl) (fun _ => rfl) (fun _ state => by simp at state)
    fun _ _ => by simp

theorem terminateSubscription (s : Subscriptions) (subId : Nat) :
    Settles s (s.terminateSubscription subId) := by
  unfold Subscriptions.terminateSubscription
  split
  · exact refl s
  · exact ((terminate s _).trans (erase _ _)).trans (release _ _)

theorem inactivityHandler (s : Subscriptions) (wait : Wait) :
    Settles s (s.inactivityHandler wait) := by
  unfold Subscriptions.inactivityHandler
  split
  · exact refl s
  · split
    · exact terminateSubscription s _
    · exact refl s

end Settles

/-- A registered subscription is found by its id. -/
theorem findById_of_mem {s : Subscriptions} {uuid : Uuid} {ref : SubscriptionRef}
    (registry_uuid : ∀ {uuid ref}, (uuid, ref) ∈ s.registry → (s.heap ref).uuid = uuid)
    (registry_ids : ∀ {ref other}, s.Registered ref → s.Registered other →
      (s.heap ref).subscriptionId = (s.heap other).subscriptionId → ref = other)
    (member : (uuid, ref) ∈ s.registry) :
    s.findById (s.heap ref).subscriptionId = some (uuid, ref) := by
  unfold findById
  cases search : s.registry.find? fun entry =>
      (s.heap entry.2).subscriptionId == (s.heap ref).subscriptionId with
  | none =>
      have absent := List.find?_eq_none.mp search (uuid, ref) member
      simp at absent
  | some entry =>
      obtain ⟨key, other⟩ := entry
      have sameId : (s.heap other).subscriptionId = (s.heap ref).subscriptionId := by
        simpa using List.find?_some search
      have otherMem := List.mem_of_find?_eq_some search
      have sameRef := registry_ids ⟨key, otherMem⟩ ⟨uuid, member⟩ sameId
      subst sameRef
      rw [← registry_uuid otherMem, ← registry_uuid member]

/-- Terminating a registered subscription by its id takes it out of the registry. -/
theorem terminateSubscription_unregisters {s : Subscriptions} {ref : SubscriptionRef}
    (registry_uuid : ∀ {uuid ref}, (uuid, ref) ∈ s.registry → (s.heap ref).uuid = uuid)
    (registry_ids : ∀ {ref other}, s.Registered ref → s.Registered other →
      (s.heap ref).subscriptionId = (s.heap other).subscriptionId → ref = other)
    (registered : s.Registered ref) :
    ¬(s.terminateSubscription (s.heap ref).subscriptionId).Registered ref := by
  obtain ⟨uuid, member⟩ := registered
  have found := findById_of_mem registry_uuid registry_ids member
  have settled : Settles ((s.terminate ref).erase uuid)
      (s.terminateSubscription (s.heap ref).subscriptionId) := by
    unfold Subscriptions.terminateSubscription
    simp only [found]
    exact Settles.release _ _
  rintro ⟨key, kept⟩
  have erased := settled.registry kept
  simp only [Subscriptions.erase, List.mem_filter, bne_iff_ne, ne_eq] at erased
  have inRegistry := (Settles.terminate s ref).registry erased.1
  exact erased.2 ((registry_uuid inRegistry).symm.trans
    (registry_uuid member))

/-- Removing a completed wait which no longer matters, with or without the effect of its
handler. -/
theorem Settles.complete {s t : Subscriptions} {index : Nat} {wait : Wait}
    (present : s.waits[index]? = some wait)
    (settles : Settles { s with waits := s.waits.eraseIdx index } t)
    (spent : ∀ ref, wait.timer = ref → wait.weakThis = some ref → wait.status ≠ .aborted →
      ¬t.Registered ref) : Settles s t where
  fresh := settles.fresh
  registry := settles.registry
  alive := settles.alive
  identity := settles.identity
  start := settles.start
  waits := by
    intro other member
    obtain ⟨old, oldMem, same⟩ := settles.waits member
    exact ⟨old, List.mem_of_mem_eraseIdx oldMem, same⟩
  armed := by
    intro ref registered state ⟨other, member, timer, weakThis, status⟩
    refine settles.armed registered state ⟨other, ?_, timer, weakThis, status⟩
    obtain ⟨position, atPosition⟩ := List.mem_iff_getElem?.mp member
    have moved : position ≠ index := by
      rintro rfl
      rw [present, Option.some.injEq] at atPosition
      subst atPosition
      exact spent ref timer weakThis status registered
    exact List.mem_eraseIdx_iff_getElem?.mpr ⟨position, moved, atPosition⟩

theorem Settles.expire {s : Subscriptions} {index : Nat} {wait : Wait}
    (present : s.waits[index]? = some wait) :
    Settles s { s with waits := s.waits.set index { wait with status := .expired } } where
  fresh := rfl
  registry := id
  alive := id
  identity _ := ⟨rfl, rfl⟩
  start := id
  waits := by
    intro other member
    rcases List.mem_or_eq_of_mem_set member with old | rfl
    · exact ⟨other, old, rfl, rfl⟩
    · exact ⟨wait, List.mem_of_getElem? present, rfl, rfl⟩
  armed := by
    intro ref _ _ ⟨other, member, timer, weakThis, status⟩
    obtain ⟨position, atPosition⟩ := List.mem_iff_getElem?.mp member
    by_cases same : position = index
    · subst same
      rw [present, Option.some.injEq] at atPosition
      subst atPosition
      refine ⟨{ wait with status := .expired }, ?_, timer, weakThis, by simp⟩
      exact List.mem_set (List.getElem?_eq_some_iff.mp present).1 _
    · refine ⟨other, ?_, timer, weakThis, status⟩
      exact List.mem_of_getElem? (by rw [List.getElem?_set_ne (Ne.symm same)]; exact atPosition)

/-- Cancelling the timer of another subscription leaves it armed. -/
theorem Armed.cancel_other {s : Subscriptions} {ref other : SubscriptionRef}
    {added : List Wait} {t : Subscriptions} (armed : s.Armed ref) (another : ref ≠ other)
    (waits : t.waits = s.waits.map (Wait.cancel other) ++ added) : t.Armed ref := by
  obtain ⟨wait, member, timer, weakThis, status⟩ := armed
  have untouched : Wait.cancel other wait = wait := by
    have otherTimer : wait.timer ≠ other := timer ▸ another
    simp [Wait.cancel, otherTimer]
  refine ⟨wait, ?_, timer, weakThis, status⟩
  rw [waits]
  exact List.mem_append_left _ (List.mem_map.mpr ⟨wait, member, untouched⟩)

/-- Waits which were only cancelled keep their timer and weak pointer. -/
theorem Invariant.weak_cancelled {events : List Event} {s : Subscriptions}
    {ref : SubscriptionRef} {wait : Wait} {target : SubscriptionRef}
    (invariant : Invariant events s) (member : wait ∈ s.waits.map (Wait.cancel ref))
    (weakThis : wait.weakThis = some target) :
    target = wait.timer ∧ Event.disconnect target ∈ events := by
  obtain ⟨old, oldMem, rfl⟩ := List.mem_map.mp member
  have timer : (Wait.cancel ref old).timer = old.timer := by
    unfold Wait.cancel
    split <;> rfl
  have weak : (Wait.cancel ref old).weakThis = old.weakThis := by
    unfold Wait.cancel
    split <;> rfl
  rw [timer]
  exact invariant.weak oldMem (weak.symm.trans weakThis)

/-- A new subscription waits with a handler which finds nothing. -/
theorem Invariant.establish {events : List Event} {s : Subscriptions}
    {subscriptionId : Nat} {dataFormat : DataFormat} {uuid : Uuid} {user : Str}
    (invariant : Invariant events s) (unique : s.findById subscriptionId = none) :
    Invariant events
      ((s.construct subscriptionId dataFormat uuid user).assign uuid s.fresh) := by
  have constructed : s.construct subscriptionId dataFormat uuid user =
      { s with
        heap := fun r =>
          if r = s.fresh then ⟨subscriptionId, dataFormat, uuid, user, .start, 0⟩
          else s.heap r
        fresh := s.fresh + 1
        waits := s.waits.map (Wait.cancel s.fresh) ++ [⟨s.fresh, none, .pending⟩] } := by
    simp [construct, inactivityStart]
  unfold assign
  refine Invariant.settle ?_ (Settles.releaseAll _ _)
  rw [constructed]
  have older : ∀ {ref}, s.Registered ref → ref ≠ s.fresh := fun registered =>
    Nat.ne_of_lt (invariant.alive_fresh (alive_iff.mpr (.inl registered)))
  have newId : ∀ {ref}, s.Registered ref → (s.heap ref).subscriptionId ≠ subscriptionId := by
    rintro ref ⟨key, member⟩
    simpa using List.find?_eq_none.mp unique (key, ref) member
  constructor
  case alive_fresh =>
    intro ref live
    rw [alive_iff] at live
    have known : s.alive ref = true ∨ ref = s.fresh := by
      rcases live with ⟨key, member⟩ | others
      · simp only [List.mem_append, List.mem_filter, List.mem_singleton, Prod.mk.injEq] at member
        rcases member with old | new
        · exact .inl (alive_iff.mpr (.inl ⟨key, old.1⟩))
        · exact .inr new.2
      · exact .inl (alive_iff.mpr (.inr others))
    rcases known with old | rfl
    · exact Nat.lt_succ_of_lt (invariant.alive_fresh old)
    · exact Nat.lt_succ_self _
  case history_fresh => exact fun member => Nat.lt_succ_of_lt (invariant.history_fresh member)
  case registry_uuid =>
    intro key ref member
    simp only [List.mem_append, List.mem_filter, List.mem_singleton, Prod.mk.injEq] at member
    rcases member with old | ⟨rfl, rfl⟩
    · have another := older ⟨key, old.1⟩
      simp only [another, if_false]
      exact invariant.registry_uuid old.1
    · simp
  case registry_ids =>
    rintro ref other ⟨key, member⟩ ⟨key', member'⟩ same
    simp only [List.mem_append, List.mem_filter, List.mem_singleton, Prod.mk.injEq]
      at member member'
    rcases member with old | ⟨rfl, rfl⟩ <;> rcases member' with old' | ⟨rfl, rfl⟩
    · simp only [older ⟨key, old.1⟩, older ⟨key', old'.1⟩, if_false] at same
      exact invariant.registry_ids ⟨key, old.1⟩ ⟨key', old'.1⟩ same
    · simp only [older ⟨key, old.1⟩, if_false, if_true] at same
      exact absurd same (newId ⟨key, old.1⟩)
    · simp only [older ⟨key', old'.1⟩, if_false, if_true] at same
      exact absurd same.symm (newId ⟨key', old'.1⟩)
    · rfl
  case weak =>
    intro wait target member weakThis
    rcases List.mem_append.mp member with old | new
    · exact invariant.weak_cancelled old weakThis
    · rw [List.mem_singleton.mp new] at weakThis
      cases weakThis
  case armed =>
    rintro ref ⟨key, member⟩ state disconnected
    simp only [List.mem_append, List.mem_filter, List.mem_singleton, Prod.mk.injEq] at member
    have another : ref ≠ s.fresh := Nat.ne_of_lt (invariant.history_fresh disconnected)
    rcases member with old | ⟨_, new⟩
    · simp only [another, if_false] at state
      exact (invariant.armed ⟨key, old.1⟩ state disconnected).cancel_other another rfl
    · exact absurd new another

/-- Closing an event stream keeps the subscription alive until the stream is destroyed. -/
theorem Settles.closeStream {s : Subscriptions} {ref : SubscriptionRef}
    (active : ref ∈ s.activeStreams) :
    Settles s { s with
      activeStreams := s.activeStreams.erase ref
      closedStreams := ref :: s.closedStreams } := by
  refine .of_references rfl rfl rfl id ?_
  intro other live
  rw [alive_iff] at live ⊢
  rcases live with registered | holds | active' | closed
  · exact .inl registered
  · exact .inr (.inl holds)
  · exact .inr (.inr (.inl (List.mem_of_mem_erase active')))
  · rcases List.mem_cons.mp closed with rfl | closed
    · exact .inr (.inr (.inl active))
    · exact .inr (.inr (.inr closed))

/-- A client which disconnects leaves a wait behind which finds the subscription. -/
theorem Invariant.clientDisconnected {events : List Event} {s : Subscriptions}
    {ref : SubscriptionRef} (invariant : Invariant events s) (known : ref < s.fresh) :
    Invariant (events ++ [.disconnect ref]) (s.clientDisconnected ref) := by
  have history : ∀ {other}, Event.disconnect other ∈ events ++ [.disconnect ref] ↔
      Event.disconnect other ∈ events ∨ other = ref := by
    intro other
    simp
  have historyFresh : ∀ {other}, Event.disconnect other ∈ events ++ [.disconnect ref] →
      other < s.fresh := by
    intro other member
    rcases history.mp member with before | rfl
    · exact invariant.history_fresh before
    · exact known
  unfold Subscriptions.clientDisconnected
  split
  next terminating =>
    constructor
    case alive_fresh => exact invariant.alive_fresh
    case history_fresh => exact historyFresh
    case registry_uuid => exact invariant.registry_uuid
    case registry_ids => exact invariant.registry_ids
    case weak =>
      intro wait target member weakThis
      obtain ⟨same, before⟩ := invariant.weak member weakThis
      exact ⟨same, history.mpr (.inl before)⟩
    case armed =>
      intro other registered state disconnected
      rcases history.mp disconnected with before | rfl
      · exact invariant.armed registered state before
      · simp [terminating] at state
  next running =>
    have started : (s.update ref fun sub => { sub with state := .start }).inactivityStart ref
        (some ref) =
        { s.update ref fun sub => { sub with state := .start } with
          waits := s.waits.map (Wait.cancel ref) ++ [⟨ref, some ref, .pending⟩] } := by
      simp [inactivityStart, Subscriptions.update]
    rw [started]
    have identity : ∀ other,
        ((s.update ref fun sub => { sub with state := .start }).heap other).uuid =
          (s.heap other).uuid ∧
        ((s.update ref fun sub => { sub with state := .start }).heap other).subscriptionId =
          (s.heap other).subscriptionId := by
      intro other
      simp only [Subscriptions.update]
      split <;> exact ⟨rfl, rfl⟩
    constructor
    case alive_fresh => exact invariant.alive_fresh
    case history_fresh => exact historyFresh
    case registry_uuid =>
      intro uuid other member
      exact (identity other).1.trans (invariant.registry_uuid member)
    case registry_ids =>
      intro one other oneIn otherIn same
      exact invariant.registry_ids oneIn otherIn
        ((identity one).2.symm.trans (same.trans (identity other).2))
    case weak =>
      intro wait target member weakThis
      rcases List.mem_append.mp member with old | new
      · obtain ⟨same, before⟩ := invariant.weak_cancelled old weakThis
        exact ⟨same, history.mpr (.inl before)⟩
      · rw [List.mem_singleton.mp new] at weakThis ⊢
        cases weakThis
        exact ⟨rfl, history.mpr (.inr rfl)⟩
    case armed =>
      intro other registered state disconnected
      by_cases same : other = ref
      · subst same
        exact ⟨⟨other, some other, .pending⟩, List.mem_append_right _ (List.mem_singleton_self _),
          rfl, rfl, by simp⟩
      · have before : Event.disconnect other ∈ events :=
          (history.mp disconnected).resolve_right same
        have unchanged : (s.heap other).state = .start := by
          simpa [Subscriptions.update, same] using state
        exact (invariant.armed registered unchanged before).cancel_other same rfl

/-- Looking up a subscription gives a registered one. -/
theorem registered_of_findById {s : Subscriptions} {subId : Nat} {uuid : Uuid}
    {ref : SubscriptionRef} (found : s.findById subId = some (uuid, ref)) :
    s.Registered ref :=
  ⟨uuid, List.mem_of_find?_eq_some found⟩

theorem registered_of_getByUuid {recoveryUser : Str} {s : Subscriptions} {uuid : Uuid}
    {user : Option Str} {ref : SubscriptionRef}
    (found : s.getSubscriptionForUserByUuid recoveryUser uuid user = some ref) :
    s.Registered ref := by
  unfold getSubscriptionForUserByUuid at found
  split at found
  next key other search =>
    split at found
    · cases found
      exact ⟨key, List.mem_of_find?_eq_some search⟩
    · cases found
  · cases found

/-- What the RPCs may delete was found by its id. -/
theorem findById_of_deletable {recoveryUser : Str} {s : Subscriptions} {isKill : Bool}
    {subId : Nat} {user : Option Str} {ref : SubscriptionRef}
    (found : s.deletableSubscription recoveryUser isKill subId user = .ok ref) :
    ∃ uuid, s.findById subId = some (uuid, ref) := by
  unfold deletableSubscription getSubscriptionForUserById at found
  cases search : s.findById subId with
  | none => simp [search] at found
  | some entry =>
      simp only [search] at found
      split at found
      · cases found
      next accessible =>
        split at accessible
        · cases accessible
          split at found
          · cases found
          · cases found
            exact ⟨entry.1, rfl⟩
        · cases accessible

theorem registered_of_deletable {recoveryUser : Str} {s : Subscriptions} {isKill : Bool}
    {subId : Nat} {user : Option Str} {ref : SubscriptionRef}
    (found : s.deletableSubscription recoveryUser isKill subId user = .ok ref) :
    s.Registered ref := by
  obtain ⟨uuid, search⟩ := findById_of_deletable found
  exact registered_of_findById search

/-- The io thread moves on, possibly taking hold of a live subscription. -/
theorem Settles.io {s : Subscriptions} {task : IoTask}
    (held : ∀ ref, task.holds = some ref → s.alive ref = true) :
    Settles s { s with io := task } := by
  refine .of_references rfl rfl rfl id ?_
  intro ref live
  rw [alive_iff] at live
  rcases live with registered | holds | active | closed
  · exact alive_iff.mpr (.inl registered)
  · exact held ref holds
  · exact alive_iff.mpr (.inr (.inr (.inl active)))
  · exact alive_iff.mpr (.inr (.inr (.inr closed)))

/-- A subscription is established from its id, or not at all. -/
theorem establishSubscription_eq_ok {s t : Subscriptions}
    {requestSchemeAndHost encoding : Option Str} {requestEncoding : DataFormat}
    {made : Except Exception Nat} {uuid : Uuid} {user : Str}
    (established : s.establishSubscription requestSchemeAndHost encoding requestEncoding made uuid
      user = .ok t) :
    ∃ subscriptionId dataFormat, made = .ok subscriptionId ∧
      t = (s.construct subscriptionId dataFormat uuid user).assign uuid s.fresh := by
  unfold establishSubscription at established
  split at established
  · cases established
  · cases format : getEncoding encoding requestEncoding with
    | error exception => simp [format, bind, Except.bind] at established
    | ok dataFormat =>
        cases made with
        | error exception => cases exception <;> simp [format, bind, Except.bind] at established
        | ok subscriptionId =>
            simp only [format, bind, Except.bind, pure, Except.pure, Except.ok.injEq]
              at established
            exact ⟨subscriptionId, dataFormat, rfl, established.symm⟩

/-- The event stream takes over the reference of the io thread. -/
theorem Settles.connect {s : Subscriptions} {ref : SubscriptionRef}
    (accepted : s.io = .accepted ref) :
    Settles s { s.clientConnected ref with
      io := .idle, activeStreams := ref :: s.activeStreams } := by
  refine (Settles.clientConnected s ref).trans (.of_references rfl rfl rfl id ?_)
  intro other live
  rw [alive_iff] at live ⊢
  rcases live with registered | holds | active | closed
  · exact .inl registered
  · cases holds
  · rcases List.mem_cons.mp active with rfl | active
    · exact .inr (.inl (congrArg IoTask.holds accepted))
    · exact .inr (.inr (.inl active))
  · exact .inr (.inr (.inr closed))

theorem Settles.destroyStream (s : Subscriptions) (ref : SubscriptionRef) :
    Settles s ({ s with closedStreams := s.closedStreams.erase ref }.release ref) := by
  have dropped : Settles s { s with closedStreams := s.closedStreams.erase ref } := by
    refine .of_references rfl rfl rfl id ?_
    intro other live
    rw [alive_iff] at live ⊢
    exact live.imp_right (.imp_right (.imp_right List.mem_of_mem_erase))
  exact dropped.trans (.release _ ref)

/-- A handler which finds its subscription takes it out of the registry. -/
theorem Settles.inactive {events : List Event} {s : Subscriptions} {index : Nat} {wait : Wait}
    (invariant : Invariant events s) (present : s.waits[index]? = some wait) :
    Settles s ({ s with waits := s.waits.eraseIdx index }.inactivityHandler wait) := by
  refine .complete present (.inactivityHandler _ wait) ?_
  intro ref _ weakThis _ registered
  have before := (Settles.inactivityHandler _ wait).registered registered
  have live : Subscriptions.alive { s with waits := s.waits.eraseIdx index } ref = true :=
    alive_iff.mpr (.inl before)
  simp only [Subscriptions.inactivityHandler, weakThis, live, if_true] at registered
  exact terminateSubscription_unregisters
    (s := { s with waits := s.waits.eraseIdx index }) invariant.registry_uuid
    invariant.registry_ids before registered

/-- What a step can do: settle, add a subscription, or disconnect a client. -/
theorem step_cases {recoveryUser : Str} {events : List Event} {s t : Subscriptions}
    {event : Event} (invariant : Invariant events s)
    (taken : s.step recoveryUser event = some t) :
    ((∀ ref, event ≠ .disconnect ref) ∧ Settles s t) ∨
    (∃ subscriptionId dataFormat uuid user, (∀ ref, event ≠ .disconnect ref) ∧
      s.findById subscriptionId = none ∧
      t = (s.construct subscriptionId dataFormat uuid user).assign uuid s.fresh) ∨
    (∃ ref, event = .disconnect ref ∧ ref ∈ s.activeStreams ∧
      t = { s with
        activeStreams := s.activeStreams.erase ref
        closedStreams := ref :: s.closedStreams }.clientDisconnected ref) := by
  cases event with
  | establish requestSchemeAndHost encoding requestEncoding made uuid user =>
      simp only [Subscriptions.step] at taken
      split at taken
      next possible =>
        split at taken
        next next established =>
          cases taken
          obtain ⟨subscriptionId, dataFormat, rfl, rfl⟩ :=
            establishSubscription_eq_ok established
          refine .inr (.inl ⟨subscriptionId, dataFormat, uuid, user, fun _ => by simp, ?_, rfl⟩)
          simpa [Except.toOption] using (Bool.and_eq_true_iff.mp possible).2
        · cases taken
          exact .inl ⟨fun _ => by simp, .refl s⟩
      · cases taken
  | find uuid user =>
      refine .inl ⟨fun _ => by simp, ?_⟩
      simp only [Subscriptions.step] at taken
      split at taken
      · split at taken
        next ref found =>
          cases taken
          refine .io fun other holds => ?_
          cases holds
          exact alive_iff.mpr (.inl (registered_of_getByUuid found))
        · cases taken
          exact .refl s
      · cases taken
  | checkReady =>
      refine .inl ⟨fun _ => by simp, ?_⟩
      simp only [Subscriptions.step] at taken
      split at taken
      next ref task =>
        split at taken
        · cases taken
          refine .io fun other holds => ?_
          exact alive_iff.mpr (.inr (.inl (by rw [task]; exact holds)))
        · cases taken
          exact (Settles.io fun _ holds => by cases holds).trans (.release _ ref)
      · cases taken
  | connect =>
      refine .inl ⟨fun _ => by simp, ?_⟩
      simp only [Subscriptions.step] at taken
      split at taken
      next ref task =>
        cases taken
        exact .connect task
      · cases taken
  | disconnect ref =>
      simp only [Subscriptions.step] at taken
      split at taken
      next possible =>
        simp only [Bool.and_eq_true, List.contains_iff_mem] at possible
        cases taken
        exact .inr (.inr ⟨ref, rfl, possible.2, rfl⟩)
      · cases taken
  | destroyStream ref =>
      refine .inl ⟨fun _ => by simp, ?_⟩
      simp only [Subscriptions.step] at taken
      split at taken
      · cases taken
        exact .destroyStream s ref
      · cases taken
  | delete isKill subId user =>
      refine .inl ⟨fun _ => by simp, ?_⟩
      simp only [Subscriptions.step] at taken
      split at taken
      · split at taken
        next ref found =>
          cases taken
          refine .io fun other holds => ?_
          cases holds
          exact alive_iff.mpr (.inl (registered_of_deletable found))
        · cases taken
          exact .refl s
      · cases taken
  | deleteTerminate error =>
      refine .inl ⟨fun _ => by simp, ?_⟩
      simp only [Subscriptions.step] at taken
      split at taken
      next ref task =>
        have asked : Settles s (s.update ref fun sub =>
            { sub with terminateCalls := sub.terminateCalls + 1 }) :=
          .update s ref (fun _ => rfl) (fun _ => rfl) (fun _ => id)
        split at taken
        · cases taken
          refine asked.trans (.io fun other holds => ?_)
          exact alive_iff.mpr (.inr (.inl ((congrArg IoTask.holds task).trans holds)))
        · cases taken
          exact (asked.trans (.io fun _ holds => by cases holds)).trans (.release _ ref)
      · cases taken
  | deleteErase =>
      refine .inl ⟨fun _ => by simp, ?_⟩
      simp only [Subscriptions.step] at taken
      split at taken
      next ref task _ =>
        cases taken
        exact ((Settles.erase s _).trans (.io fun _ holds => by cases holds)).trans
          (.release _ ref)
      · cases taken
  | expire index =>
      refine .inl ⟨fun _ => by simp, ?_⟩
      simp only [Subscriptions.step] at taken
      split at taken
      next wait present =>
        split at taken
        · cases taken
          exact .expire present
        · cases taken
      · cases taken
  | complete index =>
      refine .inl ⟨fun _ => by simp, ?_⟩
      simp only [Subscriptions.step] at taken
      split at taken
      next wait present =>
        split at taken
        · split at taken
          · cases taken
          next aborted =>
            cases taken
            exact .complete present (.refl _) fun ref _ _ status => absurd aborted status
          next expired =>
            cases taken
            exact .inactive invariant present
        · cases taken
      · cases taken
  | shutdown ref =>
      refine .inl ⟨fun _ => by simp, ?_⟩
      simp only [Subscriptions.step] at taken
      split at taken
      · cases taken
        exact .terminate s ref
      · cases taken
  | stop =>
      refine .inl ⟨fun _ => by simp, ?_⟩
      simp only [Subscriptions.step] at taken
      split at taken
      · cases taken
        exact .of_references rfl rfl rfl id id
      · cases taken
  | stopNext =>
      refine .inl ⟨fun _ => by simp, ?_⟩
      simp only [Subscriptions.step] at taken
      split at taken
      next ref rest _ =>
        cases taken
        exact (Settles.stopSubscription s ref).trans (.of_references rfl rfl rfl id id)
      · cases taken
        exact .of_references rfl rfl rfl id id
      · cases taken

/-- The invariant holds before anything happens. -/
theorem Invariant.initial : Invariant [] empty := by
  constructor <;> simp [empty, alive, Registered, IoTask.holds]

/-- Every step keeps the invariant. -/
theorem Invariant.step {recoveryUser : Str} {events : List Event} {s t : Subscriptions}
    {event : Event} (invariant : Invariant events s)
    (taken : s.step recoveryUser event = some t) : Invariant (events ++ [event]) t := by
  rcases step_cases invariant taken with ⟨other, settles⟩ |
    ⟨subscriptionId, dataFormat, uuid, user, other, unique, rfl⟩ | ⟨ref, rfl, active, rfl⟩
  · exact (invariant.settle settles).note other
  · exact (invariant.establish unique).note other
  · have known : ref < s.fresh :=
      invariant.alive_fresh (alive_iff.mpr (.inr (.inr (.inl active))))
    exact (invariant.settle (.closeStream active)).clientDisconnected known

/-- A wait which finds a registered subscription removes it. -/
theorem Invariant.reapable_of_armed {events : List Event} {s : Subscriptions}
    {ref : SubscriptionRef} (invariant : Invariant events s) (registered : s.Registered ref)
    (armed : s.Armed ref) : s.Reapable ref := by
  obtain ⟨wait, member, timer, weakThis, status⟩ := armed
  have live : s.alive ref = true := alive_iff.mpr (.inl registered)
  have handled : s.inactivityHandler wait =
      s.terminateSubscription (s.heap ref).subscriptionId := by
    simp only [inactivityHandler, weakThis, live, if_true]
  refine ⟨wait, member, timer, status, handled, ?_⟩
  rw [handled]
  exact terminateSubscription_unregisters invariant.registry_uuid invariant.registry_ids
    registered

/-- Only a wait which was armed by a disconnecting client removes a subscription. -/
theorem Invariant.disconnected_of_reapable {events : List Event} {s : Subscriptions}
    {ref : SubscriptionRef} (invariant : Invariant events s) (registered : s.Registered ref)
    (reapable : s.Reapable ref) : Event.disconnect ref ∈ events := by
  obtain ⟨wait, member, timer, _, _, removed⟩ := reapable
  cases weakThis : wait.weakThis with
  | none =>
      simp only [inactivityHandler, weakThis] at removed
      exact absurd registered removed
  | some target =>
      obtain ⟨same, disconnected⟩ := invariant.weak member weakThis
      rw [← timer, ← same]
      exact disconnected

/-- In every reachable state, a registered subscription which waits for a client can be
reaped exactly if some client has disconnected from it before. -/
theorem reapable_iff_disconnected {recoveryUser : Str} {events : List Event}
    {s : Subscriptions} (run : Run (Subscriptions.step recoveryUser) empty events s)
    {ref : SubscriptionRef} (registered : s.Registered ref)
    (waiting : (s.heap ref).state = .start) :
    s.Reapable ref ↔ Event.disconnect ref ∈ events := by
  have invariant : Invariant events s := run.invariant .initial fun holds => holds.step
  constructor
  case mp => exact invariant.disconnected_of_reapable registered
  case mpr =>
    intro disconnected
    exact invariant.reapable_of_armed registered
      (invariant.armed registered waiting disconnected)

/-- A client comes to the first subscription and goes. -/
def visit : List Event :=
  [.establish (some (str "http://localhost")) none .json (.ok 1) 7 (str "dwdm"),
    .find 7 (some (str "dwdm")), .checkReady, .connect, .disconnect 0]

theorem visit_reapable : ∃ s, Run (Subscriptions.step (str "root")) empty visit s ∧
    s.Registered 0 ∧ (s.heap 0).state = .start ∧ s.Reapable 0 := by
  have run : ∃ s, Run (Subscriptions.step (str "root")) empty visit s ∧ s.Registered 0 ∧
      (s.heap 0).state = .start :=
    ⟨_, .of_execute rfl, ⟨7, List.mem_singleton_self _⟩, rfl⟩
  obtain ⟨s, run, registered, waiting⟩ := run
  exact ⟨s, run, registered, waiting,
    (reapable_iff_disconnected run registered waiting).mpr (by simp [visit])⟩

/-- Nobody has ever connected to the subscription: its only wait finds nothing. -/
theorem established_not_reapable : ∃ s, Run (Subscriptions.step (str "root")) empty
    [.establish (some (str "http://localhost")) none .json (.ok 1) 7 (str "dwdm")] s ∧
    s.Registered 0 ∧ (s.heap 0).state = .start ∧ ¬s.Reapable 0 := by
  refine ⟨_, .of_execute rfl, ⟨7, List.mem_singleton_self _⟩, rfl, ?_⟩
  rintro ⟨wait, member, _, _, _, removed⟩
  cases List.mem_singleton.mp member
  exact removed ⟨7, List.mem_singleton_self _⟩

end Rousette.Restconf.Subscriptions
