import Rousette.Restconf.SubscriptionSteps

/-!
# Receivers and termination

Two properties of subscriptions along every run.  At most one event stream is
attached to a subscription, whatever the shutdown does meanwhile.  That a
terminated subscription stays so holds for the runs without certain steps only: a
`GET` writes the state of its subscription without looking at it again, and the RPCs
which delete a subscription go past its state.
-/

namespace Rousette.Restconf.Subscriptions

open Library
open Libyang (DataFormat)

/-! ## Receivers -/

/-- No subscription has two receivers, and a subscription which is ready or about to get a
receiver has none. -/
structure Exclusive (s : Subscriptions) : Prop where
  nodup : s.activeStreams.Nodup
  start : ∀ {ref}, (s.heap ref).state = .start → ref ∉ s.activeStreams
  accepted : ∀ {ref}, s.io = .accepted ref → ref ∉ s.activeStreams

namespace Exclusive

variable {s t : Subscriptions}

theorem winds (exclusive : Exclusive s) (winds : Winds s t) : Exclusive t where
  nodup := winds.active ▸ exclusive.nodup
  start := by
    intro ref start
    have same := (winds.heap ref).eq_of_running (by simp [start])
    rw [winds.active]
    exact exclusive.start (same ▸ start)
  accepted := by
    intro ref accepted
    rw [winds.active]
    rcases winds.accepted accepted with before | start
    · exact exclusive.accepted before
    · exact exclusive.start start

theorem update (exclusive : Exclusive s) (ref : SubscriptionRef)
    {change : SubscriptionData → SubscriptionData} (state : ∀ sub, (change sub).state = sub.state) :
    Exclusive (s.update ref change) where
  nodup := exclusive.nodup
  start := by
    intro other start
    apply exclusive.start
    simp only [Subscriptions.update] at start
    split at start
    · rwa [state] at start
    · exact start
  accepted := exclusive.accepted

theorem place (exclusive : Exclusive s) (known : ∀ ref ∈ s.activeStreams, ref < s.fresh)
    (subscriptionId : Nat) (dataFormat : DataFormat) (uuid : Uuid) (user : Str) :
    Exclusive (s.place subscriptionId dataFormat uuid user) where
  nodup := exclusive.nodup
  start := by
    intro ref start active
    have older : ref ≠ s.fresh := Nat.ne_of_lt (known ref active)
    simp only [Subscriptions.place, older, if_false] at start
    exact exclusive.start start active
  accepted := exclusive.accepted

theorem attach (exclusive : Exclusive s) {ref : SubscriptionRef} (io : s.io = .accepted ref) :
    Exclusive (s.attach ref) where
  nodup := List.nodup_cons.mpr ⟨exclusive.accepted io, exclusive.nodup⟩
  start := by
    intro other start member
    rw [attach_heap] at start
    by_cases same : other = ref
    · subst same
      rw [update_heap_self] at start
      cases start
    · rw [update_heap_other s _ same] at start
      exact exclusive.start start ((List.mem_cons.mp member).resolve_left same)
  accepted := by
    intro other accepted
    cases accepted

theorem detach (exclusive : Exclusive s) (io : s.io = .idle) (ref : SubscriptionRef) :
    Exclusive (s.detach ref) where
  nodup := by
    rw [detach_activeStreams]
    exact exclusive.nodup.erase ref
  start := by
    intro other start
    rw [detach_activeStreams]
    by_cases same : other = ref
    · exact same ▸ exclusive.nodup.not_mem_erase
    · rw [detach_heap_other s same] at start
      exact fun member => exclusive.start start (List.mem_of_mem_erase member)
  accepted := by
    intro other accepted
    simp [io] at accepted

/-- Every step keeps the receivers apart. -/
theorem step {recoveryUser : Str} {event : Event} (exclusive : Exclusive s)
    (known : ∀ ref ∈ s.activeStreams, ref < s.fresh)
    (taken : s.step recoveryUser event = some t) : Exclusive t := by
  cases step_effect taken with
  | winds winds => exact exclusive.winds winds
  | establish _ _ winds => exact (exclusive.place known _ _ _ _).winds winds
  | connect io => exact exclusive.attach io
  | disconnect io _ => exact exclusive.detach io _
  | expire => exact ⟨exclusive.nodup, exclusive.start, exclusive.accepted⟩
  | @deleteTerminate ref _ _ _ winds =>
      have asked : Exclusive (s.update ref fun sub =>
          { sub with terminateCalls := sub.terminateCalls + 1 }) :=
        exclusive.update ref fun _ => rfl
      exact asked.winds winds

end Exclusive

theorem Invariant.of_run {recoveryUser : Str} {events : List Event} {s : Subscriptions}
    (run : Run (Subscriptions.step recoveryUser) empty events s) : Invariant events s :=
  run.invariant .initial fun holds => holds.step

theorem Invariant.active_fresh {events : List Event} {s : Subscriptions}
    (invariant : Invariant events s) : ∀ ref ∈ s.activeStreams, ref < s.fresh :=
  fun _ active => invariant.alive_fresh (alive_iff.mpr (.inr (.inr (.inl active))))

theorem Exclusive.of_run {recoveryUser : Str} {events : List Event} {s : Subscriptions}
    (run : Run (Subscriptions.step recoveryUser) empty events s) : Exclusive s := by
  induction run with
  | nil => exact ⟨List.nodup_nil, by simp [empty], by simp [empty]⟩
  | snoc before taken ih => exact ih.step (Invariant.of_run before).active_fresh taken

/-- In every reachable state, the event streams which were activated and not closed yet
belong to different subscriptions. -/
theorem activeStreams_nodup {recoveryUser : Str} {events : List Event} {s : Subscriptions}
    (run : Run (Subscriptions.step recoveryUser) empty events s) : s.activeStreams.Nodup :=
  (Exclusive.of_run run).nodup

/-- A second client comes while the first one is there, and the shutdown reaches the
subscription between the steps of its request. -/
def concurrentVisit : List Event :=
  [.establish (some (str "http://localhost")) none .json (.ok 1) 7 (str "dwdm"),
    .find 7 (some (str "dwdm")), .checkReady, .connect, .find 7 (some (str "root")),
    .shutdown 0, .checkReady]

theorem concurrentVisit_nodup : ∃ s, Run (Subscriptions.step (str "root")) empty
    concurrentVisit s ∧ s.activeStreams = [0] ∧ s.activeStreams.Nodup := by
  have run : ∃ s, Run (Subscriptions.step (str "root")) empty concurrentVisit s ∧
      s.activeStreams = [0] :=
    ⟨_, .of_execute rfl, rfl⟩
  obtain ⟨s, run, active⟩ := run
  exact ⟨s, run, active, activeStreams_nodup run⟩

/-! ## Termination -/

/-- The waits on the timer of a subscription. -/
def waitsOn (s : Subscriptions) (ref : SubscriptionRef) : List Wait :=
  s.waits.filter fun wait => wait.timer = ref

/-- The ways in which an event terminates a subscription. -/
inductive Terminates (s : Subscriptions) : Event → SubscriptionRef → Prop where
  | delete {ref : SubscriptionRef} (io : s.io = .deleting ref) :
      Terminates s (.deleteTerminate none) ref
  | inactivity {index : Nat} {wait : Wait} {self ref : SubscriptionRef} {uuid : Uuid}
      (present : s.waits[index]? = some wait) (expired : wait.status = .expired)
      (weakThis : wait.weakThis = some self) (live : s.alive self = true)
      (found : s.findById (s.heap self).subscriptionId = some (uuid, ref)) :
      Terminates s (.complete index) ref
  | shutdown {ref : SubscriptionRef} : Terminates s (.shutdown ref) ref
  | stop {ref : SubscriptionRef} {rest : List SubscriptionRef}
      (stopping : s.stopping = some (ref :: rest)) : Terminates s .stopNext ref

/-- What is left of a subscription after its termination, in a later state: it is
terminating, it is not ready, sysrepo was asked at most once and not again since, and no
further step arms its timer. -/
structure Finished (allowed : Subscriptions → Event → Prop) (recoveryUser : Str)
    (ref : SubscriptionRef) (terminated later : Subscriptions) : Prop where
  state : (later.heap ref).state = .terminating
  notReady : later.isReadyToAcceptClient ref = false
  once : (later.heap ref).terminateCalls ≤ 1
  notAgain : (later.heap ref).terminateCalls = (terminated.heap ref).terminateCalls
  notArmed : ∀ {event next}, allowed later event →
    later.step recoveryUser event = some next →
    (next.waitsOn ref).length ≤ (later.waitsOn ref).length

/-- No RPC asks sysrepo to terminate a subscription, and no client is connected to a
subscription which was terminated after it was found to be ready. -/
def Orderly (s : Subscriptions) : Event → Prop
  | .connect => ∀ ref, s.io = .accepted ref → (s.heap ref).state ≠ .terminating
  | .deleteTerminate _ => False
  | _ => True

/-- Sysrepo was asked to terminate none but the terminating subscriptions, and those
once; `stop` goes through known subscriptions. -/
structure Counted (s : Subscriptions) : Prop where
  once : ∀ ref, (s.heap ref).terminateCalls ≤ 1
  running : ∀ ref, (s.heap ref).state ≠ .terminating → (s.heap ref).terminateCalls = 0
  stopping : ∀ {refs ref}, s.stopping = some refs → ref ∈ refs → ref < s.fresh

namespace Counted

variable {s t : Subscriptions}

theorem winds (counted : Counted s) (winds : Winds s t)
    (known : ∀ {ref}, s.Registered ref → ref < s.fresh) : Counted t where
  once := by
    intro ref
    rcases winds.heap ref with same | ⟨running, same | same⟩
    · rw [same]
      exact counted.once ref
    · rw [same]
      exact counted.once ref
    · have none := counted.running ref running
      rw [same]
      exact Nat.le_of_eq (congrArg (· + 1) none)
  running := by
    intro ref running
    have same := (winds.heap ref).eq_of_running running
    rw [same] at running ⊢
    exact counted.running ref running
  stopping := by
    intro refs ref during member
    rw [winds.fresh]
    rcases winds.stopping during member with ⟨earlier, before, inside⟩ | registered
    · exact counted.stopping before inside
    · exact known registered

theorem place (counted : Counted s) (quiet : s.quiet = true) (subscriptionId : Nat)
    (dataFormat : DataFormat) (uuid : Uuid) (user : Str) :
    Counted (s.place subscriptionId dataFormat uuid user) where
  once := by
    intro ref
    simp only [Subscriptions.place]
    split
    · exact Nat.zero_le 1
    · exact counted.once ref
  running := by
    intro ref running
    simp only [Subscriptions.place] at running ⊢
    split
    · rfl
    next older =>
      simp only [older, if_false] at running
      exact counted.running ref running
  stopping := by
    intro refs ref during _
    simp [Subscriptions.quiet] at quiet
    simp [Subscriptions.place, quiet.2] at during

/-- A subscription which is not terminating gets another state. -/
theorem update (counted : Counted s) (ref : SubscriptionRef)
    (change : SubscriptionData → SubscriptionData)
    (calls : ∀ sub, (change sub).terminateCalls = sub.terminateCalls)
    (running : (s.heap ref).state ≠ .terminating) : Counted (s.update ref change) where
  once := by
    intro other
    simp only [Subscriptions.update]
    split
    · rw [calls]
      exact counted.once other
    · exact counted.once other
  running := by
    intro other state
    simp only [Subscriptions.update] at state ⊢
    split
    next same =>
      rw [calls]
      exact counted.running other (same ▸ running)
    next another =>
      simp only [another, if_false] at state
      exact counted.running other state
  stopping := counted.stopping

/-- Every orderly step keeps count. -/
theorem step {recoveryUser : Str} {event : Event} (counted : Counted s)
    (known : ∀ {ref}, s.Registered ref → ref < s.fresh) (orderly : Orderly s event)
    (taken : s.step recoveryUser event = some t) : Counted t := by
  cases step_effect taken with
  | winds winds => exact counted.winds winds known
  | @establish _ _ _ dataFormat subscriptionId uuid user _ quiet _ winds =>
      refine (counted.place quiet subscriptionId dataFormat uuid user).winds winds ?_
      rintro ref ⟨key, member⟩
      rcases List.mem_append.mp member with older | new
      · exact Nat.lt_succ_of_lt (known ⟨key, (List.mem_filter.mp older).1⟩)
      · cases List.mem_singleton.mp new
        exact Nat.lt_succ_self _
  | @connect ref io =>
      have updated := counted.update ref (fun sub => { sub with state := .receiverActive })
        (fun _ => rfl) (orderly ref io)
      exact ⟨updated.once, updated.running, updated.stopping⟩
  | @disconnect ref io _ =>
      by_cases terminating : (s.heap ref).state = .terminating
      · rw [detach_of_terminating terminating]
        exact ⟨counted.once, counted.running, counted.stopping⟩
      · have updated := counted.update ref (fun sub => { sub with state := .start })
          (fun _ => rfl) terminating
        rw [detach_of_running terminating]
        exact ⟨updated.once, updated.running, updated.stopping⟩
  | expire => exact ⟨counted.once, counted.running, counted.stopping⟩
  | deleteTerminate => exact orderly.elim

theorem of_run {recoveryUser : Str} {events : List Event}
    (run : RunWhen Orderly (Subscriptions.step recoveryUser) empty events s) : Counted s := by
  have initial : Counted empty := ⟨fun _ => Nat.zero_le 1, fun _ _ => rfl, by simp [empty]⟩
  refine run.invariant initial ?_
  intro _ _ _ _ earlier before orderly taken
  refine before.step (fun registered => ?_) orderly taken
  exact (Invariant.of_run earlier.run).alive_fresh (alive_iff.mpr (.inl registered))

end Counted

section Finality

variable {recoveryUser : Str} {s t : Subscriptions} {event : Event} {ref : SubscriptionRef}

/-- An orderly step does not touch a subscription which is terminating. -/
theorem heap_of_terminating (orderly : Orderly s event) (known : ref < s.fresh)
    (terminating : (s.heap ref).state = .terminating)
    (taken : s.step recoveryUser event = some t) : t.heap ref = s.heap ref := by
  cases step_effect taken with
  | winds winds => exact (winds.heap ref).eq_of_terminating terminating
  | @establish _ _ _ dataFormat subscriptionId uuid user _ _ _ winds =>
      have placed : (s.place subscriptionId dataFormat uuid user).heap ref = s.heap ref := by
        simp [place, Nat.ne_of_lt known]
      rw [← placed] at terminating ⊢
      exact (winds.heap ref).eq_of_terminating terminating
  | @connect accepted io =>
      have another : ref ≠ accepted := by
        rintro rfl
        exact orderly ref io terminating
      rw [attach_heap, update_heap_other s _ another]
  | @disconnect closed io _ =>
      by_cases same : ref = closed
      · subst same
        rw [detach_of_terminating terminating]
      · exact detach_heap_other s same
  | expire => rfl
  | deleteTerminate => exact orderly.elim

theorem fresh_of_step (taken : s.step recoveryUser event = some t) : s.fresh ≤ t.fresh := by
  cases step_effect taken with
  | winds winds => exact Nat.le_of_eq winds.fresh.symm
  | establish _ _ winds =>
      rw [winds.fresh]
      exact Nat.le_succ _
  | connect io => exact Nat.le_refl _
  | disconnect => exact Nat.le_of_eq (detach_fresh s _).symm
  | expire => exact Nat.le_refl _
  | deleteTerminate _ winds => exact Nat.le_of_eq winds.fresh.symm

/-- Waits which stem from others are on the same timers. -/
theorem length_filter_of_stems {new old : List Wait}
    (stems : List.SublistForall₂ Wait.StemsFrom new old) (ref : SubscriptionRef) :
    (new.filter fun wait => wait.timer = ref).length ≤
      (old.filter fun wait => wait.timer = ref).length := by
  induction stems with
  | nil => exact Nat.zero_le _
  | cons head _ ih =>
      simp only [List.filter_cons, head.timer]
      split
      · exact Nat.succ_le_succ ih
      · exact ih
  | cons_right _ ih =>
      rw [List.filter_cons]
      split
      · exact Nat.le_succ_of_le ih
      · exact ih

theorem length_filter_cancel (waits : List Wait) (cancelled ref : SubscriptionRef) :
    ((waits.map (Wait.cancel cancelled)).filter fun wait => wait.timer = ref).length =
      (waits.filter fun wait => wait.timer = ref).length := by
  induction waits with
  | nil => rfl
  | cons wait waits ih =>
      simp only [List.map_cons, List.filter_cons, (Wait.StemsFrom.cancel cancelled wait).timer]
      split
      · exact congrArg (· + 1) ih
      · exact ih

theorem length_filter_set (waits : List Wait) {index : Nat} {wait : Wait} (status : WaitStatus)
    (present : waits[index]? = some wait) (ref : SubscriptionRef) :
    ((waits.set index { wait with status }).filter fun wait => wait.timer = ref).length =
      (waits.filter fun wait => wait.timer = ref).length := by
  induction waits generalizing index with
  | nil => cases present
  | cons first rest ih =>
      cases index with
      | zero =>
          cases present
          simp only [List.set_cons_zero, List.filter_cons]
          split <;> rfl
      | succ index =>
          simp only [List.set_cons_succ, List.filter_cons]
          split
          · exact congrArg (· + 1) (ih present)
          · exact ih present

/-- No step arms the timer of a subscription which is terminating. -/
theorem waitsOn_of_terminating (known : ref < s.fresh)
    (terminating : (s.heap ref).state = .terminating)
    (taken : s.step recoveryUser event = some t) :
    (t.waitsOn ref).length ≤ (s.waitsOn ref).length := by
  have others : ∀ {waits : List Wait} {wait : Wait}, wait.timer ≠ ref →
      ((waits ++ [wait]).filter fun wait => wait.timer = ref).length =
        (waits.filter fun wait => wait.timer = ref).length := by
    intro waits wait another
    simp [List.filter_append, another]
  cases step_effect taken with
  | winds winds => exact length_filter_of_stems winds.waits ref
  | establish _ _ winds =>
      refine Nat.le_trans (length_filter_of_stems winds.waits ref) ?_
      simp only [place]
      rw [others (Nat.ne_of_gt known), length_filter_cancel]
      exact Nat.le_refl _
  | connect io =>
      rw [waitsOn, attach_waits, length_filter_cancel]
      exact Nat.le_refl _
  | @disconnect closed io _ =>
      by_cases stays : (s.heap closed).state = .terminating
      · rw [detach_of_terminating stays]
        exact Nat.le_refl _
      · have another : closed ≠ ref := by
          rintro rfl
          exact stays terminating
        rw [detach_of_running stays, waitsOn, others another, length_filter_cancel]
        exact Nat.le_refl _
  | expire present _ =>
      rw [waitsOn, length_filter_set _ _ present]
      exact Nat.le_refl _
  | deleteTerminate _ winds => exact length_filter_of_stems winds.waits ref

theorem terminate_terminating (s : Subscriptions) (ref : SubscriptionRef) :
    ((s.terminate ref).heap ref).state = .terminating := by
  unfold terminate
  split
  next terminating => exact terminating
  · rw [update_heap_self]

/-- Winding down keeps a subscription terminating. -/
theorem Winds.terminating (winds : Winds s t) (terminating : (s.heap ref).state = .terminating) :
    (t.heap ref).state = .terminating := by
  rw [(winds.heap ref).eq_of_terminating terminating]
  exact terminating

/-- All other ways of termination leave the subscription terminating. -/
theorem terminating_of_terminates (orderly : Orderly s event) (terminates : Terminates s event ref)
    (taken : s.step recoveryUser event = some t) : (t.heap ref).state = .terminating := by
  cases terminates with
  | delete io => exact orderly.elim
  | @inactivity index wait self _ uuid present expired weakThis live found =>
      simp only [Subscriptions.step, present, expired] at taken
      split at taken
      · cases taken
        have handled : inactivityHandler { s with waits := s.waits.eraseIdx index } wait =
            terminateSubscription { s with waits := s.waits.eraseIdx index }
              (s.heap self).subscriptionId := by
          have same : alive { s with waits := s.waits.eraseIdx index } self = true := live
          simp only [inactivityHandler, weakThis, same, if_true]
        have same : findById { s with waits := s.waits.eraseIdx index }
            (s.heap self).subscriptionId = some (uuid, ref) := found
        rw [handled, terminateSubscription, same]
        exact ((Winds.erase _ uuid).trans (.release _ ref)).terminating
          (terminate_terminating _ ref)
      · cases taken
  | shutdown =>
      simp only [Subscriptions.step] at taken
      split at taken
      · cases taken
        exact terminate_terminating s ref
      · cases taken
  | stop stopping =>
      simp only [Subscriptions.step, stopping] at taken
      cases taken
      have stopped : ((s.stopSubscription ref).heap ref).state = .terminating := by
        rw [stopSubscription, update_heap_self]
      exact stopped

theorem known_of_terminates {events : List Event} (invariant : Invariant events s)
    (counted : Counted s) (orderly : Orderly s event) (terminates : Terminates s event ref)
    (taken : s.step recoveryUser event = some t) : ref < s.fresh := by
  cases terminates with
  | delete io => exact orderly.elim
  | inactivity _ _ _ _ found =>
      exact invariant.alive_fresh (alive_iff.mpr (.inl (registered_of_findById found)))
  | shutdown =>
      simp only [Subscriptions.step] at taken
      split at taken
      next possible =>
        simp only [Bool.or_eq_true, List.contains_iff_mem, beq_iff_eq] at possible
        refine invariant.alive_fresh (alive_iff.mpr (.inr ?_))
        rcases possible with active | accepted
        · exact .inr (.inl active)
        · exact .inl (by rw [accepted]; rfl)
      · cases taken
  | stop stopping => exact counted.stopping stopping List.mem_cons_self

/-- A subscription which is terminating is not touched in an orderly continuation. -/
theorem heap_of_run {more : List Event} {u : Subscriptions}
    (onwards : RunWhen Orderly (Subscriptions.step recoveryUser) t more u) (known : ref < t.fresh)
    (terminating : (t.heap ref).state = .terminating) :
    u.heap ref = t.heap ref ∧ ref < u.fresh := by
  refine onwards.invariant ⟨rfl, known⟩ ?_
  rintro _ _ _ _ _ ⟨same, before⟩ orderly taken
  refine ⟨?_, Nat.lt_of_lt_of_le before (fresh_of_step taken)⟩
  rw [heap_of_terminating orderly before (by rw [same, terminating]) taken, same]

/-- In a run of orderly steps, termination is final. -/
theorem finished_of_orderly {events more : List Event} {u : Subscriptions}
    (run : RunWhen Orderly (Subscriptions.step recoveryUser) empty events s)
    (terminates : Terminates s event ref) (orderly : Orderly s event)
    (taken : s.step recoveryUser event = some t)
    (onwards : RunWhen Orderly (Subscriptions.step recoveryUser) t more u) :
    Finished Orderly recoveryUser ref t u := by
  have counted := Counted.of_run run
  have invariant := Invariant.of_run run.run
  have known := known_of_terminates invariant counted orderly terminates taken
  have terminating := terminating_of_terminates orderly terminates taken
  obtain ⟨same, knownLater⟩ :=
    heap_of_run onwards (Nat.lt_of_lt_of_le known (fresh_of_step taken)) terminating
  have state : (u.heap ref).state = .terminating := by rw [same, terminating]
  constructor
  case state => exact state
  case notReady => simp [isReadyToAcceptClient, state]
  case once =>
    rw [same]
    exact (Counted.of_run (run.snoc orderly taken)).once ref
  case notAgain => rw [same]
  case notArmed => exact fun _ further => waitsOn_of_terminating knownLater state further

end Finality

/-- A client comes to a new subscription. -/
def arrival : List Event :=
  [.establish (some (str "http://localhost")) none .json (.ok 1) 7 (str "dwdm"),
    .find 7 (some (str "dwdm")), .checkReady, .connect]

theorem arrival_orderly : ∃ s,
    RunWhen Orderly (Subscriptions.step (str "root")) empty arrival s ∧ s.io = .idle ∧
      s.activeStreams = [0] := by
  refine ⟨_, .snoc (.snoc (.snoc (.snoc .nil trivial rfl) trivial rfl) trivial rfl) ?_ rfl, rfl,
    rfl⟩
  intro ref accepted
  cases accepted
  decide

/-- The shutdown reaches the subscription, and its client goes. -/
theorem shutdown_finished : ∃ s t u,
    RunWhen Orderly (Subscriptions.step (str "root")) empty arrival s ∧
      s.step (str "root") (.shutdown 0) = some t ∧
      RunWhen Orderly (Subscriptions.step (str "root")) t [.disconnect 0] u ∧
      Finished Orderly (str "root") 0 t u := by
  obtain ⟨s, run, idle, active⟩ := arrival_orderly
  have taken : s.step (str "root") (.shutdown 0) = some (s.terminate 0) := by
    simp [Subscriptions.step, active]
  have closed : (s.terminate 0).step (str "root") (.disconnect 0) =
      some ((s.terminate 0).detach 0) := by
    have winds := Winds.terminate s 0
    have task : (s.terminate 0).io = .idle := by
      unfold terminate
      split <;> exact idle
    simp [Subscriptions.step, task, winds.active, active, detach]
  have onwards : RunWhen Orderly (Subscriptions.step (str "root")) (s.terminate 0) [.disconnect 0]
      ((s.terminate 0).detach 0) := .snoc .nil trivial closed
  exact ⟨s, _, _, run, taken, onwards, finished_of_orderly run .shutdown trivial taken onwards⟩

/-- Deleting a subscription leaves it ready for a client, and sysrepo is asked for a second
time when it is destroyed. -/
theorem deletion_not_finished : ∃ s t u,
    Run (Subscriptions.step (str "root")) empty
        [.establish (some (str "http://localhost")) none .json (.ok 1) 7 (str "dwdm"),
          .delete false 1 (some (str "dwdm"))] s ∧
      Terminates s (.deleteTerminate none) 0 ∧
      s.step (str "root") (.deleteTerminate none) = some t ∧
      Run (Subscriptions.step (str "root")) t [.deleteErase] u ∧
      ¬Finished (fun _ _ => True) (str "root") 0 t t ∧
      ¬Finished (fun _ _ => True) (str "root") 0 t u ∧
      t.isReadyToAcceptClient 0 = true ∧ (u.heap 0).terminateCalls = 2 := by
  refine ⟨_, _, _, .of_execute rfl, .delete rfl, rfl, .of_execute rfl, ?_, ?_, rfl, rfl⟩
  · intro finished
    cases finished.state
  · intro finished
    have once := finished.once
    revert once
    decide

end Rousette.Restconf.Subscriptions
