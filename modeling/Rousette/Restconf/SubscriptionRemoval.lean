import Rousette.Restconf.SubscriptionIsolation

/-!
# Removal of subscriptions

What `deleteSubscription` leaves in the registry, with steps of other threads between its own
ones, compared with what `terminateSubscription` leaves there.
-/

namespace Rousette.Restconf.Subscriptions

open Library

variable {recoveryUser : Str} {s t u : Subscriptions}

/-! ## Steps of other threads -/

/-- The steps which do not belong to the io thread, or only to its timers. -/
def IsBackground : Event → Prop
  | .expire _ | .shutdown _ | .stop | .stopNext => True
  | _ => False

/-- The registry, the request in progress and the keys of the subscriptions are the same. -/
structure Beside (s t : Subscriptions) : Prop where
  registry : t.registry = s.registry
  io : t.io = s.io
  uuid : ∀ ref, (t.heap ref).uuid = (s.heap ref).uuid

theorem Beside.trans (first : Beside s t) (second : Beside t u) : Beside s u where
  registry := second.registry.trans first.registry
  io := second.io.trans first.io
  uuid ref := (second.uuid ref).trans (first.uuid ref)

theorem beside_update (s : Subscriptions) (ref : SubscriptionRef)
    {change : SubscriptionData → SubscriptionData}
    (uuid : ∀ sub, (change sub).uuid = sub.uuid) : Beside s (s.update ref change) where
  registry := rfl
  io := rfl
  uuid other := by
    by_cases same : other = ref
    · rw [same, update_heap_self, uuid]
    · rw [update_heap_other s change same]

theorem beside_terminate (s : Subscriptions) (ref : SubscriptionRef) :
    Beside s (s.terminate ref) := by
  unfold terminate
  split
  · exact ⟨rfl, rfl, fun _ => rfl⟩
  · exact beside_update s ref fun _ => rfl

theorem beside_of_step {event : Event} (background : IsBackground event)
    (taken : s.step recoveryUser event = some t) : Beside s t := by
  cases event with
  | expire index =>
      simp only [step] at taken
      split at taken
      · split at taken
        · cases taken
          exact ⟨rfl, rfl, fun _ => rfl⟩
        · cases taken
      · cases taken
  | shutdown ref =>
      simp only [step] at taken
      split at taken
      · cases taken
        exact beside_terminate s ref
      · cases taken
  | stop =>
      simp only [step] at taken
      split at taken
      · cases taken
        exact ⟨rfl, rfl, fun _ => rfl⟩
      · cases taken
  | stopNext =>
      simp only [step] at taken
      split at taken
      next ref rest _ =>
        cases taken
        have stopped : Beside (s.inactivityCancel ref) (s.stopSubscription ref) :=
          beside_update _ ref fun _ => rfl
        exact ⟨stopped.registry, stopped.io, stopped.uuid⟩
      · cases taken
        exact ⟨rfl, rfl, fun _ => rfl⟩
      · cases taken
  | _ => exact background.elim

theorem beside_of_execute {events : List Event} (background : ∀ event ∈ events, IsBackground event)
    (performed : Run.execute (step recoveryUser) s events = some t) : Beside s t := by
  induction events generalizing s with
  | nil =>
      cases performed
      exact ⟨rfl, rfl, fun _ => rfl⟩
  | cons event events ih =>
      obtain ⟨first, rest⟩ := List.forall_mem_cons.mp background
      cases taken : s.step recoveryUser event with
      | none => simp [Run.execute, taken] at performed
      | some next =>
          simp only [Run.execute, taken] at performed
          exact (beside_of_step first taken).trans (ih rest performed)

/-! ## Removal from the registry -/

/-- The subscription is not registered any more and everything else is as it was, as it is when
the subscription is terminated by its id. -/
structure Removed (s t : Subscriptions) (ref : SubscriptionRef) (subId : Nat) : Prop where
  gone : ¬t.Registered ref
  others : ∀ entry, entry.2 ≠ ref → (entry ∈ t.registry ↔ entry ∈ s.registry)
  asTerminated : t.registry = (s.terminateSubscription subId).registry

theorem terminateSubscription_registry {subId : Nat} {uuid : Uuid} {ref : SubscriptionRef}
    (found : s.findById subId = some (uuid, ref)) :
    (s.terminateSubscription subId).registry = s.registry.filter (·.1 != uuid) := by
  rw [terminateSubscription, found]
  change (((s.terminate ref).erase uuid).release ref).registry = _
  rw [release_registry]
  change (s.terminate ref).registry.filter (·.1 != uuid) = _
  rw [(beside_terminate s ref).registry]

theorem removed_of_registry (kept : WellKept s) {subId : Nat} {uuid : Uuid} {ref : SubscriptionRef}
    (found : s.findById subId = some (uuid, ref))
    (registry : t.registry = s.registry.filter (·.1 != uuid)) : Removed s t ref subId := by
  have member : (uuid, ref) ∈ s.registry := List.mem_of_find?_eq_some found
  constructor
  case gone =>
    rintro ⟨key, inside⟩
    rw [registry, kept.mem_erased_iff member] at inside
    exact inside.2 rfl
  case others =>
    intro entry different
    rw [registry, kept.mem_erased_iff member, and_iff_left different]
  case asTerminated => rw [registry, terminateSubscription_registry found]

/-! ## The RPC -/

/-- The last step of the RPC, unless an exception has left it. -/
def lastStep : Option Sysrepo.ErrorWithCode → List Event
  | none => [.deleteErase]
  | some _ => []

/-- The steps of `delete-subscription` or `kill-subscription`, with others between them. -/
def deletion (isKill : Bool) (subId : Nat) (user : Option Str)
    (error : Option Sysrepo.ErrorWithCode) (before after : List Event) : List Event :=
  .delete isKill subId user :: (before ++ .deleteTerminate error :: (after ++ lastStep error))

section Deletion

variable {isKill : Bool} {subId : Nat} {user : Option Str} {ref : SubscriptionRef}
  {before after : List Event}

theorem execute_delete (allowed : s.deletableSubscription recoveryUser isKill subId user = .ok ref)
    {rest : List Event}
    (performed : Run.execute (step recoveryUser) s (.delete isKill subId user :: rest) = some t) :
    Run.execute (step recoveryUser) { s with io := .deleting ref } rest = some t := by
  by_cases quiet : s.quiet = true
  · simpa [Run.execute, step, quiet, allowed] using performed
  · simp [Run.execute, step, quiet] at performed

theorem execute_deleteTerminate (io : s.io = .deleting ref) (error : Option Sysrepo.ErrorWithCode)
    {rest : List Event} :
    Run.execute (step recoveryUser) s (.deleteTerminate error :: rest) =
      Run.execute (step recoveryUser)
        (match error with
          | none => { s.askToTerminate ref with io := .erasing ref }
          | some _ => { s.askToTerminate ref with io := .idle }.release ref) rest := by
  cases error with
  | none => simp [Run.execute, step, io, askToTerminate]
  | some error => simp [Run.execute, step, io, askToTerminate]

theorem execute_deleteErase (io : s.io = .erasing ref)
    (performed : Run.execute (step recoveryUser) s [.deleteErase] = some t) :
    t = { s.erase (s.heap ref).uuid with io := .idle }.release ref := by
  cases stopping : s.stopping with
  | none => simpa [Run.execute, step, io, stopping] using performed.symm
  | some refs => simp [Run.execute, step, io, stopping] at performed

theorem beside_askToTerminate (s : Subscriptions) (ref : SubscriptionRef) :
    Beside s (s.askToTerminate ref) :=
  beside_update s ref fun _ => rfl

variable (allowed : s.deletableSubscription recoveryUser isKill subId user = .ok ref)
  (backgroundBefore : ∀ event ∈ before, IsBackground event)
  (backgroundAfter : ∀ event ∈ after, IsBackground event)

include allowed backgroundBefore backgroundAfter

/-- An exception leaves the registry as it is. -/
theorem registry_of_failed {error : Sysrepo.ErrorWithCode}
    (performed : Run.execute (step recoveryUser) s
      (deletion isKill subId user (some error) before after) = some t) :
    t.registry = s.registry := by
  have started := execute_delete allowed performed
  obtain ⟨asked, first, rest⟩ := Run.execute_append.mp started
  have early := beside_of_execute backgroundBefore first
  have io : asked.io = .deleting ref := early.io
  rw [execute_deleteTerminate io, lastStep, List.append_nil] at rest
  have late := beside_of_execute backgroundAfter rest
  rw [late.registry, release_registry]
  exact ((beside_askToTerminate asked ref).registry).trans early.registry

/-- Without an exception the key of the subscription is erased. -/
theorem registry_of_deleted
    (performed : Run.execute (step recoveryUser) s
      (deletion isKill subId user none before after) = some t) :
    t.registry = s.registry.filter (·.1 != (s.heap ref).uuid) ∧
      (before = [] → after = [] → ∀ other, other ≠ ref → t.heap other = s.heap other) := by
  have started := execute_delete allowed performed
  obtain ⟨asked, first, rest⟩ := Run.execute_append.mp started
  have early := beside_of_execute backgroundBefore first
  have io : asked.io = .deleting ref := early.io
  rw [execute_deleteTerminate io, lastStep] at rest
  obtain ⟨erasing, second, last⟩ := Run.execute_append.mp rest
  have late := beside_of_execute backgroundAfter second
  have terminated := beside_askToTerminate asked ref
  have uuid : (erasing.heap ref).uuid = (s.heap ref).uuid :=
    (late.uuid ref).trans ((terminated.uuid ref).trans (early.uuid ref))
  have registry : erasing.registry = s.registry :=
    late.registry.trans (terminated.registry.trans early.registry)
  rw [execute_deleteErase late.io last]
  constructor
  · rw [release_registry, ← uuid, ← registry]
    rfl
  · rintro rfl rfl other different
    cases first
    cases second
    have same := update_heap_other s
      (fun sub => { sub with terminateCalls := sub.terminateCalls + 1 }) different
    rw [release_heap_other _ different]
    exact same

/-- After the RPC the subscription is not registered any more, and everything else is as it was,
if and only if sysrepo has not raised an error when it was asked to terminate. -/
theorem removed_iff {events : List Event} {error : Option Sysrepo.ErrorWithCode}
    (run : Run (step recoveryUser) empty events s)
    (performed : Run.execute (step recoveryUser) s
      (deletion isKill subId user error before after) = some t) :
    (Removed s t ref subId ∧
        (before = [] → after = [] → ∀ other, other ≠ ref → t.heap other = s.heap other)) ↔
      error = none := by
  have kept := WellKept.of_run run
  obtain ⟨uuid, found⟩ := findById_of_deletable allowed
  have member : (uuid, ref) ∈ s.registry := List.mem_of_find?_eq_some found
  cases error with
  | some error =>
      have registry := registry_of_failed allowed backgroundBefore backgroundAfter performed
      refine iff_of_false ?_ (Option.some_ne_none error)
      rintro ⟨removed, _⟩
      exact removed.gone ⟨uuid, registry ▸ member⟩
  | none =>
      obtain ⟨registry, unchanged⟩ :=
        registry_of_deleted allowed backgroundBefore backgroundAfter performed
      rw [kept.uuid member] at registry
      exact iff_of_true ⟨removed_of_registry kept found registry, unchanged⟩ rfl

end Deletion

/-! ## A subscription which has ended -/

namespace Ended

/-- What sysrepo raises for a subscription which has ended at its stop time. -/
def alreadyEnded : Sysrepo.ErrorWithCode := ⟨.notFound, str "Subscription was not found"⟩

/-- The subscription of a user, which is deleted by that user. -/
theorem established_removed :
    ∃ s t, Run (step (str "root")) empty [established 1 7 (str "dwdm")] s ∧
      Run.execute (step (str "root")) s
          (deletion false 1 (some (str "dwdm")) none [.stop, .stopNext, .stopNext] []) =
        some t ∧
      Removed s t 0 1 := by
  refine ⟨_, _, .of_execute rfl, rfl, ?_⟩
  have background : ∀ event ∈ [Event.stop, .stopNext, .stopNext], IsBackground event := by
    simp [IsBackground]
  have removed := @removed_iff (str "root") _ _ false 1 (some (str "dwdm")) 0 _ [] rfl background
    nofun [established 1 7 (str "dwdm")] none (.of_execute rfl) rfl
  exact (removed.mpr rfl).1

/-- It is still registered if sysrepo raises an error. -/
theorem ended_not_removed :
    ∃ s t, Run (step (str "root")) empty [established 1 7 (str "dwdm")] s ∧
      s.deletableSubscription (str "root") false 1 (some (str "dwdm")) = .ok 0 ∧
      Run.execute (step (str "root")) s
          (deletion false 1 (some (str "dwdm")) (some alreadyEnded) [] []) = some t ∧
      t.Registered 0 :=
  ⟨_, _, .of_execute rfl, rfl, rfl, 7, by decide⟩

end Ended

end Rousette.Restconf.Subscriptions
