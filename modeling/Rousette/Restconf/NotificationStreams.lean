import Mathlib.Order.Lattice
import Rousette.Http.EventReception
import Rousette.Restconf.Uri

/-!
# Streams of all notifications

`restconf/NotificationStream.cpp`: the stream `NETCONF` subscribes to the notifications of one
module after the other before it is activated.  sysrepo calls back from a thread of its own, and
it does so as soon as the first module is subscribed to.
-/

namespace Rousette.Restconf

open Library
open Http (EventStream)

/-- What is asked about a `libyang::Module`. -/
structure YangLibraryModule where
  name : Str
  implemented : Bool
  deriving DecidableEq, Repr

/-- `canBeSubscribed` -/
def canBeSubscribed (mod : YangLibraryModule) : Bool :=
  mod.implemented && mod.name != str "sysrepo"

/-- `sysrepo::NotificationType`; only the types which are passed on are named. -/
inductive NotificationType where
  | realtime
  | replay
  | other (type : Nat)
  deriving DecidableEq, Repr

namespace NotificationStream

/-! ## Creation -/

section Creation

variable {T : Type} [LinearOrder T]

/-- The checks in the constructor. -/
def checkTimes (now : T) (startTime stopTime : Option T) : Except Exception Unit :=
  let refuse (message : String) : Except Exception Unit :=
    .error (reject 400 "application" "invalid-argument" (str message))
  match startTime, stopTime with
  | some start, some stop =>
      if start ≥ stop then refuse "stop-time must be greater than start-time"
      else if start > now then refuse "start-time is in the future"
      else .ok ()
  | some start, none => if start > now then refuse "start-time is in the future" else .ok ()
  | none, some _ => refuse "stop-time must be used with start-time"
  | none, none => .ok ()

/-- One iteration of the loop in `activate`, for a module which can be subscribed to: the modules
which `m_notifSubs` is for, and the answer of sysrepo. -/
def subscribe (notifSubs : Option (List Str)) (moduleName : Str)
    (answer : Except Sysrepo.ErrorWithCode Unit) : Except Exception (Option (List Str)) :=
  match answer with
  | .ok () => .ok (some (notifSubs.getD [] ++ [moduleName]))
  | .error error =>
      if error.code = .invalidArgument then
        .error (reject 400 "application" "invalid-argument" error.what)
      else if error.code ≠ .notFound then .error (.sysrepo error)
      else .ok notifSubs

/-- The loop in `activate`.  What sysrepo answers may depend on what was subscribed to before. -/
def subscribeAll
    (onNotification : Option (List Str) → Str → Except Sysrepo.ErrorWithCode Unit) :
    Option (List Str) → List YangLibraryModule → Except Exception (Option (List Str))
  | notifSubs, [] => .ok notifSubs
  | notifSubs, mod :: modules =>
      if canBeSubscribed mod then do
        let notifSubs ← subscribe notifSubs mod.name (onNotification notifSubs mod.name)
        subscribeAll onNotification notifSubs modules
      else subscribeAll onNotification notifSubs modules

/-- `NotificationStream::create`, up to `EventStream::activate`. -/
def create (onNotification : Option (List Str) → Str → Except Sysrepo.ErrorWithCode Unit)
    (modules : List YangLibraryModule) (now : T) (startTime stopTime : Option T) :
    Except Exception (Option (List Str)) := do
  checkTimes now startTime stopTime
  subscribeAll onNotification none modules

end Creation

end NotificationStream

/-! ## Subscribing to a module -/

namespace NotificationStream

/-- What `activate` ends with when sysrepo refuses a subscription. -/
def refusal (error : Sysrepo.ErrorWithCode) : Exception :=
  if error.code = .invalidArgument then
    reject 400 "application" "invalid-argument" error.what
  else .sysrepo error

theorem subscribe_eq_ok {notifSubs next : Option (List Str)} {moduleName : Str}
    {answer : Except Sysrepo.ErrorWithCode Unit} :
    subscribe notifSubs moduleName answer = .ok next ↔
      answer = .ok () ∧ next = some (notifSubs.getD [] ++ [moduleName]) ∨
        ∃ error, answer = .error error ∧ error.code = .notFound ∧ next = notifSubs := by
  cases answer with
  | ok => simp [subscribe, eq_comm]
  | error error =>
      rcases error with ⟨code, what⟩
      cases code <;> simp [subscribe, eq_comm]

theorem subscribe_eq_error {notifSubs : Option (List Str)} {moduleName : Str}
    {answer : Except Sysrepo.ErrorWithCode Unit} {exception : Exception} :
    subscribe notifSubs moduleName answer = .error exception ↔
      ∃ error, answer = .error error ∧ error.code ≠ .notFound ∧ exception = refusal error := by
  cases answer with
  | ok => simp [subscribe]
  | error error =>
      rcases error with ⟨code, what⟩
      cases code <;> simp [subscribe, refusal, @eq_comm _ exception]

/-- sysrepo refuses one of the modules; it has accepted those before it, or does not know any
notifications of them. -/
inductive Refuses (onNotification : Option (List Str) → Str → Except Sysrepo.ErrorWithCode Unit) :
    Option (List Str) → List YangLibraryModule → Sysrepo.ErrorWithCode → Prop where
  | here {notifSubs : Option (List Str)} {mod : YangLibraryModule}
      {modules : List YangLibraryModule} {error : Sysrepo.ErrorWithCode}
      (fit : canBeSubscribed mod = true)
      (refused : onNotification notifSubs mod.name = .error error)
      (known : error.code ≠ .notFound) : Refuses onNotification notifSubs (mod :: modules) error
  | later {notifSubs next : Option (List Str)} {mod : YangLibraryModule}
      {modules : List YangLibraryModule} {error : Sysrepo.ErrorWithCode}
      (fit : canBeSubscribed mod = true)
      (taken : subscribe notifSubs mod.name (onNotification notifSubs mod.name) = .ok next)
      (refuses : Refuses onNotification next modules error) :
      Refuses onNotification notifSubs (mod :: modules) error
  | unfit {notifSubs : Option (List Str)} {mod : YangLibraryModule}
      {modules : List YangLibraryModule} {error : Sysrepo.ErrorWithCode}
      (unfit : ¬canBeSubscribed mod = true)
      (refuses : Refuses onNotification notifSubs modules error) :
      Refuses onNotification notifSubs (mod :: modules) error

/-- The loop of `activate` ends with the first refusal. -/
theorem subscribeAll_eq_error
    {onNotification : Option (List Str) → Str → Except Sysrepo.ErrorWithCode Unit}
    {notifSubs : Option (List Str)} {modules : List YangLibraryModule} {exception : Exception} :
    subscribeAll onNotification notifSubs modules = .error exception ↔
      ∃ error, Refuses onNotification notifSubs modules error ∧ exception = refusal error := by
  induction modules generalizing notifSubs with
  | nil =>
      constructor
      · exact nofun
      · rintro ⟨error, refuses, -⟩
        cases refuses
  | cons mod modules ih =>
      rw [subscribeAll]
      split
      next fit =>
        cases taken : subscribe notifSubs mod.name (onNotification notifSubs mod.name) with
        | ok next =>
            rw [except_ok_bind, ih]
            constructor
            · rintro ⟨error, refuses, same⟩
              exact ⟨error, .later fit taken refuses, same⟩
            · rintro ⟨error, refuses, same⟩
              cases refuses with
              | here _ refused known =>
                  have failed : subscribe notifSubs mod.name (onNotification notifSubs mod.name) =
                      .error (refusal error) := subscribe_eq_error.mpr ⟨error, refused, known, rfl⟩
                  rw [taken] at failed
                  cases failed
              | later _ also refuses =>
                  rw [taken] at also
                  cases also
                  exact ⟨error, refuses, same⟩
              | unfit unfit => exact absurd fit unfit
        | error raised =>
            obtain ⟨error, refused, known, rfl⟩ := subscribe_eq_error.mp taken
            constructor
            · intro failed
              cases failed
              exact ⟨error, .here fit refused known, rfl⟩
            · rintro ⟨other, refuses, rfl⟩
              cases refuses with
              | here _ also =>
                  rw [refused] at also
                  cases also
                  rfl
              | later _ also =>
                  rw [taken] at also
                  cases also
              | unfit unfit => exact absurd fit unfit
      next unfit =>
        rw [ih]
        constructor
        · rintro ⟨error, refuses, same⟩
          exact ⟨error, .unfit unfit refuses, same⟩
        · rintro ⟨error, refuses, same⟩
          cases refuses with
          | here fit | later fit => exact absurd fit unfit
          | unfit _ refuses => exact ⟨error, refuses, same⟩

end NotificationStream

/-! ## Steps -/

/-- A stream of notifications; the program does not have the fields `asked` and `arrived`. -/
structure NotificationStream (N : Type) where
  /-- the base class -/
  stream : EventStream
  /-- the modules which the loop of `activate` has not come to yet -/
  modules : List YangLibraryModule
  /-- `m_notifSubs`, by the modules it is for -/
  notifSubs : Option (List Str)
  /-- what `activate` has ended with -/
  exception : Option Exception
  /-- the modules which sysrepo was asked for, with its answers -/
  asked : List (Str × Except Sysrepo.ErrorWithCode Unit)
  /-- what sysrepo has called back with, and which is to be passed on -/
  arrived : List N

namespace NotificationStream

variable {N : Type}

/-- The constructor has begun. -/
def initial (modules : List YangLibraryModule) : NotificationStream N where
  stream := .initial
  modules := modules
  notifSubs := none
  exception := none
  asked := []
  arrived := []

/-- What may happen. -/
inductive Event (N : Type) where
  /-- an event of the base class -/
  | base (event : EventStream.Event)
  /-- the loop of `activate` comes to the next module, and sysrepo answers -/
  | subscribe (answer : Except Sysrepo.ErrorWithCode Unit)
  /-- sysrepo calls back for a module -/
  | notify (moduleName : Str) (type : NotificationType) (notification : N)

/-- The loop of `activate` makes an iteration. -/
def subscribeNext (s : NotificationStream N) (mod : YangLibraryModule)
    (modules : List YangLibraryModule) (answer : Except Sysrepo.ErrorWithCode Unit) :
    NotificationStream N :=
  if canBeSubscribed mod then
    let s := { s with modules, asked := s.asked ++ [(mod.name, answer)] }
    match subscribe s.notifSubs mod.name answer with
    | .ok notifSubs => { s with notifSubs }
    | .error exception => { s with exception := some exception }
  else { s with modules }

/-- The callback of a subscription, which only passes on what is real. -/
def notifCb (asRestconfNotification : N → Str) (s : NotificationStream N)
    (type : NotificationType) (notification : N) : NotificationStream N :=
  if type ≠ .realtime ∧ type ≠ .replay then s
  else
    { s with
      stream := s.stream.enqueue EventStream.fieldData (asRestconfNotification notification)
      arrived := s.arrived ++ [notification] }

/-- The state after an event, if it can happen. -/
def step (asRestconfNotification : N → Str) (s : NotificationStream N) :
    Event N → Option (NotificationStream N)
  -- the signal belongs to the stream, and only the callbacks emit it
  | .base (.enqueue _) => none
  | .base .activate =>
      if s.modules = [] ∧ s.exception = none then
        (s.stream.step .activate).map fun stream => { s with stream }
      else none
  | .base event => (s.stream.step event).map fun stream => { s with stream }
  | .subscribe answer =>
      if s.stream.phase = .owned ∧ s.exception = none then
        match s.modules with
        | mod :: modules => some (s.subscribeNext mod modules answer)
        | [] => none
      else none
  | .notify moduleName type notification =>
      if s.exception = none ∧ (s.notifSubs.getD []).contains moduleName then
        some (s.notifCb asRestconfNotification type notification)
      else none

/-- What a step can do. -/
inductive Effect (render : N → Str) (s : NotificationStream N) :
    Event N → NotificationStream N → Prop where
  | base {event : EventStream.Event} {stream : EventStream}
      (taken : s.stream.step event = some stream) (silent : event.text = none)
      (ready : event = .activate → s.modules = [] ∧ s.exception = none) :
      Effect render s (.base event) { s with stream }
  | subscribe {mod : YangLibraryModule} {modules : List YangLibraryModule}
      (going : s.exception = none) (next : s.modules = mod :: modules)
      (answer : Except Sysrepo.ErrorWithCode Unit) :
      Effect render s (.subscribe answer) (s.subscribeNext mod modules answer)
  | notify {moduleName : Str} (subscribed : moduleName ∈ s.notifSubs.getD [])
      (type : NotificationType) (notification : N) :
      Effect render s (.notify moduleName type notification)
        (s.notifCb render type notification)

theorem step_effect {render : N → Str} {s t : NotificationStream N} {event : Event N}
    (taken : s.step render event = some t) : Effect render s event t := by
  cases event with
  | base event =>
      cases event with
      | enqueue => cases taken
      | activate =>
          simp only [step] at taken
          split at taken
          next ready =>
            obtain ⟨stream, moved, rfl⟩ := Option.map_eq_some_iff.mp taken
            exact .base moved rfl fun _ => ready
          · cases taken
      | terminate | own | process | runTask | pingExpire | pingComplete | onClose | destroy =>
          obtain ⟨stream, moved, rfl⟩ := Option.map_eq_some_iff.mp taken
          exact .base moved rfl nofun
  | subscribe answer =>
      simp only [step] at taken
      split at taken
      next ready =>
        split at taken <;> cases taken
        next next => exact .subscribe ready.2 next answer
      · cases taken
  | notify moduleName type notification =>
      simp only [step] at taken
      split at taken <;> cases taken
      next ready => exact .notify (List.contains_iff_mem.mp ready.2) type notification

/-! ## What the stream is subscribed to -/

section Subscriptions

variable {render : N → Str} {s t : NotificationStream N} {modules : List YangLibraryModule}

/-- Has sysrepo taken a subscription? -/
def isAccepted (asked : Str × Except Sysrepo.ErrorWithCode Unit) : Bool :=
  match asked.2 with
  | .ok _ => true
  | .error _ => false

/-- A module which sysrepo does not know any notifications of. -/
def IsWithoutNotifications (asked : Str × Except Sysrepo.ErrorWithCode Unit) : Prop :=
  ∃ error, asked.2 = .error error ∧ error.code = .notFound

theorem filter_asked (asked : List (Str × Except Sysrepo.ErrorWithCode Unit)) (moduleName : Str)
    (answer : Except Sysrepo.ErrorWithCode Unit) :
    (asked ++ [(moduleName, answer)]).filter isAccepted =
      asked.filter isAccepted ++ if answer.isOk then [(moduleName, answer)] else [] := by
  rw [List.filter_append]
  cases answer with
  | ok => rfl
  | error error => rfl

/-- The modules which were gone through, and what has become of them. -/
structure Subscribes (modules : List YangLibraryModule) (s : NotificationStream N) : Prop where
  asked : ∃ before, modules = before ++ s.modules ∧
    s.asked.map Prod.fst = (before.filter canBeSubscribed).map YangLibraryModule.name
  notifSubs : s.notifSubs.getD [] = (s.asked.filter isAccepted).map Prod.fst
  going : s.exception = none → ∀ asked ∈ s.asked, isAccepted asked = true ∨
    IsWithoutNotifications asked
  activated : s.stream.activated = true → s.modules = [] ∧ s.exception = none

namespace Subscribes

theorem initial : Subscribes modules (initial modules : NotificationStream N) := by
  constructor
  case asked => exact ⟨[], rfl, rfl⟩
  case notifSubs => rfl
  case going => exact fun _ => List.forall_mem_nil _
  case activated => exact nofun

/-- Only the stream changes. -/
theorem withStream (subscribes : Subscribes modules s) {stream : EventStream}
    (activated : stream.activated = true → s.modules = [] ∧ s.exception = none) :
    Subscribes modules { s with stream } :=
  ⟨subscribes.asked, subscribes.notifSubs, subscribes.going, activated⟩

/-- The loop comes to the next module. -/
theorem subscribeNext (subscribes : Subscribes modules s) {mod : YangLibraryModule}
    {rest : List YangLibraryModule} (going : s.exception = none) (next : s.modules = mod :: rest)
    (answer : Except Sysrepo.ErrorWithCode Unit) :
    Subscribes modules (s.subscribeNext mod rest answer) := by
  obtain ⟨before, all, asked⟩ := subscribes.asked
  have inactive : s.stream.activated ≠ true := by
    intro active
    have ended := (subscribes.activated active).1
    rw [next] at ended
    cases ended
  have all' : modules = (before ++ [mod]) ++ rest := by rw [all, next, List.append_cons]
  unfold NotificationStream.subscribeNext
  split
  case isFalse unfit =>
    have asked' : s.asked.map Prod.fst =
        ((before ++ [mod]).filter canBeSubscribed).map YangLibraryModule.name := by
      rw [List.filter_append, List.filter_cons_of_neg unfit, List.filter_nil, List.append_nil,
        asked]
    exact ⟨⟨_, all', asked'⟩, subscribes.notifSubs, subscribes.going,
      fun active => absurd active inactive⟩
  case isTrue fit =>
    have asked' : (s.asked ++ [(mod.name, answer)]).map Prod.fst =
        ((before ++ [mod]).filter canBeSubscribed).map YangLibraryModule.name := by
      rw [List.filter_append, List.filter_cons_of_pos fit, List.map_append, List.map_append, asked]
      rfl
    dsimp only
    split
    next notifSubs outcome =>
      rcases subscribe_eq_ok.mp outcome with ⟨rfl, rfl⟩ | ⟨error, rfl, absent, rfl⟩
      · refine ⟨⟨_, all', asked'⟩, ?_, fun _ => ?_, fun active => absurd active inactive⟩
        · change s.notifSubs.getD [] ++ [mod.name] = _
          rw [subscribes.notifSubs, filter_asked, List.map_append]
          rfl
        · exact List.forall_mem_append.mpr
            ⟨subscribes.going going, List.forall_mem_singleton.mpr (.inl rfl)⟩
      · refine ⟨⟨_, all', asked'⟩, ?_, fun _ => ?_, fun active => absurd active inactive⟩
        · rw [subscribes.notifSubs, filter_asked]
          exact congrArg _ (List.append_nil _).symm
        · exact List.forall_mem_append.mpr
            ⟨subscribes.going going, List.forall_mem_singleton.mpr (.inr ⟨error, rfl, absent⟩)⟩
    next exception outcome =>
      obtain ⟨error, rfl, -, -⟩ := subscribe_eq_error.mp outcome
      refine ⟨⟨_, all', asked'⟩, ?_, nofun, fun active => absurd active inactive⟩
      rw [subscribes.notifSubs, filter_asked]
      exact congrArg _ (List.append_nil _).symm

theorem step {event : Event N} (subscribes : Subscribes modules s)
    (taken : s.step render event = some t) : Subscribes modules t := by
  cases step_effect taken with
  | @base event stream moved _ ready =>
      refine subscribes.withStream fun active => ?_
      by_cases activates : event = .activate
      · exact ready activates
      · rw [EventStream.activated_of_step moved activates] at active
        exact subscribes.activated active
  | subscribe going next answer => exact subscribes.subscribeNext going next answer
  | notify _ type notification =>
      unfold notifCb
      split
      · exact subscribes
      · refine ⟨subscribes.asked, subscribes.notifSubs, subscribes.going, fun active => ?_⟩
        exact subscribes.activated ((EventStream.enqueue_activated _ _ _).symm.trans active)

theorem run {events : List (Event N)}
    (run : Run (NotificationStream.step render) (NotificationStream.initial modules) events s) :
    Subscribes modules s := by
  induction run with
  | nil => exact initial
  | snoc _ taken ih => exact ih.step taken

/-- What is subscribed to can be. -/
theorem canBeSubscribed_of_mem (subscribes : Subscribes modules s) {moduleName : Str}
    (member : moduleName ∈ s.notifSubs.getD []) :
    ∃ mod ∈ modules, mod.name = moduleName ∧ canBeSubscribed mod = true := by
  obtain ⟨before, all, asked⟩ := subscribes.asked
  rw [subscribes.notifSubs] at member
  obtain ⟨entry, found, rfl⟩ := List.mem_map.mp member
  have among : entry.1 ∈ (before.filter canBeSubscribed).map YangLibraryModule.name := by
    rw [← asked]
    exact List.mem_map_of_mem (List.mem_filter.mp found).1
  obtain ⟨mod, fit, name⟩ := List.mem_map.mp among
  obtain ⟨here, fit⟩ := List.mem_filter.mp fit
  exact ⟨mod, all ▸ List.mem_append_left _ here, name, fit⟩

/-- An active stream has asked for every module which can be subscribed to. -/
theorem settled (subscribes : Subscribes modules s) (active : s.stream.activated = true)
    {mod : YangLibraryModule} (member : mod ∈ modules) (fit : canBeSubscribed mod = true) :
    mod.name ∈ s.notifSubs.getD [] ∨
      ∃ error, (mod.name, .error error) ∈ s.asked ∧ error.code = .notFound := by
  obtain ⟨before, all, asked⟩ := subscribes.asked
  obtain ⟨ended, going⟩ := subscribes.activated active
  rw [ended, List.append_nil] at all
  have among : mod.name ∈ s.asked.map Prod.fst := by
    rw [asked, ← all]
    exact List.mem_map_of_mem (List.mem_filter.mpr ⟨member, fit⟩)
  obtain ⟨entry, found, name⟩ := List.mem_map.mp among
  rcases subscribes.going going entry found with accepted | ⟨error, refused, absent⟩
  · left
    rw [subscribes.notifSubs, ← name]
    exact List.mem_map_of_mem (List.mem_filter.mpr ⟨found, accepted⟩)
  · right
    refine ⟨error, ?_, absent⟩
    rw [← name, ← refused]
    exact found

end Subscribes

end Subscriptions

/-! ## What a client gets -/

section Reception

variable {render : N → Str} {s t : NotificationStream N} {modules : List YangLibraryModule}
  {events : List (Event N)}

/-- What sysrepo calls back with at a step, if it is to be passed on. -/
def Event.passed : Event N → Option N
  | .notify _ .realtime notification => some notification
  | .notify _ .replay notification => some notification
  | _ => none

/-- What has arrived is what a client is to get. -/
structure Receives (render : N → Str) (events : List (Event N)) (s : NotificationStream N) :
    Prop where
  arrived : s.arrived = events.filterMap Event.passed
  accepts : EventStream.AcceptsFirst (s.arrived.map render) s.stream
  faithful : EventStream.Faithful s.stream

namespace Receives

/-- A step at which nothing is passed on. -/
theorem same {event : Event N} (receives : Receives render events s)
    (nothing : event.passed = none) (arrived : t.arrived = s.arrived)
    (accepts : EventStream.AcceptsFirst (s.arrived.map render) t.stream)
    (faithful : EventStream.Faithful t.stream) : Receives render (events ++ [event]) t := by
  constructor
  case arrived => simp [arrived, receives.arrived, nothing]
  case accepts => exact arrived ▸ accepts
  case faithful => exact faithful

theorem notify {event : Event N} {notification : N} (receives : Receives render events s)
    (passed : event.passed = some notification) :
    Receives render (events ++ [event])
      { s with
        stream := s.stream.enqueue EventStream.fieldData (render notification)
        arrived := s.arrived ++ [notification] } := by
  constructor
  case arrived => simp [receives.arrived, passed]
  case accepts =>
    have accepts := receives.accepts.message (render notification)
    rw [← List.map_singleton (f := render), ← List.map_append] at accepts
    exact accepts
  case faithful => exact receives.faithful.enqueue _ _

theorem step {event : Event N} (receives : Receives render events s)
    (taken : s.step render event = some t) : Receives render (events ++ [event]) t := by
  cases step_effect taken with
  | base moved silent =>
      exact receives.same rfl rfl (receives.accepts.step_silent moved silent)
        (receives.faithful.step moved)
  | @subscribe mod rest _ _ answer =>
      have untouched : (s.subscribeNext mod rest answer).stream = s.stream ∧
          (s.subscribeNext mod rest answer).arrived = s.arrived := by
        unfold subscribeNext
        split
        · dsimp only
          split <;> exact ⟨rfl, rfl⟩
        · exact ⟨rfl, rfl⟩
      refine receives.same rfl untouched.2 ?_ ?_
      · rw [untouched.1]
        exact receives.accepts
      · rw [untouched.1]
        exact receives.faithful
  | notify _ type notification =>
      cases type with
      | realtime => exact receives.notify rfl
      | replay => exact receives.notify rfl
      | other type => exact receives.same rfl rfl receives.accepts receives.faithful

theorem run (run : Run (NotificationStream.step render) (initial modules) events s) :
    Receives render events s := by
  induction run with
  | nil => exact ⟨rfl, EventStream.AcceptsFirst.initial, EventStream.Faithful.run .nil⟩
  | snoc _ taken ih => exact ih.step taken

end Receives

/-- In every reachable state a client has got events for a beginning of the notifications which
sysrepo has called back with, in their order and with nothing left out, and for all of them when
the stream waits for events.  They come from modules which can be subscribed to; and an active
stream is subscribed to each of these, unless sysrepo knows no notifications of the module. -/
theorem received_from_all_modules
    (run : Run (NotificationStream.step render) (initial modules) events s)
    (noReturn : ∀ notification ∈ s.arrived, chr '\r' ∉ render notification) :
    s.arrived = events.filterMap Event.passed ∧
      Library.EventSource.events s.stream.sent <+:
        s.arrived.map (EventStream.messageEvent ∘ render) ∧
      (s.stream.state = .waitingForEvents → Library.EventSource.events s.stream.sent =
        s.arrived.map (EventStream.messageEvent ∘ render)) ∧
      (∀ moduleName ∈ s.notifSubs.getD [],
        ∃ mod ∈ modules, mod.name = moduleName ∧ canBeSubscribed mod = true) ∧
      (s.stream.activated = true → ∀ mod ∈ modules, canBeSubscribed mod = true →
        mod.name ∈ s.notifSubs.getD [] ∨
          ∃ error, (mod.name, .error error) ∈ s.asked ∧ error.code = .notFound) := by
  have receives := Receives.run run
  have subscribes := Subscribes.run run
  have plain : ∀ what ∈ s.arrived.map render, chr '\r' ∉ what := by
    intro what member
    obtain ⟨notification, arrived, rfl⟩ := List.mem_map.mp member
    exact noReturn notification arrived
  have received := receives.accepts.received receives.faithful plain
  rw [List.map_map] at received
  refine ⟨receives.arrived, received.1, received.2, ?_, ?_⟩
  · intro moduleName member
    exact subscribes.canBeSubscribed_of_mem member
  · intro active mod member fit
    exact subscribes.settled active member fit

/-- A module with notifications, one which nobody may subscribe to, and one without any. -/
def exampleModules : List YangLibraryModule :=
  [⟨str "example-notif", true⟩, ⟨str "sysrepo", true⟩, ⟨str "example", true⟩]

/-- What sysrepo raises for a module without notifications. -/
def noNotifications : Sysrepo.ErrorWithCode := ⟨.notFound, str "SR_ERR_NOT_FOUND"⟩

/-- A notification comes before the other modules were asked for. -/
def exampleEvents : List (Event Str) :=
  [.base .own, .subscribe (.ok ()), .notify (str "example-notif") .realtime (str "early"),
    .subscribe (.ok ()), .subscribe (.error noNotifications), .base .activate,
    .notify (str "example-notif") (.other 2) (str "complete"), .base (.process 100)]

theorem received_from_all_modules_example :
    ∃ s, Run (step id) (initial exampleModules) exampleEvents s ∧
      s.arrived = exampleEvents.filterMap Event.passed ∧
      Library.EventSource.events s.stream.sent <+:
        s.arrived.map (EventStream.messageEvent ∘ id) ∧
      (s.stream.state = .waitingForEvents → Library.EventSource.events s.stream.sent =
        s.arrived.map (EventStream.messageEvent ∘ id)) ∧
      (∀ moduleName ∈ s.notifSubs.getD [],
        ∃ mod ∈ exampleModules, mod.name = moduleName ∧ canBeSubscribed mod = true) ∧
      (s.stream.activated = true → ∀ mod ∈ exampleModules, canBeSubscribed mod = true →
        mod.name ∈ s.notifSubs.getD [] ∨
          ∃ error, (mod.name, .error error) ∈ s.asked ∧ error.code = .notFound) := by
  have run : ∃ s, Run (step id) (initial exampleModules) exampleEvents s ∧
      s.arrived = [str "early"] := ⟨_, .of_execute rfl, rfl⟩
  obtain ⟨s, run, arrived⟩ := run
  have noReturn : ∀ notification ∈ s.arrived, chr '\r' ∉ id notification := by
    rw [arrived]
    decide
  exact ⟨s, run, received_from_all_modules run noReturn⟩

end Reception

end NotificationStream

end Rousette.Restconf
