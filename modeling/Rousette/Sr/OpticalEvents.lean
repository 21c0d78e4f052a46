import Rousette.Http.EventReception

/-!
# Changes of optical parameters

`sr/OpticalEvents.cpp`, and the handler of `/telemetry/optics` in `restconf/Server.cpp`.
sysrepo calls back from a thread of its own after each change; the callback keeps what sysrepo has
then as the current data, and publishes it, unless the data cannot be read.  A client starts with
the current data, which the handler asks for before the event stream of the client is connected to
the changes.
-/

namespace Rousette.Sr

open Library
open Http (EventStream)

/-! ## Listening -/

/-- The modules of which the first one that sysrepo knows is listened for. -/
def opticalModules : List Str :=
  [str "czechlight-roadm-device", str "czechlight-coherent-add-drop",
    str "czechlight-inline-amp", str "czechlight-bidi-amp"]

section Constructor

variable (onModuleChange : Str → Except Exception Unit) (dumpDataFrom : Str → Except Exception Str)

/-- The loop in the constructor of `OpticalEvents`: the subscription `sub`, by the module which it
is for, and `lastData` if some data could be read. -/
def listen (sub : Option Str) : List Str → Except Exception (Option Str × Option Str)
  | [] => .ok (sub, none)
  | mod :: rest =>
      match onModuleChange mod with
      | .ok () =>
          match dumpDataFrom mod with
          | .ok lastData => .ok (some mod, some lastData)
          | .error (.sysrepo ⟨.notFound, _⟩) => listen (some mod) rest
          | .error exception => .error exception
      | .error (.sysrepo ⟨.notFound, _⟩) => listen sub rest
      | .error exception => .error exception

/-- sysrepo does not know the module, or has no data of it. -/
def IsUnknown (mod : Str) : Prop :=
  ∃ what, (do onModuleChange mod; dumpDataFrom mod) = .error (.sysrepo ⟨.notFound, what⟩)

/-- The first known module is listened for. -/
theorem listen_eq_ok {sub module : Option Str} {modules : List Str} {lastData : Str}
    (found : listen onModuleChange dumpDataFrom sub modules = .ok (module, some lastData)) :
    ∃ before mod after, modules = before ++ mod :: after ∧
      (∀ other ∈ before, IsUnknown onModuleChange dumpDataFrom other) ∧
      module = some mod ∧ dumpDataFrom mod = .ok lastData := by
  induction modules generalizing sub with
  | nil => cases found
  | cons first rest ih =>
      have later : ∀ {sub}, IsUnknown onModuleChange dumpDataFrom first →
          listen onModuleChange dumpDataFrom sub rest = .ok (module, some lastData) →
          ∃ before mod after, first :: rest = before ++ mod :: after ∧
            (∀ other ∈ before, IsUnknown onModuleChange dumpDataFrom other) ∧
            module = some mod ∧ dumpDataFrom mod = .ok lastData := by
        intro sub unknown found
        obtain ⟨before, mod, after, rfl, unknowns, listened⟩ := ih found
        refine ⟨first :: before, mod, after, rfl, ?_, listened⟩
        exact List.forall_mem_cons.mpr ⟨unknown, unknowns⟩
      unfold listen at found
      split at found
      next subscribed =>
        split at found
        next data dumped =>
          cases found
          exact ⟨[], first, rest, rfl, List.forall_mem_nil _, rfl, dumped⟩
        next what undumped =>
          refine later ⟨what, ?_⟩ found
          rw [subscribed]
          exact undumped
        · cases found
      next what unsubscribed =>
        refine later ⟨what, ?_⟩ found
        rw [unsubscribed]
        rfl
      · cases found

end Constructor

/-! ## Publication -/

/-- `as_restconf_push_update`, with the time as text. -/
def asRestconfPushUpdate (content time : Str) : Str :=
  str "\x7b\"ietf-restconf:notification\":\x7b\"eventTime\":\"" ++ time ++
    str "\",\"ietf-yang-push:push-update\":\x7b\"datastore-contents\":" ++ content ++
    str "\x7d\x7d\x7d"

/-- A request for `/telemetry/optics` on its way to become an event stream. -/
inductive ClientPhase where
  /-- the handler has not asked for the current data yet -/
  | requested
  /-- the current data is known, and the time of the first event -/
  | asked (content time : Str)
  /-- the constructor has put the first event into the queue -/
  | begun
  /-- the constructor has connected the stream to the changes -/
  | connected
  deriving DecidableEq, Repr

/-- The listener and one client of it.  The program does not have the fields from `due` on. -/
structure Telemetry (D : Type) where
  /-- what sysrepo has -/
  data : D
  /-- the module which is listened for, if there is any -/
  module : Option Str
  lastData : Str
  phase : ClientPhase
  stream : EventStream
  /-- the changes for which sysrepo has still to call back -/
  due : Nat
  /-- the last time it did the data could not be read -/
  failed : Bool
  /-- whatever `lastData` was set to -/
  kept : List Str
  /-- how much of that there was when the handler asked for the current data -/
  askedAt : Nat
  /-- and how much when the stream was connected -/
  connectedAt : Nat
  /-- content and time of the events which have arrived at the stream -/
  arrived : List (Str × Str)

namespace Telemetry

variable {D : Type}

/-- The constructor of the listener has ended, with what `listen` has found.  sysrepo may still
have to call back for changes since the subscription. -/
def initial (data : D) (due : Nat) (listened : Option Str × Option Str) : Telemetry D where
  data := data
  module := listened.1
  lastData := listened.2.getD []
  phase := .requested
  stream := .initial
  due := due
  failed := listened.2.isNone
  kept := listened.2.toList
  askedAt := 0
  connectedAt := 0
  arrived := []

/-- What may happen. -/
inductive Event (D : Type) where
  /-- the data in sysrepo changes -/
  | modify (data : D)
  /-- sysrepo calls back at some time -/
  | onChange (time : Str)
  /-- the handler asks for the current data at some time -/
  | ask (time : Str)
  /-- the constructor of the stream enqueues the first event -/
  | begin
  /-- and connects the stream to the changes -/
  | connect
  /-- an event of the stream -/
  | base (event : EventStream.Event)

/-- `lastData` is set. -/
def keep (s : Telemetry D) (lastData : Str) : Telemetry D :=
  { s with lastData, kept := s.kept ++ [lastData] }

/-- An event arrives at the stream. -/
def arrive (s : Telemetry D) (content time : Str) : Telemetry D :=
  { s with
    stream := s.stream.enqueue EventStream.fieldData (asRestconfPushUpdate content time)
    arrived := s.arrived ++ [(content, time)] }

section Dump

-- what `dumpDataFrom` gives for the data in sysrepo and a module
variable (dump : D → Str → Except Exception Str)

/-- A change is published to the client. -/
def IsListening (s : Telemetry D) : Prop := s.phase = .connected ∧ s.stream.phase ≠ .destroyed

instance (s : Telemetry D) : Decidable s.IsListening := inferInstanceAs (Decidable (_ ∧ _))

/-- `OpticalEvents::onChange`.  An exception goes to sysrepo, which has made the change before;
after undefined behaviour there is no state. -/
def onChange (s : Telemetry D) (mod time : Str) : Option (Telemetry D) :=
  match dump s.data mod with
  | .ok lastData =>
      let s := { s.keep lastData with due := s.due - 1, failed := false }
      some (if s.IsListening then s.arrive lastData time else s)
  | .error .undefined => none
  | .error _ => some { s with due := s.due - 1, failed := true }

/-- The state after an event, if it can happen. -/
def step (s : Telemetry D) : Event D → Option (Telemetry D)
  | .modify data => some { s with data, due := if s.module.isSome then s.due + 1 else s.due }
  | .onChange time =>
      match s.module with
      | some mod => if 0 < s.due then s.onChange dump mod time else none
      | none => none
  | .ask time =>
      if s.phase = .requested then
        some { s with phase := .asked s.lastData time, askedAt := s.kept.length }
      else none
  | .begin =>
      match s.phase with
      | .asked content time => some { s.arrive content time with phase := .begun }
      | _ => none
  | .connect =>
      if s.phase = .begun then
        some { s with phase := .connected, connectedAt := s.kept.length }
      else none
  | .base (.enqueue _) => none
  | .base event =>
      if s.phase = .connected then
        (s.stream.step event).map fun stream => { s with stream }
      else none

end Dump

/-! ## Effects -/

/-- What a step can do. -/
inductive Effect (dump : D → Str → Except Exception Str) (s : Telemetry D) :
    Event D → Telemetry D → Prop where
  | modify (data : D) : Effect dump s (.modify data)
      { s with data, due := if s.module.isSome then s.due + 1 else s.due }
  | published {mod lastData : Str} (time : Str) (module : s.module = some mod)
      (dumped : dump s.data mod = .ok lastData) (listening : s.IsListening) :
      Effect dump s (.onChange time)
        ({ s.keep lastData with due := s.due - 1, failed := false }.arrive lastData time)
  | missed {mod lastData : Str} (time : Str) (module : s.module = some mod)
      (dumped : dump s.data mod = .ok lastData) (deaf : ¬s.IsListening) :
      Effect dump s (.onChange time) { s.keep lastData with due := s.due - 1, failed := false }
  | unread (time : Str) : Effect dump s (.onChange time) { s with due := s.due - 1, failed := true }
  | ask (time : Str) (requested : s.phase = .requested) :
      Effect dump s (.ask time)
        { s with phase := .asked s.lastData time, askedAt := s.kept.length }
  | begin {content time : Str} (asked : s.phase = .asked content time) :
      Effect dump s .begin { s.arrive content time with phase := .begun }
  | connect (begun : s.phase = .begun) :
      Effect dump s .connect { s with phase := .connected, connectedAt := s.kept.length }
  | base {event : EventStream.Event} {stream : EventStream} (connected : s.phase = .connected)
      (taken : s.stream.step event = some stream) (silent : event.text = none) :
      Effect dump s (.base event) { s with stream }

theorem step_effect {dump : D → Str → Except Exception Str} {s t : Telemetry D} {event : Event D}
    (taken : s.step dump event = some t) : Effect dump s event t := by
  cases event with
  | modify data =>
      cases taken
      exact .modify data
  | onChange time =>
      simp only [step] at taken
      split at taken
      next mod module =>
        split at taken
        case isFalse => cases taken
        unfold onChange at taken
        split at taken
        next lastData dumped =>
          cases taken
          split
          next listening => exact .published time module dumped listening
          next deaf => exact .missed time module dumped deaf
        · cases taken
        · cases taken
          exact .unread time
      · cases taken
  | ask time =>
      simp only [step] at taken
      split at taken <;> cases taken
      next requested => exact .ask time requested
  | begin =>
      simp only [step] at taken
      split at taken <;> cases taken
      next asked => exact .begin asked
  | connect =>
      simp only [step] at taken
      split at taken <;> cases taken
      next begun => exact .connect begun
  | base event =>
      cases event with
      | enqueue => cases taken
      | terminate | own | activate | process | runTask | pingExpire | pingComplete | onClose |
        destroy =>
          simp only [step] at taken
          split at taken
          next connected =>
            obtain ⟨stream, moved, rfl⟩ := Option.map_eq_some_iff.mp taken
            exact .base connected moved rfl
          · cases taken

/-! ## What a client gets -/

section Clients

variable {dump : D → Str → Except Exception Str} {s t : Telemetry D}

/-- What was current when the handler asked. -/
def snapshot (s : Telemetry D) : Str := (s.kept.take s.askedAt).getLast?.getD []

/-- What a client is to get: what was current when the handler asked, and what was kept after
the stream was connected. -/
def shown (s : Telemetry D) : List Str :=
  match s.phase with
  | .requested | .asked _ _ => []
  | .begun => [s.snapshot]
  | .connected => s.snapshot :: s.kept.drop s.connectedAt

/-- The text of an event. -/
def update (event : Str × Str) : Str := asRestconfPushUpdate event.1 event.2

structure Follows (dump : D → Str → Except Exception Str) (s : Telemetry D) : Prop where
  current : s.lastData = s.kept.getLast?.getD []
  fresh : ∀ mod, s.module = some mod → s.due = 0 → s.failed = false →
    dump s.data mod = .ok s.lastData
  askedAt : s.askedAt ≤ s.kept.length
  connectedAt : s.phase = .connected →
    s.askedAt ≤ s.connectedAt ∧ s.connectedAt ≤ s.kept.length
  asked : ∀ content time, s.phase = .asked content time → content = s.snapshot
  early : s.phase ≠ .connected → s.stream.phase = .constructing
  arrived : s.arrived.map Prod.fst <+: s.shown
  complete : s.stream.phase ≠ .destroyed → s.arrived.map Prod.fst = s.shown
  accepts : EventStream.AcceptsFirst (s.arrived.map update) s.stream
  faithful : EventStream.Faithful s.stream

namespace Follows

theorem initial {onModuleChange : Str → Except Exception Unit} {data : D} {due : Nat}
    {modules : List Str} {listened : Option Str × Option Str}
    (listening : listen onModuleChange (dump data) none modules = .ok listened) :
    Follows dump (initial data due listened) := by
  obtain ⟨module, lastData⟩ := listened
  constructor
  case accepts => exact EventStream.AcceptsFirst.initial
  case faithful => exact EventStream.Faithful.run .nil
  case current => cases lastData <;> rfl
  case fresh =>
    intro mod named _ read
    cases lastData with
    | none => cases read
    | some lastData =>
        obtain ⟨_, found, _, _, _, rfl, dumped⟩ := listen_eq_ok _ _ listening
        cases named
        exact dumped
  case arrived => exact List.prefix_rfl
  case complete | early => exact fun _ => rfl
  case askedAt => exact Nat.zero_le _
  all_goals exact nofun

/-- The stream of a client which is not connected has got everything it is to get. -/
theorem complete_early (follows : Follows dump s) (unconnected : s.phase ≠ .connected) :
    s.arrived.map Prod.fst = s.shown := by
  apply follows.complete
  rw [follows.early unconnected]
  exact nofun

/-- The snapshot stays what it is when more is kept. -/
theorem snapshot_keep (follows : Follows dump s) (lastData : Str) :
    (s.keep lastData).snapshot = s.snapshot := by
  unfold snapshot keep
  rw [List.take_append_of_le_length follows.askedAt]

/-- What is to be shown only grows when more is kept. -/
theorem shown_keep (follows : Follows dump s) (lastData : Str) :
    s.shown <+: (s.keep lastData).shown := by
  have same : (s.kept ++ [lastData]).take s.askedAt = s.kept.take s.askedAt :=
    List.take_append_of_le_length follows.askedAt
  unfold shown snapshot keep
  simp only [same]
  cases phase : s.phase with
  | connected =>
      rw [List.drop_append_of_le_length (follows.connectedAt phase).2]
      exact ⟨[lastData], rfl⟩
  | requested | asked | begun => exact List.prefix_rfl

theorem getLast?_keep (s : Telemetry D) (lastData : Str) :
    (s.keep lastData).lastData = (s.keep lastData).kept.getLast?.getD [] := by
  simp [keep]

/-- An event arrives, whose content is shown. -/
theorem arrive (follows : Follows dump s) (content time : Str) :
    EventStream.AcceptsFirst ((s.arrive content time).arrived.map update)
        (s.arrive content time).stream ∧
      EventStream.Faithful (s.arrive content time).stream := by
  constructor
  case left =>
    have accepts := follows.accepts.message (asRestconfPushUpdate content time)
    change EventStream.AcceptsFirst ((s.arrived ++ [(content, time)]).map update) _
    rw [List.map_append]
    exact accepts
  case right => exact follows.faithful.enqueue _ _

/-- The listener keeps other data. -/
theorem keep (follows : Follows dump s) {mod lastData : Str} (due : Nat)
    (module : s.module = some mod) (dumped : dump s.data mod = .ok lastData)
    (deaf : ¬s.IsListening) : Follows dump { s.keep lastData with due, failed := false } := by
  have same := follows.snapshot_keep lastData
  have grows := follows.shown_keep lastData
  have longer : s.kept.length ≤ (s.kept ++ [lastData]).length := by
    rw [List.length_append]
    exact Nat.le_add_right _ _
  constructor
  case current => exact getLast?_keep s lastData
  case fresh =>
    intro other named _ _
    cases module.symm.trans named
    exact dumped
  case askedAt => exact Nat.le_trans follows.askedAt longer
  case connectedAt =>
    intro connected
    obtain ⟨later, within⟩ := follows.connectedAt connected
    exact ⟨later, Nat.le_trans within longer⟩
  case asked => exact fun content time asked => (follows.asked content time asked).trans same.symm
  case early => exact follows.early
  case arrived => exact follows.arrived.trans grows
  case complete =>
    intro alive
    have unconnected : s.phase ≠ .connected := fun connected => deaf ⟨connected, alive⟩
    refine (follows.complete alive).trans ?_
    unfold shown
    cases phase : s.phase with
    | connected => exact absurd phase unconnected
    | begun =>
        simp only [Telemetry.keep, phase]
        exact congrArg (fun content => [content]) same.symm
    | requested | asked => simp only [Telemetry.keep, phase]
  case accepts => exact follows.accepts
  case faithful => exact follows.faithful

/-- The listener publishes other data to the client. -/
theorem publish (follows : Follows dump s) {mod lastData : Str} (time : Str) (due : Nat)
    (module : s.module = some mod) (dumped : dump s.data mod = .ok lastData)
    (listening : s.IsListening) :
    Follows dump ({ s.keep lastData with due, failed := false }.arrive lastData time) := by
  obtain ⟨connected, alive⟩ := listening
  have same := follows.snapshot_keep lastData
  obtain ⟨later, within⟩ := follows.connectedAt connected
  have longer : s.kept.length ≤ (s.kept ++ [lastData]).length := by
    rw [List.length_append]
    exact Nat.le_add_right _ _
  obtain ⟨accepts, faithful⟩ := follows.arrive lastData time
  have arrived : (s.arrived ++ [(lastData, time)]).map Prod.fst = (s.keep lastData).shown := by
    have before := follows.complete alive
    simp only [shown, connected] at before
    have after : (s.kept ++ [lastData]).drop s.connectedAt =
        s.kept.drop s.connectedAt ++ [lastData] := List.drop_append_of_le_length within
    simp only [shown, Telemetry.keep, connected, List.map_append, before, after]
    exact congrArg (· :: _) same.symm
  constructor
  case current => exact getLast?_keep s lastData
  case fresh =>
    intro other named _ _
    cases module.symm.trans named
    exact dumped
  case askedAt => exact Nat.le_trans follows.askedAt longer
  case connectedAt => exact fun _ => ⟨later, Nat.le_trans within longer⟩
  case asked =>
    intro content other asked
    have phase : s.phase = .asked content other := asked
    rw [connected] at phase
    cases phase
  case early => exact fun unconnected => absurd connected unconnected
  case arrived => exact arrived ▸ List.prefix_rfl
  case complete => exact fun _ => arrived
  case accepts => exact accepts
  case faithful => exact faithful

theorem step {event : Event D} (follows : Follows dump s) (taken : s.step dump event = some t) :
    Follows dump t := by
  cases step_effect taken with
  | modify data =>
      constructor
      case current => exact follows.current
      case fresh =>
        intro mod module settled _
        have module : s.module = some mod := module
        simp [module] at settled
      case askedAt => exact follows.askedAt
      case connectedAt => exact follows.connectedAt
      case asked => exact follows.asked
      case early => exact follows.early
      case arrived => exact follows.arrived
      case complete => exact follows.complete
      case accepts => exact follows.accepts
      case faithful => exact follows.faithful
  | published time module dumped listening =>
      exact follows.publish time (s.due - 1) module dumped listening
  | missed time module dumped deaf => exact follows.keep (s.due - 1) module dumped deaf
  | unread time =>
      constructor
      case current => exact follows.current
      case fresh => exact nofun
      case askedAt => exact follows.askedAt
      case connectedAt => exact follows.connectedAt
      case asked => exact follows.asked
      case early => exact follows.early
      case arrived => exact follows.arrived
      case complete => exact follows.complete
      case accepts => exact follows.accepts
      case faithful => exact follows.faithful
  | ask time requested =>
      have whole : s.lastData = (s.kept.take s.kept.length).getLast?.getD [] := by
        rw [List.take_length]
        exact follows.current
      have nothing := follows.complete_early (by simp [requested])
      simp only [shown, requested] at nothing
      constructor
      case current => exact follows.current
      case fresh => exact follows.fresh
      case askedAt => exact Nat.le_refl _
      case connectedAt => exact nofun
      case asked =>
        intro content other asked
        cases asked
        exact whole
      case early => exact fun _ => follows.early (by simp [requested])
      case arrived => exact nothing ▸ List.prefix_rfl
      case complete => exact fun _ => nothing
      case accepts => exact follows.accepts
      case faithful => exact follows.faithful
  | begin asked =>
      rename_i content time
      obtain ⟨accepts, faithful⟩ := follows.arrive content time
      have constructing := follows.early (by simp [asked])
      have nothing := follows.complete_early (by simp [asked])
      simp only [shown, asked] at nothing
      have first : (s.arrived ++ [(content, time)]).map Prod.fst = [s.snapshot] := by
        rw [List.map_append, nothing, ← follows.asked content time asked]
        rfl
      constructor
      case current => exact follows.current
      case fresh => exact follows.fresh
      case askedAt => exact follows.askedAt
      case connectedAt | asked => exact nofun
      case early => exact fun _ => (EventStream.enqueue_phase _ _ _).trans constructing
      case arrived => exact first ▸ List.prefix_rfl
      case complete => exact fun _ => first
      case accepts => exact accepts
      case faithful => exact faithful
  | connect begun =>
      have first := follows.complete_early (by simp [begun])
      have shows : s.shown = s.snapshot :: s.kept.drop s.kept.length := by
        simp [shown, begun]
      rw [shows] at first
      constructor
      case current => exact follows.current
      case fresh => exact follows.fresh
      case askedAt => exact follows.askedAt
      case connectedAt => exact fun _ => ⟨follows.askedAt, Nat.le_refl _⟩
      case asked => exact nofun
      case early => exact fun unconnected => absurd rfl unconnected
      case arrived => exact first ▸ List.prefix_rfl
      case complete => exact fun _ => first
      case accepts => exact follows.accepts
      case faithful => exact follows.faithful
  | base connected moved silent =>
      constructor
      case current => exact follows.current
      case fresh => exact follows.fresh
      case askedAt => exact follows.askedAt
      case connectedAt => exact follows.connectedAt
      case asked => exact follows.asked
      case early => exact fun unconnected => absurd connected unconnected
      case arrived => exact follows.arrived
      case complete =>
        intro alive
        apply follows.complete
        exact fun gone => alive (EventStream.destroyed_of_step moved gone)
      case accepts => exact follows.accepts.step_silent moved silent
      case faithful => exact follows.faithful.step moved

theorem run {onModuleChange : Str → Except Exception Unit} {data : D} {due : Nat}
    {modules : List Str} {listened : Option Str × Option Str} {events : List (Event D)}
    (listening : listen onModuleChange (dump data) none modules = .ok listened)
    (run : Run (Telemetry.step dump) (Telemetry.initial data due listened) events s) :
    Follows dump s := by
  induction run with
  | nil => exact initial listening
  | snoc _ taken ih => exact ih.step taken

/-- Nothing was kept while the client was between the two, or something was kept since: the last
content is what is current. -/
theorem last_current (follows : Follows dump s) (connected : s.phase = .connected)
    (gapless : s.connectedAt = s.askedAt ∨ s.connectedAt < s.kept.length) :
    (s.snapshot :: s.kept.drop s.connectedAt).getLast? = some s.lastData := by
  obtain ⟨later, within⟩ := follows.connectedAt connected
  rw [List.getLast?_cons, List.getLast?_drop, follows.current]
  by_cases since : s.connectedAt < s.kept.length
  · have nonempty : s.kept ≠ [] := List.length_pos_iff.mp (Nat.zero_lt_of_lt since)
    rw [if_neg (Nat.not_le_of_gt since), List.getLast?_eq_some_getLast nonempty]
    rfl
  · have all : s.connectedAt = s.kept.length := Nat.le_antisymm within (Nat.le_of_not_lt since)
    have asked : s.askedAt = s.kept.length := by
      rcases gapless with same | since'
      · rw [← same, all]
      · exact absurd since' since
    rw [if_pos (Nat.le_of_eq all.symm), Option.getD_none, snapshot, asked, List.take_length]

end Follows

/-- In every run the client first gets what was current when its handler asked, then everything
which is kept from the moment its stream is connected until the stream is destroyed, each once
and in that order.  Once sysrepo has called back for every change, and the data could be read the
last time, the last of it is what sysrepo has, unless the listener kept something in between and
nothing since. -/
theorem follows_changes {onModuleChange : Str → Except Exception Unit} {data : D} {due : Nat}
    {listened : Option Str × Option Str} {events : List (Event D)}
    (listening : listen onModuleChange (dump data) none opticalModules = .ok listened)
    (run : Run (Telemetry.step dump) (initial data due listened) events s)
    (connected : s.phase = .connected)
    (noReturn : ∀ event ∈ s.arrived, chr '\r' ∉ update event) :
    s.arrived.map Prod.fst <+: s.snapshot :: s.kept.drop s.connectedAt ∧
      (s.stream.phase ≠ .destroyed →
        s.arrived.map Prod.fst = s.snapshot :: s.kept.drop s.connectedAt ∧
        ∀ mod, s.module = some mod → s.due = 0 → s.failed = false →
          s.connectedAt = s.askedAt ∨ s.connectedAt < s.kept.length →
          ∃ last, (s.arrived.map Prod.fst).getLast? = some last ∧ dump s.data mod = .ok last) ∧
      EventSource.events s.stream.sent <+:
        s.arrived.map (EventStream.messageEvent ∘ update) ∧
      (s.stream.state = .waitingForEvents →
        EventSource.events s.stream.sent = s.arrived.map (EventStream.messageEvent ∘ update)) := by
  have follows := Follows.run listening run
  have shows : s.shown = s.snapshot :: s.kept.drop s.connectedAt := by
    simp only [shown, connected]
  have plain : ∀ what ∈ s.arrived.map update, chr '\r' ∉ what := by
    intro what member
    obtain ⟨event, among, rfl⟩ := List.mem_map.mp member
    exact noReturn event among
  have received := follows.accepts.received follows.faithful plain
  rw [List.map_map] at received
  refine ⟨shows ▸ follows.arrived, ?_, received⟩
  intro alive
  have complete := (follows.complete alive).trans shows
  refine ⟨complete, ?_⟩
  intro mod module settled read gapless
  refine ⟨s.lastData, ?_, follows.fresh mod module settled read⟩
  rw [complete, follows.last_current connected gapless]

end Clients

/-- sysrepo knows the first of the modules, and its data are texts. -/
def knowsFirst (mod : Str) : Except Exception Unit :=
  if mod = str "czechlight-roadm-device" then .ok () else .error (.sysrepo ⟨.notFound, []⟩)

/-- There may be no data, which `dumpDataFrom` does not expect, or sysrepo may time out. -/
def dumpText : Str → Str → Except Exception Str
  | [], _ => .error .undefined
  | data, _ => if data = str "?" then .error (.sysrepo ⟨.other 0, []⟩) else .ok data

/-- A change before the client and two after it, of which one cannot be read. -/
theorem follows_changes_example :
    ∃ s, Run (Telemetry.step dumpText)
        (initial (str "1") 0 (some (str "czechlight-roadm-device"), some (str "1")))
        [.modify (str "2"), .onChange (str "t"), .ask (str "u"), .begin, .connect,
          .modify (str "?"), .onChange (str "v"), .modify (str "3"), .onChange (str "w")] s ∧
      s.arrived.map Prod.fst = [str "2", str "3"] ∧
      ∃ last, (s.arrived.map Prod.fst).getLast? = some last ∧
        dumpText s.data (str "czechlight-roadm-device") = .ok last := by
  have listening : listen knowsFirst (dumpText (str "1")) none opticalModules =
      .ok (some (str "czechlight-roadm-device"), some (str "1")) := rfl
  have run : ∃ s, Run (Telemetry.step dumpText)
      (initial (str "1") 0 (some (str "czechlight-roadm-device"), some (str "1")))
      [.modify (str "2"), .onChange (str "t"), .ask (str "u"), .begin, .connect,
        .modify (str "?"), .onChange (str "v"), .modify (str "3"), .onChange (str "w")] s ∧
      s.phase = .connected ∧ s.arrived = [(str "2", str "u"), (str "3", str "w")] ∧ s.due = 0 ∧
      s.failed = false ∧ s.module = some (str "czechlight-roadm-device") ∧ s.connectedAt = 2 ∧
      s.kept = [str "1", str "2", str "3"] ∧ s.stream.phase ≠ .destroyed :=
    ⟨_, .of_execute rfl, rfl, rfl, rfl, rfl, rfl, rfl, rfl, nofun⟩
  obtain ⟨s, run, connected, arrived, settled, read, module, connectedAt, kept, alive⟩ := run
  have noReturn : ∀ event ∈ s.arrived, chr '\r' ∉ update event := by
    rw [arrived]
    decide
  have since : s.connectedAt < s.kept.length := by
    rw [connectedAt, kept]
    decide
  have follows := (follows_changes listening run connected noReturn).2.1 alive
  refine ⟨s, run, ?_, follows.2 _ module settled read (.inr since)⟩
  rw [arrived]
  rfl

/-- What is kept after the handler has asked and before the stream is connected is never shown:
the client still has the former data when there is nothing left to call back for. -/
theorem change_missed :
    ∃ s, Run (Telemetry.step dumpText)
        (initial (str "1") 0 (some (str "czechlight-roadm-device"), some (str "1")))
        [.ask (str "t"), .modify (str "2"), .onChange (str "u"), .begin, .connect] s ∧
      s.phase = .connected ∧ s.due = 0 ∧ s.data = str "2" ∧
      s.arrived.map Prod.fst = [str "1"] :=
  ⟨_, .of_execute rfl, rfl, rfl, rfl, rfl⟩

end Telemetry

end Rousette.Sr
