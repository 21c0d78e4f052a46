import Rousette.Library.Run
import Rousette.Restconf.Server.ControlMetas

/-!
# Writing next to other clients

The status of a `PUT` depends on whether the node was there before, which
`processPutOrPlainPatch` asks for in a call of its own.  Between its calls other clients of
sysrepo change the datastore, unless it is locked by somebody else than them.  A write to the
datastore resource itself asks for nothing and takes no lock.
-/

namespace Rousette.Restconf.Server.Concurrent

open Library Libyang Program

/-! ## The handler, one call after the other -/

/-- Who holds the lock of a datastore. -/
inductive Holder where
  /-- the session of the request -/
  | request
  /-- another session -/
  | client (id : Nat)
  deriving DecidableEq, Repr

/-- How far the handler is. -/
inductive Phase (S : Type) where
  | arrived
  /-- after the lock, or without it -/
  | locked
  /-- the data of the target are known -/
  | checked (data : Option (Forest S))
  /-- the edit is ready; nothing was looked for if it is one of the whole datastore -/
  | edited (data : Option (Forest S)) (edit : Forest S)
  /-- the edit was applied -/
  | applied (data : Option (Forest S))
  /-- the response was written -/
  | answered (status : Nat)
  /-- an exception has left the function -/
  | failed (exception : Exception)

/-- A datastore with contents `D`, which a request and others work on. -/
structure State (D S : Type) where
  contents : D
  lock : Option Holder
  phase : Phase S
  /-- not in the program: the contents right before and right after the request has written -/
  written : Option (D × D)

/-- What may happen. -/
inductive Event (D : Type) where
  /-- the constructor of `sysrepo::Lock`, if there is any -/
  | lock
  /-- `getData` -/
  | check
  /-- everything before `editBatch` or `replaceConfig` which is no call into sysrepo -/
  | prepare
  /-- `editBatch` and `applyChanges`, or `replaceConfig` -/
  | write
  /-- the response is written, and the lock is released -/
  | respond
  /-- the next call of the handler into sysrepo fails -/
  | fail (error : Sysrepo.ErrorWithCode)
  /-- another session changes the contents -/
  | change (client : Nat) (contents : D)
  /-- another session takes the lock -/
  | clientLock (client : Nat)
  /-- another session releases its lock -/
  | clientUnlock (client : Nat)

/-- What sysrepo does with the contents of a datastore. -/
structure Backend (D S : Type) where
  /-- `getData` by a path -/
  read : D → Str → Except Sysrepo.ErrorWithCode (Option (Forest S))
  /-- `applyChanges` of an edit -/
  write : D → Forest S → Except Sysrepo.ErrorWithCode D
  /-- `replaceConfig` -/
  replace : D → Forest S → Except Sysrepo.ErrorWithCode D

section Machine

variable {D S : Type} [DecidableEq S] (backend : Backend D S) (env : Env S) (ctx : RequestContext)

/-- The edit, with the operation and the place which a `PUT` sets. -/
def prepareEdit : Handler S (Forest S) := do
  let nodes ← createEditForPutAndPatch env.libyang ctx.rawPath (some ctx.payload) ctx.requestFormat
  validateInputMetaAttributes env.libyang nodes.edit
  let nodes ← setPutOperation env ctx nodes
  return nodes.edit

/-- The edit of the whole datastore, which is the payload. -/
def rootEdit : Except Exception (Forest S) := do
  let edit ← raise (env.libyang.parseData ctx.payload ctx.requestFormat)
  require (!edit.isEmpty)
    (.errorResponse ⟨400, str "protocol", str "malformed-message",
      str "Empty data tree received.", none, none⟩)
  validateInputMetaAttributes env.libyang edit
  return edit

/-- Is the datastore resource itself written? -/
def isRoot : Bool := ctx.restconfRequest.path == str "/"

/-- The outcome of the code which makes the edit. -/
def plannedEdit : Except Exception (Forest S) :=
  if isRoot ctx then rootEdit env ctx else (exec (prepareEdit env ctx) World.initial).1

/-- What the request does to the contents. -/
def writeEdit (contents : D) (edit : Forest S) : Except Sysrepo.ErrorWithCode D :=
  if isRoot ctx && ctx.method == str "PUT" then backend.replace contents edit
  else backend.write contents edit

/-- The status of the response. -/
def writeStatus (data : Option (Forest S)) : Nat :=
  if ctx.method = str "PUT" then if data.isSome then 204 else 201 else 204

/-- The function is left, and the lock of its session is released. -/
def State.leave (s : State D S) (phase : Phase S) : State D S :=
  { s with phase, lock := if s.lock = some .request then none else s.lock }

/-- The datastore, when the request arrives. -/
def initial (contents : D) : State D S := ⟨contents, none, .arrived, none⟩

/-- The state after an event, if it can happen. -/
def step (s : State D S) : Event D → Option (State D S)
  | .lock =>
      match s.phase with
      | .arrived =>
          if isRoot ctx then none
          else if ctx.activeDatastore = .candidate then some { s with phase := .locked }
          else if s.lock = none then some { s with phase := .locked, lock := some .request }
          else none
      | _ => none
  | .check =>
      match s.phase with
      | .locked =>
          match backend.read s.contents ctx.restconfRequest.path with
          | .ok data =>
              if ctx.method != str "PATCH" || data.isSome then
                some { s with phase := .checked data }
              else
                some (s.leave (.failed
                  (invalidValue (str "Target resource does not exist") none)))
          | .error error => some (s.leave (.failed (.sysrepo error)))
      | _ => none
  | .prepare =>
      match s.phase with
      | .arrived =>
          if isRoot ctx then
            match plannedEdit env ctx with
            | .ok edit => some { s with phase := .edited none edit }
            | .error exception => some (s.leave (.failed exception))
          else none
      | .checked data =>
          match plannedEdit env ctx with
          | .ok edit => some { s with phase := .edited data edit }
          | .error exception => some (s.leave (.failed exception))
      | _ => none
  | .write =>
      match s.phase with
      | .edited data edit =>
          -- sysrepo refuses the edit if somebody else holds the lock
          if s.lock = none ∨ s.lock = some .request then
            match writeEdit backend ctx s.contents edit with
            | .ok contents =>
                some { s with
                  contents, phase := .applied data, written := some (s.contents, contents) }
            | .error error => some (s.leave (.failed (.sysrepo error)))
          else none
      | _ => none
  | .respond =>
      match s.phase with
      | .applied data => some (s.leave (.answered (writeStatus ctx data)))
      | _ => none
  | .fail error =>
      match s.phase with
      | .arrived =>
          if isRoot ctx || ctx.activeDatastore = .candidate then none
          else some (s.leave (.failed (.sysrepo error)))
      | .locked | .edited _ _ => some (s.leave (.failed (.sysrepo error)))
      | _ => none
  | .change client contents =>
      if s.lock = none ∨ s.lock = some (.client client) then some { s with contents } else none
  | .clientLock client =>
      if s.lock = none then some { s with lock := some (.client client) } else none
  | .clientUnlock client =>
      if s.lock = some (.client client) then some { s with lock := none } else none

/-! ## The function as a whole -/

/-- Every call succeeds, and the data are those in the given contents. -/
def reading (contents : D) : Env S :=
  { env with
    session := { Session.accepting with
      getData := fun path _ _ => backend.read contents path } }

end Machine

section Whole

variable {D S : Type} [DecidableEq S] {backend : Backend D S} {env : Env S} {ctx : RequestContext}

/-- The parts of the code which makes the edit. -/
theorem exec_prepared {edit : Forest S} (below : isRoot ctx = false)
    (planned : plannedEdit env ctx = .ok edit) :
    ∃ nodes annotated checks,
      exec (createEditForPutAndPatch env.libyang ctx.rawPath (some ctx.payload) ctx.requestFormat)
          World.initial = (.ok nodes, { World.initial with keyChecks := checks }) ∧
        validateInputMetaAttributes env.libyang nodes.edit = .ok () ∧
        setPutOperation env ctx nodes = .ok annotated ∧ annotated.edit = edit := by
  rw [plannedEdit, below, if_neg nofun] at planned
  obtain ⟨nodes, created, rest⟩ := exec_bind_eq_ok.mp planned
  obtain ⟨_, validated, rest⟩ := exec_bind_eq_ok.mp rest
  obtain ⟨annotated, set, rest⟩ := exec_bind_eq_ok.mp rest
  obtain ⟨checks, recorded⟩ := (builds_createEditForPutAndPatch env.libyang ctx.rawPath
    (some ctx.payload) ctx.requestFormat).checks World.initial
  refine ⟨nodes, annotated, checks, ?_, validated, set, Except.ok.inj rest⟩
  rw [← created]
  exact Prod.ext rfl recorded

omit [DecidableEq S] in
theorem isRoot_eq_true : isRoot ctx = true ↔ ctx.restconfRequest.path = str "/" :=
  beq_iff_eq

omit [DecidableEq S] in
theorem isRoot_eq_false : isRoot ctx = false ↔ ctx.restconfRequest.path ≠ str "/" :=
  beq_eq_false_iff_ne

/-- What `getData` has found, and a `PATCH` needs something. -/
structure Known (backend : Backend D S) (ctx : RequestContext) (contents : D)
    (data : Option (Forest S)) : Prop where
  read : backend.read contents ctx.restconfRequest.path = .ok data
  present : (ctx.method != str "PATCH" || data.isSome) = true

/-- What is known of the target: nothing of the whole datastore, and what was read of a node. -/
inductive Target (backend : Backend D S) (ctx : RequestContext) (contents : D)
    (data : Option (Forest S)) : Prop where
  | root (path : isRoot ctx = true) (unread : data = none)
  | node (path : isRoot ctx = false) (known : Known backend ctx contents data)

/-- The function alone, on the whole datastore. -/
theorem exec_processRoot {contents : D} {edit : Forest S} (root : isRoot ctx = true)
    (planned : plannedEdit env ctx = .ok edit) :
    exec (processPutOrPlainPatch (reading backend env contents) ctx) World.initial =
      (.ok (), ⟨some (writeStatus ctx (none : Option (Forest S)), [cors]), some [], [], [edit],
        [edit]⟩) := by
  rw [plannedEdit, root, if_pos rfl] at planned
  obtain ⟨parsed, parses, rest⟩ := except_bind_eq_ok.mp planned
  obtain ⟨_, nonempty, rest⟩ := except_bind_eq_ok.mp rest
  obtain ⟨_, validated, rest⟩ := except_bind_eq_ok.mp rest
  cases rest
  have parses : raise ((reading backend env contents).libyang.parseData ctx.payload
      ctx.requestFormat) = .ok edit := parses
  have validated : validateInputMetaAttributes (reading backend env contents).libyang edit =
      .ok () := validated
  rw [processPutOrPlainPatch, if_pos (isRoot_eq_true.mp root), processRoot]
  simp only [exec_bind, exec_liftM, parses, nonempty, validated]
  by_cases put : ctx.method = str "PUT"
  · simp only [if_pos put, writeStatus]
    rfl
  · simp only [if_neg put, writeStatus]
    rfl

/-- The function alone, on a node whose data are known. -/
theorem exec_processPutOrPlainPatch {contents : D} {data : Option (Forest S)} {edit : Forest S}
    (below : isRoot ctx = false) (known : Known backend ctx contents data)
    (planned : plannedEdit env ctx = .ok edit) :
    ∃ checks, exec (processPutOrPlainPatch (reading backend env contents) ctx) World.initial =
      (.ok (), ⟨some (writeStatus ctx data, [cors]), some [], checks, [edit], [edit]⟩) := by
  obtain ⟨read, present⟩ := known
  have split := exec_prepared below planned
  obtain ⟨nodes, annotated, checks, created, validated, set, rfl⟩ := split
  have locked : lockDatastore (reading backend env contents) ctx = .ok () := by
    unfold lockDatastore
    split
    · rfl
    · rfl
  have found : raiseSysrepo ((reading backend env contents).session.getData
      ctx.restconfRequest.path 0 .default) = .ok data := raiseSysrepo_eq_ok.mpr read
  refine ⟨checks, ?_⟩
  unfold processPutOrPlainPatch
  rw [if_neg (isRoot_eq_false.mp below)]
  have created : exec (createEditForPutAndPatch (reading backend env contents).libyang ctx.rawPath
      (some ctx.payload) ctx.requestFormat) World.initial =
        (.ok nodes, { World.initial with keyChecks := checks }) := created
  have validated : validateInputMetaAttributes (reading backend env contents).libyang nodes.edit =
      .ok () := validated
  have set : setPutOperation (reading backend env contents) ctx nodes = .ok annotated := set
  have checked : require (ctx.method != str "PATCH" || data.isSome)
      (invalidValue (str "Target resource does not exist") none) = .ok () :=
    require_eq_ok.mpr present
  simp only [exec_bind, exec_liftM, locked, found, checked, created, validated, set, editBatch,
    applyChanges]
  by_cases put : ctx.method = str "PUT"
  · simp only [if_pos put, writeStatus]
    rfl
  · simp only [if_neg put, writeStatus]
    rfl

theorem exec_alone {contents : D} {data : Option (Forest S)} {edit : Forest S}
    (target : Target backend ctx contents data) (planned : plannedEdit env ctx = .ok edit) :
    ∃ checks, exec (processPutOrPlainPatch (reading backend env contents) ctx) World.initial =
      (.ok (), ⟨some (writeStatus ctx data, [cors]), some [], checks, [edit], [edit]⟩) := by
  cases target with
  | root path unread =>
      rw [unread]
      exact ⟨[], exec_processRoot path planned⟩
  | node path known => exact exec_processPutOrPlainPatch path known planned

end Whole

/-! ## The effect of a step -/

section Effects

variable {D S : Type} [DecidableEq S] {backend : Backend D S} {env : Env S} {ctx : RequestContext}
  {s t : State D S} {event : Event D}

/-- The exceptions only leave the function before the edit is applied. -/
def Phase.IsUnwritten : Phase S → Prop
  | .applied _ | .answered _ | .failed _ => False
  | _ => True

/-- What a step can do. -/
inductive Effect (backend : Backend D S) (env : Env S) (ctx : RequestContext) (s : State D S) :
    State D S → Prop where
  | lock (arrived : s.phase = .arrived) (below : isRoot ctx = false) (free : s.lock = none) :
      Effect backend env ctx s { s with phase := .locked, lock := some .request }
  | skip (arrived : s.phase = .arrived) (below : isRoot ctx = false)
      (candidate : ctx.activeDatastore = .candidate) :
      Effect backend env ctx s { s with phase := .locked }
  | check {data : Option (Forest S)} (locked : s.phase = .locked)
      (known : Known backend ctx s.contents data) :
      Effect backend env ctx s { s with phase := .checked data }
  | prepareRoot {edit : Forest S} (arrived : s.phase = .arrived) (root : isRoot ctx = true)
      (planned : plannedEdit env ctx = .ok edit) :
      Effect backend env ctx s { s with phase := .edited none edit }
  | prepare {data : Option (Forest S)} {edit : Forest S} (checked : s.phase = .checked data)
      (planned : plannedEdit env ctx = .ok edit) :
      Effect backend env ctx s { s with phase := .edited data edit }
  | write {data : Option (Forest S)} {edit : Forest S} {contents : D}
      (edited : s.phase = .edited data edit)
      (wrote : writeEdit backend ctx s.contents edit = .ok contents) :
      Effect backend env ctx s
        { s with contents, phase := .applied data, written := some (s.contents, contents) }
  | respond {data : Option (Forest S)} (applied : s.phase = .applied data) :
      Effect backend env ctx s (s.leave (.answered (writeStatus ctx data)))
  | fail (exception : Exception) (unwritten : s.phase.IsUnwritten) :
      Effect backend env ctx s (s.leave (.failed exception))
  | change (contents : D) (allowed : s.lock ≠ some .request) :
      Effect backend env ctx s { s with contents }
  | relock (lock : Option Holder) (before : s.lock ≠ some .request)
      (after : lock ≠ some .request) : Effect backend env ctx s { s with lock }

theorem step_effect (taken : step backend env ctx s event = some t) :
    Effect backend env ctx s t := by
  cases event with
  | lock =>
      simp only [step] at taken
      split at taken
      next arrived =>
        split at taken
        · cases taken
        next below =>
          have below := Bool.eq_false_iff.mpr below
          split at taken
          next candidate =>
            cases taken
            exact .skip arrived below candidate
          · split at taken
            next free =>
              cases taken
              exact .lock arrived below free
            · cases taken
      · cases taken
  | check =>
      simp only [step] at taken
      split at taken
      next locked =>
        split at taken
        next data read =>
          split at taken
          next present =>
            cases taken
            exact .check locked ⟨read, present⟩
          · cases taken
            exact .fail _ (by simp [locked, Phase.IsUnwritten])
        · cases taken
          exact .fail _ (by simp [locked, Phase.IsUnwritten])
      · cases taken
  | prepare =>
      simp only [step] at taken
      split at taken
      next arrived =>
        split at taken
        next root =>
          split at taken
          next edit planned =>
            cases taken
            exact .prepareRoot arrived root planned
          · cases taken
            exact .fail _ (by simp [arrived, Phase.IsUnwritten])
        · cases taken
      next data checked =>
        split at taken
        next edit planned =>
          cases taken
          exact .prepare checked planned
        · cases taken
          exact .fail _ (by simp [checked, Phase.IsUnwritten])
      · cases taken
  | write =>
      simp only [step] at taken
      split at taken
      next data edit edited =>
        split at taken
        · split at taken
          next contents wrote =>
            cases taken
            exact .write edited wrote
          · cases taken
            exact .fail _ (by simp [edited, Phase.IsUnwritten])
        · cases taken
      · cases taken
  | respond =>
      simp only [step] at taken
      split at taken
      next data applied =>
        cases taken
        exact .respond applied
      · cases taken
  | fail error =>
      simp only [step] at taken
      split at taken
      next arrived =>
        split at taken
        · cases taken
        · cases taken
          exact .fail _ (by simp [arrived, Phase.IsUnwritten])
      next locked =>
        cases taken
        exact .fail _ (by simp [locked, Phase.IsUnwritten])
      next edited =>
        cases taken
        exact .fail _ (by simp [edited, Phase.IsUnwritten])
      · cases taken
  | change client contents =>
      simp only [step] at taken
      split at taken
      next allowed =>
        cases taken
        apply Effect.change
        rcases allowed with free | own
        · simp [free]
        · simp [own]
      · cases taken
  | clientLock client =>
      simp only [step] at taken
      split at taken
      next free =>
        cases taken
        exact .relock _ (by simp [free]) (by simp)
      · cases taken
  | clientUnlock client =>
      simp only [step] at taken
      split at taken
      next own =>
        cases taken
        exact .relock _ (by simp [own]) (by simp)
      · cases taken

end Effects

/-! ## What holds while the datastore is locked -/

section Locked

variable {D S : Type} [DecidableEq S] {backend : Backend D S} {env : Env S} {ctx : RequestContext}
  {s t : State D S}

/-- An edit was applied to contents which had the given data at the target. -/
structure Writes (backend : Backend D S) (env : Env S) (ctx : RequestContext) (before : D)
    (data : Option (Forest S)) (after : D) : Prop where
  target : Target backend ctx before data
  applied : ∃ edit, plannedEdit env ctx = .ok edit ∧ writeEdit backend ctx before edit = .ok after

/-- What is known of the contents in a phase. -/
def Phase.Fits (backend : Backend D S) (env : Env S) (ctx : RequestContext) (contents : D)
    (written : Option (D × D)) : Phase S → Prop
  | .arrived | .failed _ => written = none
  | .locked => written = none ∧ isRoot ctx = false
  | .checked data => written = none ∧ isRoot ctx = false ∧ Known backend ctx contents data
  | .edited data edit =>
      written = none ∧ Target backend ctx contents data ∧ plannedEdit env ctx = .ok edit
  | .applied data => ∃ before after, written = some (before, after) ∧
      Writes backend env ctx before data after
  | .answered status => ∃ before after data, written = some (before, after) ∧
      Writes backend env ctx before data after ∧ status = writeStatus ctx data

/-- In which phases the lock is held. -/
def Phase.IsLocked : Phase S → Prop
  | .arrived | .answered _ | .failed _ => False
  | _ => True

/-- The datastore is locked from before the data of a node are read until the response was
written, and what was read still holds. -/
structure Consistent (backend : Backend D S) (env : Env S) (ctx : RequestContext)
    (s : State D S) : Prop where
  lock : isRoot ctx = false ∧ s.phase.IsLocked ↔ s.lock = some .request
  fits : s.phase.Fits backend env ctx s.contents s.written

namespace Consistent

theorem leave {phase : Phase S} (unlocked : ¬phase.IsLocked)
    (fits : phase.Fits backend env ctx s.contents s.written) :
    Consistent backend env ctx (s.leave phase) := by
  constructor
  · apply iff_of_false fun locked => unlocked locked.2
    simp only [State.leave]
    split
    · exact nofun
    next other => exact other
  · exact fits

/-- What is known of the target of a step that keeps the lock. -/
theorem keep {phase phase' : Phase S} {contents : D} {written : Option (D × D)}
    (lock : isRoot ctx = false ∧ phase.IsLocked ↔ s.lock = some .request)
    (before : phase.IsLocked) (after : phase'.IsLocked)
    (fits : phase'.Fits backend env ctx contents written) :
    Consistent backend env ctx ⟨contents, s.lock, phase', written⟩ := by
  refine ⟨?_, fits⟩
  rw [← lock]
  exact ⟨fun held => ⟨held.1, before⟩, fun held => ⟨held.1, after⟩⟩

theorem effect (lockable : isRoot ctx = false → ctx.activeDatastore ≠ .candidate)
    (consistent : Consistent backend env ctx s) (effect : Effect backend env ctx s t) :
    Consistent backend env ctx t := by
  obtain ⟨lock, fits⟩ := consistent
  cases effect with
  | lock arrived below free =>
      rw [arrived] at fits
      exact ⟨iff_of_true ⟨below, trivial⟩ rfl, fits, below⟩
  | skip _ below candidate => exact absurd candidate (lockable below)
  | check locked known =>
      rw [locked] at lock fits
      exact keep lock trivial trivial ⟨fits.1, fits.2, known⟩
  | prepareRoot arrived root planned =>
      rw [arrived] at lock fits
      refine ⟨?_, fits, .root root rfl, planned⟩
      have unheld := lock.not.mp fun locked => locked.2
      refine iff_of_false ?_ unheld
      rw [root]
      exact nofun
  | prepare checked planned =>
      rw [checked] at lock fits
      exact keep lock trivial trivial ⟨fits.1, .node fits.2.1 fits.2.2, planned⟩
  | write edited wrote =>
      rw [edited] at lock fits
      exact keep lock trivial trivial ⟨_, _, rfl, fits.2.1, _, fits.2.2, wrote⟩
  | respond applied =>
      rw [applied] at fits
      obtain ⟨before, after, written, writes⟩ := fits
      exact leave id ⟨before, after, _, written, writes, rfl⟩
  | fail exception unwritten =>
      refine leave id ?_
      cases phase : s.phase with
      | arrived =>
          rw [phase] at fits
          exact fits
      | locked | checked data | edited data edit =>
          rw [phase] at fits
          exact fits.1
      | applied data | answered status | failed other =>
          rw [phase] at unwritten
          exact unwritten.elim
  | change contents allowed =>
      refine ⟨lock, ?_⟩
      cases phase : s.phase with
      | arrived | answered status | failed exception | applied data =>
          rw [phase] at fits
          exact fits
      | locked | checked data =>
          -- only a node gets here, and its datastore is locked
          rw [phase] at lock fits
          have below : isRoot ctx = false := by first | exact fits.2 | exact fits.2.1
          exact absurd (lock.mp ⟨below, trivial⟩) allowed
      | edited data edit =>
          rw [phase] at lock fits
          obtain ⟨unwritten, target, planned⟩ := fits
          cases target with
          | root path unread => exact ⟨unwritten, .root path unread, planned⟩
          | node below _ => exact absurd (lock.mp ⟨below, trivial⟩) allowed
  | relock other before after =>
      exact ⟨iff_of_false (fun locked => before (lock.mp locked)) after, fits⟩

theorem run {contents : D} {events : List (Event D)}
    (lockable : isRoot ctx = false → ctx.activeDatastore ≠ .candidate)
    (run : Run (step backend env ctx) (initial contents) events s) :
    Consistent backend env ctx s := by
  induction run with
  | nil => exact ⟨iff_of_false (fun locked => locked.2) nofun, rfl⟩
  | snoc _ taken ih => exact effect lockable ih (step_effect taken)

end Consistent

/-- However the calls of the handler and those of other clients are interleaved: the response to
a request which is answered, and the edit which it has applied, are those of the function run
alone on the contents right before the edit.  Nothing is written by a request which fails.  The
lock is released in both cases. -/
theorem writes_like_alone {contents : D} {events : List (Event D)}
    (lockable : isRoot ctx = false → ctx.activeDatastore ≠ .candidate)
    (run : Run (step backend env ctx) (initial contents) events s) :
    (∀ status, s.phase = .answered status → ∃ before after edit checks,
      s.written = some (before, after) ∧ writeEdit backend ctx before edit = .ok after ∧
        exec (processPutOrPlainPatch (reading backend env before) ctx) World.initial =
          (.ok (), ⟨some (status, [cors]), some [], checks, [edit], [edit]⟩) ∧
        (ctx.method = str "PUT" → (status = 201 ↔
          isRoot ctx = true ∨ backend.read before ctx.restconfRequest.path = .ok none)) ∧
        s.lock ≠ some .request) ∧
      ∀ exception, s.phase = .failed exception → s.written = none ∧ s.lock ≠ some .request := by
  obtain ⟨lock, fits⟩ := Consistent.run lockable run
  constructor
  · intro status answered
    rw [answered] at lock fits
    obtain ⟨before, after, data, written, ⟨target, edit, planned, wrote⟩, rfl⟩ := fits
    obtain ⟨checks, alone⟩ := exec_alone target planned
    refine ⟨before, after, edit, checks, written, wrote, alone, ?_, lock.not.mp fun held => held.2⟩
    intro put
    rw [writeStatus, if_pos put]
    cases target with
    | root path unread =>
        rw [unread]
        exact iff_of_true rfl (.inl path)
    | node below known =>
        rw [known.read]
        cases data with
        | none => exact iff_of_true rfl (.inr rfl)
        | some forest => exact iff_of_false (by simp) (by simp [below])
  · intro exception failed
    rw [failed] at lock fits
    exact ⟨fits, lock.not.mp fun held => held.2⟩

end Locked

/-! ## A leaf -/

/-- A leaf is there, or not. -/
def leafBackend : Backend Bool Example.Node where
  read found _ := .ok (if found then some [] else none)
  write _ _ := .ok true
  replace _ _ := .ok true

/-- The request for the leaf, in a datastore. -/
def putLeafIn (activeDatastore : Datastore) : RequestContext :=
  { putLeafContext with activeDatastore }

theorem putLeaf_planned : ∃ edit, ∀ datastore,
    plannedEdit (putLeafEnv []) (putLeafIn datastore) = .ok edit := by
  have planned : (plannedEdit (putLeafEnv []) putLeafContext).toOption.isSome = true := by
    decide +kernel
  cases outcome : plannedEdit (putLeafEnv []) putLeafContext with
  | ok edit => exact ⟨edit, fun _ => outcome⟩
  | error exception =>
      rw [outcome] at planned
      cases planned

/-- Somebody deletes the leaf before the datastore is locked, and tries to create it after. -/
theorem putLeaf_writes_like_alone :
    ∃ s, Run (step leafBackend (putLeafEnv []) (putLeafIn .running)) (initial true)
        [.change 1 false, .lock, .check, .prepare, .write, .respond, .change 1 true] s ∧
      s.phase = .answered 201 ∧ s.written = some (false, true) ∧ s.lock ≠ some .request := by
  obtain ⟨edit, planned⟩ := putLeaf_planned
  have run : Run (step leafBackend (putLeafEnv []) (putLeafIn .running)) (initial true)
      [.change 1 false, .lock, .check, .prepare, .write, .respond, .change 1 true]
      ⟨true, none, .answered 201, some (false, true)⟩ := by
    apply Run.of_execute
    simp only [Run.execute, step, planned .running]
    rfl
  have lockable : isRoot (putLeafIn .running) = false →
      (putLeafIn .running).activeDatastore ≠ .candidate := fun _ => by decide
  have alone := writes_like_alone lockable run
  obtain ⟨_, _, _, _, _, _, _, _, released⟩ := alone.1 201 rfl
  exact ⟨_, run, rfl, rfl, released⟩

/-- The candidate datastore is not locked: the leaf gets created by somebody else after it was
looked for, and the response still tells that it was not there. -/
theorem putLeaf_race :
    ∃ s, Run (step leafBackend (putLeafEnv []) (putLeafIn .candidate)) (initial false)
        [.lock, .check, .change 1 true, .prepare, .write, .respond] s ∧
      s.phase = .answered 201 ∧ s.written = some (true, true) := by
  obtain ⟨edit, planned⟩ := putLeaf_planned
  refine ⟨⟨true, none, .answered 201, some (true, true)⟩, ?_, rfl, rfl⟩
  apply Run.of_execute
  simp only [Run.execute, step, planned .candidate]
  rfl

end Rousette.Restconf.Server.Concurrent
