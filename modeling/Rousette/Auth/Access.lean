import Rousette.Auth.Authentication
import Rousette.Auth.Nacm
import Rousette.Http.AcceptHeader
import Rousette.Library.Run

/-!
# Access to the server

`authorizeRequest` from `auth/Http.cpp` gives the session of a request its NACM user: the one PAM
has authenticated, or the anonymous user if the request has no credentials.  The anonymous user is
let in by the flag in `Nacm`, which a subscription to the configuration of NACM keeps up to date.
sysrepo runs the callback of the subscription some time after a change, next to the requests.
-/

namespace Rousette.Auth

open Library Http

section Access

-- `ANONYMOUS_USER` and `ANONYMOUS_USER_GROUP` are set when the server is built
variable (anonymousUser anonymousGroup : Str)

/-- `Nacm::authorize`, with the call of `setNacmUser` -/
def authorize (anonymousEnabled : Bool) (setNacmUser : Str → Except Sysrepo.ErrorWithCode Unit)
    (user : Str) : Except Exception Bool :=
  if user == anonymousUser && !anonymousEnabled then .ok false
  else
    match setNacmUser user with
    | .ok () => .ok true
    | .error error => .error (.sysrepo error)

/-- A request, with the behaviour of PAM and of sysrepo at that time. -/
structure AccessRequest where
  headers : List (Str × Str)
  pam : Pam
  setNacmUser : Str → Except Sysrepo.ErrorWithCode Unit

/-- The `authorization` header. -/
def AccessRequest.authHeader (request : AccessRequest) : Option Str :=
  getHeaderValue request.headers (str "authorization")

/-- The user of the request before it is checked whether he may be let in. -/
def nacmUser (request : AccessRequest) : Authenticating Str :=
  match request.authHeader with
  | some authHeader => do
      let userPass ← parseBasicAuth authHeader
      authenticate_pam request.pam userPass none
  | none => return anonymousUser

/-- `authorizeRequest`: the NACM user which the session has after it -/
def authorizeRequest (anonymousEnabled : Bool) (request : AccessRequest) : Authenticating Str := do
  let user ← nacmUser anonymousUser request
  if ← authorize anonymousUser anonymousEnabled request.setNacmUser user then
    return user
  else
    throw (.auth (str "Access denied.") none)

/-! ## Requests and changes of the configuration -/

/-- A session whose user was set. -/
structure Admission where
  request : AccessRequest
  user : Str
  /-- the configuration which the flag was computed from -/
  checked : Option NacmConfig

/-- The configuration of NACM and the server. The program has neither of the fields `stale`,
`checked` and `sessions`. -/
structure Access where
  running : NacmConfig
  /-- callbacks which were not run yet -/
  pending : Nat
  /-- `m_anonymousEnabled` -/
  anonymousEnabled : Bool
  /-- has the configuration changed since it was checked? -/
  stale : Bool
  checked : Option NacmConfig
  sessions : List Admission

/-- The constructor of `Nacm` was run; the subscription asks for a first callback. -/
def Access.initial (running : NacmConfig) : Access where
  running := running
  pending := 1
  anonymousEnabled := false
  stale := true
  checked := none
  sessions := []

/-- What may happen. -/
inductive AccessEvent where
  /-- somebody changes the configuration of NACM -/
  | commit (config : NacmConfig)
  | onModuleChange
  /-- the callback ends with an exception of `getData` -/
  | onModuleChangeFails
  | request (request : AccessRequest)

/-- The state after a request was let in, or refused. -/
def Access.onRequest (s : Access) (request : AccessRequest) : Access :=
  match (Program.exec (authorizeRequest anonymousUser s.anonymousEnabled request)
      PamWorld.initial).1 with
  | .ok user => { s with sessions := s.sessions ++ [⟨request, user, s.checked⟩] }
  | .error _ => s

/-- The state after an event, if it can happen. -/
def Access.step (s : Access) : AccessEvent → Option Access
  | .commit config =>
      some { s with running := config, pending := s.pending + 1, stale := true }
  | .onModuleChange =>
      match s.pending with
      | 0 => none
      | pending + 1 =>
          some { s with
            pending := pending
            anonymousEnabled := validAnonymousNacmRules (some s.running.ruleLists) anonymousGroup
            stale := false
            checked := some s.running }
  | .onModuleChangeFails =>
      match s.pending with
      | 0 => none
      | pending + 1 => some { s with pending := pending }
  | .request request => some (s.onRequest anonymousUser request)

/-! ## What lets a request in -/

variable {anonymousUser anonymousGroup}

/-- PAM has authenticated the user, with the credentials in the header of the request. -/
def Authenticated (request : AccessRequest) (user : Str) : Prop :=
  ∃ authHeader userPass, request.authHeader = some authHeader ∧
    parseBasicAuth authHeader = .ok userPass ∧
    Succeed request.pam [] (scriptCalls userPass none) ∧
    request.pam.user (scriptCalls userPass none) = some user

theorem authorize_eq_ok_true {anonymousEnabled : Bool}
    {setNacmUser : Str → Except Sysrepo.ErrorWithCode Unit} {user : Str}
    (admitted : authorize anonymousUser anonymousEnabled setNacmUser user = .ok true) :
    (user = anonymousUser → anonymousEnabled = true) ∧ setNacmUser user = .ok () := by
  unfold authorize at admitted
  split at admitted
  case isTrue => cases admitted
  case isFalse allowed =>
    constructor
    · rintro rfl
      simpa using allowed
    · cases set : setNacmUser user with
      | ok _ => rfl
      | error error =>
          rw [set] at admitted
          cases admitted

theorem nacmUser_eq_ok {request : AccessRequest} {user : Str}
    (returned : (Program.exec (nacmUser anonymousUser request) PamWorld.initial).1 = .ok user) :
    Authenticated request user ∨ request.authHeader = none ∧ user = anonymousUser := by
  unfold nacmUser at returned
  cases header : request.authHeader with
  | none =>
      rw [header] at returned
      cases returned
      exact .inr ⟨rfl, rfl⟩
  | some authHeader =>
      rw [header] at returned
      obtain ⟨userPass, parsed, authenticated⟩ := Program.exec_bind_eq_ok.mp returned
      have succeeded :=
        (exec_authenticate_pam_eq_ok request.pam userPass none user).mp authenticated
      exact .inl ⟨authHeader, userPass, header, parsed, succeeded⟩

/-- A request gets a user by PAM or by its having no credentials, and the anonymous user is let in
by the flag only. -/
theorem authorizeRequest_eq_ok {anonymousEnabled : Bool} {request : AccessRequest} {user : Str}
    (admitted : (Program.exec (authorizeRequest anonymousUser anonymousEnabled request)
      PamWorld.initial).1 = .ok user) :
    (Authenticated request user ∨ request.authHeader = none ∧ user = anonymousUser) ∧
      (user = anonymousUser → anonymousEnabled = true) ∧ request.setNacmUser user = .ok () := by
  obtain ⟨found, returned, rest⟩ := Program.exec_bind_eq_ok.mp admitted
  obtain ⟨allowed, authorized, result⟩ := Program.exec_bind_eq_ok.mp rest
  have authorized : authorize anonymousUser anonymousEnabled request.setNacmUser found =
    .ok allowed := authorized
  cases allowed with
  | false => cases result
  | true =>
      cases result
      exact ⟨nacmUser_eq_ok returned, authorize_eq_ok_true authorized⟩

/-! ## The effect of a step -/

/-- What a step does. -/
inductive Access.Effect (anonymousUser anonymousGroup : Str) (s : Access) :
    AccessEvent → Access → Prop where
  | commit (config : NacmConfig) :
      Effect anonymousUser anonymousGroup s (.commit config)
        { s with running := config, pending := s.pending + 1, stale := true }
  | check {pending : Nat} (due : s.pending = pending + 1) :
      Effect anonymousUser anonymousGroup s .onModuleChange
        { s with
          pending := pending
          anonymousEnabled := validAnonymousNacmRules (some s.running.ruleLists) anonymousGroup
          stale := false
          checked := some s.running }
  | miss {pending : Nat} (due : s.pending = pending + 1) :
      Effect anonymousUser anonymousGroup s .onModuleChangeFails { s with pending := pending }
  | letIn {request : AccessRequest} {user : Str}
      (admitted : (Program.exec (authorizeRequest anonymousUser s.anonymousEnabled request)
        PamWorld.initial).1 = .ok user) :
      Effect anonymousUser anonymousGroup s (.request request)
        { s with sessions := s.sessions ++ [⟨request, user, s.checked⟩] }
  | refuse (request : AccessRequest) :
      Effect anonymousUser anonymousGroup s (.request request) s

theorem Access.step_effect {s s' : Access} {event : AccessEvent}
    (taken : s.step anonymousUser anonymousGroup event = some s') :
    Effect anonymousUser anonymousGroup s event s' := by
  cases event with
  | commit config =>
      cases taken
      exact .commit config
  | onModuleChange =>
      cases due : s.pending with
      | zero => simp [step, due] at taken
      | succ pending =>
          simp only [step, due, Option.some.injEq] at taken
          subst taken
          exact .check due
  | onModuleChangeFails =>
      cases due : s.pending with
      | zero => simp [step, due] at taken
      | succ pending =>
          simp only [step, due, Option.some.injEq] at taken
          subst taken
          exact .miss due
  | request request =>
      cases taken
      rw [onRequest]
      cases outcome : (Program.exec (authorizeRequest anonymousUser s.anonymousEnabled request)
          PamWorld.initial).1 with
      | ok user => exact .letIn outcome
      | error exception => exact .refuse request

/-- Why a session has its user. -/
structure Admission.Justified (anonymousUser anonymousGroup : Str) (a : Admission) : Prop where
  known : Authenticated a.request a.user ∨ a.request.authHeader = none ∧ a.user = anonymousUser
  anonymous : a.user = anonymousUser → ∃ config, a.checked = some config ∧
    validAnonymousNacmRules (some config.ruleLists) anonymousGroup = true

/-- The flag tells about the configuration which was checked last, and no session has its user
for nothing. -/
structure Access.Sound (anonymousUser anonymousGroup : Str) (s : Access) : Prop where
  flag : s.anonymousEnabled = true → ∃ config, s.checked = some config ∧
    validAnonymousNacmRules (some config.ruleLists) anonymousGroup = true
  current : s.stale = false → s.checked = some s.running ∧
    s.anonymousEnabled = validAnonymousNacmRules (some s.running.ruleLists) anonymousGroup
  justified : ∀ a ∈ s.sessions, a.Justified anonymousUser anonymousGroup

namespace Access.Sound

theorem start (running : NacmConfig) :
    (Access.initial running).Sound anonymousUser anonymousGroup where
  flag := by
    intro enabled
    cases enabled
  current := by
    intro fresh
    cases fresh
  justified := by
    intro a member
    cases member

theorem kept {s s' : Access} {event : AccessEvent} (sound : s.Sound anonymousUser anonymousGroup)
    (effect : s.Effect anonymousUser anonymousGroup event s') :
    s'.Sound anonymousUser anonymousGroup := by
  cases effect with
  | commit config =>
      refine ⟨sound.flag, ?_, sound.justified⟩
      intro fresh
      cases fresh
  | check due => exact ⟨fun valid => ⟨s.running, rfl, valid⟩, fun _ => ⟨rfl, rfl⟩, sound.justified⟩
  | miss due => exact ⟨sound.flag, sound.current, sound.justified⟩
  | refuse request => exact sound
  | letIn admitted =>
      refine ⟨sound.flag, sound.current, ?_⟩
      intro a member
      rcases List.mem_append.mp member with before | new
      · exact sound.justified a before
      · rw [List.mem_singleton.mp new]
        obtain ⟨known, allowed, _⟩ := authorizeRequest_eq_ok admitted
        exact ⟨known, fun anonymous => sound.flag (allowed anonymous)⟩

theorem reached {running : NacmConfig} {events : List AccessEvent} {s : Access}
    (run : Run (Access.step anonymousUser anonymousGroup) (Access.initial running) events s) :
    s.Sound anonymousUser anonymousGroup := by
  induction run with
  | nil => exact start running
  | snoc _ taken ih => exact ih.kept (Access.step_effect taken)

end Access.Sound

end Access

/-! ## A change which was not noticed yet -/

end Rousette.Auth
