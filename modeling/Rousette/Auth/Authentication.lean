import Rousette.Auth.PamConversation

/-!
# Authentication by PAM

`authenticate_pam` from `auth/PAM.cpp` calls the functions of libpam one after the other, and gives
up at the first one which fails.  What libpam does is up to the modules which are configured; during
any of the calls they may ask for a delay through `pam_register_delay`.
-/

namespace Rousette.Auth

open Library

/-- A call of libpam; its other arguments are always the same. -/
inductive PamCall where
  | start (user : Str)
  | setRemoteHost (host : Str)
  | setFailDelay
  | authenticate
  | acctMgmt
  | getUser
  /-- `pam_end` -/
  | finish (status : Nat)
  deriving DecidableEq, Repr

/-- What comes of a call: the code, and the delays which are registered meanwhile. -/
structure PamReply where
  result : Nat
  delays : List Nat

/-- The behaviour of libpam after some calls. -/
structure Pam where
  reply : List PamCall → PamCall → PamReply
  /-- does `pam_start` set the handle? -/
  handle : Bool
  /-- the item `PAM_USER` -/
  user : List PamCall → Option Str
  strerror : Nat → Str

/-- What was called so far, and the variables which `check`, the deleter of the handle and
`pam_register_delay` refer to. -/
structure PamWorld where
  calls : List PamCall
  delay : Option Nat
  res : Nat

namespace PamWorld

def initial : PamWorld := ⟨[], none, pamSuccess⟩

/-- The world after a call. -/
def called (pam : Pam) (w : PamWorld) (call : PamCall) : PamWorld :=
  let reply := pam.reply w.calls call
  ⟨w.calls ++ [call], reply.delays.getLast?.or w.delay, reply.result⟩

/-- The deleter of the handle. -/
def ended (pam : Pam) (w : PamWorld) : PamWorld :=
  if pam.handle then { w with calls := w.calls ++ [.finish w.res] } else w

end PamWorld

abbrev Authenticating := Program PamWorld Exception

section Authenticate

variable (pam : Pam)

def callPam (call : PamCall) : Authenticating Unit := modify fun w => w.called pam call

/-- The message of an error. -/
def pamError (function : Str) (res : Nat) : Str :=
  str "PAM: " ++ function ++ str ": " ++ pam.strerror res

/-- `check` -/
def check (function : Str) : Authenticating Unit := do
  let w ← get
  if w.res ≠ pamSuccess then throw (.auth (pamError pam function w.res) w.delay)

/-- An assignment to `res` and the `check` after it. -/
def stage (call : PamCall) (function : Str) : Authenticating Unit := do
  callPam pam call
  check pam function

/-- The result, which is made of the item. -/
def userItem : Authenticating Str := do
  match pam.user (← get).calls with
  | some item => return item
  | none => throw .undefined

/-- What follows the construction of the guard of the handle. -/
def authenticate_guarded (remoteHost : Option Str) : Authenticating Str := do
  check pam (str "pam_start()")
  match remoteHost with
  | some host => stage pam (.setRemoteHost (cStr host)) (str "pam_set_item(PAM_RHOST)")
  | none => pure ()
  stage pam .setFailDelay (str "pam_set_item(PAM_FAIL_DELAY)")
  stage pam .authenticate (str "pam_authenticate")
  stage pam .acctMgmt (str "pam_acct_mgmt")
  stage pam .getUser (str "pam_get_item(PAM_USER)")
  userItem pam

/-- `authenticate_pam` with a user name and a password -/
def authenticate_pam (userPass : UserPass) (remoteHost : Option Str) : Authenticating Str := do
  callPam pam (.start (cStr userPass.username))
  let user ← tryCatch (authenticate_guarded pam remoteHost) fun exception => do
    modify (PamWorld.ended pam)
    throw exception
  modify (PamWorld.ended pam)
  return user

/-! ## The script -/

/-- The calls of a successful authentication up to the last check, with the names of the functions
in the messages. -/
def script (userPass : UserPass) (remoteHost : Option Str) : List (PamCall × Str) :=
  (.start (cStr userPass.username), str "pam_start()") ::
    ((remoteHost.map fun host =>
      (.setRemoteHost (cStr host), str "pam_set_item(PAM_RHOST)")).toList ++
    [(.setFailDelay, str "pam_set_item(PAM_FAIL_DELAY)"),
      (.authenticate, str "pam_authenticate"), (.acctMgmt, str "pam_acct_mgmt"),
      (.getUser, str "pam_get_item(PAM_USER)")])

/-- Each of the calls succeeds after those before it. -/
def Succeed : List PamCall → List PamCall → Prop
  | _, [] => True
  | before, call :: calls =>
      (pam.reply before call).result = pamSuccess ∧ Succeed (before ++ [call]) calls

/-- The delays which are registered during the calls. -/
def registered : List PamCall → List PamCall → List Nat
  | _, [] => []
  | before, call :: calls => (pam.reply before call).delays ++ registered (before ++ [call]) calls

/-- Perform the stages of a script. -/
def perform : List (PamCall × Str) → Authenticating Unit
  | [] => pure ()
  | (call, function) :: stages => do
      stage pam call function
      perform stages

variable {pam}

/-- What becomes of a script which starts in the world `w`. -/
inductive Performs (pam : Pam) (w : PamWorld) (stages : List (PamCall × Str)) :
    Except Exception Unit × PamWorld → Prop where
  | all {after : PamWorld} (succeed : Succeed pam w.calls (stages.map Prod.fst))
      (calls : after.calls = w.calls ++ stages.map Prod.fst)
      (res : after.res = if stages = [] then w.res else pamSuccess) :
      Performs pam w stages (.ok (), after)
  | failed {after : PamWorld} {before rest : List (PamCall × Str)} {call : PamCall}
      {function : Str} (split : stages = before ++ (call, function) :: rest)
      (succeed : Succeed pam w.calls (before.map Prod.fst))
      (fails : (pam.reply (w.calls ++ before.map Prod.fst) call).result ≠ pamSuccess)
      (calls : after.calls = w.calls ++ before.map Prod.fst ++ [call])
      (res : after.res = (pam.reply (w.calls ++ before.map Prod.fst) call).result)
      (delay : after.delay =
        (registered pam w.calls (before.map Prod.fst ++ [call])).getLast?.or w.delay) :
      Performs pam w stages
        (.error (.auth (pamError pam function after.res) after.delay), after)

theorem exec_stage (call : PamCall) (function : Str) (w : PamWorld) :
    Program.exec (stage pam call function) w =
      if (w.called pam call).res = pamSuccess then (.ok (), w.called pam call)
      else (.error (.auth (pamError pam function (w.called pam call).res)
        (w.called pam call).delay), w.called pam call) := by
  have checked : Program.exec (stage pam call function) w =
      Program.exec (if (w.called pam call).res ≠ pamSuccess then
        throw (.auth (pamError pam function (w.called pam call).res) (w.called pam call).delay)
        else pure () : Authenticating Unit) (w.called pam call) := rfl
  rw [checked]
  by_cases success : (w.called pam call).res = pamSuccess
  · rw [if_pos success, if_neg (not_not_intro success)]
    rfl
  · rw [if_neg success, if_pos success]
    rfl

/-- The last of two lists of delays which was registered. -/
theorem getLast?_append_or (first second : List Nat) (before : Option Nat) :
    second.getLast?.or (first.getLast?.or before) = (first ++ second).getLast?.or before := by
  rw [List.getLast?_append, Option.or_assoc]

theorem performs_cons {w : PamWorld} {call : PamCall} {function : Str}
    {stages : List (PamCall × Str)} {outcome : Except Exception Unit × PamWorld}
    (success : (w.called pam call).res = pamSuccess)
    (performs : Performs pam (w.called pam call) stages outcome) :
    Performs pam w ((call, function) :: stages) outcome := by
  cases performs with
  | all succeed calls res =>
      apply Performs.all
      · exact ⟨success, succeed⟩
      · rw [calls, PamWorld.called, List.map_cons, List.append_assoc, List.singleton_append]
      · rw [res, success, ite_self, if_neg (List.cons_ne_nil _ _)]
  | @failed _ before rest failing name split succeed fails calls res delay =>
      have history : (w.called pam call).calls ++ before.map Prod.fst =
          w.calls ++ ((call, function) :: before).map Prod.fst := by
        rw [PamWorld.called, List.map_cons, List.append_assoc, List.singleton_append]
      rw [history] at fails calls res
      refine @Performs.failed _ _ _ _ ((call, function) :: before) rest _ _ ?_ ⟨success, succeed⟩
        fails calls res ?_
      · rw [split]
        rfl
      · rw [delay, List.map_cons, List.cons_append, registered, ← getLast?_append_or]
        rfl

/-- A script is performed up to the first call which fails. -/
theorem perform_performs (stages : List (PamCall × Str)) (w : PamWorld) :
    Performs pam w stages (Program.exec (perform pam stages) w) := by
  induction stages generalizing w with
  | nil => exact .all trivial (List.append_nil _).symm rfl
  | cons first stages ih =>
      obtain ⟨call, function⟩ := first
      rw [perform, Program.exec_bind, exec_stage]
      by_cases success : (w.called pam call).res = pamSuccess
      · rw [if_pos success]
        exact performs_cons success (ih _)
      · rw [if_neg success]
        have history : w.calls ++ List.map Prod.fst ([] : List (PamCall × Str)) = w.calls :=
          List.append_nil _
        refine @Performs.failed _ _ _ _ [] stages _ _ rfl trivial ?_ ?_ ?_ ?_
        · rw [history]
          exact success
        · rw [history]
          rfl
        · rw [history]
          rfl
        · rw [List.map_nil, List.nil_append, registered, registered, List.append_nil]
          rfl

/-- The guarded part goes on with the script after the first call. -/
theorem start_authenticate_guarded (userPass : UserPass) (remoteHost : Option Str) :
    (do
      callPam pam (.start (cStr userPass.username))
      authenticate_guarded pam remoteHost : Authenticating Str) =
      (do
        perform pam (script userPass remoteHost)
        userItem pam) := by
  cases remoteHost <;>
    simp only [authenticate_guarded, script, perform, stage, Option.map_none, Option.map_some,
      Option.toList_none, Option.toList_some, List.nil_append, List.singleton_append, bind_assoc,
      pure_bind]

/-- The handle is released after the script, whatever has come of it. -/
theorem exec_authenticate_pam (userPass : UserPass) (remoteHost : Option Str) (w : PamWorld) :
    Program.exec (authenticate_pam pam userPass remoteHost) w =
      match Program.exec (do perform pam (script userPass remoteHost); userItem pam) w with
      | (result, after) => (result, after.ended pam) := by
  rw [← start_authenticate_guarded, authenticate_pam, Program.exec_bind, Program.exec_bind]
  have called : Program.exec (callPam pam (.start (cStr userPass.username))) w =
      (.ok (), w.called pam (.start (cStr userPass.username))) := rfl
  rw [called]
  dsimp only
  rw [Program.exec_bind, Program.exec_tryCatch]
  rcases Program.exec (authenticate_guarded pam remoteHost)
    (w.called pam (.start (cStr userPass.username))) with ⟨exception | user, after⟩ <;> rfl

/-! ## The outcome -/

/-- The calls of a script before `pam_end`. -/
def scriptCalls (userPass : UserPass) (remoteHost : Option Str) : List PamCall :=
  (script userPass remoteHost).map Prod.fst

/-- What was called: the beginning of the script up to the first call which fails, and then
`pam_end` with its code if there is a handle. -/
structure Transacted (pam : Pam) (userPass : UserPass) (remoteHost : Option Str)
    (made : List PamCall) (status : Nat) (calls : List PamCall) : Prop where
  calls : calls = made ++ if pam.handle then [.finish status] else []
  beginning : made <+: scriptCalls userPass remoteHost
  last : ∃ before call, made = before ++ [call] ∧ Succeed pam [] before ∧
    status = (pam.reply before call).result

theorem succeed_append {before calls : List PamCall} {call : PamCall} :
    Succeed pam before (calls ++ [call]) ↔
      Succeed pam before calls ∧ (pam.reply (before ++ calls) call).result = pamSuccess := by
  induction calls generalizing before with
  | nil => simp [Succeed]
  | cons first calls ih =>
      rw [List.cons_append, Succeed, Succeed, ih, and_assoc, List.append_assoc,
        List.singleton_append]

/-- Calls which all succeed end with one that does. -/
theorem Succeed.last {calls : List PamCall} (succeed : Succeed pam [] calls) (some : calls ≠ []) :
    ∃ before call, calls = before ++ [call] ∧ Succeed pam [] before ∧
      pamSuccess = (pam.reply before call).result := by
  obtain rfl | ⟨before, call, rfl⟩ := calls.eq_nil_or_concat
  · exact absurd rfl some
  · rw [List.concat_eq_append] at succeed ⊢
    obtain ⟨earlier, success⟩ := succeed_append.mp succeed
    rw [List.nil_append] at success
    exact ⟨before, call, rfl, earlier, success.symm⟩

/-- A call which fails is not among calls which all succeed. -/
theorem not_succeed_of_fails {calls before rest : List PamCall} {call : PamCall}
    (split : calls = before ++ call :: rest)
    (fails : (pam.reply before call).result ≠ pamSuccess) : ¬Succeed pam [] calls := by
  have stops : ∀ first earlier : List PamCall, first ++ earlier = before →
      ¬Succeed pam first (earlier ++ call :: rest) := by
    intro first earlier
    induction earlier generalizing first with
    | nil =>
        intro same succeed
        rw [List.append_nil] at same
        rw [same] at succeed
        exact fails succeed.1
    | cons one earlier ih =>
        intro same succeed
        apply ih (first ++ [one]) _ succeed.2
        rw [List.append_assoc, List.singleton_append]
        exact same
  rw [split]
  exact stops [] before rfl

theorem ended_calls (w : PamWorld) :
    (w.ended pam).calls = w.calls ++ if pam.handle then [.finish w.res] else [] := by
  rw [PamWorld.ended]
  split
  · rfl
  · exact (List.append_nil _).symm

theorem exec_userItem (w : PamWorld) :
    Program.exec (userItem pam) w =
      (match pam.user w.calls with
        | some item => .ok item
        | none => .error .undefined, w) := by
  have item : Program.exec (userItem pam) w = Program.exec (match pam.user w.calls with
    | some item => pure item
    | none => throw .undefined : Authenticating Str) w := rfl
  rw [item]
  cases pam.user w.calls <;> rfl

/-- A user is returned if every call of the script succeeds. -/
theorem exec_authenticate_pam_eq_ok (pam : Pam) (userPass : UserPass) (remoteHost : Option Str)
    (user : Str) :
    (Program.exec (authenticate_pam pam userPass remoteHost) PamWorld.initial).1 = .ok user ↔
      Succeed pam [] (scriptCalls userPass remoteHost) ∧
        pam.user (scriptCalls userPass remoteHost) = some user := by
  have performs := @perform_performs pam (script userPass remoteHost) PamWorld.initial
  rw [exec_authenticate_pam, Program.exec_bind]
  generalize Program.exec (perform pam (script userPass remoteHost)) PamWorld.initial =
    outcome at performs ⊢
  cases performs with
  | @all after succeed calls res =>
      have made : after.calls = scriptCalls userPass remoteHost := calls
      have succeed : Succeed pam [] (scriptCalls userPass remoteHost) := succeed
      dsimp only
      rw [exec_userItem, made, and_iff_right succeed]
      cases pam.user (scriptCalls userPass remoteHost) <;> simp
  | @failed after before rest call function split succeed fails calls res delay =>
      have whole : scriptCalls userPass remoteHost =
          before.map Prod.fst ++ call :: rest.map Prod.fst := by
        rw [scriptCalls, split, List.map_append, List.map_cons]
      have gaveUp : ¬Succeed pam [] (scriptCalls userPass remoteHost) :=
        not_succeed_of_fails whole fails
      exact iff_of_false (by intro same; cases same) fun both => gaveUp both.1

/-- Whatever libpam does: its functions are called in one order, none of them after one which has
failed, and a handle is released exactly once, at the end, with the code of the call before.  A
user is returned if and only if all of them succeed, and it is the one PAM has then.  Otherwise the
error names the function which has failed, and carries the delay which was registered last. -/
theorem pam_transaction (pam : Pam) (userPass : UserPass) (remoteHost : Option Str) :
    (∀ user, (Program.exec (authenticate_pam pam userPass remoteHost) PamWorld.initial).1 =
        .ok user ↔ Succeed pam [] (scriptCalls userPass remoteHost) ∧
          pam.user (scriptCalls userPass remoteHost) = some user) ∧
      ∃ made status, Transacted pam userPass remoteHost made status
          (Program.exec (authenticate_pam pam userPass remoteHost) PamWorld.initial).2.calls ∧
        ∀ exception, (Program.exec (authenticate_pam pam userPass remoteHost)
            PamWorld.initial).1 = .error exception →
          (∃ before call function rest,
            script userPass remoteHost = before ++ (call, function) :: rest ∧
            made = before.map Prod.fst ++ [call] ∧ status ≠ pamSuccess ∧
            exception = .auth (pamError pam function status) (registered pam [] made).getLast?) ∨
          exception = .undefined ∧ Succeed pam [] (scriptCalls userPass remoteHost) ∧
            pam.user (scriptCalls userPass remoteHost) = none := by
  refine ⟨exec_authenticate_pam_eq_ok pam userPass remoteHost, ?_⟩
  have performs := @perform_performs pam (script userPass remoteHost) PamWorld.initial
  rw [exec_authenticate_pam, Program.exec_bind]
  generalize Program.exec (perform pam (script userPass remoteHost)) PamWorld.initial =
    outcome at performs ⊢
  cases performs with
  | @all after succeed calls res =>
      have made : after.calls = scriptCalls userPass remoteHost := calls
      have succeed : Succeed pam [] (scriptCalls userPass remoteHost) := succeed
      have stages : script userPass remoteHost ≠ [] := List.cons_ne_nil _ _
      have nonempty : scriptCalls userPass remoteHost ≠ [] := List.cons_ne_nil _ _
      rw [if_neg stages] at res
      dsimp only
      rw [exec_userItem, made]
      refine ⟨scriptCalls userPass remoteHost, pamSuccess,
        ⟨?_, List.prefix_rfl, succeed.last nonempty⟩, ?_⟩
      · rw [ended_calls, made, res]
      · intro exception raised
        cases item : pam.user (scriptCalls userPass remoteHost) with
        | none =>
            rw [item] at raised
            cases raised
            exact .inr ⟨rfl, succeed, rfl⟩
        | some user =>
            rw [item] at raised
            cases raised
  | @failed after before rest call function split succeed fails calls res delay =>
      have whole : scriptCalls userPass remoteHost =
          before.map Prod.fst ++ call :: rest.map Prod.fst := by
        rw [scriptCalls, split, List.map_append, List.map_cons]
      refine ⟨before.map Prod.fst ++ [call], after.res, ⟨?_, ?_, _, call, rfl, succeed, res⟩, ?_⟩
      · rw [ended_calls, calls]
        rfl
      · rw [whole]
        exact ⟨rest.map Prod.fst, List.append_assoc _ _ _⟩
      · intro exception raised
        cases raised
        refine .inl ⟨before, call, function, rest, split, rfl, ?_, ?_⟩
        · rw [res]
          exact fails
        · rw [delay, PamWorld.initial, Option.or_none]

end Authenticate

end Rousette.Auth
