import Mathlib.Data.Finset.Lattice.Lemmas
import Rousette.Auth.PAM
import Rousette.Library.Memory

/-!
# The conversation with PAM

`pam_userpass_conv` from `auth/PAM.cpp`: PAM asks with a list of messages, and the answers are
handed over as an array with a string for each prompt, all of them allocated by the function.  The
array belongs to a `unique_ptr` until it is handed over, which frees it together with its strings
when the function returns early.
-/

namespace Rousette.Auth

open Library

/-- `PAM_SUCCESS` -/
def pamSuccess : Nat := 0

/-- `PAM_BUF_ERR` -/
def pamBufErr : Nat := 5

/-- `PAM_CONV_ERR` -/
def pamConvErr : Nat := 19

/-- `msg_style` -/
inductive MsgStyle where
  | promptEchoOff
  | promptEchoOn
  | errorMsg
  | textInfo
  | other (style : Int)
  deriving DecidableEq, Repr

/-- `struct pam_response`, with the address of the string -/
structure PamResponse where
  resp : Option Nat
  retcode : Nat
  deriving DecidableEq, Repr

/-- An entry of the array which `calloc` gives. -/
def PamResponse.zero : PamResponse := ⟨none, 0⟩

/-- What the function allocates. -/
inductive Block where
  | responses (entries : List PamResponse)
  | string (text : Str)
  deriving DecidableEq, Repr

/-- What stands in front of the first NUL. -/
def cStr (text : Str) : Str := text.takeWhile (· != 0)

abbrev Conversation := Program (Memory Block) Exception

/-- `resp.get()[i]` -/
def responsesAt (resp : Option Nat) : Conversation (Nat × List PamResponse) :=
  match resp with
  | none => throw .undefined
  | some address => do
      match ← Memory.load .undefined address with
      | .responses entries => return (address, entries)
      | .string _ => throw .undefined

/-- The assignments to `resp.get()[i]`. -/
def setResponse (resp : Option Nat) (i : Nat) (response : PamResponse) : Conversation Unit := do
  let (address, entries) ← responsesAt resp
  if i < entries.length then
    Memory.store .undefined address (.responses (entries.set i response))
  else
    throw .undefined

/-- `release_response` for the entries from one on, and then for the array. -/
def releaseFrom (resp : Nat) (i : Nat) : Nat → Conversation Unit
  | 0 => Memory.free .undefined (some resp)
  | count + 1 => do
      let (_, entries) ← responsesAt (some resp)
      match entries[i]? with
      | some response => Memory.free .undefined response.resp
      | none => throw .undefined
      releaseFrom resp (i + 1) count

/-- The destructor of the `unique_ptr` -/
def releaseResponse (num_msg : Nat) : Option Nat → Conversation Unit
  | none => pure ()
  | some resp => releaseFrom resp 0 num_msg

/-- `strdup`, with the code to return when it fails -/
def duplicate (text : Str) : Conversation (Except Nat (Option Nat)) := do
  match ← Memory.alloc (.string (cStr text)) with
  | none => return .error pamBufErr
  | some str => return .ok (some str)

section Conversation

variable (userPass : UserPass)

/-- The `switch` over the style of a message. -/
def answer : MsgStyle → Conversation (Except Nat (Option Nat))
  | .promptEchoOn => duplicate userPass.username
  | .promptEchoOff => duplicate userPass.password
  | .errorMsg => return .ok none
  | .textInfo => return .ok none
  | .other _ => return .error pamConvErr

/-- The loop over the messages, with the code of an early return. -/
def respond (resp : Option Nat) : Nat → List MsgStyle → Conversation (Option Nat)
  | _, [] => return none
  | i, style :: msg => do
      match ← answer userPass style with
      | .error code => return some code
      | .ok str => do
          setResponse resp i ⟨str, pamSuccess⟩
          respond resp (i + 1) msg

/-- `pam_userpass_conv`: the code, and what is written to `resp_r` if there is such an argument. -/
def pam_userpass_conv (msg : List MsgStyle) (resp_r : Bool) :
    Conversation (Nat × Option (Option Nat)) := do
  let resp ← Memory.alloc (.responses (List.replicate msg.length PamResponse.zero))
  match ← respond userPass resp 0 msg with
  | some code => do
      releaseResponse msg.length resp
      return (code, none)
  | none =>
      if resp_r then return (pamSuccess, some resp)
      else do
        releaseResponse msg.length resp
        return (pamSuccess, none)

/-! ## The answers -/

/-- What a message is answered with: nothing for one without an answer, a text for a prompt. -/
def reply : MsgStyle → Option (Option Str)
  | .promptEchoOn => some (some (cStr userPass.username))
  | .promptEchoOff => some (some (cStr userPass.password))
  | .errorMsg => some none
  | .textInfo => some none
  | .other _ => none

/-- The number of strings which are allocated. -/
def prompts (msg : List MsgStyle) : Nat :=
  msg.countP fun style => style == .promptEchoOn || style == .promptEchoOff

/-- The addresses of the strings. -/
def strings (entries : List PamResponse) : List Nat := entries.filterMap PamResponse.resp

/-- The response is the one to the message. -/
inductive Answers (m : Memory Block) : MsgStyle → PamResponse → Prop where
  | silent {style : MsgStyle} (none : reply userPass style = some none) :
      Answers m style ⟨.none, pamSuccess⟩
  | text {style : MsgStyle} {text : Str} {address : Nat}
      (asked : reply userPass style = some (some text))
      (held : m.blocks address = some (.string text)) : Answers m style ⟨some address, pamSuccess⟩

/-- The array after its first entries were filled. -/
def padded (total : Nat) (entries : List PamResponse) : List PamResponse :=
  entries ++ List.replicate (total - entries.length) .zero

/-- The messages `done` were answered: there is an array with room for `total` responses, and a
string for each prompt. -/
structure Filled (m₀ m : Memory Block) (address total : Nat) (done : List MsgStyle)
    (entries : List PamResponse) : Prop where
  extension : m₀.Extends m (insert address (strings entries).toFinset)
  array : m.blocks address = some (.responses (padded total entries))
  answers : List.Forall₂ (Answers userPass m) done entries
  distinct : (address :: strings entries).Nodup

variable {userPass} {m₀ m : Memory Block} {address total : Nat} {done : List MsgStyle}
  {entries : List PamResponse} {style : MsgStyle} {msg : List MsgStyle}

theorem prompts_cons_silent (silent : reply userPass style = some none) :
    prompts (style :: msg) = prompts msg := by
  apply List.countP_cons_of_neg
  cases style with
  | promptEchoOn | promptEchoOff => cases silent
  | errorMsg | textInfo => decide
  | other style => cases silent

theorem prompts_cons_text {text : Str} (asked : reply userPass style = some (some text)) :
    prompts (style :: msg) = prompts msg + 1 := by
  apply List.countP_cons_of_pos
  cases style with
  | promptEchoOn | promptEchoOff => rfl
  | errorMsg | textInfo | other style => cases asked

theorem exec_answer_unknown (unknown : reply userPass style = none) :
    Program.exec (answer userPass style) m = (.ok (.error pamConvErr), m) := by
  cases style with
  | other style => rfl
  | promptEchoOn | promptEchoOff | errorMsg | textInfo => cases unknown

theorem exec_answer_silent (silent : reply userPass style = some none) :
    Program.exec (answer userPass style) m = (.ok (.ok none), m) := by
  cases style with
  | errorMsg | textInfo => rfl
  | promptEchoOn | promptEchoOff | other style => cases silent

theorem exec_duplicate (text : Str) :
    Program.exec (duplicate text) m =
      (.ok (if m.succeeds m.next then .ok (some m.next) else .error pamBufErr),
        m.tried (.string (cStr text))) := by
  rw [duplicate, Program.exec_bind, Memory.exec_alloc]
  by_cases succeeds : m.succeeds m.next = true
  · simp only [if_pos succeeds]
    rfl
  · simp only [if_neg succeeds]
    rfl

theorem exec_answer_text {text : Str} (asked : reply userPass style = some (some text)) :
    Program.exec (answer userPass style) m =
      (.ok (if m.succeeds m.next then .ok (some m.next) else .error pamBufErr),
        m.tried (.string text)) := by
  cases style with
  | promptEchoOn | promptEchoOff =>
      cases asked
      exact exec_duplicate _
  | errorMsg | textInfo | other style => cases asked

theorem exec_responsesAt (array : m.blocks address = some (.responses entries)) :
    Program.exec (responsesAt (some address)) m = (.ok (address, entries), m) := by
  rw [responsesAt, Program.exec_bind, Memory.exec_load array]
  rfl

theorem exec_setResponse {i : Nat} {response : PamResponse}
    (array : m.blocks address = some (.responses entries)) (room : i < entries.length) :
    Program.exec (setResponse (some address) i response) m =
      (.ok (), m.stored address (.responses (entries.set i response))) := by
  rw [setResponse, Program.exec_bind, exec_responsesAt array]
  simp only [if_pos room]
  apply Memory.exec_store
  rw [array]
  rfl

/-! ## The loop -/

/-- The next entry of the array. -/
theorem set_padded (entries : List PamResponse) {total : Nat} (response : PamResponse)
    (room : entries.length < total) :
    (padded total entries).set entries.length response = padded total (entries ++ [response]) := by
  obtain ⟨further, rfl⟩ := Nat.exists_eq_add_of_lt room
  have left : entries.length + further + 1 - entries.length = further + 1 := by omega
  have after : entries.length + further + 1 - (entries ++ [response]).length = further := by
    rw [List.length_append, List.length_singleton]
    omega
  rw [padded, padded, left, after, List.replicate_succ,
    List.set_append_right _ _ (Nat.le_refl _), Nat.sub_self,
    List.set_cons_zero, List.append_assoc]
  rfl

theorem Answers.of_kept {m' : Memory Block} {response : PamResponse}
    (answers : Answers userPass m style response)
    (kept : ∀ string ∈ response.resp, m'.blocks string = m.blocks string) :
    Answers userPass m' style response := by
  cases answers with
  | silent none => exact .silent none
  | text asked held =>
      apply Answers.text asked
      rw [kept _ rfl, held]

theorem forall₂_answers_of_kept {m' : Memory Block}
    (answers : List.Forall₂ (Answers userPass m) done entries)
    (kept : ∀ string ∈ strings entries, m'.blocks string = m.blocks string) :
    List.Forall₂ (Answers userPass m') done entries := by
  induction answers with
  | nil => exact .nil
  | cons first _ ih =>
      constructor
      · apply first.of_kept
        intro string is
        exact kept string (List.mem_filterMap.mpr ⟨_, List.mem_cons_self, is⟩)
      · apply ih
        intro string member
        obtain ⟨response, further, is⟩ := List.mem_filterMap.mp member
        exact kept string (List.mem_filterMap.mpr ⟨response, List.mem_cons_of_mem _ further, is⟩)

namespace Filled

theorem length_eq (filled : Filled userPass m₀ m address total done entries) :
    done.length = entries.length := filled.answers.length_eq

theorem array_held (filled : Filled userPass m₀ m address total done entries) :
    (m.blocks address).isSome = true := by
  rw [filled.array]
  rfl

/-- A message without an answer. -/
theorem silent (filled : Filled userPass m₀ m address total done entries)
    (room : entries.length < total) (none : reply userPass style = some none) :
    Filled userPass m₀
      (m.stored address
        (.responses ((padded total entries).set entries.length ⟨.none, pamSuccess⟩)))
      address total (done ++ [style]) (entries ++ [⟨.none, pamSuccess⟩]) := by
  have same : strings (entries ++ [⟨.none, pamSuccess⟩]) = strings entries := by simp [strings]
  constructor
  case extension =>
    rw [same]
    exact filled.extension.stored (Finset.mem_insert_self _ _)
  case array =>
    rw [Memory.stored_same filled.array_held, set_padded entries _ room]
  case answers =>
    apply List.rel_append
    · apply forall₂_answers_of_kept filled.answers
      intro string member
      apply Memory.stored_other
      rintro rfl
      exact (List.nodup_cons.mp filled.distinct).1 member
    · exact .cons (.silent none) .nil
  case distinct =>
    rw [same]
    exact filled.distinct

/-- A prompt whose answer was allocated. -/
theorem text {text : Str} (filled : Filled userPass m₀ m address total done entries)
    (room : entries.length < total) (asked : reply userPass style = some (some text))
    (succeeds : m.succeeds m.next = true) :
    Filled userPass m₀
      ((m.tried (.string text)).stored address
        (.responses ((padded total entries).set entries.length ⟨some m.next, pamSuccess⟩)))
      address total (done ++ [style]) (entries ++ [⟨some m.next, pamSuccess⟩]) := by
  have more : strings (entries ++ [⟨some m.next, pamSuccess⟩]) = strings entries ++ [m.next] := by
    simp [strings]
  have fresh := filled.extension.next_notMem
  rw [Finset.mem_insert, List.mem_toFinset, not_or] at fresh
  have before : ∀ other, other ≠ m.next →
      (m.tried (.string text)).blocks other = m.blocks other := by
    intro other different
    rw [Memory.tried_of_succeeds succeeds, Function.update_of_ne different]
  have extension : m₀.Extends (m.tried (.string text))
      (insert m.next (insert address (strings entries).toFinset)) :=
    filled.extension.tried succeeds
  have member : address ∈ insert m.next (insert address (strings entries).toFinset) := by simp
  constructor
  case extension =>
    have same : insert address (strings entries ++ [m.next]).toFinset =
        insert m.next (insert address (strings entries).toFinset) := by
      ext other
      simp only [Finset.mem_insert, List.mem_toFinset, List.mem_append, List.mem_singleton]
      tauto
    rw [more, same]
    exact extension.stored member
  case array =>
    rw [Memory.stored_same (extension.live address member), set_padded entries _ room]
  case answers =>
    apply List.rel_append
    · apply forall₂_answers_of_kept filled.answers
      intro string present
      have different : string ≠ address := by
        rintro rfl
        exact (List.nodup_cons.mp filled.distinct).1 present
      have older : string ≠ m.next := by
        rintro rfl
        exact fresh.2 present
      rw [Memory.stored_other different, before string older]
    · refine .cons (.text asked ?_) .nil
      rw [Memory.stored_other fresh.1, Memory.tried_of_succeeds succeeds, Function.update_self]
  case distinct =>
    have missing : m.next ∉ address :: strings entries := by
      rw [List.mem_cons, not_or]
      exact fresh
    rw [more, ← List.cons_append]
    exact List.nodup_append_comm.mpr (List.nodup_cons.mpr ⟨missing, filled.distinct⟩)

/-- A prompt whose answer could not be allocated. -/
theorem tried_of_fails {text : Str} (filled : Filled userPass m₀ m address total done entries)
    (fails : m.succeeds m.next = false) :
    Filled userPass m₀ (m.tried (.string text)) address total done entries where
  extension := filled.extension.tried_of_fails fails
  array := by
    rw [Memory.tried_of_fails fails]
    exact filled.array
  answers := by
    apply forall₂_answers_of_kept filled.answers
    intro string _
    rw [Memory.tried_of_fails fails]
  distinct := filled.distinct

end Filled

/-- Why a conversation fails, with its code.  The strings are allocated from `first` on. -/
inductive Refusal (userPass : UserPass) (available : Nat → Bool) (first : Nat)
    (msg : List MsgStyle) : Nat → Prop where
  | unknown {style : MsgStyle} (member : style ∈ msg) (unknown : reply userPass style = none) :
      Refusal userPass available first msg pamConvErr
  | noMemory {k : Nat} (lt : k < prompts msg) (fails : available (first + k) = false) :
      Refusal userPass available first msg pamBufErr

/-- Every message has an answer, and there is memory for the strings. -/
def AllAnswered (userPass : UserPass) (available : Nat → Bool) (first : Nat)
    (msg : List MsgStyle) : Prop :=
  (∀ style ∈ msg, reply userPass style ≠ none) ∧
    ∀ k < prompts msg, available (first + k) = true

section Cons

variable {available : Nat → Bool} {first code : Nat}

theorem Refusal.not_allAnswered (refusal : Refusal userPass available first msg code) :
    code ≠ pamSuccess ∧ ¬AllAnswered userPass available first msg := by
  cases refusal with
  | unknown member unknown =>
      exact ⟨by decide, fun answered => answered.1 _ member unknown⟩
  | noMemory lt fails =>
      refine ⟨by decide, fun answered => ?_⟩
      have succeeds := answered.2 _ lt
      rw [fails] at succeeds
      cases succeeds

/-- A message for which nothing is allocated. -/
theorem AllAnswered.cons_silent (silent : reply userPass style = some none)
    (answered : AllAnswered userPass available first msg) :
    AllAnswered userPass available first (style :: msg) := by
  constructor
  · refine List.forall_mem_cons.mpr ⟨?_, answered.1⟩
    rw [silent]
    exact Option.some_ne_none _
  · rw [prompts_cons_silent silent]
    exact answered.2

theorem AllAnswered.cons_text {text : Str} (asked : reply userPass style = some (some text))
    (succeeds : available first = true)
    (answered : AllAnswered userPass available (first + 1) msg) :
    AllAnswered userPass available first (style :: msg) := by
  constructor
  · refine List.forall_mem_cons.mpr ⟨?_, answered.1⟩
    rw [asked]
    exact Option.some_ne_none _
  · rw [prompts_cons_text asked]
    intro k lt
    cases k with
    | zero => exact succeeds
    | succ k =>
        have later := answered.2 k (Nat.lt_of_succ_lt_succ lt)
        rwa [Nat.add_assoc, Nat.add_comm 1 k] at later

theorem Refusal.cons_silent (silent : reply userPass style = some none)
    (refusal : Refusal userPass available first msg code) :
    Refusal userPass available first (style :: msg) code := by
  cases refusal with
  | unknown member unknown => exact .unknown (List.mem_cons_of_mem _ member) unknown
  | noMemory lt fails =>
      rw [← prompts_cons_silent silent] at lt
      exact .noMemory lt fails

theorem Refusal.cons_text {text : Str} (asked : reply userPass style = some (some text))
    (refusal : Refusal userPass available (first + 1) msg code) :
    Refusal userPass available first (style :: msg) code := by
  cases refusal with
  | unknown member unknown => exact .unknown (List.mem_cons_of_mem _ member) unknown
  | @noMemory k lt fails =>
      rw [Nat.add_assoc, Nat.add_comm 1 k] at fails
      have later : k + 1 < prompts (style :: msg) := by
        rw [prompts_cons_text asked]
        exact Nat.succ_lt_succ lt
      exact .noMemory later fails

end Cons

/-- What the loop comes to with the messages `msg` left. -/
inductive Responds (userPass : UserPass) (m₀ m : Memory Block) (address total : Nat)
    (done msg : List MsgStyle) : Except Exception (Option Nat) × Memory Block → Prop where
  | complete {after : Memory Block} {entries : List PamResponse}
      (filled : Filled userPass m₀ after address total (done ++ msg) entries)
      (answered : AllAnswered userPass m.succeeds m.next msg) :
      Responds userPass m₀ m address total done msg (.ok none, after)
  | early {after : Memory Block} {code : Nat} {before : List MsgStyle} {entries : List PamResponse}
      (filled : Filled userPass m₀ after address total before entries)
      (room : entries.length ≤ total) (refusal : Refusal userPass m.succeeds m.next msg code) :
      Responds userPass m₀ m address total done msg (.ok (some code), after)

theorem Responds.cons_silent {m' : Memory Block}
    {outcome : Except Exception (Option Nat) × Memory Block}
    (silent : reply userPass style = some none) (next : m'.next = m.next)
    (succeeds : m'.succeeds = m.succeeds)
    (responds : Responds userPass m₀ m' address total (done ++ [style]) msg outcome) :
    Responds userPass m₀ m address total done (style :: msg) outcome := by
  cases responds with
  | complete filled answered =>
      rw [List.append_assoc] at filled
      rw [next, succeeds] at answered
      exact .complete filled (answered.cons_silent silent)
  | early filled room refusal =>
      rw [next, succeeds] at refusal
      exact .early filled room (refusal.cons_silent silent)

theorem Responds.cons_text {m' : Memory Block} {text : Str}
    {outcome : Except Exception (Option Nat) × Memory Block}
    (asked : reply userPass style = some (some text)) (first : m.succeeds m.next = true)
    (next : m'.next = m.next + 1) (succeeds : m'.succeeds = m.succeeds)
    (responds : Responds userPass m₀ m' address total (done ++ [style]) msg outcome) :
    Responds userPass m₀ m address total done (style :: msg) outcome := by
  cases responds with
  | complete filled answered =>
      rw [List.append_assoc] at filled
      rw [next, succeeds] at answered
      exact .complete filled (answered.cons_text asked first)
  | early filled room refusal =>
      rw [next, succeeds] at refusal
      exact .early filled room (refusal.cons_text asked)

/-- A step of the loop. -/
theorem exec_respond_cons {resp : Option Nat} {i : Nat} :
    Program.exec (respond userPass resp i (style :: msg)) m =
      match Program.exec (answer userPass style) m with
      | (.ok (.error code), after) => (.ok (some code), after)
      | (.ok (.ok str), after) =>
          Program.exec (do
            setResponse resp i ⟨str, pamSuccess⟩
            respond userPass resp (i + 1) msg) after
      | (.error exception, after) => (.error exception, after) := by
  rw [respond, Program.exec_bind]
  rcases Program.exec (answer userPass style) m with ⟨exception | code | str, after⟩ <;> rfl

/-- The loop never leaves the array, and has filled what it has allocated. -/
theorem respond_responds (msg : List MsgStyle) {m : Memory Block} {done : List MsgStyle}
    {entries : List PamResponse} (filled : Filled userPass m₀ m address total done entries)
    (fits : entries.length + msg.length = total) :
    Responds userPass m₀ m address total done msg
      (Program.exec (respond userPass (some address) entries.length msg) m) := by
  induction msg generalizing m done entries with
  | nil =>
      apply Responds.complete
      · rw [List.append_nil]
        exact filled
      · exact ⟨by simp, by simp [prompts]⟩
  | cons style msg ih =>
      rw [List.length_cons] at fits
      have room : entries.length < total := by omega
      have inside : entries.length < (padded total entries).length := by
        rw [padded, List.length_append, List.length_replicate]
        omega
      have further (response : PamResponse) :
          (entries ++ [response]).length + msg.length = total := by
        rw [List.length_append, List.length_singleton]
        omega
      have one (response : PamResponse) :
          entries.length + 1 = (entries ++ [response]).length := by
        rw [List.length_append, List.length_singleton]
      rw [exec_respond_cons]
      cases asked : reply userPass style with
      | none =>
          rw [exec_answer_unknown asked]
          exact .early filled room.le (.unknown List.mem_cons_self asked)
      | some answered =>
          cases answered with
          | none =>
              rw [exec_answer_silent asked]
              dsimp only
              rw [Program.exec_bind, exec_setResponse filled.array inside, one ⟨none, pamSuccess⟩]
              apply Responds.cons_silent asked _ _
                (ih (filled.silent room asked) (further _)) <;> rfl
          | some text =>
              rw [exec_answer_text asked]
              by_cases succeeds : m.succeeds m.next = true
              · have array : (m.tried (.string text)).blocks address =
                    some (.responses (padded total entries)) := by
                  have older : address ≠ m.next := by
                    rintro rfl
                    exact filled.extension.next_notMem (Finset.mem_insert_self _ _)
                  rw [Memory.tried_of_succeeds succeeds, Function.update_of_ne older]
                  exact filled.array
                simp only [if_pos succeeds]
                rw [Program.exec_bind, exec_setResponse array inside,
                  one ⟨some m.next, pamSuccess⟩]
                apply Responds.cons_text asked succeeds _ _
                  (ih (filled.text room asked succeeds) (further _)) <;> rfl
              · simp only [if_neg succeeds]
                have fails : m.succeeds m.next = false := Bool.eq_false_iff.mpr succeeds
                have first : 0 < prompts (style :: msg) := by
                  rw [prompts_cons_text asked]
                  exact Nat.succ_pos _
                exact .early (filled.tried_of_fails fails) room.le (.noMemory first fails)

/-! ## Release -/

theorem exec_releaseFrom_succ {i count : Nat} {response : PamResponse}
    (array : m.blocks address = some (.responses entries)) (found : entries[i]? = some response) :
    Program.exec (releaseFrom address i (count + 1)) m =
      Program.exec (do
        Memory.free .undefined response.resp
        releaseFrom address (i + 1) count) m := by
  rw [releaseFrom, Program.exec_bind, exec_responsesAt array]
  simp only [found]

/-- Everything is freed, once. -/
theorem releaseFrom_frees (count : Nat) {i : Nat} {m : Memory Block}
    (array : m.blocks address = some (.responses entries)) (fits : i + count = entries.length)
    (extension : m₀.Extends m (insert address (strings (entries.drop i)).toFinset))
    (distinct : (address :: strings (entries.drop i)).Nodup) :
    ∃ after, Program.exec (releaseFrom address i count) m = (.ok (), after) ∧
      after.blocks = m₀.blocks := by
  induction count generalizing i m with
  | zero =>
      have nothing : entries.drop i = [] := List.drop_eq_nil_of_le (by omega)
      rw [nothing] at extension
      refine ⟨m.freed address, ?_, ?_⟩
      · apply Memory.exec_free
        rw [array]
        rfl
      · have freed := extension.freed (Finset.mem_insert_self _ _)
        rw [Finset.erase_insert (by simp [strings])] at freed
        exact freed.blocks_eq
  | succ count ih =>
      have inside : i < entries.length := by omega
      have split := List.drop_eq_getElem_cons inside
      rw [exec_releaseFrom_succ array (List.getElem?_eq_getElem inside), Program.exec_bind]
      rw [split] at extension distinct
      cases held : entries[i].resp with
      | none =>
          have same : strings (entries[i] :: entries.drop (i + 1)) =
              strings (entries.drop (i + 1)) := List.filterMap_cons_none held
          rw [same] at extension distinct
          exact ih array (by omega) extension distinct
      | some string =>
          have more : strings (entries[i] :: entries.drop (i + 1)) =
              string :: strings (entries.drop (i + 1)) := List.filterMap_cons_some held
          rw [more, List.toFinset_cons] at extension
          rw [more, List.nodup_cons, List.mem_cons, not_or, List.nodup_cons] at distinct
          obtain ⟨⟨different, others⟩, missing, nodup⟩ := distinct
          have member : string ∈
              insert address (insert string (strings (entries.drop (i + 1))).toFinset) := by simp
          rw [Memory.exec_free (extension.live string member)]
          have freed := extension.freed member
          rw [Finset.insert_comm, Finset.erase_insert (by
            rw [Finset.mem_insert, List.mem_toFinset, not_or]
            exact ⟨Ne.symm different, missing⟩)] at freed
          apply ih _ (by omega) freed (List.nodup_cons.mpr ⟨others, nodup⟩)
          rw [Memory.freed_other different]
          exact array

theorem strings_padded : strings (padded total entries) = strings entries := by
  rw [strings, padded, List.filterMap_append, List.filterMap_replicate_of_none rfl,
    List.append_nil]
  rfl

/-- What was allocated so far is freed with the array. -/
theorem Filled.released (filled : Filled userPass m₀ m address total done entries)
    (room : entries.length ≤ total) :
    ∃ after, Program.exec (releaseResponse total (some address)) m = (.ok (), after) ∧
      after.blocks = m₀.blocks := by
  apply releaseFrom_frees total filled.array
  · rw [padded, List.length_append, List.length_replicate]
    omega
  · rw [List.drop_zero, strings_padded]
    exact filled.extension
  · rw [List.drop_zero, strings_padded]
    exact filled.distinct

/-! ## The conversation -/

/-- `calloc` has failed, and the first message is one for which the array is written to. -/
def WritesToNull (userPass : UserPass) (m : Memory Block) (msg : List MsgStyle) : Prop :=
  m.succeeds m.next = false ∧ ∃ style rest, msg = style :: rest ∧
    (reply userPass style = some none ∨
      ∃ text, reply userPass style = some (some text) ∧ m.succeeds (m.next + 1) = true)

/-- PAM gets the responses to all messages, and owns whatever was allocated.  There is nothing
to own without messages if nothing could be allocated. -/
inductive Hands (userPass : UserPass) (m after : Memory Block) (msg : List MsgStyle) :
    Option Nat → Prop where
  | responses {address : Nat} {entries : List PamResponse}
      (array : after.blocks address = some (.responses entries))
      (answers : List.Forall₂ (Answers userPass after) msg entries)
      (distinct : (address :: strings entries).Nodup)
      (owned : m.Extends after (insert address (strings entries).toFinset)) :
      Hands userPass m after msg (some address)
  | nothing (noMessages : msg = []) (same : after.blocks = m.blocks) :
      Hands userPass m after msg none

/-- The outcome of a conversation. -/
inductive Conversed (userPass : UserPass) (m : Memory Block) (msg : List MsgStyle)
    (resp_r : Bool) : Except Exception (Nat × Option (Option Nat)) × Memory Block → Prop where
  | undefined {after : Memory Block} (missed : WritesToNull userPass m msg) :
      Conversed userPass m msg resp_r (.error .undefined, after)
  | refused {code : Nat} {after : Memory Block}
      (refusal : Refusal userPass m.succeeds (m.next + 1) msg code)
      (defined : ¬WritesToNull userPass m msg) (same : after.blocks = m.blocks) :
      Conversed userPass m msg resp_r (.ok (code, none), after)
  | unwanted {after : Memory Block} (answered : AllAnswered userPass m.succeeds (m.next + 1) msg)
      (defined : ¬WritesToNull userPass m msg) (noArgument : resp_r = false)
      (same : after.blocks = m.blocks) :
      Conversed userPass m msg resp_r (.ok (pamSuccess, none), after)
  | handed {after : Memory Block} {resp : Option Nat}
      (answered : AllAnswered userPass m.succeeds (m.next + 1) msg)
      (defined : ¬WritesToNull userPass m msg) (argument : resp_r = true)
      (hands : Hands userPass m after msg resp) :
      Conversed userPass m msg resp_r (.ok (pamSuccess, some resp), after)

/-- The array was allocated. -/
theorem Filled.start (succeeds : m.succeeds m.next = true) (msg : List MsgStyle) :
    Filled userPass m (m.tried (.responses (List.replicate msg.length .zero))) m.next msg.length []
      [] where
  extension := (Memory.Extends.refl m).tried succeeds
  array := by
    rw [Memory.tried_of_succeeds succeeds, Function.update_self]
    rfl
  answers := .nil
  distinct := List.nodup_singleton _

theorem WritesToNull.fails (missed : WritesToNull userPass m msg) :
    m.succeeds m.next = false := missed.1

theorem padded_full (full : entries.length = total) : padded total entries = entries := by
  rw [padded, full, Nat.sub_self, List.replicate_zero, List.append_nil]

theorem conversed_of_succeeds (succeeds : m.succeeds m.next = true) (msg : List MsgStyle)
    (resp_r : Bool) :
    Conversed userPass m msg resp_r (Program.exec (pam_userpass_conv userPass msg resp_r) m) := by
  have defined : ¬WritesToNull userPass m msg := by
    intro missed
    have fails := missed.fails
    rw [succeeds] at fails
    cases fails
  have responds := respond_responds msg (@Filled.start userPass m succeeds msg)
    (Nat.zero_add _)
  rw [pam_userpass_conv, Program.exec_bind, Memory.exec_alloc]
  simp only [if_pos succeeds]
  rw [Program.exec_bind]
  generalize Program.exec (respond userPass (some m.next) 0 msg)
    (m.tried (.responses (List.replicate msg.length .zero))) = outcome at responds ⊢
  cases responds with
  | early filled room refusal =>
      obtain ⟨after, released, same⟩ := filled.released room
      dsimp only
      rw [Program.exec_bind, released]
      exact .refused refusal defined same
  | @complete full entries filled answered =>
      have length := filled.length_eq.symm
      cases resp_r with
      | true =>
          refine .handed answered defined rfl (.responses ?_ filled.answers filled.distinct
            filled.extension)
          have whole : padded msg.length entries = entries := padded_full length
          rw [filled.array, whole]
      | false =>
          obtain ⟨after, released, same⟩ := filled.released length.le
          simp only [Bool.false_eq_true, if_false]
          rw [Program.exec_bind, released]
          exact .unwanted answered defined rfl same

/-- Without an array nothing is allocated but the string for the first message. -/
theorem conversed_of_fails (fails : m.succeeds m.next = false) (msg : List MsgStyle)
    (resp_r : Bool) :
    Conversed userPass m msg resp_r (Program.exec (pam_userpass_conv userPass msg resp_r) m) := by
  have noArray (text : Block) : (m.tried text).blocks = m.blocks := Memory.tried_of_fails fails
  rw [pam_userpass_conv, Program.exec_bind, Memory.exec_alloc]
  simp only [fails, Bool.false_eq_true, if_false]
  rw [Program.exec_bind]
  cases msg with
  | nil =>
      have defined : ¬WritesToNull userPass m [] := by
        rintro ⟨_, style, rest, same, _⟩
        cases same
      have answered : AllAnswered userPass m.succeeds (m.next + 1) [] :=
        ⟨by simp, by simp [prompts]⟩
      cases resp_r with
      | true => exact .handed answered defined rfl (.nothing rfl (noArray _))
      | false => exact .unwanted answered defined rfl (noArray _)
  | cons style msg =>
      rw [exec_respond_cons]
      cases asked : reply userPass style with
      | none =>
          rw [exec_answer_unknown asked]
          refine .refused (.unknown List.mem_cons_self asked) ?_ (noArray _)
          rintro ⟨_, _, _, same, silent | ⟨text, prompt, _⟩⟩
          · cases same
            rw [asked] at silent
            cases silent
          · cases same
            rw [asked] at prompt
            cases prompt
      | some answered =>
          cases answered with
          | none =>
              rw [exec_answer_silent asked]
              exact .undefined ⟨fails, style, msg, rfl, .inl asked⟩
          | some text =>
              have second (block : Block) :
                  (m.tried block).succeeds (m.tried block).next = m.succeeds (m.next + 1) := rfl
              rw [exec_answer_text asked, second]
              by_cases succeeds : m.succeeds (m.next + 1) = true
              · simp only [if_pos succeeds]
                exact .undefined ⟨fails, style, msg, rfl, .inr ⟨text, asked, succeeds⟩⟩
              · have missing : m.succeeds (m.next + 1) = false := Bool.eq_false_iff.mpr succeeds
                have first : 0 < prompts (style :: msg) := by
                  rw [prompts_cons_text asked]
                  exact Nat.succ_pos _
                simp only [if_neg succeeds]
                refine .refused (.noMemory first missing) ?_ ?_
                · rintro ⟨_, _, _, same, silent | ⟨_, _, available⟩⟩
                  · cases same
                    rw [asked] at silent
                    cases silent
                  · exact succeeds available
                · have still (block : Block) :
                      (m.tried block).succeeds (m.tried block).next = false := missing
                  exact (Memory.tried_of_fails (still _)).trans (noArray _)

/-- Whatever PAM asks and whichever allocations fail: the array is written to where there is none
exactly if `calloc` has failed and the first message gets a response.  Otherwise the conversation
succeeds exactly if every message has an answer and there is memory for all strings.  Then PAM owns
what was allocated, each part once, with the user name and the password in front of their first NUL
as the answers.  If it fails, or if there is nowhere to put the array, everything allocated by it
was freed, once. -/
theorem conversation_accounts (userPass : UserPass) (msg : List MsgStyle) (resp_r : Bool)
    (m : Memory Block) :
    (∀ exception, (Program.exec (pam_userpass_conv userPass msg resp_r) m).1 = .error exception →
        exception = .undefined) ∧
      ((Program.exec (pam_userpass_conv userPass msg resp_r) m).1 = .error .undefined ↔
        WritesToNull userPass m msg) ∧
      ∀ code handed after,
        Program.exec (pam_userpass_conv userPass msg resp_r) m = (.ok (code, handed), after) →
        (code = pamSuccess ↔ AllAnswered userPass m.succeeds (m.next + 1) msg) ∧
        (code = pamSuccess ∧ resp_r = true →
          ∃ resp, handed = some resp ∧ Hands userPass m after msg resp) ∧
        (¬(code = pamSuccess ∧ resp_r = true) → handed = none ∧ after.blocks = m.blocks) := by
  have conversed : Conversed userPass m msg resp_r
      (Program.exec (pam_userpass_conv userPass msg resp_r) m) := by
    cases succeeds : m.succeeds m.next with
    | true => exact conversed_of_succeeds succeeds msg resp_r
    | false => exact conversed_of_fails succeeds msg resp_r
  generalize Program.exec (pam_userpass_conv userPass msg resp_r) m = outcome at conversed ⊢
  cases conversed with
  | undefined missed =>
      refine ⟨?_, iff_of_true rfl missed, ?_⟩
      · intro exception same
        cases same
        rfl
      · intro code handed after same
        cases same
  | refused refusal defined same =>
      refine ⟨?_, iff_of_false ?_ defined, ?_⟩
      · intro exception same
        cases same
      · intro same
        cases same
      · intro code handed after same'
        cases same'
        obtain ⟨failed, unanswered⟩ := refusal.not_allAnswered
        exact ⟨iff_of_false failed unanswered, fun both => absurd both.1 failed,
          fun _ => ⟨rfl, same⟩⟩
  | unwanted answered defined noArgument same =>
      refine ⟨?_, iff_of_false ?_ defined, ?_⟩
      · intro exception same
        cases same
      · intro same
        cases same
      · intro code handed after same'
        cases same'
        refine ⟨iff_of_true rfl answered, fun both => ?_, fun _ => ⟨rfl, same⟩⟩
        rw [noArgument] at both
        cases both.2
  | handed answered defined argument hands =>
      refine ⟨?_, iff_of_false ?_ defined, ?_⟩
      · intro exception same
        cases same
      · intro same
        cases same
      · intro code handed after same'
        cases same'
        exact ⟨iff_of_true rfl answered, fun _ => ⟨_, rfl, hands⟩,
          fun neither => absurd ⟨rfl, argument⟩ neither⟩

end Conversation

end Rousette.Auth
