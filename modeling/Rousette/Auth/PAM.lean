import Mathlib.Data.List.TakeWhile
import Rousette.Library.Parser
import Rousette.Library.Regroup
import Rousette.Exceptions

/-!
# Basic authentication

The part of `auth/PAM.cpp` in front of PAM itself: the `authorization` header is
matched against the header grammar, its base64 blob is decoded by Boost's iterator
adaptors, and the outcome is split into a user name and a password.
-/

namespace Rousette.Auth

open Library

/-- A character of the base64 alphabet as the header grammar accepts it. -/
def isBase64Char (c : UInt8) : Bool :=
  Ascii.isAlnum c || c == chr '+' || c == chr '/'

/-- `base64Blob`: the padding has no attribute. -/
def base64Blob : Parser Str := do
  let blob ← Parser.many (Parser.satisfy isBase64Char)
  let _ ← Parser.upTo (Parser.lit (str "=")) 2
  return blob

/-- `headerGrammar` -/
def headerGrammar : Parser Str := do
  Parser.litNoCase (str "basic")
  Parser.lit (str " ")
  base64Blob

/-- `username` -/
def username : Parser Str := Parser.many1 (Parser.satisfy fun c => c != chr ':')

/-- `password` -/
def password : Parser Str := Parser.many1 (Parser.satisfy fun _ => true)

structure UserPass where
  username : Str
  password : Str
  deriving DecidableEq, Repr

/-- `userPass` -/
def userPass : Parser UserPass := do
  let user ← username
  Parser.lit (str ":")
  let pass ← password
  return ⟨user, pass⟩

/-- `binary_from_base64`: the six bits a character stands for. -/
def binaryFromBase64 (c : UInt8) : Option Nat :=
  if Ascii.isUpper c then some (c.toNat - 65)
  else if Ascii.isLower c then some (c.toNat - 97 + 26)
  else if Ascii.isDigit c then some (c.toNat - 48 + 52)
  else if c = chr '+' then some 62
  else if c = chr '/' then some 63
  else none

/-- Read the next six bits.  At the end of the string the terminator is read, which
is not in the alphabet. -/
def readBase64 : Str → Except Exception (Nat × Str)
  | [] => .error (.dataflow true)
  | c :: rest =>
      match binaryFromBase64 c with
      | some bits => .ok (bits, rest)
      | none => .error (.dataflow false)

/-- `trim_right_copy_if` on NUL octets. -/
def trimRightNul (text : Str) : Str :=
  (text.reverse.dropWhile (· == 0)).reverse

/-- `b64_decode` -/
def b64_decode (val : Str) : Except Exception Str := do
  let octets ← Regroup.collect 8 6 readBase64 val.length (Regroup.start val)
  return trimRightNul (octets.map Nat.toUInt8)

/-- `parseBasicAuth` -/
def parseBasicAuth (blob : Str) : Except Exception UserPass :=
  match (do let b64 ← headerGrammar; Parser.eoi; return b64 : Parser Str) blob with
  | .ok b64 _ => do
      let decoded ← b64_decode b64
      match (do let res ← userPass; Parser.eoi; return res : Parser UserPass) decoded with
      | .ok res _ => return res
      | _ => throw (.auth (str "Cannot parse the user-pass authorization blob") none)
  | _ => throw (.auth (str "Cannot parse the Basic authorization header") none)

theorem binaryFromBase64_isSome {c : UInt8} (alphabet : isBase64Char c = true) :
    ∃ bits, binaryFromBase64 c = some bits := by
  simp only [isBase64Char, Ascii.isAlnum, Ascii.isAlpha, Bool.or_eq_true, beq_iff_eq] at alphabet
  unfold binaryFromBase64
  split_ifs <;> simp_all

theorem next_bits0 {a b : UInt8} {rest : Str} {bitsA bitsB buffer : Nat}
    (first : binaryFromBase64 a = some bitsA) (second : binaryFromBase64 b = some bitsB) :
    Regroup.next 8 6 readBase64 ⟨a :: b :: rest, buffer, 0⟩ =
      .ok (bitsA % 64 * 4 + bitsB / 16 % 4, ⟨rest, bitsB, 4⟩) := by
  simp [Regroup.next, Regroup.fill, readBase64, first, second, bind, Except.bind, pure,
    Except.pure, Nat.shiftLeft_eq, Nat.shiftRight_eq_div_pow]

theorem next_bits4 {c : UInt8} {rest : Str} {bitsC buffer : Nat}
    (third : binaryFromBase64 c = some bitsC) :
    Regroup.next 8 6 readBase64 ⟨c :: rest, buffer, 4⟩ =
      .ok (buffer % 16 * 16 + bitsC / 4 % 16, ⟨rest, bitsC, 2⟩) := by
  simp [Regroup.next, Regroup.fill, readBase64, third, bind, Except.bind, pure,
    Except.pure, Nat.shiftLeft_eq, Nat.shiftRight_eq_div_pow]

theorem next_bits2 {d : UInt8} {rest : Str} {bitsD buffer : Nat}
    (fourth : binaryFromBase64 d = some bitsD) :
    Regroup.next 8 6 readBase64 ⟨d :: rest, buffer, 2⟩ =
      .ok (buffer % 4 * 64 + bitsD % 64, ⟨rest, bitsD, 0⟩) := by
  simp [Regroup.next, Regroup.fill, readBase64, fourth, bind, Except.bind, pure,
    Except.pure, Nat.shiftLeft_eq, Nat.shiftRight_eq_div_pow]

theorem next_pastEnd {a : UInt8} {bitsA buffer : Nat}
    (first : binaryFromBase64 a = some bitsA) :
    Regroup.next 8 6 readBase64 ⟨[a], buffer, 0⟩ = .error (.dataflow true) := by
  simp [Regroup.next, Regroup.fill, readBase64, first, bind, Except.bind, pure,
    Except.pure]

/-- Decoding stops early exactly when the last group of four characters is cut after
its first one. -/
theorem collect_base64 : (b64 : Str) → (bound buffer : Nat) →
    (enough : b64.length ≤ bound) → (alphabet : ∀ c ∈ b64, isBase64Char c = true) →
    if b64.length % 4 = 1 then
      Regroup.collect 8 6 readBase64 bound ⟨b64, buffer, 0⟩ = .error (.dataflow true)
    else
      ∃ octets, Regroup.collect 8 6 readBase64 bound ⟨b64, buffer, 0⟩ = .ok octets
  | [], bound, buffer, _, _ => by
      cases bound <;> simp [Regroup.collect]
  | [a], bound + 1, buffer, _, alphabet => by
      obtain ⟨bitsA, first⟩ := binaryFromBase64_isSome (alphabet a (by simp))
      simp [Regroup.collect, next_pastEnd first, bind, Except.bind]
  | [a, b], bound + 2, buffer, _, alphabet => by
      obtain ⟨bitsA, first⟩ := binaryFromBase64_isSome (alphabet a (by simp))
      obtain ⟨bitsB, second⟩ := binaryFromBase64_isSome (alphabet b (by simp))
      rw [Regroup.collect_cons (by simp) (next_bits0 first second)]
      simp [Regroup.collect, Except.map]
  | [a, b, c], bound + 3, buffer, _, alphabet => by
      obtain ⟨bitsA, first⟩ := binaryFromBase64_isSome (alphabet a (by simp))
      obtain ⟨bitsB, second⟩ := binaryFromBase64_isSome (alphabet b (by simp))
      obtain ⟨bitsC, third⟩ := binaryFromBase64_isSome (alphabet c (by simp))
      rw [Regroup.collect_cons (by simp) (next_bits0 first second),
        Regroup.collect_cons (by simp) (next_bits4 third)]
      simp [Regroup.collect, Except.map]
  | a :: b :: c :: d :: rest, bound + 4, buffer, enough, alphabet => by
      obtain ⟨bitsA, first⟩ := binaryFromBase64_isSome (alphabet a (by simp))
      obtain ⟨bitsB, second⟩ := binaryFromBase64_isSome (alphabet b (by simp))
      obtain ⟨bitsC, third⟩ := binaryFromBase64_isSome (alphabet c (by simp))
      obtain ⟨bitsD, fourth⟩ := binaryFromBase64_isSome (alphabet d (by simp))
      have others := collect_base64 rest (bound + 1) bitsD
        (by simp only [List.length_cons] at enough; omega)
        (fun e member => alphabet e (by simp [member]))
      rw [Regroup.collect_cons (by simp) (next_bits0 first second),
        Regroup.collect_cons (by simp) (next_bits4 third),
        Regroup.collect_cons (by simp) (next_bits2 fourth)]
      have sameRest : (a :: b :: c :: d :: rest).length % 4 = rest.length % 4 := by
        simp only [List.length_cons]
        omega
      rw [sameRest]
      split_ifs with cut
      · rw [if_pos cut] at others
        simp [others, Except.map]
      · rw [if_neg cut] at others
        obtain ⟨octets, decoded⟩ := others
        simp [decoded, Except.map]

theorem b64_decode_cut {b64 : Str} (alphabet : ∀ c ∈ b64, isBase64Char c = true)
    (cut : b64.length % 4 = 1) : b64_decode b64 = .error (.dataflow true) := by
  have outcome := collect_base64 b64 b64.length 0 (Nat.le_refl _) alphabet
  rw [if_pos cut] at outcome
  simp [b64_decode, Regroup.start, outcome, bind, Except.bind]

theorem b64_decode_ok {b64 : Str} (alphabet : ∀ c ∈ b64, isBase64Char c = true)
    (whole : b64.length % 4 ≠ 1) : ∃ text, b64_decode b64 = .ok text := by
  have outcome := collect_base64 b64 b64.length 0 (Nat.le_refl _) alphabet
  rw [if_neg whole] at outcome
  obtain ⟨octets, decoded⟩ := outcome
  exact ⟨_, by simp only [b64_decode, Regroup.start, decoded]; rfl⟩

/-- A header of the Basic scheme: the word in any letter case, one space, the blob and
at most two padding characters. -/
def IsBasicHeader (header b64 : Str) : Prop :=
  ∃ word padding : Str, header = word ++ str " " ++ b64 ++ padding ∧
    word.map Ascii.toLower = str "basic" ∧ (∀ c ∈ b64, isBase64Char c = true) ∧
    ∃ count ≤ 2, padding = List.replicate count (chr '=')

theorem base64Blob_eq_ok {input b64 : Str} :
    base64Blob input = .ok b64 [] ↔
      (∀ c ∈ b64, isBase64Char c = true) ∧
        ∃ count ≤ 2, input = b64 ++ List.replicate count (chr '=') := by
  have padding : (∃ values, Parser.upTo (Parser.lit (str "=")) 2
      (input.dropWhile isBase64Char) = .ok values []) ↔
      ∃ count ≤ 2, input.dropWhile isBase64Char = List.replicate count (chr '=') :=
    Parser.upTo_lit_eoi
  constructor
  · intro parsed
    simp only [base64Blob, Parser.bind_eq_ok, Parser.many_satisfy, Outcome.ok.injEq,
      Parser.pure_apply] at parsed
    obtain ⟨blob, _, ⟨rfl, rfl⟩, values, _, repeated, rfl, rfl⟩ := parsed
    obtain ⟨count, le, tail⟩ := padding.mp ⟨values, repeated⟩
    refine ⟨fun c member => List.mem_takeWhile_imp member, count, le, ?_⟩
    rw [← tail, List.takeWhile_append_dropWhile]
  · rintro ⟨alphabet, count, le, rfl⟩
    have stop : isBase64Char (chr '=') = false := by decide
    have take : (b64 ++ List.replicate count (chr '=')).takeWhile isBase64Char = b64 := by
      rw [List.takeWhile_append_of_pos alphabet]
      cases count <;> simp [List.replicate_succ, stop]
    have drop : (b64 ++ List.replicate count (chr '=')).dropWhile isBase64Char =
        List.replicate count (chr '=') := by
      rw [List.dropWhile_append_of_pos alphabet]
      cases count <;> simp [List.replicate_succ, stop]
    obtain ⟨values, repeated⟩ := padding.mpr ⟨count, le, drop⟩
    simp only [base64Blob, Parser.bind_eq_ok, Parser.many_satisfy, Outcome.ok.injEq,
      Parser.pure_apply]
    exact ⟨_, _, ⟨rfl, rfl⟩, values, [], repeated, take, rfl⟩

/-- The header grammar accepts exactly the headers of the Basic scheme. -/
theorem headerGrammar_eq_ok {header b64 : Str} :
    (∃ rest, (do let b64 ← headerGrammar; Parser.eoi; return b64 : Parser Str) header =
      .ok b64 rest) ↔ IsBasicHeader header b64 := by
  constructor
  · rintro ⟨rest, parsed⟩
    simp only [headerGrammar, Parser.bind_eq_ok, Parser.litNoCase_eq_ok, Parser.lit_eq_ok,
      Parser.eoi_eq_ok, Parser.pure_apply, Outcome.ok.injEq] at parsed
    obtain ⟨_, _, ⟨_, _, ⟨word, rfl, lower⟩, _, _, rfl, blob⟩, _, _, ⟨rfl, rfl⟩, rfl, rfl⟩ := parsed
    obtain ⟨alphabet, count, le, rfl⟩ := base64Blob_eq_ok.mp blob
    exact ⟨word, _, by simp, lower, alphabet, count, le, rfl⟩
  · rintro ⟨word, padding, rfl, lower, alphabet, count, le, rfl⟩
    refine ⟨[], ?_⟩
    simp only [headerGrammar, Parser.bind_eq_ok, Parser.litNoCase_eq_ok, Parser.lit_eq_ok,
      Parser.eoi_eq_ok, Parser.pure_apply, Outcome.ok.injEq]
    exact ⟨b64, [], ⟨(), _, ⟨word, by simp, lower⟩, (), _, rfl,
      base64Blob_eq_ok.mpr ⟨alphabet, count, le, rfl⟩⟩, (), [], ⟨rfl, rfl⟩, rfl, rfl⟩

/-- Only a result or an authentication error leaves `parseBasicAuth`. -/
def TotalUpToAuthError (header : Str) : Prop :=
  (∃ res, parseBasicAuth header = .ok res) ∨
    ∃ message delay, parseBasicAuth header = .error (.auth message delay)

theorem parseBasicAuth_totalUpToAuthError_iff (header : Str) :
    TotalUpToAuthError header ↔
      ∀ b64, IsBasicHeader header b64 → b64.length % 4 ≠ 1 := by
  constructor
  · intro total b64 basic cut
    obtain ⟨rest, parsed⟩ := headerGrammar_eq_ok.mpr basic
    obtain ⟨_, _, _, _, alphabet, _⟩ := basic
    have raised : parseBasicAuth header = .error (.dataflow true) := by
      simp only [parseBasicAuth, parsed, b64_decode_cut alphabet cut]
      rfl
    simp [TotalUpToAuthError, raised] at total
  · intro whole
    unfold TotalUpToAuthError parseBasicAuth
    split
    case h_1 b64 rest parsed =>
      have basic := headerGrammar_eq_ok.mp ⟨rest, parsed⟩
      obtain ⟨_, _, _, _, alphabet, _⟩ := id basic
      obtain ⟨text, decoded⟩ := b64_decode_ok alphabet (whole b64 basic)
      simp only [decoded, bind, Except.bind]
      split
      · exact .inl ⟨_, rfl⟩
      · exact .inr ⟨_, _, rfl⟩
    case h_2 => exact .inr ⟨_, _, rfl⟩

/-- `Basic Y` has a blob of one character -/
theorem parseBasicAuth_cut : ¬ TotalUpToAuthError (str "Basic Y") := by
  have raised : parseBasicAuth (str "Basic Y") = .error (.dataflow true) := by decide
  simp [TotalUpToAuthError, raised]

end Rousette.Auth
