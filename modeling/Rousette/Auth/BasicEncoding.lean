import Rousette.Auth.PAM
import Rousette.Library.Base64
import Rousette.Library.Program
import Rousette.Library.Recognition

/-!
# Round trip of Basic authentication

What a client encodes for the Basic scheme is what `parseBasicAuth` reads back, whatever the
length of the credentials is modulo three.
-/

namespace Rousette.Auth

open Library

/-- A character is decoded to the bits it was made from. -/
theorem decoded_digit {bits : Nat} (small : bits < 64) :
    isBase64Char (Base64.digit bits) = true ∧
      binaryFromBase64 (Base64.digit bits) = some bits := by
  have decoded : (List.range 64).all (fun bits => isBase64Char (Base64.digit bits) &&
      binaryFromBase64 (Base64.digit bits) == some bits) = true := rfl
  have digit := List.all_eq_true.mp decoded bits (List.mem_range.mpr small)
  rwa [Bool.and_eq_true, beq_iff_eq] at digit

/-- The octets come back one after another; the bits behind the last one are never read. -/
theorem collect_encode : (text : Str) → (bound buffer : Nat) →
    (enough : (Base64.encode text).length ≤ bound) →
    Regroup.collect 8 6 readBase64 bound ⟨Base64.encode text, buffer, 0⟩ =
      .ok (text.map UInt8.toNat)
  | [], bound, buffer, _ => by
      cases bound <;> simp [Base64.encode, Regroup.collect]
  | [x], bound + 2, buffer, _ => by
      have boundX := x.toNat_lt
      have first := (@decoded_digit (x.toNat / 4) (by omega)).2
      have second := (@decoded_digit (x.toNat % 4 * 16) (by omega)).2
      have octet : x.toNat / 4 % 64 * 4 + x.toNat % 4 * 16 / 16 % 4 = x.toNat := by omega
      rw [Base64.encode, Regroup.collect_cons (by simp) (next_bits0 first second), octet]
      simp [Regroup.collect, Except.map]
  | [x, y], bound + 3, buffer, _ => by
      have boundX := x.toNat_lt
      have boundY := y.toNat_lt
      have first := (@decoded_digit (x.toNat / 4) (by omega)).2
      have second := (@decoded_digit (x.toNat % 4 * 16 + y.toNat / 16) (by omega)).2
      have third := (@decoded_digit (y.toNat % 16 * 4) (by omega)).2
      have octet : x.toNat / 4 % 64 * 4 + (x.toNat % 4 * 16 + y.toNat / 16) / 16 % 4 =
          x.toNat := by omega
      have another : (x.toNat % 4 * 16 + y.toNat / 16) % 16 * 16 + y.toNat % 16 * 4 / 4 % 16 =
          y.toNat := by omega
      rw [Base64.encode, Regroup.collect_cons (by simp) (next_bits0 first second),
        Regroup.collect_cons (by simp) (next_bits4 third), octet, another]
      simp [Regroup.collect, Except.map]
  | x :: y :: z :: rest, bound + 4, buffer, enough => by
      have boundX := x.toNat_lt
      have boundY := y.toNat_lt
      have boundZ := z.toNat_lt
      have first := (@decoded_digit (x.toNat / 4) (by omega)).2
      have second := (@decoded_digit (x.toNat % 4 * 16 + y.toNat / 16) (by omega)).2
      have third := (@decoded_digit (y.toNat % 16 * 4 + z.toNat / 64) (by omega)).2
      have fourth := (@decoded_digit (z.toNat % 64) (by omega)).2
      have octet : x.toNat / 4 % 64 * 4 + (x.toNat % 4 * 16 + y.toNat / 16) / 16 % 4 =
          x.toNat := by omega
      have another : (x.toNat % 4 * 16 + y.toNat / 16) % 16 * 16 +
          (y.toNat % 16 * 4 + z.toNat / 64) / 4 % 16 = y.toNat := by omega
      have last : (y.toNat % 16 * 4 + z.toNat / 64) % 4 * 64 + z.toNat % 64 % 64 =
          z.toNat := by omega
      have others := collect_encode rest (bound + 1) (z.toNat % 64) (by
        simp only [Base64.encode, List.length_cons] at enough
        omega)
      rw [Base64.encode, Regroup.collect_cons (by simp) (next_bits0 first second),
        Regroup.collect_cons (by simp) (next_bits4 third),
        Regroup.collect_cons (by simp) (next_bits2 fourth), octet, another, last, others]
      rfl

/-- Nothing is trimmed from a text which does not end in a NUL octet. -/
theorem trimRightNul_eq_self {text : Str} (last : text.getLast? ≠ some 0) :
    trimRightNul text = text := by
  have noNul : text.reverse.dropWhile (· == 0) = text.reverse := by
    rw [← List.head?_reverse] at last
    cases reversed : text.reverse with
    | nil => rfl
    | cons c rest =>
        rw [reversed] at last
        have other : (c == 0) = false := by
          rw [beq_eq_false_iff_ne]
          rintro rfl
          exact last rfl
        rw [List.dropWhile_cons, other]
        rfl
  rw [trimRightNul, noNul, List.reverse_reverse]

theorem b64_decode_encode {text : Str} (last : text.getLast? ≠ some 0) :
    b64_decode (Base64.encode text) = .ok text := by
  have octets : (text.map UInt8.toNat).map Nat.toUInt8 = text := by
    rw [List.map_map]
    exact List.map_id'' (fun c => c.ofNat_toNat) text
  simp only [b64_decode, Regroup.start, collect_encode text _ 0 (Nat.le_refl _), bind, Except.bind,
    pure, Except.pure, octets, trimRightNul_eq_self last]

/-- The user name ends at the first colon, and everything else is the password. -/
theorem userPass_append {user secret : Str} (named : user ≠ []) (noColon : chr ':' ∉ user)
    (nonempty : secret ≠ []) :
    (do let res ← userPass; Parser.eoi; return res : Parser UserPass)
      (user ++ str ":" ++ secret) = .ok ⟨user, secret⟩ [] := by
  have isUser : username (user ++ (str ":" ++ secret)) = .ok user (str ":" ++ secret) := by
    cases user with
    | nil => exact absurd rfl named
    | cons c rest =>
        have allowed : ∀ d ∈ c :: rest, (d != chr ':') = true := by
          intro d member
          rw [bne_iff_ne]
          rintro rfl
          exact noColon member
        have stops : Parser.Stops (fun d => d != chr ':') (str ":" ++ secret) :=
          Parser.stops_cons.mpr rfl
        obtain ⟨first, others⟩ := List.forall_mem_cons.mp allowed
        refine Parser.bind_eq_ok.mpr ⟨c, _, Parser.satisfy_eq_ok.mpr ⟨rfl, first⟩, ?_⟩
        exact Parser.bind_eq_ok.mpr ⟨rest, _, Parser.many_satisfy_append others stops, rfl⟩
  have isPassword : password secret = .ok secret [] := by
    cases secret with
    | nil => exact absurd rfl nonempty
    | cons c rest =>
        have others : Parser.many (Parser.satisfy fun _ => true) (rest ++ []) = .ok rest [] :=
          Parser.many_satisfy_append (fun _ _ => rfl) (Parser.stops_nil _)
        rw [List.append_nil] at others
        refine Parser.bind_eq_ok.mpr ⟨c, _, Parser.satisfy_eq_ok.mpr ⟨rfl, rfl⟩, ?_⟩
        exact Parser.bind_eq_ok.mpr ⟨rest, _, others, rfl⟩
  rw [List.append_assoc]
  refine Parser.bind_eq_ok.mpr ⟨⟨user, secret⟩, [], ?_, rfl⟩
  refine Parser.bind_eq_ok.mpr ⟨user, _, isUser, ?_⟩
  refine Parser.bind_eq_ok.mpr ⟨(), _, Parser.lit_append _ _, ?_⟩
  exact Parser.bind_eq_ok.mpr ⟨secret, [], isPassword, rfl⟩

/-- Credentials which are encoded for the Basic scheme are read back. -/
theorem parseBasicAuth_encode {word user secret padding : Str}
    (basic : word.map Ascii.toLower = str "basic") (named : user ≠ [])
    (noColon : chr ':' ∉ user) (nonempty : secret ≠ []) (noNul : secret.getLast? ≠ some 0)
    (padded : padding = [] ∨ padding = Base64.padding (user ++ str ":" ++ secret)) :
    parseBasicAuth (word ++ str " " ++ Base64.encode (user ++ str ":" ++ secret) ++ padding) =
      .ok ⟨user, secret⟩ := by
  have isHeader : IsBasicHeader
      (word ++ str " " ++ Base64.encode (user ++ str ":" ++ secret) ++ padding)
      (Base64.encode (user ++ str ":" ++ secret)) := by
    refine ⟨word, padding, rfl, basic, ?_, ?_⟩
    · exact Base64.forall_mem_encode (fun bits small => (decoded_digit small).1) _
    · rcases padded with rfl | rfl
      · exact ⟨0, Nat.zero_le _, rfl⟩
      · exact ⟨_, Base64.length_padding_le _, by rw [Base64.padding, List.length_replicate]⟩
  obtain ⟨rest, parsed⟩ := headerGrammar_eq_ok.mpr isHeader
  have last : (user ++ str ":" ++ secret).getLast? ≠ some 0 := by
    rwa [List.getLast?_append_of_ne_nil _ nonempty]
  simp only [parseBasicAuth, parsed, b64_decode_encode last]
  refine except_bind_eq_ok.mpr ⟨_, rfl, ?_⟩
  rw [userPass_append named noColon nonempty]
  rfl

/-- The password has a colon, a NUL octet and one which is not ASCII. -/
theorem colonPassword_parsed :
    parseBasicAuth (str "BASIC " ++ Base64.encode (str "joe" ++ str ":" ++ [58, 0, 255]) ++
      str "==") = .ok ⟨str "joe", [58, 0, 255]⟩ :=
  @parseBasicAuth_encode (str "BASIC") (str "joe") [58, 0, 255] (str "==") (by decide) (by decide)
    (by decide) (by decide) (by decide) (.inr (by decide))

end Rousette.Auth
