import Mathlib.Data.List.Induction
import Rousette.Restconf.QueryPhrases

/-!
# Recognition of the values of query parameters

The numbers of `depth`, the words of the symbol tables, filters, and the expressions of
`fields`.  In the last ones each rule calls the others with less fuel, and the length of
the input is enough of it.
-/

namespace Rousette.Restconf.Impl

open Library

namespace Grammar

open Parser QueryParams

/-! ## Numbers -/

/-- The octet of a decimal digit. -/
def digitOctet (d : Nat) : UInt8 := (48 + d).toUInt8

theorem decimal_of_lt {d : Nat} (small : d < 10) : decimal d = [digitOctet d] := by
  have octets : ∀ d : Fin 10, chr d.val.digitChar = digitOctet d.val := by decide
  rw [decimal, Nat.toDigits_of_lt_base small, List.map_singleton, octets ⟨d, small⟩]

theorem decimal_snoc {n d : Nat} (positive : 0 < n) (small : d < 10) :
    decimal (10 * n + d) = decimal n ++ [digitOctet d] := by
  rw [← decimal_of_lt small]
  simp only [decimal]
  rw [← Nat.toDigits_append_toDigits (by decide) positive small, List.map_append]

theorem decimalValue_snoc (digits : Str) (c : UInt8) :
    decimalValue (digits ++ [c]) = decimalValue digits * 10 + (c.toNat - (chr '0').toNat) := by
  simp only [decimalValue, List.foldl_append, List.foldl_cons, List.foldl_nil]

theorem digitOctet_value {d : Nat} (small : d < 10) :
    Ascii.isDigit (digitOctet d) = true ∧ (digitOctet d).toNat - (chr '0').toNat = d := by
  have octets : ∀ d : Fin 10, Ascii.isDigit (digitOctet d) = true ∧
      (digitOctet d).toNat - (chr '0').toNat = d := by decide
  exact octets ⟨d, small⟩

/-- A digit is the octet of its value. -/
theorem isDigit_eq {c : UInt8} (isDigit : Ascii.isDigit c = true) :
    ∃ d, d < 10 ∧ c = digitOctet d := by
  have octets : ∀ n : Fin 256, Ascii.isDigit (.ofFin n) = true →
      n.val - 48 < 10 ∧ UInt8.ofFin n = digitOctet (n.val - 48) := by decide +kernel
  exact ⟨_, octets c.toFin isDigit⟩

/-- A number is either a digit, or ends with one. -/
theorem decimal_induction {motive : Nat → Prop} (digit : ∀ d < 10, motive d)
    (snoc : ∀ n d, 0 < n → d < 10 → motive n → motive (10 * n + d)) (n : Nat) : motive n := by
  induction n using Nat.strongRecOn with
  | ind n ih =>
      by_cases small : n < 10
      · exact digit n small
      · have split : 10 * (n / 10) + n % 10 = n := Nat.div_add_mod n 10
        have smaller := ih (n / 10) (by omega)
        have whole := snoc (n / 10) (n % 10) (by omega) (by omega) smaller
        rwa [split] at whole

theorem decimalValue_decimal (n : Nat) : decimalValue (decimal n) = n := by
  induction n using decimal_induction with
  | digit d small =>
      rw [decimal_of_lt small]
      have value := decimalValue_snoc [] (digitOctet d)
      rw [(digitOctet_value small).2] at value
      simpa [decimalValue] using value
  | snoc n d positive small ih =>
      rw [decimal_snoc positive small, decimalValue_snoc, ih, (digitOctet_value small).2]
      omega

theorem decimal_injective {m n : Nat} (same : decimal m = decimal n) : m = n := by
  rw [← decimalValue_decimal m, same, decimalValue_decimal]

theorem isDigit_of_mem_decimal (n : Nat) : ∀ c ∈ decimal n, Ascii.isDigit c = true := by
  induction n using decimal_induction with
  | digit d small =>
      rw [decimal_of_lt small]
      simp [(digitOctet_value small).1]
  | snoc n d positive small ih =>
      rw [decimal_snoc positive small]
      intro c member
      rcases List.mem_append.mp member with before | last
      · exact ih c before
      · rw [List.mem_singleton.mp last]
        exact (digitOctet_value small).1

theorem decimalValue_zeros (zeros : Nat) (digits : Str) :
    decimalValue (List.replicate zeros (chr '0') ++ digits) = decimalValue digits := by
  induction zeros with
  | zero => rfl
  | succ zeros ih =>
      rw [List.replicate_succ, List.cons_append]
      exact ih

/-- A sequence of digits is its value with leading zeros, except that zero is nothing but
leading zeros. -/
theorem eq_zeros_append_decimal (digits : Str)
    (areDigits : ∀ c ∈ digits, Ascii.isDigit c = true) :
    ∃ zeros, digits = List.replicate zeros (chr '0') ++
      if decimalValue digits = 0 then [] else decimal (decimalValue digits) := by
  induction digits using List.reverseRecOn with
  | nil => exact ⟨0, rfl⟩
  | append_singleton digits c ih =>
      obtain ⟨zeros, split⟩ := ih fun c member => areDigits c (List.mem_append_left _ member)
      obtain ⟨d, small, rfl⟩ := isDigit_eq (areDigits c (by simp))
      have value : decimalValue (digits ++ [digitOctet d]) = decimalValue digits * 10 + d := by
        rw [decimalValue_snoc, (digitOctet_value small).2]
      by_cases zero : decimalValue digits = 0
      · rw [if_pos zero, List.append_nil] at split
        rw [value, zero]
        by_cases last : d = 0
        · subst last
          refine ⟨zeros + 1, ?_⟩
          rw [split, List.replicate_succ', if_pos rfl, List.append_nil]
          rfl
        · refine ⟨zeros, ?_⟩
          have number : 0 * 10 + d = d := by omega
          rw [number, if_neg last, decimal_of_lt small, ← split]
      · rw [if_neg zero] at split
        refine ⟨zeros, ?_⟩
        have number : decimalValue digits * 10 + d = 10 * decimalValue digits + d := by omega
        rw [value, number, if_neg (by omega), decimal_snoc (by omega) small, ← List.append_assoc,
          ← split]

theorem uint_sound {input rest : Str} {value : Nat} (parsed : uint input = .ok value rest) :
    ∃ digits : Str, input = digits ++ rest ∧ value = decimalValue digits ∧
      ∀ c ∈ digits, Ascii.isDigit c = true := by
  unfold uint at parsed
  split at parsed
  next digits left taken =>
    split at parsed <;> cases parsed
    simp only [many1, bind_eq_ok] at taken
    obtain ⟨first, _, parsedFirst, others, _, parsedOthers, list⟩ := taken
    obtain ⟨rfl, isFirst⟩ := satisfy_eq_ok.mp parsedFirst
    obtain ⟨rfl, areOthers⟩ := many_satisfy_eq_ok parsedOthers
    cases list
    exact ⟨first :: others, rfl, rfl, List.forall_mem_cons.mpr ⟨isFirst, areOthers⟩⟩
  · cases parsed
  · cases parsed

theorem uint_complete {digits rest : Str} (nonempty : digits ≠ [])
    (areDigits : ∀ c ∈ digits, Ascii.isDigit c = true)
    (fits : decimalValue digits < 2 ^ 32) (stops : Stops Ascii.isDigit rest) :
    uint (digits ++ rest) = .ok (decimalValue digits) rest := by
  have taken : many1 (satisfy Ascii.isDigit) (digits ++ rest) = .ok digits rest := by
    cases digits with
    | nil => exact absurd rfl nonempty
    | cons first others =>
        obtain ⟨isFirst, areOthers⟩ := List.forall_mem_cons.mp areDigits
        simp only [many1, bind_eq_ok, satisfy_eq_ok]
        exact ⟨first, _, ⟨rfl, isFirst⟩, others, _, many_satisfy_append areOthers stops, rfl⟩
  unfold uint
  rw [taken]
  exact if_pos fits

/-- The end of a parameter. -/
abbrev Ends (rest : Str) : Prop := Stops (fun c => c != chr '&') rest

/-- A parameter ends with the input or with an ampersand. -/
theorem Ends.cases {rest : Str} (ends : Ends rest) :
    rest = [] ∨ ∃ next, rest = chr '&' :: next := by
  cases rest with
  | nil => exact .inl rfl
  | cons c next =>
      have ampersand : c = chr '&' := by simpa using stops_cons.mp ends
      exact .inr ⟨next, by rw [ampersand]⟩

/-- What does not contain the ampersand stops at the end of a parameter. -/
theorem Ends.stops {accept : UInt8 → Bool} {rest : Str} (ends : Ends rest)
    (refused : accept (chr '&') = false) : Stops accept rest := by
  rcases ends.cases with rfl | ⟨next, rfl⟩
  · exact stops_nil _
  · exact stops_cons.mpr refused

theorem depthParam_sound {input rest : Str} {result : QueryParamValue}
    (parsed : depthParam input = .ok result rest) :
    (∃ zeros value, (0 < value ∧ value < 65536) ∧ result = .depth value ∧
        input = List.replicate zeros (chr '0') ++ decimal value ++ rest) ∨
      input = str "unbounded" ++ rest ∧ result = .unboundedDepth := by
  rcases orElse_eq_ok.mp parsed with number | ⟨_, word⟩
  · left
    unfold validDepthValues at number
    split at number
    next value left taken =>
      split at number <;> cases number
      next inRange =>
        obtain ⟨digits, rfl, rfl, areDigits⟩ := uint_sound taken
        obtain ⟨zeros, split⟩ := eq_zeros_append_decimal digits areDigits
        rw [if_neg (by omega)] at split
        exact ⟨zeros, _, inRange, rfl, by rw [← split]⟩
    · cases number
    · cases number
  · right
    obtain ⟨_, _, first, finished⟩ := bind_eq_ok.mp word
    cases finished
    exact ⟨lit_eq_ok.mp first, rfl⟩

theorem depthParam_number (zeros : Nat) {value : Nat} (inRange : 0 < value ∧ value < 65536)
    {rest : Str} (ends : Ends rest) :
    depthParam (List.replicate zeros (chr '0') ++ decimal value ++ rest) =
      .ok (.depth value) rest := by
  have digits : ∀ c ∈ List.replicate zeros (chr '0') ++ decimal value,
      Ascii.isDigit c = true := by
    intro c member
    rcases List.mem_append.mp member with zero | digit
    · rw [List.eq_of_mem_replicate zero]
      decide
    · exact isDigit_of_mem_decimal value c digit
  have same : decimalValue (List.replicate zeros (chr '0') ++ decimal value) = value := by
    rw [decimalValue_zeros, decimalValue_decimal]
  have nonempty : List.replicate zeros (chr '0') ++ decimal value ≠ [] := by
    intro empty
    rw [empty] at same
    exact absurd same.symm (Nat.ne_of_gt inRange.1)
  have taken := uint_complete nonempty digits (by omega) (ends.stops rfl)
  rw [same] at taken
  refine orElse_eq_ok.mpr (.inl ?_)
  unfold validDepthValues
  rw [taken]
  exact if_pos inRange

theorem depthParam_unbounded (rest : Str) :
    depthParam (str "unbounded" ++ rest) = .ok .unboundedDepth rest :=
  (orElse_of_fail rfl).trans rfl

/-! ## Words -/

theorem symbols_sound {table : List (String × QueryParamValue)} {input rest : Str}
    {result : QueryParamValue} (parsed : symbols table input = .ok result rest) :
    ∃ word ∈ table, input = str word.1 ++ rest ∧ result = word.2 := by
  induction table with
  | nil => cases parsed
  | cons word table ih =>
      rcases orElse_eq_ok.mp parsed with found | ⟨_, later⟩
      · obtain ⟨_, _, first, finished⟩ := bind_eq_ok.mp found
        cases finished
        exact ⟨word, List.mem_cons_self, lit_eq_ok.mp first, rfl⟩
      · obtain ⟨other, member, split⟩ := ih later
        exact ⟨other, List.mem_cons_of_mem _ member, split⟩

theorem withDefaultsTable_complete {word : String × QueryParamValue}
    (known : word ∈ withDefaultsWords) {rest : Str} (ends : Ends rest) :
    withDefaultsTable (str word.1 ++ rest) = .ok word.2 rest := by
  -- one word is a prefix of another one, and the ampersand tells them apart
  simp only [withDefaultsWords, List.mem_cons, List.not_mem_nil, or_false] at known
  rcases ends.cases with rfl | ⟨next, rfl⟩ <;> rcases known with rfl | rfl | rfl | rfl <;> rfl

theorem contentTable_complete {word : String × QueryParamValue} (known : word ∈ contentWords)
    (rest : Str) : contentTable (str word.1 ++ rest) = .ok word.2 rest := by
  simp only [contentWords, List.mem_cons, List.not_mem_nil, or_false] at known
  rcases known with rfl | rfl | rfl <;> rfl

theorem insertTable_complete {word : String × QueryParamValue} (known : word ∈ insertWords)
    (rest : Str) : insertTable (str word.1 ++ rest) = .ok word.2 rest := by
  simp only [insertWords, List.mem_cons, List.not_mem_nil, or_false] at known
  rcases known with rfl | rfl | rfl | rfl <;> rfl

theorem withDefaultsTable_sound {input rest : Str} {result : QueryParamValue}
    (parsed : withDefaultsTable input = .ok result rest) :
    ∃ word ∈ withDefaultsWords, input = str word.1 ++ rest ∧ result = word.2 := by
  obtain ⟨word, member, split⟩ := symbols_sound parsed
  refine ⟨word, ?_, split⟩
  simp only [List.mem_cons, List.not_mem_nil, or_false] at member
  simp only [withDefaultsWords, List.mem_cons, List.not_mem_nil, or_false]
  rcases member with rfl | rfl | rfl | rfl <;> simp

/-! ## Filters -/

theorem isFilterChar_iff (c : UInt8) :
    isFilterChar c = true ↔ (c != chr '&') = true ∧ c ≠ chr '%' := by
  simp [isFilterChar]

theorem recognizes_filter :
    Recognizes filter
      (fun octets : Octet isFilterChar × List (Octet isFilterChar) =>
        octets.1.text ++ octets.2.flatMap Octet.text)
      (fun octets => octets.1.value :: octets.2.map Octet.value) Ends :=
  (recognizes_octet isFilterChar_iff).many1 Octet.text_ne_nil (fun _ _ => trivial)
    fun _ ends => ⟨trivial, octet_fail (ends.stops rfl)⟩

/-! ## Fields -/

theorem fieldsSlash_succ (fuel : Nat) :
    fieldsSlash (fuel + 1) =
      operation apiIdentifier (str "/") (expect (str "fieldsSlash") (fieldsSlash fuel)) .slash :=
  rfl

/-- An expression in parentheses, from behind the opening one. -/
def parenthesized (fuel : Nat) : Parser FieldsExpr := do
  let inner ← expect (str "fieldsExpr") (fieldsSemi fuel)
  expect (str "')'") (lit (str ")"))
  return inner

theorem fieldsParen_succ (fuel : Nat) :
    fieldsParen (fuel + 1) =
      operation (fun input => fieldsSlash (input.length + 1) input) (str "(")
        (parenthesized fuel) .paren :=
  rfl

theorem fieldsSemi_succ (fuel : Nat) :
    fieldsSemi (fuel + 1) =
      operation (fieldsParen fuel) (str ";") (expect (str "fieldsSemi") (fieldsSemi fuel)) .semi :=
  rfl

theorem fieldsSlash_sound (fuel : Nat) {input rest : Str} {result : FieldsExpr}
    (parsed : fieldsSlash fuel input = .ok result rest) :
    ∃ phrase : FieldsPhrase .slash, input = phrase.text ++ rest ∧ result = phrase.value := by
  induction fuel generalizing input result with
  | zero => cases parsed
  | succ fuel ih =>
      rw [fieldsSlash_succ] at parsed
      obtain ⟨_, _, first, ⟨_, _, rfl, second, rfl⟩ | ⟨rfl, rfl⟩⟩ := operation_sound parsed
      · obtain ⟨ident, rfl, rfl⟩ := recognizes_apiIdentifier.sound first
        obtain ⟨rhs, rfl, rfl⟩ := ih (expect_eq_ok.mp second)
        exact ⟨.slash ident rhs, by simp [FieldsPhrase.text], rfl⟩
      · obtain ⟨ident, rfl, rfl⟩ := recognizes_apiIdentifier.sound first
        exact ⟨.name ident, rfl, rfl⟩

/-- The other two levels call each other. -/
theorem fields_sound (fuel : Nat) :
    (∀ {input rest result}, fieldsSemi fuel input = .ok result rest →
        ∃ phrase : FieldsPhrase .semi, input = phrase.text ++ rest ∧ result = phrase.value) ∧
      ∀ {input rest result}, fieldsParen fuel input = .ok result rest →
        ∃ phrase : FieldsPhrase .paren, input = phrase.text ++ rest ∧ result = phrase.value := by
  induction fuel with
  | zero => exact ⟨nofun, nofun⟩
  | succ fuel ih =>
      constructor
      · intro input rest result parsed
        rw [fieldsSemi_succ] at parsed
        obtain ⟨_, _, first, ⟨_, _, rfl, second, rfl⟩ | ⟨rfl, rfl⟩⟩ := operation_sound parsed
        · obtain ⟨lhs, rfl, rfl⟩ := ih.2 first
          obtain ⟨rhs, rfl, rfl⟩ := ih.1 (expect_eq_ok.mp second)
          exact ⟨.semi lhs rhs, by simp [FieldsPhrase.text], rfl⟩
        · obtain ⟨lhs, rfl, rfl⟩ := ih.2 first
          exact ⟨.single lhs, rfl, rfl⟩
      · intro input rest result parsed
        rw [fieldsParen_succ] at parsed
        obtain ⟨_, _, first, ⟨_, _, rfl, second, rfl⟩ | ⟨rfl, rfl⟩⟩ := operation_sound parsed
        · simp only [parenthesized, bind_eq_ok, expect_eq_ok, lit_eq_ok] at second
          obtain ⟨_, _, inner, _, _, rfl, same⟩ := second
          cases same
          obtain ⟨lhs, rfl, rfl⟩ := fieldsSlash_sound _ first
          obtain ⟨rhs, rfl, rfl⟩ := ih.1 inner
          exact ⟨.paren lhs rhs, by simp [FieldsPhrase.text], rfl⟩
        · obtain ⟨lhs, rfl, rfl⟩ := fieldsSlash_sound _ first
          exact ⟨.path lhs, rfl, rfl⟩

namespace FieldsLevel

/-- The rule of a level. -/
def parser : FieldsLevel → Nat → Parser FieldsExpr
  | .slash => fieldsSlash
  | .paren => fieldsParen
  | .semi => fieldsSemi

/-- What may not follow an expression of the level. -/
def continues : FieldsLevel → UInt8 → Bool
  | .slash => fun c => continuesName c || c == chr '/'
  | .paren => fun c => continuesName c || c == chr '/' || c == chr '('
  | .semi => fun c => continuesName c || c == chr '/' || c == chr '(' || c == chr ';'

/-- Is the fuel enough for an expression of the length? -/
def Enough : FieldsLevel → Nat → Nat → Prop
  | .slash, length, fuel => length ≤ fuel
  | .paren, length, fuel => 2 * length ≤ fuel + 1
  | .semi, length, fuel => 2 * length ≤ fuel

theorem Enough.exists_succ {level : FieldsLevel} {length fuel : Nat}
    (enough : level.Enough length fuel) (positive : 0 < length) : ∃ less, fuel = less + 1 := by
  cases fuel with
  | zero =>
      cases level <;> simp only [Enough] at enough <;> omega
  | succ less => exact ⟨less, rfl⟩

end FieldsLevel

theorem ApiName.text_ne_nil (name : ApiName) : name.text ≠ [] := by
  obtain ⟨modulePrefix, name⟩ := name
  cases modulePrefix <;> simp [ApiName.text, Identifier.text]

theorem FieldsPhrase.length_text {level : FieldsLevel} (phrase : FieldsPhrase level) :
    0 < phrase.text.length := by
  induction phrase with
  | name ident => exact List.length_pos_of_ne_nil ident.text_ne_nil
  | path lhs ih => exact ih
  | single lhs ih => exact ih
  | slash ident rhs ih =>
      simp only [FieldsPhrase.text, List.length_append]
      omega
  | paren lhs rhs ih =>
      simp only [FieldsPhrase.text, List.length_append]
      omega
  | semi lhs rhs ih =>
      simp only [FieldsPhrase.text, List.length_append]
      omega

theorem fields_complete {level : FieldsLevel} (phrase : FieldsPhrase level) {fuel : Nat}
    {rest : Str} (enough : level.Enough phrase.text.length fuel)
    (stops : Stops level.continues rest) :
    level.parser fuel (phrase.text ++ rest) = .ok phrase.value rest := by
  -- a rule has used up some fuel when it calls another one, and there is some to begin with
  have positive := phrase.length_text
  have separators : (str "/").length = 1 ∧ (str "(").length = 1 ∧ (str ")").length = 1 ∧
      (str ";").length = 1 := ⟨rfl, rfl, rfl, rfl⟩
  induction phrase generalizing fuel rest with
  | name ident =>
      obtain ⟨less, rfl⟩ := enough.exists_succ positive
      have first := recognizes_apiIdentifier.complete ident
        (stops.mono fun c accepted => by simp [FieldsLevel.continues, accepted])
      exact operation_none first (lit_fail stops rfl)
  | slash ident rhs ih =>
      obtain ⟨less, rfl⟩ := enough.exists_succ positive
      simp only [FieldsPhrase.text, FieldsLevel.Enough, List.length_append] at enough
      have enoughRhs : FieldsLevel.slash.Enough rhs.text.length less := by
        simp only [FieldsLevel.Enough]
        omega
      have first : apiIdentifier (ident.text ++ (str "/" ++ (rhs.text ++ rest))) =
          .ok ident.value (str "/" ++ (rhs.text ++ rest)) :=
        recognizes_apiIdentifier.complete ident (stops_cons.mpr (by decide))
      have second := ih enoughRhs stops rhs.length_text
      simp only [FieldsPhrase.text, List.append_assoc]
      exact operation_some first (expect_eq_ok.mpr second)
  | path lhs ih =>
      obtain ⟨less, rfl⟩ := enough.exists_succ positive
      have enoughLhs : FieldsLevel.slash.Enough lhs.text.length
          ((lhs.text ++ rest).length + 1) := by
        simp only [FieldsLevel.Enough, List.length_append]
        omega
      have first := ih enoughLhs
        (stops.mono fun c accepted => Bool.or_eq_true_iff.mpr (.inl accepted)) lhs.length_text
      exact operation_none first (lit_fail stops rfl)
  | paren lhs rhs ihLhs ihRhs =>
      obtain ⟨less, rfl⟩ := enough.exists_succ positive
      simp only [FieldsPhrase.text, FieldsLevel.Enough, List.length_append] at enough
      have enoughLhs : FieldsLevel.slash.Enough lhs.text.length
          ((lhs.text ++ (str "(" ++ (rhs.text ++ (str ")" ++ rest)))).length + 1) := by
        simp only [FieldsLevel.Enough, List.length_append]
        omega
      have enoughRhs : FieldsLevel.semi.Enough rhs.text.length less := by
        simp only [FieldsLevel.Enough]
        omega
      have follows : Stops FieldsLevel.slash.continues
          (str "(" ++ (rhs.text ++ (str ")" ++ rest))) := stops_cons.mpr (by decide)
      have first := ihLhs enoughLhs follows lhs.length_text
      have inner : fieldsSemi less (rhs.text ++ (str ")" ++ rest)) =
          .ok rhs.value (str ")" ++ rest) :=
        ihRhs enoughRhs (stops_cons.mpr (by decide)) rhs.length_text
      have second : parenthesized less (rhs.text ++ (str ")" ++ rest)) = .ok rhs.value rest := by
        simp only [parenthesized, bind_apply, expect, inner, lit_append, pure_apply]
      simp only [FieldsPhrase.text, List.append_assoc]
      exact operation_some first second
  | single lhs ih =>
      obtain ⟨less, rfl⟩ := enough.exists_succ positive
      have enoughLhs : FieldsLevel.paren.Enough lhs.text.length less := enough
      have first := ih enoughLhs
        (stops.mono fun c accepted => Bool.or_eq_true_iff.mpr (.inl accepted)) lhs.length_text
      exact operation_none first (lit_fail stops rfl)
  | semi lhs rhs ihLhs ihRhs =>
      obtain ⟨less, rfl⟩ := enough.exists_succ positive
      simp only [FieldsPhrase.text, FieldsLevel.Enough, List.length_append] at enough
      have enoughLhs : FieldsLevel.paren.Enough lhs.text.length less := by
        simp only [FieldsLevel.Enough]
        omega
      have enoughRhs : FieldsLevel.semi.Enough rhs.text.length less := by
        simp only [FieldsLevel.Enough]
        omega
      have first : fieldsParen less (lhs.text ++ (str ";" ++ (rhs.text ++ rest))) =
          .ok lhs.value (str ";" ++ (rhs.text ++ rest)) :=
        ihLhs enoughLhs (stops_cons.mpr (by decide)) lhs.length_text
      have second := ihRhs enoughRhs stops rhs.length_text
      simp only [FieldsPhrase.text, List.append_assoc]
      exact operation_some first (expect_eq_ok.mpr second)

theorem recognizes_fieldsExpr :
    Recognizes fieldsExpr (FieldsPhrase.text : FieldsPhrase .semi → Str) FieldsPhrase.value
      Ends := by
  constructor
  case sound => exact fun parsed => (fields_sound _).1 parsed
  case complete =>
    intro phrase rest ends
    refine fields_complete phrase ?_ (ends.stops rfl)
    simp only [FieldsLevel.Enough, List.length_append]
    omega

end Grammar

end Rousette.Restconf.Impl
