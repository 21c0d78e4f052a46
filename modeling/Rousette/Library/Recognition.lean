import Rousette.Library.Parser

/-!
# Recognition of phrases

A grammar read without any order between its alternatives is given by its phrases: a
phrase is a derivation tree, with the text which it derives and the attribute which it
means.  A parser recognizes the phrases when whatever it consumes is the text of one of
them, and when it reads each of them in front of everything which may follow.
-/

namespace Rousette.Library.Parser

variable {α β τ σ : Type}

/-! ## Successful parses -/

@[simp] theorem expect_eq_ok {what input rest : Str} {parser : Parser α} {result : α} :
    expect what parser input = .ok result rest ↔ parser input = .ok result rest := by
  unfold expect
  cases parser input <;> simp

/-- No alternative is tried after an expectation point. -/
@[simp] theorem expect_ne_fail {what input : Str} {parser : Parser α} :
    expect what parser input ≠ .fail := by
  unfold expect
  cases parser input <;> simp

theorem bind_eq_fail {first : Parser α} {second : α → Parser β} {input : Str} :
    (first >>= second) input = .fail ↔
      first input = .fail ∨
        ∃ value rest, first input = .ok value rest ∧ second value rest = .fail := by
  rw [bind_apply]
  cases first input <;> simp

theorem orElse_eq_ok {first second : Parser α} {input rest : Str} {result : α} :
    orElse first second input = .ok result rest ↔
      first input = .ok result rest ∨
        first input = .fail ∧ second input = .ok result rest := by
  unfold orElse
  cases first input <;> simp

theorem optional_eq_ok {parser : Parser α} {input rest : Str} {result : Option α} :
    optional parser input = .ok result rest ↔
      (∃ value, result = some value ∧ parser input = .ok value rest) ∨
        result = none ∧ rest = input ∧ parser input = .fail := by
  unfold optional
  cases parser input with
  | ok value middle =>
      simp only [Outcome.ok.injEq, reduceCtorEq, and_false, or_false]
      constructor
      · rintro ⟨rfl, rfl⟩
        exact ⟨value, rfl, rfl, rfl⟩
      · rintro ⟨_, rfl, rfl, rfl⟩
        exact ⟨rfl, rfl⟩
  | fail => simp [eq_comm]
  | expected rest what => simp

theorem optional_of_ok {parser : Parser α} {input rest : Str} {result : α}
    (parsed : parser input = .ok result rest) :
    optional parser input = .ok (some result) rest :=
  optional_eq_ok.mpr (.inl ⟨result, rfl, parsed⟩)

theorem optional_of_fail {parser : Parser α} {input : Str} (failed : parser input = .fail) :
    optional parser input = .ok none input :=
  optional_eq_ok.mpr (.inr ⟨rfl, rfl, failed⟩)

theorem orElse_of_fail {first second : Parser α} {input : Str} (failed : first input = .fail) :
    orElse first second input = second input := by
  simp only [orElse, failed]

theorem notFollowedBy_eq_ok {parser : Parser α} {input rest : Str} {result : Unit} :
    notFollowedBy parser input = .ok result rest ↔ rest = input ∧ parser input = .fail := by
  unfold notFollowedBy
  cases parser input <;> simp [eq_comm]

theorem satisfy_eq_ok {accept : UInt8 → Bool} {input rest : Str} {c : UInt8} :
    satisfy accept input = .ok c rest ↔ input = c :: rest ∧ accept c = true := by
  cases input with
  | nil => simp [satisfy]
  | cons d input =>
      by_cases accepted : accept d
      · simp only [satisfy, accepted, if_true, Outcome.ok.injEq, List.cons.injEq]
        constructor
        · rintro ⟨rfl, rfl⟩
          exact ⟨⟨rfl, rfl⟩, accepted⟩
        · exact fun same => same.1
      · simp only [satisfy, accepted, Bool.false_eq_true, if_false, reduceCtorEq, false_iff]
        rintro ⟨same, other⟩
        cases same
        exact accepted other

@[simp] theorem lit_append (text rest : Str) : lit text (text ++ rest) = .ok () rest :=
  lit_eq_ok.mpr rfl

/-- A literal fails on everything which does not begin with it. -/
theorem lit_eq_fail {text input : Str} : lit text input = .fail ↔ ¬text <+: input := by
  induction text generalizing input with
  | nil => simp [lit]
  | cons c text ih =>
      cases input with
      | nil => simp [lit]
      | cons d input =>
          by_cases same : c = d
          · simp only [lit, same, if_true, ih, List.cons_prefix_cons, true_and]
          · simp [lit, same, List.cons_prefix_cons]

/-- The first octet of the input, if there is one, is not in the class. -/
def Stops (accept : UInt8 → Bool) (input : Str) : Prop :=
  ∀ c ∈ input.head?, accept c = false

@[simp] theorem stops_nil (accept : UInt8 → Bool) : Stops accept [] := nofun

@[simp] theorem stops_cons {accept : UInt8 → Bool} {c : UInt8} {rest : Str} :
    Stops accept (c :: rest) ↔ accept c = false := by
  simp [Stops]

/-- A wider class stops earlier. -/
theorem Stops.mono {accept wider : UInt8 → Bool} {input : Str} (stops : Stops wider input)
    (covers : ∀ c, accept c = true → wider c = true) : Stops accept input := by
  intro c head
  cases accepted : accept c with
  | false => rfl
  | true => exact absurd (stops c head) (by simp [covers c accepted])

theorem Stops.takeWhile {accept : UInt8 → Bool} {input : Str} (stops : Stops accept input) :
    input.takeWhile accept = [] := by
  cases input with
  | nil => rfl
  | cons c rest => simp [stops_cons.mp stops]

theorem Stops.dropWhile {accept : UInt8 → Bool} {input : Str} (stops : Stops accept input) :
    input.dropWhile accept = input := by
  cases input with
  | nil => rfl
  | cons c rest => simp [stops_cons.mp stops]

theorem satisfy_fail {accept : UInt8 → Bool} {input : Str} (stops : Stops accept input) :
    satisfy accept input = .fail := by
  cases input with
  | nil => rfl
  | cons c rest => simp [satisfy, stops_cons.mp stops]

/-- A literal fails at its first octet where a class stops which it belongs to. -/
theorem lit_fail {accept : UInt8 → Bool} {c : UInt8} {text input : Str}
    (stops : Stops accept input) (accepted : accept c = true) :
    lit (c :: text) input = .fail := by
  cases input with
  | nil => rfl
  | cons d rest =>
      have other : c ≠ d := by
        rintro rfl
        rw [stops_cons.mp stops] at accepted
        cases accepted
      simp [lit, other]

/-- So does what comes after it. -/
theorem lit_bind_fail {word input : Str} {parser : Parser α} (failed : lit word input = .fail) :
    (do lit word; parser) input = .fail := by
  rw [bind_apply, failed]

/-- The octets of a class, up to one which is not in it. -/
theorem many_satisfy_append {accept : UInt8 → Bool} {text rest : Str}
    (accepted : ∀ c ∈ text, accept c = true) (stops : Stops accept rest) :
    many (satisfy accept) (text ++ rest) = .ok text rest := by
  rw [many_satisfy, List.takeWhile_append_of_pos accepted, List.dropWhile_append_of_pos accepted,
    stops.takeWhile, stops.dropWhile, List.append_nil]

theorem many_satisfy_eq_ok {accept : UInt8 → Bool} {input text rest : Str}
    (parsed : many (satisfy accept) input = .ok text rest) :
    input = text ++ rest ∧ ∀ c ∈ text, accept c = true := by
  rw [many_satisfy] at parsed
  injection parsed with taken left
  subst taken left
  exact ⟨List.takeWhile_append_dropWhile.symm, List.all_eq_true.mp List.all_takeWhile⟩

/-- Exactly some octets of a class. -/
theorem replicate_satisfy_eq_ok {accept : UInt8 → Bool} {count : Nat} {input text rest : Str} :
    replicate (satisfy accept) count input = .ok text rest ↔
      input = text ++ rest ∧ text.length = count ∧ ∀ c ∈ text, accept c = true := by
  induction count generalizing input text rest with
  | zero =>
      rw [List.length_eq_zero_iff]
      constructor
      case mp =>
        intro parsed
        cases parsed
        simp
      case mpr =>
        rintro ⟨rfl, rfl, _⟩
        rfl
  | succ count ih =>
      simp only [replicate, bind_eq_ok, satisfy_eq_ok, ih]
      constructor
      case mp =>
        rintro ⟨c, _, ⟨rfl, accepted⟩, others, _, ⟨rfl, length, allAccepted⟩, finished⟩
        cases finished
        exact ⟨rfl, congrArg (· + 1) length, List.forall_mem_cons.mpr ⟨accepted, allAccepted⟩⟩
      case mpr =>
        rintro ⟨rfl, length, accepted⟩
        cases text with
        | nil => cases length
        | cons c others =>
            obtain ⟨first, allAccepted⟩ := List.forall_mem_cons.mp accepted
            exact ⟨c, _, ⟨rfl, first⟩, others, _, ⟨rfl, Nat.succ.inj length, allAccepted⟩, rfl⟩

/-! ## Operators -/

variable {γ : Type}

/-- An operand, and possibly an operator with another one. -/
def operation (first : Parser α) (operator : Str) (second : Parser β)
    (make : α → Option β → γ) : Parser γ := do
  let lhs ← first
  let rhs ← optional do
    lit operator
    second
  return make lhs rhs

section Operation

variable {first : Parser α} {operator input middle rest : Str} {second : Parser β}
  {make : α → Option β → γ}

theorem operation_sound {result : γ}
    (parsed : operation first operator second make input = .ok result rest) :
    ∃ lhs middle, first input = .ok lhs middle ∧
      ((∃ rhs tail, middle = operator ++ tail ∧ second tail = .ok rhs rest ∧
          result = make lhs (some rhs)) ∨
        middle = rest ∧ result = make lhs none) := by
  simp only [operation, bind_eq_ok, optional_eq_ok, lit_eq_ok] at parsed
  obtain ⟨lhs, _, parsedFirst, _, _, ⟨rhs, rfl, _, tail, split, parsedSecond⟩ |
    ⟨rfl, rfl, _⟩, finished⟩ := parsed
  · cases finished
    exact ⟨lhs, _, parsedFirst, .inl ⟨rhs, tail, split, parsedSecond, rfl⟩⟩
  · cases finished
    exact ⟨lhs, _, parsedFirst, .inr ⟨rfl, rfl⟩⟩

theorem operation_none {lhs : α} (parsedFirst : first input = .ok lhs rest)
    (failed : lit operator rest = .fail) :
    operation first operator second make input = .ok (make lhs none) rest := by
  have absent : optional (do lit operator; second) rest = .ok none rest :=
    optional_of_fail (lit_bind_fail failed)
  simp only [operation, bind_apply, parsedFirst, absent, pure_apply]

theorem operation_some {lhs : α} {rhs : β}
    (parsedFirst : first input = .ok lhs (operator ++ middle))
    (parsedSecond : second middle = .ok rhs rest) :
    operation first operator second make input = .ok (make lhs (some rhs)) rest := by
  have given : optional (do lit operator; second) (operator ++ middle) = .ok (some rhs) rest := by
    apply optional_of_ok
    rw [bind_apply, lit_append]
    exact parsedSecond
  simp only [operation, bind_apply, parsedFirst, given, pure_apply]

end Operation

/-! ## Phrases -/

/-- The parser reads the phrases which have the given texts and attributes. -/
structure Recognizes (parser : Parser α) (text : τ → Str) (value : τ → α)
    (follow : Str → Prop) : Prop where
  sound : ∀ {input result rest}, parser input = .ok result rest →
    ∃ phrase, input = text phrase ++ rest ∧ result = value phrase
  complete : ∀ phrase {rest}, follow rest → parser (text phrase ++ rest) = .ok (value phrase) rest

namespace Recognizes

variable {parser : Parser α} {text : τ → Str} {value : τ → α} {follow : Str → Prop}

/-- Where a phrase ends is seen from its text. -/
theorem cancel (recognizes : Recognizes parser text value follow) {phrase other : τ}
    {rest left : Str} (followRest : follow rest) (followLeft : follow left)
    (same : text phrase ++ rest = text other ++ left) :
    text phrase = text other ∧ rest = left := by
  have parsed := recognizes.complete phrase followRest
  rw [same, recognizes.complete other followLeft] at parsed
  injection parsed with _ same_rest
  subst same_rest
  exact ⟨List.append_cancel_right same, rfl⟩

/-- The same phrases in another form. -/
theorem transport (recognizes : Recognizes parser text value follow) {text' : σ → Str}
    {value' : σ → α} (make : τ → σ) (onto : ∀ phrase, ∃ made, make made = phrase)
    (sameText : ∀ phrase, text' (make phrase) = text phrase)
    (sameValue : ∀ phrase, value' (make phrase) = value phrase) :
    Recognizes parser text' value' follow := by
  constructor
  case sound =>
    intro input result rest parsed
    obtain ⟨phrase, rfl, rfl⟩ := recognizes.sound parsed
    exact ⟨make phrase, by rw [sameText], (sameValue phrase).symm⟩
  case complete =>
    intro phrase rest followed
    obtain ⟨made, rfl⟩ := onto phrase
    rw [sameText, sameValue]
    exact recognizes.complete made followed

theorem expect (recognizes : Recognizes parser text value follow) (what : Str) :
    Recognizes (Parser.expect what parser) text value follow := by
  constructor
  case sound => exact fun parsed => recognizes.sound (expect_eq_ok.mp parsed)
  case complete =>
    exact fun phrase _ followed => expect_eq_ok.mpr (recognizes.complete phrase followed)

/-- Less may follow. -/
theorem strengthen (recognizes : Recognizes parser text value follow) {less : Str → Prop}
    (stronger : ∀ rest, less rest → follow rest) : Recognizes parser text value less :=
  ⟨recognizes.sound, fun phrase rest followed =>
    recognizes.complete phrase (stronger rest followed)⟩

/-- A fixed text before a phrase. -/
theorem lit_bind (recognizes : Recognizes parser text value follow) (word : Str) :
    Recognizes (do lit word; parser) (fun phrase => word ++ text phrase) value follow := by
  constructor
  case sound =>
    intro input result rest parsed
    obtain ⟨_, middle, first, second⟩ := bind_eq_ok.mp parsed
    obtain ⟨phrase, rfl, rfl⟩ := recognizes.sound second
    exact ⟨phrase, by rw [lit_eq_ok.mp first, List.append_assoc], rfl⟩
  case complete =>
    intro phrase rest followed
    rw [List.append_assoc, bind_apply, lit_append]
    exact recognizes.complete phrase followed

/-- A fixed text behind a phrase. -/
theorem bind_lit (recognizes : Recognizes parser text value follow) {word : Str}
    (next : ∀ rest, follow (word ++ rest)) :
    Recognizes (do let result ← parser; lit word; return result)
      (fun phrase => text phrase ++ word) value (fun _ => True) := by
  constructor
  case sound =>
    intro input result rest parsed
    obtain ⟨_, _, first, continued⟩ := bind_eq_ok.mp parsed
    obtain ⟨_, _, second, finished⟩ := bind_eq_ok.mp continued
    obtain ⟨phrase, rfl, rfl⟩ := recognizes.sound first
    cases finished
    exact ⟨phrase, by rw [lit_eq_ok.mp second, List.append_assoc], rfl⟩
  case complete =>
    intro phrase rest _
    simp only [bind_apply, List.append_assoc, recognizes.complete phrase (next rest), lit_append,
      pure_apply]

/-- Alternatives, the first of which does not begin like the second one. -/
theorem orElse (recognizes : Recognizes parser text value follow) {second : Parser α}
    {text' : σ → Str} {value' : σ → α} (recognizesSecond : Recognizes second text' value' follow)
    (apart : ∀ phrase rest, parser (text' phrase ++ rest) = .fail) :
    Recognizes (Parser.orElse parser second) (Sum.elim text text') (Sum.elim value value')
      follow := by
  constructor
  case sound =>
    intro input result rest parsed
    rcases orElse_eq_ok.mp parsed with first | ⟨_, other⟩
    · obtain ⟨phrase, rfl, rfl⟩ := recognizes.sound first
      exact ⟨.inl phrase, rfl, rfl⟩
    · obtain ⟨phrase, rfl, rfl⟩ := recognizesSecond.sound other
      exact ⟨.inr phrase, rfl, rfl⟩
  case complete =>
    intro phrase rest followed
    cases phrase with
    | inl phrase => exact orElse_eq_ok.mpr (.inl (recognizes.complete phrase followed))
    | inr phrase =>
        exact orElse_eq_ok.mpr
          (.inr ⟨apart phrase rest, recognizesSecond.complete phrase followed⟩)

/-- One phrase after another one. -/
theorem seq (recognizes : Recognizes parser text value follow) {second : Parser β}
    {text' : σ → Str} {value' : σ → β} {after : Str → Prop}
    (recognizesSecond : Recognizes second text' value' after) (combine : α → β → γ)
    (next : ∀ phrase {rest}, after rest → follow (text' phrase ++ rest)) :
    Recognizes (do let a ← parser; let b ← second; return combine a b)
      (fun phrases : τ × σ => text phrases.1 ++ text' phrases.2)
      (fun phrases => combine (value phrases.1) (value' phrases.2)) after := by
  constructor
  case sound =>
    intro input result rest parsed
    obtain ⟨_, _, parsedFirst, continued⟩ := bind_eq_ok.mp parsed
    obtain ⟨_, _, parsedSecond, finished⟩ := bind_eq_ok.mp continued
    obtain ⟨phrase, rfl, rfl⟩ := recognizes.sound parsedFirst
    obtain ⟨other, rfl, rfl⟩ := recognizesSecond.sound parsedSecond
    cases finished
    exact ⟨(phrase, other), by rw [List.append_assoc], rfl⟩
  case complete =>
    rintro ⟨phrase, other⟩ rest followed
    simp only [bind_apply, List.append_assoc, recognizes.complete phrase (next other followed),
      recognizesSecond.complete other followed, pure_apply]

/-- A phrase behind another one, which means nothing. -/
theorem behind (recognizes : Recognizes parser text value follow) {first : Parser β}
    {text' : σ → Str} {value' : σ → β} {between : Str → Prop}
    (recognizesFirst : Recognizes first text' value' between)
    (next : ∀ phrase {rest}, follow rest → between (text phrase ++ rest)) :
    Recognizes (do let _ ← first; parser)
      (fun phrases : σ × τ => text' phrases.1 ++ text phrases.2)
      (fun phrases => value phrases.2) follow := by
  constructor
  case sound =>
    intro input result rest parsed
    obtain ⟨_, _, parsedFirst, continued⟩ := bind_eq_ok.mp parsed
    obtain ⟨phrase, rfl, rfl⟩ := recognizesFirst.sound parsedFirst
    obtain ⟨other, rfl, rfl⟩ := recognizes.sound continued
    exact ⟨(phrase, other), by rw [List.append_assoc], rfl⟩
  case complete =>
    rintro ⟨phrase, other⟩ rest followed
    simp only [bind_apply, List.append_assoc,
      recognizesFirst.complete phrase (next other followed), recognizes.complete other followed]

section Repetition

variable {after : Str → Prop}

theorem repeated_sound (recognizes : Recognizes parser text value follow) {input rest : Str}
    {results : List α} (repeated : Repeated parser input results rest) :
    ∃ phrases : List τ, input = phrases.flatMap text ++ rest ∧ results = phrases.map value := by
  induction repeated with
  | nil => exact ⟨[], rfl, rfl⟩
  | cons first _ ih =>
      obtain ⟨phrase, rfl, rfl⟩ := recognizes.sound first
      obtain ⟨phrases, rfl, rfl⟩ := ih
      exact ⟨phrase :: phrases, by simp, rfl⟩

/-- What comes after the first one of several phrases. -/
theorem follow_flatMap (again : ∀ phrase rest, follow (text phrase ++ rest))
    (stop : ∀ rest, after rest → follow rest) (phrases : List τ) {rest : Str}
    (followed : after rest) : follow (phrases.flatMap text ++ rest) := by
  cases phrases with
  | nil => exact stop rest followed
  | cons phrase phrases =>
      rw [List.flatMap_cons, List.append_assoc]
      exact again phrase _

/-- A repetition stops where the parser fails, and a phrase may follow another one. -/
theorem upTo_complete
    (complete : ∀ phrase {rest}, follow rest →
      parser (text phrase ++ rest) = .ok (value phrase) rest)
    (again : ∀ phrase rest, follow (text phrase ++ rest))
    (stop : ∀ rest, after rest → follow rest ∧ parser rest = .fail)
    (phrases : List τ) {bound : Nat} (enough : phrases.length ≤ bound) {rest : Str}
    (followed : after rest) :
    upTo parser bound (phrases.flatMap text ++ rest) = .ok (phrases.map value) rest := by
  induction phrases generalizing bound with
  | nil =>
      cases bound with
      | zero => rfl
      | succ bound => simp [upTo, (stop rest followed).2]
  | cons phrase phrases ih =>
      cases bound with
      | zero => simp at enough
      | succ bound =>
          have next : follow (phrases.flatMap text ++ rest) :=
            follow_flatMap again (fun rest followed => (stop rest followed).1) phrases followed
          have first := complete phrase next
          have others := ih (Nat.le_of_succ_le_succ enough)
          rw [List.flatMap_cons, List.append_assoc]
          simp only [upTo, first, others, List.map_cons]

theorem length_le_flatMap (nonempty : ∀ phrase, text phrase ≠ []) (phrases : List τ) :
    phrases.length ≤ (phrases.flatMap text).length := by
  induction phrases with
  | nil => exact Nat.le_refl _
  | cons phrase phrases ih =>
      have some := List.length_pos_of_ne_nil (nonempty phrase)
      rw [List.flatMap_cons, List.length_append, List.length_cons]
      omega

theorem many (recognizes : Recognizes parser text value follow)
    (nonempty : ∀ phrase, text phrase ≠ [])
    (again : ∀ phrase rest, follow (text phrase ++ rest))
    (stop : ∀ rest, after rest → follow rest ∧ parser rest = .fail) :
    Recognizes (Parser.many parser) (List.flatMap text) (List.map value) after := by
  constructor
  case sound => exact fun parsed => recognizes.repeated_sound (repeated_of_upTo _ parsed)
  case complete =>
    intro phrases rest followed
    refine upTo_complete recognizes.complete again stop phrases ?_ followed
    have length := length_le_flatMap nonempty phrases
    rw [List.length_append]
    omega

theorem many1 (recognizes : Recognizes parser text value follow)
    (nonempty : ∀ phrase, text phrase ≠ [])
    (again : ∀ phrase rest, follow (text phrase ++ rest))
    (stop : ∀ rest, after rest → follow rest ∧ parser rest = .fail) :
    Recognizes (Parser.many1 parser)
      (fun phrases : τ × List τ => text phrases.1 ++ phrases.2.flatMap text)
      (fun phrases => value phrases.1 :: phrases.2.map value) after := by
  refine recognizes.seq (recognizes.many nonempty again stop) List.cons ?_
  intro phrases rest followed
  exact follow_flatMap again (fun rest followed => (stop rest followed).1) phrases followed

/-- How the texts of several phrases are joined. -/
theorem join_map_cons (separator : Str) (text : τ → Str) (phrase : τ) (phrases : List τ) :
    join separator ((phrase :: phrases).map text) =
      text phrase ++ phrases.flatMap fun phrase => separator ++ text phrase := by
  induction phrases generalizing phrase with
  | nil => simp [join]
  | cons other phrases ih =>
      have tail := ih other
      rw [List.map_cons] at tail
      rw [List.map_cons, List.map_cons, join, tail, List.flatMap_cons]
      simp only [List.append_assoc]

/-- Phrases with a fixed text between them. -/
theorem sepBy1 (recognizes : Recognizes parser text value follow) {separator : Str}
    (nonempty : separator ≠ []) (again : ∀ rest, follow (separator ++ rest))
    (stop : ∀ rest, after rest → follow rest ∧ lit separator rest = .fail) :
    Recognizes (Parser.sepBy1 parser (lit separator))
      (fun phrases : τ × List τ =>
        text phrases.1 ++ phrases.2.flatMap fun phrase => separator ++ text phrase)
      (fun phrases => value phrases.1 :: phrases.2.map value) after := by
  have further (phrase : τ) (rest : Str) : follow (separator ++ text phrase ++ rest) := by
    rw [List.append_assoc]
    exact again _
  have others : Recognizes (Parser.many (do lit separator; parser))
      (List.flatMap fun phrase => separator ++ text phrase) (List.map value) after := by
    refine (recognizes.lit_bind separator).many ?_ further ?_
    · exact fun _ empty => nonempty (List.append_eq_nil_iff.mp empty).1
    · intro rest followed
      exact ⟨(stop rest followed).1, lit_bind_fail (stop rest followed).2⟩
  refine recognizes.seq others List.cons ?_
  intro phrases rest followed
  exact follow_flatMap further (fun rest followed => (stop rest followed).1) phrases followed

/-- Where each of several phrases ends is seen from their text. -/
theorem flatMap_injective (recognizes : Recognizes parser text value follow)
    (nonempty : ∀ phrase, text phrase ≠ [])
    (again : ∀ phrase rest, follow (text phrase ++ rest)) (last : follow [])
    (injective : ∀ {phrase other}, text phrase = text other → phrase = other)
    {phrases others : List τ} (same : phrases.flatMap text = others.flatMap text) :
    phrases = others := by
  have next (phrases : List τ) : follow (phrases.flatMap text) := by
    cases phrases with
    | nil => exact last
    | cons phrase phrases => exact again phrase _
  induction phrases generalizing others with
  | nil =>
      cases others with
      | nil => rfl
      | cons other others =>
          rw [List.flatMap_cons, List.flatMap_nil] at same
          exact absurd (List.append_eq_nil_iff.mp same.symm).1 (nonempty other)
  | cons phrase phrases ih =>
      cases others with
      | nil =>
          rw [List.flatMap_cons, List.flatMap_nil] at same
          exact absurd (List.append_eq_nil_iff.mp same).1 (nonempty phrase)
      | cons other others =>
          rw [List.flatMap_cons, List.flatMap_cons] at same
          obtain ⟨first, rest⟩ := recognizes.cancel (next phrases) (next others) same
          rw [injective first, ih rest]

/-- Where each of several phrases with a fixed text between them ends is seen as well. -/
theorem sepBy_injective (recognizes : Recognizes parser text value follow) {separator : Str}
    (nonempty : separator ≠ []) (again : ∀ rest, follow (separator ++ rest)) (last : follow [])
    (injective : ∀ {phrase other}, text phrase = text other → phrase = other)
    {phrase other : τ} {phrases others : List τ}
    (same : (text phrase ++ phrases.flatMap fun phrase => separator ++ text phrase) =
      text other ++ others.flatMap fun phrase => separator ++ text phrase) :
    phrase = other ∧ phrases = others := by
  have further (phrase : τ) (rest : Str) : follow (separator ++ text phrase ++ rest) := by
    rw [List.append_assoc]
    exact again _
  have next (phrases : List τ) :
      follow (phrases.flatMap fun phrase => separator ++ text phrase) := by
    cases phrases with
    | nil => exact last
    | cons phrase phrases => exact further phrase _
  obtain ⟨first, rest⟩ := recognizes.cancel (next phrases) (next others) same
  refine ⟨injective first, ?_⟩
  refine (recognizes.lit_bind separator).flatMap_injective ?_ further last ?_ rest
  · exact fun _ empty => nonempty (List.append_eq_nil_iff.mp empty).1
  · exact fun same => injective (List.append_cancel_left same)

end Repetition

end Recognizes

/-! ## Quoted texts -/

/-- A text between two occurrences of an octet. -/
def quoted (quote : UInt8) : Parser Str := do
  lit [quote]
  let text ← many (satisfy (· != quote))
  lit [quote]
  return text

/-- What a quoted text has inside is every text without the quote. -/
theorem recognizes_quoted (quote : UInt8) :
    Recognizes (quoted quote) (fun text : { text : Str // quote ∉ text } =>
      [quote] ++ text.1 ++ [quote]) Subtype.val (fun _ => True) := by
  have inside {text : Str} : quote ∉ text ↔ ∀ c ∈ text, (c != quote) = true := by
    simp only [bne_iff_ne]
    exact ⟨fun absent c member same => absent (same ▸ member),
      fun others member => others quote member rfl⟩
  constructor
  case sound =>
    intro input result rest parsed
    obtain ⟨_, _, opening, parsed⟩ := bind_eq_ok.mp parsed
    obtain ⟨text, _, taken, parsed⟩ := bind_eq_ok.mp parsed
    obtain ⟨_, _, closing, finished⟩ := bind_eq_ok.mp parsed
    obtain ⟨rfl, others⟩ := many_satisfy_eq_ok taken
    obtain rfl := lit_eq_ok.mp opening
    obtain rfl := lit_eq_ok.mp closing
    cases finished
    exact ⟨⟨_, inside.mpr others⟩, by simp, rfl⟩
  case complete =>
    rintro ⟨text, absent⟩ rest _
    have stops : Stops (· != quote) ([quote] ++ rest) := stops_cons.mpr (by simp)
    have taken := many_satisfy_append (inside.mp absent) stops
    simp only [quoted, bind_apply, List.append_assoc, lit_append, taken, pure_apply]

end Rousette.Library.Parser
