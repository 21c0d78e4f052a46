import Rousette.Library.Recognition

/-!
# Viable prefixes

A parser which gives up at an expectation point tells what is left of its input there.
This is where something is wrong with the input, and nothing is wrong before: what has
been consumed up to that point is the beginning of some phrase.

The alternatives which were tried and abandoned on the way do not count, since a parser
which fails consumes nothing.
-/

namespace Rousette.Library.Parser

variable {α β γ τ σ : Type}

/-! ## Giving up -/

theorem bind_eq_expected {first : Parser α} {second : α → Parser β} {input rest what : Str} :
    (first >>= second) input = .expected rest what ↔
      first input = .expected rest what ∨
        ∃ value middle, first input = .ok value middle ∧
          second value middle = .expected rest what := by
  rw [bind_apply]
  cases first input <;> simp

theorem expect_eq_expected {what expectation input rest : Str} {parser : Parser α} :
    expect expectation parser input = .expected rest what ↔
      parser input = .expected rest what ∨
        parser input = .fail ∧ input = rest ∧ expectation = what := by
  unfold expect
  cases parser input <;> simp

theorem orElse_eq_expected {first second : Parser α} {input rest what : Str} :
    orElse first second input = .expected rest what ↔
      first input = .expected rest what ∨
        first input = .fail ∧ second input = .expected rest what := by
  unfold orElse
  cases first input <;> simp

theorem optional_eq_expected {parser : Parser α} {input rest what : Str} :
    optional parser input = .expected rest what ↔ parser input = .expected rest what := by
  unfold optional
  cases parser input <;> simp

/-- A repetition gives up where the next occurrence does. -/
theorem upTo_eq_expected {parser : Parser α} {bound : Nat} {input rest what : Str}
    (gaveUp : upTo parser bound input = .expected rest what) :
    ∃ values middle, Repeated parser input values middle ∧
      parser middle = .expected rest what := by
  induction bound generalizing input with
  | zero => cases gaveUp
  | succ bound ih =>
      simp only [upTo] at gaveUp
      cases first : parser input with
      | fail => simp [first] at gaveUp
      | expected left other =>
          simp only [first] at gaveUp
          cases gaveUp
          exact ⟨[], input, .nil input, first⟩
      | ok value left =>
          simp only [first] at gaveUp
          cases others : upTo parser bound left with
          | ok values tail => simp [others] at gaveUp
          | fail => simp [others] at gaveUp
          | expected tail other =>
              simp only [others] at gaveUp
              cases gaveUp
              obtain ⟨values, middle, repeated, last⟩ := ih others
              exact ⟨value :: values, middle, .cons first repeated, last⟩

/-- The parser has no expectation point which it ever reaches. -/
def Tentative (parser : Parser α) : Prop :=
  ∀ input rest what, parser input ≠ .expected rest what

namespace Tentative

theorem pure (value : α) : Tentative (Pure.pure value : Parser α) := fun _ _ _ => nofun

theorem satisfy (accept : UInt8 → Bool) : Tentative (Parser.satisfy accept) := by
  intro input rest what
  cases input with
  | nil => simp [Parser.satisfy]
  | cons c input =>
      rw [Parser.satisfy]
      split <;> simp

theorem lit (text : Str) : Tentative (Parser.lit text) := by
  intro input rest what
  induction text generalizing input with
  | nil => simp [Parser.lit]
  | cons c text ih =>
      cases input with
      | nil => simp [Parser.lit]
      | cons d input =>
          rw [Parser.lit]
          split
          · exact ih input
          · simp

theorem eoi : Tentative Parser.eoi := by
  intro input rest what
  cases input <;> simp [Parser.eoi]

theorem bind {first : Parser α} {second : α → Parser β} (tentative : Tentative first)
    (further : ∀ value, Tentative (second value)) : Tentative (first >>= second) := by
  intro input rest what gaveUp
  rcases bind_eq_expected.mp gaveUp with early | ⟨value, _, _, late⟩
  · exact tentative _ _ _ early
  · exact further value _ _ _ late

theorem orElse {first second : Parser α} (tentative : Tentative first)
    (other : Tentative second) : Tentative (Parser.orElse first second) := by
  intro input rest what gaveUp
  rcases orElse_eq_expected.mp gaveUp with early | ⟨_, late⟩
  · exact tentative _ _ _ early
  · exact other _ _ _ late

theorem many {parser : Parser α} (tentative : Tentative parser) :
    Tentative (Parser.many parser) := by
  intro input rest what gaveUp
  obtain ⟨_, _, _, last⟩ := upTo_eq_expected gaveUp
  exact tentative _ _ _ last

theorem many1 {parser : Parser α} (tentative : Tentative parser) :
    Tentative (Parser.many1 parser) :=
  bind tentative fun _ => bind (many tentative) fun _ => pure _

theorem followedBy {parser : Parser α} (tentative : Tentative parser) :
    Tentative (Parser.followedBy parser) := by
  intro input rest what gaveUp
  unfold Parser.followedBy at gaveUp
  split at gaveUp
  · cases gaveUp
  · cases gaveUp
  next failed => exact tentative _ _ _ failed

end Tentative

/-! ## Positions in phrases -/

/-- Where the parser succeeds it has consumed a phrase, and where it gives up it has
consumed the beginning of one. -/
structure Viable (parser : Parser α) (text : τ → Str) : Prop where
  whole : ∀ {input result rest}, parser input = .ok result rest →
    ∃ phrase, input = text phrase ++ rest
  begun : ∀ {input rest what}, parser input = .expected rest what →
    ∃ consumed, input = consumed ++ rest ∧ ∃ phrase, consumed <+: text phrase

namespace Viable

variable {parser : Parser α} {text : τ → Str}

/-- The same phrases in another form, and perhaps others. -/
theorem transport (viable : Viable parser text) {text' : σ → Str}
    (covers : ∀ phrase, ∃ made, text' made = text phrase) : Viable parser text' := by
  constructor
  case whole =>
    intro input result rest parsed
    obtain ⟨phrase, rfl⟩ := viable.whole parsed
    obtain ⟨made, same⟩ := covers phrase
    exact ⟨made, by rw [same]⟩
  case begun =>
    intro input rest what gaveUp
    obtain ⟨consumed, rfl, phrase, begins⟩ := viable.begun gaveUp
    obtain ⟨made, same⟩ := covers phrase
    exact ⟨consumed, rfl, made, by rwa [same]⟩

/-- A parser which never gives up. -/
theorem of_recognizes {value : τ → α} {follow : Str → Prop}
    (recognizes : Recognizes parser text value follow) (tentative : Tentative parser) :
    Viable parser text := by
  constructor
  case whole =>
    intro input result rest parsed
    obtain ⟨phrase, split, _⟩ := recognizes.sound parsed
    exact ⟨phrase, split⟩
  case begun => exact fun gaveUp => absurd gaveUp (tentative _ _ _)

theorem pure (value : α) : Viable (Pure.pure value : Parser α) (fun _ : Unit => []) := by
  constructor
  case whole =>
    intro input result rest parsed
    cases parsed
    exact ⟨(), rfl⟩
  case begun => exact fun gaveUp => absurd gaveUp (Tentative.pure value _ _ _)

theorem failure : Viable (Parser.failure : Parser α) text := ⟨nofun, nofun⟩

theorem lit (word : Str) : Viable (Parser.lit word) (fun _ : Unit => word) := by
  constructor
  case whole => exact fun parsed => ⟨(), lit_eq_ok.mp parsed⟩
  case begun => exact fun gaveUp => absurd gaveUp (Tentative.lit word _ _ _)

theorem eoi : Viable Parser.eoi (fun _ : Unit => []) := by
  constructor
  case whole =>
    intro input result rest parsed
    obtain ⟨rfl, rfl⟩ := eoi_eq_ok.mp parsed
    exact ⟨(), rfl⟩
  case begun => exact fun gaveUp => absurd gaveUp (Tentative.eoi _ _ _)

theorem satisfy (accept : UInt8 → Bool) :
    Viable (Parser.satisfy accept) (fun c : { c // accept c = true } => [c.1]) := by
  constructor
  case whole =>
    intro input result rest parsed
    obtain ⟨rfl, accepted⟩ := satisfy_eq_ok.mp parsed
    exact ⟨⟨result, accepted⟩, rfl⟩
  case begun => exact fun gaveUp => absurd gaveUp (Tentative.satisfy accept _ _ _)

theorem notFollowedBy {parser : Parser α} (tentative : Tentative parser) :
    Viable (Parser.notFollowedBy parser) (fun _ : Unit => []) := by
  constructor
  case whole =>
    intro input result rest parsed
    obtain ⟨rfl, _⟩ := notFollowedBy_eq_ok.mp parsed
    exact ⟨(), rfl⟩
  case begun =>
    intro input rest what gaveUp
    unfold Parser.notFollowedBy at gaveUp
    split at gaveUp
    · cases gaveUp
    · cases gaveUp
    next failed => exact absurd failed (tentative _ _ _)

/-- Nothing has to be consumed before an expectation point. -/
theorem expect [Nonempty τ] (viable : Viable parser text) (what : Str) :
    Viable (Parser.expect what parser) text := by
  constructor
  case whole => exact fun parsed => viable.whole (expect_eq_ok.mp parsed)
  case begun =>
    intro input rest expectation gaveUp
    rcases expect_eq_expected.mp gaveUp with inside | ⟨_, rfl, _⟩
    · exact viable.begun inside
    · obtain ⟨phrase⟩ := ‹Nonempty τ›
      exact ⟨[], rfl, phrase, List.nil_prefix⟩

/-- One phrase after another one: the second one may be anything if the first one is not
over yet. -/
theorem bind [Nonempty σ] (viable : Viable parser text) {second : α → Parser β}
    {text' : σ → Str} (further : ∀ value, Viable (second value) text') :
    Viable (parser >>= second)
      (fun phrases : τ × σ => text phrases.1 ++ text' phrases.2) := by
  constructor
  case whole =>
    intro input result rest parsed
    obtain ⟨value, _, parsedFirst, parsedSecond⟩ := bind_eq_ok.mp parsed
    obtain ⟨phrase, rfl⟩ := viable.whole parsedFirst
    obtain ⟨other, rfl⟩ := (further value).whole parsedSecond
    exact ⟨(phrase, other), by rw [List.append_assoc]⟩
  case begun =>
    intro input rest what gaveUp
    rcases bind_eq_expected.mp gaveUp with early | ⟨value, _, parsed, late⟩
    · obtain ⟨consumed, rfl, phrase, begins⟩ := viable.begun early
      obtain ⟨other⟩ := ‹Nonempty σ›
      exact ⟨consumed, rfl, (phrase, other), begins.trans (List.prefix_append _ _)⟩
    · obtain ⟨phrase, rfl⟩ := viable.whole parsed
      obtain ⟨consumed, rfl, other, begins⟩ := (further value).begun late
      refine ⟨text phrase ++ consumed, by rw [List.append_assoc], (phrase, other), ?_⟩
      exact (List.prefix_append_right_inj _).mpr begins

/-- A fixed text before a phrase. -/
theorem lit_bind [Nonempty τ] (viable : Viable parser text) (word : Str) :
    Viable (do Parser.lit word; parser) (fun phrase => word ++ text phrase) :=
  ((lit word).bind fun _ => viable).transport fun phrases => ⟨phrases.2, rfl⟩

/-- What is made of the attribute makes no difference. -/
theorem map (viable : Viable parser text) (make : α → β) :
    Viable (do let value ← parser; return make value) text :=
  (viable.bind fun value => pure (make value)).transport fun phrases =>
    ⟨phrases.1, (List.append_nil (text phrases.1)).symm⟩

theorem orElse (viable : Viable parser text) {second : Parser α} (other : Viable second text) :
    Viable (Parser.orElse parser second) text := by
  constructor
  case whole =>
    intro input result rest parsed
    rcases orElse_eq_ok.mp parsed with first | ⟨_, second⟩
    · exact viable.whole first
    · exact other.whole second
  case begun =>
    intro input rest what gaveUp
    rcases orElse_eq_expected.mp gaveUp with first | ⟨_, second⟩
    · exact viable.begun first
    · exact other.begun second

/-- The text of a phrase which may be missing. -/
def optionalText (text : τ → Str) (phrase : Option τ) : Str := phrase.elim [] text

theorem optional (viable : Viable parser text) :
    Viable (Parser.optional parser) (optionalText text) := by
  constructor
  case whole =>
    intro input result rest parsed
    rcases optional_eq_ok.mp parsed with ⟨_, _, given⟩ | ⟨_, rfl, _⟩
    · obtain ⟨phrase, rfl⟩ := viable.whole given
      exact ⟨some phrase, rfl⟩
    · exact ⟨none, rfl⟩
  case begun =>
    intro input rest what gaveUp
    obtain ⟨consumed, split, phrase, begins⟩ := viable.begun (optional_eq_expected.mp gaveUp)
    exact ⟨consumed, split, some phrase, begins⟩

theorem repeated (viable : Viable parser text) {input rest : Str} {values : List α}
    (parsed : Repeated parser input values rest) :
    ∃ phrases : List τ, input = phrases.flatMap text ++ rest := by
  induction parsed with
  | nil => exact ⟨[], rfl⟩
  | cons first _ ih =>
      obtain ⟨phrase, rfl⟩ := viable.whole first
      obtain ⟨phrases, rfl⟩ := ih
      exact ⟨phrase :: phrases, by rw [List.flatMap_cons, List.append_assoc]⟩

theorem many (viable : Viable parser text) :
    Viable (Parser.many parser) (List.flatMap text) := by
  constructor
  case whole => exact fun parsed => viable.repeated (repeated_of_upTo _ parsed)
  case begun =>
    intro input rest what gaveUp
    obtain ⟨_, _, before, last⟩ := upTo_eq_expected gaveUp
    obtain ⟨phrases, rfl⟩ := viable.repeated before
    obtain ⟨consumed, rfl, phrase, begins⟩ := viable.begun last
    refine ⟨phrases.flatMap text ++ consumed, by rw [List.append_assoc], phrases ++ [phrase], ?_⟩
    rw [List.flatMap_append, List.flatMap_singleton]
    exact (List.prefix_append_right_inj _).mpr begins

theorem many1 (viable : Viable parser text) :
    Viable (Parser.many1 parser)
      (fun phrases : τ × List τ => text phrases.1 ++ phrases.2.flatMap text) :=
  viable.bind fun first => viable.many.map (List.cons first)

theorem sepBy1 [Nonempty τ] (viable : Viable parser text) (separator : Str) :
    Viable (Parser.sepBy1 parser (Parser.lit separator))
      (fun phrases : τ × List τ =>
        text phrases.1 ++ phrases.2.flatMap fun phrase => separator ++ text phrase) :=
  viable.bind fun first => (viable.lit_bind separator).many.map (List.cons first)

/-- An operand, and possibly an operator with another one. -/
theorem operation [Nonempty σ] (viable : Viable parser text) (operator : Str)
    {second : Parser β} {text' : σ → Str} (further : Viable second text')
    (make : α → Option β → γ) :
    Viable (Parser.operation parser operator second make)
      (fun phrases : τ × Option σ =>
        text phrases.1 ++ optionalText (fun phrase => operator ++ text' phrase) phrases.2) :=
  viable.bind fun lhs => (further.lit_bind operator).optional.map (make lhs)

end Viable

end Rousette.Library.Parser
