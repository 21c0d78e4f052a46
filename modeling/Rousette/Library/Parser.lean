import Rousette.Library.Text

/-!
# Recursive descent parsers with expectation points

A parser either succeeds with an attribute and the input left over, fails (so that
an alternative may be tried from the same position), or gives up for good at an
expectation point.  The last outcome carries the input left at that point and the
name of what was expected there; no alternative is tried after it.

Sequencing is the monadic bind, an expectation point is marked by `expect`, and
the remaining combinators follow the usual PEG reading: ordered choice, greedy
repetition, and predicates which consume nothing.
-/

namespace Rousette.Library

/-- What a parser makes of an input. -/
inductive Outcome (α : Type) where
  | ok (value : α) (rest : Str)
  | fail
  | expected (rest : Str) (what : Str)
  deriving DecidableEq, Repr

/-- A parser for attributes of type `α`. -/
def Parser (α : Type) := Str → Outcome α

namespace Parser

variable {α β : Type}

/-- Succeed with the given attribute and consume nothing. -/
def attr (value : α) : Parser α := fun input => .ok value input

/-- Run the second parser on what the first one left over. -/
def andThen (first : Parser α) (second : α → Parser β) : Parser β := fun input =>
  match first input with
  | .ok value rest => second value rest
  | .fail => .fail
  | .expected rest what => .expected rest what

instance : Monad Parser where
  pure := attr
  bind := andThen

/-- Never succeed. -/
def failure : Parser α := fun _ => .fail

/-- An expectation point: failing here ends the whole parse. -/
def expect (what : Str) (parser : Parser α) : Parser α := fun input =>
  match parser input with
  | .fail => .expected input what
  | outcome => outcome

/-- Ordered choice. -/
def orElse (first second : Parser α) : Parser α := fun input =>
  match first input with
  | .fail => second input
  | outcome => outcome

/-- One octet of a class. -/
def satisfy (accept : UInt8 → Bool) : Parser UInt8
  | [] => .fail
  | c :: rest => if accept c then .ok c rest else .fail

/-- A fixed text. -/
def lit : Str → Parser Unit
  | [], input => .ok () input
  | _ :: _, [] => .fail
  | c :: text, d :: rest => if c = d then lit text rest else .fail

/-- A fixed text in any letter case. The text itself is in lower case. -/
def litNoCase : Str → Parser Unit
  | [], input => .ok () input
  | _ :: _, [] => .fail
  | c :: text, d :: rest =>
      if c = Ascii.toLower d then litNoCase text rest else .fail

/-- The end of the input. -/
def eoi : Parser Unit
  | [] => .ok () []
  | _ :: _ => .fail

/-- Succeed without consuming anything if the parser would succeed. -/
def followedBy (parser : Parser α) : Parser Unit := fun input =>
  match parser input with
  | .ok _ _ => .ok () input
  | .fail => .fail
  | .expected rest what => .expected rest what

/-- Succeed without consuming anything if the parser would fail. -/
def notFollowedBy (parser : Parser α) : Parser Unit := fun input =>
  match parser input with
  | .ok _ _ => .fail
  | .fail => .ok () input
  | .expected rest what => .expected rest what

/-- Zero or one occurrence. -/
def optional (parser : Parser α) : Parser (Option α) := fun input =>
  match parser input with
  | .ok value rest => .ok (some value) rest
  | .fail => .ok none input
  | .expected rest what => .expected rest what

/-- At most `bound` occurrences, as many as there are. -/
def upTo (parser : Parser α) : Nat → Parser (List α)
  | 0, input => .ok [] input
  | bound + 1, input =>
      match parser input with
      | .ok value rest =>
          match upTo parser bound rest with
          | .ok values tail => .ok (value :: values) tail
          | .fail => .fail
          | .expected tail what => .expected tail what
      | .fail => .ok [] input
      | .expected rest what => .expected rest what

/-- Zero or more occurrences.  Every parser repeated here consumes something, so
the length of the input bounds the number of occurrences. -/
def many (parser : Parser α) : Parser (List α) := fun input =>
  upTo parser (input.length + 1) input

/-- One or more occurrences. -/
def many1 (parser : Parser α) : Parser (List α) := do
  let first ← parser
  let others ← many parser
  return first :: others

/-- One or more occurrences with a separator between them.  A separator which is
not followed by an element is not consumed. -/
def sepBy1 (parser : Parser α) (separator : Parser β) : Parser (List α) := do
  let first ← parser
  let others ← many (do let _ ← separator; parser)
  return first :: others

/-- Exactly `count` occurrences. -/
def replicate (parser : Parser α) : Nat → Parser (List α)
  | 0 => attr []
  | count + 1 => do
      let first ← parser
      let others ← replicate parser count
      return first :: others

@[simp] theorem pure_apply (value : α) (input : Str) :
    (pure value : Parser α) input = .ok value input := rfl

theorem bind_apply (first : Parser α) (second : α → Parser β) (input : Str) :
    (first >>= second) input =
      match first input with
      | .ok value rest => second value rest
      | .fail => .fail
      | .expected rest what => .expected rest what := rfl

/-- A sequence of two parsers succeeds exactly when both do. -/
theorem bind_eq_ok {first : Parser α} {second : α → Parser β} {input rest : Str}
    {result : β} :
    (first >>= second) input = .ok result rest ↔
      ∃ value middle, first input = .ok value middle ∧
        second value middle = .ok result rest := by
  rw [bind_apply]
  cases first input with
  | ok value middle => simp
  | fail => simp
  | expected rest what => simp

/-- Greedy repetition of a character class splits the input. -/
theorem upTo_satisfy (accept : UInt8 → Bool) (bound : Nat) (input : Str)
    (enough : input.length ≤ bound) :
    upTo (satisfy accept) bound input =
      .ok (input.takeWhile accept) (input.dropWhile accept) := by
  induction bound generalizing input with
  | zero =>
      have empty : input = [] := List.length_eq_zero_iff.mp (Nat.le_zero.mp enough)
      subst empty
      rfl
  | succ bound ih =>
      cases input with
      | nil => rfl
      | cons c rest =>
          by_cases accepted : accept c
          · have tail := ih rest (Nat.le_of_succ_le_succ enough)
            simp [upTo, satisfy, accepted, tail]
          · simp [upTo, satisfy, accepted]

@[simp] theorem many_satisfy (accept : UInt8 → Bool) (input : Str) :
    many (satisfy accept) input =
      .ok (input.takeWhile accept) (input.dropWhile accept) :=
  upTo_satisfy accept _ input (Nat.le_succ _)

/-- A literal is a prefix of what it accepts. -/
theorem lit_eq_ok {text input rest : Str} {value : Unit} :
    lit text input = .ok value rest ↔ input = text ++ rest := by
  induction text generalizing input with
  | nil => simp [lit]
  | cons c text ih =>
      cases input with
      | nil => simp [lit]
      | cons d input =>
          by_cases same : c = d
          · subst same
            simp [lit, ih]
          · simp [lit, same, Ne.symm same]

/-- A literal in any letter case is, in lower case, a prefix of what it accepts. -/
theorem litNoCase_eq_ok {text input rest : Str} {value : Unit} :
    litNoCase text input = .ok value rest ↔
      ∃ word, input = word ++ rest ∧ word.map Ascii.toLower = text := by
  induction text generalizing input with
  | nil => simp [litNoCase]
  | cons c text ih =>
      cases input with
      | nil => simp [litNoCase]
      | cons d input =>
          by_cases same : c = Ascii.toLower d
          · simp only [litNoCase, same, if_true, ih]
            constructor
            · rintro ⟨word, rfl, rfl⟩
              exact ⟨d :: word, rfl, rfl⟩
            · rintro ⟨word, split, lower⟩
              cases word with
              | nil => simp at lower
              | cons e word =>
                  simp only [List.cons_append, List.cons.injEq] at split
                  simp only [List.map_cons, List.cons.injEq] at lower
                  exact ⟨word, split.2, lower.2⟩
          · simp only [litNoCase, same, if_false, reduceCtorEq, false_iff]
            rintro ⟨word, split, lower⟩
            cases word with
            | nil => simp at lower
            | cons e word =>
                simp only [List.cons_append, List.cons.injEq] at split
                simp only [List.map_cons, List.cons.injEq] at lower
                exact same (split.1 ▸ lower.1.symm)

theorem eoi_eq_ok {input rest : Str} {value : Unit} :
    eoi input = .ok value rest ↔ input = [] ∧ rest = [] := by
  cases input with
  | nil => simp [eoi, eq_comm]
  | cons c input => simp [eoi]

/-- Repeating one octet up to the end of the input. -/
theorem upTo_lit_eoi {c : UInt8} {bound : Nat} {input : Str} :
    (∃ values, upTo (lit [c]) bound input = .ok values []) ↔
      ∃ count ≤ bound, input = List.replicate count c := by
  induction bound generalizing input with
  | zero => simp [upTo]
  | succ bound ih =>
      cases input with
      | nil =>
          simp only [upTo, lit, Outcome.ok.injEq, and_true, exists_eq', true_iff]
          exact ⟨0, Nat.zero_le _, rfl⟩
      | cons d input =>
          by_cases same : c = d
          · subst same
            have step : (∃ values, upTo (lit [c]) (bound + 1) (c :: input) = .ok values []) ↔
                ∃ values, upTo (lit [c]) bound input = .ok values [] := by
              simp only [upTo, lit, if_true]
              cases upTo (lit [c]) bound input with
              | ok values rest => simp
              | fail => simp
              | expected rest what => simp
            rw [step, ih]
            constructor
            · rintro ⟨count, le, rfl⟩
              exact ⟨count + 1, Nat.succ_le_succ le, rfl⟩
            · rintro ⟨count, le, split⟩
              cases count with
              | zero => simp at split
              | succ count =>
                  simp only [List.replicate_succ, List.cons.injEq, true_and] at split
                  exact ⟨count, Nat.le_of_succ_le_succ le, split⟩
          · simp only [upTo, lit, same, if_false, Outcome.ok.injEq, reduceCtorEq, and_false,
              exists_const, false_iff]
            rintro ⟨count, le, split⟩
            cases count with
            | zero => simp at split
            | succ count =>
                simp only [List.replicate_succ, List.cons.injEq] at split
                exact same split.1.symm

/-- How a repetition goes through its input. -/
inductive Repeated (parser : Parser α) : Str → List α → Str → Prop where
  | nil (input : Str) : Repeated parser input [] input
  | cons {input middle rest : Str} {value : α} {values : List α} :
      parser input = .ok value middle → Repeated parser middle values rest →
      Repeated parser input (value :: values) rest

theorem repeated_of_upTo {parser : Parser α} (bound : Nat) {input rest : Str} {values : List α}
    (parsed : upTo parser bound input = .ok values rest) : Repeated parser input values rest := by
  induction bound generalizing input values with
  | zero =>
      cases parsed
      exact .nil _
  | succ bound ih =>
      simp only [upTo] at parsed
      cases first : parser input with
      | fail =>
          simp only [first] at parsed
          cases parsed
          exact .nil _
      | expected left what => simp [first] at parsed
      | ok value left =>
          simp only [first] at parsed
          cases others : upTo parser bound left with
          | fail => simp [others] at parsed
          | expected left what => simp [others] at parsed
          | ok more left =>
              simp only [others] at parsed
              cases parsed
              exact .cons first (ih others)

/-! ## What attributes a parser yields -/

/-- Whatever the input is, an attribute which the parser succeeds with has the property. -/
def Yields (property : α → Prop) (parser : Parser α) : Prop :=
  ∀ input value rest, parser input = .ok value rest → property value

namespace Yields

variable {property : α → Prop}

theorem trivial (parser : Parser α) : Yields (fun _ => True) parser :=
  fun _ _ _ _ => True.intro

theorem pure {value : α} (holds : property value) :
    Yields property (Pure.pure value : Parser α) := by
  intro input result rest parsed
  cases parsed
  exact holds

theorem bind {property : β → Prop} {first : Parser α} {second : α → Parser β}
    {middle : α → Prop} (yieldsFirst : Yields middle first)
    (yieldsSecond : ∀ value, middle value → Yields property (second value)) :
    Yields property (first >>= second) := by
  intro input result rest parsed
  obtain ⟨value, between, before, after⟩ := bind_eq_ok.mp parsed
  exact yieldsSecond value (yieldsFirst input value between before) between result rest after

/-- The attribute of the first parser does not matter. -/
theorem bind_any {property : β → Prop} {first : Parser α} {second : α → Parser β}
    (yields : ∀ value, Yields property (second value)) : Yields property (first >>= second) :=
  bind (trivial first) fun value _ => yields value

theorem orElse {first second : Parser α} (yieldsFirst : Yields property first)
    (yieldsSecond : Yields property second) : Yields property (Parser.orElse first second) := by
  intro input value rest parsed
  unfold Parser.orElse at parsed
  split at parsed
  · exact yieldsSecond input value rest parsed
  · exact yieldsFirst input value rest parsed

theorem many {parser : Parser α} (yields : Yields property parser) :
    Yields (fun values => ∀ value ∈ values, property value) (Parser.many parser) := by
  intro input values rest parsed
  have repeated := repeated_of_upTo _ parsed
  clear parsed
  induction repeated with
  | nil => simp
  | @cons input _ _ value _ first _ ih =>
      exact List.forall_mem_cons.mpr ⟨yields input value _ first, ih⟩

theorem optional {parser : Parser α} (yields : Yields property parser) :
    Yields (fun result => ∀ value ∈ result, property value) (Parser.optional parser) := by
  intro input result rest parsed
  unfold Parser.optional at parsed
  split at parsed
  next value rest first =>
    cases parsed
    exact fun _ same => Option.some.inj same ▸ yields input value rest first
  · cases parsed
    exact nofun
  · cases parsed

theorem sepBy1 {parser : Parser α} {separator : Parser β} (yields : Yields property parser) :
    Yields (fun values => ∀ value ∈ values, property value) (Parser.sepBy1 parser separator) := by
  refine .bind yields fun first isFirst => ?_
  refine .bind (.many (.bind_any fun _ => yields)) fun others areOthers => .pure ?_
  exact List.forall_mem_cons.mpr ⟨isFirst, areOthers⟩

theorem expect {what : Str} {parser : Parser α} (yields : Yields property parser) :
    Yields property (Parser.expect what parser) := by
  intro input value rest parsed
  unfold Parser.expect at parsed
  split at parsed
  · cases parsed
  · exact yields input value rest parsed

end Yields

end Parser

end Rousette.Library
