import Rousette.Restconf.QueryRecognition
import Rousette.Restconf.UriViability

/-!
# Positions of errors in request URIs

The rules for the values of query parameters give up at the end of the beginning of a phrase
as well.  So the position in a syntax error, of a path or of a query string, is never behind
the first octet which cannot be right.
-/

namespace Rousette.Restconf

open Library

namespace Impl

namespace Grammar

open Parser QueryParams

/-! ## Dates -/

instance Digits.instInhabited (count : Nat) : Inhabited (Digits count) where
  default := ⟨List.replicate count (chr '0'), List.length_replicate, fun c member => by
    rw [List.eq_of_mem_replicate member]
    rfl⟩

theorem viable_char (c : Char) : Viable (char c) (fun _ : Unit => [chr c]) :=
  (Viable.satisfy _).transport fun d => ⟨(), by rw [beq_iff_eq.mp d.2]⟩

theorem viable_digit : Viable digit (Digits.text : Digits 1 → Str) :=
  (Viable.satisfy _).transport fun c => ⟨⟨[c.1], rfl, by simp [c.2]⟩, rfl⟩

/-- Digits after other ones. -/
def Digits.append {count further : Nat} (digits : Digits count) (others : Digits further) :
    Digits (count + further) where
  text := digits.text ++ others.text
  length := by rw [List.length_append, digits.length, others.length]
  areDigits := List.forall_mem_append.mpr ⟨digits.areDigits, others.areDigits⟩

theorem viable_digits (what : Str) (count : Nat) :
    Viable (replicate (expect what digit) count) (Digits.text : Digits count → Str) := by
  induction count with
  | zero => exact (Viable.pure []).transport fun _ => ⟨⟨[], rfl, List.forall_mem_nil _⟩, rfl⟩
  | succ count ih =>
      apply ((viable_digit.expect what).bind fun first => ih.map (List.cons first)).transport
      rintro ⟨first, others⟩
      refine ⟨⟨_, ?_, (first.append others).areDigits⟩, rfl⟩
      rw [(first.append others).length, Nat.add_comm]

theorem viable_year : Viable year (Digits.text : Digits 4 → Str) := by
  have others (first : UInt8) := (viable_digits (str "digit") 3).map (List.cons first)
  apply (viable_digit.bind others).transport
  rintro ⟨first, others⟩
  exact ⟨first.append others, rfl⟩

theorem viable_twoDigits : Viable twoDigits (Digits.text : Digits 2 → Str) := by
  have second (first : UInt8) :=
    (viable_digit.expect (str "digit")).map fun second => [first, second]
  apply (viable_digit.bind second).transport
  rintro ⟨first, second⟩
  exact ⟨first.append second, rfl⟩

theorem viable_date :
    Viable date (fun day : Digits 4 × Digits 2 × Digits 2 =>
      day.1.text ++ str "-" ++ day.2.1.text ++ str "-" ++ day.2.2.text) := by
  have dash := (viable_char '-').expect (str "'-'")
  have month := viable_twoDigits.expect (str "month")
  have day := viable_twoDigits.expect (str "day")
  apply (viable_year.bind fun y => dash.bind fun d => month.bind fun m => dash.bind fun d' =>
    day.map fun last => y ++ [d] ++ m ++ [d'] ++ last).transport
  rintro ⟨y, _, m, _, d⟩
  exact ⟨(y, m, d), by simp [str, chr]⟩

theorem viable_timeHHMM :
    Viable timeHHMM (fun clock : Digits 2 × Digits 2 =>
      clock.1.text ++ str ":" ++ clock.2.text) := by
  have colon := (viable_char ':').expect (str "':'")
  have minute := viable_twoDigits.expect (str "minute")
  apply (viable_twoDigits.bind fun hour => colon.bind fun c => minute.map fun m =>
    hour ++ [c] ++ m).transport
  rintro ⟨h, _, m⟩
  exact ⟨(h, m), by simp [str, chr]⟩

theorem viable_time :
    Viable time (fun clock : (Digits 2 × Digits 2) × Digits 2 =>
      clock.1.1.text ++ str ":" ++ clock.1.2.text ++ str ":" ++ clock.2.text) := by
  have colon := (viable_char ':').expect (str "':'")
  have second := viable_twoDigits.expect (str "second")
  apply (viable_timeHHMM.bind fun minutes => colon.bind fun c => second.map fun s =>
    minutes ++ [c] ++ s).transport
  rintro ⟨minutes, _, s⟩
  exact ⟨(minutes, s), by simp [str, chr]⟩

instance Fraction.instInhabited : Inhabited Fraction :=
  ⟨⟨[chr '0'], List.cons_ne_nil _ _, List.forall_mem_singleton.mpr rfl⟩⟩

theorem viable_timeMs : Viable timeMs (fun fraction : Fraction => str "." ++ fraction.text) := by
  have digits : Viable (many1 digit) Fraction.text := by
    apply viable_digit.many1.transport
    rintro ⟨first, others⟩
    have some : first.text ++ others.flatMap Digits.text ≠ [] := by
      have length := first.length
      intro empty
      rw [(List.append_eq_nil_iff.mp empty).1] at length
      cases length
    refine ⟨⟨_, some, List.forall_mem_append.mpr ⟨first.areDigits, ?_⟩⟩, rfl⟩
    intro c member
    obtain ⟨other, _, inside⟩ := List.mem_flatMap.mp member
    exact other.areDigits c inside
  apply ((viable_char '.').bind fun dot => (digits.expect (str "digits")).map
    (List.cons dot)).transport
  exact fun phrases => ⟨phrases.2, rfl⟩

instance Timezone.instInhabited : Inhabited Timezone := ⟨.zulu⟩

theorem viable_timezone : Viable timezone Timezone.text := by
  apply Viable.orElse
  · exact ((viable_char 'Z').map fun zulu => [zulu]).transport fun _ => ⟨.zulu, rfl⟩
  · have plus : Viable (char '+') (fun negative : Bool => if negative then str "-" else str "+") :=
      (viable_char '+').transport fun _ => ⟨false, rfl⟩
    have minus : Viable (char '-') (fun negative : Bool => if negative then str "-" else str "+") :=
      (viable_char '-').transport fun _ => ⟨true, rfl⟩
    apply ((plus.orElse minus).bind fun sign => (viable_timeHHMM.expect (str "HH:mm")).map
      (List.cons sign)).transport
    rintro ⟨negative, hour, minute⟩
    refine ⟨.offset negative hour minute, ?_⟩
    simp only [Timezone.text, List.append_assoc]

instance DateAndTime.instInhabited : Inhabited DateAndTime :=
  ⟨⟨default, default, default, default, default, default, none, default⟩⟩

theorem viable_dateAndTime : Viable dateAndTime DateAndTime.text := by
  have separator := (viable_char 'T').expect (str "'T'")
  have clock := (viable_time.bind fun seconds => viable_timeMs.optional.map fun fraction =>
    seconds ++ fraction.getD []).expect (str "time")
  have zone := viable_timezone.expect (str "timezone")
  apply (viable_date.bind fun d => separator.bind fun c => clock.bind fun t => zone.map fun z =>
    d ++ [c] ++ t ++ z).transport
  rintro ⟨⟨y, m, d⟩, _, ⟨⟨⟨hour, minute⟩, second⟩, fraction⟩, timezone⟩
  refine ⟨⟨y, m, d, hour, minute, second, fraction, timezone⟩, ?_⟩
  have sameFraction : fractionText fraction =
      Viable.optionalText (fun fraction : Fraction => str "." ++ fraction.text) fraction := by
    cases fraction <;> rfl
  simp [DateAndTime.text, sameFraction, str, chr]

/-! ## Numbers and words -/

theorem tentative_uint : Tentative uint := by
  intro input rest what gaveUp
  unfold uint at gaveUp
  split at gaveUp
  · split at gaveUp <;> cases gaveUp
  · cases gaveUp
  next failed => exact Tentative.many1 (.satisfy _) _ _ _ failed

theorem tentative_depthParam : Tentative depthParam := by
  have valid : Tentative validDepthValues := by
    intro input rest what gaveUp
    unfold validDepthValues at gaveUp
    split at gaveUp
    · split at gaveUp <;> cases gaveUp
    · cases gaveUp
    next failed => exact tentative_uint _ _ _ failed
  exact .orElse valid (.bind (.lit _) fun _ => .pure _)

theorem tentative_symbols (table : List (String × QueryParamValue)) :
    Tentative (symbols table) := by
  induction table with
  | nil =>
      intro _ _ _ gaveUp
      cases gaveUp
  | cons word table ih => exact .orElse (.bind (.lit _) fun _ => .pure _) ih

/-! ## Fields -/

instance FieldsPhrase.instInhabited : (level : FieldsLevel) → Inhabited (FieldsPhrase level)
  | .slash => ⟨.name default⟩
  | .paren => ⟨.path (.name default)⟩
  | .semi => ⟨.single (.path (.name default))⟩

theorem viable_fieldsSlash (fuel : Nat) :
    Viable (fieldsSlash fuel) (FieldsPhrase.text : FieldsPhrase .slash → Str) := by
  induction fuel with
  | zero => exact Viable.failure
  | succ fuel ih =>
      rw [fieldsSlash_succ]
      apply (viable_apiIdentifier.operation (str "/") (ih.expect _) _).transport
      rintro ⟨ident, rhs⟩
      cases rhs with
      | none => exact ⟨.name ident, (List.append_nil _).symm⟩
      | some rhs => exact ⟨.slash ident rhs, List.append_assoc _ _ _⟩

/-- The fuel may depend on the input. -/
theorem viable_fieldsSlash_length :
    Viable (fun input => fieldsSlash (input.length + 1) input)
      (FieldsPhrase.text : FieldsPhrase .slash → Str) :=
  ⟨fun parsed => (viable_fieldsSlash _).whole parsed,
    fun gaveUp => (viable_fieldsSlash _).begun gaveUp⟩

theorem viable_fields (fuel : Nat) :
    Viable (fieldsSemi fuel) (FieldsPhrase.text : FieldsPhrase .semi → Str) ∧
      Viable (fieldsParen fuel) (FieldsPhrase.text : FieldsPhrase .paren → Str) := by
  induction fuel with
  | zero => exact ⟨Viable.failure, Viable.failure⟩
  | succ fuel ih =>
      constructor
      case left =>
        rw [fieldsSemi_succ]
        apply (ih.2.operation (str ";") (ih.1.expect _) _).transport
        rintro ⟨lhs, rhs⟩
        cases rhs with
        | none => exact ⟨.single lhs, (List.append_nil _).symm⟩
        | some rhs => exact ⟨.semi lhs rhs, List.append_assoc _ _ _⟩
      case right =>
        rw [fieldsParen_succ]
        have closing := (Viable.lit (str ")")).expect (str "')'")
        have inner : Viable (parenthesized fuel)
            (fun phrases : FieldsPhrase .semi × Unit => phrases.1.text ++ str ")") :=
          (ih.1.expect (str "fieldsExpr")).bind fun inner => closing.map fun _ => inner
        apply (viable_fieldsSlash_length.operation (str "(") inner _).transport
        rintro ⟨lhs, rhs⟩
        cases rhs with
        | none => exact ⟨.path lhs, (List.append_nil _).symm⟩
        | some rhs =>
            refine ⟨.paren lhs rhs.1, ?_⟩
            simp only [FieldsPhrase.text, Viable.optionalText, Option.elim_some,
              List.append_assoc]

theorem viable_fieldsExpr :
    Viable fieldsExpr (FieldsPhrase.text : FieldsPhrase .semi → Str) :=
  ⟨fun parsed => (viable_fields _).1.whole parsed, fun gaveUp => (viable_fields _).1.begun gaveUp⟩

/-! ## Parameters -/

/-- What may stand behind the name of a parameter and the equals sign. -/
abbrev ValueOf (name : String) :=
  { text : Str // ∃ phrase : ParamPhrase, str name ++ (str "=" ++ text) = phrase.text }

theorem viable_param {name : String} {value : Parser QueryParamValue}
    (viable : Viable value (Subtype.val : ValueOf name → Str)) (some : ValueOf name)
    (what : Str) : Viable (param name what value) ParamPhrase.text := by
  have nonempty : Nonempty (ValueOf name) := ⟨some⟩
  have equals := (Viable.lit (str "=")).expect (str "'='")
  apply ((equals.bind fun _ => (viable.expect what).map (Prod.mk (str name))).lit_bind
    (str name)).transport
  rintro ⟨_, text, phrase, split⟩
  exact ⟨phrase, split.symm⟩

theorem viable_depthParam :
    Viable depthParam (Subtype.val : ValueOf "depth" → Str) := by
  constructor
  case whole =>
    intro input result rest parsed
    rcases depthParam_sound parsed with ⟨zeros, value, inRange, _, rfl⟩ | ⟨rfl, _⟩
    · exact ⟨⟨_, .depth zeros value inRange, rfl⟩, rfl⟩
    · exact ⟨⟨_, .unboundedDepth, rfl⟩, rfl⟩
  case begun =>
    intro input rest what gaveUp
    exact absurd gaveUp (tentative_depthParam input rest what)

theorem viable_symbols {name : String} {table : List (String × QueryParamValue)}
    (known : ∀ word ∈ table, ∃ phrase : ParamPhrase,
      str name ++ (str "=" ++ str word.1) = phrase.text) :
    Viable (symbols table) (Subtype.val : ValueOf name → Str) := by
  constructor
  case whole =>
    intro input result rest parsed
    obtain ⟨word, member, split, _⟩ := symbols_sound parsed
    exact ⟨⟨str word.1, known word member⟩, split⟩
  case begun =>
    intro input rest what gaveUp
    exact absurd gaveUp (tentative_symbols table input rest what)

theorem viable_filter :
    Viable filter (fun octets : Octet isFilterChar × List (Octet isFilterChar) =>
      octets.1.text ++ octets.2.flatMap Octet.text) :=
  (viable_octet isFilterChar_iff).many1

theorem viable_queryParamPair : Viable queryParamPair ParamPhrase.text := by
  have trim : ("trim", QueryParamValue.trim) ∈ withDefaultsWords := .head _
  have all : ("all", QueryParamValue.allNodes) ∈ contentWords := .head _
  have first : ("first", QueryParamValue.first) ∈ insertWords := .head _
  have octet : Octet isFilterChar := .encoded (chr '0') (chr '0') rfl rfl
  apply Viable.orElse
  · exact viable_param viable_depthParam ⟨_, .unboundedDepth, rfl⟩ _
  apply Viable.orElse
  · apply viable_param _ ⟨_, .withDefaults _ trim, rfl⟩
    apply viable_symbols
    intro word member
    refine ⟨.withDefaults word ?_, rfl⟩
    simp only [List.mem_cons, List.not_mem_nil, or_false] at member
    simp only [withDefaultsWords, List.mem_cons, List.not_mem_nil, or_false]
    rcases member with rfl | rfl | rfl | rfl <;> simp
  apply Viable.orElse
  · apply viable_param _ ⟨_, .content _ all, rfl⟩
    apply viable_symbols
    exact fun word member => ⟨.content word member, rfl⟩
  apply Viable.orElse
  · apply viable_param _ ⟨_, .insert _ first, rfl⟩
    apply viable_symbols
    exact fun word member => ⟨.insert word member, rfl⟩
  apply Viable.orElse
  · apply viable_param _ ⟨_, .point .empty, rfl⟩
    apply (viable_uriPath.map QueryParamValue.pointParsed).transport
    exact fun path => ⟨⟨_, .point path, rfl⟩, rfl⟩
  apply Viable.orElse
  · apply viable_param _ ⟨_, .filter [octet] (List.cons_ne_nil _ _), rfl⟩
    apply (viable_filter.map QueryParamValue.text).transport
    intro octets
    exact ⟨⟨_, .filter (octets.1 :: octets.2) (List.cons_ne_nil _ _), rfl⟩, rfl⟩
  apply Viable.orElse
  · apply viable_param _ ⟨_, .startTime default, rfl⟩
    apply (viable_dateAndTime.map QueryParamValue.text).transport
    exact fun time => ⟨⟨_, .startTime time, rfl⟩, rfl⟩
  apply Viable.orElse
  · apply viable_param _ ⟨_, .stopTime default, rfl⟩
    apply (viable_dateAndTime.map QueryParamValue.text).transport
    exact fun time => ⟨⟨_, .stopTime time, rfl⟩, rfl⟩
  · apply viable_param _ ⟨_, .fields default, rfl⟩
    apply (viable_fieldsExpr.map QueryParamValue.fields).transport
    exact fun expr => ⟨⟨_, .fields expr, rfl⟩, rfl⟩

/-! ## Query strings -/

/-- The parameters of a query string. -/
abbrev Params := { params : List ParamPhrase // EmptyPointLast params }

/-- Behind a point without segments there is nothing, so it is none of the parameters which
something comes after. -/
theorem furtherParams_before {input rest : Str} {results : List (Str × QueryParamValue)}
    (repeated : Repeated furtherParam input results rest) :
    ∃ params, input = furtherText params ++ rest ∧
      ∀ param ∈ params, param.isEmptyPoint = true → rest = [] := by
  induction repeated with
  | nil => exact ⟨[], rfl, List.forall_mem_nil _⟩
  | @cons input middle rest _ _ first _ ih =>
      obtain ⟨param, rfl, _, last⟩ := furtherParam_sound first
      obtain ⟨params, rfl, lastFurther⟩ := ih
      refine ⟨param :: params, ?_, List.forall_mem_cons.mpr ⟨?_, lastFurther⟩⟩
      · simp [furtherText]
      · exact fun empty => (List.append_eq_nil_iff.mp (last empty)).2

/-- Parameters may be followed by another one if none of them is a point without segments. -/
theorem emptyPointLast_append {params : List ParamPhrase} (param : ParamPhrase)
    (none : ∀ param ∈ params, param.isEmptyPoint = false) :
    EmptyPointLast (params ++ [param]) := by
  induction params with
  | nil => exact ⟨fun _ => rfl, trivial⟩
  | cons other params ih =>
      obtain ⟨first, others⟩ := List.forall_mem_cons.mp none
      refine ⟨fun empty => ?_, ih others⟩
      rw [first] at empty
      cases empty

theorem furtherText_append (params : List ParamPhrase) (param : ParamPhrase) :
    furtherText (params ++ [param]) = furtherText params ++ (str "&" ++ param.text) := by
  rw [furtherText, List.flatMap_append, List.flatMap_singleton]
  rfl

instance ParamPhrase.instInhabited : Inhabited ParamPhrase := ⟨.unboundedDepth⟩

theorem viable_furtherParam :
    Viable furtherParam (fun param : ParamPhrase => str "&" ++ param.text) :=
  (viable_queryParamPair.expect _).lit_bind _

theorem furtherParams_begun {bound : Nat} {input rest what : Str}
    (gaveUp : upTo furtherParam bound input = .expected rest what) :
    ∃ consumed params param, input = consumed ++ rest ∧ input ≠ [] ∧
      (∀ param ∈ params, ParamPhrase.isEmptyPoint param = false) ∧
      consumed <+: furtherText (params ++ [param]) := by
  obtain ⟨_, middle, before, last⟩ := upTo_eq_expected gaveUp
  obtain ⟨params, rfl, lastBefore⟩ := furtherParams_before before
  obtain ⟨consumed, rfl, param, begins⟩ := viable_furtherParam.begun last
  have some : consumed ++ rest ≠ [] := by
    intro empty
    rw [empty] at last
    cases last
  refine ⟨furtherText params ++ consumed, params, param, by rw [List.append_assoc], ?_, ?_, ?_⟩
  · exact fun empty => some (List.append_eq_nil_iff.mp empty).2
  · intro param member
    exact Bool.eq_false_iff.mpr fun empty => some (lastBefore param member empty)
  · rw [furtherText_append]
    exact (List.prefix_append_right_inj _).mpr begins

theorem viable_queryParamGrammar :
    Viable queryParamGrammar (fun params : Params => queryText params.1) := by
  have nonempty : Nonempty Params := ⟨⟨[], trivial⟩⟩
  apply Viable.expect
  constructor
  case whole =>
    intro input result rest parsed
    obtain ⟨params, split, _, last⟩ := queryParamMaybeEmpty_sound parsed
    exact ⟨⟨params, last⟩, split⟩
  case begun =>
    intro input rest what gaveUp
    rcases orElse_eq_expected.mp gaveUp with empty | ⟨_, list⟩
    · have tentative : Tentative queryParamEmpty := .bind (.followedBy .eoi) fun _ => .pure _
      exact absurd empty (tentative input rest what)
    rcases bind_eq_expected.mp list with early | ⟨_, _, first, continued⟩
    · obtain ⟨consumed, rfl, param, begins⟩ := viable_queryParamPair.begun early
      exact ⟨consumed, rfl, ⟨[param], fun _ => rfl, trivial⟩, begins⟩
    rcases bind_eq_expected.mp continued with further | ⟨_, _, _, finished⟩
    · obtain ⟨param, rfl, _, last⟩ := queryParamPair_sound first
      obtain ⟨consumed, params, next, split, some, none, begins⟩ := furtherParams_begun further
      have noneFirst : param.isEmptyPoint = false :=
        Bool.eq_false_iff.mpr fun empty => some (last empty)
      have onlyLast : EmptyPointLast (param :: (params ++ [next])) :=
        emptyPointLast_append next (List.forall_mem_cons.mpr ⟨noneFirst, none⟩)
      refine ⟨param.text ++ consumed, by rw [split, List.append_assoc], ⟨_, onlyLast⟩, ?_⟩
      have text := queryText_cons param (params ++ [next])
      exact text ▸ (List.prefix_append_right_inj _).mpr begins
    · cases finished

end Grammar

/-! ## Positions -/

section Positions

variable {α : Type}

/-- Some text which begins like this is accepted. -/
def Extensible (parser : Str → Except Exception α) (text : Str) : Prop :=
  ∃ more value, parser (text ++ more) = .ok value

/-- There is nothing wrong with the input before the position: the position is in the input,
some accepted text begins like the input up to it, and so it is not behind the first octet
which cannot be right. -/
structure ViablePosition (parser : Str → Except Exception α) (input : Str) (position : Nat) :
    Prop where
  inside : position ≤ input.length
  extensible : Extensible parser (input.take position)
  notAfter : ∀ index, ¬Extensible parser (input.take (index + 1)) → position ≤ index

/-- What begins like an extensible text is extensible. -/
theorem Extensible.take {parser : Str → Except Exception α} {text : Str}
    (extensible : Extensible parser text) (count : Nat) :
    Extensible parser (text.take count) := by
  obtain ⟨more, value, parsed⟩ := extensible
  refine ⟨text.drop count ++ more, value, ?_⟩
  rwa [← List.append_assoc, List.take_append_drop]

theorem ViablePosition.of_extensible {parser : Str → Except Exception α} {input : Str}
    {position : Nat} (inside : position ≤ input.length)
    (extensible : Extensible parser (input.take position)) :
    ViablePosition parser input position := by
  refine ⟨inside, extensible, ?_⟩
  intro index offending
  by_contra after
  have less : index + 1 ≤ position := Nat.not_le.mp after
  have shorter := extensible.take (index + 1)
  rw [List.take_take, Nat.min_eq_left less] at shorter
  exact offending shorter

/-- The position which a syntax error reports is the one where the grammar has given up, or
where it has found more than it knows. -/
theorem parse_viablePosition {τ : Type} {uriSegment : Str} {grammar : Parser α} {text : τ → Str}
    (viable : Parser.Viable grammar text)
    (accepted : ∀ phrase, ∃ value, grammar (text phrase) = .ok value [])
    {input what : Str} {positionOffset offset : Nat}
    (rejected : parse uriSegment grammar input positionOffset =
      .error (.errorResponse (.uriSyntaxErrorAt uriSegment offset what))) :
    ∃ position, offset = position + positionOffset ∧
      ViablePosition (parse uriSegment grammar · positionOffset) input position := by
  have whole := (viable.bind fun value =>
    (Parser.Viable.eoi.expect (str "eoi")).map fun _ => value).transport
      fun phrases => ⟨phrases.1, (List.append_nil (text phrases.1)).symm⟩
  simp only [parse] at rejected
  split at rejected
  · cases rejected
  · -- this error tells no position
    have info := congrArg ErrorResponse.errorInfo (Exception.errorResponse.inj
      (Except.error.inj rejected))
    cases info
  next rest expectation gaveUp =>
    have info := congrArg ErrorResponse.errorInfo (Exception.errorResponse.inj
      (Except.error.inj rejected))
    obtain ⟨consumed, rfl, phrase, more, begins⟩ := whole.begun gaveUp
    simp only [ErrorResponse.uriSyntaxErrorAt, Option.some.injEq, ErrorInfo.mk.injEq,
      List.cons.injEq, Prod.mk.injEq, true_and] at info
    have position := Grammar.decimal_injective info.1
    rw [List.length_append, Nat.add_sub_cancel] at position
    refine ⟨consumed.length, position.symm, ?_⟩
    apply ViablePosition.of_extensible
    · rw [List.length_append]
      exact Nat.le_add_right _ _
    · obtain ⟨value, parsed⟩ := accepted phrase
      rw [List.take_left]
      exact ⟨more, value, parse_eq_ok_iff.mpr (begins ▸ parsed)⟩

end Positions

/-- A syntax error in the path of a request, or in its query string, is reported at a viable
position: nothing before it is wrong.  In a query string the position is counted from the
beginning of the path. -/
theorem syntaxError_viablePosition :
    (∀ input offset what, parseUriPath input =
        .error (.errorResponse (.uriSyntaxErrorAt (str "path") offset what)) →
      ViablePosition parseUriPath input offset) ∧
    ∀ (uriPath querystring : Str) offset what,
      parseQueryParams querystring (uriPath.length + 1) =
        .error (.errorResponse (.uriSyntaxErrorAt (str "query") offset what)) →
      ∃ position, offset = position + (uriPath.length + 1) ∧
        ViablePosition (parseQueryParams · (uriPath.length + 1)) querystring position := by
  constructor
  case left =>
    intro input offset what rejected
    obtain ⟨_, rfl, viable⟩ := parse_viablePosition Grammar.viable_restconfGrammar
      (fun phrase => ⟨_, Grammar.restconfGrammar_complete phrase⟩) rejected
    exact viable
  case right =>
    intro uriPath querystring offset what rejected
    exact parse_viablePosition Grammar.viable_queryParamGrammar
      (fun params => ⟨_, Grammar.queryParamGrammar_complete params.1 params.2⟩) rejected

/-- A name without its module, and a depth of zero. -/
theorem syntaxError_viablePosition_depth :
    ViablePosition parseUriPath (str "/restconf/data/a") 16 ∧
      ∃ position, 21 = position + ((str "/restconf/data").length + 1) ∧
        ViablePosition (parseQueryParams · ((str "/restconf/data").length + 1))
          (str "depth=0") position := by
  have path : parseUriPath (str "/restconf/data/a") =
      .error (.errorResponse (.uriSyntaxErrorAt (str "path") 16 (str "':'"))) := rfl
  have query : parseQueryParams (str "depth=0") ((str "/restconf/data").length + 1) =
      .error (.errorResponse (.uriSyntaxErrorAt (str "query") 21
        (str "1-65535 or 'unbounded'"))) := rfl
  exact ⟨syntaxError_viablePosition.1 _ _ _ path, syntaxError_viablePosition.2 _ _ _ _ query⟩

end Impl

end Rousette.Restconf
