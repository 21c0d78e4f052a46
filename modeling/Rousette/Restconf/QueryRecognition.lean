import Rousette.Restconf.QueryValues
import Rousette.Restconf.UriRecognition

/-!
# Recognition of query strings

`parseQueryParams` reads back the parameters of every query string which was rendered from
them, and accepts nothing else.  The parameters end up in a multimap, which keeps those of
one name in their order.
-/

namespace Rousette.Restconf

open Library

/-! ## The multimap -/

theorem textLess_iff {text other : Str} : textLess text other = true ↔ text < other := by
  induction text generalizing other with
  | nil => cases other <;> simp [textLess]
  | cons c text ih =>
      cases other with
      | nil => simp [textLess]
      | cons d other => simp [textLess, ih, List.cons_lt_cons_iff]

theorem textLess_eq_false {text other : Str} : textLess text other = false ↔ other ≤ text := by
  rw [← Bool.not_eq_true, textLess_iff]
  exact List.not_lt

namespace QueryParams

/-- Neither name is greater than one after it. -/
def Sorted (params : QueryParams) : Prop :=
  params.Pairwise fun param other => param.1 ≤ other.1

theorem Sorted.emplace {params : QueryParams} (sorted : Sorted params)
    (param : Str × QueryParamValue) : Sorted (QueryParams.emplace param params) := by
  induction params with
  | nil => exact List.pairwise_singleton _ _
  | cons other rest ih =>
      obtain ⟨first, others⟩ := List.pairwise_cons.mp sorted
      simp only [QueryParams.emplace]
      split
      next less =>
        refine List.pairwise_cons.mpr ⟨?_, sorted⟩
        intro later member
        have least : param.1 ≤ other.1 := List.le_of_lt (textLess_iff.mp less)
        rcases List.mem_cons.mp member with rfl | member
        · exact least
        · exact List.le_trans least (first later member)
      next notLess =>
        refine List.pairwise_cons.mpr ⟨?_, ih others⟩
        intro later member
        rcases Impl.mem_of_mem_emplace member with rfl | member
        · exact textLess_eq_false.mp (Bool.not_eq_true _ ▸ notLess)
        · exact first later member

/-- A parameter is inserted behind the others of its name. -/
theorem Sorted.filter_emplace {params : QueryParams} (sorted : Sorted params)
    (param : Str × QueryParamValue) (name : Str) :
    (QueryParams.emplace param params).filter (fun other => other.1 == name) =
      (params ++ [param]).filter fun other => other.1 == name := by
  induction params with
  | nil => rfl
  | cons other rest ih =>
      obtain ⟨first, others⟩ := List.pairwise_cons.mp sorted
      simp only [QueryParams.emplace]
      split
      next less =>
        by_cases same : param.1 = name
        · -- no other one of that name is left
          subst same
          have none : (other :: rest).filter (fun other => other.1 == param.1) = [] := by
            apply List.filter_eq_nil_iff.mpr
            intro later member
            have least : other.1 ≤ later.1 := by
              rcases List.mem_cons.mp member with rfl | member
              · exact List.le_refl _
              · exact first later member
            intro same
            rw [beq_iff_eq.mp same] at least
            exact List.not_le.mpr (textLess_iff.mp less) least
          rw [List.filter_append, none, List.filter_cons, none]
          simp
        · simp [List.filter_cons, List.filter_append, same]
      next notLess => rw [List.filter_cons, ih others, List.cons_append, List.filter_cons]

/-- The multimap holds the given parameters, and those of one name in their order. -/
structure Holds (params : QueryParams) (given : List (Str × QueryParamValue)) : Prop where
  sorted : Sorted params
  same : ∀ name, params.filter (fun param => param.1 == name) =
    given.filter fun param => param.1 == name

theorem holds_foldl (given : List (Str × QueryParamValue)) :
    Holds (given.foldl (fun params param => QueryParams.emplace param params) []) given := by
  have further : ∀ (given : List (Str × QueryParamValue)) (params : QueryParams),
      Sorted params →
        Holds (given.foldl (fun params param => QueryParams.emplace param params) params)
          (params ++ given) := by
    intro given
    induction given with
    | nil =>
        intro params sorted
        exact ⟨sorted, fun name => by rw [List.append_nil]; rfl⟩
    | cons param given ih =>
        intro params sorted
        have rest := ih (QueryParams.emplace param params) (sorted.emplace param)
        refine ⟨rest.sorted, fun name => ?_⟩
        rw [List.foldl_cons, rest.same name, List.filter_append, sorted.filter_emplace,
          ← List.filter_append, List.append_assoc]
        rfl
  simpa using further given [] List.Pairwise.nil

end QueryParams

namespace Impl.Grammar

open Parser QueryParams

/-! ## One parameter -/

theorem param_sound {name : String} {what input rest : Str} {value : Parser QueryParamValue}
    {result : Str × QueryParamValue} (parsed : param name what value input = .ok result rest) :
    ∃ text parsed, input = str name ++ (str "=" ++ text) ∧ value text = .ok parsed rest ∧
      result = (str name, parsed) := by
  simp only [param, bind_eq_ok, expect_eq_ok, lit_eq_ok] at parsed
  obtain ⟨_, _, rfl, _, text, rfl, value, _, given, finished⟩ := parsed
  cases finished
  exact ⟨text, value, rfl, given, rfl⟩

theorem param_complete {name : String} {what text rest : Str} {value : Parser QueryParamValue}
    {parsed : QueryParamValue} (given : value text = .ok parsed rest) :
    param name what value (str name ++ (str "=" ++ text)) = .ok (str name, parsed) rest := by
  simp only [param, bind_eq_ok, expect_eq_ok]
  exact ⟨_, _, lit_append _ _, _, _, lit_append _ _, parsed, rest, given, rfl⟩

theorem queryParamPair_sound {input rest : Str} {result : Str × QueryParamValue}
    (parsed : queryParamPair input = .ok result rest) :
    ∃ phrase : ParamPhrase, input = phrase.text ++ rest ∧ result = phrase.value ∧
      (phrase.isEmptyPoint = true → rest = []) := by
  rcases orElse_eq_ok.mp parsed with depth | ⟨_, parsed⟩
  · obtain ⟨_, _, rfl, given, rfl⟩ := param_sound depth
    rcases depthParam_sound given with ⟨zeros, value, inRange, rfl, rfl⟩ | ⟨rfl, rfl⟩
    · exact ⟨.depth zeros value inRange, by simp only [ParamPhrase.text, List.append_assoc]; rfl,
        rfl, nofun⟩
    · exact ⟨.unboundedDepth, rfl, rfl, nofun⟩
  rcases orElse_eq_ok.mp parsed with withDefaults | ⟨_, parsed⟩
  · obtain ⟨_, _, rfl, given, rfl⟩ := param_sound withDefaults
    obtain ⟨word, known, rfl, rfl⟩ := withDefaultsTable_sound given
    exact ⟨.withDefaults word known, rfl, rfl, nofun⟩
  rcases orElse_eq_ok.mp parsed with content | ⟨_, parsed⟩
  · obtain ⟨_, _, rfl, given, rfl⟩ := param_sound content
    obtain ⟨word, known, rfl, rfl⟩ := symbols_sound given
    exact ⟨.content word known, rfl, rfl, nofun⟩
  rcases orElse_eq_ok.mp parsed with insert | ⟨_, parsed⟩
  · obtain ⟨_, _, rfl, given, rfl⟩ := param_sound insert
    obtain ⟨word, known, rfl, rfl⟩ := symbols_sound given
    exact ⟨.insert word known, rfl, rfl, nofun⟩
  rcases orElse_eq_ok.mp parsed with point | ⟨_, parsed⟩
  · obtain ⟨_, _, rfl, given, rfl⟩ := param_sound point
    obtain ⟨_, _, segments, finished⟩ := bind_eq_ok.mp given
    cases finished
    obtain ⟨path, rfl, rfl, last⟩ := uriPath_sound segments
    exact ⟨.point path, rfl, rfl,
      fun empty => last (by simpa [ParamPhrase.isEmptyPoint] using empty)⟩
  rcases orElse_eq_ok.mp parsed with filter | ⟨_, parsed⟩
  · obtain ⟨_, _, rfl, given, rfl⟩ := param_sound filter
    obtain ⟨_, _, text, finished⟩ := bind_eq_ok.mp given
    cases finished
    obtain ⟨⟨octet, octets⟩, rfl, rfl⟩ := recognizes_filter.sound text
    exact ⟨.filter (octet :: octets) nofun, rfl, rfl, nofun⟩
  rcases orElse_eq_ok.mp parsed with startTime | ⟨_, parsed⟩
  · obtain ⟨_, _, rfl, given, rfl⟩ := param_sound startTime
    obtain ⟨_, _, text, finished⟩ := bind_eq_ok.mp given
    cases finished
    obtain ⟨time, rfl, rfl⟩ := recognizes_dateAndTime.sound text
    exact ⟨.startTime time, rfl, rfl, nofun⟩
  rcases orElse_eq_ok.mp parsed with stopTime | ⟨_, fields⟩
  · obtain ⟨_, _, rfl, given, rfl⟩ := param_sound stopTime
    obtain ⟨_, _, text, finished⟩ := bind_eq_ok.mp given
    cases finished
    obtain ⟨time, rfl, rfl⟩ := recognizes_dateAndTime.sound text
    exact ⟨.stopTime time, rfl, rfl, nofun⟩
  · obtain ⟨_, _, rfl, given, rfl⟩ := param_sound fields
    obtain ⟨_, _, text, finished⟩ := bind_eq_ok.mp given
    cases finished
    obtain ⟨expr, rfl, rfl⟩ := recognizes_fieldsExpr.sound text
    exact ⟨.fields expr, rfl, rfl, nofun⟩

/-- The value of a text parameter. -/
theorem text_complete {α : Type} {parser : Parser α} {input rest : Str} {result : α}
    (make : α → QueryParamValue) (parsed : parser input = .ok result rest) :
    (do let value ← parser; return make value) input = .ok (make result) rest :=
  bind_eq_ok.mpr ⟨result, rest, parsed, rfl⟩

theorem queryParamPair_complete (phrase : ParamPhrase) {rest : Str} (ends : Ends rest)
    (last : phrase.isEmptyPoint = true → rest = []) :
    queryParamPair (phrase.text ++ rest) = .ok phrase.value rest := by
  -- no name of a parameter is a prefix of another one, so the alternatives before fail at once
  cases phrase with
  | depth zeros value inRange =>
      simp only [ParamPhrase.text, List.append_assoc]
      refine orElse_eq_ok.mpr (.inl (param_complete ?_))
      rw [← List.append_assoc]
      exact depthParam_number zeros inRange ends
  | unboundedDepth =>
      exact orElse_eq_ok.mpr (.inl (param_complete (depthParam_unbounded rest)))
  | withDefaults word known =>
      refine (orElse_of_fail rfl).trans (orElse_eq_ok.mpr (.inl ?_))
      exact param_complete (withDefaultsTable_complete known ends)
  | content word known =>
      iterate 2 refine (orElse_of_fail rfl).trans ?_
      refine orElse_eq_ok.mpr (.inl ?_)
      exact param_complete (contentTable_complete known rest)
  | insert word known =>
      iterate 3 refine (orElse_of_fail rfl).trans ?_
      refine orElse_eq_ok.mpr (.inl ?_)
      exact param_complete (insertTable_complete known rest)
  | point path =>
      iterate 4 refine (orElse_of_fail rfl).trans ?_
      refine orElse_eq_ok.mpr (.inl (param_complete (text_complete _ ?_)))
      apply uriPath_complete path
      · exact ends.stops rfl
      · exact fun empty => last (by simp [ParamPhrase.isEmptyPoint, empty])
  | filter octets nonempty =>
      cases octets with
      | nil => exact absurd rfl nonempty
      | cons octet octets =>
          iterate 5 refine (orElse_of_fail rfl).trans ?_
          refine orElse_eq_ok.mpr (.inl (param_complete (text_complete _ ?_)))
          exact recognizes_filter.complete (octet, octets) ends
  | startTime time =>
      iterate 6 refine (orElse_of_fail rfl).trans ?_
      refine orElse_eq_ok.mpr (.inl (param_complete (text_complete _ ?_)))
      exact recognizes_dateAndTime.complete time trivial
  | stopTime time =>
      iterate 7 refine (orElse_of_fail rfl).trans ?_
      refine orElse_eq_ok.mpr (.inl (param_complete (text_complete _ ?_)))
      exact recognizes_dateAndTime.complete time trivial
  | fields expr =>
      iterate 8 refine (orElse_of_fail rfl).trans ?_
      refine param_complete (text_complete _ ?_)
      exact recognizes_fieldsExpr.complete expr ends

/-! ## All parameters -/

/-- A parameter after another one. -/
def furtherParam : Parser (Str × QueryParamValue) := do
  lit (str "&")
  expect (str "query parameter") queryParamPair

/-- The text of a parameter after another one. -/
def furtherText (params : List ParamPhrase) : Str :=
  params.flatMap fun param => str "&" ++ param.text

theorem queryText_cons (param : ParamPhrase) (params : List ParamPhrase) :
    queryText (param :: params) = param.text ++ furtherText params := by
  rw [queryText, Recognizes.join_map_cons]
  rfl

theorem ends_furtherText (params : List ParamPhrase) : Ends (furtherText params) := by
  cases params with
  | nil => exact stops_nil _
  | cons param params => exact stops_cons.mpr (by decide)

theorem eq_nil_of_furtherText {params : List ParamPhrase} {rest : Str}
    (nothing : furtherText params ++ rest = []) : params = [] := by
  cases params with
  | nil => rfl
  | cons param params => cases nothing

theorem furtherParam_sound {input rest : Str} {result : Str × QueryParamValue}
    (parsed : furtherParam input = .ok result rest) :
    ∃ phrase : ParamPhrase, input = str "&" ++ phrase.text ++ rest ∧ result = phrase.value ∧
      (phrase.isEmptyPoint = true → rest = []) := by
  obtain ⟨_, _, ampersand, continued⟩ := bind_eq_ok.mp parsed
  obtain rfl := lit_eq_ok.mp ampersand
  obtain ⟨phrase, rfl, rfl, last⟩ := queryParamPair_sound (expect_eq_ok.mp continued)
  exact ⟨phrase, by rw [List.append_assoc], rfl, last⟩

theorem furtherParam_complete (phrase : ParamPhrase) {rest : Str} (ends : Ends rest)
    (last : phrase.isEmptyPoint = true → rest = []) :
    furtherParam (str "&" ++ phrase.text ++ rest) = .ok phrase.value rest := by
  rw [List.append_assoc]
  refine bind_eq_ok.mpr ⟨_, _, lit_append _ _, ?_⟩
  exact expect_eq_ok.mpr (queryParamPair_complete phrase ends last)

theorem furtherParams_sound {input rest : Str} {results : List (Str × QueryParamValue)}
    (repeated : Repeated furtherParam input results rest) :
    ∃ params, input = furtherText params ++ rest ∧ results = params.map ParamPhrase.value ∧
      EmptyPointLast params := by
  induction repeated with
  | nil => exact ⟨[], rfl, rfl, trivial⟩
  | cons first _ ih =>
      obtain ⟨param, rfl, rfl, last⟩ := furtherParam_sound first
      obtain ⟨params, rfl, rfl, lastFurther⟩ := ih
      refine ⟨param :: params, ?_, rfl, ?_, lastFurther⟩
      · simp [furtherText]
      · exact fun empty => eq_nil_of_furtherText (last empty)

theorem furtherParams_complete (params : List ParamPhrase) (last : EmptyPointLast params)
    {bound : Nat} (enough : params.length < bound) :
    upTo furtherParam bound (furtherText params) = .ok (params.map ParamPhrase.value) [] := by
  induction params generalizing bound with
  | nil =>
      cases bound with
      | zero => rfl
      | succ bound => rfl
  | cons param params ih =>
      cases bound with
      | zero => simp at enough
      | succ bound =>
          have first : furtherParam (str "&" ++ param.text ++ furtherText params) =
              .ok param.value (furtherText params) := by
            refine furtherParam_complete param (ends_furtherText params) ?_
            intro empty
            rw [last.1 empty]
            rfl
          have others := ih last.2 (Nat.lt_of_succ_lt_succ enough)
          have split : furtherText (param :: params) =
              str "&" ++ param.text ++ furtherText params := rfl
          rw [split]
          simp only [upTo, first, others, List.map_cons]

theorem ParamPhrase.text_ne_nil (param : ParamPhrase) : param.text ≠ [] := by
  cases param <;> nofun

theorem length_le_furtherText (params : List ParamPhrase) :
    params.length ≤ (furtherText params).length := by
  have nonempty (param : ParamPhrase) : str "&" ++ param.text ≠ [] := nofun
  exact Recognizes.length_le_flatMap nonempty params

theorem queryParamEmpty_eq_ok {input rest : Str} {result : QueryParams} :
    queryParamEmpty input = .ok result rest ↔ input = [] ∧ rest = [] ∧ result = [] := by
  cases input with
  | nil => simp [queryParamEmpty, bind_apply, followedBy, eoi, eq_comm, and_comm]
  | cons c input => simp [queryParamEmpty, bind_apply, followedBy, eoi]

theorem queryParamEmpty_fail {input : Str} (nonempty : input ≠ []) :
    queryParamEmpty input = .fail := by
  cases input with
  | nil => exact absurd rfl nonempty
  | cons c input => rfl

/-- The multimap of the parameters. -/
def collect (params : List ParamPhrase) : QueryParams :=
  (params.map ParamPhrase.value).foldl (fun params param => QueryParams.emplace param params) []

theorem queryParamMaybeEmpty_sound {input rest : Str} {result : QueryParams}
    (parsed : queryParamMaybeEmpty input = .ok result rest) :
    ∃ params, input = queryText params ++ rest ∧ result = collect params ∧
      EmptyPointLast params := by
  rcases orElse_eq_ok.mp parsed with empty | ⟨_, list⟩
  · obtain ⟨rfl, rfl, rfl⟩ := queryParamEmpty_eq_ok.mp empty
    exact ⟨[], rfl, rfl, trivial⟩
  · obtain ⟨_, _, first, continued⟩ := bind_eq_ok.mp list
    obtain ⟨_, _, further, finished⟩ := bind_eq_ok.mp continued
    cases finished
    obtain ⟨param, rfl, rfl, last⟩ := queryParamPair_sound first
    obtain ⟨params, rfl, rfl, lastFurther⟩ :=
      furtherParams_sound (repeated_of_upTo _ further)
    refine ⟨param :: params, ?_, rfl, ?_, lastFurther⟩
    · rw [queryText_cons, List.append_assoc]
    · exact fun empty => eq_nil_of_furtherText (last empty)

theorem queryParamGrammar_sound {input : Str} {result : QueryParams}
    (parsed : queryParamGrammar input = .ok result []) :
    ∃ params, input = queryText params ∧ result = collect params ∧ EmptyPointLast params := by
  obtain ⟨params, split, collected, last⟩ := queryParamMaybeEmpty_sound (expect_eq_ok.mp parsed)
  exact ⟨params, by rwa [List.append_nil] at split, collected, last⟩

theorem queryParamGrammar_complete (params : List ParamPhrase) (last : EmptyPointLast params) :
    queryParamGrammar (queryText params) = .ok (collect params) [] := by
  refine expect_eq_ok.mpr ?_
  cases params with
  | nil => rfl
  | cons param params =>
      rw [queryText_cons]
      have nonempty : param.text ++ furtherText params ≠ [] :=
        fun empty => param.text_ne_nil (List.append_eq_nil_iff.mp empty).1
      refine (orElse_of_fail (queryParamEmpty_fail nonempty)).trans ?_
      have first : queryParamPair (param.text ++ furtherText params) =
          .ok param.value (furtherText params) := by
        refine queryParamPair_complete param (ends_furtherText params) ?_
        intro empty
        rw [last.1 empty]
        rfl
      have further := furtherParams_complete params last.2
        (Nat.lt_succ_of_le (length_le_furtherText params))
      exact bind_eq_ok.mpr ⟨_, _, first, bind_eq_ok.mpr ⟨_, _, further, rfl⟩⟩

/-! ## Rendering -/

/-- A parameter which can be rendered, with a point which has a segment. -/
inductive ExpressibleParam : Str × QueryParamValue → Prop where
  | depth {value : Nat} (inRange : 0 < value ∧ value < 65536) :
      ExpressibleParam (str "depth", .depth value)
  | unboundedDepth : ExpressibleParam (str "depth", .unboundedDepth)
  | withDefaults {word : String × QueryParamValue} (known : word ∈ withDefaultsWords) :
      ExpressibleParam (str "with-defaults", word.2)
  | content {word : String × QueryParamValue} (known : word ∈ contentWords) :
      ExpressibleParam (str "content", word.2)
  | insert {word : String × QueryParamValue} (known : word ∈ insertWords) :
      ExpressibleParam (str "insert", word.2)
  | point {segments : List PathSegment} (valid : WellFormed segments)
      (nonempty : segments ≠ []) : ExpressibleParam (str "point", .pointParsed segments)
  | filter {text : Str} (nonempty : text ≠ []) : ExpressibleParam (str "filter", .text text)
  | startTime (time : DateAndTime) : ExpressibleParam (str "start-time", .text time.text)
  | stopTime (time : DateAndTime) : ExpressibleParam (str "stop-time", .text time.text)
  | fields (expr : FieldsPhrase .semi) : ExpressibleParam (str "fields", .fields expr.value)

theorem ExpressibleParam.exists_value {param : Str × QueryParamValue}
    (expressible : ExpressibleParam param) :
    ∃ phrase : { phrase : ParamPhrase // phrase.isEmptyPoint = false },
      phrase.1.value = param := by
  cases expressible with
  | depth inRange => exact ⟨⟨.depth 0 _ inRange, rfl⟩, rfl⟩
  | unboundedDepth => exact ⟨⟨.unboundedDepth, rfl⟩, rfl⟩
  | withDefaults known => exact ⟨⟨.withDefaults _ known, rfl⟩, rfl⟩
  | content known => exact ⟨⟨.content _ known, rfl⟩, rfl⟩
  | insert known => exact ⟨⟨.insert _ known, rfl⟩, rfl⟩
  | point valid nonempty =>
      obtain ⟨path, rfl⟩ := valid.exists_value
      cases path with
      | empty => exact absurd rfl nonempty
      | slash => exact absurd rfl nonempty
      | segments modulePrefix name keys others =>
          exact ⟨⟨.point (.segments modulePrefix name keys others), rfl⟩, rfl⟩
  | @filter text nonempty =>
      obtain ⟨octets, rfl⟩ :=
        exists_map fun c (_ : c ∈ text) => Octet.exists_value isFilterChar c
      exact ⟨⟨.filter octets fun empty => nonempty (by rw [empty]; rfl), rfl⟩, rfl⟩
  | startTime time => exact ⟨⟨.startTime time, rfl⟩, rfl⟩
  | stopTime time => exact ⟨⟨.stopTime time, rfl⟩, rfl⟩
  | fields expr => exact ⟨⟨.fields expr, rfl⟩, rfl⟩

theorem emptyPointLast_of_forall {params : List ParamPhrase}
    (none : ∀ param ∈ params, param.isEmptyPoint = false) : EmptyPointLast params := by
  induction params with
  | nil => trivial
  | cons param params ih =>
      obtain ⟨first, others⟩ := List.forall_mem_cons.mp none
      exact ⟨fun empty => by simp [first] at empty, ih others⟩

end Impl.Grammar

namespace Impl

open Grammar

/-- Every list of parameters is read back from any rendering of it, whatever parameters may
follow each other, and every query string which is accepted is such a rendering, except
that a point without segments is accepted in the last parameter. -/
theorem parseQueryParams_phrases (pathLength : Nat) :
    (∀ phrases : List ParamPhrase, EmptyPointLast phrases →
        ∃ params, parseQueryParams (queryText phrases) pathLength = .ok params ∧
          params.Holds (phrases.map ParamPhrase.value)) ∧
      (∀ querystring params, parseQueryParams querystring pathLength = .ok params →
        ∃ phrases : List ParamPhrase, querystring = queryText phrases ∧
          EmptyPointLast phrases ∧ params.Holds (phrases.map ParamPhrase.value)) ∧
      ∀ given : List (Str × QueryParams.QueryParamValue),
        (∀ param ∈ given, ExpressibleParam param) →
          ∃ phrases : List ParamPhrase, EmptyPointLast phrases ∧
            phrases.map ParamPhrase.value = given := by
  refine ⟨?_, ?_, ?_⟩
  · intro phrases last
    refine ⟨collect phrases, ?_, QueryParams.holds_foldl _⟩
    exact parse_eq_ok_iff.mpr (queryParamGrammar_complete phrases last)
  · intro querystring params parsed
    obtain ⟨phrases, rfl, rfl, last⟩ := queryParamGrammar_sound (parse_eq_ok_iff.mp parsed)
    exact ⟨phrases, rfl, last, QueryParams.holds_foldl _⟩
  · intro given expressible
    obtain ⟨phrases, rfl⟩ := exists_map fun param member =>
      (expressible param member).exists_value
    refine ⟨phrases.map Subtype.val, ?_, by rw [List.map_map]; rfl⟩
    apply emptyPointLast_of_forall
    intro param member
    obtain ⟨phrase, _, rfl⟩ := List.mem_map.mp member
    exact phrase.2

end Impl

end Rousette.Restconf
