import Rousette.Restconf.QueryRecognition
import Rousette.Restconf.Server.Answers
import Rousette.Restconf.StreamRequests

/-!
# Access to query parameters

The values of the query parameters live in one variant under the name of the parameter.  The
grammar puts the alternative there which the code behind it takes out, and the two validators see
to it that there is one value for a name, and a point where it is needed.
-/

namespace Rousette.Restconf

open Library Libyang

/-- `std::get<queryParams::fields::Expr>` -/
def QueryParams.getFields : QueryParams.QueryParamValue → Except Exception QueryParams.FieldsExpr
  | .fields expr => .ok expr
  | _ => .error .badVariantAccess

/-- Every access to the parameters which the handlers make is defined. -/
structure Accessible (params : QueryParams) : Prop where
  unique : (params.map Prod.fst).Nodup
  point : (params.find "point").isSome = true ↔
    params.find "insert" = some .before ∨ params.find "insert" = some .after
  texts : ∀ name ∈ ["filter", "start-time", "stop-time"], ∀ value,
    params.find name = some value → ∃ text, QueryParams.getText value = .ok text
  fields : ∀ value, params.find "fields" = some value →
    ∃ expr, QueryParams.getFields value = .ok expr
  place : ∀ insert, params.find "insert" = some insert →
    ∃ wherePlace point, Server.queryPlace params insert = .ok (wherePlace, point) ∧
      wherePlace ≠ [] ∧ (insert = .before ∨ insert = .after ↔ point.isSome = true)
  flags : ∀ {S : Type} (env : Server.Env S) (data : Forest S) (requestPath : Str),
    ∃ flags, Server.libyangPrintFlags env data requestPath (params.find "with-defaults") =
      .ok flags

/-! ## What the grammar puts there -/

namespace Impl

open Grammar QueryParams

theorem mem_of_find {params : QueryParams} {name : String} {value : QueryParamValue}
    (found : params.find name = some value) : (str name, value) ∈ params := by
  obtain ⟨param, present, rfl⟩ := Option.map_eq_some_iff.mp found
  have tested := List.find?_some present
  have named : param.1 = str name := beq_iff_eq.mp tested
  rw [← named]
  exact List.mem_of_find?_eq_some present

/-- The parameters which were parsed are those of some phrases. -/
theorem holds_of_parsed {querystring : Str} {pathLength : Nat} {params : QueryParams}
    (parsed : parseQueryParams querystring pathLength = .ok params) :
    params.Sorted ∧ ∀ param ∈ params, ∃ phrase : ParamPhrase, phrase.value = param := by
  obtain ⟨phrases, _, rfl, _⟩ := queryParamGrammar_sound (parse_eq_ok_iff.mp parsed)
  have holds : (collect phrases).Holds (phrases.map ParamPhrase.value) :=
    QueryParams.holds_foldl _
  refine ⟨holds.sorted, ?_⟩
  intro param member
  have same := holds.same param.1
  have inside : param ∈ (collect phrases).filter fun other => other.1 == param.1 :=
    List.mem_filter.mpr ⟨member, beq_self_eq_true _⟩
  rw [same] at inside
  obtain ⟨phrase, _, value⟩ := List.mem_map.mp (List.mem_filter.mp inside).1
  exact ⟨phrase, value⟩

/-- A parameter which is taken for a text is one. -/
theorem text_of_phrase {phrase : ParamPhrase} {name : String} {value : QueryParamValue}
    (named : name ∈ ["filter", "start-time", "stop-time"])
    (same : phrase.value = (str name, value)) : ∃ text, value = .text text := by
  have names : str name ∈ [str "filter", str "start-time", str "stop-time"] := by
    simp only [List.mem_cons, List.not_mem_nil, or_false] at named
    rcases named with rfl | rfl | rfl <;> decide
  obtain ⟨sameName, rfl⟩ := Prod.mk.inj same
  rw [← sameName] at names
  cases phrase with
  | filter octets _ => exact ⟨_, rfl⟩
  | startTime time => exact ⟨_, rfl⟩
  | stopTime time => exact ⟨_, rfl⟩
  | _ =>
      dsimp only at names
      exact absurd names (by decide)

/-- The words of `insert`. -/
theorem insert_of_phrase {phrase : ParamPhrase} {value : QueryParamValue}
    (same : phrase.value = (str "insert", value)) : value ∈ insertWords.map Prod.snd := by
  obtain ⟨sameName, rfl⟩ := Prod.mk.inj same
  cases phrase with
  | insert word known => exact List.mem_map_of_mem known
  | _ =>
      dsimp only at sameName
      exact absurd sameName (by decide)

end Impl

/-! ## What the validators see to -/

namespace QueryParams

/-- Equal names would be next to each other. -/
theorem Sorted.nodup {params : QueryParams} (sorted : Sorted params)
    (once : repeatedParameter params = none) : (params.map Prod.fst).Nodup := by
  induction params with
  | nil => exact List.nodup_nil
  | cons param rest ih =>
      obtain ⟨first, others⟩ := List.pairwise_cons.mp sorted
      cases rest with
      | nil => exact List.nodup_cons.mpr ⟨List.not_mem_nil, List.nodup_nil⟩
      | cons other rest =>
          simp only [repeatedParameter] at once
          split at once
          · cases once
          next differs =>
            refine List.nodup_cons.mpr ⟨?_, ih others once⟩
            intro later
            obtain ⟨same, member, equal⟩ := List.mem_map.mp later
            have upper : other.1 ≤ same.1 := by
              rcases List.mem_cons.mp member with rfl | member
              · exact List.le_refl _
              · exact (List.pairwise_cons.mp others).1 same member
            rw [equal] at upper
            exact differs (List.le_antisymm (first other List.mem_cons_self) upper)

/-- The names which were seen to be all different, and for streams. -/
theorem nodup_of_validated {seen : List Str} {params : QueryParams}
    (validated : validateStreamParametersAfter seen params = .ok ()) :
    (params.map Prod.fst).Nodup ∧ (∀ name ∈ seen, name ∉ params.map Prod.fst) ∧
      ∀ name ∈ params.map Prod.fst, name ∈ [str "filter", str "start-time", str "stop-time"] := by
  induction params generalizing seen with
  | nil => exact ⟨List.nodup_nil, fun _ _ => List.not_mem_nil, nofun⟩
  | cons param rest ih =>
      simp only [validateStreamParametersAfter, except_bind_eq_ok, require_eq_ok] at validated
      obtain ⟨_, new, _, known, validated⟩ := validated
      obtain ⟨unique, unseen, names⟩ := ih validated
      refine ⟨List.nodup_cons.mpr ⟨unseen param.1 List.mem_cons_self, unique⟩, ?_, ?_⟩
      · intro name member
        rw [List.map_cons, List.mem_cons, not_or]
        constructor
        · rintro rfl
          simp [member] at new
        · exact unseen name (List.mem_cons_of_mem _ member)
      · rw [List.map_cons]
        exact List.forall_mem_cons.mpr ⟨List.contains_iff_mem.mp known, names⟩

end QueryParams

/-! ## Access -/

theorem hasInsertParamBeforeOrAfter_iff {params : QueryParams} :
    hasInsertParamBeforeOrAfter params = true ↔
      params.find "insert" = some .before ∨ params.find "insert" = some .after := by
  unfold hasInsertParamBeforeOrAfter
  cases params.find "insert" with
  | none => simp
  | some value => cases value <;> simp

/-- Where to insert, when there is a point exactly if it is needed. -/
theorem queryPlace_isOk {params : QueryParams} {insert : QueryParams.QueryParamValue}
    (word : insert ∈ Impl.Grammar.insertWords.map Prod.snd)
    (points : insert = .before ∨ insert = .after →
      ∃ point, params.find "point" = some (.pointParsed point)) :
    ∃ wherePlace point, Server.queryPlace params insert = .ok (wherePlace, point) ∧
      wherePlace ≠ [] ∧ (insert = .before ∨ insert = .after ↔ point.isSome = true) := by
  have queried (beside : insert = .before ∨ insert = .after) :
      ∃ point, Server.queryPoint params = .ok point := by
    obtain ⟨point, present⟩ := points beside
    exact ⟨point, by rw [Server.queryPoint, present]⟩
  simp only [Impl.Grammar.insertWords, List.map_cons, List.map_nil, List.mem_cons,
    List.not_mem_nil, or_false] at word
  rcases word with rfl | rfl | rfl | rfl
  · exact ⟨_, _, rfl, by decide, by simp⟩
  · exact ⟨_, _, rfl, by decide, by simp⟩
  · obtain ⟨point, known⟩ := queried (.inr rfl)
    refine ⟨_, some point, ?_, (by decide : str "after" ≠ []), by simp⟩
    simp only [Server.queryPlace, known, bind, Except.bind, pure, Except.pure]
  · obtain ⟨point, known⟩ := queried (.inl rfl)
    refine ⟨_, some point, ?_, (by decide : str "before" ≠ []), by simp⟩
    simp only [Server.queryPlace, known, bind, Except.bind, pure, Except.pure]

/-- There is nothing to access. -/
theorem Accessible.nil : Accessible [] := by
  constructor
  case unique => exact List.nodup_nil
  case point => simp [QueryParams.find]
  case texts => exact fun _ _ _ => nofun
  case fields => exact nofun
  case place => exact nofun
  case flags => exact fun _ _ _ => ⟨_, rfl⟩

/-- What was parsed is accessible if no name is repeated and the points are where they are
needed. -/
theorem Accessible.of_parsed {querystring : Str} {pathLength : Nat} {params : QueryParams}
    (parsed : Impl.parseQueryParams querystring pathLength = .ok params)
    (unique : (params.map Prod.fst).Nodup)
    (point : (params.find "point").isSome = true ↔
      params.find "insert" = some .before ∨ params.find "insert" = some .after) :
    Accessible params := by
  have phrases := (Impl.holds_of_parsed parsed).2
  have typed {name : String} {value : QueryParams.QueryParamValue}
      (found : params.find name = some value) : Impl.Typed (str name, value) :=
    Impl.parseQueryParams_typed parsed _ (Impl.mem_of_find found)
  constructor
  case unique => exact unique
  case point => exact point
  case texts =>
    intro name named value found
    obtain ⟨phrase, same⟩ := phrases _ (Impl.mem_of_find found)
    obtain ⟨text, rfl⟩ := Impl.text_of_phrase named same
    exact ⟨text, rfl⟩
  case fields =>
    intro value found
    obtain ⟨expr, same⟩ := (typed found).fields rfl
    exact ⟨expr, congrArg QueryParams.getFields same⟩
  case place =>
    intro insert found
    obtain ⟨phrase, same⟩ := phrases _ (Impl.mem_of_find found)
    refine queryPlace_isOk (Impl.insert_of_phrase same) ?_
    intro beside
    have present : (params.find "point").isSome = true := by
      rw [point, found]
      exact beside.imp (congrArg some) (congrArg some)
    obtain ⟨value, known⟩ := Option.isSome_iff_exists.mp present
    obtain ⟨segments, path⟩ := (typed known).point rfl
    have path : value = .pointParsed segments := path
    exact ⟨segments, by rw [known, path]⟩
  case flags =>
    intro S env data requestPath
    refine Server.libyangPrintFlags_isOk data requestPath ?_
    exact fun value found => (typed found).withDefaults rfl

/-- What the query of a stream which was accepted has gone through. -/
theorem parsed_of_stream {httpMethod uriPath uriQueryString : Str}
    {request : NotificationStreamRequest}
    (accepted : asRestconfStreamRequest httpMethod uriPath uriQueryString =
      .ok (.notification request)) :
    Impl.parseQueryParams uriQueryString (uriPath.length + 1) = .ok request.queryParams ∧
      validateQueryParametersForStream request.queryParams = .ok () := by
  simp only [asRestconfStreamRequest, except_bind_eq_ok] at accepted
  obtain ⟨_, _, type, _, accepted⟩ := accepted
  cases type with
  | subscribed other => cases accepted
  | notification stream =>
      simp only [except_bind_eq_ok] at accepted
      obtain ⟨params, parsed, _, validated, result⟩ := accepted
      cases result
      exact ⟨parsed, validated⟩

theorem accessible_of_stream {httpMethod uriPath uriQueryString : Str}
    {request : NotificationStreamRequest}
    (accepted : asRestconfStreamRequest httpMethod uriPath uriQueryString =
      .ok (.notification request)) :
    Accessible request.queryParams := by
  obtain ⟨parsed, validated⟩ := parsed_of_stream accepted
  obtain ⟨unique, _, names⟩ := QueryParams.nodup_of_validated validated
  have absent {name : String}
      (other : str name ∉ [str "filter", str "start-time", str "stop-time"]) :
      request.queryParams.find name = none := by
    cases found : request.queryParams.find name with
    | none => rfl
    | some value =>
        exact absurd (names _ (List.mem_map_of_mem (Impl.mem_of_find found))) other
  have noPoint : request.queryParams.find "point" = none := absent (by decide)
  have noInsert : request.queryParams.find "insert" = none := absent (by decide)
  refine .of_parsed parsed unique ?_
  simp [noPoint, noInsert]

/-- A request for the notifications of the server, with a query for streams. -/
theorem asRestconfStreamRequest_netconf {phrases : List Impl.Grammar.ParamPhrase}
    (last : Impl.Grammar.EmptyPointLast phrases)
    (validated : validateQueryParametersForStream (Impl.Grammar.collect phrases) = .ok ()) :
    asRestconfStreamRequest (str "GET") (str "/streams/NETCONF/JSON")
        (Impl.Grammar.queryText phrases) =
      .ok (.notification ⟨str "NETCONF", .json, Impl.Grammar.collect phrases⟩) := by
  have stream : Impl.parseStreamUri (str "/streams/NETCONF/JSON") =
      .ok (.notification ⟨str "NETCONF", .json, []⟩) := rfl
  have parsed {pathLength : Nat} : Impl.parseQueryParams (Impl.Grammar.queryText phrases)
      pathLength = .ok (Impl.Grammar.collect phrases) :=
    Impl.parse_eq_ok_iff.mpr (Impl.Grammar.queryParamGrammar_complete phrases last)
  simp only [asRestconfStreamRequest, except_bind_eq_ok, require_eq_ok]
  refine ⟨(), rfl, _, stream, ?_⟩
  simp only [parsed, validated, bind, Except.bind, pure, Except.pure]

/-- For every request which was accepted, of a data resource or of a stream, every access to a
query parameter is defined. -/
theorem queryParams_accessible :
    (∀ {S : Type} (ctx : Context S) (httpMethod uriPath uriQueryString : Str)
        (request : RestconfRequest),
      asRestconfRequest ctx httpMethod uriPath uriQueryString = .ok request →
        Accessible request.queryParams) ∧
    ∀ (httpMethod uriPath uriQueryString : Str) (request : NotificationStreamRequest),
      asRestconfStreamRequest httpMethod uriPath uriQueryString = .ok (.notification request) →
        Accessible request.queryParams := by
  constructor
  · intro S ctx httpMethod uriPath uriQueryString request accepted
    rcases queryParams_of_accepted accepted with empty | ⟨parsed, validated⟩
    · rw [empty]
      exact .nil
    · simp only [validateQueryParameters, except_bind_eq_ok] at validated
      obtain ⟨_, once, _, _, _, _, _, _, together⟩ := validated
      refine .of_parsed parsed ((Impl.holds_of_parsed parsed).1.nodup ?_) ?_
      · cases repeated : repeatedParameter request.queryParams with
        | none => rfl
        | some name =>
            rw [repeated] at once
            cases once
      · rw [beq_iff_eq.mp (require_eq_ok.mp together)]
        exact hasInsertParamBeforeOrAfter_iff
  · intro httpMethod uriPath uriQueryString request accepted
    exact accessible_of_stream accepted

/-- The filter of a stream can be taken out of its query. -/
theorem filterParam_accessible :
    Accessible (Impl.Grammar.collect [.filter [.plain (chr '*') rfl] (List.cons_ne_nil _ _)]) :=
  queryParams_accessible.2 _ _ _ _ <| @asRestconfStreamRequest_netconf
    [.filter [.plain (chr '*') rfl] (List.cons_ne_nil _ _)] ⟨nofun, trivial⟩ rfl

end Rousette.Restconf
