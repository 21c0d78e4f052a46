import Mathlib.Data.Set.List
import Rousette.Restconf.UriPhrases

/-!
# Recognition of request paths

The parser of `restconf/uri.cpp` accepts the texts of the phrases and nothing else, it
returns what they mean, and a path which was rendered in any way is parsed back.
-/

namespace Rousette.Restconf.Impl

open Library

namespace Grammar

open Parser

/-! ## Resources -/

theorem uriPath_last (path : Path) : uriPath path.text = .ok path.value [] := by
  have parsed := uriPath_complete path (stops_nil _) fun _ => rfl
  rwa [List.append_nil] at parsed

theorem resourceWithPath_sound {word input rest : Str} {resourceType : ResourceType}
    {result : URIPath} (parsed : resourceWithPath word resourceType input = .ok result rest) :
    ∃ path : Path, input = word ++ path.text ++ rest ∧
      result = ⟨⟨resourceType, none⟩, path.value⟩ := by
  obtain ⟨_, _, first, continued⟩ := bind_eq_ok.mp parsed
  obtain ⟨_, _, second, finished⟩ := bind_eq_ok.mp continued
  obtain ⟨path, rfl, rfl, _⟩ := uriPath_sound (expect_eq_ok.mp second)
  cases finished
  exact ⟨path, by rw [lit_eq_ok.mp first, List.append_assoc], rfl⟩

theorem resourceWithPath_complete (word : Str) (resourceType : ResourceType) (path : Path) :
    resourceWithPath word resourceType (word ++ path.text) =
      .ok ⟨⟨resourceType, none⟩, path.value⟩ [] := by
  have parsed : expect (str "uriPath") uriPath path.text = .ok path.value [] :=
    expect_eq_ok.mpr (uriPath_last path)
  simp only [resourceWithPath, bind_apply, lit_append, parsed, pure_apply]

theorem nmdaDatastore_sound {input rest : Str} {result : URIPrefix}
    (parsed : nmdaDatastore input = .ok result rest) :
    ∃ modulePrefix name : Identifier,
      input = str "/" ++ modulePrefix.text ++ str ":" ++ name.text ++ rest ∧
        result = ⟨.nmdaDatastore, some ⟨some modulePrefix.text, name.text⟩⟩ := by
  obtain ⟨_, _, slash, continued⟩ := bind_eq_ok.mp parsed
  obtain ⟨_, _, second, finished⟩ := bind_eq_ok.mp continued
  obtain ⟨⟨modulePrefix, name⟩, rfl, rfl⟩ :=
    recognizes_fullyQualifiedApiIdentifier.sound (expect_eq_ok.mp second)
  cases finished
  refine ⟨modulePrefix, name, ?_, rfl⟩
  rw [lit_eq_ok.mp (expect_eq_ok.mp slash)]
  simp only [ApiName.text, List.append_assoc]

theorem nmdaDatastore_complete (modulePrefix name : Identifier) {rest : Str}
    (ends : Stops isIdentifierChar rest) :
    nmdaDatastore (str "/" ++ (modulePrefix.text ++ (str ":" ++ (name.text ++ rest)))) =
      .ok ⟨.nmdaDatastore, some ⟨some modulePrefix.text, name.text⟩⟩ rest := by
  have slash : expect (str "'/'") (lit (str "/"))
      (str "/" ++ (modulePrefix.text ++ (str ":" ++ (name.text ++ rest)))) =
        .ok () (modulePrefix.text ++ (str ":" ++ (name.text ++ rest))) :=
    expect_eq_ok.mpr (lit_append _ _)
  have datastore := (recognizes_fullyQualifiedApiIdentifier.expect
    (str "module-qualified identifier (module:name)")).complete (modulePrefix, name) ends
  simp only [ApiName.text, List.append_assoc] at datastore
  simp only [nmdaDatastore, bind_apply, slash, datastore, pure_apply, ApiName.value,
    Option.map_some]

theorem Path.stops_text (path : Path) : Stops isIdentifierChar path.text := by
  cases path with
  | empty => exact stops_nil _
  | slash => exact stops_cons.mpr (by decide)
  | segments modulePrefix name keys others =>
      rw [Path.text_segments]
      exact stops_cons.mpr (by decide)

theorem resource_sound {input rest : Str} {result : URIPath}
    (parsed : resource input = .ok result rest) :
    ∃ phrase : UriPhrase, str "/restconf/" ++ input = phrase.text ++ rest ∧
      result = phrase.value := by
  rcases orElse_eq_ok.mp parsed with root | ⟨_, parsed⟩
  · obtain ⟨_, _, ended, finished⟩ := bind_eq_ok.mp root
    obtain ⟨rfl, rfl⟩ := eoi_eq_ok.mp ended
    cases finished
    exact ⟨.restconfRoot true, rfl, rfl⟩
  rcases orElse_eq_ok.mp parsed with data | ⟨_, parsed⟩
  · obtain ⟨path, rfl, rfl⟩ := resourceWithPath_sound data
    exact ⟨.data path, rfl, rfl⟩
  rcases orElse_eq_ok.mp parsed with ds | ⟨_, parsed⟩
  · obtain ⟨_, _, first, continued⟩ := bind_eq_ok.mp ds
    obtain ⟨_, _, second, continued'⟩ := bind_eq_ok.mp continued
    obtain ⟨_, _, third, finished⟩ := bind_eq_ok.mp continued'
    obtain ⟨path, rfl, rfl, _⟩ := uriPath_sound (expect_eq_ok.mp third)
    obtain ⟨modulePrefix, name, rfl, rfl⟩ := nmdaDatastore_sound (expect_eq_ok.mp second)
    cases finished
    refine ⟨.ds modulePrefix name path, ?_, rfl⟩
    rw [lit_eq_ok.mp first]
    simp only [UriPhrase.text, List.append_assoc]
    rfl
  rcases orElse_eq_ok.mp parsed with operations | ⟨_, version⟩
  · obtain ⟨path, rfl, rfl⟩ := resourceWithPath_sound operations
    exact ⟨.operations path, rfl, rfl⟩
  · obtain ⟨_, _, first, continued⟩ := bind_eq_ok.mp version
    obtain ⟨_, _, second, finished⟩ := bind_eq_ok.mp continued
    obtain rfl := lit_eq_ok.mp first
    cases finished
    rcases optional_eq_ok.mp second with ⟨_, _, slash⟩ | ⟨_, rfl, _⟩
    · obtain rfl := lit_eq_ok.mp slash
      exact ⟨.yangLibraryVersion true, rfl, rfl⟩
    · exact ⟨.yangLibraryVersion false, rfl, rfl⟩

theorem resource_ds (modulePrefix name : Identifier) (path : Path) :
    resource (str "ds" ++ (str "/" ++ (modulePrefix.text ++ (str ":" ++
      (name.text ++ path.text))))) = .ok (UriPhrase.ds modulePrefix name path).value [] := by
  have datastore := nmdaDatastore_complete modulePrefix name path.stops_text
  refine (orElse_of_fail rfl).trans ((orElse_of_fail rfl).trans (orElse_eq_ok.mpr (.inl ?_)))
  simp only [bind_apply, lit_append, expect, datastore, uriPath_last, pure_apply,
    UriPhrase.value]

theorem restconfGrammar_sound {input rest : Str} {result : URIPath}
    (parsed : restconfGrammar input = .ok result rest) :
    ∃ phrase : UriPhrase, input = phrase.text ++ rest ∧ result = phrase.value := by
  obtain ⟨_, _, slash, continued⟩ := bind_eq_ok.mp parsed
  obtain ⟨_, _, restconf, resources⟩ := bind_eq_ok.mp continued
  obtain rfl := lit_eq_ok.mp slash
  obtain rfl := lit_eq_ok.mp (expect_eq_ok.mp restconf)
  rcases orElse_eq_ok.mp (expect_eq_ok.mp resources) with below | ⟨_, root⟩
  · obtain ⟨_, _, separator, found⟩ := bind_eq_ok.mp below
    obtain rfl := lit_eq_ok.mp separator
    exact resource_sound (expect_eq_ok.mp found)
  · obtain ⟨_, _, ended, finished⟩ := bind_eq_ok.mp root
    obtain ⟨rfl, rfl⟩ := eoi_eq_ok.mp ended
    cases finished
    exact ⟨.restconfRoot false, rfl, rfl⟩

/-- What `resource` makes of the text after `/restconf/` is the result of the grammar. -/
theorem restconfGrammar_below {text : Str} {result : URIPath}
    (parsed : resource text = .ok result []) :
    restconfGrammar (str "/restconf/" ++ text) = .ok result [] := by
  have resource : expect (str "RESTCONF resource") resource text = .ok result [] :=
    expect_eq_ok.mpr parsed
  have below : resources (str "/" ++ text) = .ok result [] := by
    refine orElse_eq_ok.mpr (.inl ?_)
    simp only [bind_apply, lit_append, resource]
  have split : str "/restconf/" ++ text = str "/" ++ (str "restconf" ++ (str "/" ++ text)) := rfl
  rw [split]
  simp only [restconfGrammar, bind_apply, lit_append, expect, below]

theorem restconfGrammar_complete (phrase : UriPhrase) :
    restconfGrammar phrase.text = .ok phrase.value [] := by
  cases phrase with
  | restconfRoot slash => cases slash <;> rfl
  | data path =>
      refine restconfGrammar_below ((orElse_of_fail rfl).trans (orElse_eq_ok.mpr (.inl ?_)))
      exact resourceWithPath_complete (str "data") .basicRestconfData path
  | ds modulePrefix name path =>
      have below := restconfGrammar_below (resource_ds modulePrefix name path)
      simp only [UriPhrase.text, List.append_assoc]
      exact below
  | operations path =>
      refine restconfGrammar_below ((orElse_of_fail rfl).trans ((orElse_of_fail rfl).trans
        ((orElse_of_fail rfl).trans (orElse_eq_ok.mpr (.inl ?_)))))
      exact resourceWithPath_complete (str "operations") .basicRestconfOperations path
  | yangLibraryVersion slash => cases slash <;> rfl

theorem UriPhrase.text_injective {phrase other : UriPhrase} (same : phrase.text = other.text) :
    phrase = other := by
  have value : phrase.value = other.value := by
    have parsed := restconfGrammar_complete phrase
    rw [same, restconfGrammar_complete other] at parsed
    injection parsed with values
    exact values.symm
  -- the resource type leaves one alternative
  cases phrase with
  | restconfRoot slash =>
      cases other with
      | restconfRoot slash' => cases slash <;> cases slash' <;> first | rfl | cases same
      | _ => cases value
  | data path =>
      cases other with
      | data path' => rw [Path.text_injective (List.append_cancel_left same)]
      | _ => cases value
  | ds modulePrefix name path =>
      cases other with
      | ds modulePrefix' name' path' =>
          simp only [UriPhrase.text, List.append_assoc] at same
          have tail := List.append_cancel_left same
          obtain ⟨sameModule, tail⟩ :=
            recognizes_identifier.cancel (stops_colon _) (stops_colon _) tail
          obtain ⟨sameName, tail⟩ := recognizes_identifier.cancel path.stops_text
            path'.stops_text (List.append_cancel_left tail)
          rw [Identifier.text_injective sameModule, Identifier.text_injective sameName,
            Path.text_injective tail]
      | _ => cases value
  | operations path =>
      cases other with
      | operations path' => rw [Path.text_injective (List.append_cancel_left same)]
      | _ => cases value
  | yangLibraryVersion slash =>
      cases other with
      | yangLibraryVersion slash' => cases slash <;> cases slash' <;> first | rfl | cases same
      | _ => cases value

/-! ## Rendering -/

/-- The hexadecimal digit of a number below 16. -/
def hexChar (n : Nat) : UInt8 := if n < 10 then (48 + n).toUInt8 else (55 + n).toUInt8

/-- Every octet can be percent-encoded. -/
theorem Octet.exists_value (plain : UInt8 → Bool) (c : UInt8) :
    ∃ octet : Octet plain, octet.value = c := by
  have digits : ∀ n : Fin 256,
      Ascii.isXDigit (hexChar (n.val / 16)) = true ∧ Ascii.isXDigit (hexChar (n.val % 16)) = true ∧
        (hexDigit (hexChar (n.val / 16)) * 16 + hexDigit (hexChar (n.val % 16))).toUInt8 =
          UInt8.ofFin n := by
    decide +kernel
  obtain ⟨isHigh, isLow, value⟩ := digits c.toFin
  exact ⟨.encoded _ _ isHigh isLow, value⟩

/-- A list of values is the list of the values of some phrases. -/
theorem exists_map {α τ : Type} {value : τ → α} {results : List α}
    (each : ∀ result ∈ results, ∃ phrase, value phrase = result) :
    ∃ phrases : List τ, phrases.map value = results := by
  have range : results ∈ Set.range (List.map value) := by
    rw [Set.range_list_map]
    exact each
  exact range

theorem Key.exists_value (key : Str) : ∃ phrase : Key, phrase.value = key :=
  exists_map fun c _ => Octet.exists_value isUnreserved c

/-- An identifier of YANG as a text. -/
def IsIdentifier : Str → Prop
  | [] => False
  | first :: others =>
      isIdentifierStart first = true ∧ ∀ c ∈ others, isIdentifierChar c = true

instance : DecidablePred IsIdentifier
  | [] => isFalse id
  | first :: others =>
      decidable_of_iff (isIdentifierStart first && others.all isIdentifierChar)
        (by simp [IsIdentifier])

/-- The phrase for an identifier. -/
def IsIdentifier.phrase : {text : Str} → IsIdentifier text → Identifier
  | [], valid => valid.elim
  | first :: others, valid => ⟨first, others, valid.1, valid.2⟩

theorem IsIdentifier.exists_text {text : Str} (valid : IsIdentifier text) :
    ∃ name : Identifier, name.text = text := by
  refine ⟨valid.phrase, ?_⟩
  cases text with
  | nil => exact valid.elim
  | cons first others => rfl

/-- An identifier ends at the first colon. -/
theorem IsIdentifier.cancel_colon {modulePrefix other rest further : Str}
    (isModule : IsIdentifier modulePrefix) (isOther : IsIdentifier other)
    (same : modulePrefix ++ (str ":" ++ rest) = other ++ (str ":" ++ further)) :
    modulePrefix = other ∧ rest = further := by
  obtain ⟨first, rfl⟩ := isModule.exists_text
  obtain ⟨second, rfl⟩ := isOther.exists_text
  obtain ⟨name, tail⟩ :=
    recognizes_identifier.cancel (stops_colon rest) (stops_colon further) same
  exact ⟨name, List.append_cancel_left tail⟩

/-- The names of a segment are identifiers. -/
structure WellNamed (segment : PathSegment) : Prop where
  identifier : IsIdentifier segment.apiIdent.identifier
  modulePrefix : ∀ text ∈ segment.apiIdent.modulePrefix, IsIdentifier text

theorem WellNamed.exists_value {segment : PathSegment} (named : WellNamed segment) :
    ∃ phrase : Segment, phrase.value = segment := by
  obtain ⟨⟨modulePrefix, identifier⟩, keys⟩ := segment
  obtain ⟨name, rfl⟩ := named.identifier.exists_text
  obtain ⟨phrases, rfl⟩ := exists_map fun key (_ : key ∈ keys) => Key.exists_value key
  cases modulePrefix with
  | none => exact ⟨⟨⟨none, name⟩, phrases⟩, rfl⟩
  | some text =>
      obtain ⟨modulePrefix, rfl⟩ := (named.modulePrefix text rfl).exists_text
      exact ⟨⟨⟨some modulePrefix, name⟩, phrases⟩, rfl⟩

/-- Segments which make up a path. -/
structure WellFormed (segments : List PathSegment) : Prop where
  named : ∀ segment ∈ segments, WellNamed segment
  qualified : ∀ segment ∈ segments.head?, segment.apiIdent.modulePrefix.isSome = true

theorem WellFormed.exists_value {segments : List PathSegment} (valid : WellFormed segments) :
    ∃ path : Path, path.value = segments := by
  cases segments with
  | nil => exact ⟨.empty, rfl⟩
  | cons first others =>
      obtain ⟨namedFirst, namedOthers⟩ := List.forall_mem_cons.mp valid.named
      obtain ⟨⟨⟨modulePrefix, name⟩, keys⟩, rfl⟩ := namedFirst.exists_value
      obtain ⟨phrases, rfl⟩ := exists_map fun segment member =>
        (namedOthers segment member).exists_value
      cases modulePrefix with
      | none => cases valid.qualified _ rfl
      | some modulePrefix => exact ⟨.segments modulePrefix name keys phrases, rfl⟩

theorem Identifier.isIdentifier (name : Identifier) : IsIdentifier name.text :=
  ⟨name.isStart, name.areChars⟩

theorem Segment.wellNamed (segment : Segment) : WellNamed segment.value := by
  refine ⟨segment.ident.name.isIdentifier, ?_⟩
  intro text known
  obtain ⟨modulePrefix, _, rfl⟩ := Option.mem_map.mp known
  exact modulePrefix.isIdentifier

/-- Whatever follows the first segment needs no module. -/
theorem WellFormed.append {segments : List Segment}
    (valid : WellFormed (segments.map Segment.value)) (further : List Segment)
    (some : segments ≠ []) : WellFormed ((segments ++ further).map Segment.value) := by
  constructor
  case named =>
    intro segment member
    obtain ⟨phrase, _, rfl⟩ := List.mem_map.mp member
    exact phrase.wellNamed
  case qualified =>
    obtain ⟨first, others, rfl⟩ := List.exists_cons_of_ne_nil some
    exact valid.qualified

theorem Path.wellFormed (path : Path) : WellFormed path.value := by
  cases path with
  | empty => exact ⟨nofun, nofun⟩
  | slash => exact ⟨nofun, nofun⟩
  | segments modulePrefix name keys others =>
      constructor
      case named =>
        intro segment member
        obtain ⟨phrase, _, rfl⟩ := List.mem_map.mp member
        exact phrase.wellNamed
      case qualified =>
        rintro segment ⟨⟩
        rfl

theorem UriPhrase.wellFormed (phrase : UriPhrase) : WellFormed phrase.value.segments := by
  cases phrase with
  | restconfRoot _ => exact ⟨nofun, nofun⟩
  | data path => exact path.wellFormed
  | ds _ _ path => exact path.wellFormed
  | operations path => exact path.wellFormed
  | yangLibraryVersion _ => exact ⟨nofun, nofun⟩

end Grammar

/-- A parsed path which some request has. -/
structure Expressible (uri : URIPath) : Prop where
  segments : Grammar.WellFormed uri.segments
  /-- which resources have a datastore, and which have a path -/
  resource : match uri.uriPrefix.resourceType, uri.uriPrefix.datastore with
    | .restconfRoot, none => uri.segments = []
    | .basicRestconfData, none => True
    | .basicRestconfOperations, none => True
    | .nmdaDatastore, some ⟨some modulePrefix, name⟩ =>
        Grammar.IsIdentifier modulePrefix ∧ Grammar.IsIdentifier name
    | .yangLibraryVersion, none => uri.segments = []
    | _, _ => False

theorem Expressible.exists_value {uri : URIPath} (expressible : Expressible uri) :
    ∃ phrase : Grammar.UriPhrase, phrase.value = uri := by
  obtain ⟨⟨resourceType, datastore⟩, segments⟩ := uri
  obtain ⟨path, rfl⟩ := expressible.segments.exists_value
  have resource := expressible.resource
  cases resourceType with
  | restconfRoot =>
      cases datastore with
      | none => exact ⟨.restconfRoot false, by rw [show path.value = [] from resource]; rfl⟩
      | some ident => exact resource.elim
  | basicRestconfData =>
      cases datastore with
      | none => exact ⟨.data path, rfl⟩
      | some ident => exact resource.elim
  | basicRestconfOperations =>
      cases datastore with
      | none => exact ⟨.operations path, rfl⟩
      | some ident => exact resource.elim
  | nmdaDatastore =>
      rcases datastore with _ | ⟨_ | text, name⟩
      · exact resource.elim
      · exact resource.elim
      · obtain ⟨modulePrefix, rfl⟩ := resource.1.exists_text
        obtain ⟨name, rfl⟩ := resource.2.exists_text
        exact ⟨.ds modulePrefix name path, rfl⟩
  | yangLibraryVersion =>
      cases datastore with
      | none => exact ⟨.yangLibraryVersion false, by rw [show path.value = [] from resource]; rfl⟩
      | some ident => exact resource.elim

/-- A grammar has to match the whole input. -/
theorem parse_eq_ok_iff {α : Type} {uriSegment input : Str} {grammar : Parser α}
    {positionOffset : Nat} {value : α} :
    parse uriSegment grammar input positionOffset = .ok value ↔ grammar input = .ok value [] := by
  simp only [parse, Parser.bind_apply]
  cases grammar input with
  | ok result rest =>
      cases rest with
      | nil => simp [Parser.expect, Parser.eoi]
      | cons c rest => simp [Parser.expect, Parser.eoi]
  | fail => simp
  | expected rest what => simp

theorem parseUriPath_eq_ok_iff {input : Str} {uri : URIPath} :
    parseUriPath input = .ok uri ↔
      ∃ phrase : Grammar.UriPhrase, phrase.text = input ∧ phrase.value = uri := by
  constructor
  · intro parsed
    obtain ⟨phrase, rfl, rfl⟩ := Grammar.restconfGrammar_sound (parse_eq_ok_iff.mp parsed)
    exact ⟨phrase, (List.append_nil _).symm, rfl⟩
  · rintro ⟨phrase, rfl, rfl⟩
    exact parse_eq_ok_iff.mpr (Grammar.restconfGrammar_complete phrase)

/-- `parseUriPath` accepts the texts of the phrases and returns what they mean, a text
belongs to one phrase only, and every path which can be expressed has a text which is
parsed back. -/
theorem parseUriPath_phrases :
    (∀ input uri, parseUriPath input = .ok uri ↔
        ∃ phrase : Grammar.UriPhrase, phrase.text = input ∧ phrase.value = uri) ∧
      (∀ phrase other : Grammar.UriPhrase, phrase.text = other.text → phrase = other) ∧
      ∀ uri, Expressible uri →
        ∃ phrase : Grammar.UriPhrase, phrase.value = uri ∧ parseUriPath phrase.text = .ok uri := by
  refine ⟨fun _ _ => parseUriPath_eq_ok_iff,
    fun _ _ same => Grammar.UriPhrase.text_injective same, ?_⟩
  intro uri expressible
  obtain ⟨phrase, rfl⟩ := expressible.exists_value
  exact ⟨phrase, rfl, parseUriPath_eq_ok_iff.mpr ⟨phrase, rfl, rfl⟩⟩

end Rousette.Restconf.Impl
