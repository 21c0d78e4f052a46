import Rousette.Library.Viability
import Rousette.Restconf.UriRecognition

/-!
# Positions of errors in request paths

Where the rules of `restconf/uri.cpp` give up, the text before is the beginning of a phrase.
This goes through the rules one by one; the phrases which may be begun are the same ones
which the rules recognize.
-/

namespace Rousette.Restconf.Impl

open Library

namespace Grammar

open Parser

/-! ## Identifiers -/

instance Identifier.instInhabited : Inhabited Identifier :=
  ⟨⟨chr '_', [], rfl, List.forall_mem_nil _⟩⟩

instance ApiName.instInhabited : Inhabited ApiName := ⟨⟨none, default⟩⟩

theorem tentative_identifier : Tentative identifier :=
  .bind (.satisfy _) fun _ => .bind (.many (.satisfy _)) fun _ => .pure _

theorem viable_identifier : Viable identifier Identifier.text :=
  .of_recognizes recognizes_identifier tentative_identifier

theorem viable_apiIdentifier : Viable apiIdentifier ApiName.text := by
  have qualified : Viable (do let name ← identifier; lit (str ":"); return name)
      (fun phrases : Identifier × Unit => phrases.1.text ++ str ":") :=
    viable_identifier.bind fun name => (Viable.lit (str ":")).map fun _ => name
  have named (modulePrefix : Option Str) := (viable_identifier.expect (str "identifier")).map
    (ApiIdentifier.mk modulePrefix)
  apply (qualified.optional.bind named).transport
  rintro ⟨modulePrefix, name⟩
  refine ⟨⟨modulePrefix.map Prod.fst, name⟩, ?_⟩
  cases modulePrefix <;> rfl

theorem viable_fullyQualifiedApiIdentifier :
    Viable fullyQualifiedApiIdentifier
      (fun names : Identifier × Identifier => ApiName.text ⟨some names.1, names.2⟩) := by
  have named (modulePrefix : Str) := (viable_identifier.expect (str "identifier")).map
    (ApiIdentifier.mk (some modulePrefix))
  have colon := (Viable.lit (str ":")).expect (str "':'")
  apply (viable_identifier.bind fun modulePrefix => colon.bind fun _ =>
    named modulePrefix).transport
  rintro ⟨modulePrefix, _, name⟩
  refine ⟨(modulePrefix, name), ?_⟩
  simp only [ApiName.text, List.append_assoc]

/-! ## Keys -/

theorem tentative_xdigit : Tentative xdigit := .bind (.satisfy _) fun _ => .pure _

theorem tentative_hexbyte : Tentative hexbyte :=
  .bind tentative_xdigit fun _ => .bind tentative_xdigit fun _ => .pure _

section Octets

variable {accept plain : UInt8 → Bool}

/-- The percent sign can be followed by two digits. -/
theorem viable_octet (isPlain : ∀ c, plain c = true ↔ accept c = true ∧ c ≠ chr '%') :
    Viable (orElse percentEncodedChar (satisfy accept)) (Octet.text : Octet plain → Str) := by
  constructor
  case whole =>
    intro input result rest parsed
    obtain ⟨octet, split, _⟩ := (recognizes_octet isPlain).sound parsed
    exact ⟨octet, split⟩
  case begun =>
    intro input rest what gaveUp
    rcases orElse_eq_expected.mp gaveUp with encoded | ⟨_, single⟩
    · rcases bind_eq_expected.mp encoded with sign | ⟨_, middle, sign, continued⟩
      · exact absurd sign (Tentative.lit _ _ _ _)
      · rcases bind_eq_expected.mp continued with digits | ⟨_, _, _, finished⟩
        · rcases expect_eq_expected.mp digits with inside | ⟨_, rfl, _⟩
          · exact absurd inside (tentative_hexbyte _ _ _)
          · refine ⟨str "%", lit_eq_ok.mp sign, .encoded (chr '0') (chr '0') rfl rfl, ?_⟩
            exact ⟨[chr '0', chr '0'], rfl⟩
        · cases finished
    · exact absurd single (Tentative.satisfy accept _ _ _)

end Octets

theorem viable_key : Viable (orElse percentEncodedString (attr [])) Key.text := by
  have empty : Viable (attr [] : Parser Str) Key.text :=
    (Viable.pure []).transport fun _ => ⟨[], rfl⟩
  have octets : Viable percentEncodedString Key.text :=
    (viable_octet isUnreserved_iff).many1.transport fun octets => ⟨octets.1 :: octets.2, rfl⟩
  exact octets.orElse empty

theorem viable_keyList :
    Viable keyList
      (fun keys : Key × List Key => keys.1.text ++ keys.2.flatMap fun key => str "," ++ key.text) :=
  viable_key.sepBy1 (str ",")

theorem viable_keys : Viable keys keysText := by
  have noStray : Viable (expect (str "valid key value") noStrayEquals) (fun _ : Unit => []) :=
    (Viable.notFollowedBy (Tentative.lit _)).expect _
  have given := (viable_keyList.expect (str "list key values")).bind fun values =>
    noStray.map fun _ => values
  apply ((given.lit_bind (str "=")).optional.map fun values => values.getD []).transport
  intro phrases
  cases phrases with
  | none => exact ⟨[], rfl⟩
  | some phrases =>
      refine ⟨phrases.1.1 :: phrases.1.2, ?_⟩
      rw [keysText_cons]
      simp only [Viable.optionalText, Option.elim_some, List.append_nil]

/-! ## Paths -/

instance Segment.instInhabited : Inhabited Segment := ⟨⟨default, []⟩⟩

instance Path.instInhabited : Inhabited Path := ⟨.empty⟩

theorem viable_listInstance : Viable listInstance Segment.text :=
  (viable_apiIdentifier.bind fun ident => viable_keys.map (PathSegment.mk ident)).transport
    fun phrases => ⟨⟨phrases.1, phrases.2⟩, rfl⟩

theorem viable_fullyQualifiedListInstance :
    Viable fullyQualifiedListInstance (fun segment : (Identifier × Identifier) × List Key =>
      Segment.text ⟨⟨some segment.1.1, segment.1.2⟩, segment.2⟩) :=
  viable_fullyQualifiedApiIdentifier.bind fun ident => viable_keys.map (PathSegment.mk ident)

theorem viable_furtherSegments :
    Viable furtherSegments (List.flatMap fun segment : Segment => str "/" ++ segment.text) := by
  have list := (viable_listInstance.sepBy1 (str "/")).expect (str "path segment list")
  apply ((list.lit_bind (str "/")).optional.map fun others => others.getD []).transport
  intro phrases
  cases phrases with
  | none => exact ⟨[], rfl⟩
  | some phrases =>
      refine ⟨phrases.1 :: phrases.2, ?_⟩
      rw [List.flatMap_cons, List.append_assoc]
      rfl

theorem viable_uriPathContent :
    Viable uriPathContent
      (fun path : ((Identifier × Identifier) × List Key) × List Segment =>
        Segment.text ⟨⟨some path.1.1.1, path.1.1.2⟩, path.1.2⟩ ++
          path.2.flatMap fun segment => str "/" ++ segment.text) := by
  rw [uriPathContent_eq]
  exact viable_fullyQualifiedListInstance.bind fun first =>
    viable_furtherSegments.map (List.cons first)

theorem viable_uriEmpty : Viable uriEmpty (fun _ : Unit => []) := by
  constructor
  case whole =>
    intro input result rest parsed
    obtain ⟨rfl, rfl, _⟩ := uriEmpty_eq_ok.mp parsed
    exact ⟨(), rfl⟩
  case begun =>
    have tentative : Tentative uriEmpty := .bind (.followedBy .eoi) fun _ => .pure _
    intro input rest what gaveUp
    exact absurd gaveUp (tentative input rest what)

theorem viable_uriPath : Viable uriPath Path.text := by
  have maybeEmpty : Viable uriPathMaybeEmpty (Viable.optionalText
      fun path : ((Identifier × Identifier) × List Key) × List Segment =>
        Segment.text ⟨⟨some path.1.1.1, path.1.1.2⟩, path.1.2⟩ ++
          path.2.flatMap fun segment => str "/" ++ segment.text) := by
    apply Viable.orElse
    · exact viable_uriEmpty.transport fun _ => ⟨none, rfl⟩
    · exact viable_uriPathContent.transport fun path => ⟨some path, rfl⟩
  apply Viable.orElse
  · exact viable_uriEmpty.transport fun _ => ⟨.empty, rfl⟩
  · apply ((maybeEmpty.expect (str "resource path")).lit_bind (str "/")).transport
    intro content
    cases content with
    | none => exact ⟨.slash, rfl⟩
    | some path =>
        obtain ⟨⟨⟨modulePrefix, name⟩, keys⟩, others⟩ := path
        exact ⟨.segments modulePrefix name keys others, Path.text_segments _ _ _ _⟩

/-! ## Resources -/

/-- What may stand behind a text in the path of a request. -/
abbrev Behind (before : Str) :=
  { text : Str // ∃ phrase : UriPhrase, before ++ text = phrase.text }

theorem viable_resourceWithPath (word : Str) (resourceType : ResourceType) :
    Viable (resourceWithPath word resourceType) (fun path : Path => word ++ path.text) :=
  ((viable_uriPath.expect (str "uriPath")).map fun segments =>
    (⟨⟨resourceType, none⟩, segments⟩ : URIPath)).lit_bind word

theorem viable_nmdaDatastore :
    Viable nmdaDatastore (fun names : Identifier × Identifier =>
      str "/" ++ ApiName.text ⟨some names.1, names.2⟩) := by
  have slash := (Viable.lit (str "/")).expect (str "'/'")
  have datastore := (viable_fullyQualifiedApiIdentifier.expect
    (str "module-qualified identifier (module:name)")).map fun datastore =>
      (⟨.nmdaDatastore, some datastore⟩ : URIPrefix)
  exact (slash.bind fun _ => datastore).transport fun phrases => ⟨phrases.2, rfl⟩

/-- The root of the API at the end of a path. -/
theorem viable_root {before : Str} (root : ∃ phrase : UriPhrase, before ++ [] = phrase.text) :
    Viable (do eoi; return ⟨⟨.restconfRoot, none⟩, []⟩ : Parser URIPath)
      (Subtype.val : Behind before → Str) := by
  constructor
  case whole =>
    intro input result rest parsed
    obtain ⟨_, _, ended, finished⟩ := bind_eq_ok.mp parsed
    obtain ⟨rfl, rfl⟩ := eoi_eq_ok.mp ended
    cases finished
    exact ⟨⟨[], root⟩, rfl⟩
  case begun =>
    intro input rest what gaveUp
    exact absurd gaveUp (Tentative.bind .eoi (fun _ => .pure _) input rest what)

theorem viable_resource :
    Viable resource (Subtype.val : Behind (str "/restconf/") → Str) := by
  apply Viable.orElse (viable_root ⟨.restconfRoot true, rfl⟩)
  apply Viable.orElse
  · apply (viable_resourceWithPath _ _).transport
    exact fun path => ⟨⟨_, .data path, rfl⟩, rfl⟩
  apply Viable.orElse
  · have path (uriPrefix : URIPrefix) := (viable_uriPath.expect (str "uriPath")).map
      (URIPath.mk uriPrefix)
    apply (((viable_nmdaDatastore.expect (str "NMDA datastore identifier")).bind path).lit_bind
      (str "ds")).transport
    rintro ⟨⟨modulePrefix, name⟩, path⟩
    refine ⟨⟨_, .ds modulePrefix name path, ?_⟩, rfl⟩
    simp only [UriPhrase.text, ApiName.text, List.append_assoc]
    rfl
  apply Viable.orElse
  · apply (viable_resourceWithPath _ _).transport
    exact fun path => ⟨⟨_, .operations path, rfl⟩, rfl⟩
  · have slash := (Viable.lit (str "/")).optional.map fun _ =>
      (⟨⟨.yangLibraryVersion, none⟩, []⟩ : URIPath)
    apply (slash.lit_bind (str "yang-library-version")).transport
    intro slash
    cases slash with
    | none => exact ⟨⟨_, .yangLibraryVersion false, rfl⟩, rfl⟩
    | some _ => exact ⟨⟨_, .yangLibraryVersion true, rfl⟩, rfl⟩

instance Behind.instNonempty : Nonempty (Behind (str "/restconf/")) :=
  ⟨⟨[], .restconfRoot true, rfl⟩⟩

instance Behind.instNonemptyRoot : Nonempty (Behind (str "/restconf")) :=
  ⟨⟨[], .restconfRoot false, rfl⟩⟩

theorem viable_resources :
    Viable resources (Subtype.val : Behind (str "/restconf") → Str) := by
  apply Viable.orElse
  · apply ((viable_resource.expect (str "RESTCONF resource")).lit_bind (str "/")).transport
    rintro ⟨text, phrase, split⟩
    exact ⟨⟨str "/" ++ text, phrase, split⟩, rfl⟩
  · exact viable_root ⟨.restconfRoot false, rfl⟩

theorem viable_restconfGrammar : Viable restconfGrammar UriPhrase.text := by
  have restconf := (Viable.lit (str "restconf")).expect (str "\"restconf\"")
  apply ((restconf.bind fun _ => viable_resources.expect (str "RESTCONF resource")).lit_bind
    (str "/")).transport
  rintro ⟨_, text, phrase, split⟩
  exact ⟨phrase, split.symm⟩

end Grammar

end Rousette.Restconf.Impl
