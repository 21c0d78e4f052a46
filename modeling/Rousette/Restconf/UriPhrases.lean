import Rousette.Library.Recognition
import Rousette.Restconf.UriGrammar

/-!
# Phrases of request paths

The grammar of request paths without any order between its alternatives: a phrase says
which alternatives it is derived by, down to the single octets of the keys.  The rules of
`restconf/uri.cpp` for names, keys, segments and paths recognize these phrases, and every
phrase is determined by its text.
-/

namespace Rousette.Restconf.Impl

open Library

namespace Grammar

open Parser

/-- An identifier of YANG. -/
structure Identifier where
  first : UInt8
  others : Str
  isStart : isIdentifierStart first = true
  areChars : ∀ c ∈ others, isIdentifierChar c = true

def Identifier.text (name : Identifier) : Str := name.first :: name.others

/-- An octet which stands for itself, if it is in the class, or which is percent-encoded in
either letter case. -/
inductive Octet (plain : UInt8 → Bool) where
  | plain (c : UInt8) (allowed : plain c = true)
  | encoded (high low : UInt8) (isHigh : Ascii.isXDigit high = true)
      (isLow : Ascii.isXDigit low = true)

namespace Octet

variable {plain : UInt8 → Bool}

def text : Octet plain → Str
  | .plain c _ => [c]
  | .encoded high low _ _ => [chr '%', high, low]

def value : Octet plain → UInt8
  | .plain c _ => c
  | .encoded high low _ _ => (hexDigit high * 16 + hexDigit low).toUInt8

end Octet

/-- An octet which needs no encoding in a key. -/
def isUnreserved (c : UInt8) : Bool := !isReserved c

/-- A key, which may be empty. -/
abbrev Key := List (Octet isUnreserved)

def Key.text (key : Key) : Str := key.flatMap Octet.text

def Key.value (key : Key) : Str := key.map Octet.value

/-- An identifier, optionally qualified by a module. -/
structure ApiName where
  modulePrefix : Option Identifier
  name : Identifier

def ApiName.text : ApiName → Str
  | ⟨none, name⟩ => name.text
  | ⟨some modulePrefix, name⟩ => modulePrefix.text ++ str ":" ++ name.text

def ApiName.value (name : ApiName) : ApiIdentifier :=
  ⟨name.modulePrefix.map Identifier.text, name.name.text⟩

theorem ApiName.text_eq (name : ApiName) : name.text = name.value.qualifiedName := by
  obtain ⟨modulePrefix, name⟩ := name
  cases modulePrefix <;> rfl

/-- Nothing, or the keys of a list instance. -/
def keysText : List Key → Str
  | [] => []
  | key :: keys => str "=" ++ join (str ",") ((key :: keys).map Key.text)

structure Segment where
  ident : ApiName
  keys : List Key

def Segment.text (segment : Segment) : Str := segment.ident.text ++ keysText segment.keys

def Segment.value (segment : Segment) : PathSegment :=
  ⟨segment.ident.value, segment.keys.map Key.value⟩

/-- A path below a resource; its first segment is qualified. -/
inductive Path where
  | empty
  | slash
  | segments (modulePrefix name : Identifier) (keys : List Key) (others : List Segment)

namespace Path

def text : Path → Str
  | .empty => []
  | .slash => str "/"
  | .segments modulePrefix name keys others =>
      str "/" ++ join (str "/")
        ((⟨⟨some modulePrefix, name⟩, keys⟩ :: others : List Segment).map Segment.text)

def value : Path → List PathSegment
  | .empty => []
  | .slash => []
  | .segments modulePrefix name keys others =>
      (⟨⟨some modulePrefix, name⟩, keys⟩ :: others : List Segment).map Segment.value

end Path

/-- The path of a request. -/
inductive UriPhrase where
  | restconfRoot (slash : Bool)
  | data (path : Path)
  | ds (modulePrefix name : Identifier) (path : Path)
  | operations (path : Path)
  | yangLibraryVersion (slash : Bool)

namespace UriPhrase

def optionalSlash (slash : Bool) : Str := if slash then str "/" else []

def text : UriPhrase → Str
  | .restconfRoot slash => str "/restconf" ++ optionalSlash slash
  | .data path => str "/restconf/data" ++ path.text
  | .ds modulePrefix name path =>
      str "/restconf/ds/" ++ modulePrefix.text ++ str ":" ++ name.text ++ path.text
  | .operations path => str "/restconf/operations" ++ path.text
  | .yangLibraryVersion slash => str "/restconf/yang-library-version" ++ optionalSlash slash

def value : UriPhrase → URIPath
  | .restconfRoot _ => ⟨⟨.restconfRoot, none⟩, []⟩
  | .data path => ⟨⟨.basicRestconfData, none⟩, path.value⟩
  | .ds modulePrefix name path =>
      ⟨⟨.nmdaDatastore, some ⟨some modulePrefix.text, name.text⟩⟩, path.value⟩
  | .operations path => ⟨⟨.basicRestconfOperations, none⟩, path.value⟩
  | .yangLibraryVersion _ => ⟨⟨.yangLibraryVersion, none⟩, []⟩

end UriPhrase

/-! ## Identifiers -/

theorem recognizes_identifier :
    Recognizes identifier Identifier.text Identifier.text (Stops isIdentifierChar) := by
  constructor
  case sound =>
    intro input result rest parsed
    obtain ⟨first, _, start, continued⟩ := bind_eq_ok.mp parsed
    obtain ⟨others, _, chars, finished⟩ := bind_eq_ok.mp continued
    obtain ⟨rfl, isStart⟩ := satisfy_eq_ok.mp start
    obtain ⟨rfl, areChars⟩ := many_satisfy_eq_ok chars
    cases finished
    exact ⟨⟨first, others, isStart, areChars⟩, rfl, rfl⟩
  case complete =>
    rintro ⟨first, others, isStart, areChars⟩ rest stops
    have start : satisfy isIdentifierStart (first :: (others ++ rest)) =
        .ok first (others ++ rest) := satisfy_eq_ok.mpr ⟨rfl, isStart⟩
    simp only [identifier, Identifier.text, List.cons_append, bind_apply, start,
      many_satisfy_append areChars stops, pure_apply]

theorem Identifier.text_injective {name other : Identifier} (same : name.text = other.text) :
    name = other := by
  obtain ⟨first, others, _, _⟩ := name
  obtain ⟨first', others', _, _⟩ := other
  cases same
  rfl

/-- What may not follow an identifier which stands alone. -/
def continuesName (c : UInt8) : Bool := isIdentifierChar c || c == chr ':'

theorem continuesName_of_isIdentifierChar (c : UInt8) (accepted : isIdentifierChar c = true) :
    continuesName c = true := by
  simp [continuesName, accepted]

theorem stops_colon (rest : Str) : Stops isIdentifierChar (str ":" ++ rest) :=
  stops_cons.mpr (by decide)

theorem recognizes_apiIdentifier :
    Recognizes apiIdentifier ApiName.text ApiName.value (Stops continuesName) := by
  constructor
  case sound =>
    intro input result rest parsed
    obtain ⟨modulePrefix, _, first, continued⟩ := bind_eq_ok.mp parsed
    obtain ⟨_, _, second, finished⟩ := bind_eq_ok.mp continued
    obtain ⟨name, rfl, rfl⟩ := recognizes_identifier.sound (expect_eq_ok.mp second)
    cases finished
    rcases optional_eq_ok.mp first with ⟨_, rfl, qualified⟩ | ⟨rfl, rfl, _⟩
    · obtain ⟨_, _, third, separated⟩ := bind_eq_ok.mp qualified
      obtain ⟨_, _, colon, same⟩ := bind_eq_ok.mp separated
      obtain ⟨modulePrefix, rfl, rfl⟩ := recognizes_identifier.sound third
      cases same
      rw [lit_eq_ok.mp colon]
      exact ⟨⟨some modulePrefix, name⟩, by simp [ApiName.text], rfl⟩
    · exact ⟨⟨none, name⟩, rfl, rfl⟩
  case complete =>
    rintro ⟨modulePrefix, name⟩ rest stops
    have ends : Stops isIdentifierChar rest := stops.mono continuesName_of_isIdentifierChar
    have named (rest : Str) (ends : Stops isIdentifierChar rest) :
        expect (str "identifier") identifier (name.text ++ rest) = .ok name.text rest :=
      expect_eq_ok.mpr (recognizes_identifier.complete name ends)
    cases modulePrefix with
    | none =>
        have noColon : lit (str ":") rest = .fail := lit_fail stops rfl
        have unqualified : Parser.optional (do let name ← identifier; lit (str ":"); return name)
            (name.text ++ rest) = .ok none (name.text ++ rest) := by
          apply optional_of_fail
          simp only [bind_apply, recognizes_identifier.complete name ends, noColon]
        simp only [apiIdentifier, ApiName.text, bind_apply, unqualified, named rest ends,
          pure_apply, ApiName.value, Option.map_none]
    | some modulePrefix =>
        have colon := stops_colon (name.text ++ rest)
        have qualified : Parser.optional (do let name ← identifier; lit (str ":"); return name)
            (modulePrefix.text ++ (str ":" ++ (name.text ++ rest))) =
              .ok (some modulePrefix.text) (name.text ++ rest) := by
          apply optional_of_ok
          simp only [bind_apply, recognizes_identifier.complete modulePrefix colon, lit_append,
            pure_apply]
        simp only [apiIdentifier, ApiName.text, List.append_assoc, bind_apply, qualified,
          named rest ends, pure_apply, ApiName.value, Option.map_some]

/-! ## Keys -/

theorem recognizes_xdigit : Recognizes xdigit
    (fun digit : { c // Ascii.isXDigit c = true } => [digit.1])
    (fun digit => hexDigit digit.1) (fun _ => True) := by
  constructor
  case sound =>
    intro input result rest parsed
    obtain ⟨c, _, first, finished⟩ := bind_eq_ok.mp parsed
    obtain ⟨rfl, isDigit⟩ := satisfy_eq_ok.mp first
    cases finished
    exact ⟨⟨c, isDigit⟩, rfl, rfl⟩
  case complete =>
    rintro ⟨c, isDigit⟩ rest -
    simp [xdigit, bind_apply, satisfy, isDigit]

/-- The percent sign leaves no other choice. -/
theorem percentEncodedChar_ne_fail (rest : Str) :
    percentEncodedChar (chr '%' :: rest) ≠ .fail := by
  have sign : lit (str "%") (chr '%' :: rest) = .ok () rest := lit_append (str "%") rest
  simp only [percentEncodedChar, bind_apply, sign, expect]
  cases hexbyte rest <;> simp

section Octets

variable {accept plain : UInt8 → Bool}

/-- The octets of a class, except for the percent sign. -/
theorem recognizes_octet
    (isPlain : ∀ c, plain c = true ↔ accept c = true ∧ c ≠ chr '%') :
    Recognizes (orElse percentEncodedChar (satisfy accept)) (Octet.text : Octet plain → Str)
      Octet.value (fun _ => True) := by
  constructor
  case sound =>
    intro input result rest parsed
    rcases orElse_eq_ok.mp parsed with encoded | ⟨unencoded, single⟩
    · obtain ⟨_, _, sign, continued⟩ := bind_eq_ok.mp encoded
      obtain ⟨_, _, octet, finished⟩ := bind_eq_ok.mp continued
      obtain ⟨_, _, first, continued'⟩ := bind_eq_ok.mp (expect_eq_ok.mp octet)
      obtain ⟨_, _, second, same⟩ := bind_eq_ok.mp continued'
      obtain ⟨high, rfl, rfl⟩ := recognizes_xdigit.sound first
      obtain ⟨low, rfl, rfl⟩ := recognizes_xdigit.sound second
      cases same
      cases finished
      have split := lit_eq_ok.mp sign
      exact ⟨.encoded high.1 low.1 high.2 low.2, split, rfl⟩
    · obtain ⟨rfl, accepted⟩ := satisfy_eq_ok.mp single
      have noSign : result ≠ chr '%' := by
        rintro rfl
        exact percentEncodedChar_ne_fail rest unencoded
      exact ⟨.plain result ((isPlain result).mpr ⟨accepted, noSign⟩), rfl, rfl⟩
  case complete =>
    intro octet rest _
    cases octet with
    | plain c allowed =>
        obtain ⟨accepted, noSign⟩ := (isPlain c).mp allowed
        have unencoded : percentEncodedChar (c :: rest) = .fail := by
          have stops : Stops (· == chr '%') (c :: rest) := stops_cons.mpr (beq_false_of_ne noSign)
          have other : lit (str "%") (c :: rest) = .fail := lit_fail stops rfl
          simp only [percentEncodedChar, bind_apply, other]
        exact (orElse_of_fail unencoded).trans (satisfy_eq_ok.mpr ⟨rfl, accepted⟩)
    | encoded high low isHigh isLow =>
        have sign : lit (str "%") (chr '%' :: high :: low :: rest) =
            .ok () (high :: low :: rest) := lit_append (str "%") _
        have first : xdigit (high :: low :: rest) = .ok (hexDigit high) (low :: rest) :=
          recognizes_xdigit.complete ⟨high, isHigh⟩ trivial
        have second : xdigit (low :: rest) = .ok (hexDigit low) rest :=
          recognizes_xdigit.complete ⟨low, isLow⟩ trivial
        refine orElse_eq_ok.mpr (.inl ?_)
        simp only [Octet.text, List.cons_append, List.nil_append, percentEncodedChar, bind_apply,
          sign, expect, hexbyte, first, second, pure_apply, Octet.value]

theorem Octet.text_ne_nil (octet : Octet plain) : octet.text ≠ [] := by
  cases octet <;> simp [Octet.text]

theorem Octet.text_injective {octet other : Octet plain} (same : octet.text = other.text) :
    octet = other := by
  cases octet with
  | plain c allowed =>
      cases other with
      | plain d allowed' =>
          cases same
          rfl
      | encoded high low isHigh isLow => simp [Octet.text] at same
  | encoded high low isHigh isLow =>
      cases other with
      | plain d allowed => simp [Octet.text] at same
      | encoded high' low' isHigh' isLow' =>
          cases same
          rfl

/-- No octet begins here. -/
theorem octet_fail {rest : Str} (stops : Stops (fun c => accept c || c == chr '%') rest) :
    orElse percentEncodedChar (satisfy accept) rest = .fail := by
  have noSign : Stops (· == chr '%') rest := by
    intro c head
    exact (Bool.or_eq_false_iff.mp (stops c head)).2
  have refused : Stops accept rest := by
    intro c head
    exact (Bool.or_eq_false_iff.mp (stops c head)).1
  have unencoded : percentEncodedChar rest = .fail := by
    have other : lit (str "%") rest = .fail := lit_fail noSign rfl
    simp only [percentEncodedChar, bind_apply, other]
  exact (orElse_of_fail unencoded).trans (satisfy_fail refused)

end Octets

/-- What may not follow a path segment. -/
def continuesSegment (c : UInt8) : Bool :=
  isUnreserved c || c == chr ':' || c == chr '%' || c == chr ',' || c == chr '='

/-- Identifiers need no encoding. -/
theorem isUnreserved_of_isIdentifierChar (c : UInt8) (accepted : isIdentifierChar c = true) :
    isUnreserved c = true := by
  have octets : ∀ n : Fin 256, isIdentifierChar (.ofFin n) = true →
      isUnreserved (.ofFin n) = true := by
    decide +kernel
  exact octets c.toFin accepted

theorem continuesSegment_of_continuesName (c : UInt8) (accepted : continuesName c = true) :
    continuesSegment c = true := by
  rcases Bool.or_eq_true_iff.mp accepted with name | colon
  · simp [continuesSegment, isUnreserved_of_isIdentifierChar c name]
  · simp [continuesSegment, beq_iff_eq.mp colon]

theorem isUnreserved_iff (c : UInt8) :
    isUnreserved c = true ↔ (!isReserved c) = true ∧ c ≠ chr '%' := by
  constructor
  · intro unreserved
    refine ⟨unreserved, ?_⟩
    rintro rfl
    exact absurd unreserved (by decide)
  · exact fun unreserved => unreserved.1

theorem recognizes_percentEncodedString :
    Recognizes percentEncodedString
      (fun octets : Octet isUnreserved × List (Octet isUnreserved) =>
        octets.1.text ++ octets.2.flatMap Octet.text)
      (fun octets => octets.1.value :: octets.2.map Octet.value)
      (Stops fun c => isUnreserved c || c == chr '%') :=
  (recognizes_octet isUnreserved_iff).many1 Octet.text_ne_nil (fun _ _ => trivial)
    fun _ stops => ⟨trivial, octet_fail stops⟩

theorem recognizes_key :
    Recognizes (orElse percentEncodedString (attr [])) Key.text Key.value
      (Stops fun c => isUnreserved c || c == chr '%') := by
  constructor
  case sound =>
    intro input result rest parsed
    rcases orElse_eq_ok.mp parsed with some | ⟨_, none⟩
    · obtain ⟨⟨octet, octets⟩, rfl, rfl⟩ := recognizes_percentEncodedString.sound some
      exact ⟨octet :: octets, rfl, rfl⟩
    · cases none
      exact ⟨[], rfl, rfl⟩
  case complete =>
    intro key rest stops
    cases key with
    | nil =>
        have noOctet : orElse percentEncodedChar (satisfy fun c => !isReserved c) rest = .fail :=
          octet_fail stops
        have none : percentEncodedString rest = .fail := by
          simp only [percentEncodedString, many1, bind_apply, noOctet]
        exact orElse_of_fail none
    | cons octet octets =>
        have parsed := recognizes_percentEncodedString.complete (octet, octets) stops
        exact orElse_eq_ok.mpr (.inl parsed)

theorem Key.text_injective {key other : Key} (same : key.text = other.text) : key = other :=
  (recognizes_octet isUnreserved_iff).flatMap_injective Octet.text_ne_nil (fun _ _ => trivial)
    trivial Octet.text_injective same

theorem recognizes_keyList :
    Recognizes keyList
      (fun keys : Key × List Key => keys.1.text ++ keys.2.flatMap fun key => str "," ++ key.text)
      (fun keys => keys.1.value :: keys.2.map Key.value) (Stops continuesSegment) := by
  refine recognizes_key.sepBy1 (by decide) ?_ ?_
  · intro rest
    exact stops_cons.mpr (by decide)
  · intro rest stops
    refine ⟨stops.mono fun c accepted => ?_, lit_fail stops rfl⟩
    rcases Bool.or_eq_true_iff.mp accepted with plain | sign
    · simp [continuesSegment, plain]
    · simp [continuesSegment, beq_iff_eq.mp sign]

theorem keysText_cons (key : Key) (keys : List Key) :
    keysText (key :: keys) =
      str "=" ++ (key.text ++ keys.flatMap fun key => str "," ++ key.text) := by
  rw [keysText, Recognizes.join_map_cons]

theorem recognizes_keys :
    Recognizes keys keysText (List.map Key.value) (Stops continuesSegment) := by
  constructor
  case sound =>
    intro input result rest parsed
    obtain ⟨values, _, first, finished⟩ := bind_eq_ok.mp parsed
    cases finished
    rcases optional_eq_ok.mp first with ⟨_, rfl, given⟩ | ⟨rfl, rfl, _⟩
    · obtain ⟨_, _, equals, continued⟩ := bind_eq_ok.mp given
      obtain ⟨_, middle, list, continued'⟩ := bind_eq_ok.mp continued
      obtain ⟨_, _, noStray, same⟩ := bind_eq_ok.mp continued'
      obtain ⟨⟨key, keys⟩, rfl, rfl⟩ := recognizes_keyList.sound (expect_eq_ok.mp list)
      obtain ⟨rfl, _⟩ := notFollowedBy_eq_ok.mp (expect_eq_ok.mp noStray)
      cases same
      have split := lit_eq_ok.mp equals
      exact ⟨key :: keys, by simpa [keysText_cons] using split, rfl⟩
    · exact ⟨[], rfl, rfl⟩
  case complete =>
    intro phrase rest stops
    have noEquals : lit (str "=") rest = .fail := lit_fail stops rfl
    cases phrase with
    | nil =>
        have absent : Parser.optional (do
            lit (str "=")
            let values ← expect (str "list key values") keyList
            expect (str "valid key value") noStrayEquals
            return values) rest = .ok none rest := by
          apply optional_of_fail
          simp only [bind_apply, noEquals]
        simp only [keys, keysText, List.nil_append, bind_apply, absent, pure_apply,
          Option.getD_none, List.map_nil]
    | cons key others =>
        have list := (recognizes_keyList.expect (str "list key values")).complete (key, others)
          stops
        have noStray : expect (str "valid key value") noStrayEquals rest = .ok () rest :=
          expect_eq_ok.mpr (notFollowedBy_eq_ok.mpr ⟨rfl, noEquals⟩)
        have given : Parser.optional (do
            lit (str "=")
            let values ← expect (str "list key values") keyList
            expect (str "valid key value") noStrayEquals
            return values) (keysText (key :: others) ++ rest) =
              .ok (some ((key :: others).map Key.value)) rest := by
          apply optional_of_ok
          rw [keysText_cons, List.append_assoc]
          simp only [bind_apply, lit_append, list, noStray, pure_apply, List.map_cons]
        simp only [keys, bind_apply, given, pure_apply, Option.getD_some]

theorem keysText_injective {keys others : List Key} (same : keysText keys = keysText others) :
    keys = others := by
  cases keys with
  | nil =>
      cases others with
      | nil => rfl
      | cons key others =>
          rw [keysText_cons] at same
          cases same
  | cons key keys =>
      cases others with
      | nil =>
          rw [keysText_cons] at same
          cases same
      | cons other others =>
          rw [keysText_cons, keysText_cons] at same
          have tail := List.append_cancel_left same
          obtain ⟨rfl, rfl⟩ := recognizes_key.sepBy_injective (by decide)
            (fun _ => stops_cons.mpr (by decide)) (stops_nil _) Key.text_injective tail
          rfl

/-! ## Segments -/

theorem stops_keysText (keys : List Key) {rest : Str} (stops : Stops continuesSegment rest) :
    Stops continuesName (keysText keys ++ rest) := by
  cases keys with
  | nil => exact stops.mono continuesSegment_of_continuesName
  | cons key keys =>
      rw [keysText_cons]
      exact stops_cons.mpr (by decide)

theorem recognizes_listInstance :
    Recognizes listInstance Segment.text Segment.value (Stops continuesSegment) := by
  refine (recognizes_apiIdentifier.seq recognizes_keys PathSegment.mk ?_).transport
    (fun phrases => ⟨phrases.1, phrases.2⟩) ?_ (fun _ => rfl) (fun _ => rfl)
  · exact fun keys _ stops => stops_keysText keys stops
  · exact fun segment => ⟨(segment.ident, segment.keys), rfl⟩

/-- An identifier has no colon. -/
theorem Identifier.text_ne_qualified (name modulePrefix other : Identifier) :
    name.text ≠ modulePrefix.text ++ str ":" ++ other.text := by
  intro same
  rw [List.append_assoc, ← List.append_nil name.text] at same
  have rest := (recognizes_identifier.cancel (stops_nil _) (stops_colon _) same).2
  cases rest

theorem ApiName.text_injective {name other : ApiName} (same : name.text = other.text) :
    name = other := by
  obtain ⟨modulePrefix, name⟩ := name
  obtain ⟨modulePrefix', name'⟩ := other
  cases modulePrefix with
  | none =>
      cases modulePrefix' with
      | none => rw [Identifier.text_injective same]
      | some modulePrefix' => exact absurd same (name.text_ne_qualified modulePrefix' name')
  | some modulePrefix =>
      cases modulePrefix' with
      | none => exact absurd same.symm (name'.text_ne_qualified modulePrefix name)
      | some modulePrefix' =>
          simp only [ApiName.text, List.append_assoc] at same
          obtain ⟨first, rest⟩ :=
            recognizes_identifier.cancel (stops_colon _) (stops_colon _) same
          rw [Identifier.text_injective first,
            Identifier.text_injective (List.append_cancel_left rest)]

theorem Segment.text_injective {segment other : Segment} (same : segment.text = other.text) :
    segment = other := by
  obtain ⟨ident, keys⟩ := segment
  obtain ⟨ident', keys'⟩ := other
  have ends (keys : List Key) : Stops continuesName (keysText keys) := by
    simpa using stops_keysText keys (stops_nil _)
  obtain ⟨first, rest⟩ := recognizes_apiIdentifier.cancel (ends keys) (ends keys') same
  have sameIdent : ident = ident' := ApiName.text_injective first
  rw [sameIdent, keysText_injective rest]

theorem recognizes_fullyQualifiedApiIdentifier :
    Recognizes fullyQualifiedApiIdentifier
      (fun names : Identifier × Identifier => ApiName.text ⟨some names.1, names.2⟩)
      (fun names => ApiName.value ⟨some names.1, names.2⟩) (Stops isIdentifierChar) := by
  constructor
  case sound =>
    intro input result rest parsed
    obtain ⟨_, _, first, continued⟩ := bind_eq_ok.mp parsed
    obtain ⟨_, _, colon, continued'⟩ := bind_eq_ok.mp continued
    obtain ⟨_, _, second, finished⟩ := bind_eq_ok.mp continued'
    obtain ⟨modulePrefix, rfl, rfl⟩ := recognizes_identifier.sound first
    obtain ⟨name, rfl, rfl⟩ := recognizes_identifier.sound (expect_eq_ok.mp second)
    cases finished
    refine ⟨(modulePrefix, name), ?_, rfl⟩
    rw [lit_eq_ok.mp (expect_eq_ok.mp colon)]
    simp only [ApiName.text, List.append_assoc]
  case complete =>
    rintro ⟨modulePrefix, name⟩ rest ends
    have first := recognizes_identifier.complete modulePrefix (stops_colon (name.text ++ rest))
    have colon : expect (str "':'") (lit (str ":")) (str ":" ++ (name.text ++ rest)) =
        .ok () (name.text ++ rest) := expect_eq_ok.mpr (lit_append _ _)
    have second := (recognizes_identifier.expect (str "identifier")).complete name ends
    simp only [fullyQualifiedApiIdentifier, ApiName.text, List.append_assoc, bind_apply, first,
      colon, second, pure_apply, ApiName.value, Option.map_some]

theorem recognizes_fullyQualifiedListInstance :
    Recognizes fullyQualifiedListInstance
      (fun segment : (Identifier × Identifier) × List Key =>
        Segment.text ⟨⟨some segment.1.1, segment.1.2⟩, segment.2⟩)
      (fun segment => Segment.value ⟨⟨some segment.1.1, segment.1.2⟩, segment.2⟩)
      (Stops continuesSegment) :=
  recognizes_fullyQualifiedApiIdentifier.seq recognizes_keys PathSegment.mk
    fun keys _ stops => (stops_keysText keys stops).mono continuesName_of_isIdentifierChar

/-! ## Paths -/

/-- What may not follow a path. -/
def continuesPath (c : UInt8) : Bool := continuesSegment c || c == chr '/'

theorem continuesPath_of_continuesSegment (c : UInt8) (accepted : continuesSegment c = true) :
    continuesPath c = true := by
  simp [continuesPath, accepted]

/-- The segments after the first one. -/
def furtherSegments : Parser (List PathSegment) := do
  let others ← Parser.optional do
    lit (str "/")
    expect (str "path segment list") (sepBy1 listInstance (lit (str "/")))
  return others.getD []

theorem recognizes_furtherSegments :
    Recognizes furtherSegments
      (List.flatMap fun segment : Segment => str "/" ++ segment.text) (List.map Segment.value)
      (Stops continuesPath) := by
  have list : Recognizes (expect (str "path segment list") (sepBy1 listInstance (lit (str "/"))))
      (fun segments : Segment × List Segment =>
        segments.1.text ++ segments.2.flatMap fun segment => str "/" ++ segment.text)
      (fun segments => segments.1.value :: segments.2.map Segment.value)
      (Stops continuesPath) := by
    refine Recognizes.expect (recognizes_listInstance.sepBy1 (by decide) ?_ ?_) _
    · exact fun rest => stops_cons.mpr (by decide)
    · intro rest stops
      exact ⟨stops.mono continuesPath_of_continuesSegment, lit_fail stops rfl⟩
  constructor
  case sound =>
    intro input result rest parsed
    obtain ⟨_, _, first, finished⟩ := bind_eq_ok.mp parsed
    cases finished
    rcases optional_eq_ok.mp first with ⟨_, rfl, given⟩ | ⟨rfl, rfl, _⟩
    · obtain ⟨⟨segment, segments⟩, rfl, rfl⟩ := (list.lit_bind _).sound given
      exact ⟨segment :: segments, by simp, rfl⟩
    · exact ⟨[], rfl, rfl⟩
  case complete =>
    intro segments rest stops
    cases segments with
    | nil =>
        have noSlash : lit (str "/") rest = .fail := lit_fail stops rfl
        have absent : Parser.optional (do
            lit (str "/")
            expect (str "path segment list") (sepBy1 listInstance (lit (str "/")))) rest =
              .ok none rest := by
          apply optional_of_fail
          simp only [bind_apply, noSlash]
        simp only [furtherSegments, List.flatMap_nil, List.nil_append, bind_apply, absent,
          pure_apply, Option.getD_none, List.map_nil]
    | cons segment segments =>
        have given := optional_of_ok ((list.lit_bind (str "/")).complete (segment, segments) stops)
        rw [List.flatMap_cons, List.append_assoc, List.append_assoc]
        simp only [List.append_assoc] at given
        simp only [furtherSegments, bind_apply, given, pure_apply, Option.getD_some,
          List.map_cons]

theorem uriPathContent_eq :
    uriPathContent = do
      let first ← fullyQualifiedListInstance
      let others ← furtherSegments
      return first :: others := by
  funext input
  simp only [uriPathContent, furtherSegments, bind_apply, pure_apply]
  cases fullyQualifiedListInstance input with
  | ok first rest =>
      simp only
      split <;> rfl
  | fail => rfl
  | expected rest what => rfl

theorem recognizes_uriPathContent :
    Recognizes uriPathContent
      (fun path : ((Identifier × Identifier) × List Key) × List Segment =>
        Segment.text ⟨⟨some path.1.1.1, path.1.1.2⟩, path.1.2⟩ ++
          path.2.flatMap fun segment => str "/" ++ segment.text)
      (fun path => Segment.value ⟨⟨some path.1.1.1, path.1.1.2⟩, path.1.2⟩ ::
        path.2.map Segment.value)
      (Stops continuesPath) := by
  rw [uriPathContent_eq]
  refine recognizes_fullyQualifiedListInstance.seq recognizes_furtherSegments List.cons ?_
  intro segments rest stops
  refine Recognizes.follow_flatMap ?_ ?_ segments stops
  · exact fun segment rest => stops_cons.mpr (by decide)
  · exact fun rest stops => stops.mono continuesPath_of_continuesSegment

theorem Path.text_segments (modulePrefix name : Identifier) (keys : List Key)
    (others : List Segment) :
    (Path.segments modulePrefix name keys others).text =
      str "/" ++ (Segment.text ⟨⟨some modulePrefix, name⟩, keys⟩ ++
        others.flatMap fun segment => str "/" ++ segment.text) := by
  rw [Path.text, Recognizes.join_map_cons]

/-- Does the path have a segment? -/
def Path.hasSegments : Path → Bool
  | .empty => false
  | .slash => false
  | .segments _ _ _ _ => true

theorem uriEmpty_eq_ok {input rest : Str} {result : List PathSegment} :
    uriEmpty input = .ok result rest ↔ input = [] ∧ rest = [] ∧ result = [] := by
  cases input with
  | nil => simp [uriEmpty, bind_apply, followedBy, eoi, eq_comm, and_comm]
  | cons c input => simp [uriEmpty, bind_apply, followedBy, eoi]

/-- A path without segments is accepted at the end of the input only. -/
theorem uriPath_sound {input rest : Str} {result : List PathSegment}
    (parsed : uriPath input = .ok result rest) :
    ∃ path : Path, input = path.text ++ rest ∧ result = path.value ∧
      (path.hasSegments = false → rest = []) := by
  rcases orElse_eq_ok.mp parsed with nothing | ⟨_, something⟩
  · obtain ⟨rfl, rfl, rfl⟩ := uriEmpty_eq_ok.mp nothing
    exact ⟨.empty, rfl, rfl, fun _ => rfl⟩
  · obtain ⟨_, _, slash, continued⟩ := bind_eq_ok.mp something
    obtain rfl := lit_eq_ok.mp slash
    rcases orElse_eq_ok.mp (expect_eq_ok.mp continued) with nothing | ⟨_, content⟩
    · obtain ⟨rfl, rfl, rfl⟩ := uriEmpty_eq_ok.mp nothing
      exact ⟨.slash, rfl, rfl, fun _ => rfl⟩
    · obtain ⟨⟨⟨⟨modulePrefix, name⟩, keys⟩, others⟩, rfl, rfl⟩ :=
        recognizes_uriPathContent.sound content
      refine ⟨.segments modulePrefix name keys others, ?_, rfl, nofun⟩
      simp only [Path.text_segments, List.append_assoc]

theorem uriPath_complete (path : Path) {rest : Str} (stops : Stops continuesPath rest)
    (last : path.hasSegments = false → rest = []) :
    uriPath (path.text ++ rest) = .ok path.value rest := by
  cases path with
  | empty =>
      rw [last rfl]
      rfl
  | slash =>
      rw [last rfl]
      rfl
  | segments modulePrefix name keys others =>
      have content := recognizes_uriPathContent.complete
        (((modulePrefix, name), keys), others) stops
      have more : uriPathMaybeEmpty (Segment.text ⟨⟨some modulePrefix, name⟩, keys⟩ ++
          (others.flatMap fun segment => str "/" ++ segment.text) ++ rest) =
            .ok (Path.segments modulePrefix name keys others).value rest := by
        refine (orElse_of_fail ?_).trans content
        rfl
      rw [Path.text_segments, List.append_assoc]
      have slash := lit_append (str "/") (Segment.text ⟨⟨some modulePrefix, name⟩, keys⟩ ++
        (others.flatMap fun segment => str "/" ++ segment.text) ++ rest)
      refine (orElse_of_fail rfl).trans ?_
      simp only [bind_apply, slash, expect, more]

theorem Path.text_injective {path other : Path} (same : path.text = other.text) :
    path = other := by
  have first (modulePrefix name : Identifier) (keys : List Key) (others : List Segment) :
      (Path.segments modulePrefix name keys others).text ≠ str "/" := by
    intro none
    rw [Path.text_segments] at none
    have empty := List.append_cancel_left (none.trans (List.append_nil _).symm)
    cases (List.append_eq_nil_iff.mp empty).1
  cases path with
  | empty =>
      cases other with
      | empty => rfl
      | slash => cases same
      | segments => cases same
  | slash =>
      cases other with
      | empty => cases same
      | slash => rfl
      | segments modulePrefix name keys others =>
          exact absurd same.symm (first modulePrefix name keys others)
  | segments modulePrefix name keys others =>
      cases other with
      | empty => cases same
      | slash => exact absurd same (first modulePrefix name keys others)
      | segments modulePrefix' name' keys' others' =>
          rw [Path.text_segments, Path.text_segments] at same
          have tail := List.append_cancel_left same
          obtain ⟨sameFirst, rfl⟩ := recognizes_listInstance.sepBy_injective (by decide)
            (fun _ => stops_cons.mpr (by decide)) (stops_nil _) Segment.text_injective tail
          cases sameFirst
          rfl

end Grammar

end Rousette.Restconf.Impl
