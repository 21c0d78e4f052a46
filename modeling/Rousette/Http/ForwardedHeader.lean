import Rousette.Http.MediaRanges

/-!
# The header `forwarded`

`http::parseForwardedHeader` takes the scheme and the host of the original request out of what
the proxies have added, and `http::parseUrlPrefix` makes the beginning of URLs of them.  Names
of parameters are not case-sensitive; the function makes a copy of the header in lower case,
and then parses the header as it came.
-/

namespace Rousette.Http

open Library Parser

/-- `ProtoAndHost` -/
structure ProtoAndHost where
  proto : Option Str
  host : Option Str
  deriving DecidableEq, Repr

/-- The parameters of one element, a `std::map`. -/
abbrev ForwardedMap := List (Str × Str)

/-- Insertion into a `std::map`, which leaves an entry of the same name alone. -/
def ForwardedMap.insert (map : ForwardedMap) (pair : Str × Str) : ForwardedMap :=
  if (List.lookup pair.1 map).isSome then map else map ++ [pair]

namespace ForwardedGrammar

def isTokenChar (c : UInt8) : Bool :=
  Ascii.isAlnum c || c == chr '-' || c == chr '.' || c == chr '[' || c == chr ']' || c == chr ':'

def token : Parser Str := many1 (satisfy isTokenChar)

/-- The grammar of the header `accept` has the same one. -/
def quotedString : Parser Str := AcceptGrammar.quotedString

def value : Parser Str := orElse token quotedString

def forwardedPair : Parser (Str × Str) := do
  let name ← token
  let value ← (do lit (str "="); value)
  return (name, value)

def forwarded : Parser ForwardedMap := do
  let pairs ← sepBy1 forwardedPair (lit (str ";"))
  return pairs.foldl ForwardedMap.insert []

def forwardedList : Parser (List ForwardedMap) := sepBy1 forwarded (spaced (str ","))

end ForwardedGrammar

/-- `parseForwardedHeader` -/
def parseForwardedHeader (headerValue : Str) : ProtoAndHost :=
  let _str := headerValue.map Ascii.toLower
  let whole : Parser (List ForwardedMap) := do
    let elements ← ForwardedGrammar.forwardedList
    eoi
    return elements
  match whole headerValue with
  | .ok forwardedKvPairs _ =>
      let front := forwardedKvPairs.headD []
      ⟨front.lookup (str "proto"), front.lookup (str "host")⟩
  | _ => ⟨none, none⟩

/-- `parseUrlPrefix` -/
def parseUrlPrefix (headers : List (Str × Str)) : Option Str :=
  match getHeaderValue headers (str "forward") with
  | none => none
  | some forward =>
      match parseForwardedHeader forward with
      | ⟨some proto, some host⟩ => some (proto ++ str "://" ++ host)
      | _ => none

namespace ForwardedGrammar

/-! ## Phrases -/

/-- The name of a parameter, or a value without quotes. -/
structure Token where
  text : Str
  nonempty : text ≠ []
  areChars : ∀ c ∈ text, isTokenChar c = true

/-- An octet between quotes. -/
inductive QuotedOctet where
  | plain (c : UInt8) (noQuote : c ≠ chr '"') (noBackslash : c ≠ chr '\\')
  | escaped (c : UInt8)

namespace QuotedOctet

def text : QuotedOctet → Str
  | .plain c _ _ => [c]
  | .escaped c => [chr '\\', c]

def value : QuotedOctet → UInt8
  | .plain c _ _ => c
  | .escaped c => c

end QuotedOctet

/-- The value of a parameter. -/
abbrev ValuePhrase := Token ⊕ List QuotedOctet

def quotedText (octets : List QuotedOctet) : Str :=
  str "\"" ++ octets.flatMap QuotedOctet.text ++ str "\""

namespace ValuePhrase

def text : ValuePhrase → Str := Sum.elim Token.text quotedText

def value : ValuePhrase → Str := Sum.elim Token.text fun octets => octets.map QuotedOctet.value

end ValuePhrase

/-- A parameter with its value. -/
abbrev PairPhrase := Token × ValuePhrase

namespace PairPhrase

def text (pair : PairPhrase) : Str := pair.1.text ++ (str "=" ++ ValuePhrase.text pair.2)

def value (pair : PairPhrase) : Str × Str := (pair.1.text, ValuePhrase.value pair.2)

end PairPhrase

/-- What one proxy has added, one parameter and any number of further ones. -/
abbrev ElementPhrase := PairPhrase × List PairPhrase

namespace ElementPhrase

def text (element : ElementPhrase) : Str :=
  PairPhrase.text element.1 ++ element.2.flatMap fun pair => str ";" ++ PairPhrase.text pair

/-- The parameters in the order in which they are written. -/
def pairs (element : ElementPhrase) : List PairPhrase := element.1 :: element.2

def value (element : ElementPhrase) : ForwardedMap :=
  ((pairs element).map PairPhrase.value).foldl ForwardedMap.insert []

end ElementPhrase

/-- Any number of blanks. -/
abbrev Blanks := { text : Str // ∀ c ∈ text, isSpace c = true }

/-- A header: an element and further ones, each behind a comma between blanks. -/
abbrev ForwardedPhrase := ElementPhrase × List ((Blanks × Blanks) × ElementPhrase)

namespace ForwardedPhrase

def commaText (blanks : Blanks × Blanks) : Str := blanks.1.1 ++ (str "," ++ blanks.2.1)

def text (phrase : ForwardedPhrase) : Str :=
  ElementPhrase.text phrase.1 ++ phrase.2.flatMap fun further =>
    commaText further.1 ++ ElementPhrase.text further.2

def value (phrase : ForwardedPhrase) : List ForwardedMap :=
  ElementPhrase.value phrase.1 :: phrase.2.map fun further => ElementPhrase.value further.2

end ForwardedPhrase

/-! ## Recognition -/

theorem recognizes_token : Recognizes token Token.text Token.text (Stops isTokenChar) := by
  constructor
  case sound =>
    intro input result rest parsed
    obtain ⟨first, _, start, continued⟩ := bind_eq_ok.mp parsed
    obtain ⟨others, _, chars, finished⟩ := bind_eq_ok.mp continued
    obtain ⟨rfl, isFirst⟩ := satisfy_eq_ok.mp start
    obtain ⟨rfl, areOthers⟩ := many_satisfy_eq_ok chars
    cases finished
    exact ⟨⟨_, List.cons_ne_nil _ _, List.forall_mem_cons.mpr ⟨isFirst, areOthers⟩⟩, rfl, rfl⟩
  case complete =>
    rintro ⟨text, nonempty, areChars⟩ rest stops
    cases text with
    | nil => exact absurd rfl nonempty
    | cons first others =>
        obtain ⟨isFirst, areOthers⟩ := List.forall_mem_cons.mp areChars
        have start : satisfy isTokenChar (first :: (others ++ rest)) =
            .ok first (others ++ rest) := satisfy_eq_ok.mpr ⟨rfl, isFirst⟩
        simp only [token, many1, List.cons_append, bind_apply, start,
          many_satisfy_append areOthers stops, pure_apply]

/-- One octet between quotes. -/
def quotedOctet : Parser UInt8 :=
  orElse (do lit (str "\\"); satisfy fun _ => true) (satisfy (· != chr '"'))

theorem quotedString_eq :
    quotedString = do
      lit (str "\"")
      let text ← many quotedOctet
      lit (str "\"")
      return text := rfl

/-- A backslash stands for itself at the end of the input only, where no quote follows. -/
theorem quotedOctet_sound {input rest : Str} {result : UInt8}
    (parsed : quotedOctet input = .ok result rest) :
    (∃ octet : QuotedOctet, input = octet.text ++ rest ∧ result = octet.value) ∨ rest = [] := by
  rcases orElse_eq_ok.mp parsed with escaped | ⟨unescaped, single⟩
  · obtain ⟨_, _, backslash, any⟩ := bind_eq_ok.mp escaped
    obtain rfl := lit_eq_ok.mp backslash
    obtain ⟨rfl, _⟩ := satisfy_eq_ok.mp any
    exact .inl ⟨.escaped result, rfl, rfl⟩
  · obtain ⟨rfl, noQuote⟩ := satisfy_eq_ok.mp single
    by_cases backslash : result = chr '\\'
    · subst backslash
      cases rest with
      | nil => exact .inr rfl
      | cons c rest => cases unescaped
    · exact .inl ⟨.plain result (bne_iff_ne.mp noQuote) backslash, rfl, rfl⟩

theorem quotedOctet_complete (octet : QuotedOctet) (rest : Str) :
    quotedOctet (octet.text ++ rest) = .ok octet.value rest := by
  cases octet with
  | plain c noQuote noBackslash =>
      have stops : Stops (· == chr '\\') (c :: rest) := stops_cons.mpr (beq_false_of_ne noBackslash)
      have unescaped : lit (str "\\") (c :: rest) = .fail := lit_fail stops rfl
      exact (orElse_of_fail (lit_bind_fail unescaped)).trans
        (satisfy_eq_ok.mpr ⟨rfl, bne_iff_ne.mpr noQuote⟩)
  | escaped c => rfl

theorem repeated_quotedOctet {input rest : Str} {results : Str}
    (repeated : Repeated quotedOctet input results rest) (more : rest ≠ []) :
    ∃ octets : List QuotedOctet,
      input = octets.flatMap QuotedOctet.text ++ rest ∧ results = octets.map QuotedOctet.value := by
  induction repeated with
  | nil => exact ⟨[], rfl, rfl⟩
  | cons first _ ih =>
      obtain ⟨octets, rfl, rfl⟩ := ih more
      rcases quotedOctet_sound first with ⟨octet, rfl, rfl⟩ | nothing
      · exact ⟨octet :: octets, by simp, rfl⟩
      · exact absurd (List.append_eq_nil_iff.mp nothing).2 more

theorem recognizes_quotedString :
    Recognizes quotedString quotedText (fun octets => octets.map QuotedOctet.value)
      (fun _ => True) := by
  constructor
  case sound =>
    intro input result rest parsed
    obtain ⟨_, _, opening, parsed⟩ := bind_eq_ok.mp parsed
    obtain ⟨text, _, inside, parsed⟩ := bind_eq_ok.mp parsed
    obtain ⟨_, _, closing, finished⟩ := bind_eq_ok.mp parsed
    obtain rfl := lit_eq_ok.mp opening
    obtain rfl := lit_eq_ok.mp closing
    obtain ⟨octets, rfl, rfl⟩ := repeated_quotedOctet (repeated_of_upTo _ inside) (by simp [str])
    cases finished
    exact ⟨octets, by simp [quotedText], rfl⟩
  case complete =>
    intro octets rest _
    have inside : many quotedOctet (octets.flatMap QuotedOctet.text ++ (str "\"" ++ rest)) =
        .ok (octets.map QuotedOctet.value) (str "\"" ++ rest) := by
      have nonempty (octet : QuotedOctet) : octet.text ≠ [] := by
        cases octet <;> simp [QuotedOctet.text]
      have length := Recognizes.length_le_flatMap nonempty octets
      have stop : ∀ left : Str, left.head? = some (chr '"') →
          True ∧ quotedOctet left = .fail := by
        intro left quote
        cases left with
        | nil => cases quote
        | cons c left =>
            cases quote
            exact ⟨trivial, rfl⟩
      refine Recognizes.upTo_complete (fun octet {rest} _ => quotedOctet_complete octet rest)
        (fun _ _ => trivial) stop octets ?_ rfl
      rw [List.length_append]
      omega
    simp only [quotedString_eq, quotedText, bind_apply, List.append_assoc, lit_append, inside,
      pure_apply]

theorem recognizes_value :
    Recognizes value ValuePhrase.text ValuePhrase.value (Stops isTokenChar) := by
  refine recognizes_token.orElse (recognizes_quotedString.strengthen fun _ _ => trivial) ?_
  exact fun _ _ => rfl

theorem recognizes_forwardedPair :
    Recognizes forwardedPair PairPhrase.text PairPhrase.value (Stops isTokenChar) :=
  recognizes_token.seq (recognizes_value.lit_bind (str "=")) Prod.mk
    fun _ _ _ => stops_cons.mpr (by decide)

/-- What may not follow an element. -/
def continuesElement (c : UInt8) : Bool := isTokenChar c || c == chr ';'

theorem recognizes_forwarded :
    Recognizes forwarded ElementPhrase.text ElementPhrase.value (Stops continuesElement) := by
  have pairs := @Recognizes.sepBy1 _ _ _ _ _ _ (Stops continuesElement) recognizes_forwardedPair
    (str ";") (by decide) (fun _ => stops_cons.mpr (by decide)) fun _ stops =>
      ⟨stops.mono fun c accepted => by simp [continuesElement, accepted], lit_fail stops rfl⟩
  constructor
  case sound =>
    intro input result rest parsed
    obtain ⟨_, _, first, finished⟩ := bind_eq_ok.mp parsed
    obtain ⟨element, rfl, rfl⟩ := pairs.sound first
    cases finished
    exact ⟨element, rfl, rfl⟩
  case complete =>
    intro element rest stops
    have parsed := pairs.complete element stops
    exact bind_eq_ok.mpr ⟨_, _, parsed, rfl⟩

/-- Blanks are taken as far as they go. -/
theorem many_isSpace (blanks : Blanks) {rest : Str} (stops : Stops isSpace rest) :
    many (satisfy isSpace) (blanks.1 ++ rest) = .ok blanks.1 rest :=
  many_satisfy_append blanks.2 stops

theorem recognizes_comma :
    Recognizes (spaced (str ",")) ForwardedPhrase.commaText (fun _ => ()) (Stops isSpace) := by
  constructor
  case sound =>
    intro input result rest parsed
    obtain ⟨_, _, before, parsed⟩ := bind_eq_ok.mp parsed
    obtain ⟨_, _, comma, parsed⟩ := bind_eq_ok.mp parsed
    obtain ⟨_, _, after, finished⟩ := bind_eq_ok.mp parsed
    obtain ⟨rfl, areBefore⟩ := many_satisfy_eq_ok before
    obtain rfl := lit_eq_ok.mp comma
    obtain ⟨rfl, areAfter⟩ := many_satisfy_eq_ok after
    cases finished
    exact ⟨(⟨_, areBefore⟩, ⟨_, areAfter⟩), by simp [ForwardedPhrase.commaText], rfl⟩
  case complete =>
    rintro ⟨before, after⟩ rest stops
    have comma : Stops isSpace (str "," ++ (after.1 ++ rest)) := stops_cons.mpr rfl
    have first := many_isSpace before comma
    have second := many_isSpace after stops
    simp only [spaced, ForwardedPhrase.commaText, bind_apply, List.append_assoc, first,
      lit_append, second, pure_apply]

/-- Blanks are neither in tokens nor between the parameters of an element. -/
theorem continuesElement_of_isSpace {c : UInt8} (space : isSpace c = true) :
    continuesElement c = false := by
  have octets : ∀ n : Fin 256, isSpace (.ofFin n) = true → continuesElement (.ofFin n) = false := by
    decide +kernel
  exact octets c.toFin space

theorem stops_isSpace_text (element : ElementPhrase) (rest : Str) :
    Stops isSpace (ElementPhrase.text element ++ rest) := by
  obtain ⟨⟨⟨text, nonempty, areChars⟩, value⟩, others⟩ := element
  cases text with
  | nil => exact absurd rfl nonempty
  | cons first text =>
      refine stops_cons.mpr ?_
      cases space : isSpace first with
      | false => rfl
      | true =>
          have other := continuesElement_of_isSpace space
          simp [continuesElement, areChars first List.mem_cons_self] at other

theorem stops_commaText (blanks : Blanks × Blanks) (rest : Str) :
    Stops continuesElement (ForwardedPhrase.commaText blanks ++ rest) := by
  obtain ⟨⟨before, areBlanks⟩, after⟩ := blanks
  cases before with
  | nil => exact stops_cons.mpr (by decide)
  | cons c before =>
      exact stops_cons.mpr (continuesElement_of_isSpace (areBlanks c List.mem_cons_self))

/-- The whole header is read. -/
theorem recognizes_forwardedList :
    Recognizes forwardedList ForwardedPhrase.text ForwardedPhrase.value (· = []) := by
  have further := recognizes_forwarded.behind recognizes_comma
    fun element rest _ => stops_isSpace_text element rest
  have others := @Recognizes.many _ _ _ _ _ _ (· = []) further
    (fun phrase empty => by simp [ForwardedPhrase.commaText, str] at empty)
    (fun phrase rest => by
      rw [List.append_assoc]
      exact stops_commaText phrase.1 _)
    (fun rest last => by
      subst last
      exact ⟨stops_nil _, rfl⟩)
  refine recognizes_forwarded.seq others List.cons ?_
  rintro phrases rest rfl
  cases phrases with
  | nil => exact stops_nil _
  | cons phrase phrases =>
      rw [List.flatMap_cons, List.append_assoc, List.append_assoc]
      exact stops_commaText phrase.1 _

end ForwardedGrammar

open ForwardedGrammar

/-! ## Lookup -/

/-- An entry which was inserted first is the one which is found. -/
theorem lookup_insert (map : ForwardedMap) (pair : Str × Str) (name : Str) :
    List.lookup name (map.insert pair) = List.lookup name (map ++ [pair]) := by
  obtain ⟨key, text⟩ := pair
  unfold ForwardedMap.insert
  split
  next known =>
    obtain ⟨value, found⟩ := Option.isSome_iff_exists.mp known
    rw [List.lookup_append]
    by_cases same : name = key
    · subst same
      simp [found]
    · have other : (name == key) = false := beq_false_of_ne same
      simp [List.lookup_cons, other]
  · rfl

theorem lookup_foldl_insert (pairs : List (Str × Str)) (map : ForwardedMap) (name : Str) :
    List.lookup name (pairs.foldl ForwardedMap.insert map) = List.lookup name (map ++ pairs) := by
  induction pairs generalizing map with
  | nil => rw [List.append_nil]; rfl
  | cons pair pairs ih =>
      have single : map ++ pair :: pairs = (map ++ [pair]) ++ pairs := by simp
      rw [List.foldl_cons, ih, List.lookup_append, lookup_insert, single, ← List.lookup_append]

/-- What is returned for a header which is accepted. -/
theorem parseForwardedHeader_text (phrase : ForwardedPhrase) :
    parseForwardedHeader phrase.text =
      ⟨((ElementPhrase.pairs phrase.1).map PairPhrase.value).lookup (str "proto"),
        ((ElementPhrase.pairs phrase.1).map PairPhrase.value).lookup (str "host")⟩ := by
  have parsed := recognizes_forwardedList.complete phrase rfl
  rw [List.append_nil] at parsed
  have whole : (do
      let elements ← forwardedList
      eoi
      return elements : Parser (List ForwardedMap)) phrase.text = .ok phrase.value [] :=
    bind_eq_ok.mpr ⟨_, _, parsed, rfl⟩
  simp only [parseForwardedHeader, whole, ForwardedPhrase.value, List.headD_cons,
    ElementPhrase.value, lookup_foldl_insert, List.nil_append]

/-! ## Letter case of names -/

namespace ForwardedGrammar

/-- The name of a parameter, however it is spelled. -/
def PairPhrase.name (pair : PairPhrase) : Str := pair.1.text.map Ascii.toLower

/-- The value of the first of the parameters which has this name. -/
def named (pairs : List PairPhrase) (name : Str) : Option Str :=
  (pairs.find? fun pair => PairPhrase.name pair == name).map fun pair => ValuePhrase.value pair.2

/-- The first parameter of this name is spelled in lower case, or the first one which is has the
same value. -/
def Spelled (pairs : List PairPhrase) (name : Str) : Prop :=
  ∀ before pair after, pairs = before ++ pair :: after →
    (∀ other ∈ before, PairPhrase.name other ≠ name) → PairPhrase.name pair = name →
      pair.1.text = name ∨
        (after.map PairPhrase.value).lookup name = some (ValuePhrase.value pair.2)

section Spelling

variable {pairs before after : List PairPhrase} {pair : PairPhrase} {name : Str}

theorem named_append (others : ∀ other ∈ before, PairPhrase.name other ≠ name)
    (this : PairPhrase.name pair = name) :
    named (before ++ pair :: after) name = some (ValuePhrase.value pair.2) := by
  have nothing : before.find? (fun pair => PairPhrase.name pair == name) = none :=
    List.find?_eq_none.mpr fun other member => by simpa using others other member
  rw [named, List.find?_append, nothing]
  simp [this]

/-- A name which is found as it is spelled is in lower case. -/
theorem lookup_append (lower : name.map Ascii.toLower = name)
    (others : ∀ other ∈ before, PairPhrase.name other ≠ name) :
    ((before ++ pair :: after).map PairPhrase.value).lookup name =
      if pair.1.text = name then some (ValuePhrase.value pair.2)
      else (after.map PairPhrase.value).lookup name := by
  have nothing : (before.map PairPhrase.value).lookup name = none := by
    rw [List.lookup_eq_none_iff]
    intro entry member
    obtain ⟨other, among, rfl⟩ := List.mem_map.mp member
    rw [bne_iff_ne]
    rintro rfl
    exact others other among lower
  rw [List.map_append, List.lookup_append, nothing, List.map_cons, PairPhrase.value,
    List.lookup_cons, Option.none_or]
  by_cases same : pair.1.text = name
  · simp [same]
  · have other : (name == pair.1.text) = false := beq_false_of_ne (Ne.symm same)
    simp [same, other]

theorem lookup_eq_named_iff (lower : name.map Ascii.toLower = name) :
    (pairs.map PairPhrase.value).lookup name = named pairs name ↔ Spelled pairs name := by
  have here {before after : List PairPhrase} {pair : PairPhrase}
      (others : ∀ other ∈ before, PairPhrase.name other ≠ name)
      (this : PairPhrase.name pair = name) :
      ((before ++ pair :: after).map PairPhrase.value).lookup name =
          named (before ++ pair :: after) name ↔
        (pair.1.text = name ∨
          (after.map PairPhrase.value).lookup name = some (ValuePhrase.value pair.2)) := by
    rw [lookup_append lower others, named_append others this]
    by_cases same : pair.1.text = name <;> simp [same]
  constructor
  case mp =>
    rintro found before pair after rfl others this
    exact (here others this).mp found
  case mpr =>
    intro spelled
    cases found : pairs.find? fun pair => PairPhrase.name pair == name with
    | none =>
        have others := List.find?_eq_none.mp found
        rw [named, found, Option.map_none, List.lookup_eq_none_iff]
        intro entry member
        obtain ⟨other, among, rfl⟩ := List.mem_map.mp member
        rw [bne_iff_ne]
        rintro rfl
        exact others other among (beq_iff_eq.mpr lower)
    | some pair =>
        obtain ⟨this, before, after, rfl, others⟩ := List.find?_eq_some_iff_append.mp found
        have this := beq_iff_eq.mp this
        have others : ∀ other ∈ before, PairPhrase.name other ≠ name :=
          fun other member => by simpa using others other member
        exact (here others this).mpr (spelled before pair after rfl others this)

end Spelling

namespace ForwardedPhrase

/-- What the first proxy has told. -/
def original (phrase : ForwardedPhrase) : ProtoAndHost :=
  ⟨named (ElementPhrase.pairs phrase.1) (str "proto"),
    named (ElementPhrase.pairs phrase.1) (str "host")⟩

/-- The parameters, with their names in lower case. -/
def foldPairs (element : ElementPhrase) : List (Str × ValuePhrase) :=
  (ElementPhrase.pairs element).map fun pair => (PairPhrase.name pair, pair.2)

/-- Two headers differ in the letter case of the names of parameters only. -/
def SameButCase (phrase other : ForwardedPhrase) : Prop :=
  foldPairs phrase.1 = foldPairs other.1 ∧
    phrase.2.map (fun further => (further.1, foldPairs further.2)) =
      other.2.map fun further => (further.1, foldPairs further.2)

/-- Neither name is missed in the first element, nor a wrong value taken for it. -/
def FindsNames (phrase : ForwardedPhrase) : Prop :=
  Spelled (ElementPhrase.pairs phrase.1) (str "proto") ∧
    Spelled (ElementPhrase.pairs phrase.1) (str "host")

theorem parse_eq_original_iff (phrase : ForwardedPhrase) :
    parseForwardedHeader phrase.text = phrase.original ↔ phrase.FindsNames := by
  have proto := @lookup_eq_named_iff (ElementPhrase.pairs phrase.1) (str "proto") rfl
  have host := @lookup_eq_named_iff (ElementPhrase.pairs phrase.1) (str "host") rfl
  rw [parseForwardedHeader_text, original, ProtoAndHost.mk.injEq, proto, host, FindsNames]

/-- What was told is read from the folded parameters. -/
theorem named_eq (element : ElementPhrase) (name : Str) :
    named (ElementPhrase.pairs element) name =
      ((foldPairs element).find? fun pair => pair.1 == name).map fun pair =>
        ValuePhrase.value pair.2 := by
  rw [named, foldPairs, List.find?_map, Option.map_map]
  rfl

theorem original_eq {phrase other : ForwardedPhrase} (same : SameButCase phrase other) :
    phrase.original = other.original := by
  simp only [original, named_eq, same.1]

end ForwardedPhrase

/-- Two headers which are the same but for the letter case of names give what the first proxy has
told, both of them, exactly if neither spells the names which are looked for in another way. -/
theorem parseForwardedHeader_caseless_iff {phrase other : ForwardedPhrase}
    (same : phrase.SameButCase other) :
    (parseForwardedHeader phrase.text = parseForwardedHeader other.text ∧
        parseForwardedHeader phrase.text = phrase.original) ↔
      phrase.FindsNames ∧ other.FindsNames := by
  rw [← phrase.parse_eq_original_iff, ← other.parse_eq_original_iff]
  have told := ForwardedPhrase.original_eq same
  constructor
  case mp =>
    rintro ⟨equal, found⟩
    exact ⟨found, by rw [← equal, found, told]⟩
  case mpr =>
    rintro ⟨found, foundOther⟩
    exact ⟨by rw [found, foundOther, told], found⟩

/-- A token out of characters which are known to be allowed. -/
def Token.ofChars (text : Str) (valid : (!text.isEmpty && text.all isTokenChar) = true) :
    Token where
  text
  nonempty := by
    rintro rfl
    cases valid
  areChars := List.all_eq_true.mp (Bool.and_eq_true_iff.mp valid).2

/-- One proxy which has told its address, the host and the scheme, with these names. -/
def proxied (forName host proto : Token) : ForwardedPhrase :=
  (((forName, .inl (.ofChars (str "192.0.2.60") rfl)),
    [(host, .inl (.ofChars (str "example.net") rfl)),
      (proto, .inl (.ofChars (str "https") rfl))]), [])

theorem proxied_caseless :
    parseForwardedHeader (str "for=192.0.2.60;host=example.net;proto=https") =
        parseForwardedHeader (str "For=192.0.2.60;host=example.net;proto=https") ∧
      parseForwardedHeader (str "for=192.0.2.60;host=example.net;proto=https") =
        ⟨some (str "https"), some (str "example.net")⟩ := by
  refine (@parseForwardedHeader_caseless_iff
    (proxied (.ofChars (str "for") rfl) (.ofChars (str "host") rfl) (.ofChars (str "proto") rfl))
    (proxied (.ofChars (str "For") rfl) (.ofChars (str "host") rfl) (.ofChars (str "proto") rfl))
    ⟨rfl, rfl⟩).mpr ⟨?_, ?_⟩
  · exact (ForwardedPhrase.parse_eq_original_iff _).mp rfl
  · exact (ForwardedPhrase.parse_eq_original_iff _).mp rfl

/-- A proxy which begins the names with capital letters. -/
theorem proxied_capitalized :
    let lower := proxied (.ofChars (str "for") rfl) (.ofChars (str "host") rfl)
      (.ofChars (str "proto") rfl)
    let capitalized := proxied (.ofChars (str "For") rfl) (.ofChars (str "Host") rfl)
      (.ofChars (str "Proto") rfl)
    lower.SameButCase capitalized ∧
      parseForwardedHeader lower.text = ⟨some (str "https"), some (str "example.net")⟩ ∧
      parseForwardedHeader capitalized.text = ⟨none, none⟩ :=
  ⟨⟨rfl, rfl⟩, rfl, rfl⟩

end ForwardedGrammar

/-! ## URLs -/

/-- The phrases are all of the headers which are accepted. -/
theorem parseForwardedHeader_rejected {headerValue : Str}
    (rejected : ∀ phrase : ForwardedPhrase, headerValue ≠ phrase.text) :
    parseForwardedHeader headerValue = ⟨none, none⟩ := by
  simp only [parseForwardedHeader]
  split
  next elements _ whole =>
    obtain ⟨_, _, list, continued⟩ := bind_eq_ok.mp whole
    obtain ⟨_, _, ended, _⟩ := bind_eq_ok.mp continued
    obtain ⟨phrase, rfl, rfl⟩ := recognizes_forwardedList.sound list
    obtain ⟨rfl, rfl⟩ := eoi_eq_ok.mp ended
    exact absurd (List.append_nil _) (rejected phrase)
  · rfl

/-- URLs get a beginning if and only if the header is accepted and has both parts of it. -/
theorem parseUrlPrefix_eq_some {headers : List (Str × Str)} {url : Str} :
    parseUrlPrefix headers = some url ↔
      ∃ (phrase : ForwardedPhrase) (proto host : Str),
        getHeaderValue headers (str "forward") = some phrase.text ∧
        parseForwardedHeader phrase.text = ⟨some proto, some host⟩ ∧
        url = proto ++ str "://" ++ host := by
  unfold parseUrlPrefix
  cases getHeaderValue headers (str "forward") with
  | none => simp
  | some forward =>
      constructor
      case mp =>
        intro found
        simp only at found
        split at found
        next proto host parts =>
          have accepted : ∃ phrase : ForwardedPhrase, forward = phrase.text := by
            by_contra none
            rw [parseForwardedHeader_rejected (not_exists.mp none)] at parts
            cases parts
          obtain ⟨phrase, rfl⟩ := accepted
          exact ⟨phrase, proto, host, rfl, parts, (Option.some.inj found).symm⟩
        · cases found
      case mpr =>
        rintro ⟨phrase, proto, host, same, parts, rfl⟩
        obtain rfl := Option.some.inj same
        simp only [parts]

end Rousette.Http
