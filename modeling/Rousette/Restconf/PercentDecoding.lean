import Rousette.Restconf.UriJoin

/-!
# Percent-decoded request paths

The path of a request is available in two forms: as it was sent, and with everything in it
percent-decoded by nghttp2.  The parser decodes the keys by itself and needs the former; in the
latter it takes the reserved octets of the keys for parts of the syntax.
-/

namespace Rousette.Restconf

open Library

/-- How nghttp2 makes `uri().path` from `uri().raw_path`: whatever is not a percent sign with two
digits is left as it is. -/
def percentDecode : Str → Str
  | c :: high :: low :: rest =>
      if c = chr '%' ∧ Ascii.isXDigit high = true ∧ Ascii.isXDigit low = true then
        (Impl.Grammar.hexDigit high * 16 + Impl.Grammar.hexDigit low).toUInt8 ::
          percentDecode rest
      else c :: percentDecode (high :: low :: rest)
  | text => text

@[simp] theorem percentDecode_nil : percentDecode [] = [] := rfl

theorem percentDecode_encoded {high low : UInt8} (isHigh : Ascii.isXDigit high = true)
    (isLow : Ascii.isXDigit low = true) (rest : Str) :
    percentDecode (chr '%' :: high :: low :: rest) =
      (Impl.Grammar.hexDigit high * 16 + Impl.Grammar.hexDigit low).toUInt8 ::
        percentDecode rest := by
  rw [percentDecode, if_pos ⟨rfl, isHigh, isLow⟩]

theorem percentDecode_cons {c : UInt8} (noSign : c ≠ chr '%') (rest : Str) :
    percentDecode (c :: rest) = c :: percentDecode rest := by
  match rest with
  | [] => rfl
  | [_] => rfl
  | high :: low :: rest => rw [percentDecode, if_neg fun sign => noSign sign.1]

theorem percentDecode_append {text : Str} (noSigns : chr '%' ∉ text) (rest : Str) :
    percentDecode (text ++ rest) = text ++ percentDecode rest := by
  induction text with
  | nil => rfl
  | cons c text ih =>
      have noSign : c ≠ chr '%' := fun sign => noSigns (sign ▸ List.mem_cons_self)
      have others : chr '%' ∉ text := fun sign => noSigns (List.mem_cons_of_mem c sign)
      rw [List.cons_append, percentDecode_cons noSign, ih others, List.cons_append]

theorem isXDigit_ne_percent {c : UInt8} (digit : Ascii.isXDigit c = true) : c ≠ chr '%' := by
  rintro rfl
  cases digit

/-- An octet in front adds one octet at most. -/
theorem length_percentDecode_cons_le (c : UInt8) (rest : Str) :
    (percentDecode (c :: rest)).length ≤ 1 + (percentDecode rest).length := by
  match rest with
  | [] => exact Nat.le_refl _
  | [_] => exact Nat.le_refl _
  | high :: low :: rest =>
      rw [percentDecode]
      split
      case isTrue encoded =>
        obtain ⟨_, isHigh, isLow⟩ := encoded
        rw [percentDecode_cons (isXDigit_ne_percent isHigh),
          percentDecode_cons (isXDigit_ne_percent isLow)]
        simp only [List.length_cons]
        omega
      case isFalse _ =>
        simp only [List.length_cons]
        omega

theorem length_percentDecode_append_le (text rest : Str) :
    (percentDecode (text ++ rest)).length ≤ text.length + (percentDecode rest).length := by
  induction text with
  | nil => simp
  | cons c text ih =>
      have step := length_percentDecode_cons_le c (text ++ rest)
      simp only [List.cons_append, List.length_cons] at step ⊢
      omega

/-- A text is decoded to another one, whatever comes after it. -/
def Decodes (text decoded : Str) : Prop :=
  ∀ rest, percentDecode (text ++ rest) = decoded ++ percentDecode rest

namespace Decodes

theorem self {text decoded : Str} (decodes : Decodes text decoded) :
    percentDecode text = decoded := by
  have whole := decodes []
  rwa [List.append_nil, percentDecode_nil, List.append_nil] at whole

theorem of_noSigns {text : Str} (noSigns : chr '%' ∉ text) : Decodes text text :=
  fun rest => percentDecode_append noSigns rest

theorem append {text decoded other otherDecoded : Str} (first : Decodes text decoded)
    (second : Decodes other otherDecoded) :
    Decodes (text ++ other) (decoded ++ otherDecoded) := by
  intro rest
  rw [List.append_assoc, first, second, List.append_assoc]

theorem flatMap {τ : Type} {text decoded : τ → Str}
    (each : ∀ part, Decodes (text part) (decoded part)) (parts : List τ) :
    Decodes (parts.flatMap text) (parts.flatMap decoded) := by
  induction parts with
  | nil => exact fun _ => rfl
  | cons part parts ih => exact (each part).append ih

end Decodes

/-! ## Texts without any encoding -/

namespace Impl.Grammar

open Parser

/-- The keys of a segment as they are. -/
def plainKeys : List Str → Str
  | [] => []
  | key :: keys => str "=" ++ join (str ",") (key :: keys)

/-- Segments, with their keys as they are. -/
def plainText (segments : List PathSegment) : Str :=
  segments.flatMap fun segment =>
    [chr '/'] ++ (segment.apiIdent.qualifiedName ++ plainKeys segment.keys)

theorem plainText_append (segments others : List PathSegment) :
    plainText (segments ++ others) = plainText segments ++ plainText others :=
  List.flatMap_append

theorem plainKeys_map_cons {τ : Type} (text : τ → Str) (key : τ) (keys : List τ) :
    plainKeys ((key :: keys).map text) =
      str "=" ++ (text key ++ keys.flatMap fun key => str "," ++ text key) := by
  rw [← Recognizes.join_map_cons]
  rfl

theorem keysText_eq (keys : List Key) : keysText keys = plainKeys (keys.map Key.text) := by
  cases keys <;> rfl

theorem Octet.decodes (octet : Octet isUnreserved) : Decodes octet.text [octet.value] := by
  intro rest
  cases octet with
  | plain c allowed =>
      have noSign := ((isUnreserved_iff c).mp allowed).2
      exact percentDecode_cons noSign rest
  | encoded high low isHigh isLow => exact percentDecode_encoded isHigh isLow rest

theorem Key.value_eq (key : Key) : key.value = key.flatMap fun octet => [octet.value] :=
  List.map_eq_flatMap

theorem Key.decodes (key : Key) : Decodes key.text key.value := by
  rw [key.value_eq]
  exact .flatMap Octet.decodes key

theorem Identifier.noSigns (name : Identifier) : chr '%' ∉ name.text := by
  intro member
  rcases List.mem_cons.mp member with first | other
  · have start := name.isStart
    rw [← first] at start
    cases start
  · cases name.areChars _ other

theorem ApiName.noSigns (name : ApiName) : chr '%' ∉ name.text := by
  obtain ⟨modulePrefix, name⟩ := name
  cases modulePrefix with
  | none => exact name.noSigns
  | some modulePrefix =>
      intro member
      rcases List.mem_append.mp member with inPrefix | inName
      · rcases List.mem_append.mp inPrefix with inModule | colon
        · exact modulePrefix.noSigns inModule
        · cases List.mem_singleton.mp colon
      · exact name.noSigns inName

theorem decodes_keysText (keys : List Key) :
    Decodes (keysText keys) (plainKeys (keys.map Key.value)) := by
  cases keys with
  | nil => exact fun _ => rfl
  | cons key keys =>
      rw [keysText_cons, plainKeys_map_cons]
      have equals : Decodes (str "=") (str "=") := .of_noSigns (by decide)
      have comma : Decodes (str ",") (str ",") := .of_noSigns (by decide)
      exact equals.append (key.decodes.append (.flatMap (fun key => comma.append key.decodes) keys))

/-- The rendering of the keys is undone. -/
theorem decodes_segmentsText (segments : List Segment) :
    Decodes (segmentsText segments) (plainText (segments.map Segment.value)) := by
  have slash : Decodes [chr '/'] [chr '/'] := .of_noSigns (by decide)
  have names (segment : Segment) :
      Decodes segment.ident.text segment.value.apiIdent.qualifiedName := by
    rw [show segment.value.apiIdent.qualifiedName = segment.ident.text from
      segment.ident.text_eq.symm]
    exact .of_noSigns segment.ident.noSigns
  rw [plainText, List.flatMap_map]
  exact .flatMap (fun segment => slash.append ((names segment).append
    (decodes_keysText segment.keys))) segments

theorem Path.length_plainText_le (path : Path) :
    (plainText path.value).length ≤ (percentDecode path.text).length := by
  by_cases isSlash : path = .slash
  · subst isSlash
    exact Nat.zero_le _
  · rw [path.text_eq isSlash, path.value_eq, (decodes_segmentsText path.listed).self]

theorem plainText_begins (segments : List PathSegment) :
    plainText segments = [] ∨ (plainText segments).head? = some (chr '/') := by
  cases segments with
  | nil => exact .inl rfl
  | cons segment segments => exact .inr rfl

theorem plainText_ne_slash (segments : List Segment) :
    plainText (segments.map Segment.value) ≠ str "/" := by
  intro slash
  cases segments with
  | nil => cases slash
  | cons segment segments =>
      obtain ⟨⟨modulePrefix, name⟩, keys⟩ := segment
      cases modulePrefix <;> cases (List.cons.inj slash).2

/-! ## Keys which need no encoding -/

/-- None of the keys has any octet which is reserved for the syntax. -/
def NeedsNoEncoding (segments : List PathSegment) : Prop :=
  ∀ segment ∈ segments, ∀ key ∈ segment.keys, ∀ c ∈ key, isUnreserved c = true

instance : DecidablePred NeedsNoEncoding := fun segments =>
  decidable_of_iff (segments.all fun segment => segment.keys.all fun key => key.all isUnreserved)
    (by simp [NeedsNoEncoding])

theorem Key.exists_plain {key : Str} (unreserved : ∀ c ∈ key, isUnreserved c = true) :
    ∃ plain : Key, plain.value = key ∧ plain.text = key := by
  induction key with
  | nil => exact ⟨[], rfl, rfl⟩
  | cons c key ih =>
      obtain ⟨first, others⟩ := List.forall_mem_cons.mp unreserved
      obtain ⟨plain, value, text⟩ := ih others
      refine ⟨.plain c first :: plain, ?_, ?_⟩
      · exact congrArg (c :: ·) value
      · exact congrArg (c :: ·) text

theorem exists_plain_keys {keys : List Str}
    (unreserved : ∀ key ∈ keys, ∀ c ∈ key, isUnreserved c = true) :
    ∃ plain : List Key, plain.map Key.value = keys ∧ plain.map Key.text = keys := by
  induction keys with
  | nil => exact ⟨[], rfl, rfl⟩
  | cons key keys ih =>
      obtain ⟨first, others⟩ := List.forall_mem_cons.mp unreserved
      obtain ⟨plainKey, keyValue, keyText⟩ := Key.exists_plain first
      obtain ⟨plain, values, texts⟩ := ih others
      exact ⟨plainKey :: plain, by simp [keyValue, values], by simp [keyText, texts]⟩

/-- Segments which need no encoding can be rendered without any. -/
theorem exists_plain_segments {segments : List Segment}
    (unreserved : NeedsNoEncoding (segments.map Segment.value)) :
    ∃ plain : List Segment, plain.map Segment.value = segments.map Segment.value ∧
      segmentsText plain = plainText (segments.map Segment.value) := by
  induction segments with
  | nil => exact ⟨[], rfl, rfl⟩
  | cons segment segments ih =>
      obtain ⟨first, others⟩ := List.forall_mem_cons.mp unreserved
      obtain ⟨plainKeys, values, texts⟩ := exists_plain_keys first
      obtain ⟨plain, otherValues, otherTexts⟩ := ih others
      refine ⟨⟨segment.ident, plainKeys⟩ :: plain, ?_, ?_⟩
      · simp only [List.map_cons, otherValues, Segment.value, values]
      · have segmentText : (⟨segment.ident, plainKeys⟩ : Segment).text =
            segment.value.apiIdent.qualifiedName ++ Grammar.plainKeys segment.value.keys := by
          rw [Segment.text, segment.ident.text_eq, keysText_eq, texts]
          rfl
        rw [segmentsText, List.flatMap_cons, segmentText]
        exact congrArg (_ ++ ·) otherTexts

theorem Octet.length_le (octet : Octet isUnreserved) :
    [octet.value].length ≤ octet.text.length := by
  cases octet <;> simp [Octet.text]

theorem Octet.isUnreserved_of_length_le (octet : Octet isUnreserved)
    (short : octet.text.length ≤ [octet.value].length) : isUnreserved octet.value = true := by
  cases octet with
  | plain c allowed => exact allowed
  | encoded high low isHigh isLow => simp [Octet.text] at short

theorem Key.length_le (key : Key) : key.value.length ≤ key.text.length := by
  rw [key.value_eq]
  exact length_flatMap_le Octet.length_le key

theorem Key.isUnreserved_of_length_le (key : Key) (short : key.text.length ≤ key.value.length) :
    ∀ c ∈ key.value, isUnreserved c = true := by
  rw [key.value_eq] at short
  have each := length_le_of_length_flatMap_le Octet.length_le short
  intro c member
  obtain ⟨octet, inside, rfl⟩ := List.mem_map.mp member
  exact octet.isUnreserved_of_length_le (each octet inside)

theorem length_plainKeys {τ : Type} (text : τ → Str) (keys : List τ) :
    (plainKeys (keys.map text)).length = (keys.flatMap fun key => str "," ++ text key).length := by
  cases keys with
  | nil => rfl
  | cons key keys =>
      rw [plainKeys_map_cons, List.flatMap_cons]
      simp only [List.length_append]
      rw [show (str "=").length = (str ",").length from rfl]
      omega

theorem length_plainKeys_le (keys : List Key) :
    (plainKeys (keys.map Key.value)).length ≤ (keysText keys).length := by
  rw [keysText_eq, length_plainKeys, length_plainKeys]
  refine length_flatMap_le (fun key => ?_) keys
  simpa using key.length_le

theorem isUnreserved_of_length_keysText_le {keys : List Key}
    (short : (keysText keys).length ≤ (plainKeys (keys.map Key.value)).length) :
    ∀ key ∈ keys.map Key.value, ∀ c ∈ key, isUnreserved c = true := by
  rw [keysText_eq, length_plainKeys, length_plainKeys] at short
  have each := length_le_of_length_flatMap_le
    (fun key : Key => by simpa using key.length_le) short
  intro key member
  obtain ⟨phrase, inside, rfl⟩ := List.mem_map.mp member
  exact phrase.isUnreserved_of_length_le (by simpa using each phrase inside)

/-- Segments which are rendered without any encoding do not need it. -/
theorem needsNoEncoding_of_plain {segments : List Segment}
    (plain : segmentsText segments = plainText (segments.map Segment.value)) :
    NeedsNoEncoding (segments.map Segment.value) := by
  have names (segment : Segment) :
      segment.ident.text.length = segment.value.apiIdent.qualifiedName.length :=
    congrArg List.length segment.ident.text_eq
  have lengths := (congrArg List.length plain).le
  rw [plainText, List.flatMap_map, segmentsText] at lengths
  have each := length_le_of_length_flatMap_le (fun segment : Segment => by
    have keys := length_plainKeys_le segment.keys
    have name := names segment
    simp only [List.length_append, Segment.text]
    exact Nat.add_le_add_left (Nat.add_le_add name.ge keys) _) lengths
  intro segment member
  obtain ⟨phrase, inside, rfl⟩ := List.mem_map.mp member
  have short := each phrase inside
  have name := names phrase
  simp only [List.length_append, Segment.text] at short
  exact isUnreserved_of_length_keysText_le
    (Nat.le_of_add_le_add_left (name ▸ Nat.le_of_add_le_add_left short))

theorem DataRoot.noSigns (root : DataRoot) : chr '%' ∉ root.text := by
  cases root with
  | data => decide
  | ds modulePrefix name =>
      simp only [DataRoot.text, List.mem_append, not_or]
      exact ⟨⟨⟨by decide, modulePrefix.noSigns⟩, by decide⟩, name.noSigns⟩

theorem DataRoot.percentDecode_segments (root : DataRoot) (segments : List Segment) :
    percentDecode (root.text ++ segmentsText segments) =
      root.text ++ plainText (segments.map Segment.value) :=
  ((Decodes.of_noSigns root.noSigns).append (decodes_segmentsText segments)).self

end Impl.Grammar

open Impl Impl.Grammar in
/-- The decoded path is another rendering of the segments if nothing in their keys is reserved. -/
theorem parseUriPath_percentDecode {rawPath : Str} {uri : URIPath}
    (accepted : parseUriPath rawPath = .ok uri) (isData : uri.IsData)
    (unreserved : NeedsNoEncoding uri.segments) :
    parseUriPath (percentDecode rawPath) = .ok uri := by
  obtain ⟨root, path, rfl, rfl⟩ := isData.exists_text accepted
  by_cases isSlash : path = .slash
  · subst isSlash
    have noSigns : chr '%' ∉ root.text ++ Path.slash.text := by
      rw [List.mem_append, not_or]
      exact ⟨root.noSigns, by decide⟩
    rw [(Decodes.of_noSigns noSigns).self]
    exact accepted
  · have valid := path.wellFormed
    rw [path.value_eq] at unreserved valid ⊢
    obtain ⟨plain, values, text⟩ := exists_plain_segments unreserved
    rw [path.text_eq isSlash, root.percentDecode_segments, ← text, ← values]
    rw [← values] at valid
    obtain ⟨decoded, notSlash, rfl⟩ := Path.exists_listed valid
    rw [← decoded.text_eq notSlash, ← decoded.value_eq]
    exact root.parseUriPath_below decoded

end Rousette.Restconf
