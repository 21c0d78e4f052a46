import Rousette.Http.Preference
import Rousette.Library.Recognition

/-!
# Media ranges

What the grammar of the header `accept` makes sure of: there is a single slash in the text of a
media range, the text is in lower case, and a wildcard for the type is followed by one for the
subtype.
-/

namespace Rousette.Http

open Library Parser

/-! ## The grammar -/

/-- A part of a media type. -/
def Unslashed (text : Str) : Prop := chr '/' ∉ text

instance (text : Str) : Decidable (Unslashed text) := inferInstanceAs (Decidable (_ ∉ _))

namespace AcceptGrammar

/-- An identifier begins with a letter, and there is no slash in it. -/
def IsIdentifier (text : Str) : Prop :=
  Unslashed text ∧ ∃ first rest, text = first :: rest ∧ Ascii.isAlpha first = true

theorem yields_satisfy (accept : UInt8 → Bool) :
    Yields (fun c => accept c = true) (satisfy accept) :=
  fun _ _ _ parsed => (satisfy_eq_ok.mp parsed).2

theorem yields_identifier : Yields IsIdentifier identifier := by
  refine .bind (yields_satisfy _) fun first isFirst => ?_
  refine .bind (.many (yields_satisfy _)) fun others areOthers => .pure ?_
  refine ⟨fun member => ?_, first, others, rfl, isFirst⟩
  rcases List.mem_cons.mp member with rfl | member
  · cases isFirst
  · cases areOthers _ member

/-- What is known of a media type which was parsed. -/
structure IsRange (mime : Mime) : Prop where
  mediaType : Unslashed mime.mediaType
  mediaSubtype : Unslashed mime.mediaSubtype
  /-- The wildcard is only followed by the wildcard. -/
  any : mime.mediaType = str "*" → mime.mediaSubtype = str "*"

theorem yields_mimeWildcard : Yields (fun text => text = str "*") mimeWildcard :=
  .bind_any fun _ => .pure rfl

theorem yields_mimeSubtype : Yields Unslashed (orElse mimeSubtype mimeWildcard) := by
  have wildcard : Yields Unslashed mimeWildcard := fun input value rest parsed => by
    rw [yields_mimeWildcard input value rest parsed]
    decide
  refine .orElse (.orElse ?_ wildcard) wildcard
  refine .bind yields_identifier fun name isName => ?_
  have suffix : Yields Unslashed (do
      let plus ← satisfy (· == chr '+')
      let name ← identifier
      return plus :: name) := by
    refine .bind (yields_satisfy _) fun plus isPlus => ?_
    refine .bind yields_identifier fun name isName => .pure fun member => ?_
    rcases List.mem_cons.mp member with rfl | member
    · cases isPlus
    · exact isName.1 member
  refine .bind suffix.optional fun suffix isSuffix => .pure fun member => ?_
  rcases List.mem_append.mp member with member | member
  · exact isName.1 member
  · cases suffix with
    | none => cases member
    | some suffix => exact isSuffix suffix rfl member

theorem yields_mime : Yields IsRange mime := by
  apply Yields.orElse
  · refine .bind yields_mimeWildcard fun mediaType isType => .bind_any fun _ => ?_
    refine .bind yields_mimeWildcard fun mediaSubtype isSubtype => .pure ?_
    subst isType isSubtype
    exact ⟨by decide, by decide, fun _ => rfl⟩
  · refine .bind yields_identifier fun mediaType isType => .bind_any fun _ => ?_
    refine .bind yields_mimeSubtype fun mediaSubtype isSubtype => .pure ⟨isType.1, isSubtype, ?_⟩
    -- an identifier is not the wildcard
    rintro rfl
    obtain ⟨_, first, rest, same, isAlpha⟩ := isType
    cases same
    cases isAlpha

theorem yields_acceptHeader :
    Yields (fun entries => ∀ entry ∈ entries, IsRange entry.mime) acceptHeader := by
  have item : Yields (fun entry => IsRange entry.mime) oneItem :=
    .bind yields_mime fun mime isRange => .bind_any fun _ => .pure isRange
  refine .bind_any fun _ => .bind item.sepBy1 fun entries areRanges => ?_
  exact .bind_any fun _ => .bind_any fun _ => .pure areRanges

theorem acceptHeader_ne_nil :
    Yields (fun entries : List MediaType => entries ≠ []) acceptHeader := by
  have items : Yields (fun entries : List MediaType => entries ≠ [])
      (sepBy1 oneItem (spaced (str ","))) :=
    .bind_any fun first => .bind_any fun others => .pure (List.cons_ne_nil first others)
  refine .bind_any fun _ => .bind items fun entries nonempty => ?_
  exact .bind_any fun _ => .bind_any fun _ => .pure nonempty

end AcceptGrammar

/-! ## Lower case -/

theorem Unslashed.toLower {text : Str} (unslashed : Unslashed text) :
    Unslashed (text.map Ascii.toLower) := by
  intro member
  obtain ⟨c, member, same⟩ := List.mem_map.mp member
  rw [Ascii.toLower_eq_iff (by decide)] at same
  exact unslashed (same ▸ member)

namespace Lists

variable {headerValue : Str} {entries : List MediaType}

theorem isRange (lists : Lists headerValue entries) {entry : MediaType}
    (member : entry ∈ entries) : AcceptGrammar.IsRange entry.mime := by
  obtain ⟨parsed, rest, accepted, rfl⟩ := lists
  obtain ⟨original, isParsed, rfl⟩ := List.mem_map.mp member
  have range := AcceptGrammar.yields_acceptHeader _ _ _ accepted original isParsed
  refine ⟨range.mediaType.toLower, range.mediaSubtype.toLower, fun any => ?_⟩
  have any : original.mime.mediaType.map Ascii.toLower = [chr '*'] := any
  obtain ⟨c, isType, same⟩ := List.map_eq_singleton_iff.mp any
  rw [Ascii.toLower_eq_iff (by decide)] at same
  rw [same] at isType
  simp only [MediaType.toLower, range.any isType]
  rfl

theorem ne_nil (lists : Lists headerValue entries) : entries ≠ [] := by
  obtain ⟨parsed, rest, accepted, rfl⟩ := lists
  exact fun same => AcceptGrammar.acceptHeader_ne_nil _ _ _ accepted (List.map_eq_nil_iff.mp same)

theorem text_toLower (lists : Lists headerValue entries) {entry : MediaType}
    (member : entry ∈ entries) : entry.text.map Ascii.toLower = entry.text := by
  obtain ⟨parsed, rest, accepted, rfl⟩ := lists
  obtain ⟨original, isParsed, rfl⟩ := List.mem_map.mp member
  have idempotent : Ascii.toLower ∘ Ascii.toLower = Ascii.toLower :=
    funext Ascii.toLower_toLower
  simp only [MediaType.text, MediaType.toLower, List.map_append, List.map_map, idempotent]
  rfl

end Lists

/-! ## The text of a media range -/

namespace AcceptGrammar.IsRange

variable {entry : MediaType}

theorem splitOn_text (range : IsRange entry.mime) :
    entry.text.splitOn (chr '/') = [entry.mime.mediaType, entry.mime.mediaSubtype] := by
  have split := List.splitOn_append_cons_self_of_not_mem range.mediaType entry.mime.mediaSubtype
  rw [List.splitOn_eq_singleton range.mediaSubtype] at split
  rw [MediaType.text, List.append_assoc]
  exact split

/-- The text determines the type and the subtype. -/
theorem text_eq_iff (range : IsRange entry.mime) {mediaType mediaSubtype : Str}
    (unslashed : Unslashed mediaType) :
    entry.text = mediaType ++ str "/" ++ mediaSubtype ↔
      entry.mime.mediaType = mediaType ∧ entry.mime.mediaSubtype = mediaSubtype := by
  constructor
  case mp =>
    intro same
    have split := range.splitOn_text
    have others := List.splitOn_append_cons_self_of_not_mem unslashed mediaSubtype
    rw [same, List.append_assoc] at split
    have sameType := (List.cons.inj (others.symm.trans split)).1
    refine ⟨sameType.symm, ?_⟩
    rw [MediaType.text, sameType] at same
    exact List.append_cancel_left same
  case mpr =>
    rintro ⟨rfl, rfl⟩
    rfl

end AcceptGrammar.IsRange

end Rousette.Http
