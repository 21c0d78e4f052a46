import Rousette.Restconf.PercentDecoding
import Rousette.Restconf.Server.Write

/-!
# Points of a YANG Patch

The target of an edit is joined to the path of the request as it was sent, and the point is
appended to the percent-decoded one.  Both are parsed as a path of a request after that.
-/

namespace Rousette.Restconf

open Library Libyang

namespace Impl

/-- The text is the path of some request. -/
def IsUriPath (text : Str) : Prop := ∃ phrase : Grammar.UriPhrase, phrase.text = text

end Impl

open Impl Impl.Grammar

theorem asPathSegments_eq_ok_iff {text : Str} {segments : List PathSegment} :
    asPathSegments text = .ok segments ↔
      ∃ uri, parseUriPath text = .ok uri ∧ uri.segments = segments := by
  simp only [asPathSegments, except_bind_eq_ok]
  constructor
  · rintro ⟨uri, parsed, finished⟩
    cases finished
    exact ⟨uri, parsed, rfl⟩
  · rintro ⟨uri, parsed, rfl⟩
    exact ⟨uri, parsed, rfl⟩

theorem isUriPath_iff {text : Str} :
    IsUriPath text ↔ ∃ segments, asPathSegments text = .ok segments := by
  constructor
  · rintro ⟨phrase, text⟩
    exact ⟨_, asPathSegments_eq_ok_iff.mpr ⟨_, parseUriPath_eq_ok_iff.mpr ⟨phrase, text, rfl⟩, rfl⟩⟩
  · rintro ⟨segments, parsed⟩
    obtain ⟨uri, parsed, _⟩ := asPathSegments_eq_ok_iff.mp parsed
    obtain ⟨phrase, text, _⟩ := parseUriPath_eq_ok_iff.mp parsed
    exact ⟨phrase, text⟩

/-- Two texts lead to the same segments, or both are rejected. -/
def ParsedAlike (text other : Str) : Prop :=
  (asPathSegments text).toOption = (asPathSegments other).toOption

theorem parsedAlike_iff {text other : Str} :
    ParsedAlike text other ↔
      ∀ segments, asPathSegments text = .ok segments ↔ asPathSegments other = .ok segments := by
  have toOption {α : Type} (result : Except Exception α) (value : α) :
      result.toOption = some value ↔ result = .ok value := by
    cases result <;> simp [Except.toOption]
  simp only [ParsedAlike, Option.ext_iff, toOption]

/-! ## Behind a slash -/

section Cases

variable (root : DataRoot)

/-- Nothing is parsed where two slashes follow each other. -/
theorem not_isUriPath_of_slashes (rest : Str) :
    ¬IsUriPath (root.text ++ chr '/' :: chr '/' :: rest) := by
  rw [isUriPath_iff]
  rintro ⟨segments, parsed⟩
  obtain ⟨uri, parsed, _⟩ := asPathSegments_eq_ok_iff.mp parsed
  obtain ⟨path, same, _⟩ := root.parseUriPath_of_slash (.inr rfl) parsed
  cases path with
  | empty => cases same
  | slash => cases same
  | segments modulePrefix name keys others =>
      have begins : chr '/' = modulePrefix.first := by
        rw [Path.text_segments] at same
        exact (List.cons.inj (List.cons.inj same).2).1
      have start := modulePrefix.isStart
      rw [← begins] at start
      cases start

theorem parsedAlike_behind_slash_iff (offset : Str) :
    ParsedAlike (percentDecode (root.text ++ str "/") ++ offset)
        (uriJoin (root.text ++ str "/") offset) ↔
      (offset.head? = some (chr '/') → ¬IsUriPath (root.text ++ str "/" ++ offset.drop 1)) := by
  have noSigns : chr '%' ∉ root.text ++ str "/" := by
    rw [List.mem_append, not_or]
    exact ⟨root.noSigns, by decide⟩
  have decoded := (Decodes.of_noSigns noSigns).self
  rw [decoded]
  by_cases begins : offset.head? = some (chr '/')
  · obtain ⟨rest, rfl⟩ := List.head?_eq_some_iff.mp begins
    have joined : uriJoin (root.text ++ str "/") (chr '/' :: rest) =
        root.text ++ str "/" ++ rest := by
      rw [uriJoin_slash_slash, List.append_assoc]
      rfl
    have rejected : ¬IsUriPath (root.text ++ str "/" ++ chr '/' :: rest) := by
      rw [List.append_assoc]
      exact not_isUriPath_of_slashes root rest
    rw [joined, List.drop_one, List.tail_cons, parsedAlike_iff]
    rw [isUriPath_iff] at rejected ⊢
    constructor
    · rintro alike - ⟨segments, parsed⟩
      exact rejected ⟨segments, (alike segments).mpr parsed⟩
    · intro condition segments
      exact ⟨fun parsed => absurd ⟨segments, parsed⟩ rejected,
        fun parsed => absurd ⟨segments, parsed⟩ (condition begins)⟩
  · have joined : uriJoin (root.text ++ str "/") offset = root.text ++ str "/" ++ offset := by
      have slash : (root.text ++ str "/").getLast? = some (chr '/') := List.getLast?_concat
      simp [uriJoin, slash, begins]
    rw [joined]
    exact ⟨fun _ slash => absurd slash begins, fun _ => rfl⟩

/-! ## Behind the segments -/

variable {segments : List Segment} {offset : Str}

/-- An offset is found behind the segments no matter how they are rendered. -/
theorem isUriPath_of_plainText (valid : WellFormed (segments.map Segment.value))
    (begins : offset = [] ∨ offset.head? = some (chr '/'))
    (plain : IsUriPath (root.text ++ (plainText (segments.map Segment.value) ++ offset))) :
    IsUriPath (root.text ++ (segmentsText segments ++ offset)) := by
  obtain ⟨phrase, text⟩ := plain
  have parsed := parseUriPath_eq_ok_iff.mpr ⟨phrase, text, rfl⟩
  suffices found : ∃ uri, parseUriPath (root.text ++ (segmentsText segments ++ offset)) = .ok uri by
    obtain ⟨uri, found⟩ := found
    obtain ⟨phrase, text, _⟩ := parseUriPath_eq_ok_iff.mp found
    exact ⟨phrase, text⟩
  cases segments with
  | nil => exact ⟨_, parsed⟩
  | cons segment segments =>
      rcases (root.parseUriPath_append_iff (plainText_begins _) (plainText_ne_slash _) begins).mp
        parsed with ⟨_, further, _, rfl, _⟩ | ⟨none, _⟩
      · have whole := valid.append further (List.cons_ne_nil _ _)
        exact ⟨_, (root.parseUriPath_segments_iff _ begins).mpr (.inl ⟨further, rfl, whole, rfl⟩)⟩
      · cases none

theorem parsedAlike_behind_segments_iff (valid : WellFormed (segments.map Segment.value))
    (begins : offset = [] ∨ offset.head? = some (chr '/')) :
    ParsedAlike (root.text ++ (plainText (segments.map Segment.value) ++ offset))
        (root.text ++ (segmentsText segments ++ offset)) ↔
      NeedsNoEncoding (segments.map Segment.value) ∨
        ¬IsUriPath (root.text ++ (segmentsText segments ++ offset)) := by
  rw [parsedAlike_iff]
  constructor
  case mp =>
    intro alike
    by_cases accepted : IsUriPath (root.text ++ (segmentsText segments ++ offset))
    case neg => exact .inr accepted
    obtain ⟨found, parsed⟩ := isUriPath_iff.mp accepted
    obtain ⟨uri, plainParsed, rfl⟩ := asPathSegments_eq_ok_iff.mp ((alike found).mpr parsed)
    obtain ⟨uri', parsed, same⟩ := asPathSegments_eq_ok_iff.mp parsed
    left
    rcases (root.parseUriPath_segments_iff segments begins).mp parsed with
      ⟨further, rfl, _, rfl⟩ | ⟨rfl, _⟩
    · rcases (root.parseUriPath_append_iff (plainText_begins _) (plainText_ne_slash _) begins).mp
        plainParsed with ⟨first, second, plain, others, _, rfl⟩ | ⟨_, slash, _⟩
      · obtain rfl := segmentsText_injective others
        rw [List.map_append, List.map_append] at same
        have values := List.append_cancel_right same
        rw [values] at plain ⊢
        exact needsNoEncoding_of_plain plain.symm
      · exact absurd slash (segmentsText_ne_slash further)
    · exact nofun
  case mpr =>
    rintro (unreserved | rejected) found
    · -- the decoded path is another rendering of the same segments
      obtain ⟨plain, values, text⟩ := exists_plain_segments unreserved
      have none : plain = [] ↔ segments = [] := by
        rw [← List.map_eq_nil_iff (f := Segment.value), values, List.map_eq_nil_iff]
      rw [← text]
      simp only [asPathSegments_eq_ok_iff, root.parseUriPath_segments_iff _ begins,
        List.map_append, values, none]
    · have plainRejected := mt (isUriPath_of_plainText root valid begins) rejected
      rw [isUriPath_iff] at rejected plainRejected
      exact ⟨fun parsed => absurd ⟨found, parsed⟩ plainRejected,
        fun parsed => absurd ⟨found, parsed⟩ rejected⟩

/-- Without a slash between them, the offset continues the last segment, which makes the path
shorter by one octet. -/
theorem not_parsed_both {found : List PathSegment} (some : offset ≠ [])
    (joined : asPathSegments (root.text ++ (segmentsText segments ++ (str "/" ++ offset))) =
      .ok found) :
    asPathSegments (root.text ++ (plainText (segments.map Segment.value) ++ offset)) ≠
      .ok found := by
  intro plain
  obtain ⟨_, parsed, rfl⟩ := asPathSegments_eq_ok_iff.mp joined
  obtain ⟨uri, plainParsed, same⟩ := asPathSegments_eq_ok_iff.mp plain
  rcases (root.parseUriPath_segments_iff segments (.inr rfl)).mp parsed with
    ⟨further, text, _, rfl⟩ | ⟨_, slash, _⟩
  case inr =>
    exact some (List.cons.inj slash).2
  obtain ⟨extra, path, rest, areChars, value, _⟩ := root.parseUriPath_eq_ok plainParsed
  have values : (segments ++ further).map Segment.value = path.value := same.symm.trans value
  have joinedLength : (plainText ((segments ++ further).map Segment.value)).length =
      (plainText (segments.map Segment.value)).length + (1 + (percentDecode offset).length) := by
    have decoded := (decodes_segmentsText further).self
    rw [← text, show str "/" ++ offset = chr '/' :: offset from rfl,
      percentDecode_cons (by decide)] at decoded
    rw [List.map_append, plainText_append, ← decoded, List.length_append, List.length_cons]
    omega
  have plainLength : (plainText path.value).length ≤
      (plainText (segments.map Segment.value)).length + (percentDecode offset).length := by
    have bound := length_percentDecode_append_le (plainText (segments.map Segment.value)) offset
    have noSigns : chr '%' ∉ extra := fun sign => by cases areChars _ sign
    rw [rest, percentDecode_append noSigns, List.length_append] at bound
    have decoded := path.length_plainText_le
    omega
  rw [values] at joinedLength
  omega

end Cases

/-! ## Points and targets -/

namespace Server

/-- When an offset means the same as a point and as a target: nothing in the keys of the request
is reserved, and a slash of the offset is what separates them; or none of the two is a path. -/
def PointsAgree (rawPath offset : Str) (segments : List PathSegment) : Prop :=
  if rawPath.getLast? = some (chr '/') then
    -- one of the two slashes is left out in a target only
    offset.head? = some (chr '/') → ¬IsUriPath (rawPath ++ offset.drop 1)
  else if offset = [] ∨ offset.head? = some (chr '/') then
    NeedsNoEncoding segments ∨ ¬IsUriPath (rawPath ++ offset)
  else
    -- a slash is added to a target only
    ¬IsUriPath (rawPath ++ str "/" ++ offset) ∧ ¬IsUriPath (percentDecode rawPath ++ offset)

theorem parsedAlike_iff_pointsAgree {rawPath : Str} {uri : URIPath}
    (accepted : parseUriPath rawPath = .ok uri) (isData : uri.IsData) (offset : Str) :
    ParsedAlike (percentDecode rawPath ++ offset) (uriJoin rawPath offset) ↔
      PointsAgree rawPath offset uri.segments := by
  obtain ⟨root, path, rfl, rfl⟩ := isData.exists_text accepted
  by_cases isSlash : path = .slash
  · subst isSlash
    have ends : (root.text ++ Path.slash.text).getLast? = some (chr '/') := List.getLast?_concat
    rw [PointsAgree, if_pos ends]
    exact parsedAlike_behind_slash_iff root offset
  have valid := path.wellFormed
  have ends : (root.text ++ path.text).getLast? ≠ some (chr '/') := by
    cases path with
    | empty =>
        rw [show Path.text .empty = [] from rfl, List.append_nil]
        exact root.getLast?_text
    | slash => exact absurd rfl isSlash
    | segments modulePrefix name keys others => exact Path.getLast?_text root.text _ nofun
  rw [PointsAgree, if_neg ends]
  rw [path.value_eq] at valid ⊢
  rw [path.text_eq isSlash] at ends ⊢
  rw [root.percentDecode_segments path.listed]
  by_cases begins : offset = [] ∨ offset.head? = some (chr '/')
  · have joined : uriJoin (root.text ++ segmentsText path.listed) offset =
        root.text ++ segmentsText path.listed ++ offset := by
      rcases begins with rfl | slash
      · simp [uriJoin]
      · exact uriJoin_of_slash ends slash
    rw [if_pos begins, joined, List.append_assoc, List.append_assoc]
    exact parsedAlike_behind_segments_iff root valid begins
  · have nonempty : offset ≠ [] := fun none => begins (.inl none)
    have noSlash : offset.head? ≠ some (chr '/') := fun slash => begins (.inr slash)
    have joined : uriJoin (root.text ++ segmentsText path.listed) offset =
        root.text ++ (segmentsText path.listed ++ (str "/" ++ offset)) := by
      rw [uriJoin_between (List.append_ne_nil_of_left_ne_nil root.text_ne_nil _) nonempty ends
        noSlash]
      simp only [List.append_assoc]
    rw [if_neg begins, joined, parsedAlike_iff, List.append_assoc, List.append_assoc,
      List.append_assoc, isUriPath_iff, isUriPath_iff]
    constructor
    case mp =>
      intro alike
      constructor
      · rintro ⟨found, parsed⟩
        exact not_parsed_both root nonempty parsed ((alike found).mpr parsed)
      · rintro ⟨found, parsed⟩
        exact not_parsed_both root nonempty ((alike found).mp parsed) parsed
    case mpr =>
      rintro ⟨noTarget, noPoint⟩ found
      exact ⟨fun parsed => absurd ⟨found, parsed⟩ noPoint,
        fun parsed => absurd ⟨found, parsed⟩ noTarget⟩

/-- The point of an edit is parsed like a target, or rejected like one, under the condition and
only then. -/
theorem patchPoint_parsedAlike_iff (ctx : RequestContext)
    (decoded : ctx.path = percentDecode ctx.rawPath) {uri : URIPath}
    (accepted : parseUriPath ctx.rawPath = .ok uri) (isData : uri.IsData) {edit : PatchEdit}
    {wherePlace offset : Str} (needed : needsPoint wherePlace = true)
    (given : edit.point = some offset) :
    ∃ text, patchPoint ctx edit wherePlace = .ok (some text) ∧
      (ParsedAlike text (uriJoin ctx.rawPath offset) ↔
        PointsAgree ctx.rawPath offset uri.segments) := by
  have point : patchPoint ctx edit wherePlace = .ok (some (ctx.path ++ offset)) := by
    simp only [patchPoint, needed, given]
  refine ⟨ctx.path ++ offset, point, ?_⟩
  rw [decoded]
  exact parsedAlike_iff_pointsAgree accepted isData offset

/-- A YANG Patch of a list entry, with its key as it was sent and as it is. -/
def listPatch (encoded key : String) : RequestContext where
  method := str "PATCH"
  rawPath := str "/restconf/data/example:tlc/list=" ++ str encoded
  path := percentDecode (str "/restconf/data/example:tlc/list=" ++ str encoded)
  responseFormat := .json
  urlPrefix := none
  requestFormat := .json
  activeDatastore := .running
  restconfRequest := ⟨.mergeData, none, str "/example:tlc/list[name='" ++ str key ++ str "']", []⟩
  contentTypeHeader := some (str "application/yang-patch+json")
  payload := []

/-- An edit which moves an entry of a leaf-list before another one. -/
def moveEntry : PatchEdit where
  editId := some (str "edit")
  target := some (str "/collection=2")
  operation := some (str "move")
  wherePlace := some (str "before")
  point := some (str "/collection=1")
  value := .absent

def listSegments (key : String) : List PathSegment :=
  [⟨⟨some (str "example"), str "tlc"⟩, []⟩, ⟨⟨none, str "list"⟩, [str key]⟩]

theorem listPatch_parsedAlike :
    ∃ text, patchPoint (listPatch "a" "a") moveEntry (str "before") = .ok (some text) ∧
      ParsedAlike text (uriJoin (listPatch "a" "a").rawPath (str "/collection=1")) := by
  have accepted : parseUriPath (listPatch "a" "a").rawPath =
      .ok ⟨⟨.basicRestconfData, none⟩, listSegments "a"⟩ := by
    decide
  obtain ⟨text, point, alike⟩ := @patchPoint_parsedAlike_iff (listPatch "a" "a") rfl _ accepted
    (.inl rfl) moveEntry (str "before") _ rfl rfl
  refine ⟨text, point, alike.mpr ?_⟩
  rw [PointsAgree, if_neg (by decide), if_pos (.inr rfl)]
  left
  decide

/-- A comma in the key of the request separates two keys in the point. -/
theorem encodedKey_not_parsedAlike :
    patchPoint (listPatch "a%2Cb" "a,b") moveEntry (str "before") =
        .ok (some (str "/restconf/data/example:tlc/list=a,b/collection=1")) ∧
      asPathSegments (str "/restconf/data/example:tlc/list=a,b/collection=1") =
        .ok [⟨⟨some (str "example"), str "tlc"⟩, []⟩, ⟨⟨none, str "list"⟩, [str "a", str "b"]⟩,
          ⟨⟨none, str "collection"⟩, [str "1"]⟩] ∧
      asPathSegments (uriJoin (listPatch "a%2Cb" "a,b").rawPath (str "/collection=1")) =
        .ok (listSegments "a,b" ++ [⟨⟨none, str "collection"⟩, [str "1"]⟩]) ∧
      ¬ParsedAlike (str "/restconf/data/example:tlc/list=a,b/collection=1")
        (uriJoin (listPatch "a%2Cb" "a,b").rawPath (str "/collection=1")) := by
  have point : asPathSegments (str "/restconf/data/example:tlc/list=a,b/collection=1") =
      .ok [⟨⟨some (str "example"), str "tlc"⟩, []⟩, ⟨⟨none, str "list"⟩, [str "a", str "b"]⟩,
        ⟨⟨none, str "collection"⟩, [str "1"]⟩] := by
    decide
  have target : asPathSegments (uriJoin (listPatch "a%2Cb" "a,b").rawPath (str "/collection=1")) =
      .ok (listSegments "a,b" ++ [⟨⟨none, str "collection"⟩, [str "1"]⟩]) := by
    decide
  refine ⟨rfl, point, target, ?_⟩
  rw [ParsedAlike, point, target]
  decide

end Server

end Rousette.Restconf
