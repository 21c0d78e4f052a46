import Rousette.Libyang.Example
import Rousette.Restconf.UriPaths
import Rousette.Restconf.UriRecognition

/-!
# Joining of paths

A YANG Patch gives the target of an edit as an offset, which is joined to the path of the
request before the result is parsed.  The segments of a request path are parts which do not
contain a slash, so that whatever is joined at a slash is parsed on its own.
-/

namespace Rousette.Restconf

open Library Libyang

namespace Impl

namespace Grammar

open Parser

/-! ## Segments -/

/-- Segments, each of them behind a slash. -/
def segmentsText (segments : List Segment) : Str :=
  segments.flatMap fun segment => [chr '/'] ++ segment.text

theorem segmentsText_append (segments others : List Segment) :
    segmentsText (segments ++ others) = segmentsText segments ++ segmentsText others :=
  List.flatMap_append

theorem isUnreserved_of_isXDigit (c : UInt8) (digit : Ascii.isXDigit c = true) :
    isUnreserved c = true := by
  have octets : ∀ n : Fin 256, Ascii.isXDigit (.ofFin n) = true →
      isUnreserved (.ofFin n) = true := by
    decide +kernel
  exact octets c.toFin digit

theorem continuesSegment_of_isUnreserved (c : UInt8) (unreserved : isUnreserved c = true) :
    continuesSegment c = true := by
  simp [continuesSegment, unreserved]

theorem Octet.continues (octet : Octet isUnreserved) :
    ∀ c ∈ octet.text, continuesSegment c = true := by
  cases octet with
  | plain c allowed => simpa [Octet.text] using continuesSegment_of_isUnreserved c allowed
  | encoded high low isHigh isLow =>
      have first := continuesSegment_of_isUnreserved high (isUnreserved_of_isXDigit high isHigh)
      have second := continuesSegment_of_isUnreserved low (isUnreserved_of_isXDigit low isLow)
      have sign : continuesSegment (chr '%') = true := rfl
      simp [Octet.text, first, second, sign]

theorem Identifier.isIdentifierChar_of_mem (name : Identifier) {c : UInt8}
    (member : c ∈ name.text) : isIdentifierChar c = true := by
  have start : ∀ n : Fin 256, isIdentifierStart (.ofFin n) = true →
      isIdentifierChar (.ofFin n) = true := by
    decide +kernel
  rcases List.mem_cons.mp member with rfl | other
  · exact start name.first.toFin name.isStart
  · exact name.areChars c other

theorem Identifier.continues (name : Identifier) : ∀ c ∈ name.text, continuesSegment c = true := by
  intro c member
  apply continuesSegment_of_isUnreserved
  exact isUnreserved_of_isIdentifierChar c (name.isIdentifierChar_of_mem member)

theorem Segment.continues (segment : Segment) :
    ∀ c ∈ segment.text, continuesSegment c = true := by
  obtain ⟨⟨modulePrefix, name⟩, keys⟩ := segment
  have key (key : Key) : ∀ c ∈ key.text, continuesSegment c = true := by
    intro c member
    obtain ⟨octet, _, inside⟩ := List.mem_flatMap.mp member
    exact octet.continues c inside
  have keysContinue : ∀ c ∈ keysText keys, continuesSegment c = true := by
    cases keys with
    | nil => exact nofun
    | cons first others =>
        rw [keysText_cons]
        intro c member
        rcases List.mem_append.mp member with equals | member
        · rw [List.mem_singleton.mp equals]
          rfl
        rcases List.mem_append.mp member with inFirst | inOthers
        · exact key first c inFirst
        · obtain ⟨other, _, inside⟩ := List.mem_flatMap.mp inOthers
          rcases List.mem_append.mp inside with comma | inOther
          · rw [List.mem_singleton.mp comma]
            rfl
          · exact key other c inOther
  intro c member
  rcases List.mem_append.mp member with inName | inKeys
  · cases modulePrefix with
    | none => exact name.continues c inName
    | some modulePrefix =>
        rcases List.mem_append.mp inName with inPrefix | inName
        · rcases List.mem_append.mp inPrefix with inModule | colon
          · exact modulePrefix.continues c inModule
          · rw [List.mem_singleton.mp colon]
            rfl
        · exact name.continues c inName
  · exact keysContinue c inKeys

theorem Segment.slash_not_mem (segment : Segment) : chr '/' ∉ segment.text := by
  intro member
  cases segment.continues _ member

theorem segmentsText_injective {segments others : List Segment}
    (same : segmentsText segments = segmentsText others) : segments = others := by
  refine (recognizes_listInstance.lit_bind (str "/")).flatMap_injective ?_ ?_ (stops_nil _) ?_ same
  · exact fun _ => nofun
  · exact fun _ _ => stops_cons.mpr (by decide)
  · exact fun same => Segment.text_injective (List.append_cancel_left same)

theorem Segment.text_ne_nil (segment : Segment) : segment.text ≠ [] := by
  obtain ⟨⟨modulePrefix, name⟩, keys⟩ := segment
  cases modulePrefix <;> simp [Segment.text, ApiName.text, Identifier.text]

/-- A text which ends in one of the segments does not end in a slash. -/
theorem getLast?_segmentsText (base : Str) {segments : List Segment} (some : segments ≠ []) :
    (base ++ segmentsText segments).getLast? ≠ Option.some (chr '/') := by
  obtain ⟨before, segment, rfl⟩ := List.eq_nil_or_concat' segments |>.resolve_left some
  have split : base ++ segmentsText (before ++ [segment]) =
      base ++ segmentsText before ++ [chr '/'] ++ segment.text := by
    simp [segmentsText, List.flatMap_append]
  rw [split, List.getLast?_append_of_ne_nil _ segment.text_ne_nil]
  intro last
  exact segment.slash_not_mem (List.mem_of_getLast? last)

theorem segmentsText_begins (segments : List Segment) :
    segmentsText segments = [] ∨ (segmentsText segments).head? = some (chr '/') := by
  cases segments with
  | nil => exact .inl rfl
  | cons segment segments => exact .inr rfl

/-- A slash alone is no segment. -/
theorem segmentsText_ne_slash (segments : List Segment) : segmentsText segments ≠ str "/" := by
  intro slash
  cases segments with
  | nil => cases slash
  | cons segment segments =>
      have empty := (List.append_eq_nil_iff.mp (List.cons.inj slash).2).1
      exact segment.text_ne_nil empty

namespace Path

/-- The segments of a path. -/
def listed : Path → List Segment
  | .empty => []
  | .slash => []
  | .segments modulePrefix name keys others => ⟨⟨some modulePrefix, name⟩, keys⟩ :: others

theorem value_eq (path : Path) : path.value = path.listed.map Segment.value := by
  cases path <;> rfl

theorem text_eq (path : Path) (noSlash : path ≠ .slash) :
    path.text = segmentsText path.listed := by
  cases path with
  | empty => rfl
  | slash => exact absurd rfl noSlash
  | segments modulePrefix name keys others =>
      rw [Path.text_segments]
      rfl

theorem getLast?_text (base : Str) (path : Path) (some : path.listed ≠ []) :
    (base ++ path.text).getLast? ≠ Option.some (chr '/') := by
  have noSlash : path ≠ .slash := by
    rintro rfl
    exact some rfl
  rw [path.text_eq noSlash]
  exact getLast?_segmentsText base some

/-- Segments which make up a path are the segments of one. -/
theorem exists_listed {segments : List Segment}
    (valid : WellFormed (segments.map Segment.value)) :
    ∃ path : Path, path ≠ .slash ∧ path.listed = segments := by
  cases segments with
  | nil => exact ⟨.empty, nofun, rfl⟩
  | cons first others =>
      obtain ⟨⟨modulePrefix, name⟩, keys⟩ := first
      cases modulePrefix with
      | none => cases valid.qualified _ rfl
      | some modulePrefix => exact ⟨.segments modulePrefix name keys others, nofun, rfl⟩

end Path

/-! ## Data resources -/

/-- A datastore, which has the data resources below it. -/
inductive DataRoot where
  | data
  | ds (modulePrefix name : Identifier)

namespace DataRoot

def text : DataRoot → Str
  | .data => str "/restconf/data"
  | .ds modulePrefix name => str "/restconf/ds/" ++ modulePrefix.text ++ str ":" ++ name.text

def uriPrefix : DataRoot → URIPrefix
  | .data => ⟨.basicRestconfData, none⟩
  | .ds modulePrefix name => ⟨.nmdaDatastore, some ⟨some modulePrefix.text, name.text⟩⟩

/-- The path of a request below the datastore. -/
def phrase : DataRoot → Path → UriPhrase
  | .data, path => .data path
  | .ds modulePrefix name, path => .ds modulePrefix name path

@[simp] theorem text_phrase (root : DataRoot) (path : Path) :
    (root.phrase path).text = root.text ++ path.text := by
  cases root <;> rfl

@[simp] theorem value_phrase (root : DataRoot) (path : Path) :
    (root.phrase path).value = ⟨root.uriPrefix, path.value⟩ := by
  cases root <;> rfl

theorem text_ne_nil (root : DataRoot) : root.text ≠ [] := by
  cases root <;> exact nofun

theorem getLast?_text (root : DataRoot) : root.text.getLast? ≠ some (chr '/') := by
  cases root with
  | data => decide
  | ds modulePrefix name =>
      intro last
      have named : name.text ≠ [] := nofun
      rw [text, List.getLast?_append_of_ne_nil _ named] at last
      cases name.continues _ (List.mem_of_getLast? last)

theorem parseUriPath_below (root : DataRoot) (path : Path) :
    parseUriPath (root.text ++ path.text) = .ok ⟨root.uriPrefix, path.value⟩ :=
  parseUriPath_eq_ok_iff.mpr ⟨root.phrase path, root.text_phrase path, root.value_phrase path⟩

/-- What is behind the name of a datastore continues the name, up to a path. -/
theorem parseUriPath_eq_ok (root : DataRoot) {rest : Str} {uri : URIPath}
    (parsed : parseUriPath (root.text ++ rest) = .ok uri) :
    ∃ (extra : Str) (path : Path), rest = extra ++ path.text ∧
      (∀ c ∈ extra, isIdentifierChar c = true) ∧ uri.segments = path.value ∧
      (extra = [] → uri.uriPrefix = root.uriPrefix) := by
  obtain ⟨phrase, same, rfl⟩ := parseUriPath_eq_ok_iff.mp parsed
  -- the octets in which the names of the resources differ
  have octets := congrArg (fun text : Str => (text.drop 10 |>.take 2).map UInt8.toNat) same
  cases root with
  | data =>
      cases phrase with
      | restconfRoot slash => cases slash <;> cases octets
      | data path =>
          have split := (List.append_cancel_left same).symm
          exact ⟨[], path, split, List.forall_mem_nil _, rfl, fun _ => rfl⟩
      | yangLibraryVersion slash => cases slash <;> cases octets
      | _ => cases octets
  | ds modulePrefix name =>
      cases phrase with
      | restconfRoot slash => cases slash <;> cases octets
      | ds modulePrefix' name' path =>
          simp only [UriPhrase.text, text, List.append_assoc] at same
          have tail := List.append_cancel_left same
          obtain ⟨sameModule, tail⟩ :=
            recognizes_identifier.cancel (stops_colon _) (stops_colon _) tail
          rcases List.append_eq_append_iff.mp (List.append_cancel_left tail) with
            ⟨extra, longer, shape⟩ | ⟨extra, longer, shape⟩
          · -- the path would begin with what is left of the name
            cases extra with
            | nil =>
                rw [List.append_nil] at longer
                refine ⟨[], path, shape.symm, List.forall_mem_nil _, rfl, fun _ => ?_⟩
                rw [Identifier.text_injective sameModule, Identifier.text_injective longer.symm]
                rfl
            | cons c extra =>
                have isChar : isIdentifierChar c = true :=
                  name.isIdentifierChar_of_mem (longer ▸ by simp)
                have stops := path.stops_text
                rw [shape, List.cons_append, stops_cons, isChar] at stops
                cases stops
          · refine ⟨extra, path, shape, ?_, rfl, ?_⟩
            · intro c member
              exact name'.isIdentifierChar_of_mem (longer ▸ List.mem_append_right _ member)
            · rintro rfl
              rw [List.append_nil] at longer
              rw [Identifier.text_injective sameModule, Identifier.text_injective longer]
              rfl
      | yangLibraryVersion slash => cases slash <;> cases octets
      | _ => cases octets

/-- Where a slash comes next, or nothing, a path begins. -/
theorem parseUriPath_of_slash (root : DataRoot) {rest : Str} {uri : URIPath}
    (begins : rest = [] ∨ rest.head? = some (chr '/'))
    (parsed : parseUriPath (root.text ++ rest) = .ok uri) :
    ∃ path : Path, rest = path.text ∧ uri = ⟨root.uriPrefix, path.value⟩ := by
  obtain ⟨uriPrefix, segments⟩ := uri
  obtain ⟨extra, path, rfl, areChars, rfl, samePrefix⟩ := root.parseUriPath_eq_ok parsed
  cases extra with
  | nil =>
      cases samePrefix rfl
      exact ⟨path, rfl, rfl⟩
  | cons c extra =>
      rcases begins with none | slash
      · cases none
      · cases slash
        cases areChars (chr '/') List.mem_cons_self

/-- A path is parsed in two parts, if the second part is empty or begins with a slash. -/
theorem parseUriPath_append_iff (root : DataRoot) {text offset : Str} {uri : URIPath}
    (textBegins : text = [] ∨ text.head? = some (chr '/')) (noSlash : text ≠ str "/")
    (begins : offset = [] ∨ offset.head? = some (chr '/')) :
    parseUriPath (root.text ++ (text ++ offset)) = .ok uri ↔
      (∃ first second : List Segment, text = segmentsText first ∧ offset = segmentsText second ∧
        WellFormed ((first ++ second).map Segment.value) ∧
        uri = ⟨root.uriPrefix, (first ++ second).map Segment.value⟩) ∨
      (text = [] ∧ offset = str "/" ∧ uri = ⟨root.uriPrefix, []⟩) := by
  constructor
  case mp =>
    intro parsed
    have whole : text ++ offset = [] ∨ (text ++ offset).head? = some (chr '/') := by
      rcases textBegins with rfl | slash
      · exact begins
      · exact .inr (by rw [List.head?_append, slash]; rfl)
    obtain ⟨path, same, rfl⟩ := root.parseUriPath_of_slash whole parsed
    by_cases isSlash : path = .slash
    · subst isSlash
      rcases List.append_eq_singleton_iff.mp same with ⟨rfl, slash⟩ | ⟨slash, _⟩
      · exact .inr ⟨rfl, slash, rfl⟩
      · exact absurd slash noSlash
    · have valid := path.wellFormed
      rw [path.text_eq isSlash] at same
      rw [path.value_eq] at valid
      rcases begins with rfl | slash
      · rw [List.append_nil] at same
        exact .inl ⟨path.listed, [], same, rfl, by rwa [List.append_nil],
          by rw [List.append_nil, path.value_eq]⟩
      · obtain ⟨first, second, split, text, offset⟩ :=
          exists_split_of_separated Segment.slash_not_mem slash same
        exact .inl ⟨first, second, text, offset, split ▸ valid, by rw [path.value_eq, split]⟩
  case mpr =>
    rintro (⟨first, second, rfl, rfl, valid, rfl⟩ | ⟨rfl, rfl, rfl⟩)
    · obtain ⟨path, notSlash, listed⟩ := Path.exists_listed valid
      rw [← segmentsText_append, ← listed, ← path.value_eq, ← path.text_eq notSlash]
      exact root.parseUriPath_below path
    · exact root.parseUriPath_below .slash

theorem parseUriPath_segments_iff (root : DataRoot) (segments : List Segment) {offset : Str}
    {uri : URIPath} (begins : offset = [] ∨ offset.head? = some (chr '/')) :
    parseUriPath (root.text ++ (segmentsText segments ++ offset)) = .ok uri ↔
      (∃ further : List Segment, offset = segmentsText further ∧
        WellFormed ((segments ++ further).map Segment.value) ∧
        uri = ⟨root.uriPrefix, (segments ++ further).map Segment.value⟩) ∨
      (segments = [] ∧ offset = str "/" ∧ uri = ⟨root.uriPrefix, []⟩) := by
  rw [root.parseUriPath_append_iff (segmentsText_begins segments) (segmentsText_ne_slash segments)
    begins]
  constructor
  case mp =>
    rintro (⟨first, further, same, offset, valid, rfl⟩ | ⟨none, slash, rfl⟩)
    · obtain rfl := segmentsText_injective same
      exact .inl ⟨further, offset, valid, rfl⟩
    · exact .inr ⟨segmentsText_injective none, slash, rfl⟩
  case mpr =>
    rintro (⟨further, offset, valid, rfl⟩ | ⟨rfl, slash, rfl⟩)
    · exact .inl ⟨segments, further, rfl, offset, valid, rfl⟩
    · exact .inr ⟨rfl, slash, rfl⟩

end DataRoot

end Grammar

/-- A request for data: of the unified datastore or of one of the NMDA datastores. -/
def URIPath.IsData (uri : URIPath) : Prop :=
  uri.uriPrefix.resourceType = .basicRestconfData ∨ uri.uriPrefix.resourceType = .nmdaDatastore

theorem URIPath.IsData.exists_text {uri : URIPath} (isData : uri.IsData) {text : Str}
    (parsed : parseUriPath text = .ok uri) :
    ∃ (root : Grammar.DataRoot) (path : Grammar.Path),
      text = root.text ++ path.text ∧ uri = ⟨root.uriPrefix, path.value⟩ := by
  obtain ⟨phrase, rfl, rfl⟩ := parseUriPath_eq_ok_iff.mp parsed
  cases phrase with
  | restconfRoot slash => rcases isData with isData | isData <;> cases isData
  | data path => exact ⟨.data, path, rfl, rfl⟩
  | ds modulePrefix name path => exact ⟨.ds modulePrefix name, path, rfl, rfl⟩
  | operations path => rcases isData with isData | isData <;> cases isData
  | yangLibraryVersion slash => rcases isData with isData | isData <;> cases isData

end Impl

/-! ## Joining -/

theorem uriJoin_of_slash {a b : Str} (ends : a.getLast? ≠ some (chr '/'))
    (begins : b.head? = some (chr '/')) : uriJoin a b = a ++ b := by
  simp [uriJoin, ends, begins]

theorem uriJoin_slash_slash (a b : Str) :
    uriJoin (a ++ str "/") (chr '/' :: b) = a ++ chr '/' :: b := by
  simp [uriJoin, str, chr]

theorem uriJoin_between {a b : Str} (someA : a ≠ []) (someB : b ≠ [])
    (ends : a.getLast? ≠ some (chr '/')) (begins : b.head? ≠ some (chr '/')) :
    uriJoin a b = a ++ str "/" ++ b := by
  simp [uriJoin, someA, someB, ends, begins]

open Impl.Grammar in
/-- What begins with a slash comes right after the segments of the request. -/
theorem uriJoin_data (root : DataRoot) (path : Path) {offset : Str}
    (begins : offset.head? = some (chr '/')) :
    uriJoin (root.text ++ path.text) offset =
      root.text ++ (segmentsText path.listed ++ offset) := by
  cases path with
  | empty =>
      rw [show Path.text .empty = [] from rfl, List.append_nil]
      exact uriJoin_of_slash root.getLast?_text begins
  | slash =>
      obtain ⟨rest, rfl⟩ := List.head?_eq_some_iff.mp begins
      exact uriJoin_slash_slash root.text rest
  | segments modulePrefix name keys others =>
      have ends := (Path.segments modulePrefix name keys others).getLast?_text root.text nofun
      have text := (Path.segments modulePrefix name keys others).text_eq nofun
      rw [uriJoin_of_slash ends begins, text, List.append_assoc]

namespace Impl.Grammar

/-- A slash, followed by the segments. -/
def offsetText (segments : List Segment) : Str :=
  str "/" ++ join (str "/") (segments.map Segment.text)

theorem offsetText_cons (segment : Segment) (segments : List Segment) :
    offsetText (segment :: segments) = segmentsText (segment :: segments) := by
  rw [offsetText, Parser.Recognizes.join_map_cons]
  rfl

theorem head?_offsetText (segments : List Segment) :
    (offsetText segments).head? = some (chr '/') := rfl

end Impl.Grammar

section Target

variable {S : Type} (ctx : Context S)

/-- The last segment is split off: what is before it is resolved on its own, and the last
segment gets the module of its node unless it is qualified. -/
def SplitOff (segments : List PathSegment) (lyParentPath : Str)
    (lastPathSegment : PathSegment) : Prop :=
  ∃ before last parent, segments = before ++ [last] ∧ asLibyangPath ctx before = .ok parent ∧
    lyParentPath = parent.dataPath ∧ lastPathSegment.keys = last.keys ∧
    lastPathSegment.apiIdent.identifier = last.apiIdent.identifier ∧
    match last.apiIdent.modulePrefix with
    | some modulePrefix => lastPathSegment.apiIdent.modulePrefix = some modulePrefix
    | none => ∃ full node, asLibyangPath ctx segments = .ok full ∧ full.schemaNode = some node ∧
        lastPathSegment.apiIdent.modulePrefix = some (ctx.moduleName node)

theorem asLibyangPathSplit_eq_ok_iff {uriPath lyParentPath : Str} {uri : Impl.URIPath}
    {lastPathSegment : PathSegment} (parsed : Impl.parseUriPath uriPath = .ok uri) :
    asLibyangPathSplit ctx uriPath = .ok (lyParentPath, lastPathSegment) ↔
      SplitOff ctx uri.segments lyParentPath lastPathSegment := by
  constructor
  case mp =>
    intro split
    obtain ⟨uri', before, last, parent, parsed', shape, resolved, path, keys, name, ident⟩ :=
      asLibyangPathSplit_eq_ok split
    rw [parsed] at parsed'
    cases parsed'
    refine ⟨before, last, parent, shape, resolved, path, keys, name, ?_⟩
    rcases ident with ⟨modulePrefix, qualified, rfl⟩ |
      ⟨unqualified, full, node, whole, known, given⟩
    · simp only [qualified]
    · simp only [unqualified]
      exact ⟨full, node, shape ▸ whole, known, given⟩
  case mpr =>
    rintro ⟨before, last, parent, shape, resolved, rfl, keys, name, ident⟩
    obtain ⟨⟨modulePrefix, _⟩, _⟩ := lastPathSegment
    obtain ⟨⟨lastPrefix, _⟩, _⟩ := last
    cases keys
    cases name
    have lastOne := congrArg List.getLast? shape
    have others := congrArg List.dropLast shape
    rw [List.getLast?_concat] at lastOne
    rw [List.dropLast_concat] at others
    cases lastPrefix with
    | some lastPrefix =>
        cases ident
        simp only [asLibyangPathSplit, parsed, lastOne, others, resolved, bind, Except.bind, pure,
          Except.pure]
    | none =>
        obtain ⟨full, node, whole, known, given⟩ := ident
        cases given
        simp only [asLibyangPathSplit, parsed, lastOne, others, resolved, whole, known, bind,
          Except.bind, pure, Except.pure]

open Impl Impl.Grammar in
/-- The target of an edit is joined to the path of the request, segment by segment, unless it
is a slash alone and the request has segments: the slash is not accepted behind them. -/
theorem parseUriPath_uriJoin_iff {u : Str} {uri : URIPath} (accepted : parseUriPath u = .ok uri)
    (isData : uri.IsData) (st : List Segment)
    (valid : WellFormed (uri.segments ++ st.map Segment.value)) :
    (parseUriPath (uriJoin u (offsetText st)) =
          .ok ⟨uri.uriPrefix, uri.segments ++ st.map Segment.value⟩ ∧
        ∀ lyParentPath lastPathSegment,
          asLibyangPathSplit ctx (uriJoin u (offsetText st)) =
              .ok (lyParentPath, lastPathSegment) ↔
            SplitOff ctx (uri.segments ++ st.map Segment.value) lyParentPath lastPathSegment) ↔
      ¬(offsetText st = str "/" ∧ uri.segments ≠ []) := by
  obtain ⟨root, path, rfl, rfl⟩ := isData.exists_text accepted
  rw [uriJoin_data root path (head?_offsetText st)]
  have joined {uri : URIPath} :=
    @root.parseUriPath_segments_iff path.listed _ uri (.inr (head?_offsetText st))
  constructor
  case mp =>
    rintro ⟨parsed, _⟩ ⟨slash, some⟩
    rcases joined.mp parsed with ⟨further, same, _⟩ | ⟨none, _⟩
    · exact segmentsText_ne_slash further (same.symm.trans slash)
    · exact some (by rw [path.value_eq, none]; rfl)
  case mpr =>
    intro condition
    have parsed : parseUriPath (root.text ++ (segmentsText path.listed ++ offsetText st)) =
        .ok ⟨root.uriPrefix, path.value ++ st.map Segment.value⟩ := by
      rw [path.value_eq, ← List.map_append] at valid ⊢
      refine joined.mpr ?_
      cases st with
      | nil =>
          -- nothing was added to a request without any segments
          have none : path.value = [] := by
            by_contra some
            exact condition ⟨rfl, some⟩
          rw [path.value_eq, List.map_eq_nil_iff] at none
          exact .inr ⟨none, rfl, by rw [none]; rfl⟩
      | cons segment segments =>
          exact .inl ⟨segment :: segments, offsetText_cons segment segments, valid, rfl⟩
    exact ⟨parsed, fun _ _ => asLibyangPathSplit_eq_ok_iff ctx parsed⟩

end Target

namespace Targets

open Impl Impl.Grammar

/-- The target `/list=a` -/
def listEntry : Segment :=
  ⟨⟨none, ⟨chr 'l', str "ist", rfl, List.all_eq_true.mp rfl⟩⟩, [[.plain (chr 'a') rfl]]⟩

/-- A request for a container. -/
def tlc : URIPath :=
  ⟨⟨.basicRestconfData, none⟩, [⟨⟨some (str "example"), str "tlc"⟩, []⟩]⟩

theorem tlc_parsed : parseUriPath (str "/restconf/data/example:tlc") = .ok tlc := by decide

/-- An entry of the list in the container. -/
theorem listEntry_joined :
    offsetText [listEntry] = str "/list=a" ∧
      parseUriPath (uriJoin (str "/restconf/data/example:tlc") (offsetText [listEntry])) =
        .ok ⟨tlc.uriPrefix, tlc.segments ++ [listEntry.value]⟩ := by
  have valid : WellFormed (tlc.segments ++ [listEntry].map Segment.value) := by
    have named := (Path.segments ⟨chr 'e', str "xample", rfl, List.all_eq_true.mp rfl⟩
      ⟨chr 't', str "lc", rfl, List.all_eq_true.mp rfl⟩ [] [listEntry]).wellFormed
    exact named
  refine ⟨rfl, ?_⟩
  exact ((parseUriPath_uriJoin_iff Example.schema tlc_parsed (.inl rfl) [listEntry] valid).mpr
    (fun slash => absurd slash.1 (by decide))).1

/-- A slash does not stand for the container. -/
theorem tlc_slash_rejected :
    parseUriPath (str "/restconf/data/example:tlc") = .ok tlc ∧
      offsetText [] = str "/" ∧ WellFormed (tlc.segments ++ [].map Segment.value) ∧
      parseUriPath (uriJoin (str "/restconf/data/example:tlc") (offsetText [])) ≠
        .ok ⟨tlc.uriPrefix, tlc.segments⟩ := by
  have valid : WellFormed (tlc.segments ++ [].map Segment.value) := by
    have named := (Path.segments ⟨chr 'e', str "xample", rfl, List.all_eq_true.mp rfl⟩
      ⟨chr 't', str "lc", rfl, List.all_eq_true.mp rfl⟩ [] []).wellFormed
    exact named
  exact ⟨tlc_parsed, rfl, valid, by decide⟩

end Targets

end Rousette.Restconf
