import Mathlib.Algebra.Ring.Nat
import Rousette.Library.Parser
import Rousette.Exceptions

/-!
# Grammar of request URIs

The Boost.Spirit X3 grammars of `restconf/uri.cpp` for the path and the query string
of a RESTCONF request, rule by rule.  A rule keeps the name it has in the source,
and an expectation point carries the text which the syntax error reports.  Parsers
of Boost which have no name of their own report their C++ type there; the model
writes what they stand for.
-/

namespace Rousette.Restconf

open Library

/-- Identifier referring to a YANG node name with an optional prefix. -/
structure ApiIdentifier where
  modulePrefix : Option Str
  identifier : Str
  deriving DecidableEq, Repr

/-- `ApiIdentifier::name` -/
def ApiIdentifier.qualifiedName (ident : ApiIdentifier) : Str :=
  match ident.modulePrefix with
  | none => ident.identifier
  | some modulePrefix => modulePrefix ++ str ":" ++ ident.identifier

/-- One level of the RESTCONF URI path. -/
structure PathSegment where
  apiIdent : ApiIdentifier
  keys : List Str
  deriving DecidableEq, Repr

namespace QueryParams

/-- `queryParams::fields::Expr` -/
inductive FieldsExpr where
  | slash (lhs : ApiIdentifier) (rhs : Option FieldsExpr)
  | paren (lhs : FieldsExpr) (rhs : Option FieldsExpr)
  | semi (lhs : FieldsExpr) (rhs : Option FieldsExpr)

/-- `queryParams::QueryParamValue` -/
inductive QueryParamValue where
  | unboundedDepth
  | depth (value : Nat)
  | text (value : Str)
  | trim
  | explicit
  | reportAll
  | reportAllTagged
  | allNodes
  | onlyNonConfigNodes
  | onlyConfigNodes
  | first
  | last
  | before
  | after
  | pointParsed (segments : List PathSegment)
  | fields (expr : FieldsExpr)

end QueryParams

/-- `std::string::operator<` -/
def textLess : Str → Str → Bool
  | _, [] => false
  | [], _ :: _ => true
  | c :: text, d :: other => c < d || (c == d && textLess text other)

/-- `queryParams::QueryParams`, a multimap: sorted by the name, equal names in the order of
insertion. -/
abbrev QueryParams := List (Str × QueryParams.QueryParamValue)

/-- `std::multimap::emplace` -/
def QueryParams.emplace (param : Str × QueryParams.QueryParamValue) :
    QueryParams → QueryParams
  | [] => [param]
  | other :: rest =>
      if textLess param.1 other.1 then param :: other :: rest
      else other :: QueryParams.emplace param rest

/-- `std::multimap::find` -/
def QueryParams.find (params : QueryParams) (name : String) :
    Option QueryParams.QueryParamValue :=
  (List.find? (fun param => param.1 == str name) params).map Prod.snd

namespace Impl

/-- `URIPrefix::Type` -/
inductive ResourceType where
  | restconfRoot
  | basicRestconfData
  | basicRestconfOperations
  | nmdaDatastore
  | yangLibraryVersion
  deriving DecidableEq, Repr

/-- The part of the URI before the RESTCONF-encoded YANG path. -/
structure URIPrefix where
  resourceType : ResourceType
  datastore : Option ApiIdentifier
  deriving DecidableEq, Repr

/-- Parsed URI path. -/
structure URIPath where
  uriPrefix : URIPrefix
  segments : List PathSegment
  deriving DecidableEq, Repr

namespace Grammar

open Parser

/-- The digit which a hexadecimal character stands for. -/
def hexDigit (c : UInt8) : Nat :=
  let lower := Ascii.toLower c
  if chr 'a' ≤ lower then lower.toNat - (chr 'a').toNat + 10
  else lower.toNat - (chr '0').toNat

def xdigit : Parser Nat := do
  let c ← satisfy Ascii.isXDigit
  return hexDigit c

def hexbyte : Parser Nat := do
  let high ← xdigit
  let low ← xdigit
  return high * 16 + low

def percentEncodedChar : Parser UInt8 := do
  lit (str "%")
  let octet ← expect (str "two hex digits") hexbyte
  return octet.toUInt8

/-- `reservedChars` -/
def isReserved (c : UInt8) : Bool :=
  (str ":/?#[]@!$&'()*+,;=%").contains c

def percentEncodedString : Parser Str :=
  many1 (orElse percentEncodedChar (satisfy fun c => !isReserved c))

def keyList : Parser (List Str) :=
  sepBy1 (orElse percentEncodedString (attr [])) (lit (str ","))

def noStrayEquals : Parser Unit := notFollowedBy (lit (str "="))

def isIdentifierStart (c : UInt8) : Bool := Ascii.isAlpha c || c == chr '_'

def isIdentifierChar (c : UInt8) : Bool :=
  Ascii.isAlnum c || c == chr '_' || c == chr '-' || c == chr '.'

def identifier : Parser Str := do
  let first ← satisfy isIdentifierStart
  let others ← many (satisfy isIdentifierChar)
  return first :: others

def apiIdentifier : Parser ApiIdentifier := do
  let modulePrefix ← optional (do let name ← identifier; lit (str ":"); return name)
  let name ← expect (str "identifier") identifier
  return ⟨modulePrefix, name⟩

/-- `-('=' > keyList > noStrayEquals)` -/
def keys : Parser (List Str) := do
  let values ← optional do
    lit (str "=")
    let values ← expect (str "list key values") keyList
    expect (str "valid key value") noStrayEquals
    return values
  return values.getD []

def listInstance : Parser PathSegment := do
  let ident ← apiIdentifier
  let values ← keys
  return ⟨ident, values⟩

def fullyQualifiedApiIdentifier : Parser ApiIdentifier := do
  let modulePrefix ← identifier
  expect (str "':'") (lit (str ":"))
  let name ← expect (str "identifier") identifier
  return ⟨some modulePrefix, name⟩

def fullyQualifiedListInstance : Parser PathSegment := do
  let ident ← fullyQualifiedApiIdentifier
  let values ← keys
  return ⟨ident, values⟩

def uriPathContent : Parser (List PathSegment) := do
  let first ← fullyQualifiedListInstance
  let others ← optional do
    lit (str "/")
    expect (str "path segment list") (sepBy1 listInstance (lit (str "/")))
  return first :: others.getD []

def uriEmpty : Parser (List PathSegment) := do
  followedBy eoi
  return []

def uriPathMaybeEmpty : Parser (List PathSegment) := orElse uriEmpty uriPathContent

def uriPath : Parser (List PathSegment) :=
  orElse uriEmpty do
    lit (str "/")
    expect (str "resource path") uriPathMaybeEmpty

def nmdaDatastore : Parser URIPrefix := do
  expect (str "'/'") (lit (str "/"))
  let datastore ←
    expect (str "module-qualified identifier (module:name)") fullyQualifiedApiIdentifier
  return ⟨.nmdaDatastore, some datastore⟩

/-- A resource which is followed by a data path. -/
def resourceWithPath (text : Str) (resourceType : ResourceType) : Parser URIPath := do
  lit text
  let segments ← expect (str "uriPath") uriPath
  return ⟨⟨resourceType, none⟩, segments⟩

def resource : Parser URIPath :=
  orElse (do eoi; return ⟨⟨.restconfRoot, none⟩, []⟩) <|
  orElse (resourceWithPath (str "data") .basicRestconfData) <|
  orElse (do
    lit (str "ds")
    let uriPrefix ← expect (str "NMDA datastore identifier") nmdaDatastore
    let segments ← expect (str "uriPath") uriPath
    return ⟨uriPrefix, segments⟩) <|
  orElse (resourceWithPath (str "operations") .basicRestconfOperations) do
    lit (str "yang-library-version")
    let _ ← optional (lit (str "/"))
    return ⟨⟨.yangLibraryVersion, none⟩, []⟩

def resources : Parser URIPath :=
  orElse (do
    lit (str "/")
    expect (str "RESTCONF resource") resource) do
    eoi
    return ⟨⟨.restconfRoot, none⟩, []⟩

def restconfGrammar : Parser URIPath := do
  lit (str "/")
  expect (str "\"restconf\"") (lit (str "restconf"))
  expect (str "RESTCONF resource") resources

/-! ## Query strings -/

open QueryParams

/-- `x3::symbols`: the longest entry of the table which is a prefix of the input. The
tables are given with longer entries before their own prefixes. -/
def symbols : List (String × QueryParamValue) → Parser QueryParamValue
  | [] => failure
  | (text, value) :: table =>
      orElse (do lit (str text); return value) (symbols table)

def withDefaultsTable : Parser QueryParamValue :=
  symbols [("trim", .trim), ("explicit", .explicit), ("report-all-tagged", .reportAllTagged),
    ("report-all", .reportAll)]

def contentTable : Parser QueryParamValue :=
  symbols [("all", .allNodes), ("nonconfig", .onlyNonConfigNodes),
    ("config", .onlyConfigNodes)]

def insertTable : Parser QueryParamValue :=
  symbols [("first", .first), ("last", .last), ("after", .after), ("before", .before)]

/-- The number which decimal digits stand for. -/
def decimalValue (digits : Str) : Nat :=
  digits.foldl (fun value digit => value * 10 + (digit.toNat - (chr '0').toNat)) 0

/-- `x3::uint_`, which fails when the number does not fit into 32 bits. -/
def uint : Parser Nat := fun input =>
  match many1 (satisfy Ascii.isDigit) input with
  | .ok digits rest =>
      if decimalValue digits < 2 ^ 32 then .ok (decimalValue digits) rest else .fail
  | .fail => .fail
  | .expected rest what => .expected rest what

/-- `x3::uint_[validDepthValues]` -/
def validDepthValues : Parser QueryParamValue := fun input =>
  match uint input with
  | .ok value rest => if 0 < value ∧ value < 65536 then .ok (.depth value) rest else .fail
  | .fail => .fail
  | .expected rest what => .expected rest what

def depthParam : Parser QueryParamValue :=
  orElse validDepthValues do
    lit (str "unbounded")
    return .unboundedDepth

/-- `fieldsSlash`; every level consumes something, so the fuel is the length of the
input. -/
def fieldsSlash : Nat → Parser FieldsExpr
  | 0 => failure
  | fuel + 1 => do
      let lhs ← apiIdentifier
      let rhs ← optional do
        lit (str "/")
        expect (str "fieldsSlash") (fieldsSlash fuel)
      return .slash lhs rhs

mutual

def fieldsSemi : Nat → Parser FieldsExpr
  | 0 => failure
  | fuel + 1 => do
      let lhs ← fieldsParen fuel
      let rhs ← optional do
        lit (str ";")
        expect (str "fieldsSemi") (fieldsSemi fuel)
      return .semi lhs rhs

def fieldsParen : Nat → Parser FieldsExpr
  | 0 => failure
  | fuel + 1 => do
      let lhs ← fun input => fieldsSlash (input.length + 1) input
      let rhs ← optional do
        lit (str "(")
        let inner ← expect (str "fieldsExpr") (fieldsSemi fuel)
        expect (str "')'") (lit (str ")"))
        return inner
      return .paren lhs rhs

end

def fieldsExpr : Parser FieldsExpr := fun input => fieldsSemi (2 * input.length + 2) input

def digit : Parser UInt8 := satisfy Ascii.isDigit

/-- One character of the text of a date. -/
def char (c : Char) : Parser UInt8 := satisfy fun d => d == chr c

def twoDigits : Parser Str := do
  let first ← digit
  let second ← expect (str "digit") digit
  return [first, second]

def year : Parser Str := do
  let first ← digit
  let others ← replicate (expect (str "digit") digit) 3
  return first :: others

def date : Parser Str := do
  let y ← year
  let dash ← expect (str "'-'") (char '-')
  let m ← expect (str "month") twoDigits
  let dash' ← expect (str "'-'") (char '-')
  let d ← expect (str "day") twoDigits
  return y ++ [dash] ++ m ++ [dash'] ++ d

def timeHHMM : Parser Str := do
  let hour ← twoDigits
  let colon ← expect (str "':'") (char ':')
  let minute ← expect (str "minute") twoDigits
  return hour ++ [colon] ++ minute

def time : Parser Str := do
  let hourMinute ← timeHHMM
  let colon ← expect (str "':'") (char ':')
  let second ← expect (str "second") twoDigits
  return hourMinute ++ [colon] ++ second

def timeMs : Parser Str := do
  let dot ← char '.'
  let digits ← expect (str "digits") (many1 digit)
  return dot :: digits

def timezone : Parser Str :=
  orElse (do let zulu ← char 'Z'; return [zulu]) do
    let sign ← orElse (char '+') (char '-')
    let offset ← expect (str "HH:mm") timeHHMM
    return sign :: offset

def dateAndTime : Parser Str := do
  let d ← date
  let separator ← expect (str "'T'") (char 'T')
  let t ← expect (str "time") (do
    let seconds ← time
    let fraction ← optional timeMs
    return seconds ++ fraction.getD [])
  let zone ← expect (str "timezone") timezone
  return d ++ [separator] ++ t ++ zone

def filter : Parser Str :=
  many1 (orElse percentEncodedChar (satisfy fun c => c != chr '&'))

/-- `x3::string(name) > "=" > value` -/
def param (name : String) (what : Str) (value : Parser QueryParamValue) :
    Parser (Str × QueryParamValue) := do
  lit (str name)
  expect (str "'='") (lit (str "="))
  let parsed ← expect what value
  return (str name, parsed)

def queryParamPair : Parser (Str × QueryParamValue) :=
  orElse (param "depth" (str "1-65535 or 'unbounded'") depthParam) <|
  orElse (param "with-defaults"
    (str "'trim', 'explicit', 'report-all' or 'report-all-tagged'") withDefaultsTable) <|
  orElse (param "content" (str "'all', 'nonconfig' or 'config'") contentTable) <|
  orElse (param "insert" (str "'first', 'last', 'after' or 'before'") insertTable) <|
  orElse (param "point" (str "uriPath")
    (do let segments ← uriPath; return .pointParsed segments)) <|
  orElse (param "filter" (str "filter") (do let text ← filter; return .text text)) <|
  orElse (param "start-time" (str "dateAndTime")
    (do let text ← dateAndTime; return .text text)) <|
  orElse (param "stop-time" (str "dateAndTime")
    (do let text ← dateAndTime; return .text text))
  (param "fields" (str "fieldsExpr") (do let expr ← fieldsExpr; return .fields expr))

def queryParamEmpty : Parser QueryParams := do
  followedBy eoi
  return []

def queryParamList : Parser QueryParams := do
  let first ← queryParamPair
  let others ← many do
    lit (str "&")
    expect (str "query parameter") queryParamPair
  return (first :: others).foldl (fun params param => QueryParams.emplace param params) []

def queryParamMaybeEmpty : Parser QueryParams := orElse queryParamEmpty queryParamList

def queryParamGrammar : Parser QueryParams :=
  expect (str "query parameter") queryParamMaybeEmpty

end Grammar

/-- `parse`: the whole input has to match, and an expectation failure tells its position,
which `positionOffset` is added to. -/
def parse {α : Type} (uriSegment : Str) (grammar : Parser α) (input : Str)
    (positionOffset : Nat) : Except Exception α :=
  let whole : Parser α := do
    let value ← grammar
    Parser.expect (str "eoi") Parser.eoi
    return value
  match whole input with
  | .ok value _ => .ok value
  | .fail => .error (.errorResponse (.uriSyntaxError uriSegment))
  | .expected rest what =>
      .error (.errorResponse
        (.uriSyntaxErrorAt uriSegment (input.length - rest.length + positionOffset) what))

/-- `parseUriPath` -/
def parseUriPath (input : Str) : Except Exception URIPath :=
  parse (str "path") Grammar.restconfGrammar input 0

/-- What the grammar guarantees: the first segment of a path and the datastore are
qualified by a module. -/
structure Qualified (uri : URIPath) : Prop where
  first : ∀ segment ∈ uri.segments.head?, segment.apiIdent.modulePrefix.isSome = true
  datastore : ∀ ident ∈ uri.uriPrefix.datastore, ident.modulePrefix.isSome = true

namespace Grammar

open Parser

theorem yields_fullyQualifiedApiIdentifier :
    Yields (fun ident => ident.modulePrefix.isSome = true) fullyQualifiedApiIdentifier :=
  .bind_any fun _ => .bind_any fun _ => .bind_any fun _ => .pure rfl

theorem yields_uriPathMaybeEmpty :
    Yields (fun segments : List PathSegment => ∀ segment ∈ segments.head?,
      segment.apiIdent.modulePrefix.isSome = true) uriPathMaybeEmpty := by
  refine .orElse (.bind_any fun _ => .pure (by simp)) ?_
  have first : Yields (fun segment => segment.apiIdent.modulePrefix.isSome = true)
      fullyQualifiedListInstance :=
    .bind yields_fullyQualifiedApiIdentifier fun _ holds => .bind_any fun _ => .pure holds
  refine .bind first fun segment holds => .bind_any fun _ => .pure ?_
  rintro _ ⟨⟩
  exact holds

theorem yields_uriPath :
    Yields (fun segments : List PathSegment => ∀ segment ∈ segments.head?,
      segment.apiIdent.modulePrefix.isSome = true) uriPath :=
  .orElse (.bind_any fun _ => .pure (by simp)) (.bind_any fun _ => .expect yields_uriPathMaybeEmpty)

theorem yields_resourceWithPath (text : Str) (resourceType : ResourceType) :
    Yields Qualified (resourceWithPath text resourceType) :=
  .bind_any fun _ => .bind (.expect yields_uriPath) fun _ first => .pure ⟨first, by simp⟩

theorem yields_resource : Yields Qualified resource := by
  refine .orElse (.bind_any fun _ => .pure ⟨by simp, by simp⟩) ?_
  refine .orElse (yields_resourceWithPath _ _)
    (.orElse ?_ (.orElse (yields_resourceWithPath _ _) ?_))
  · have datastore : Yields (fun uriPrefix => ∀ ident ∈ URIPrefix.datastore uriPrefix,
        ident.modulePrefix.isSome = true) nmdaDatastore := by
      refine .bind_any fun _ => .bind (.expect yields_fullyQualifiedApiIdentifier) ?_
      intro ident holds
      refine .pure ?_
      rintro _ ⟨⟩
      exact holds
    refine .bind_any fun _ => .bind (.expect datastore) fun uriPrefix known => ?_
    exact .bind (.expect yields_uriPath) fun _ first => .pure ⟨first, known⟩
  · exact .bind_any fun _ => .bind_any fun _ => .pure ⟨by simp, by simp⟩

theorem yields_restconfGrammar : Yields Qualified restconfGrammar := by
  refine .bind_any fun _ => .bind_any fun _ => .expect (.orElse ?_ ?_)
  · exact .bind_any fun _ => .expect yields_resource
  · exact .bind_any fun _ => .pure ⟨by simp, by simp⟩

end Grammar

theorem parse_eq_ok {α : Type} {property : α → Prop} {uriSegment : Str} {grammar : Parser α}
    (yields : Parser.Yields property grammar) {input : Str} {positionOffset : Nat} {value : α}
    (parsed : parse uriSegment grammar input positionOffset = .ok value) : property value := by
  simp only [parse] at parsed
  split at parsed
  next rest whole =>
    cases parsed
    exact Parser.Yields.bind yields (fun _ holds => .bind_any fun _ => .pure holds) _ _ _ whole
  · cases parsed
  · cases parsed

theorem parseUriPath_qualified {input : Str} {uri : URIPath}
    (parsed : parseUriPath input = .ok uri) : Qualified uri :=
  parse_eq_ok Grammar.yields_restconfGrammar parsed

/-- `parseQueryParams` -/
def parseQueryParams (querystring : Str) (pathLength : Nat) : Except Exception QueryParams :=
  parse (str "query") Grammar.queryParamGrammar querystring pathLength

/-! ## Values of query parameters -/

open QueryParams in
/-- A mode for default values. -/
def IsWithDefaults (value : QueryParamValue) : Prop :=
  value = .trim ∨ value = .explicit ∨ value = .reportAll ∨ value = .reportAllTagged

open QueryParams in
/-- The value of a parameter is of the kind which the server takes it for. -/
structure Typed (param : Str × QueryParamValue) : Prop where
  point : param.1 = str "point" → ∃ segments, param.2 = .pointParsed segments
  fields : param.1 = str "fields" → ∃ expr, param.2 = .fields expr
  withDefaults : param.1 = str "with-defaults" → IsWithDefaults param.2

theorem mem_of_mem_emplace {param added : Str × QueryParams.QueryParamValue}
    {params : QueryParams} (member : param ∈ QueryParams.emplace added params) :
    param = added ∨ param ∈ params := by
  induction params with
  | nil => exact .inl (List.mem_singleton.mp member)
  | cons other rest ih =>
      simp only [QueryParams.emplace] at member
      split at member
      · rcases List.mem_cons.mp member with same | older
        · exact .inl same
        · exact .inr older
      · rcases List.mem_cons.mp member with same | later
        · exact .inr (same ▸ List.mem_cons_self)
        · rcases ih later with new | older
          · exact .inl new
          · exact .inr (List.mem_cons_of_mem _ older)

namespace Grammar

open Parser QueryParams

theorem yields_param {property : QueryParamValue → Prop} {name : String} {what : Str}
    {value : Parser QueryParamValue} (yields : Yields property value)
    (typed : ∀ parsed, property parsed → Typed (str name, parsed)) :
    Yields Typed (param name what value) := by
  refine .bind_any fun _ => .bind_any fun _ => .bind (.expect yields) fun parsed holds => ?_
  exact .pure (typed parsed holds)

/-- A parameter whose value is not looked at in this way. -/
theorem yields_param_other {name : String} {what : Str} {value : Parser QueryParamValue}
    (other : str name ∉ [str "point", str "fields", str "with-defaults"]) :
    Yields Typed (param name what value) := by
  simp only [List.mem_cons, List.not_mem_nil, or_false, not_or] at other
  apply yields_param (.trivial value)
  intro parsed _
  exact ⟨fun same => absurd same other.1, fun same => absurd same other.2.1,
    fun same => absurd same other.2.2⟩

theorem yields_symbols {property : QueryParamValue → Prop}
    {table : List (String × QueryParamValue)} (holds : ∀ entry ∈ table, property entry.2) :
    Yields property (symbols table) := by
  induction table with
  | nil =>
      intro _ _ _ parsed
      cases parsed
  | cons entry rest ih =>
      obtain ⟨here, there⟩ := List.forall_mem_cons.mp holds
      exact .orElse (.bind_any fun _ => .pure here) (ih there)

theorem yields_withDefaultsTable : Yields IsWithDefaults withDefaultsTable := by
  apply yields_symbols
  simp [IsWithDefaults]

theorem yields_queryParamPair : Yields Typed queryParamPair := by
  unfold queryParamPair
  apply Yields.orElse (yields_param_other (by decide))
  apply Yields.orElse
  · apply yields_param yields_withDefaultsTable
    intro parsed mode
    constructor
    case point => exact fun same => absurd same (show str "with-defaults" ≠ str "point" by decide)
    case fields => exact fun same => absurd same (show str "with-defaults" ≠ str "fields" by decide)
    case withDefaults => exact fun _ => mode
  apply Yields.orElse (yields_param_other (by decide))
  apply Yields.orElse (yields_param_other (by decide))
  apply Yields.orElse
  · have path : Yields (fun value => ∃ segments, value = .pointParsed segments)
        (do let segments ← uriPath; return .pointParsed segments : Parser QueryParamValue) :=
      .bind_any fun segments => .pure ⟨segments, rfl⟩
    apply yields_param path
    intro parsed point
    constructor
    case point => exact fun _ => point
    case fields => exact fun same => absurd same (show str "point" ≠ str "fields" by decide)
    case withDefaults =>
      exact fun same => absurd same (show str "point" ≠ str "with-defaults" by decide)
  apply Yields.orElse (yields_param_other (by decide))
  apply Yields.orElse (yields_param_other (by decide))
  apply Yields.orElse (yields_param_other (by decide))
  have expression : Yields (fun value => ∃ expr, value = .fields expr)
      (do let expr ← fieldsExpr; return .fields expr : Parser QueryParamValue) :=
    .bind_any fun expr => .pure ⟨expr, rfl⟩
  apply yields_param expression
  intro parsed fields
  constructor
  case point => exact fun same => absurd same (show str "fields" ≠ str "point" by decide)
  case fields => exact fun _ => fields
  case withDefaults =>
    exact fun same => absurd same (show str "fields" ≠ str "with-defaults" by decide)

theorem yields_queryParamGrammar :
    Yields (fun params : QueryParams => ∀ param ∈ params, Typed param)
      queryParamGrammar := by
  apply Yields.expect
  apply Yields.orElse
  · exact .bind_any fun _ => .pure (by simp)
  · refine .bind yields_queryParamPair fun first parsedFirst => ?_
    have further : Yields (fun params => ∀ param ∈ params, Typed param)
        (many (do lit (str "&"); expect (str "query parameter") queryParamPair)) :=
      .many (.bind_any fun _ => .expect yields_queryParamPair)
    refine .bind further fun others parsedOthers => .pure ?_
    have collected : ∀ (added : List (Str × QueryParamValue)) (params : QueryParams),
        (∀ param ∈ added, Typed param) → (∀ param ∈ params, Typed param) →
        ∀ param ∈ added.foldl (fun params param => QueryParams.emplace param params) params,
          Typed param := by
      intro added
      induction added with
      | nil => exact fun _ _ parsed => parsed
      | cons param rest ih =>
          intro params parsedAdded parsed
          obtain ⟨parsedParam, parsedRest⟩ := List.forall_mem_cons.mp parsedAdded
          apply ih _ parsedRest
          intro other member
          rcases mem_of_mem_emplace member with rfl | older
          · exact parsedParam
          · exact parsed other older
    exact collected _ [] (List.forall_mem_cons.mpr ⟨parsedFirst, parsedOthers⟩) (by simp)

end Grammar

theorem parseQueryParams_typed {querystring : Str} {pathLength : Nat}
    {params : QueryParams} (parsed : parseQueryParams querystring pathLength = .ok params) :
    ∀ param ∈ params, Typed param :=
  parse_eq_ok Grammar.yields_queryParamGrammar parsed

end Impl

end Rousette.Restconf
