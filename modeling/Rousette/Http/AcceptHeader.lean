import Mathlib.Data.List.Sort
import Rousette.Library.Parser

/-!
# The header `accept`

The grammar of `http::parseAcceptHeader`, which also reads the header `content-type`, and the
order of preference in which the media ranges are returned.  The numbers in the header are
read by `std::stod`; nothing is used of them but their order.
-/

namespace Rousette.Http

open Library Parser

structure Mime where
  mediaType : Str
  mediaSubtype : Str
  deriving DecidableEq, Repr

structure MediaType where
  mime : Mime
  parameters : List (Str × Str)
  deriving DecidableEq, Repr

/-- `std::isspace` -/
def isSpace (c : UInt8) : Bool := c == 32 || 9 ≤ c && c ≤ 13

/-- An item between any number of blanks on both of its sides -/
def spaced (text : Str) : Parser Unit := do
  let _ ← many (satisfy isSpace)
  lit text
  let _ ← many (satisfy isSpace)
  return ()

namespace AcceptGrammar

def identifier : Parser Str := do
  let first ← satisfy Ascii.isAlpha
  let others ← many (satisfy fun c => Ascii.isAlnum c || c == chr '-' || c == chr '.')
  return first :: others

def decimal : Parser Str := do
  let sign ← optional (satisfy (· == chr '-'))
  let digits ← many1 (satisfy Ascii.isDigit)
  let fraction ← optional do
    let point ← satisfy (· == chr '.')
    let digits ← many (satisfy Ascii.isDigit)
    return point :: digits
  return sign.toList ++ digits ++ fraction.getD []

def quotedString : Parser Str := do
  lit (str "\"")
  let text ← many (orElse (do lit (str "\\"); satisfy fun _ => true) (satisfy (· != chr '"')))
  lit (str "\"")
  return text

def param : Parser (Str × Str) :=
  orElse
    (do
      let name ← satisfy fun c => c == chr 'q' || c == chr 'Q'
      lit (str "=")
      let value ← decimal
      return ([name], value))
    (do
      notFollowedBy (satisfy fun c => c == chr 'q' || c == chr 'Q')
      let name ← identifier
      lit (str "=")
      let value ← orElse quotedString identifier
      return (name, value))

def parameters : Parser (List (Str × Str)) := many do
  spaced (str ";")
  param

def mimeWildcard : Parser Str := do
  lit (str "*")
  return str "*"

def mimeSubtype : Parser Str :=
  orElse
    (do
      let name ← identifier
      let suffix ← optional do
        let plus ← satisfy (· == chr '+')
        let name ← identifier
        return plus :: name
      return name ++ suffix.getD [])
    mimeWildcard

def mime : Parser Mime :=
  orElse
    (do
      let mediaType ← mimeWildcard
      lit (str "/")
      let mediaSubtype ← mimeWildcard
      return ⟨mediaType, mediaSubtype⟩)
    (do
      let mediaType ← identifier
      lit (str "/")
      let mediaSubtype ← orElse mimeSubtype mimeWildcard
      return ⟨mediaType, mediaSubtype⟩)

def oneItem : Parser MediaType := do
  let mime ← mime
  let parameters ← parameters
  return ⟨mime, parameters⟩

/-- The whole header. -/
def acceptHeader : Parser (List MediaType) := do
  let _ ← many (satisfy isSpace)
  let mediaTypes ← sepBy1 oneItem (spaced (str ","))
  let _ ← many (satisfy isSpace)
  eoi
  return mediaTypes

end AcceptGrammar

namespace MediaType

/-- The type, the subtype and the names of the parameters in lower case. -/
def toLower (entry : MediaType) : MediaType where
  mime := ⟨entry.mime.mediaType.map Ascii.toLower, entry.mime.mediaSubtype.map Ascii.toLower⟩
  parameters := entry.parameters.map fun param => (param.1.map Ascii.toLower, param.2)

/-- The text of the media range, without its parameters. -/
def text (entry : MediaType) : Str :=
  entry.mime.mediaType ++ str "/" ++ entry.mime.mediaSubtype

section Quality

variable {Q : Type} [LinearOrder Q] [Zero Q] [One Q]
  -- `std::stod`, nothing if it raises `std::out_of_range`
  (stod : Str → Option Q)

/-- Every number is representable. -/
def isRepresentable (entry : MediaType) : Bool :=
  entry.parameters.all fun param => param.1 != str "q" || (stod param.2).isSome

/-- `MediaType::qValue`. The numbers were checked to be representable. -/
def qValue (entry : MediaType) : Q :=
  match entry.parameters.find? fun param => param.1 == str "q" with
  | some param => (stod param.2).getD 0
  | none => 1

/-- Is the first entry to be put in front of the second one? -/
def isPreferred (a b : MediaType) : Bool :=
  if a.qValue stod ≠ b.qValue stod then b.qValue stod < a.qValue stod
  else if a.mime.mediaType = str "*" then false
  else if b.mime.mediaType = str "*" then true
  else if a.mime.mediaSubtype = str "*" then false
  else b.mime.mediaSubtype = str "*"

end Quality

end MediaType

section Accept

variable {Q : Type} [LinearOrder Q] [Zero Q] [One Q] (stod : Str → Option Q)

/-- `parseAcceptHeader`. Sorting is stable. -/
def parseAcceptHeader (headerValue : Str) : List Str :=
  match AcceptGrammar.acceptHeader headerValue with
  | .ok parsed _ =>
      let mediaTypes := parsed.map MediaType.toLower
      if mediaTypes.all (MediaType.isRepresentable stod) then
        ((mediaTypes.filter fun entry => entry.qValue stod ≠ 0).insertionSort
          fun a b => ¬MediaType.isPreferred stod b a).map MediaType.text
      else []
  | _ => []

/-- `getHeaderValue` -/
def getHeaderValue (headers : List (Str × Str)) (header : Str) : Option Str :=
  headers.lookup header

end Accept

end Rousette.Http
