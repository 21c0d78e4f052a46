import Rousette.Http.AcceptHeader
import Rousette.Library.Program
import Rousette.Libyang.Schema

/-!
# Data formats

The choice of the formats of a request and of its response by the headers of the request, as
in `restconf/utils/dataformat.cpp`.
-/

namespace Rousette.Restconf

open Library Http
open Libyang (DataFormat)

inductive MimeTypeWildcards where
  | allowed
  | forbidden
  deriving DecidableEq, Repr

/-- `restconf::DataFormat` -/
structure DataEncoding where
  /-- the format of the request is not always needed -/
  request : Option DataFormat
  response : DataFormat
  deriving DecidableEq, Repr

def asMimeType : DataFormat → Str
  | .json => str "application/yang-data+json"
  | .xml => str "application/yang-data+xml"

/-- An element of a vector. -/
def elementAt {α : Type} (elements : List α) (index : Nat) : Except Exception α :=
  match elements[index]? with
  | some element => .ok element
  | none => .error .undefined

/-- `mimeMatch`. The subtypes are only looked at if the types are the same. -/
def mimeMatch (providedMime applicationMime : Str) (wildcards : MimeTypeWildcards) :
    Except Exception Bool := do
  let tokensMime := providedMime.splitOn (chr '/')
  let tokensApplicationMime := applicationMime.splitOn (chr '/')
  let mediaType ← elementAt tokensMime 0
  let applicationType ← elementAt tokensApplicationMime 0
  if wildcards = .allowed ∧ mediaType = str "*" then
    return true
  else if mediaType ≠ applicationType then
    return false
  else
    let mediaSubtype ← elementAt tokensMime 1
    let applicationSubtype ← elementAt tokensApplicationMime 1
    return wildcards = .allowed ∧ mediaSubtype = str "*" ∨ mediaSubtype = applicationSubtype

/-- Does one of the media types match? -/
def mimeMatchAny (providedMime : Str) (wildcards : MimeTypeWildcards) :
    List Str → Except Exception Bool
  | [] => .ok false
  | applicationMime :: rest => do
      let found ← mimeMatch providedMime applicationMime wildcards
      if found then return true else mimeMatchAny providedMime wildcards rest

/-- `dataTypeFromMimeType` -/
def dataTypeFromMimeType (mime : Str) (wildcards : MimeTypeWildcards) :
    Except Exception (Option DataFormat) := do
  let mime := mime.map Ascii.toLower
  let json ← mimeMatchAny mime wildcards [asMimeType .json, str "application/yang-patch+json"]
  if json then return some .json
  else
    let xml ← mimeMatchAny mime wildcards [asMimeType .xml, str "application/yang-patch+xml"]
    return if xml then some .xml else none

/-- The first of the accepted types which is supported. -/
def supportedType : List Str → Except Exception (Option DataFormat)
  | [] => .ok none
  | mediaType :: rest => do
      let found ← dataTypeFromMimeType mediaType .allowed
      match found with
      | some format => return some format
      | none => supportedType rest

/-- The format by the header `accept`, if there is one. -/
def chooseAccepted (acceptTypes : List Str) : Except Exception (Option DataFormat) :=
  if acceptTypes = [] then .ok none
  else do
    let found ← supportedType acceptTypes
    match found with
    | some format => return some format
    | none =>
        throw (.errorResponse ⟨406, str "application", str "operation-not-supported",
          str "No requested format supported", none, none⟩)

/-- The format by the header `content-type`, if there is one. -/
def chooseProvided : Option Str → Except Exception (Option DataFormat)
  | none => .ok none
  | some contentType => do
      let found ← dataTypeFromMimeType contentType .forbidden
      match found with
      | some format => return some format
      | none =>
          throw (.errorResponse ⟨415, str "application", str "operation-not-supported",
            str "content-type format value not supported", none, none⟩)

section Headers

variable {Q : Type} [LinearOrder Q] [Zero Q] [One Q] (stod : Str → Option Q)

/-- The media types in the header `accept`. -/
def acceptTypes (headers : List (Str × Str)) : List Str :=
  match getHeaderValue headers (str "accept") with
  | some value => parseAcceptHeader stod value
  | none => []

/-- The media type in the header `content-type`, the last one if there are several. -/
def providedType (headers : List (Str × Str)) : Option Str :=
  match getHeaderValue headers (str "content-type") with
  | some value => (parseAcceptHeader stod value).getLast?
  | none => none

/-- `chooseDataEncoding` -/
def chooseDataEncoding (headers : List (Str × Str)) : Except Exception DataEncoding := do
  let resAccept ← chooseAccepted (acceptTypes stod headers)
  let resContentType ← chooseProvided (providedType stod headers)
  return ⟨resContentType, (resAccept.or resContentType).getD .json⟩

/-- The request has a format exactly if there is a media type in its header `content-type`. -/
theorem request_eq_none_iff {headers : List (Str × Str)} {encoding : DataEncoding}
    (chosen : chooseDataEncoding stod headers = .ok encoding) :
    encoding.request = none ↔ providedType stod headers = none := by
  obtain ⟨resAccept, _, chosen⟩ := except_bind_eq_ok.mp chosen
  obtain ⟨resContentType, provided, chosen⟩ := except_bind_eq_ok.mp chosen
  cases chosen
  cases found : providedType stod headers with
  | none =>
      rw [found] at provided
      cases provided
      simp
  | some contentType =>
      rw [found] at provided
      obtain ⟨format, _, provided⟩ := except_bind_eq_ok.mp provided
      cases format with
      | none => cases provided
      | some format =>
          cases provided
          simp

end Headers

end Rousette.Restconf
