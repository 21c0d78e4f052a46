import Rousette.Restconf.DynamicSubscriptions
import Rousette.Restconf.Uri

/-!
# Requests for event streams

`asRestconfStreamRequest` and what the handler of `/streams/` does with the query.  A stream is
either a stream of notifications, which the query restricts, or that of a dynamic subscription,
whose query is not even parsed.
-/

namespace Rousette.Restconf

open Library
open Libyang (DataFormat)

/-- `NotificationStreamRequest` -/
structure NotificationStreamRequest where
  stream : Str
  encoding : DataFormat
  queryParams : QueryParams

/-- `SubscribedStreamRequest` -/
structure SubscribedStreamRequest where
  uuid : Uuid

/-- `RestconfStreamRequest` -/
inductive RestconfStreamRequest where
  | notification (request : NotificationStreamRequest)
  | subscribed (request : SubscribedStreamRequest)

namespace Impl

namespace Grammar

open Parser

/-- Some hexadecimal digits. -/
def xdigits (count : Nat) : Parser Str := replicate (satisfy Ascii.isXDigit) count

/-- A dash and some hexadecimal digits after it. -/
def uuidGroup (count : Nat) : Parser Str := do
  let _ ← expect (str "'-'") (char '-')
  expect (str "hexadecimal digits") (xdigits count)

/-- `uuid_impl`, without the dashes -/
def uuidDigits : Parser Str := do
  let first ← xdigits 8
  let second ← uuidGroup 4
  let third ← uuidGroup 4
  let fourth ← uuidGroup 4
  let fifth ← uuidGroup 12
  return first ++ second ++ third ++ fourth ++ fifth

/-- `uuid`. Every text of `uuid_impl` is read by `string_to_uuid`. -/
def uuid : Parser Uuid := do
  let digits ← uuidDigits
  return digits.foldl (fun value c => value * 16 + hexDigit c) 0

def subscribedStream : Parser SubscribedStreamRequest := do
  lit (str "subscribed")
  expect (str "'/'") (lit (str "/"))
  let uuid ← expect (str "UUID") uuid
  return ⟨uuid⟩

def xmlStream : Parser DataFormat := do
  lit (str "XML")
  return .xml

def jsonStream : Parser DataFormat := do
  lit (str "JSON")
  return .json

def streamFormat : Parser DataFormat := orElse xmlStream jsonStream

def notificationStream : Parser NotificationStreamRequest := do
  let stream ← identifier
  expect (str "'/'") (lit (str "/"))
  let encoding ← expect (str "stream format ('XML' or 'JSON')") streamFormat
  return ⟨stream, encoding, []⟩

def streamGrammar : Parser RestconfStreamRequest := do
  lit (str "/")
  expect (str "\"streams\"") (lit (str "streams"))
  expect (str "'/'") (lit (str "/"))
  expect (str "stream") <|
    orElse (do let request ← subscribedStream; return .subscribed request)
      (do let request ← notificationStream; return .notification request)

end Grammar

/-- `parseStreamUri` -/
def parseStreamUri (input : Str) : Except Exception RestconfStreamRequest :=
  parse (str "path") Grammar.streamGrammar input 0

end Impl

/-- The loop of `validateQueryParametersForStream`, after some names. -/
def validateStreamParametersAfter : List Str → QueryParams → Except Exception Unit
  | _, [] => .ok ()
  | seen, (name, _) :: rest => do
      require (!seen.contains name) (reject 400 "protocol" "invalid-value"
        (str "Query parameter '" ++ name ++ str "' already specified"))
      require ([str "filter", str "start-time", str "stop-time"].contains name)
        (reject 400 "protocol" "invalid-value"
          (str "Query parameter '" ++ name ++ str "' can't be used with streams"))
      validateStreamParametersAfter (name :: seen) rest

/-- `validateQueryParametersForStream` -/
def validateQueryParametersForStream (params : QueryParams) : Except Exception Unit :=
  validateStreamParametersAfter [] params

/-- `asRestconfStreamRequest` -/
def asRestconfStreamRequest (httpMethod uriPath uriQueryString : Str) :
    Except Exception RestconfStreamRequest := do
  require (httpMethod = str "GET" ∨ httpMethod = str "HEAD")
    (reject 405 "application" "operation-not-supported" (str "Method not allowed."))
  let type ← Impl.parseStreamUri uriPath
  match type with
  | .notification request =>
      let queryParameters ← Impl.parseQueryParams uriQueryString (uriPath.length + 1)
      validateQueryParametersForStream queryParameters
      return .notification { request with queryParams := queryParameters }
  | .subscribed request => return .subscribed request

/-! ## The handler -/

/-- `std::get<std::string>` -/
def QueryParams.getText : QueryParams.QueryParamValue → Except Exception Str
  | .text text => .ok text
  | _ => .error .badVariantAccess

/-- What the handler takes from the query of a stream of notifications. -/
structure NotificationQuery (T : Type) where
  xpathFilter : Option Str
  startTime : Option T
  stopTime : Option T

section Handler

variable {T : Type} (fromYangTimeFormat : Str → Except Exception T)

/-- The time in a parameter, if it is there. -/
def queryTime (queryParams : QueryParams) (name : String) : Except Exception (Option T) :=
  match queryParams.find name with
  | none => .ok none
  | some value => do
      let text ← QueryParams.getText value
      let time ← fromYangTimeFormat text
      return some time

/-- The branch of the handler for notifications, up to the creation of the stream. -/
def notificationQuery (request : NotificationStreamRequest) :
    Except Exception (NotificationQuery T) := do
  require (request.stream = str "NETCONF")
    (reject 404 "application" "invalid-value" (str "Stream not found"))
  let xpathFilter ← (request.queryParams.find "filter").mapM QueryParams.getText
  let startTime ← queryTime fromYangTimeFormat request.queryParams "start-time"
  let stopTime ← queryTime fromYangTimeFormat request.queryParams "stop-time"
  return ⟨xpathFilter, startTime, stopTime⟩

/-- The handler up to the stream which is to be created; there is nothing to interpret for a
subscription. -/
def interpretStreamRequest (httpMethod uriPath uriQueryString : Str) :
    Except Exception (Option (NotificationQuery T)) := do
  match ← asRestconfStreamRequest httpMethod uriPath uriQueryString with
  | .notification request => do
      let query ← notificationQuery fromYangTimeFormat request
      return some query
  | .subscribed _ => return none

end Handler

end Rousette.Restconf
