import Rousette.Library.Text

/-!
# Exceptions

The exception classes which the request handlers throw, catch or let pass, with the
data the error responses are built from.  A step whose behaviour C++ leaves
undefined (an access past the end of a vector, a dereferenced empty optional) ends
a run with `Exception.undefined`, which no handler catches.
-/

namespace Rousette

open Library

namespace Libyang

/-- `libyang::ErrorCode`; only the distinguished code is named. -/
inductive ErrorCode where
  | validationFailure
  | other (code : Nat)
  deriving DecidableEq, Repr

/-- `libyang::ErrorWithCode` -/
structure ErrorWithCode where
  code : ErrorCode
  what : Str
  deriving DecidableEq, Repr

end Libyang

namespace Sysrepo

/-- `sysrepo::ErrorCode`; only the codes which the server tells apart are named. -/
inductive ErrorCode where
  | unauthorized
  | notFound
  | itemAlreadyExists
  | validationFailed
  | invalidArgument
  | other (code : Nat)
  deriving DecidableEq, Repr

/-- `sysrepo::ErrorWithCode` -/
structure ErrorWithCode where
  code : ErrorCode
  what : Str
  deriving DecidableEq, Repr

end Sysrepo

/-- Structured payload for the `error-info` leaf. -/
structure ErrorInfo where
  containerName : Str
  leafs : List (Str × Str)
  deriving DecidableEq, Repr

/-- The HTTP status of an error response. The source writes them as numbers. -/
inductive ErrorStatus where
  | badRequest
  | unauthorized
  | forbidden
  | notFound
  | methodNotAllowed
  | notAcceptable
  | conflict
  | unsupportedMediaType
  | internalServerError
  | notImplemented
  deriving DecidableEq, Repr

namespace ErrorStatus

instance : OfNat ErrorStatus 400 := ⟨badRequest⟩
instance : OfNat ErrorStatus 401 := ⟨unauthorized⟩
instance : OfNat ErrorStatus 403 := ⟨forbidden⟩
instance : OfNat ErrorStatus 404 := ⟨notFound⟩
instance : OfNat ErrorStatus 405 := ⟨methodNotAllowed⟩
instance : OfNat ErrorStatus 406 := ⟨notAcceptable⟩
instance : OfNat ErrorStatus 409 := ⟨conflict⟩
instance : OfNat ErrorStatus 415 := ⟨unsupportedMediaType⟩
instance : OfNat ErrorStatus 500 := ⟨internalServerError⟩
instance : OfNat ErrorStatus 501 := ⟨notImplemented⟩

/-- The number of a status. -/
def toNat : ErrorStatus → Nat
  | badRequest => 400
  | unauthorized => 401
  | forbidden => 403
  | notFound => 404
  | methodNotAllowed => 405
  | notAcceptable => 406
  | conflict => 409
  | unsupportedMediaType => 415
  | internalServerError => 500
  | notImplemented => 501

theorem le_toNat (status : ErrorStatus) : 400 ≤ status.toNat := by
  cases status <;> decide

end ErrorStatus

/-- RESTCONF-level protocol error response. -/
structure ErrorResponse where
  code : ErrorStatus
  errorType : Str
  errorTag : Str
  errorMessage : Str
  errorPath : Option Str := none
  errorInfo : Option ErrorInfo := none
  deriving DecidableEq, Repr

namespace ErrorResponse

/-- Message of a syntax error without a position. -/
def constructErrorMessage (uriSegment : Str) : Str :=
  str "Syntax error in URI (" ++ uriSegment ++ str ")"

/-- Message of a syntax error with its position and the expected token. -/
def constructErrorMessageAt (uriSegment : Str) (position : Nat)
    (expectedToken : Str) : Str :=
  constructErrorMessage uriSegment ++ str " at position " ++ decimal position ++
    str ": expected " ++ expectedToken

/-- `UriSyntaxError` without a position. -/
def uriSyntaxError (uriSegment : Str) : ErrorResponse :=
  ⟨400, str "protocol", str "invalid-value", constructErrorMessage uriSegment,
    none, none⟩

/-- `UriSyntaxError` at a position. -/
def uriSyntaxErrorAt (uriSegment : Str) (position : Nat)
    (expectedToken : Str) : ErrorResponse :=
  ⟨400, str "protocol", str "invalid-value",
    constructErrorMessageAt uriSegment position expectedToken, none,
    some ⟨str "uri-error",
      [(str "offset", decimal position), (str "expected-token", expectedToken)]⟩⟩

end ErrorResponse

/-- Whatever may leave a function other than by a return. -/
inductive Exception where
  | errorResponse (error : ErrorResponse)
  | libyang (error : Libyang.ErrorWithCode)
  | sysrepo (error : Sysrepo.ErrorWithCode)
  /-- `auth::Error`, with the delay PAM asked for in microseconds -/
  | auth (message : Str) (delay : Option Nat)
  /-- `boost::archive::iterators::dataflow_exception`, on a character of the input
  or on what stands behind its end -/
  | dataflow (pastEnd : Bool)
  /-- `std::invalid_argument` -/
  | invalidArgument (what : Str)
  /-- `std::logic_error` -/
  | logicError (what : Str)
  /-- `std::bad_variant_access` -/
  | badVariantAccess
  /-- not an exception: the behaviour is undefined from here on -/
  | undefined
  deriving DecidableEq, Repr

namespace Exception

/-- Is it an `ErrorResponse`? -/
def IsErrorResponse : Exception → Prop
  | errorResponse _ => True
  | _ => False

/-- Is it an `ErrorResponse`, a `libyang::ErrorWithCode` or a `sysrepo::ErrorWithCode`? -/
def IsMapped : Exception → Prop
  | errorResponse _ => True
  | libyang _ => True
  | sysrepo _ => True
  | _ => False

/-- Is it an `ErrorResponse` or a `libyang::ErrorWithCode`? -/
def IsLocal : Exception → Prop
  | errorResponse _ => True
  | libyang _ => True
  | _ => False

/-- Is it a `libyang::ErrorWithCode`? -/
def IsLibyang : Exception → Prop
  | libyang _ => True
  | _ => False

/-- Is it an `ErrorResponse` or a `sysrepo::ErrorWithCode`? -/
def IsAnswered : Exception → Prop
  | errorResponse _ => True
  | sysrepo _ => True
  | _ => False

/-- Is it neither an `auth::Error`, nor an `ErrorResponse`, nor a `sysrepo::ErrorWithCode`? -/
def IsForeign : Exception → Prop
  | auth _ _ => False
  | errorResponse _ => False
  | sysrepo _ => False
  | _ => True

theorem IsLibyang.isLocal {exception : Exception} (raised : exception.IsLibyang) :
    exception.IsLocal := by
  cases exception with
  | libyang error => trivial
  | _ => exact raised.elim

theorem IsLibyang.isForeign {exception : Exception} (raised : exception.IsLibyang) :
    exception.IsForeign := by
  cases exception with
  | libyang error => trivial
  | _ => exact raised.elim

theorem IsErrorResponse.isAnswered {exception : Exception}
    (response : exception.IsErrorResponse) : exception.IsAnswered := by
  cases exception with
  | errorResponse error => trivial
  | _ => exact response.elim

theorem IsErrorResponse.isLocal {exception : Exception} (response : exception.IsErrorResponse) :
    exception.IsLocal := by
  cases exception with
  | errorResponse error => trivial
  | _ => exact response.elim

theorem IsLocal.isMapped {exception : Exception} (raised : exception.IsLocal) :
    exception.IsMapped := by
  cases exception with
  | errorResponse error => trivial
  | libyang error => trivial
  | _ => exact raised.elim

theorem IsErrorResponse.isMapped {exception : Exception} (response : exception.IsErrorResponse) :
    exception.IsMapped := by
  cases exception with
  | errorResponse error => trivial
  | _ => exact response.elim

end Exception

/-- `if (!condition) throw exception;` -/
def require (condition : Bool) (exception : Exception) : Except Exception Unit :=
  if condition then .ok () else .error exception

@[simp] theorem require_eq_ok {condition : Bool} {exception : Exception} {value : Unit} :
    require condition exception = .ok value ↔ condition = true := by
  cases condition <;> simp [require]

theorem require_eq_error {condition : Bool} {exception other : Exception} :
    require condition exception = .error other ↔ condition = false ∧ other = exception := by
  cases condition <;> simp [require, eq_comm]

end Rousette
