import Rousette.Library.Triple
import Rousette.Restconf.RequestClassification
import Rousette.Restconf.Server.Answers
import Rousette.Restconf.Server.Operations
import Rousette.Restconf.Server.PatchEdits

/-!
# Requests from their arrival to the end of their payload

The handler of `/restconf/` leaves the payload of a request to a closure, which nghttp2 calls
with one piece of it after the other and with nothing at the end.  Over the whole exchange at
most one edit is handed to sysrepo, and only for a request that was admitted and that writes to a
datastore which can be written to.  Unless the request is a YANG Patch, its status tells whether
the edit was applied.
-/

namespace Rousette.Restconf.Server

open Library Libyang Program

/-- A request as it arrives, with what its headers say about formats and about the user. -/
structure Arrival extends Request where
  /-- `uri().raw_query` -/
  query : Str
  /-- `dataFormat.request` -/
  requestFormat : Option DataFormat
  /-- the header `content-type` -/
  contentTypeHeader : Option Str
  /-- the outcome of `chooseDataEncoding` and `authorizeRequest` -/
  admission : Except Exception Unit

/-- A request and what was done for it so far. -/
structure Exchange (S : Type) where
  /-- the request whose payload is awaited, if the handler has set a callback -/
  awaited : Option RestconfRequest
  payload : Str
  state : OperationWorld S

section Exchanges

variable {S : Type} [DecidableEq S] (env : Env S) (calls : OperationCalls S) (arrival : Arrival)

/-- The context which a write is processed in. -/
def Arrival.context (request : RestconfRequest) (requestFormat : DataFormat) (payload : Str) :
    RequestContext :=
  { arrival.toRequest with
    requestFormat
    activeDatastore := request.datastore.getD .running
    restconfRequest := request
    contentTypeHeader := arrival.contentTypeHeader
    payload }

/-- The context which an operation is processed in. -/
def Arrival.operation (request : RestconfRequest) (payload : Str) : OperationContext :=
  { arrival.toRequest with
    requestFormat := arrival.requestFormat
    restconfRequest := request
    payload }

/-- The callbacks of `on_data` at the end of the payload. -/
def processRequest (request : RestconfRequest) (payload : Str) : OperationHandler S Unit :=
  match request.type with
  | .execute | .executeInternal => onOperationPayload env calls (arrival.operation request payload)
  | _ => onWorld do
      let format ← deref arrival.requestFormat
      onPayload env (arrival.context request format payload)

/-- The handler of `/restconf/` has run. -/
def Exchange.begin : Exchange S :=
  let (result, world) := exec (handleRestconf env arrival.toRequest arrival.requestFormat
    arrival.admission arrival.query) World.initial
  { awaited :=
      match result with
      | .ok .payload =>
          (asRestconfRequest env.libyang.ctx arrival.method arrival.rawPath
            arrival.query).toOption
      | _ => none
    payload := []
    state := ⟨world, []⟩ }

/-- A piece of the payload arrives, or nothing at its end. -/
def Exchange.onData (exchange : Exchange S) (data : Str) : Exchange S :=
  match exchange.awaited with
  | none => exchange
  | some request =>
      if data = [] then
        { exchange with
          state := (exec (processRequest env calls arrival request exchange.payload)
            exchange.state).2 }
      else { exchange with payload := exchange.payload ++ data }

/-- What was done for a request after some pieces of its payload have arrived. -/
def serve (data : List Str) : World S :=
  (data.foldl (Exchange.onData env calls arrival) (Exchange.begin env arrival)).state.world

end Exchanges

/-! ## Pieces of a payload -/

section Pieces

variable {S : Type} [DecidableEq S] {env : Env S} {calls : OperationCalls S} {arrival : Arrival}

theorem foldl_onData_nothing {exchange : Exchange S} (data : List Str)
    (none : exchange.awaited = none) :
    data.foldl (Exchange.onData env calls arrival) exchange = exchange := by
  induction data with
  | nil => rfl
  | cons piece rest ih =>
      rw [List.foldl_cons]
      have same : exchange.onData env calls arrival piece = exchange := by
        rw [Exchange.onData, none]
      rw [same, ih]

/-- Pieces are put together. -/
theorem foldl_onData_pieces {exchange : Exchange S} {request : RestconfRequest} {data : List Str}
    (awaited : exchange.awaited = some request) (pieces : ∀ piece ∈ data, piece ≠ []) :
    data.foldl (Exchange.onData env calls arrival) exchange =
      { exchange with payload := exchange.payload ++ data.flatten } := by
  induction data generalizing exchange with
  | nil => simp
  | cons piece rest ih =>
      obtain ⟨nonempty, others⟩ := List.forall_mem_cons.mp pieces
      have more : exchange.onData env calls arrival piece =
          { exchange with payload := exchange.payload ++ piece } := by
        simp only [Exchange.onData, awaited, if_neg nonempty]
      have further := @ih { exchange with payload := exchange.payload ++ piece } awaited others
      rw [List.foldl_cons, more, List.flatten_cons, ← List.append_assoc]
      exact further

/-- However the payload is cut into pieces, it is processed as a whole when it has ended, and
not before. -/
theorem serve_cases {data : List Str} (delivered : ∀ piece ∈ data.dropLast, piece ≠ []) :
    let begun := Exchange.begin env arrival
    serve env calls arrival data = begun.state.world ∨
      ∃ request, begun.awaited = some request ∧ data.getLast? = some [] ∧
        serve env calls arrival data =
          (exec (processRequest env calls arrival request data.flatten) begun.state).2.world := by
  intro begun
  cases awaited : begun.awaited with
  | none =>
      left
      rw [serve, foldl_onData_nothing data awaited]
  | some request =>
      rcases List.eq_nil_or_concat data with rfl | ⟨pieces, last, rfl⟩
      · exact .inl rfl
      rw [List.concat_eq_append, List.dropLast_concat] at delivered
      have before :=
        @foldl_onData_pieces S _ env calls arrival begun request pieces awaited delivered
      rw [List.concat_eq_append, serve, List.foldl_append, before]
      by_cases ended : last = []
      · right
        subst ended
        have whole : (pieces ++ [[]]).flatten = begun.payload ++ pieces.flatten := by
          simp [begun, Exchange.begin]
        refine ⟨request, rfl, by simp, ?_⟩
        simp only [List.foldl_cons, List.foldl_nil, Exchange.onData, awaited, if_true]
        rw [whole]
      · left
        simp only [List.foldl_cons, List.foldl_nil, Exchange.onData, awaited, if_neg ended]

end Pieces

end Rousette.Restconf.Server
