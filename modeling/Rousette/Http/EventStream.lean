import Rousette.Exceptions
import Rousette.Library.Chunk
import Rousette.Library.Run
import Rousette.Library.Wait

/-!
# Event streams

`http/EventStream.cpp`: events are queued by any thread and handed out to nghttp2 in
pieces of the size which it asks for.  When there is nothing to hand out the response is
deferred, and a task posted to the io service resumes it later.

The object has no owner while its constructor runs, so that tasks which are posted then
capture an empty weak pointer.  An enqueued message or the termination signal may arrive
from another thread at any time between construction and destruction, also while the
signals are being disconnected.
-/

namespace Rousette.Http

open Library

/-- `EventStream::State` -/
inductive State where
  | hasEvents
  | waitingForEvents
  | wantToClose
  | closed
  deriving DecidableEq, Repr

/-- Who owns the object. -/
inductive Phase where
  /-- the constructor is running -/
  | constructing
  | owned
  | destroyed
  deriving DecidableEq, Repr

/-- A task posted to the io service, by `enqueue` or by the termination slot; the flag tells
whether the weak pointer which it captured refers to the object. -/
inductive Task where
  | enqueued (weak : Bool)
  | terminated (weak : Bool)
  deriving DecidableEq, Repr

/-- What the generator of the response returns to nghttp2. -/
inductive Generated where
  | data (bytes : Str)
  /-- `NGHTTP2_ERR_DEFERRED` -/
  | deferred
  /-- no data, with `NGHTTP2_DATA_FLAG_EOF` -/
  | eof
  deriving DecidableEq, Repr

/-- `EventStream`.  The fields from `deferred` on are the view of the response from outside
and the history of the stream; the program does not have them. -/
structure EventStream where
  state : State
  queue : List Str
  phase : Phase
  /-- `activate` was called, and nghttp2 has the generator -/
  activated : Bool
  tasks : List Task
  /-- the waits on the timer `ping` -/
  pings : List WaitStatus
  /-- the last call of the generator has deferred the response, which was not resumed since -/
  deferred : Bool
  /-- the number of calls of `res.resume` -/
  resumes : Nat
  /-- the frames of all messages which were accepted -/
  accepted : List Str
  /-- the bytes which the generator has returned -/
  sent : Str
  deriving Repr

namespace EventStream

/-- The constructor has begun. -/
def initial : EventStream where
  state := .waitingForEvents
  queue := []
  phase := .constructing
  activated := false
  tasks := []
  pings := []
  deferred := false
  resumes := 0
  accepted := []
  sent := []

/-! ## Frames -/

/-- The texts between newlines, as `std::sregex_token_iterator` gives them: the last one is
left out if it is empty and follows a newline. -/
def lines : Str → List Str
  | [] => [[]]
  | c :: text =>
      if c = chr '\n' then [] :: (if text.isEmpty then [] else lines text)
      else
        match lines text with
        | [] => [[c]]
        | line :: rest => (c :: line) :: rest

/-- The frame which `enqueue` builds. -/
def frame (fieldName what : Str) : Str :=
  ((lines what).map fun line => fieldName ++ str ": " ++ line ++ [chr '\n']).flatten ++ [chr '\n']

/-- `FIELD_DATA` -/
def fieldData : Str := str "data"

/-! ## The member functions -/

/-- A posted task captures a weak pointer. -/
def weakFromThis (s : EventStream) : Bool := s.phase = .owned

/-- `EventStream::enqueue` -/
def enqueue (s : EventStream) (fieldName what : Str) : EventStream :=
  if s.state = .closed ∨ s.state = .wantToClose then s
  else
    let buf := frame fieldName what
    { s with
      queue := s.queue ++ [buf]
      state := .hasEvents
      tasks := s.tasks ++ [.enqueued s.weakFromThis]
      accepted := s.accepted ++ [buf] }

/-- The slot of the termination signal. -/
def terminate (s : EventStream) : EventStream :=
  if s.state = .closed then s
  else
    { s with state := .wantToClose, tasks := s.tasks ++ [.terminated s.weakFromThis] }

/-- Does the task call `res.resume` when it is run? -/
def resumesBy (s : EventStream) : Task → Bool
  | .enqueued weak => weak && s.phase == .owned && s.state != .closed
  | .terminated weak => weak && s.phase == .owned && s.state == .wantToClose

/-- `res.resume` -/
def resume (s : EventStream) : EventStream :=
  { s with deferred := false, resumes := s.resumes + 1 }

/-- A posted task is run. -/
def runTask (s : EventStream) (task : Task) : EventStream :=
  if s.resumesBy task then s.resume else s

/-- The exception of the check at the head of `send_chunk`. -/
def notInHasEvents : Exception := .logicError (str "107")

/-- `EventStream::send_chunk` -/
def sendChunk (s : EventStream) (len : Nat) : Except Exception Str × EventStream :=
  if s.state ≠ .hasEvents then (.error notInHasEvents, s)
  else
    let (written, queue) := chunk s.queue len
    (.ok written,
      { s with queue, state := if queue.isEmpty then .waitingForEvents else .hasEvents })

/-- `EventStream::process` -/
def process (s : EventStream) (len : Nat) : Except Exception Generated × EventStream :=
  match s.state with
  | .hasEvents =>
      let (result, next) := s.sendChunk len
      (result.map .data, next)
  | .waitingForEvents => (.ok .deferred, s)
  | .wantToClose => (.ok .eof, s)
  | .closed => (.error (.logicError (str "response already closed")), s)

/-- nghttp2 calls the generator, and remembers what it has returned. -/
def generate (s : EventStream) (len : Nat) : EventStream :=
  let (result, next) := s.process len
  match result with
  | .ok (.data bytes) => { next with deferred := false, sent := s.sent ++ bytes }
  | .ok .deferred => { next with deferred := true }
  | .ok .eof => { next with deferred := false }
  | .error _ => next

/-- `EventStream::start_ping`; setting the expiry time cancels the waits before. -/
def startPing (s : EventStream) : EventStream :=
  { s with pings := s.pings.map WaitStatus.cancel ++ [.pending] }

/-- The handler of the timer `ping`, run with success. -/
def pong (s : EventStream) : EventStream :=
  if s.phase = .owned then (s.enqueue [] [chr '\n']).startPing else s

/-- `EventStream::activate` -/
def activate (s : EventStream) : EventStream := { s.startPing with activated := true }

/-- The handler of `res.on_close` -/
def onClose (s : EventStream) : EventStream :=
  { s with state := .closed, pings := s.pings.map WaitStatus.cancel }

/-! ## Steps -/

/-- What may happen to an event stream. -/
inductive Event where
  /-- a message arrives, also the initial one which the constructor enqueues -/
  | enqueue (what : Str)
  | terminate
  /-- the constructor has ended, and a shared pointer owns the object -/
  | own
  | activate
  | process (len : Nat)
  /-- the io service runs one of the posted tasks -/
  | runTask (index : Nat)
  /-- the timer of a wait expires -/
  | pingExpire (index : Nat)
  /-- the io service runs the handler of a completed wait -/
  | pingComplete (index : Nat)
  | onClose
  /-- the last shared pointer is given up -/
  | destroy
  deriving DecidableEq, Repr

/-- The state after an event, if it can happen. -/
def step (s : EventStream) : Event → Option EventStream
  | .enqueue what => if s.phase = .destroyed then none else some (s.enqueue fieldData what)
  | .terminate => if s.phase = .destroyed then none else some s.terminate
  | .own => if s.phase = .constructing then some { s with phase := .owned } else none
  | .activate => if s.phase = .owned ∧ s.activated = false then some s.activate else none
  | .process len => if s.phase = .owned ∧ s.activated then some (s.generate len) else none
  | .runTask index =>
      match s.tasks[index]? with
      | some task => some ({ s with tasks := s.tasks.eraseIdx index }.runTask task)
      | none => none
  | .pingExpire index =>
      match s.pings[index]? with
      | some .pending => some { s with pings := s.pings.set index .expired }
      | _ => none
  | .pingComplete index =>
      match s.pings[index]? with
      | some .expired => some ({ s with pings := s.pings.eraseIdx index }.pong)
      | some .aborted => some { s with pings := s.pings.eraseIdx index }
      | _ => none
  | .onClose => if s.phase = .owned ∧ s.activated then some s.onClose else none
  | .destroy =>
      -- the closures which nghttp2 has own the object until the response is closed
      if s.phase = .owned ∧ s.state = .closed then some { s with phase := .destroyed } else none

end EventStream

end Rousette.Http
