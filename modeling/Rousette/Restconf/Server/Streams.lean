import Rousette.Restconf.NotificationStreams
import Rousette.Restconf.Server.Response
import Rousette.Restconf.StreamTimes
import Rousette.Restconf.SubscriptionStreams

/-!
# The handler of streams

The handler of `/streams/` in `restconf/Server.cpp` opens the stream of a subscription or one of
notifications.  It catches what authentication raises and the error responses of the server; this
module tells what leaves it, and what a client gets for the URI of a subscription.
-/

namespace Rousette.Restconf.Server

open Library
open Libyang (DataFormat)

/-- A request for a stream, with the answers of everything which the handler calls. -/
structure StreamCall (T : Type) where
  method : Str
  /-- `uri().path` -/
  path : Str
  /-- `uri().raw_query` -/
  rawQuery : Str
  /-- `Connection::sessionStart` -/
  sessionStart : Except Sysrepo.ErrorWithCode Unit
  /-- `authorizeRequest`, with the NACM user which the session has after it -/
  authorize : Except Exception Str
  /-- the modules in the context of the session -/
  modules : List YangLibraryModule
  now : T
  /-- `Session::onNotification` with a filter and times, after some modules, for a module -/
  onNotification : NotificationQuery T → Option (List Str) → Str →
    Except Sysrepo.ErrorWithCode Unit

/-- What a client gets. -/
inductive StreamResponse where
  | plain (code : Nat) (headers : List (Str × Str)) (body : Str)
  /-- the error response is written when a timer expires -/
  | delayed
  /-- the event stream of a subscription -/
  | subscribed (subscription : SubscriptionData)
  /-- an event stream with the notifications of some modules -/
  | notifications (encoding : DataFormat) (modules : Option (List Str))

/-- `TEXT_PLAIN` -/
def textPlain : Str × Str := (str "content-type", str "text/plain")

/-- `ALLOW_GET_HEAD_OPTIONS` -/
def allowGetHeadOptions : Str × Str := (str "allow", str "GET, HEAD, OPTIONS")

section Handler

variable {T : Type} [LinearOrder T] (fromYangTimeFormat : Str → Except Exception T)
  (recoveryUser : Str) (call : StreamCall T)

/-- The branch of the handler for the stream of a subscription. -/
def openSubscription (s : Subscriptions) (user : Str) (uuid : Uuid) :
    Except Exception (StreamResponse × Subscriptions) :=
  match s.getSubscriptionForUserByUuid recoveryUser uuid (some user) with
  | some sub => do
      require (s.isReadyToAcceptClient sub)
        (reject 409 "application" "resource-denied"
          (str "There is already another GET request on this subscription."))
      return (.subscribed (s.heap sub), s.attach sub)
  | none =>
      .error (reject 404 "application" "invalid-value" (str "Subscription not found."))

/-- The branch of the handler for notifications. -/
def openNotifications (request : NotificationStreamRequest) : Except Exception StreamResponse := do
  let query ← notificationQuery fromYangTimeFormat request
  let notifSubs ← NotificationStream.create (call.onNotification query) call.modules call.now
    query.startTime query.stopTime
  return .notifications request.encoding notifSubs

/-- What the handler does under its `try`. -/
def openStream (s : Subscriptions) : Except Exception (StreamResponse × Subscriptions) := do
  raiseSysrepo call.sessionStart
  let user ← call.authorize
  match ← asRestconfStreamRequest call.method call.path call.rawQuery with
  | .subscribed request => openSubscription recoveryUser s user request.uuid
  | .notification request =>
      let response ← openNotifications fromYangTimeFormat call request
      return (response, s)

/-- The exceptions which the handler catches. -/
def handleStreamException : Exception → Except Exception StreamResponse
  | .auth _ (some _) => .ok .delayed
  | .auth _ none => .ok (.plain 401 [textPlain, cors] (str "Access denied."))
  | .errorResponse error =>
      .ok (.plain error.code.toNat
        ([textPlain, cors] ++ if error.code = 405 then [allowGetHeadOptions] else [])
        error.errorMessage)
  | exception => .error exception

/-- The handler of `/streams/`. -/
def handleStreams (s : Subscriptions) : Except Exception StreamResponse × Subscriptions :=
  if call.method = str "OPTIONS" then (.ok (.plain 200 [cors, allowGetHeadOptions] []), s)
  else
    match openStream fromYangTimeFormat recoveryUser call s with
    | .ok (response, next) => (.ok response, next)
    | .error exception => (handleStreamException exception, s)

end Handler

/-! ## What leaves the handler -/

theorem handleStreamException_isOk_iff {exception : Exception} :
    (∃ response, handleStreamException exception = .ok response) ↔ IsReported exception := by
  cases exception with
  | auth message delay => cases delay <;> simp [handleStreamException, IsReported]
  | errorResponse error => simp [handleStreamException, IsReported]
  | _ => simp [handleStreamException, IsReported]

section Escapes

variable {T : Type} [LinearOrder T]

/-- An exception leaves the `try` of the handler. -/
inductive OpenEscapes (format : TimeFormat T) (call : StreamCall T) : Prop where
  /-- sysrepo does not start a session -/
  | session {error : Sysrepo.ErrorWithCode} (refused : call.sessionStart = .error error)
  /-- authentication ends with something else than its own error -/
  | authorize {exception : Exception} (started : call.sessionStart = .ok ())
      (raised : call.authorize = .error exception) (foreign : ¬IsReported exception)
  /-- a time in the query does not exist -/
  | times {user : Str} (started : call.sessionStart = .ok ()) (admitted : call.authorize = .ok user)
      (netconf : IsNotificationRequest call.method call.path call.rawQuery)
      (invalid : ¬TimesAreValid call.rawQuery)
  /-- sysrepo refuses a subscription, and not because of its arguments -/
  | subscription {user : Str} {request : NotificationStreamRequest} {query : NotificationQuery T}
      {error : Sysrepo.ErrorWithCode} (started : call.sessionStart = .ok ())
      (admitted : call.authorize = .ok user)
      (accepted : asRestconfStreamRequest call.method call.path call.rawQuery =
        .ok (.notification request))
      (interpreted : notificationQuery format.fromYangTimeFormat request = .ok query)
      (timely : NotificationStream.checkTimes call.now query.startTime query.stopTime = .ok ())
      (refused : NotificationStream.Refuses (call.onNotification query) none call.modules error)
      (other : error.code ≠ .invalidArgument)

/-- An exception leaves the handler, which answers `OPTIONS` before the `try`. -/
structure StreamEscapes (format : TimeFormat T) (call : StreamCall T) : Prop where
  notOptions : call.method ≠ str "OPTIONS"
  escapes : OpenEscapes format call

variable (format : TimeFormat T) (recoveryUser : Str) (call : StreamCall T) (s : Subscriptions)

theorem isReported_of_isErrorResponse {exception : Exception}
    (response : exception.IsErrorResponse) : IsReported exception := by
  cases exception with
  | errorResponse error => trivial
  | _ => exact response.elim

theorem throws_openSubscription (user : Str) (uuid : Uuid) :
    Throws IsReported (openSubscription recoveryUser s user uuid) := by
  unfold openSubscription
  split
  · apply Throws.bind
    · intro exception failed
      rw [(require_eq_error.mp failed).2]
      trivial
    · intro _ _
      exact .ok _
  · exact .error trivial

theorem throws_checkTimes {now : T} {startTime stopTime : Option T} :
    Throws IsReported (NotificationStream.checkTimes now startTime stopTime) := by
  intro exception failed
  unfold NotificationStream.checkTimes at failed
  dsimp only at failed
  repeat' split at failed
  all_goals cases failed
  all_goals trivial

/-- What a refusal by sysrepo becomes. -/
theorem isReported_refusal {error : Sysrepo.ErrorWithCode} :
    IsReported (NotificationStream.refusal error) ↔ error.code = .invalidArgument := by
  unfold NotificationStream.refusal
  split
  next invalid => exact iff_of_true trivial invalid
  next other => exact iff_of_false id other

/-- An exception which leaves the creation of a stream of notifications. -/
theorem throws_openNotifications_iff {request : NotificationStreamRequest}
    {httpMethod uriPath uriQueryString : Str}
    (accepted : asRestconfStreamRequest httpMethod uriPath uriQueryString =
      .ok (.notification request)) :
    Throws IsReported (openNotifications format.fromYangTimeFormat call request) ↔
      (request.stream = str "NETCONF" → TimesAreValid uriQueryString) ∧
        ∀ query error, notificationQuery format.fromYangTimeFormat request = .ok query →
          NotificationStream.checkTimes call.now query.startTime query.stopTime = .ok () →
            NotificationStream.Refuses (call.onNotification query) none call.modules error →
              error.code = .invalidArgument := by
  have interpreted := throws_interpretStreamRequest_iff format httpMethod uriPath uriQueryString
  simp only [interpretStreamRequest, accepted, except_ok_bind, throws_some_iff] at interpreted
  have times : (IsNotificationRequest httpMethod uriPath uriQueryString →
      TimesAreValid uriQueryString) ↔
        (request.stream = str "NETCONF" → TimesAreValid uriQueryString) := by
    constructor
    · intro valid netconf
      exact valid ⟨request, accepted, netconf⟩
    · rintro valid ⟨other, also, netconf⟩
      rw [accepted] at also
      cases also
      exact valid netconf
  rw [← times, ← interpreted]
  unfold openNotifications
  cases read : notificationQuery format.fromYangTimeFormat request with
  | error exception =>
      constructor
      · intro throws
        refine ⟨.error (throws exception rfl), ?_⟩
        intro query error impossible
        cases impossible
      · rintro ⟨throws, -⟩
        exact .error (throws exception rfl)
  | ok query =>
      rw [except_ok_bind]
      constructor
      · intro throws
        refine ⟨.ok query, ?_⟩
        intro other error same timely refuses
        cases same
        apply isReported_refusal.mp
        apply throws
        have refused : NotificationStream.subscribeAll (call.onNotification query) none
            call.modules = .error (NotificationStream.refusal error) :=
          NotificationStream.subscribeAll_eq_error.mpr ⟨error, refuses, rfl⟩
        simp only [NotificationStream.create, timely, refused, except_ok_bind]
        rfl
      · rintro ⟨-, refusals⟩
        apply Throws.bind
        · unfold NotificationStream.create
          apply Throws.bind throws_checkTimes
          intro _ timely exception failed
          obtain ⟨error, refuses, rfl⟩ := NotificationStream.subscribeAll_eq_error.mp failed
          exact isReported_refusal.mpr (refusals query error rfl timely refuses)
        · intro _ _
          exact .ok _

theorem throws_openNotifications_of_openStream {user : Str} {request : NotificationStreamRequest}
    {fromYangTimeFormat : Str → Except Exception T} {recoveryUser : Str} {call : StreamCall T}
    {s : Subscriptions} {property : Exception → Prop}
    (started : call.sessionStart = .ok ()) (admitted : call.authorize = .ok user)
    (accepted : asRestconfStreamRequest call.method call.path call.rawQuery =
      .ok (.notification request))
    (throws : Throws property (openStream fromYangTimeFormat recoveryUser call s)) :
    Throws property (openNotifications fromYangTimeFormat call request) := by
  simp only [openStream, started, admitted, accepted, raiseSysrepo, except_ok_bind] at throws
  exact throws.first

/-- The `try` of the handler catches whatever is raised, if and only if nothing escapes. -/
theorem throws_openStream_iff :
    Throws IsReported (openStream format.fromYangTimeFormat recoveryUser call s) ↔
      ¬OpenEscapes format call := by
  constructor
  case mp =>
    intro throws escapes
    cases escapes with
    | @session error refused =>
        apply throws (.sysrepo error)
        simp only [openStream, refused]
        rfl
    | @authorize exception started raised foreign =>
        apply foreign
        apply throws
        simp only [openStream, started, raised]
        rfl
    | times started admitted netconf invalid =>
        obtain ⟨request, accepted, named⟩ := netconf
        have opened := throws_openNotifications_of_openStream started admitted accepted throws
        exact invalid (((throws_openNotifications_iff format call accepted).mp opened).1 named)
    | subscription started admitted accepted interpreted timely refused other =>
        have opened := throws_openNotifications_of_openStream started admitted accepted throws
        exact other (((throws_openNotifications_iff format call accepted).mp opened).2 _ _
          interpreted timely refused)
  case mpr =>
    intro contained
    unfold openStream
    apply Throws.bind
    · cases started : call.sessionStart with
      | ok => exact .ok _
      | error error => exact absurd (.session started) contained
    intro _ session
    have started : call.sessionStart = .ok () := raiseSysrepo_eq_ok.mp session
    apply Throws.bind
    · intro exception raised
      by_contra foreign
      exact contained (.authorize started raised foreign)
    intro user admitted
    apply Throws.bind
    · exact (throws_asRestconfStreamRequest _ _ _).mono fun _ => isReported_of_isErrorResponse
    intro type accepted
    cases type with
    | subscribed request => exact throws_openSubscription recoveryUser s user request.uuid
    | notification request =>
        apply Throws.bind
        · apply (throws_openNotifications_iff format call accepted).mpr
          constructor
          · intro netconf
            by_contra invalid
            exact contained (.times started admitted ⟨request, accepted, netconf⟩ invalid)
          · intro query error interpreted timely refused
            by_contra other
            exact contained
              (.subscription started admitted accepted interpreted timely refused other)
        · intro _ _
          exact .ok _

/-- The request is answered, if and only if no exception leaves the handler. -/
theorem streams_answered_iff :
    (∃ response, (handleStreams format.fromYangTimeFormat recoveryUser call s).1 = .ok response) ↔
      ¬StreamEscapes format call := by
  rw [handleStreams]
  split
  next options =>
    exact iff_of_true ⟨_, rfl⟩ fun escapes => escapes.notOptions options
  next notOptions =>
    have same : ¬StreamEscapes format call ↔ ¬OpenEscapes format call :=
      not_congr ⟨fun escapes => escapes.escapes, fun escapes => ⟨notOptions, escapes⟩⟩
    rw [same, ← throws_openStream_iff format recoveryUser call s]
    cases outcome : openStream format.fromYangTimeFormat recoveryUser call s with
    | ok result => exact iff_of_true ⟨result.1, rfl⟩ (.ok _)
    | error exception =>
        rw [handleStreamException_isOk_iff]
        constructor
        · intro reported
          exact .error reported
        · intro throws
          exact throws exception rfl

end Escapes

/-- Times which are known by their year. -/
def years : TimeFormat Nat where
  fromYangTimeFormat text :=
    if isYangTime text then .ok (((readFields text).map TimeFields.year).getD 0)
    else .error (.invalidArgument (str "Invalid date-and-time"))
  accepts valid := ⟨_, if_pos (isYangTime_iff.mpr valid)⟩
  refuses invalid := ⟨_, if_neg fun valid => invalid (isYangTime_iff.mp valid)⟩

/-- A request for notifications, and sysrepo which is out of memory. -/
def outOfMemory : StreamCall Nat where
  method := str "GET"
  path := notificationPath (str "NETCONF") .json
  rawQuery := []
  sessionStart := .ok ()
  authorize := .ok (str "yangnobody")
  modules := [⟨str "example-notif", true⟩]
  now := 2025
  onNotification _ _ _ := .error ⟨.other 2, str "SR_ERR_NO_MEMORY"⟩

theorem outOfMemory_not_answered :
    ¬∃ response, (handleStreams years.fromYangTimeFormat (str "root") outOfMemory
      Subscriptions.empty).1 = .ok response := by
  rw [streams_answered_iff years (str "root") outOfMemory Subscriptions.empty, not_not]
  have refused : NotificationStream.Refuses (outOfMemory.onNotification ⟨none, none, none⟩) none
      outOfMemory.modules ⟨.other 2, str "SR_ERR_NO_MEMORY"⟩ := .here rfl rfl nofun
  exact ⟨by decide, .subscription rfl rfl rfl rfl rfl refused nofun⟩

/-! ## The URI of a subscription -/

/-- The URI which `establish-subscription` returns. -/
def establishedUri (requestSchemeAndHost : Str) (uuid : Uuid) : Str :=
  requestSchemeAndHost ++ subscribedPath (uuidToString uuid)

/-- The answer to a client which may not know of the subscription, or whose subscription is
gone. -/
def subscriptionNotFound : StreamResponse :=
  .plain 404 [textPlain, cors] (str "Subscription not found.")

/-- The answer to a client which comes second. -/
def subscriptionTaken : StreamResponse :=
  .plain 409 [textPlain, cors] (str "There is already another GET request on this subscription.")

/-- What a client gets which dereferences the URI of a subscription. -/
def streamFor (recoveryUser : Str) (u : Subscriptions) (ref : SubscriptionRef) (requester : Str) :
    StreamResponse × Subscriptions :=
  if (u.heap ref).user = requester ∨ requester = recoveryUser then
    if ref ∈ u.activeStreams ∨ (u.heap ref).state = .terminating then (subscriptionTaken, u)
    else (.subscribed (u.heap ref), u.attach ref)
  else (subscriptionNotFound, u)

section Visits

variable {T : Type} {fromYangTimeFormat : Str → Except Exception T} {recoveryUser : Str}
  {call : StreamCall T} {u : Subscriptions} {uuid : Uuid} {requester : Str}

/-- A `GET` or a `HEAD` for the stream of a subscription by a client which was let in. -/
structure Visits (call : StreamCall T) (uuid : Uuid) (requester : Str) : Prop where
  method : call.method = str "GET" ∨ call.method = str "HEAD"
  path : call.path = subscribedPath (uuidToString uuid)
  bits : uuid < 2 ^ 128
  started : call.sessionStart = .ok ()
  admitted : call.authorize = .ok requester

namespace Visits

theorem asRestconfStreamRequest (visits : Visits call uuid requester) :
    asRestconfStreamRequest call.method call.path call.rawQuery = .ok (.subscribed ⟨uuid⟩) := by
  have parsed := (parseStreamUri_advertised visits.bits .json).1
  have allowed : require (call.method = str "GET" ∨ call.method = str "HEAD")
      (reject 405 "application" "operation-not-supported" (str "Method not allowed.")) = .ok () :=
    require_eq_ok.mpr (decide_eq_true visits.method)
  simp only [Restconf.asRestconfStreamRequest, allowed, visits.path, parsed, except_ok_bind]
  rfl

theorem notOptions (visits : Visits call uuid requester) : call.method ≠ str "OPTIONS" := by
  rcases visits.method with get | head
  · rw [get]
    decide
  · rw [head]
    decide

variable [LinearOrder T]

theorem openStream (visits : Visits call uuid requester) :
    openStream fromYangTimeFormat recoveryUser call u =
      openSubscription recoveryUser u requester uuid := by
  simp only [Server.openStream, visits.started, visits.admitted, raiseSysrepo, except_ok_bind,
    visits.asRestconfStreamRequest]

/-- The lookup does not find the subscription. -/
theorem notFound (visits : Visits call uuid requester)
    (missing : u.getSubscriptionForUserByUuid recoveryUser uuid (some requester) = none) :
    handleStreams fromYangTimeFormat recoveryUser call u = (.ok subscriptionNotFound, u) := by
  rw [handleStreams, if_neg visits.notOptions, visits.openStream, openSubscription, missing]
  rfl

/-- The lookup finds the subscription. -/
theorem found (visits : Visits call uuid requester) {ref : SubscriptionRef}
    (known : u.getSubscriptionForUserByUuid recoveryUser uuid (some requester) = some ref) :
    handleStreams fromYangTimeFormat recoveryUser call u =
      if u.isReadyToAcceptClient ref then (.ok (.subscribed (u.heap ref)), u.attach ref)
      else (.ok subscriptionTaken, u) := by
  rw [handleStreams, if_neg visits.notOptions, visits.openStream, openSubscription, known]
  dsimp only
  cases u.isReadyToAcceptClient ref with
  | true => rfl
  | false => rfl

/-- The request is one of the operations of the transition system, so that what comes after it is
covered by the runs of that system. -/
theorem executes (visits : Visits call uuid requester) (quiet : u.quiet = true) :
    ∃ events, Run.execute (Subscriptions.step recoveryUser) u events =
      some (handleStreams fromYangTimeFormat recoveryUser call u).2 := by
  have same : (handleStreams fromYangTimeFormat recoveryUser call u).2 =
      (u.getStream recoveryUser requester uuid).2 := by
    unfold Subscriptions.getStream
    cases known : u.getSubscriptionForUserByUuid recoveryUser uuid (some requester) with
    | none => rw [visits.notFound known]
    | some ref =>
        rw [visits.found known]
        dsimp only
        split
        · rfl
        · rfl
  rw [same]
  exact Subscriptions.execute_getStream quiet uuid

end Visits

variable [LinearOrder T]

open Subscriptions in
/-- In a reachable state the client gets the stream of the subscription which is registered. -/
theorem visits_registered {events : List Event} {ref : SubscriptionRef}
    (reached : Run (Subscriptions.step recoveryUser) empty events u)
    (visits : Visits call uuid requester) (registered : (uuid, ref) ∈ u.registry) :
    handleStreams fromYangTimeFormat recoveryUser call u =
      (.ok (streamFor recoveryUser u ref requester).1,
        (streamFor recoveryUser u ref requester).2) := by
  have entry := (WellKept.of_run reached).find_eq_some_iff.mpr ⟨registered, rfl⟩
  by_cases entitled : (u.heap ref).user = requester ∨ requester = recoveryUser
  · have known : u.getSubscriptionForUserByUuid recoveryUser uuid (some requester) = some ref := by
      simp [getSubscriptionForUserByUuid, entry, entitled]
    rw [visits.found known, streamFor, if_pos entitled]
    by_cases ready : u.isReadyToAcceptClient ref = true
    · have idle := (isReady_iff reached ref).mp ready
      rw [if_pos ready, if_neg (by tauto)]
    · have busy := mt (isReady_iff reached ref).mpr ready
      rw [if_neg ready, if_pos (by tauto)]
  · have unknown : u.getSubscriptionForUserByUuid recoveryUser uuid (some requester) = none := by
      simp [getSubscriptionForUserByUuid, entry, entitled]
    rw [visits.notFound unknown, streamFor, if_neg entitled]

/-- Nobody gets anything for a UUID which is not registered. -/
theorem visits_gone (visits : Visits call uuid requester) (gone : ∀ ref, (uuid, ref) ∉ u.registry) :
    handleStreams fromYangTimeFormat recoveryUser call u = (.ok subscriptionNotFound, u) := by
  apply visits.notFound
  unfold Subscriptions.getSubscriptionForUserByUuid
  cases found : u.registry.find? (·.1 == uuid) with
  | none => rfl
  | some entry =>
      have same : entry.1 = uuid := by simpa using List.find?_some found
      have member := List.mem_of_find?_eq_some found
      subst same
      exact absurd member (gone entry.2)

open Subscriptions in
/-- Whoever was given the URI of a subscription gets its stream there at any later time, as long
as the subscription is registered and nobody else reads it; so does the recovery user, and nobody
else.  When the subscription is gone, there is nothing for anybody. -/
theorem established_served {events more : List Event} {s t : Subscriptions}
    {requestSchemeAndHost : Str} {encoding : Option Str} {requestEncoding : DataFormat}
    {subscriptionId : Nat} {user : Str}
    (run : Run (Subscriptions.step recoveryUser) empty events s) (quiet : s.quiet = true)
    (unused : s.findById subscriptionId = none)
    (established : s.establishSubscription (some requestSchemeAndHost) encoding requestEncoding
      (.ok subscriptionId) uuid user = .ok t)
    (later : Run (Subscriptions.step recoveryUser) t more u)
    (method : call.method = str "GET" ∨ call.method = str "HEAD")
    (dereferenced : requestSchemeAndHost ++ call.path = establishedUri requestSchemeAndHost uuid)
    (bits : uuid < 2 ^ 128) (started : call.sessionStart = .ok ())
    (admitted : call.authorize = .ok requester) :
    ((uuid, s.fresh) ∈ u.registry →
      handleStreams fromYangTimeFormat recoveryUser call u =
          (.ok (streamFor recoveryUser u s.fresh requester).1,
            (streamFor recoveryUser u s.fresh requester).2) ∧
        (u.heap s.fresh).subscriptionId = subscriptionId ∧ (u.heap s.fresh).user = user ∧
          getEncoding encoding requestEncoding = .ok (u.heap s.fresh).dataFormat) ∧
      ((∀ ref, (uuid, ref) ∉ u.registry) →
        handleStreams fromYangTimeFormat recoveryUser call u = (.ok subscriptionNotFound, u)) := by
  have visits : Visits call uuid requester :=
    ⟨method, List.append_cancel_left dereferenced, bits, started, admitted⟩
  have taken : Subscriptions.step recoveryUser s (.establish (some requestSchemeAndHost) encoding
      requestEncoding (.ok subscriptionId) uuid user) = some t := by
    have free : (Except.ok subscriptionId : Except Exception Nat).toOption.all
        (fun id => (s.findById id).isNone) = true := by
      simp [Except.toOption, unused]
    simp only [Subscriptions.step, quiet, free, Bool.and_self, if_true, established]
  have reached := (run.snoc taken).append later
  constructor
  · intro registered
    obtain ⟨known, dataFormat, format, first⟩ := established_heap established
    have same := first.trans (SameSubscription.of_run later known).2
    refine ⟨visits_registered reached visits registered, same.subscriptionId, same.user, ?_⟩
    rw [format, same.dataFormat]
  · intro gone
    exact visits_gone visits gone

end Visits

/-- A request for the stream of a subscription. -/
def visit (uuid : Uuid) (requester : Str) : StreamCall Nat where
  method := str "GET"
  path := subscribedPath (uuidToString uuid)
  rawQuery := []
  sessionStart := .ok ()
  authorize := .ok requester
  modules := []
  now := 2025
  onNotification _ _ _ := .ok ()

open Subscriptions in
/-- The owner of a subscription and another user ask for its stream. -/
theorem established_served_visit : ∃ s,
    empty.establishSubscription (some (str "http://localhost")) none .json (.ok 1) 7
        (str "norules") = .ok s ∧
      handleStreams years.fromYangTimeFormat (str "root")
          (visit 7 (str "norules")) s = (.ok (.subscribed (s.heap 0)), s.attach 0) ∧
        handleStreams years.fromYangTimeFormat (str "root")
          (visit 7 (str "dwdm")) s = (.ok subscriptionNotFound, s) := by
  refine ⟨_, rfl, ?_, ?_⟩
  · have served := @established_served Nat years.fromYangTimeFormat (str "root")
      (visit 7 (str "norules")) _ 7 (str "norules") _ [] [] empty _ (str "http://localhost") none
      .json 1 (str "norules") .nil rfl rfl rfl .nil (.inl rfl) rfl (by decide) rfl rfl
    exact (served.1 (List.mem_singleton.mpr rfl)).1
  · have served := @established_served Nat years.fromYangTimeFormat (str "root")
      (visit 7 (str "dwdm")) _ 7 (str "dwdm") _ [] [] empty _ (str "http://localhost") none
      .json 1 (str "norules") .nil rfl rfl rfl .nil (.inl rfl) rfl (by decide) rfl rfl
    exact (served.1 (List.mem_singleton.mpr rfl)).1

end Rousette.Restconf.Server
