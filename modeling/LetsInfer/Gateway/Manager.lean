import LetsInfer.Gateway.State

/-! @src core/gateway/src/li_gateway_manager.rs | name:Gateway manager operations | scheme:state-machine

    The operations of `GatewayManager`, cut at the state lock: each definition below is one critical
    section, taking what the operation read before it took the lock (a clock answer, a validated
    route list, a usage snapshot) and giving the operation's answer with the state it leaves. What
    the providers answer is an argument, so every behaviour of a provider is covered; an answer of
    `.error` is a provider failing at that call. -/

namespace LetsInfer.Gateway
open Schemes

/-- Which entry point a request came in through, with what its credential check answered. -/
inductive Surface where
  | publicMain (authenticate : Except GatewayError GatewayPrincipal)
  | privateRelay (authorize : Except GatewayError NodeId)

/-- The part of `admit_public`/`admit_relay` before `admit`: the mode gate and the credential
    check. -/
def authorizeSurface (mode : GatewayMode) : Surface → Except GatewayError (Option GatewayPrincipal)
  | .publicMain authenticate =>
    match mode with
    | .child _ _ => .error .publicUnavailableOnChild
    | .main _ =>
      match authenticate with
      | .error e => .error e
      | .ok principal => .ok (some principal)
  | .privateRelay authorize =>
    match mode.mainNodeId with
    | none => .error .privateRelayUnavailableOnMain
    | some expectedMain =>
      match authorize with
      | .error e => .error e
      | .ok authorizedMain =>
        if authorizedMain ≠ expectedMain then .error .relayDenied else .ok none

/-- What `admit` knows when it is about to take the lock for the admission itself. -/
structure Arrival where
  request : GatewayRequest
  principal : Option GatewayPrincipal
  now : UnixMilliseconds
  routes : List GatewayRoute

def Arrival.since (arrival : Arrival) : ℕ := arrival.now - rollingWindowMilliseconds

/-- The tokens an arrival reserves: its demand when its key has a token limit. -/
def Arrival.reservedTokens (arrival : Arrival) : ℕ :=
  match arrival.principal with
  | none => 0
  | some principal => principal.reserves arrival.request

def Arrival.queuedRequest (arrival : Arrival) : QueuedRequest where
  request := arrival.request
  principal := arrival.principal
  receivedAt := arrival.now
  enqueuedAt := arrival.now
  queuedMilliseconds := 0
  reservedTokens := arrival.reservedTokens
  wasAdmitted := false

/-- The policy half of the admission section: duplicate check, usage load, key limits. -/
def admitPolicy (state : GatewayState) (arrival : Arrival) (recent : List GatewayUsageRecord) :
    Except GatewayError Unit × GatewayState :=
  match requireNewRequest state arrival.request.requestId with
  | .error e => (.error e, state)
  | .ok () =>
    match arrival.principal with
    | none => (.ok (), state)
    | some principal =>
      match loadRecentUsage state principal.keyId recent arrival.since arrival.now with
      | (.error e, state) => (.error e, state)
      | (.ok (), state) => admitPrincipal state principal arrival.request arrival.now

/-- The placement half of the admission section: reserve a route, wait for one, or give the key's
    reservations back. -/
def admitRoute (state : GatewayState) (arrival : Arrival) :
    Except GatewayError GatewayAdmission × GatewayState :=
  let queued := arrival.queuedRequest
  match selectRoute state arrival.request arrival.routes arrival.now with
  | .ok (.selected route) =>
    match reserveRoute state queued route arrival.now with
    | (.error e, state) => (.error e, state)
    | (.ok reservation, state) => (.ok (.admitted reservation), state)
  | .ok .busy =>
    if arrival.request.maximumQueueMilliseconds > 0 then
      if maxQueuedRequests ≤ state.queued.size then
        (.error .queueFull, releasePrincipal state queued.principal queued.reservedTokens)
      else (.ok (.queued ⟨arrival.request.requestId⟩), enqueue state queued)
    else (.error .capacityUnavailable,
      releasePrincipal state queued.principal queued.reservedTokens)
  | .error e => (.error e, releasePrincipal state queued.principal queued.reservedTokens)

/-- The whole admission section of `admit`. -/
def admitSection (state : GatewayState) (arrival : Arrival) (recent : List GatewayUsageRecord) :
    Except GatewayError GatewayAdmission × GatewayState :=
  match admitPolicy state arrival recent with
  | (.error e, state) => (.error e, state)
  | (.ok (), state) => admitRoute state arrival

/-- Whether the queue entry of an identity waits for the given model. -/
def queuedForModel (state : GatewayState) (model : LogicalModelName) (requestId : Sha256Digest) :
    Bool :=
  match state.queued.lookup requestId with
  | none => false
  | some candidate => candidate.request.model = model

/-- The FIFO gate of `poll_queue`: some other entry waits for the model, and the first entry that
    does is not this one. -/
def mustWait (state : GatewayState) (model : LogicalModelName) (requestId : Sha256Digest) : Bool :=
  (state.queueOrder.any fun candidate =>
    candidate ≠ requestId && queuedForModel state model candidate) &&
  state.queueOrder.find? (queuedForModel state model) ≠ some requestId

/-- The telemetry of one queue entry that ends without a route. -/
def queueTiming (queued : QueuedRequest) (now : ℕ) : GatewayTelemetryTiming :=
  .fromObservations (queued.waited now) none none none

/-- Ends one queue entry as an unrouted failure, as expiry and `fail_queue` do. -/
def dropQueued (state : GatewayState) (queued : QueuedRequest) (now : ℕ) : GatewayState :=
  let state := releasePrincipal state queued.principal queued.reservedTokens
  { state with
    telemetry := state.telemetry.recordUnroutedFailureWithTiming (queueTiming queued now) }

/-- The second critical section of `poll_queue`, with the request its first section read. -/
def pollSection (state : GatewayState) (requestId : Sha256Digest) (request : GatewayRequest)
    (now : ℕ) (routes : List GatewayRoute) : Except GatewayError GatewayQueueStatus × GatewayState :=
  match state.queued.lookup requestId with
  | none => (.error .requestNotFound, state)
  | some queued =>
    if queued.waited now > request.maximumQueueMilliseconds then
      match removeQueuedRequest state requestId with
      | (.error e, state) => (.error e, state)
      | (.ok queued, state) => (.error .queueExpired, dropQueued state queued now)
    else if mustWait state request.model requestId then (.ok .waiting, state)
    else
      match selectRoute state request routes now with
      | .error e => (.error e, state)
      | .ok .busy => (.ok .waiting, state)
      | .ok (.selected route) =>
        match removeQueuedRequest state requestId with
        | (.error e, state) => (.error e, state)
        | (.ok queued, state) =>
          match reserveRoute state queued route now with
          | (.error e, state) => (.error e, state)
          | (.ok reservation, state) => (.ok (.admitted reservation), state)

def cancelQueued (state : GatewayState) (queued : QueuedRequest) (now : ℕ) : GatewayState :=
  let state := releasePrincipal state queued.principal queued.reservedTokens
  { state with telemetry := state.telemetry.recordCancelled none (queueTiming queued now) }

/-- The common shape of `cancel_queue` and `fail_queue`: the clock is read first, and a failed read
    returns before the entry is removed. -/
def endQueued (finish : GatewayState → QueuedRequest → ℕ → GatewayState) (state : GatewayState)
    (requestId : Sha256Digest) (now : Except GatewayError UnixMilliseconds) :
    Except GatewayError Unit × GatewayState :=
  match now with
  | .error e => (.error e, state)
  | .ok now =>
    match removeQueuedRequest state requestId with
    | (.error e, state) => (.error e, state)
    | (.ok queued, state) => (.ok (), finish state queued now)

/-- `cancel_queue`. -/
def cancelQueue (state : GatewayState) (requestId : Sha256Digest)
    (now : Except GatewayError UnixMilliseconds) : Except GatewayError Unit × GatewayState :=
  endQueued cancelQueued state requestId now

/-- `fail_queue`. -/
def failQueue (state : GatewayState) (requestId : Sha256Digest)
    (now : Except GatewayError UnixMilliseconds) : Except GatewayError Unit × GatewayState :=
  endQueued dropQueued state requestId now

/-- What a completion reports: exact counts and durations. -/
structure Completion where
  inputTokens : ℕ
  outputTokens : ℕ
  cachedTokens : ℕ
  exactTokens : Bool
  timing : GatewayTelemetryTiming
  deriving DecidableEq

/-- The token total of a completion, refused when it overflows. -/
def Completion.totalTokens (completion : Completion) : Except GatewayError ℕ :=
  match checkedAdd completion.inputTokens completion.outputTokens with
  | some total => .ok total
  | none => .error (.invalidContract "completed gateway usage overflows its token bound")

/-- The usage record of a completion: none without a principal, refused when the clock failed, the
    total overflows or the completion precedes the receipt. -/
def completionUsage (reservation : GatewayReservation)
    (completedAt : Except GatewayError UnixMilliseconds) (completion : Completion) :
    Except GatewayError (Option GatewayUsageRecord) :=
  match completedAt, completion.totalTokens with
  | .error e, _ => .error e
  | .ok _, .error e => .error e
  | .ok completedAt, .ok totalTokens =>
    match reservation.principal with
    | none => .ok none
    | some principal =>
      match GatewayUsageRecord.new reservation.request.requestId principal.keyId
          reservation.receivedAt completedAt totalTokens with
      | .error e => .error e
      | .ok usage => .ok (some usage)

/-- What a completion learns about its route: the failure history is cleared and the prefix
    affinity recorded, both only with a clock answer. -/
def completeRoute (state : GatewayState) (reservation : GatewayReservation)
    (completedAt : Except GatewayError UnixMilliseconds) : GatewayState :=
  match completedAt with
  | .error _ => state
  | .ok completedAt =>
    let state := markRouteSuccess state reservation.route.placementGroupId
    match reservation.request.prefixKey with
    | none => state
    | some prefixKey =>
      recordPrefixAffinity state reservation.request.model prefixKey
        reservation.route.placementGroupId completedAt

/-- What a completion does to its key: the live reservation is replaced by the exact total. -/
def completePrincipal (state : GatewayState) (reservation : GatewayReservation)
    (completedAt : Except GatewayError UnixMilliseconds) (completion : Completion) :
    GatewayState :=
  match reservation.principal with
  | none => state
  | some principal =>
    let state := releasePrincipal state (some principal) reservation.reservedTokens
    match completedAt, completion.totalTokens with
    | .ok completedAt, .ok totalTokens =>
      { state with
        tokenWindows := state.tokenWindows.insert principal.keyId
          (window state.tokenWindows principal.keyId ++ [(completedAt, totalTokens)]) }
    | _, _ => state

/-- The critical section of `complete_request`, giving the usage record still to be persisted. -/
def completeRequest (state : GatewayState) (reservation : GatewayReservation)
    (completedAt : Except GatewayError UnixMilliseconds) (completion : Completion) :
    Except GatewayError (Option GatewayUsageRecord) × GatewayState :=
  let usage := completionUsage reservation completedAt completion
  match releaseReservation state reservation with
  | (.error e, state) => (.error e, state)
  | (.ok (), state) =>
    let state := completeRoute state reservation completedAt
    let state := completePrincipal state reservation completedAt completion
    let telemetry :=
      match completedAt, usage with
      | .ok completedAt, .ok _ =>
        state.telemetry.recordCompleted reservation.route completedAt completion.timing
          completion.inputTokens completion.outputTokens completion.cachedTokens
          completion.exactTokens
      | _, _ => state.telemetry.recordFailed reservation.route completion.timing
    (usage, { state with telemetry := telemetry })

/-- Ends a reservation that is already off its route as a cancellation. -/
def cancelReleased (state : GatewayState) (reservation : GatewayReservation)
    (timing : GatewayTelemetryTiming) : GatewayState :=
  let state := releasePrincipal state reservation.principal reservation.reservedTokens
  { state with telemetry := state.telemetry.recordCancelled (some reservation.route) timing }

def cancelWithTiming (state : GatewayState) (reservation : GatewayReservation)
    (timing : GatewayTelemetryTiming) : Except GatewayError Unit × GatewayState :=
  match releaseReservation state reservation with
  | (.error e, state) => (.error e, state)
  | (.ok (), state) => (.ok (), cancelReleased state reservation timing)

/-- Ends a reservation that is already off its route as a routed failure. -/
def failReleased (state : GatewayState) (reservation : GatewayReservation)
    (timing : GatewayTelemetryTiming) : GatewayState :=
  let state := releasePrincipal state reservation.principal reservation.reservedTokens
  { state with telemetry := state.telemetry.recordFailed reservation.route timing }

/-- `fail_reservation`: the route cools down only with a clock answer. -/
def failReservation (state : GatewayState) (reservation : GatewayReservation)
    (now : Except GatewayError UnixMilliseconds) (timing : GatewayTelemetryTiming) :
    Except GatewayError Unit × GatewayState :=
  match releaseReservation state reservation with
  | (.error e, state) => (.error e, state)
  | (.ok (), state) =>
    match now with
    | .error e => (.error e, failReleased state reservation timing)
    | .ok now =>
      (.ok (), failReleased (markRouteFailure state reservation.route.placementGroupId now)
        reservation timing)

/-- The timing a retry reports when it ends the request. -/
def retryTiming (reservation : GatewayReservation) : GatewayTelemetryTiming :=
  .fromObservations reservation.queuedMilliseconds none none none

def GatewayReservation.requeued (reservation : GatewayReservation) (now : ℕ) : QueuedRequest where
  request := reservation.request
  principal := reservation.principal
  receivedAt := reservation.receivedAt
  enqueuedAt := now
  queuedMilliseconds := reservation.queuedMilliseconds
  reservedTokens := reservation.reservedTokens
  wasAdmitted := true

/-- The placement half of a retry, with the failed route released and cooled down. -/
def retryRoute (state : GatewayState) (reservation : GatewayReservation) (now : ℕ)
    (routes : List GatewayRoute) : Except GatewayError GatewayAdmission × GatewayState :=
  let queued := reservation.requeued now
  match selectRoute state queued.request routes now with
  | .ok (.selected route) =>
    match reserveRoute state queued route now with
    | (.error e, state) => (.error e, state)
    | (.ok reserved, state) =>
      (.ok (.admitted reserved),
        { state with telemetry := state.telemetry.recordRetried reservation.route })
  | .ok .busy =>
    if queued.request.maximumQueueMilliseconds > 0 ∧
        queued.waited now ≤ queued.request.maximumQueueMilliseconds then
      if maxQueuedRequests ≤ state.queued.size then
        (.error .queueFull, failReleased state reservation (retryTiming reservation))
      else
        let state := enqueue state queued
        (.ok (.queued ⟨queued.request.requestId⟩),
          { state with telemetry := state.telemetry.recordRetried reservation.route })
    else (.error .capacityUnavailable, failReleased state reservation (retryTiming reservation))
  | .error e => (.error e, failReleased state reservation (retryTiming reservation))

/-- The critical section of `retry_before_output`. -/
def retryBeforeOutput (state : GatewayState) (reservation : GatewayReservation)
    (now : Except GatewayError UnixMilliseconds)
    (routes : Except GatewayError (List GatewayRoute)) :
    Except GatewayError GatewayAdmission × GatewayState :=
  match releaseReservation state reservation with
  | (.error e, state) => (.error e, state)
  | (.ok (), state) =>
    match now with
    | .error e => (.error e, failReleased state reservation (retryTiming reservation))
    | .ok now =>
      let state := markRouteFailure state reservation.route.placementGroupId now
      match routes with
      | .error e => (.error e, failReleased state reservation (retryTiming reservation))
      | .ok routes => retryRoute state reservation now routes

end LetsInfer.Gateway
