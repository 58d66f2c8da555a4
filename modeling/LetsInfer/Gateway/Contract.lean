import Mathlib

/-! @src core/gateway/src/li_gateway_contract.rs | name:Gateway contract types | scheme:data-model

    The values that cross the Gateway boundary: identities, routes, requests, principals with their
    configured limits, usage records, reservations and queue tickets. A value that the source can
    only build through a checking constructor carries the check as a field here, so an invalid one
    cannot be written down; `new` is the constructor with its error path. Times are Unix
    milliseconds. -/

namespace LetsInfer.Gateway

def u64Max : ℕ := 2 ^ 64 - 1

def saturatingAdd (a b : ℕ) : ℕ := min (a + b) u64Max

def checkedAdd (a b : ℕ) : Option ℕ := if a + b ≤ u64Max then some (a + b) else none

abbrev UnixMilliseconds := ℕ

abbrev NonZeroU32 := { n : ℕ // 0 < n ∧ n < 2 ^ 32 }

abbrev NonZeroU64 := { n : ℕ // 0 < n ∧ n < 2 ^ 64 }

structure Sha256Digest where
  value : String
  deriving DecidableEq

structure ApiKeyId where
  value : String
  deriving DecidableEq

structure LogicalModelName where
  value : String
  deriving DecidableEq

structure PlacementGroupId where
  value : String
  deriving DecidableEq

structure NodeId where
  value : String
  deriving DecidableEq

/-- One stable admission or lifecycle failure. -/
inductive GatewayError where
  | invalidContract (reason : String)
  | authenticationDenied
  | relayDenied
  | publicUnavailableOnChild
  | privateRelayUnavailableOnMain
  | duplicateRequest
  | requestRateLimit
  | tokenRateLimit
  | concurrencyLimit
  | contextTooLarge
  | noRoute
  | capacityUnavailable
  | queueFull
  | queueExpired
  | requestNotFound
  | provider (capability reason : String)
  | stateUnavailable
  deriving DecidableEq

/-- Whether this gateway exposes public inference or a private child relay. -/
inductive GatewayMode where
  | main (localNodeId : NodeId)
  | child (localNodeId mainNodeId : NodeId)
  deriving DecidableEq

/-- The only main authorized to relay into a child gateway. -/
def GatewayMode.mainNodeId : GatewayMode → Option NodeId
  | .main _ => none
  | .child _ mainNodeId => some mainNodeId

/-- Whether a placement endpoint is local or reached through a child relay. The addresses inside
    are only read when bytes are forwarded. -/
inductive GatewayRouteTarget where
  | localEngine
  | childRelay
  deriving DecidableEq

def maxPrefixKeys : ℕ := 4096

/-- One current routable placement-group endpoint. The constructor also sorts the prefix keys; only
    membership in them is ever read. -/
structure GatewayRoute where
  placementGroupId : PlacementGroupId
  endpointNodeId : NodeId
  model : LogicalModelName
  target : GatewayRouteTarget
  maxActiveRequests : NonZeroU32
  maxContextTokens : NonZeroU64
  healthy : Bool
  memoryPressure : Bool
  temperatureMillicelsius : Option ℕ
  prefixKeys : List Sha256Digest
  temperature_bounded : ∀ t ∈ temperatureMillicelsius, t ≤ 250000
  prefix_bounded : prefixKeys.length ≤ maxPrefixKeys
  prefix_nodup : prefixKeys.Nodup
  deriving DecidableEq

def maxQueueMilliseconds : ℕ := 5 * 60 * 1000

/-- One fully token-counted inference request before admission. -/
structure GatewayRequest where
  requestId : Sha256Digest
  model : LogicalModelName
  contextTokens : NonZeroU64
  maximumOutputTokens : NonZeroU64
  prefixKey : Option Sha256Digest
  maximumQueueMilliseconds : ℕ
  queue_bounded : maximumQueueMilliseconds ≤ maxQueueMilliseconds
  demand_fits : contextTokens.1 + maximumOutputTokens.1 ≤ u64Max
  deriving DecidableEq

def GatewayRequest.tokenDemand (request : GatewayRequest) : ℕ :=
  request.contextTokens.1 + request.maximumOutputTokens.1

/-- Configured per-key limits (`li_authentication_manager::ApiKeyLimits`). -/
structure ApiKeyLimits where
  requestsPerMinute : Option NonZeroU32
  tokensPerMinute : Option NonZeroU64
  concurrency : Option NonZeroU32
  contextTokens : Option NonZeroU64
  deriving DecidableEq

structure GatewayPrincipal where
  keyId : ApiKeyId
  limits : ApiKeyLimits
  deriving DecidableEq

/-- One completed request, kept for rolling-window reconstruction. -/
structure GatewayUsageRecord where
  requestId : Sha256Digest
  keyId : ApiKeyId
  receivedAt : UnixMilliseconds
  completedAt : UnixMilliseconds
  tokens : ℕ
  ordered : receivedAt ≤ completedAt
  deriving DecidableEq

/-- The checking constructor: a completion before its receipt is refused. -/
def GatewayUsageRecord.new (requestId : Sha256Digest) (keyId : ApiKeyId)
    (receivedAt completedAt : UnixMilliseconds) (tokens : ℕ) :
    Except GatewayError GatewayUsageRecord :=
  if h : receivedAt ≤ completedAt then
    .ok ⟨requestId, keyId, receivedAt, completedAt, tokens, h⟩
  else .error (.invalidContract "gateway usage completion precedes receipt")

/-- Ownership of one active placement-group and live quota reservation. -/
structure GatewayReservation where
  request : GatewayRequest
  route : GatewayRoute
  principal : Option GatewayPrincipal
  receivedAt : UnixMilliseconds
  queuedMilliseconds : ℕ
  reservedTokens : ℕ
  deriving DecidableEq

/-- One live FIFO queue entry, named by its request identity. -/
structure GatewayQueueTicket where
  requestId : Sha256Digest
  deriving DecidableEq

inductive GatewayAdmission where
  | admitted (reservation : GatewayReservation)
  | queued (ticket : GatewayQueueTicket)
  deriving DecidableEq

inductive GatewayQueueStatus where
  | waiting
  | admitted (reservation : GatewayReservation)
  deriving DecidableEq

/-- What the placement-safety authority answers for one route: its snapshot, the clock read and the
    acceptance check of the lease state, a missing snapshot counting as not accepted. -/
abbrev PlacementSafety := GatewayRoute → Except GatewayError Bool

/-- One route of a snapshot is admissible to the scan: right model, a placement group not seen
    before, and on a child gateway only the local Engine. -/
def checkRoute (mode : GatewayMode) (model : LogicalModelName) (seen : List PlacementGroupId)
    (route : GatewayRoute) : Except GatewayError Unit :=
  if route.model ≠ model ∨ route.placementGroupId ∈ seen then
    .error (.invalidContract "gateway route snapshot has a foreign model or duplicate group")
  else
    match mode with
    | .main _ => .ok ()
    | .child localNodeId _ =>
      if route.target = .localEngine ∧ route.endpointNodeId = localNodeId then .ok ()
      else .error (.invalidContract "child gateway may route only its local Engine endpoint")

/-- The scan of `current_routes`, with the placement groups seen so far. A main gateway leaves the
    safety of a child relay to the child. -/
def scanRoutes (mode : GatewayMode) (model : LogicalModelName) (safety : PlacementSafety) :
    List PlacementGroupId → List GatewayRoute → Except GatewayError (List GatewayRoute)
  | _, [] => .ok []
  | seen, route :: routes =>
    match checkRoute mode model seen route with
    | .error e => .error e
    | .ok () =>
      let accepted : Except GatewayError Bool :=
        match mode, route.target with
        | .main _, .childRelay => .ok true
        | _, _ => safety route
      match accepted with
      | .error e => .error e
      | .ok keep =>
        match scanRoutes mode model safety (route.placementGroupId :: seen) routes with
        | .error e => .error e
        | .ok rest => .ok (if keep then route :: rest else rest)

/-- `GatewayManager::current_routes`: the provider's snapshot, validated and filtered. -/
def currentRoutes (mode : GatewayMode) (model : LogicalModelName) (safety : PlacementSafety)
    (routes : Except GatewayError (List GatewayRoute)) : Except GatewayError (List GatewayRoute) :=
  match routes with
  | .error e => .error e
  | .ok routes => scanRoutes mode model safety [] routes

end LetsInfer.Gateway
