import LetsInfer.Gateway.Telemetry

/-! @src core/gateway/src/li_gateway_manager.rs | name:Gateway live state | scheme:state-machine

    The state one Gateway process keeps under its lock, and the helper functions that read and write
    it. A helper that fails after it has already written returns the error *and* the state it left
    behind: `release_reservation` removes the active entry before it compares groups, and
    `reserve_route` overwrites the entry before it reports a duplicate. -/

namespace LetsInfer.Gateway
open Schemes

def rollingWindowMilliseconds : ℕ := 60000

def maxQueuedRequests : ℕ := 1024

def maxBackendFailures : ℕ := 16

def maxBackendCooldownMilliseconds : ℕ := 60000

def prefixAffinityMilliseconds : ℕ := 60 * 60 * 1000

def maxPrefixAffinityEntries : ℕ := 4096

/-- One authenticated request, waiting or about to be placed. -/
structure QueuedRequest where
  request : GatewayRequest
  principal : Option GatewayPrincipal
  receivedAt : UnixMilliseconds
  enqueuedAt : ℕ
  queuedMilliseconds : ℕ
  reservedTokens : ℕ
  wasAdmitted : Bool
  deriving DecidableEq

/-- A learned prefix route: its key, the placement group and the deadline. -/
structure PrefixAffinity where
  model : LogicalModelName
  prefixKey : Sha256Digest
  placementGroupId : PlacementGroupId
  deadline : ℕ
  deriving DecidableEq

/-- Everything the Gateway keeps under one lock. -/
structure GatewayState where
  loadedKeys : Finset ApiKeyId := ∅
  requestWindows : Table ApiKeyId (List ℕ) := ∅
  tokenWindows : Table ApiKeyId (List (ℕ × ℕ)) := ∅
  principalActive : Table ApiKeyId ℕ := ∅
  principalReservedTokens : Table ApiKeyId ℕ := ∅
  routeActive : Table PlacementGroupId ℕ := ∅
  failureCounts : Table PlacementGroupId ℕ := ∅
  unavailableUntil : Table PlacementGroupId ℕ := ∅
  prefixAffinity : List PrefixAffinity := []
  activeRequests : Table Sha256Digest PlacementGroupId := ∅
  queueOrder : List Sha256Digest := []
  queued : Table Sha256Digest QueuedRequest := ∅
  telemetry : GatewayTelemetryState := {}

/-- Whether compatible capacity is selected or currently busy. -/
inductive RouteSelection where
  | selected (route : GatewayRoute)
  | busy
  deriving DecidableEq

/-- `entry(key).or_default()`: the window of a key, empty when there is none yet. -/
def window {α : Type} (windows : Table ApiKeyId (List α)) (keyId : ApiKeyId) : List α :=
  (windows.lookup keyId).getD []

/-- `iter().sum::<u64>()`, which wraps in a release build. -/
def sumU64 (values : List ℕ) : ℕ := values.sum % 2 ^ 64

/-- Rejects reuse of one active or queued request identity. -/
def requireNewRequest (state : GatewayState) (requestId : Sha256Digest) :
    Except GatewayError Unit :=
  if requestId ∈ state.activeRequests ∨ requestId ∈ state.queued then .error .duplicateRequest
  else .ok ()

/-- One persisted record appended to both windows of its key. -/
def pushUsage (keyId : ApiKeyId) (state : GatewayState) (usage : GatewayUsageRecord) :
    GatewayState :=
  { state with
    requestWindows := state.requestWindows.insert keyId
      (window state.requestWindows keyId ++ [usage.receivedAt])
    tokenWindows := state.tokenWindows.insert keyId
      (window state.tokenWindows keyId ++ [(usage.completedAt, usage.tokens)]) }

/-- Loads one key's persisted rolling window once per process. -/
def loadRecentUsage (state : GatewayState) (keyId : ApiKeyId) (recent : List GatewayUsageRecord)
    (since now : ℕ) : Except GatewayError Unit × GatewayState :=
  if recent.any fun usage =>
      usage.keyId ≠ keyId ∨ usage.receivedAt < since ∨ now < usage.completedAt then
    (.error (.invalidContract "gateway usage store returned a foreign or out-of-window record"),
      state)
  else if keyId ∈ state.loadedKeys then (.ok (), state)
  else
    (.ok (), recent.foldl (pushUsage keyId)
      { state with loadedKeys := insert keyId state.loadedKeys })

section Windows

variable {st st' : GatewayState} {key : ApiKeyId} {rct : List GatewayUsageRecord}
  {since now : ℕ}

theorem window_insert {α : Type} (windows : Table ApiKeyId (List α)) (key x : ApiKeyId)
    (l : List α) : window (windows.insert key l) x = if x = key then l else window windows x := by
  rw [window, Table.lookup_insert_ite]
  split_ifs <;> rfl

/-- What pushing records does to the windows of any key. -/
theorem window_foldl_pushUsage (key x : ApiKeyId) (rct : List GatewayUsageRecord)
    (st : GatewayState) :
    window (rct.foldl (pushUsage key) st).requestWindows x =
        window st.requestWindows x ++ (if x = key then rct.map (·.receivedAt) else []) ∧
      window (rct.foldl (pushUsage key) st).tokenWindows x =
        window st.tokenWindows x ++
          (if x = key then rct.map fun u => (u.completedAt, u.tokens) else []) := by
  induction rct generalizing st with
  | nil => simp
  | cons u rct ih =>
    obtain ⟨hrqs, htok⟩ := ih (pushUsage key st u)
    rw [List.foldl_cons, hrqs, htok, pushUsage, window_insert, window_insert]
    by_cases hx : x = key
    · subst hx
      simp
    · simp [hx]

theorem loadRecentUsage_error {e : GatewayError}
    (h : loadRecentUsage st key rct since now = (.error e, st')) : st' = st := by
  unfold loadRecentUsage at h
  split_ifs at h <;> cases h
  rfl

/-- An accepted snapshot enters the windows of a key that is not loaded, and nothing else does. -/
theorem loadRecentUsage_ok (h : loadRecentUsage st key rct since now = (.ok (), st')) :
    (∀ u ∈ rct, u.keyId = key ∧ since ≤ u.receivedAt ∧ u.completedAt ≤ now) ∧
    ((key ∈ st.loadedKeys ∧ st' = st) ∨
      (key ∉ st.loadedKeys ∧ st' = rct.foldl (pushUsage key)
        { st with loadedKeys := insert key st.loadedKeys })) := by
  unfold loadRecentUsage at h
  split_ifs at h with hfor hkno <;> try cases (Prod.mk.inj h).1
  all_goals
    refine ⟨fun u husa => ?_, ?_⟩
    · have := mt (fun hbad => List.any_eq_true.mpr ⟨u, husa, hbad⟩) hfor
      simpa using this
  · exact .inl ⟨hkno, (Prod.mk.inj h).2.symm⟩
  · exact .inr ⟨hkno, (Prod.mk.inj h).2.symm⟩

theorem loadRecentUsage_of_valid (st : GatewayState) (key : ApiKeyId)
    (rct : List GatewayUsageRecord) (since now : ℕ)
    (h : ∀ u ∈ rct, u.keyId = key ∧ since ≤ u.receivedAt ∧
      u.completedAt ≤ now) : ∃ loaded, loadRecentUsage st key rct since now = (.ok (), loaded) := by
  have hval : (rct.any fun u =>
      u.keyId ≠ key ∨ u.receivedAt < since ∨ now < u.completedAt) = false := by
    simpa using h
  unfold loadRecentUsage
  rw [hval, if_neg Bool.false_ne_true]
  split_ifs <;> exact ⟨_, rfl⟩

end Windows

/-- The request window of a key as `admit_principal` uses it at `now`. -/
def prunedRequests (state : GatewayState) (keyId : ApiKeyId) (now : ℕ) : List ℕ :=
  (window state.requestWindows keyId).dropWhile fun value =>
    value ≤ now - rollingWindowMilliseconds

/-- The token window of a key as `admit_principal` uses it at `now`. -/
def prunedTokens (state : GatewayState) (keyId : ApiKeyId) (now : ℕ) : List (ℕ × ℕ) :=
  (window state.tokenWindows keyId).dropWhile fun entry =>
    entry.1 ≤ now - rollingWindowMilliseconds

/-- The token part of `admit_principal`: the new reservation total of the key, or `none` when the
    window, the live reservations and the new demand exceed the limit or overflow. -/
def reserveTokens (limit : NonZeroU64) (tokens : List (ℕ × ℕ)) (reserved demand : ℕ) : Option ℕ :=
  match (checkedAdd (sumU64 (tokens.map Prod.snd)) reserved).bind (checkedAdd · demand) with
  | none => none
  | some value => if limit.1 < value then none else some (reserved + demand)

/-- Applies request, token, concurrency and context limits before routing. Both windows stay pruned
    when a limit refuses the request. -/
def admitPrincipal (state : GatewayState) (principal : GatewayPrincipal)
    (request : GatewayRequest) (now : ℕ) : Except GatewayError Unit × GatewayState :=
  let keyId := principal.keyId
  let requests := prunedRequests state keyId now
  let tokens := prunedTokens state keyId now
  let state : GatewayState :=
    { state with
      requestWindows := state.requestWindows.insert keyId requests
      tokenWindows := state.tokenWindows.insert keyId tokens }
  let limits := principal.limits
  if limits.contextTokens.any fun limit => limit.1 < request.contextTokens.1 then
    (.error .contextTooLarge, state)
  else if limits.requestsPerMinute.any fun limit => limit.1 ≤ requests.length then
    (.error .requestRateLimit, state)
  else
    let active := state.principalActive.amount keyId
    if limits.concurrency.any fun limit => limit.1 ≤ active then
      (.error .concurrencyLimit, state)
    else
      let charge (reservedTokens : Table ApiKeyId ℕ) : GatewayState :=
        { state with
          principalReservedTokens := reservedTokens
          requestWindows := state.requestWindows.insert keyId (requests ++ [now])
          principalActive := state.principalActive.insert keyId (active + 1) }
      match limits.tokensPerMinute with
      | none => (.ok (), charge state.principalReservedTokens)
      | some limit =>
        match reserveTokens limit tokens (state.principalReservedTokens.amount keyId)
            request.tokenDemand with
        | none => (.error .tokenRateLimit, state)
        | some reserved => (.ok (), charge (state.principalReservedTokens.insert keyId reserved))

/-! ### What the limit checks do -/

section Limits

variable {st st' : GatewayState} {prin : GatewayPrincipal} {req : GatewayRequest}
  {now : ℕ} {e : GatewayError}

/-- The tokens a request reserves of a key: its demand when the key has a token limit. -/
def GatewayPrincipal.reserves (principal : GatewayPrincipal) (request : GatewayRequest) : ℕ :=
  match principal.limits.tokensPerMinute with
  | none => 0
  | some _ => request.tokenDemand

/-- Pruning both windows of a key, which every admission of the key does first. -/
def pruneWindows (state : GatewayState) (keyId : ApiKeyId) (now : ℕ) : GatewayState :=
  { state with
    requestWindows := state.requestWindows.insert keyId (prunedRequests state keyId now)
    tokenWindows := state.tokenWindows.insert keyId (prunedTokens state keyId now) }

theorem reserveTokens_eq_some {limit : NonZeroU64} {ts : List (ℕ × ℕ)}
    {reserved demand total : ℕ} (h : reserveTokens limit ts reserved demand = some total) :
    total = reserved + demand ∧ sumU64 (ts.map Prod.snd) + reserved + demand ≤ limit.1 := by
  unfold reserveTokens checkedAdd at h
  by_cases h1 : sumU64 (ts.map Prod.snd) + reserved ≤ u64Max
  · by_cases h2 : sumU64 (ts.map Prod.snd) + reserved + demand ≤ u64Max
    · simp only [h1, h2, if_true, Option.bind_some] at h
      split_ifs at h with h3
      exact ⟨(Option.some.inj h).symm, not_lt.mp h3⟩
    · simp [h1, h2] at h
  · simp [h1] at h

theorem admitPrincipal_error (h : admitPrincipal st prin req now = (.error e, st')) :
    st' = pruneWindows st prin.keyId now := by
  unfold admitPrincipal at h
  simp only at h
  split_ifs at h
  · exact (Prod.mk.inj h).2.symm
  · exact (Prod.mk.inj h).2.symm
  · exact (Prod.mk.inj h).2.symm
  · split at h
    · simp at h
    · split at h
      · exact (Prod.mk.inj h).2.symm
      · simp at h

/-- A granted admission: the key is charged one request, one unit of concurrency and its token
    reservation, and every configured limit had room for the charge. -/
theorem admitPrincipal_ok (h : admitPrincipal st prin req now = (.ok (), st')) :
    ∃ reserved : Table ApiKeyId ℕ,
      st' = { pruneWindows st prin.keyId now with
        requestWindows := (pruneWindows st prin.keyId now).requestWindows.insert
          prin.keyId (prunedRequests st prin.keyId now ++ [now])
        principalActive := st.principalActive.insert prin.keyId
          (st.principalActive.amount prin.keyId + 1)
        principalReservedTokens := reserved } ∧
      (∀ k, reserved.amount k = st.principalReservedTokens.amount k +
        if k = prin.keyId then prin.reserves req else 0) ∧
      (∀ limit ∈ prin.limits.requestsPerMinute,
        (prunedRequests st prin.keyId now).length < limit.1) ∧
      (∀ limit ∈ prin.limits.concurrency, st.principalActive.amount prin.keyId < limit.1) ∧
      (∀ limit ∈ prin.limits.tokensPerMinute,
        sumU64 ((prunedTokens st prin.keyId now).map Prod.snd) +
          st.principalReservedTokens.amount prin.keyId + req.tokenDemand ≤
            limit.1) := by
  unfold admitPrincipal at h
  simp only at h
  split_ifs at h with hcon hrqs hccy <;> try cases (Prod.mk.inj h).1
  simp only [Option.any_eq_true, decide_eq_true_eq, not_exists, not_and, not_le] at hrqs hccy
  split at h
  · rename_i hlim
    refine ⟨st.principalReservedTokens, (Prod.mk.inj h).2.symm, ?_, hrqs, hccy, ?_⟩
    · intro k
      simp [GatewayPrincipal.reserves, hlim]
    · simp [hlim]
  · rename_i limit hlim
    split at h
    · simp at h
    · rename_i total htot
      obtain ⟨rfl, hfits⟩ := reserveTokens_eq_some htot
      refine ⟨_, (Prod.mk.inj h).2.symm, ?_, hrqs, hccy, ?_⟩
      · intro k
        rw [Table.amount_insert]
        split_ifs with hk
        · simp [hk, GatewayPrincipal.reserves, hlim]
        · rfl
      · intro other hoth
        obtain rfl : limit = other := by simpa [hlim] using hoth
        exact hfits

end Limits

/-! ### Route selection -/

def isRoutable (state : GatewayState) (now : ℕ) (route : GatewayRoute) : Bool :=
  match state.unavailableUntil.lookup route.placementGroupId with
  | none => true
  | some deadline => deadline ≤ now

def hasCapacity (state : GatewayState) (route : GatewayRoute) : Bool :=
  state.routeActive.amount route.placementGroupId < route.maxActiveRequests.1

/-- The placement group learned for the request's prefix, while its deadline lasts. -/
def affinityOf (state : GatewayState) (request : GatewayRequest) (now : ℕ) :
    Option PlacementGroupId :=
  request.prefixKey.bind fun prefixKey =>
    (state.prefixAffinity.find? fun entry =>
      entry.model = request.model ∧ entry.prefixKey = prefixKey).bind fun entry =>
        if now < entry.deadline then some entry.placementGroupId else none

def hasPrefix (request : GatewayRequest) (affinity : Option PlacementGroupId)
    (route : GatewayRoute) : Bool :=
  match request.prefixKey with
  | none => false
  | some prefixKey => prefixKey ∈ route.prefixKeys ∨ affinity = some route.placementGroupId

/-- The comparison routes are sorted by: prefix locality, then normalized load, then temperature,
    then node identity. -/
def compareRoutes (state : GatewayState) (request : GatewayRequest)
    (affinity : Option PlacementGroupId) (left right : GatewayRoute) : Ordering :=
  (compare (!hasPrefix request affinity left) (!hasPrefix request affinity right)).then <|
  (compare (state.routeActive.amount left.placementGroupId * right.maxActiveRequests.1)
    (state.routeActive.amount right.placementGroupId * left.maxActiveRequests.1)).then <|
  (compare (left.temperatureMillicelsius.getD (2 ^ 32 - 1))
    (right.temperatureMillicelsius.getD (2 ^ 32 - 1))).then <|
  compare left.endpointNodeId.value right.endpointNodeId.value

/-- Selects one deterministic healthy compatible route or reports current capacity pressure. -/
def selectRoute (state : GatewayState) (request : GatewayRequest) (routes : List GatewayRoute)
    (now : ℕ) : Except GatewayError RouteSelection :=
  let healthy := routes.filter fun route => route.healthy && !route.memoryPressure
  let compatible := healthy.filter fun route => request.tokenDemand ≤ route.maxContextTokens.1
  let routable := compatible.filter (isRoutable state now)
  let available := routable.filter (hasCapacity state)
  if healthy = [] then .error .noRoute
  else if compatible = [] then .error .contextTooLarge
  else if routable = [] then .error .noRoute
  else
    let affinity := affinityOf state request now
    match available.insertionSort fun left right =>
        compareRoutes state request affinity left right ≠ .gt with
    | [] => .ok .busy
    | route :: _ => .ok (.selected route)

/-- Applies one bounded exponential cooldown after a backend failure. -/
def markRouteFailure (state : GatewayState) (placementGroupId : PlacementGroupId) (now : ℕ) :
    GatewayState :=
  let failures := min (state.failureCounts.amount placementGroupId + 1) maxBackendFailures
  let cooldown := min (2 ^ min (failures - 1) 16 * 1000) maxBackendCooldownMilliseconds
  { state with
    failureCounts := state.failureCounts.insert placementGroupId failures
    unavailableUntil := state.unavailableUntil.insert placementGroupId
      (saturatingAdd now cooldown) }

/-- Clears one route's failure history after a completed request. -/
def markRouteSuccess (state : GatewayState) (placementGroupId : PlacementGroupId) :
    GatewayState :=
  { state with
    failureCounts := state.failureCounts.erase placementGroupId
    unavailableUntil := state.unavailableUntil.erase placementGroupId }

/-- The order of eviction between learned prefix routes: deadline, then key. -/
def PrefixAffinity.older (left right : PrefixAffinity) : Bool :=
  ((compare left.deadline right.deadline).then <|
    (compare left.model.value right.model.value).then <|
    compare left.prefixKey.value right.prefixKey.value) ≠ .gt

def oldestAffinity : List PrefixAffinity → Option PrefixAffinity
  | [] => none
  | entry :: entries =>
    match oldestAffinity entries with
    | none => some entry
    | some best => if entry.older best then some entry else some best

/-- The loop that drops the oldest entries while there are too many; each round removes one. -/
def boundAffinity : ℕ → List PrefixAffinity → List PrefixAffinity
  | 0, entries => entries
  | fuel + 1, entries =>
    if entries.length ≤ maxPrefixAffinityEntries then entries
    else
      match oldestAffinity entries with
      | none => entries
      | some oldest => boundAffinity fuel (entries.erase oldest)

/-- Records one learned prefix route while expiring and bounding prior entries. -/
def recordPrefixAffinity (state : GatewayState) (model : LogicalModelName)
    (prefixKey : Sha256Digest) (placementGroupId : PlacementGroupId) (now : ℕ) : GatewayState :=
  let live := state.prefixAffinity.filter fun entry => now < entry.deadline
  let others := live.filter fun entry => ¬(entry.model = model ∧ entry.prefixKey = prefixKey)
  let entries :=
    ⟨model, prefixKey, placementGroupId, saturatingAdd now prefixAffinityMilliseconds⟩ :: others
  { state with prefixAffinity := boundAffinity entries.length entries }

/-! ### Reservations -/

def QueuedRequest.waited (queued : QueuedRequest) (now : ℕ) : ℕ :=
  saturatingAdd queued.queuedMilliseconds (now - queued.enqueuedAt)

/-- Converts one waiting request into route and active-request ownership. -/
def reserveRoute (state : GatewayState) (queued : QueuedRequest) (route : GatewayRoute)
    (now : ℕ) : Except GatewayError GatewayReservation × GatewayState :=
  let requestId := queued.request.requestId
  let known := state.activeRequests.lookup requestId
  let state : GatewayState :=
    { state with
      activeRequests := state.activeRequests.insert requestId route.placementGroupId }
  if known.isSome then (.error .duplicateRequest, state)
  else
    let state : GatewayState :=
      { state with
        routeActive := state.routeActive.insert route.placementGroupId
          (state.routeActive.amount route.placementGroupId + 1)
        telemetry :=
          if queued.wasAdmitted then state.telemetry else state.telemetry.recordAdmitted route }
    (.ok
      { request := queued.request
        route := route
        principal := queued.principal
        receivedAt := queued.receivedAt
        queuedMilliseconds := queued.waited now
        reservedTokens := queued.reservedTokens }, state)

def removeQueuedRequest (state : GatewayState) (requestId : Sha256Digest) :
    Except GatewayError QueuedRequest × GatewayState :=
  match state.queued.lookup requestId with
  | none => (.error .requestNotFound, state)
  | some queued =>
    (.ok queued,
      { state with
        queued := state.queued.erase requestId
        queueOrder := state.queueOrder.filter fun candidate => candidate ≠ requestId })

/-- Appends one request to the FIFO queue. -/
def enqueue (state : GatewayState) (queued : QueuedRequest) : GatewayState :=
  { state with
    queueOrder := state.queueOrder ++ [queued.request.requestId]
    queued := state.queued.insert queued.request.requestId queued }

/-- Releases one exact active route reservation and rejects foreign completion. -/
def releaseReservation (state : GatewayState) (reservation : GatewayReservation) :
    Except GatewayError Unit × GatewayState :=
  let requestId := reservation.request.requestId
  let placementGroupId := reservation.route.placementGroupId
  match state.activeRequests.lookup requestId with
  | none => (.error .requestNotFound, state)
  | some observed =>
    let state : GatewayState :=
      { state with activeRequests := state.activeRequests.erase requestId }
    if observed ≠ placementGroupId then (.error .stateUnavailable, state)
    else
      match state.routeActive.lookup placementGroupId with
      | none => (.error .stateUnavailable, state)
      | some active =>
        (.ok (),
          { state with
            routeActive :=
              if active ≤ 1 then state.routeActive.erase placementGroupId
              else state.routeActive.insert placementGroupId (active - 1) })

/-- Releases only live concurrency and token reservations for one authenticated principal. -/
def releasePrincipal (state : GatewayState) (principal : Option GatewayPrincipal)
    (reservedTokens : ℕ) : GatewayState :=
  match principal with
  | none => state
  | some principal =>
    let keyId := principal.keyId
    let active := state.principalActive.amount keyId
    let state : GatewayState :=
      { state with
        principalActive :=
          if active ≤ 1 then state.principalActive.erase keyId
          else state.principalActive.insert keyId (active - 1) }
    if reservedTokens > 0 then
      let reserved := state.principalReservedTokens.amount keyId - reservedTokens
      { state with
        principalReservedTokens :=
          if reserved = 0 then state.principalReservedTokens.erase keyId
          else state.principalReservedTokens.insert keyId reserved }
    else state

/-! ### What releasing a principal does -/

/-- Requests are where they were, and the counters too. -/
structure SamePlaces (state state' : GatewayState) : Prop where
  activeRequests : state'.activeRequests = state.activeRequests
  routeActive : state'.routeActive = state.routeActive
  queueOrder : state'.queueOrder = state.queueOrder
  queued : state'.queued = state.queued
  telemetry : state'.telemetry = state.telemetry

theorem SamePlaces.trans {a b c : GatewayState} (h : SamePlaces a b) (h' : SamePlaces b c) :
    SamePlaces a c where
  activeRequests := h'.activeRequests.trans h.activeRequests
  routeActive := h'.routeActive.trans h.routeActive
  queueOrder := h'.queueOrder.trans h.queueOrder
  queued := h'.queued.trans h.queued
  telemetry := h'.telemetry.trans h.telemetry

section Release

variable (st : GatewayState) (prin : Option GatewayPrincipal) (ts : ℕ)

theorem releasePrincipal_eq :
    releasePrincipal st prin ts =
      { st with
        principalActive := (releasePrincipal st prin ts).principalActive
        principalReservedTokens :=
          (releasePrincipal st prin ts).principalReservedTokens } := by
  unfold releasePrincipal
  cases prin with
  | none => rfl
  | some prin => simp only; split_ifs <;> rfl

theorem releasePrincipal_places : SamePlaces st (releasePrincipal st prin ts) := by
  constructor <;> rw [releasePrincipal_eq]

theorem amount_principalActive_releasePrincipal (k : ApiKeyId) :
    (releasePrincipal st prin ts).principalActive.amount k =
      st.principalActive.amount k - if prin.map (·.keyId) = some k then 1 else 0 := by
  unfold releasePrincipal
  cases prin with
  | none => simp
  | some prin =>
    have hsto := Table.amount_store st.principalActive prin.keyId k
      (n := st.principalActive.amount prin.keyId - 1)
      (p := st.principalActive.amount prin.keyId ≤ 1) (by omega)
    simp only [Option.map_some, Option.some.injEq]
    by_cases hk : k = prin.keyId
    · subst hk
      rw [if_pos rfl] at hsto ⊢
      split_ifs at hsto ⊢ <;> exact hsto
    · rw [if_neg hk] at hsto
      rw [if_neg (Ne.symm hk), Nat.sub_zero]
      split_ifs at hsto ⊢ <;> exact hsto

theorem amount_reservedTokens_releasePrincipal (k : ApiKeyId) :
    (releasePrincipal st prin ts).principalReservedTokens.amount k =
      st.principalReservedTokens.amount k -
        if prin.map (·.keyId) = some k then ts else 0 := by
  unfold releasePrincipal
  cases prin with
  | none => simp
  | some prin =>
    simp only [Option.map_some, Option.some.injEq]
    by_cases htok : ts > 0
    · rw [if_pos htok, Table.amount_store _ _ _ id]
      by_cases hk : k = prin.keyId
      · simp [hk]
      · simp [hk, Ne.symm hk]
    · obtain rfl : ts = 0 := by omega
      simp

end Release

/-! ### What the reservation helpers do -/

section Reservations

variable {st : GatewayState} {qd : QueuedRequest} {r : GatewayReservation}
  {requestId : Sha256Digest}

def QueuedRequest.reserved (queued : QueuedRequest) (route : GatewayRoute) (now : ℕ) :
    GatewayReservation where
  request := queued.request
  route := route
  principal := queued.principal
  receivedAt := queued.receivedAt
  queuedMilliseconds := queued.waited now
  reservedTokens := queued.reservedTokens

/-- The state with a request placed on a route. -/
def occupy (state : GatewayState) (queued : QueuedRequest) (route : GatewayRoute) : GatewayState :=
  { state with
    activeRequests :=
      state.activeRequests.insert queued.request.requestId route.placementGroupId
    routeActive := state.routeActive.insert route.placementGroupId
      (state.routeActive.amount route.placementGroupId + 1)
    telemetry :=
      if queued.wasAdmitted then state.telemetry else state.telemetry.recordAdmitted route }

/-- The state with a reservation off its route. -/
def vacate (state : GatewayState) (reservation : GatewayReservation) : GatewayState :=
  let active := state.routeActive.amount reservation.route.placementGroupId
  { state with
    activeRequests := state.activeRequests.erase reservation.request.requestId
    routeActive :=
      if active ≤ 1 then state.routeActive.erase reservation.route.placementGroupId
      else state.routeActive.insert reservation.route.placementGroupId (active - 1) }

/-- The state with a request off the queue. -/
def unqueue (state : GatewayState) (requestId : Sha256Digest) : GatewayState :=
  { state with
    queued := state.queued.erase requestId
    queueOrder := state.queueOrder.filter fun candidate => candidate ≠ requestId }

theorem reserveRoute_of_new (rt : GatewayRoute) (now : ℕ)
    (h : qd.request.requestId ∉ st.activeRequests) :
    reserveRoute st qd rt now = (.ok (qd.reserved rt now), occupy st qd rt) := by
  have hno := Finmap.lookup_eq_none.mpr h
  simp [reserveRoute, hno, QueuedRequest.reserved, occupy]

theorem releaseReservation_of_owned (hact : st.activeRequests.lookup r.request.requestId =
      some r.route.placementGroupId) (hslot : 0 < st.routeActive.amount r.route.placementGroupId) :
    releaseReservation st r = (.ok (), vacate st r) := by
  simp [releaseReservation, hact, Table.lookup_of_amount_pos hslot, vacate]

theorem removeQueuedRequest_of_lookup (h : st.queued.lookup requestId = some qd) :
    removeQueuedRequest st requestId = (.ok qd, unqueue st requestId) := by
  rw [removeQueuedRequest, h]
  rfl

end Reservations

end LetsInfer.Gateway
