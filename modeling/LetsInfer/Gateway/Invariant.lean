import LetsInfer.Gateway.Sections

/-! @src core/gateway/src/li_gateway_manager.rs | name:Accounting along every run | scheme:invariant

    Every move keeps the accounts, so they are in order in every state of every run, from any
    database. What the operations rely on follows: each reservation that is out can be released,
    each placement finds a free identity, and no release takes more than was charged. -/

namespace LetsInfer.Gateway
open Schemes List

variable {mode : GatewayMode} {s t : Sys} {a : Label} {o : Output}

/-- The accounts of a system between two steps: nothing is loose. -/
def InOrder (s : Sys) : Prop := Accounted s.state.live s.held []

section

variable (st : GatewayState)
include st

theorem queued_dropQueued (q : QueuedRequest) (now : ℕ) :
    (dropQueued st q now).queued = st.queued :=
  (releasePrincipal_places ..).queued

theorem queued_cancelQueued (q : QueuedRequest) (now : ℕ) :
    (cancelQueued st q now).queued = st.queued :=
  (releasePrincipal_places ..).queued

section

variable (r : GatewayReservation)
include r

theorem queued_cancelReleased (timing : GatewayTelemetryTiming) :
    (cancelReleased (vacate st r) r timing).queued = st.queued :=
  (releasePrincipal_places ..).queued

theorem queued_failReleased
    (now : Except GatewayError UnixMilliseconds) (timing : GatewayTelemetryTiming) :
    (failReleased (cooled (vacate st r) r.route.placementGroupId now)
      r timing).queued = st.queued :=
  (failed_places st r now).queued

theorem queued_completed (fin : Except GatewayError UnixMilliseconds) (comp : Completion) :
    (completed st r fin comp).queued = st.queued :=
  (completed_places st r fin comp).queued

end

end

namespace Moves

section

variable (h : Moves mode s a t o)
include h

/-- Where a waiter comes from: it was waiting, or a call or a retry queued it. -/
theorem queued_from {id : Sha256Digest} {q : QueuedRequest}
    (hq : t.state.queued.lookup id = some q) : s.state.queued.lookup id = some q ∨
    (∃ n req arr rct, s.admissions.lookup n = some ⟨req, .fetched arr rct⟩ ∧
      q = arr.queuedRequest) ∨
    ∃ r ∈ s.held, ∃ now, q = r.requeued now := by
  cases h with
  | receive | prepare | fetch | recordFailure | pollMiss | pollRead | pollIdle | recordMiss
  | record | snapshotMiss | snapshot | cancelQueueFail | failQueueFail => exact .inl hq
  | refuse hcall hpol | admitted hcall hpol => exact .inl ((admitPolicy_places hpol).queued ▸ hq)
  | @dismiss call req arr rct e chg hcall hpol =>
    have hpl := (admitPolicy_places hpol).trans
      (releasePrincipal_places chg arr.principal arr.reservedTokens)
    exact .inl (hpl.queued ▸ hq)
  | enqueue hcall hpol =>
    rcases Table.insert_cases rfl hq with ⟨-, rfl⟩ | ⟨-, hq⟩
    · exact .inr (.inl ⟨_, _, _, _, hcall, rfl⟩)
    · exact .inl ((admitPolicy_places hpol).queued ▸ hq)
  | pollExpire | failQueue => exact .inl (Table.lookup_of_erase (queued_dropQueued .. ▸ hq))
  | cancelQueue => exact .inl (Table.lookup_of_erase (queued_cancelQueued .. ▸ hq))
  | pollAdmit => exact .inl (Table.lookup_of_erase hq)
  | complete => exact .inl (queued_completed .. ▸ hq)
  | cancel => exact .inl (queued_cancelReleased .. ▸ hq)
  | retryFail | fail => exact .inl (queued_failReleased .. ▸ hq)
  | retryAdmit hmem hcool =>
    subst hcool
    exact .inl hq
  | retryEnqueue hmem hcool =>
    subst hcool
    rcases Table.insert_cases rfl hq with ⟨-, rfl⟩ | ⟨-, hq⟩
    · exact .inr (.inr ⟨_, hmem, _, rfl⟩)
    · exact .inl hq
  | restart => cases hq

/-- Where a reservation comes from: it was out, or a call, a poll or a retry got it. -/
theorem held_from {r : GatewayReservation} (hr : r ∈ t.held) : r ∈ s.held ∨
    (∃ n req arr rct rt,
      s.admissions.lookup n = some ⟨req, .fetched arr rct⟩ ∧
      r = arr.queuedRequest.reserved rt arr.now) ∨
    (∃ poll rts safety q rt, a = .pollCommit poll rts safety ∧
      s.state.queued.lookup poll.requestId = some q ∧ o = .polled (.ok (.admitted r)) ∧
      r = q.reserved rt poll.now) ∨
    ∃ r' ∈ s.held, ∃ rt now, r = (r'.requeued now).reserved rt now := by
  cases h with
  | admitted hcall =>
    rcases mem_cons.mp hr with rfl | hr
    · exact .inr (.inl ⟨_, _, _, _, _, hcall, rfl⟩)
    · exact .inl hr
  | pollAdmit hpoll hq =>
    rcases mem_cons.mp hr with rfl | hr
    · exact .inr (.inr (.inl ⟨_, _, _, _, _, rfl, hq, rfl, rfl⟩))
    · exact .inl hr
  | retryAdmit hmem =>
    rcases mem_cons.mp hr with rfl | hr
    · exact .inr (.inr (.inr ⟨_, hmem, _, _, rfl⟩))
    · exact .inl (mem_of_mem_erase hr)
  | complete | cancel | retryFail | fail | retryEnqueue => exact .inl (mem_of_mem_erase hr)
  | restart => cases hr
  | _ => exact .inl hr

/-- STEP: every move keeps the accounts. -/
theorem inOrder (hacc : InOrder s) : InOrder t := by
  cases h with
  | receive | prepare | fetch | recordFailure | pollMiss | pollRead | pollIdle | recordMiss
  | record | snapshotMiss | snapshot | cancelQueueFail | failQueueFail => exact hacc
  | refuse hcall hpol =>
    unfold InOrder at hacc ⊢
    rwa [← (admitPolicy_error hpol).1] at hacc
  | dismiss hcall hpol => exact (hacc.policy hpol).1.release
  | admitted hcall hpol hsel =>
    obtain ⟨hcha, hfree⟩ := hacc.policy hpol
    exact hcha.place _ _ hfree
  | enqueue hcall hpol hroom =>
    obtain ⟨hcha, hfree⟩ := hacc.policy hpol
    exact hcha.enqueue hfree hroom
  | pollExpire hpoll hq | cancelQueue hq | failQueue hq => exact (hacc.dequeue hq).1.release
  | pollAdmit hpoll hq hfst =>
    obtain ⟨hloo, hfree⟩ := hacc.dequeue hq
    exact hloo.place _ _ hfree
  | @complete r fin comp hmem =>
    have hloo := (hacc.unplace hmem).1
    rw [← live_completeRoute fin] at hloo
    unfold InOrder
    rw [live_completed]
    exact hloo.release
  | cancel hmem => exact (hacc.unplace hmem).1.release
  | @retryFail r now rts safety e hmem | @fail r now timing hmem =>
    have hloo := (hacc.unplace hmem).1
    rw [← live_cooled r.route.placementGroupId now] at hloo
    exact hloo.release
  | @retryAdmit r now rts safety cool rt hmem hcool =>
    obtain ⟨hloo, hfree⟩ := hacc.unplace hmem
    subst hcool
    have hreq : Accounted _ _ [(r.requeued now).claim] := hloo
    exact hreq.place rt now hfree
  | @retryEnqueue r now rts safety cool hmem hcool hroom =>
    obtain ⟨hloo, hfree⟩ := hacc.unplace hmem
    subst hcool
    have hreq : Accounted _ _ [(r.requeued now).claim] := hloo
    exact hreq.enqueue hfree hroom
  | restart => exact .empty

end

end Moves

/-- RUN: the accounts are in order in every state of every run. -/
theorem inOrder_of_run {db : UsageDatabase} {tr : List (Sys × Label × Output)}
    (h : Run (step mode) { usage := db } tr s) : InOrder s :=
  h.invariant InOrder .empty fun _ _ _ _ hacc hst => (step_moves hacc hst).inOrder hacc

def Sys.liveCount (s : Sys) (k : ApiKeyId) : ℕ :=
  (s.held.map (·.claim.count k)).sum + s.state.queued.total fun _ q => q.claim.count k

def Sys.liveTokens (s : Sys) (k : ApiKeyId) : ℕ :=
  (s.held.map (·.claim.load k)).sum + s.state.queued.total fun _ q => q.claim.load k

/-- The six maps agree with each other and with the reservations that are out. -/
structure Consistent (s : Sys) : Prop where
  routes : ∀ g, s.state.routeActive.amount g = activeOn s.state.activeRequests g
  holders : ∀ id g, s.state.activeRequests.lookup id = some g ↔
    ∃ r ∈ s.held, r.request.requestId = id ∧ r.route.placementGroupId = g
  holders_nodup : (s.held.map (·.request.requestId)).Nodup
  principals : ∀ k, s.state.principalActive.amount k = s.liveCount k
  tokens : ∀ k, s.state.principalReservedTokens.amount k = s.liveTokens k
  order_nodup : s.state.queueOrder.Nodup
  order_mem : ∀ id, id ∈ s.state.queueOrder ↔ id ∈ s.state.queued
  apart : ∀ id, id ∈ s.state.activeRequests → id ∉ s.state.queued
  bounded : s.state.queued.size ≤ 1024

/-- A state gives a claim back without saturating. -/
def Covers (state : GatewayState) (c : Claim) : Prop :=
  ∀ k, c.count k ≤ state.principalActive.amount k ∧
    c.load k ≤ state.principalReservedTokens.amount k

/-- No release fails or saturates, and no placement meets a known identity: at each call site of
    `release_reservation`, `release_principal` and `reserve_route`. -/
structure Unfailing (s : Sys) : Prop where
  releases : ∀ r ∈ s.held, ∃ state', releaseReservation s.state r = (.ok (), state')
  slots : ∀ r ∈ s.held, 1 ≤ s.state.routeActive.amount r.route.placementGroupId
  held_covered : ∀ r ∈ s.held, Covers s.state r.claim
  queued_covered : ∀ id q, s.state.queued.lookup id = some q → Covers s.state q.claim
  charge_covered : ∀ arrival recent charged,
    admitPolicy s.state arrival recent = (.ok (), charged) →
      Covers charged arrival.queuedRequest.claim
  admits : ∀ arrival recent charged, admitPolicy s.state arrival recent = (.ok (), charged) →
    ∀ route now, ∃ r state',
      reserveRoute charged arrival.queuedRequest route now = (.ok r, state')
  polls : ∀ id queued dequeued, removeQueuedRequest s.state id = (.ok queued, dequeued) →
    ∀ route now, ∃ r state', reserveRoute dequeued queued route now = (.ok r, state')
  retries : ∀ r ∈ s.held, ∀ vacated, releaseReservation s.state r = (.ok (), vacated) →
    ∀ route now, ∃ r' state',
      reserveRoute (markRouteFailure vacated r.route.placementGroupId now) (r.requeued now) route
        now = (.ok r', state')

theorem InOrder.consistent (h : InOrder s) : Consistent s where
  routes := h.routes
  holders := h.active
  holders_nodup := h.identities
  principals := h.principals
  tokens := h.tokens
  order_nodup := h.order
  order_mem := h.listed
  apart := h.apart
  bounded := h.bounded

section Covered

variable {st : GatewayState} {held : List GatewayReservation} {loose : List Claim}

theorem Accounted.covers_held (h : Accounted st.live held loose) {r : GatewayReservation}
    (hmem : r ∈ held) : Covers st r.claim := by
  intro k
  have hcnt := h.principals k
  have hload := h.tokens k
  rw [← sum_map_erase _ hmem] at hcnt hload
  simp only [GatewayState.live] at hcnt hload
  omega

theorem Accounted.covers_queued (h : Accounted st.live held loose) {id : Sha256Digest}
    {q : QueuedRequest} (hq : st.queued.lookup id = some q) : Covers st q.claim := by
  intro k
  have hcnt := h.principals k
  have hload := h.tokens k
  simp only [GatewayState.live] at hcnt hload
  rw [Table.total_erase _ hq] at hcnt hload
  omega

theorem Accounted.covers_loose {c : Claim} (h : Accounted st.live held (c :: loose)) :
    Covers st c := by
  intro k
  have hcnt := h.principals k
  have hload := h.tokens k
  simp only [GatewayState.live, map_cons, sum_cons] at hcnt hload
  omega

end Covered

theorem InOrder.unfailing (h : InOrder s) : Unfailing s where
  releases r hr := ⟨_, releaseReservation_of_held h hr⟩
  slots r hr := h.slot hr
  held_covered r hr := h.covers_held hr
  queued_covered id q hq := h.covers_queued hq
  charge_covered arr rct chg hpol := (h.policy hpol).1.covers_loose
  admits arr rct chg hpol rt now :=
    ⟨_, _, reserveRoute_of_new rt now (h.policy hpol).2.1⟩
  polls id qd dequeued hrem rt now := by
    cases hq : s.state.queued.lookup id with
    | none => simp [removeQueuedRequest, hq] at hrem
    | some q =>
      rw [removeQueuedRequest_of_lookup hq] at hrem
      cases hrem
      exact ⟨_, _, reserveRoute_of_new rt now (h.dequeue hq).2.1⟩
  retries r hr vacated hrel rt now := by
    rw [releaseReservation_of_held h hr] at hrel
    cases hrel
    exact ⟨_, _, reserveRoute_of_new rt now (h.unplace hr).2.1⟩

/-- CORRECT: in every state of every run the accounts are consistent and no release or placement
    can go wrong. -/
theorem accounts_hold {db : UsageDatabase} {tr : List (Sys × Label × Output)}
    (h : Run (step mode) { usage := db } tr s) : Consistent s ∧ Unfailing s :=
  ⟨(inOrder_of_run h).consistent, (inOrder_of_run h).unfailing⟩

/-! ### Sample runs -/

/-- A request of one input and one output token that may wait a second. -/
def sampleRequest (id : String) : GatewayRequest where
  requestId := ⟨id⟩
  model := ⟨"m"⟩
  contextTokens := ⟨1, by decide⟩
  maximumOutputTokens := ⟨1, by decide⟩
  prefixKey := none
  maximumQueueMilliseconds := 1000
  queue_bounded := by decide
  demand_fits := by decide

def sampleRoute : GatewayRoute where
  placementGroupId := ⟨"g"⟩
  endpointNodeId := ⟨"node"⟩
  model := ⟨"m"⟩
  target := .localEngine
  maxActiveRequests := ⟨1, by decide⟩
  maxContextTokens := ⟨8, by decide⟩
  healthy := true
  memoryPressure := false
  temperatureMillicelsius := none
  prefixKeys := []
  temperature_bounded := by simp
  prefix_bounded := by decide
  prefix_nodup := by simp

def unlimited : ApiKeyLimits := ⟨none, none, none, none⟩

def samplePrincipal (limits : ApiKeyLimits) : GatewayPrincipal := ⟨⟨"key"⟩, limits⟩

/-- One public admission call from receipt to its admission section, every provider answering. -/
def arriving (call : ℕ) (id : String) (limits : ApiKeyLimits) (now : ℕ) : List Label :=
  [.receive (sampleRequest id),
    .prepare call (.publicMain (.ok (samplePrincipal limits))) (.ok now) (.ok [sampleRoute])
      fun _ => .ok true,
    .fetch call none, .admitSection call]

def sampleReservation (id : String) (limits : ApiKeyLimits) (now : ℕ) : GatewayReservation :=
  (Arrival.queuedRequest ⟨sampleRequest id, some (samplePrincipal limits), now,
    [sampleRoute]⟩).reserved sampleRoute now

def sampleCompletion : Completion := ⟨1, 1, 0, true, ⟨0, 1, 1⟩⟩

def sampleMode : GatewayMode := .main ⟨"node"⟩

/-- A run with one active and one queued request of a key whose accounts are in order. -/
theorem accounts_hold_active_and_queued : ∃ s, s.held.length = 1 ∧ s.state.queued.size = 1 ∧
    Consistent s ∧ Unfailing s := by
  obtain ⟨tr, s, hrun, hheld, hque⟩ := Run.exists_of_exec (step sampleMode) {}
    (arriving 0 "a" unlimited 5 ++ arriving 1 "b" unlimited 6)
    (fun _ s => s.held.length = 1 ∧ s.state.queued.size = 1) (by decide)
  exact ⟨s, hheld, hque, accounts_hold hrun⟩

end LetsInfer.Gateway
