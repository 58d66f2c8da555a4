import LetsInfer.Gateway.System

/-! @src core/gateway/src/li_gateway_manager.rs | name:Capacity and quota accounting | scheme:invariant

    Six maps of the Gateway state move together: active requests, route slots, per-key concurrency,
    per-key token reservations, the queue and its order. The invariant says what each of them must
    be, given the reservations that are out and the requests that wait. Inside a critical section it
    does not hold: a key has been charged for a request that is not placed yet, or a request has
    left its route and still owns its key's quota. Such a request is a *loose* claim, and every
    helper of the section turns one bookkeeping position into another:

        charge     : ⟶ loose          release  : loose ⟶
        place      : loose ⟶ held     unplace  : held ⟶ loose
        enqueue    : loose ⟶ queued   dequeue  : queued ⟶ loose

    A critical section is a path through these arrows that starts and ends with nothing loose. -/

namespace LetsInfer.Gateway
open Schemes List Finmap

/-- What one live request owns of its key: a concurrency unit and a token reservation. -/
structure Claim where
  keyId : Option ApiKeyId
  tokens : ℕ

def Claim.of (principal : Option GatewayPrincipal) (tokens : ℕ) : Claim :=
  ⟨principal.map (·.keyId), tokens⟩

def GatewayReservation.claim (reservation : GatewayReservation) : Claim :=
  .of reservation.principal reservation.reservedTokens

def QueuedRequest.claim (queued : QueuedRequest) : Claim :=
  .of queued.principal queued.reservedTokens

def Claim.count (k : ApiKeyId) (c : Claim) : ℕ := if c.keyId = some k then 1 else 0

def Claim.load (k : ApiKeyId) (c : Claim) : ℕ := if c.keyId = some k then c.tokens else 0

/-- The six maps that account for live requests. -/
structure Live where
  routeActive : Table PlacementGroupId ℕ
  activeRequests : Table Sha256Digest PlacementGroupId
  principalActive : Table ApiKeyId ℕ
  principalReservedTokens : Table ApiKeyId ℕ
  queueOrder : List Sha256Digest
  queued : Table Sha256Digest QueuedRequest

def GatewayState.live (state : GatewayState) : Live where
  routeActive := state.routeActive
  activeRequests := state.activeRequests
  principalActive := state.principalActive
  principalReservedTokens := state.principalReservedTokens
  queueOrder := state.queueOrder
  queued := state.queued

def activeOn (active : Table Sha256Digest PlacementGroupId) (g : PlacementGroupId) : ℕ :=
  active.total fun _ g' => if g' = g then 1 else 0

/-- The accounting invariant, with the reservations that are out and the loose claims. -/
structure Accounted (live : Live) (held : List GatewayReservation) (loose : List Claim) :
    Prop where
  routes : ∀ g, live.routeActive.amount g = activeOn live.activeRequests g
  active : ∀ id g, live.activeRequests.lookup id = some g ↔
    ∃ r ∈ held, r.request.requestId = id ∧ r.route.placementGroupId = g
  identities : (held.map (·.request.requestId)).Nodup
  principals : ∀ k, live.principalActive.amount k =
    (held.map (·.claim.count k)).sum + live.queued.total (fun _ q => q.claim.count k) +
      (loose.map (·.count k)).sum
  tokens : ∀ k, live.principalReservedTokens.amount k =
    (held.map (·.claim.load k)).sum + live.queued.total (fun _ q => q.claim.load k) +
      (loose.map (·.load k)).sum
  order : live.queueOrder.Nodup
  listed : ∀ id, id ∈ live.queueOrder ↔ id ∈ live.queued
  named : ∀ id q, live.queued.lookup id = some q → q.request.requestId = id
  apart : ∀ id, id ∈ live.activeRequests → id ∉ live.queued
  bounded : live.queued.size ≤ maxQueuedRequests

/-- An identity that is neither active nor queued. -/
def Live.Free (live : Live) (id : Sha256Digest) : Prop :=
  id ∉ live.activeRequests ∧ id ∉ live.queued

namespace Accounted

variable {live : Live} {held : List GatewayReservation} {loose : List Claim}

theorem empty : Accounted ({} : GatewayState).live [] [] where
  routes _ := rfl
  active id g := by simp [GatewayState.live]
  identities := by simp
  principals _ := rfl
  tokens _ := rfl
  order := by simp [GatewayState.live]
  listed id := by simp [GatewayState.live, notMem_empty]
  named id q h := by simp [GatewayState.live] at h
  apart id h := by simp [GatewayState.live, notMem_empty] at h
  bounded := by simp [GatewayState.live]

/-! ### The arrows -/

variable {st : GatewayState} {qd : QueuedRequest} {res : GatewayReservation}

/-- CHARGE: a granted admission makes the key's charge loose. -/
theorem charge {st' : GatewayState} {p : GatewayPrincipal} {req : GatewayRequest} {now : ℕ}
    (h : Accounted st.live held loose) (hok : admitPrincipal st p req now = (.ok (), st')) :
    Accounted st'.live held (.of (some p) (p.reserves req) :: loose) := by
  obtain ⟨reserved, rfl, hrsv, -⟩ := admitPrincipal_ok hok
  refine { h with principals := fun k => ?_, tokens := fun k => ?_ }
  · have hk := h.principals k
    simp only [GatewayState.live] at hk ⊢
    rw [Table.amount_insert, map_cons, sum_cons, Claim.count, Claim.of]
    by_cases hkey : k = p.keyId
    · subst hkey
      simp only [Option.map_some, if_true, pruneWindows]
      omega
    · have : p.keyId ≠ k := fun h => hkey h.symm
      simp only [hkey, if_false, Option.map_some, Option.some.injEq, this, pruneWindows]
      omega
  · have hk := h.tokens k
    simp only [GatewayState.live] at hk ⊢
    rw [hrsv, map_cons, sum_cons, Claim.load, Claim.of]
    by_cases hkey : k = p.keyId
    · subst hkey
      simp only [Option.map_some, if_true, pruneWindows]
      omega
    · have : p.keyId ≠ k := fun h => hkey h.symm
      simp only [hkey, if_false, Option.map_some, Option.some.injEq, this, pruneWindows]
      omega

/-- RELEASE: a loose claim is given back, and nothing saturates. -/
theorem release {p : Option GatewayPrincipal} {ts : ℕ}
    (h : Accounted st.live held (.of p ts :: loose)) :
    Accounted (releasePrincipal st p ts).live held loose := by
  rw [releasePrincipal_eq]
  refine { h with principals := fun k => ?_, tokens := fun k => ?_ }
  · have hk := h.principals k
    rw [map_cons, sum_cons] at hk
    refine (amount_principalActive_releasePrincipal st p ts k).trans ?_
    change st.live.principalActive.amount k - (Claim.of p ts).count k =
      _ + st.live.queued.total _ + _
    omega
  · have hk := h.tokens k
    rw [map_cons, sum_cons] at hk
    refine (amount_reservedTokens_releasePrincipal st p ts k).trans ?_
    change st.live.principalReservedTokens.amount k - (Claim.of p ts).load k =
      _ + st.live.queued.total _ + _
    omega

/-- PLACE: a loose request with a free identity takes a route; the identity is never known. -/
theorem place (rt : GatewayRoute) (now : ℕ) (h : Accounted st.live held (qd.claim :: loose))
    (hfree : st.live.Free qd.request.requestId) :
    Accounted (occupy st qd rt).live (qd.reserved rt now :: held) loose := by
  have hfrh : qd.request.requestId ∉ st.activeRequests := hfree.1
  have hunh : ∀ r ∈ held, r.request.requestId ≠ qd.request.requestId := by
    intro r hr hid
    have hact := (h.active _ _).mpr ⟨r, hr, hid, rfl⟩
    exact hfree.1 (mem_of_lookup_eq_some hact)
  refine { h with
    routes := fun g => ?_, active := fun id g => ?_, identities := ?_,
    principals := fun k => ?_, tokens := fun k => ?_, apart := fun id hid => ?_ }
  · have hg := h.routes g
    simp only [GatewayState.live, activeOn, occupy] at hg ⊢
    rw [Table.amount_insert, Table.total_insert _ _ hfrh]
    by_cases hgro : g = rt.placementGroupId
    · rw [if_pos hgro, if_pos hgro.symm, ← hg, hgro, Nat.add_comm]
    · rw [if_neg hgro, if_neg (Ne.symm hgro), hg, Nat.zero_add]
  · simp only [GatewayState.live, occupy, Table.lookup_insert_ite, exists_mem_cons_iff,
      QueuedRequest.reserved]
    by_cases hid : id = qd.request.requestId
    · subst hid
      simp only [if_true, Option.some.injEq, true_and]
      refine ⟨Or.inl, fun h => h.resolve_right ?_⟩
      rintro ⟨r, hr, hid, -⟩
      exact hunh r hr hid
    · have : qd.request.requestId ≠ id := Ne.symm hid
      simp only [if_neg hid, this, false_and, false_or]
      exact h.active id g
  · rw [map_cons, nodup_cons]
    refine ⟨fun hmem => ?_, h.identities⟩
    obtain ⟨r, hr, hid⟩ := mem_map.mp hmem
    exact hunh r hr hid
  · have hk := h.principals k
    simp only [map_cons, sum_cons] at hk ⊢
    change st.live.principalActive.amount k = qd.claim.count k + _ + st.live.queued.total _ + _
    omega
  · have hk := h.tokens k
    simp only [map_cons, sum_cons] at hk ⊢
    change st.live.principalReservedTokens.amount k =
      qd.claim.load k + _ + st.live.queued.total _ + _
    omega
  · rcases mem_insert.mp hid with rfl | hid
    · exact hfree.2
    · exact h.apart id hid

/-- ENQUEUE: a loose request with a free identity joins the queue while there is room. -/
theorem enqueue (h : Accounted st.live held (qd.claim :: loose))
    (hfree : st.live.Free qd.request.requestId) (hroom : st.queued.size < maxQueuedRequests) :
    Accounted (Gateway.enqueue st qd).live held loose := by
  have hnew : qd.request.requestId ∉ st.queued := hfree.2
  refine { h with
    principals := fun k => ?_, tokens := fun k => ?_, order := ?_, listed := fun id => ?_,
    named := fun id q hq => ?_, apart := fun id hid => ?_, bounded := ?_ }
  · have hk := h.principals k
    simp only [GatewayState.live, Gateway.enqueue, map_cons, sum_cons] at hk ⊢
    rw [Table.total_insert _ _ hnew]
    omega
  · have hk := h.tokens k
    simp only [GatewayState.live, Gateway.enqueue, map_cons, sum_cons] at hk ⊢
    rw [Table.total_insert _ _ hnew]
    omega
  · refine nodup_append.mpr ⟨h.order, by simp, ?_⟩
    rintro id hid _ hnew' rfl
    rw [List.mem_singleton] at hnew'
    subst hnew'
    exact hnew ((h.listed _).mp hid)
  · simp only [GatewayState.live, Gateway.enqueue, mem_append, List.mem_singleton, mem_insert]
    rw [or_comm]
    exact or_congr_right (h.listed id)
  · simp only [GatewayState.live, Gateway.enqueue, Table.lookup_insert_ite] at hq
    split_ifs at hq with hid
    · rw [← Option.some.inj hq, hid]
    · exact h.named id q hq
  · rintro hmem
    rcases mem_insert.mp hmem with rfl | hmem
    · exact hfree.1 hid
    · exact h.apart id hid hmem
  · simp only [GatewayState.live, Gateway.enqueue]
    rw [Table.size_insert _ hnew]
    omega

/-- DEQUEUE: a waiting request leaves the queue and is loose, its identity free. -/
theorem dequeue {id : Sha256Digest} (h : Accounted st.live held loose)
    (hq : st.queued.lookup id = some qd) :
    Accounted (unqueue st id).live held (qd.claim :: loose) ∧
      (unqueue st id).live.Free qd.request.requestId := by
  have hid : qd.request.requestId = id := h.named id qd hq
  refine ⟨{ h with
    principals := fun k => ?_, tokens := fun k => ?_, order := h.order.filter _,
    listed := fun x => ?_, named := fun x q hx => ?_, apart := fun x hx hmem => ?_,
    bounded := ?_ }, ?_⟩
  · have hk := h.principals k
    simp only [GatewayState.live, unqueue, map_cons, sum_cons] at hk ⊢
    rw [Table.total_erase _ hq] at hk
    omega
  · have hk := h.tokens k
    simp only [GatewayState.live, unqueue, map_cons, sum_cons] at hk ⊢
    rw [Table.total_erase _ hq] at hk
    omega
  · simp only [GatewayState.live, unqueue, mem_filter, mem_erase, decide_eq_true_eq]
    rw [and_comm]
    exact and_congr_right fun _ => h.listed x
  · exact h.named x q (Table.lookup_of_erase hx)
  · exact h.apart x hx (mem_erase.mp hmem).2
  · have hsize := h.bounded
    simp only [GatewayState.live, unqueue] at hsize ⊢
    rw [Table.size_erase hq] at hsize
    omega
  · rw [hid]
    refine ⟨fun hact => h.apart id hact (mem_of_lookup_eq_some hq), ?_⟩
    exact notMem_erase_self

theorem mem_erase_iff (h : Accounted live held loose) {r : GatewayReservation} (hmem : res ∈ held) :
    r ∈ held.erase res ↔ r ∈ held ∧ r.request.requestId ≠ res.request.requestId := by
  rw [h.identities.of_map.mem_erase_iff, and_comm]
  refine and_congr_right fun hr => not_congr ⟨fun heq => heq ▸ rfl, fun hid => ?_⟩
  exact inj_on_of_nodup_map h.identities hr hmem hid

section

variable (h : Accounted st.live held loose)
include h

/-- A reservation that is out owns its active entry. -/
theorem owned (hmem : res ∈ held) :
    st.activeRequests.lookup res.request.requestId = some res.route.placementGroupId :=
  (h.active _ _).mpr ⟨_, hmem, rfl, rfl⟩

/-- A reservation that is out is counted by its route. -/
theorem slot (hmem : res ∈ held) : 0 < st.routeActive.amount res.route.placementGroupId := by
  have hle := Table.le_total
    (fun _ g => if g = res.route.placementGroupId then 1 else 0) (h.owned hmem)
  rw [if_pos rfl] at hle
  exact lt_of_lt_of_eq hle (h.routes _).symm

/-- UNPLACE: a reservation that is out leaves its route and is loose, its identity free. -/
theorem unplace (hmem : res ∈ held) :
    Accounted (vacate st res).live (held.erase res) (res.claim :: loose) ∧
      (vacate st res).live.Free res.request.requestId := by
  have hact := h.owned hmem
  have hsum (g : PlacementGroupId) : activeOn st.activeRequests g =
      (if res.route.placementGroupId = g then 1 else 0) +
        activeOn (st.activeRequests.erase res.request.requestId) g :=
    Table.total_erase _ hact
  refine ⟨{ h with
    routes := fun g => ?_, active := fun id g => ?_, identities := ?_,
    principals := fun k => ?_, tokens := fun k => ?_, apart := fun id hid => ?_ }, ?_⟩
  · refine (Table.amount_store _ _ _ (by omega)).trans ?_
    change _ = activeOn (st.activeRequests.erase res.request.requestId) g
    have hg := hsum g
    have hrou : st.routeActive.amount g = activeOn st.activeRequests g := h.routes g
    by_cases hgro : g = res.route.placementGroupId
    · subst hgro
      rw [if_pos rfl, hrou, hg, if_pos rfl, Nat.add_sub_cancel_left]
    · rw [if_neg (Ne.symm hgro), Nat.zero_add] at hg
      rw [if_neg hgro, hrou, hg]
  · simp only [GatewayState.live, vacate, Table.lookup_erase_ite, h.mem_erase_iff hmem]
    split_ifs with hid
    · subst hid
      simp only [false_iff]
      rintro ⟨r, ⟨-, hne⟩, heq, -⟩
      exact hne heq
    · refine (h.active id g).trans ⟨?_, ?_⟩
      · rintro ⟨r, hr, rfl, hgro⟩
        exact ⟨r, ⟨hr, hid⟩, rfl, hgro⟩
      · rintro ⟨r, ⟨hr, -⟩, hid', hgro⟩
        exact ⟨r, hr, hid', hgro⟩
  · exact h.identities.sublist (erase_sublist.map _)
  · have hk := h.principals k
    rw [← sum_map_erase _ hmem] at hk
    simp only [GatewayState.live, vacate, map_cons, sum_cons] at hk ⊢
    omega
  · have hk := h.tokens k
    rw [← sum_map_erase _ hmem] at hk
    simp only [GatewayState.live, vacate, map_cons, sum_cons] at hk ⊢
    omega
  · exact h.apart id (mem_erase.mp hid).2
  · exact ⟨notMem_erase_self, h.apart _ (mem_of_lookup_eq_some hact)⟩

end

end Accounted

end LetsInfer.Gateway
