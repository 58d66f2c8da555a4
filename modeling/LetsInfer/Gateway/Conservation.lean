import LetsInfer.Gateway.Ledger

/-! @src core/gateway/src/li_gateway_telemetry.rs | name:Telemetry conservation | scheme:ledger

    Every step of the manager is one of the six turns, so the ledger of a run stays in step with the
    counters: below saturation every received request is open or has ended in exactly one terminal
    counter, whatever the interleaving. -/

namespace LetsInfer.Gateway
open Schemes Finset

variable {st : GatewayState} {q : QueuedRequest} {r : GatewayReservation}
  {id : Sha256Digest} {s t : Sys} {ldg : Ledger} {call : ℕ} {old : AdmissionCall}
  {mode : GatewayMode} {a : Label} {o : Output}

/-! ### Stages and sizes under the arrows -/

section Stages

theorem stage_eq_none_iff : st.stage id = none ↔ st.live.Free id := by
  unfold GatewayState.stage Live.Free GatewayState.live
  cases hq : st.queued.lookup id with
  | none =>
    have := Finmap.lookup_eq_none.mp hq
    simp [this]
  | some q =>
    have := Finmap.mem_of_lookup_eq_some hq
    simp [this]

theorem stage_of_queued (hq : st.queued.lookup id = some q) : st.stage id = some q.wasAdmitted := by
  simp [GatewayState.stage, hq]

theorem stage_of_active {g : PlacementGroupId} (hact : st.activeRequests.lookup id = some g)
    (hque : id ∉ st.queued) : st.stage id = some true := by
  simp [GatewayState.stage, Finmap.lookup_eq_none.mpr hque, Finmap.mem_of_lookup_eq_some hact]

theorem stage_congr {st' : GatewayState} (hque : st'.queued = st.queued)
    (hact : st'.activeRequests = st.activeRequests) : st'.stage id = st.stage id := by
  unfold GatewayState.stage
  rw [hque, hact]

theorem stage_occupy (rt : GatewayRoute) (hfree : st.live.Free q.request.requestId) :
    (occupy st q rt).stage id =
      if id = q.request.requestId then some true else st.stage id := by
  unfold GatewayState.stage
  by_cases hid : id = q.request.requestId
  · subst hid
    have : st.queued.lookup q.request.requestId = none :=
      Finmap.lookup_eq_none.mpr hfree.2
    simp [occupy, this, Finmap.mem_insert]
  · simp [occupy, Finmap.mem_insert, hid]

theorem stage_enqueue : (enqueue st q).stage id =
      if id = q.request.requestId then some q.wasAdmitted else st.stage id := by
  unfold GatewayState.stage enqueue
  simp only [Table.lookup_insert_ite]
  split_ifs with hid <;> rfl

theorem stage_unqueue (hact : id ∉ st.activeRequests) (x : Sha256Digest) :
    (unqueue st id).stage x = if x = id then none else st.stage x := by
  unfold GatewayState.stage unqueue
  by_cases hx : x = id
  · subst hx
    simp [hact]
  · simp [hx]

theorem stage_vacate (hque : r.request.requestId ∉ st.queued) (x : Sha256Digest) :
    (vacate st r).stage x =
      if x = r.request.requestId then none else st.stage x := by
  unfold GatewayState.stage vacate
  by_cases hx : x = r.request.requestId
  · subst hx
    simp [Finmap.lookup_eq_none.mpr hque, Finmap.mem_erase]
  · simp [hx, Finmap.mem_erase]

end Stages

/-! ### Every step is a turn -/

theorem Conserved.ended_lt (h : Conserved s ldg) (hopen : 0 < s.openRequests)
    (hfit : s.calls ≤ u64Max) : s.state.telemetry.tally.ended < u64Max := by
  have := h.balance
  omega

theorem Conserved.admitted_lt {c : ℕ} (h : Conserved s ldg)
    (hc : c < s.calls) (hzero : ldg.admitted c = 0) (hfit : s.calls ≤ u64Max) :
    s.state.telemetry.tally.admitted < u64Max := by
  have hlt : ∑ c ∈ range s.calls, ldg.admitted c < ∑ _c ∈ range s.calls, 1 :=
    sum_lt_sum (fun i _ => h.admitted_le i) ⟨c, mem_range.mpr hc, by omega⟩
  rw [← h.admitted_sum, sum_const, card_range, smul_eq_mul, mul_one] at hlt
  omega

theorem tally_occupy (rt : GatewayRoute)
    (h : q.wasAdmitted = false → st.telemetry.tally.admitted < u64Max) :
    (occupy st q rt).telemetry.tally =
      { st.telemetry.tally with
        admitted := st.telemetry.tally.admitted + (!q.wasAdmitted).toNat } := by
  cases hadm : q.wasAdmitted with
  | true => simp [occupy, hadm]
  | false =>
    simp only [occupy, hadm, Bool.false_eq_true, if_false]
    exact GatewayTelemetryState.tally_recordAdmitted rt (h hadm)

theorem tally_completed (fin : Except GatewayError UnixMilliseconds) (comp : Completion)
    (h : st.telemetry.tally.ended < u64Max) :
    (completed st r fin comp).telemetry.tally =
      { st.telemetry.tally with ended := st.telemetry.tally.ended + 1 } := by
  have hpl := completed_places st r fin comp
  simp only [completed, hpl.telemetry]
  split
  · exact GatewayTelemetryState.tally_recordCompleted _ _ _ _ _ _ _ h
  · exact GatewayTelemetryState.tally_recordFailed _ _ h

section Sizes

variable {who : Option ℕ} {owner : Sha256Digest → Option ℕ}

/-- A step that only moves one call to another phase. -/
theorem Turn.rephase {new : AdmissionCall}
    (hcall : s.admissions.lookup call = some old) (hcls : t.calls = s.calls)
    (hadm : t.admissions = s.admissions.insert call new) (hque : t.state.queued = s.state.queued)
    (hact : t.state.activeRequests = s.state.activeRequests)
    (htel : t.state.telemetry = s.state.telemetry) : Turn s t who owner owner := by
  refine .idle hcls (fun c => ?_) (fun x => stage_congr hque hact) ?_ (by rw [htel]) rfl
  · rw [hadm, Finmap.mem_insert]
    refine ⟨fun h => h.elim (fun h => ?_) id, .inr⟩
    exact h ▸ Finmap.mem_of_lookup_eq_some hcall
  · rw [Sys.openRequests, hadm, hque, hact, Table.size_replace new hcall]
    rfl

/-- A step that takes a call out of admission and makes its identity live. -/
theorem Turn.leave (id : Sha256Digest) (admitted : Bool)
    (hcall : s.admissions.lookup call = some old) (hfree : s.stage id = none)
    (hcls : t.calls = s.calls) (hadm : t.admissions = s.admissions.erase call)
    (hsg : ∀ x, t.stage x = if x = id then some admitted else s.stage x)
    (hsize : t.state.activeRequests.size + t.state.queued.size =
      s.state.activeRequests.size + s.state.queued.size + 1) (htly : t.state.telemetry.tally =
      { s.state.telemetry.tally with
        admitted := s.state.telemetry.tally.admitted + admitted.toNat }) :
    Turn s t (some call) owner (Function.update owner id (some call)) := by
  refine .place id admitted rfl (Finmap.mem_of_lookup_eq_some hcall) hfree hcls (fun c => ?_)
    hsg ?_ htly rfl
  · rw [hadm, Finmap.mem_erase]
  · have := Table.size_erase hcall
    simp only [Sys.openRequests, hadm]
    omega

/-- A step that ends a waiting request. -/
theorem Turn.dequeue (hacc : InOrder s) (hq : s.state.queued.lookup id = some q)
    (hwho : who = owner id) (hcls : t.calls = s.calls) (hadm : t.admissions = s.admissions)
    (hque : t.state.queued = (unqueue s.state id).queued)
    (hact : t.state.activeRequests = s.state.activeRequests) (htly : t.state.telemetry.tally =
      { s.state.telemetry.tally with ended := s.state.telemetry.tally.ended + 1 }) :
    Turn s t who owner owner := by
  have hidle : id ∉ s.state.activeRequests := fun hmem =>
    hacc.apart id hmem (Finmap.mem_of_lookup_eq_some hq)
  refine .finish (b := q.wasAdmitted) hwho ?_ hcls (fun c => by rw [hadm]) (fun x => ?_) ?_ htly rfl
  · exact stage_of_queued hq
  · exact (stage_congr hque hact).trans (stage_unqueue hidle x)
  · have := Table.size_erase hq
    simp only [Sys.openRequests, hadm, hque, hact, unqueue]
    omega

/-- A step that ends an active request. -/
theorem Turn.unplace (hacc : InOrder s) (hmem : r ∈ s.held)
    (hwho : who = owner r.request.requestId) (hcls : t.calls = s.calls)
    (hadm : t.admissions = s.admissions) (hque : t.state.queued = s.state.queued)
    (hact : t.state.activeRequests = (vacate s.state r).activeRequests)
    (htly : t.state.telemetry.tally = { s.state.telemetry.tally with ended :=
      s.state.telemetry.tally.ended + 1 }) :
    Turn s t who owner owner := by
  have hown := hacc.owned hmem
  have hidle := hacc.apart _ (Finmap.mem_of_lookup_eq_some hown)
  refine .finish (b := true) hwho ?_ hcls (fun c => by rw [hadm]) (fun x => ?_) ?_ htly rfl
  · exact stage_of_active hown hidle
  · have hsame : (vacate s.state r).queued = s.state.queued := rfl
    exact (stage_congr (hque.trans hsame.symm) hact).trans (stage_vacate hidle x)
  · have := Table.size_erase hown
    simp only [Sys.openRequests, hadm, hque, hact, vacate]
    omega

/-- A step that ends a waiting request as an unrouted failure. -/
theorem Turn.dropped {now : ℕ} (hacc : InOrder s) (hq : s.state.queued.lookup id = some q)
    (hwho : who = owner id) (hcls : t.calls = s.calls) (hadm : t.admissions = s.admissions)
    (hsta : t.state = dropQueued (unqueue s.state id) q now)
    (hlt : s.state.telemetry.tally.ended < u64Max) : Turn s t who owner owner := by
  have hpl := releasePrincipal_places (unqueue s.state id) q.principal q.reservedTokens
  refine .dequeue hacc hq hwho hcls hadm ?_ ?_ ?_
  · rw [hsta]; exact hpl.queued
  · rw [hsta]; exact hpl.activeRequests
  · rw [hsta]
    simp only [dropQueued, hpl.telemetry]
    exact GatewayTelemetryState.tally_recordUnroutedFailureWithTiming _ hlt

/-- A step that ends an active request as a routed failure. -/
theorem Turn.failed {now : Except GatewayError UnixMilliseconds} {timing : GatewayTelemetryTiming}
    (hacc : InOrder s) (hmem : r ∈ s.held)
    (hwho : who = owner r.request.requestId) (hcls : t.calls = s.calls)
    (hadm : t.admissions = s.admissions) (hsta : t.state = failReleased (cooled (vacate s.state r)
      r.route.placementGroupId now) r timing)
    (hlt : s.state.telemetry.tally.ended < u64Max) : Turn s t who owner owner := by
  have hpl := failed_places s.state r now
  refine .unplace hacc hmem hwho hcls hadm ?_ ?_ ?_
  · rw [hsta]; exact hpl.queued
  · rw [hsta]; exact hpl.activeRequests
  · rw [hsta]
    simp only [failReleased, hpl.telemetry]
    exact GatewayTelemetryState.tally_recordFailed _ _ hlt

/-- A step that puts an active request back on a route or into the queue. -/
theorem Turn.retried (hacc : InOrder s) (hmem : r ∈ s.held) (hwho : who = owner r.request.requestId)
    (hcls : t.calls = s.calls) (hadm : t.admissions = s.admissions)
    (hsg : ∀ x, t.stage x = if x = r.request.requestId then some true else (vacate
      s.state r).stage x)
    (hsize : t.state.activeRequests.size + t.state.queued.size = (vacate s.state
      r).activeRequests.size + s.state.queued.size + 1)
    (htly : t.state.telemetry.tally = s.state.telemetry.tally) : Turn s t who owner owner := by
  have hown := hacc.owned hmem
  have hidle := hacc.apart _ (Finmap.mem_of_lookup_eq_some hown)
  refine .move (b := true) hwho (stage_of_active hown hidle) hcls (fun c => by rw [hadm])
    (fun x => ?_) ?_ htly rfl
  · rw [hsg, stage_vacate hidle]
    split_ifs <;> rfl
  · have := Table.size_erase hown
    simp only [Sys.openRequests, hadm, vacate] at hsize ⊢
    omega

end Sizes

/-- Every step but a restart is a turn of the request it acts for. -/
theorem Moves.turn (h : Moves mode s a t o) (hacc : InOrder s) (hcons : Conserved s ldg)
    (hfit : t.calls ≤ u64Max) (hlb : a ≠ .restart) :
    Turn s t (ldg.subject s a) ldg.owner (enroll ldg.owner a o) := by
  have hque : ∀ {id : Sha256Digest} {q : QueuedRequest},
      s.state.queued.lookup id = some q → 0 < s.openRequests := by
    intro id q hq
    have := Table.size_erase hq
    unfold Sys.openRequests
    omega
  have hhel : ∀ {r : GatewayReservation}, r ∈ s.held → 0 < s.openRequests := by
    intro r hmem
    have := Table.size_erase (hacc.owned hmem)
    unfold Sys.openRequests
    omega
  cases h with
  | receive req =>
    refine .receive rfl (fun c => Finmap.mem_insert) (fun _ => rfl) ?_ ?_ rfl
    · have hnew : s.calls ∉ s.admissions := fun hc => lt_irrefl _ (hcons.inside _ hc)
      simp only [Sys.openRequests, Table.size_insert _ hnew]
      omega
    · refine GatewayTelemetryState.tally_recordReceived ?_
      rwa [hcons.received]
  | prepare phase hcall hph | fetch phase hcall hph =>
    exact .rephase hcall rfl rfl rfl rfl rfl
  | refuse hcall hpol =>
    have hpl := admitPolicy_places hpol
    exact .rephase hcall rfl rfl hpl.queued hpl.activeRequests hpl.telemetry
  | @dismiss call req arr rct e chg hcall hpol =>
    have hpl := (admitPolicy_places hpol).trans
      (releasePrincipal_places chg arr.principal arr.reservedTokens)
    exact .rephase hcall rfl rfl hpl.queued hpl.activeRequests hpl.telemetry
  | pollExpire hpoll hq | failQueue hq =>
    exact .dropped hacc hq rfl rfl rfl rfl (hcons.ended_lt (hque hq) hfit)
  | @cancelQueue ticket now q hq =>
    have hpl := releasePrincipal_places (unqueue s.state ticket.requestId) q.principal
      q.reservedTokens
    refine .dequeue hacc hq rfl rfl rfl hpl.queued hpl.activeRequests ?_
    simp only [cancelQueued, hpl.telemetry]
    exact GatewayTelemetryState.tally_recordCancelled _ none (hcons.ended_lt (hque hq) hfit)
  | pollMiss | pollRead | pollIdle | cancelQueueFail | failQueueFail | recordMiss | record
  | snapshotMiss | snapshot =>
    exact .idle rfl (fun _ => Iff.rfl) (fun _ => rfl) rfl rfl rfl
  | @admitted call req arr rct chg rt hcall hpol hsel =>
    have hpl := admitPolicy_places hpol
    have hfree := (hacc.policy hpol).2
    have hsame : ∀ x, chg.stage x = s.stage x := fun x =>
      stage_congr hpl.queued hpl.activeRequests
    have hmem := Finmap.mem_of_lookup_eq_some hcall
    have hlt := hcons.admitted_lt (hcons.inside call hmem) (hcons.fresh call (.inr (.inl hmem)))
      hfit
    rw [← hpl.telemetry] at hlt
    refine .leave arr.request.requestId true hcall ?_ rfl rfl (fun x => ?_) ?_ ?_
    · exact (hsame _).symm.trans (stage_eq_none_iff.mpr hfree)
    · rw [← hsame]
      exact stage_occupy rt hfree
    · rw [← hpl.activeRequests, ← hpl.queued]
      have := Table.size_insert rt.placementGroupId hfree.1
      simp only [occupy, Arrival.queuedRequest, GatewayState.live] at this ⊢
      omega
    · rw [← hpl.telemetry]
      exact tally_occupy rt fun _ => hlt
  | @enqueue call req arr rct chg hcall hpol hroom =>
    have hpl := admitPolicy_places hpol
    have hfree := (hacc.policy hpol).2
    have hsame : ∀ x, chg.stage x = s.stage x := fun x =>
      stage_congr hpl.queued hpl.activeRequests
    refine .leave arr.request.requestId false hcall ?_ rfl rfl (fun x => ?_) ?_ ?_
    · exact (hsame _).symm.trans (stage_eq_none_iff.mpr hfree)
    · rw [← hsame]
      exact stage_enqueue
    · rw [← hpl.activeRequests, ← hpl.queued]
      have := Table.size_insert arr.queuedRequest hfree.2
      simp only [Gateway.enqueue, Arrival.queuedRequest, GatewayState.live] at this ⊢
      omega
    · exact congrArg GatewayTelemetryState.tally hpl.telemetry
  | @recordFailure call req e hcall =>
    have hsize := Table.size_erase hcall
    have hopen : 0 < s.openRequests := by
      unfold Sys.openRequests
      omega
    refine .refuse rfl (Finmap.mem_of_lookup_eq_some hcall) rfl (fun c => Finmap.mem_erase)
      (fun x => rfl) ?_ ?_ rfl
    · simp only [Sys.openRequests]
      omega
    · exact GatewayTelemetryState.tally_recordUnroutedFailureWithTiming _
        (hcons.ended_lt hopen hfit)
  | @pollAdmit poll rts safety q rt hpoll hq hfst =>
    have hid : q.request.requestId = poll.requestId := hacc.named _ _ hq
    have hfree := (hacc.dequeue hq).2
    have hidle : poll.requestId ∉ s.state.activeRequests := fun hmem =>
      hacc.apart _ hmem (Finmap.mem_of_lookup_eq_some hq)
    refine .move (b := q.wasAdmitted) rfl (stage_of_queued hq) rfl (fun _ => Iff.rfl)
      (fun x => ?_) ?_ ?_ rfl
    · refine (stage_occupy rt hfree).trans ?_
      rw [hid, stage_unqueue hidle]
      split_ifs <;> rfl
    · have hsize := Table.size_erase hq
      have := Table.size_insert rt.placementGroupId hidle
      simp only [Sys.openRequests, occupy, unqueue, hid]
      omega
    · refine tally_occupy rt fun hnew => ?_
      obtain ⟨c, hc, hlt, -⟩ := hcons.owned _ _ (stage_of_queued hq)
      refine hcons.admitted_lt hlt (hcons.fresh c (.inr (.inr ⟨_, ?_, hc⟩))) hfit
      rw [← hnew]
      exact stage_of_queued hq
  | @complete r fin comp hmem =>
    have hpl := completed_places s.state r fin comp
    exact .unplace hacc hmem rfl rfl rfl hpl.queued hpl.activeRequests
      (tally_completed _ _ (hcons.ended_lt (hhel hmem) hfit))
  | @cancel r timing hmem =>
    have hpl := releasePrincipal_places (vacate s.state r) r.principal r.reservedTokens
    refine .unplace hacc hmem rfl rfl rfl hpl.queued hpl.activeRequests ?_
    simp only [cancelReleased, hpl.telemetry]
    exact GatewayTelemetryState.tally_recordCancelled _ _ (hcons.ended_lt (hhel hmem) hfit)
  | retryFail hmem | fail hmem =>
    exact .failed hacc hmem rfl rfl rfl rfl (hcons.ended_lt (hhel hmem) hfit)
  | @retryAdmit r now rts safety cool rt hmem hcool =>
    have hfree := (hacc.unplace hmem).2
    subst hcool
    refine .retried hacc hmem rfl rfl rfl (fun x => ?_) ?_ ?_
    · have hreq : Live.Free _ (r.requeued now).request.requestId := hfree
      refine (stage_congr rfl rfl).trans ((stage_occupy rt hreq).trans ?_)
      exact if_congr Iff.rfl rfl (stage_congr rfl rfl)
    · have := Table.size_insert rt.placementGroupId hfree.1
      exact (congrArg (· + s.state.queued.size) this).trans (Nat.add_right_comm _ _ _)
    · rw [GatewayTelemetryState.tally_recordRetried]
      rfl
  | @retryEnqueue r now rts safety cool hmem hcool hroom =>
    have hfree := (hacc.unplace hmem).2
    subst hcool
    refine .retried hacc hmem rfl rfl rfl (fun x => ?_) ?_ ?_
    · refine (stage_congr rfl rfl).trans (stage_enqueue.trans ?_)
      exact if_congr Iff.rfl rfl (stage_congr rfl rfl)
    · have := Table.size_insert (r.requeued now) hfree.2
      exact (congrArg ((vacate s.state r).activeRequests.size + ·) this).trans
        (Nat.add_assoc _ _ _).symm
    · exact GatewayTelemetryState.tally_recordRetried _
  | restart => exact absurd rfl hlb

/-- Every step but a restart leaves every counter at least as it was. -/
theorem Moves.grows (h : Moves mode s a t o) (hlb : a ≠ .restart) :
    s.state.telemetry.Grows t.state.telemetry := by
  have hocc : ∀ (st : GatewayState) (q : QueuedRequest) (rt : GatewayRoute),
      st.telemetry.Grows (occupy st q rt).telemetry := by
    intro st q rt
    unfold occupy
    cases q.wasAdmitted
    · exact GatewayTelemetryState.grows_recordAdmitted _ rt
    · exact .refl _
  cases h with
  | receive req => exact GatewayTelemetryState.grows_recordReceived _
  | recordFailure hcall => exact GatewayTelemetryState.grows_recordUnroutedFailureWithTiming _ _
  | refuse hcall hpol =>
    have htel := (admitPolicy_places hpol).telemetry
    simp only [Sys.setPhase, htel]
    exact .refl _
  | dismiss hcall hpol =>
    have hpl := admitPolicy_places hpol
    simp only [Sys.setPhase, (releasePrincipal_places ..).telemetry, hpl.telemetry]
    exact .refl _
  | @admitted call req arr rct chg rt hcall hpol hsel =>
    have hgro := hocc chg arr.queuedRequest rt
    rwa [(admitPolicy_places hpol).telemetry] at hgro
  | enqueue hcall hpol hroom =>
    simp only [Gateway.enqueue, (admitPolicy_places hpol).telemetry]
    exact .refl _
  | pollExpire hpoll hq | failQueue hq =>
    simp only [dropQueued, (releasePrincipal_places ..).telemetry]
    exact GatewayTelemetryState.grows_recordUnroutedFailureWithTiming _ _
  | cancelQueue hq =>
    simp only [cancelQueued, (releasePrincipal_places ..).telemetry]
    exact GatewayTelemetryState.grows_recordCancelled _ _ none
  | pollAdmit hpoll hq hfst => exact hocc (unqueue s.state _) _ _
  | @complete r fin comp hmem =>
    simp only [completed, (completed_places s.state r fin comp).telemetry]
    split
    · exact GatewayTelemetryState.grows_recordCompleted _ _ _ _ _ _ _ _
    · exact GatewayTelemetryState.grows_recordFailed _ _ _
  | cancel hmem =>
    simp only [cancelReleased, (releasePrincipal_places ..).telemetry]
    exact GatewayTelemetryState.grows_recordCancelled _ _ _
  | @retryFail r now rts safety e hmem | @fail r now timing hmem =>
    simp only [failReleased, (failed_places s.state r now).telemetry]
    exact GatewayTelemetryState.grows_recordFailed _ _ _
  | retryAdmit hmem hcool | retryEnqueue hmem hcool hroom =>
    subst hcool
    exact GatewayTelemetryState.grows_recordRetried _ _
  | prepare | fetch | pollMiss | pollRead | pollIdle | cancelQueueFail | failQueueFail
  | recordMiss | record | snapshotMiss => exact .refl _
  | snapshot => exact ⟨(GatewayTelemetryState.Grows.refl _).counters, fun g x hx =>
      (GatewayTelemetryState.Grows.refl s.state.telemetry).groups g x hx⟩
  | restart => exact absurd rfl hlb

/-! ### Whole runs -/

section Runs

variable {db : UsageDatabase} {tr : List (Sys × Label × Output)}

/-- RUN: while the receipts fit their counter, the ledger of a run is in step with its counters. -/
theorem conserved_of_run (h : Run (step mode) { usage := db } tr s) :
    s.calls ≤ u64Max → Conserved s (ledgerOf mode tr) := by
  induction h with
  | nil => exact fun _ => .empty db
  | @snoc tr s t a o hrun hst ih =>
    intro hfit
    have hacc := inOrder_of_run hrun
    have hmove := step_moves hacc hst
    rw [ledgerOf, List.foldl_append, List.foldl_cons, List.foldl_nil]
    by_cases hlb : a = .restart
    · subst hlb
      cases hmove
      exact .empty s.usage
    · have hcls : s.calls ≤ t.calls := by
        cases hmove <;> first | exact le_rfl | exact Nat.le_succ _ | exact absurd rfl hlb
      have hcons := ih (hcls.trans hfit)
      have hnx : Ledger.next mode (ledgerOf mode tr) (s, a, o) =
          (ledgerOf mode tr).after s a o t := by
        unfold Ledger.next
        simp only [hst]
      rw [← ledgerOf, hnx]
      exact hcons.turn (hmove.turn hacc hcons hfit hlb) rfl rfl

/-- Receipts are never counted short: the counter follows the calls until it saturates. -/
theorem received_ge_of_run (h : Run (step mode) { usage := db } tr s) :
    min s.calls u64Max ≤ s.state.telemetry.counters.requestsReceived.1 := by
  induction h with
  | nil => exact Nat.zero_le _
  | @snoc tr s t a o hrun hst ih =>
    have hmove := step_moves (inOrder_of_run hrun) hst
    by_cases hlb : a = .restart
    · subst hlb
      cases hmove
      exact Nat.zero_le _
    · have hgro := (hmove.grows hlb).counters.requestsReceived
      cases hmove with
      | receive req =>
        simp only [GatewayTelemetryState.recordReceived, increment, saturatingAdd]
        omega
      | restart => exact absurd rfl hlb
      | _ => exact ih.trans hgro

/-- The counters of a run and the calls they count. -/
structure TelemetryConserved (mode : GatewayMode) (tr : List (Sys × Label × Output)) (s : Sys) :
    Prop where
  conservation : s.state.telemetry.counters.requestsReceived.1 =
    s.state.telemetry.counters.requestsCompleted.1 + s.state.telemetry.counters.requestsFailed.1 +
      s.state.telemetry.counters.requestsCancelled.1 + s.state.activeRequests.size +
      s.state.queued.size + s.admissions.size
  received : s.state.telemetry.counters.requestsReceived.1 = s.calls
  ends_once : ∀ c < s.calls, ¬Pending s (ledgerOf mode tr) c → (ledgerOf mode tr).ended c = 1
  pending_unended : ∀ c, Pending s (ledgerOf mode tr) c → (ledgerOf mode tr).ended c = 0
  ends_sum : s.state.telemetry.terminals = ∑ c ∈ range s.calls, (ledgerOf mode tr).ended c
  admitted_once : ∀ c, (ledgerOf mode tr).admitted c ≤ 1
  admitted_sum : s.state.telemetry.counters.requestsAdmitted.1 =
    ∑ c ∈ range s.calls, (ledgerOf mode tr).admitted c
  grows : ∀ e ∈ tr, e.2.1 ≠ .restart → ∀ t o, step mode e.1 e.2.1 = some (t, o) →
    e.1.state.telemetry.Grows t.state.telemetry

/-- CORRECT: below saturation every received request is open or has ended in exactly one terminal
    counter, is counted as admitted at most once, and no counter ever goes back. -/
theorem telemetry_conserved (h : Run (step mode) { usage := db } tr s)
    (hfit : s.state.telemetry.counters.requestsReceived.1 < u64Max) :
    TelemetryConserved mode tr s := by
  have hcls : s.calls ≤ u64Max := by
    have := received_ge_of_run h
    omega
  have hcons := conserved_of_run h hcls
  have hbal := hcons.balance
  have hrec : s.state.telemetry.counters.requestsReceived.1 = s.calls := hcons.received
  refine ⟨?_, hrec, hcons.settled, fun c hc => hcons.pending c (.inr hc), hcons.ended_sum,
    hcons.admitted_le, hcons.admitted_sum, ?_⟩
  · rw [hrec, ← hbal]
    simp only [GatewayTelemetryState.tally, GatewayTelemetryState.terminals, Sys.openRequests]
    omega
  · intro e he hlb t o hst
    have hacc := (h.step_of (fun _ _ => True) InOrder .empty (fun _ _ => trivial)
      fun _ _ _ _ hacc _ hst => (step_moves hacc hst).inOrder hacc) e he
    exact (step_moves hacc.1 hst).grows hlb

/-- A run in which one request is active, one queued, one refused and one completed. -/
theorem telemetry_conserved_mixed : ∃ tr s, s.calls = 4 ∧
    s.state.telemetry.counters.requestsCompleted.1 = 1 ∧
    s.state.telemetry.counters.requestsFailed.1 = 1 ∧ TelemetryConserved sampleMode tr s := by
  obtain ⟨tr, s, hrun, hcls, hcpd, hfai, hrec⟩ := Run.exists_of_exec (step sampleMode) {}
    (arriving 0 "a" unlimited 5 ++
      [.complete (sampleReservation "a" unlimited 5) (.ok 7) sampleCompletion] ++
      arriving 1 "b" unlimited 8 ++ arriving 2 "c" unlimited 9 ++ arriving 3 "b" unlimited 9 ++
      [.recordFailure 3])
    (fun _ s => s.calls = 4 ∧ s.state.telemetry.counters.requestsCompleted.1 = 1 ∧
      s.state.telemetry.counters.requestsFailed.1 = 1 ∧
      s.state.telemetry.counters.requestsReceived.1 < u64Max) (by decide)
  exact ⟨tr, s, hcls, hcpd, hfai, telemetry_conserved hrun hrec⟩

end Runs

end LetsInfer.Gateway
