import LetsInfer.Gateway.Limits
import LetsInfer.Gateway.Fifo
import LetsInfer.Gateway.Selection

/-! @src core/gateway/src/li_gateway_manager.rs | name:Route capacity | scheme:invariant

    Three operations put a request on a route, each with a snapshot of its own: the admission
    section, the commit of a poll and a retry, which first gives its old slot back. The other ones
    only give slots back. The counter of a placement group is compared with what the snapshots say,
    across every interleaving of the calls. -/

namespace LetsInfer.Gateway
open Schemes

variable {mode : GatewayMode} {s t : Sys} {lab : Label} {o : Output} {st st' : GatewayState}
  {r r' : GatewayReservation} {db : UsageDatabase} {rts : List GatewayRoute} {rt : GatewayRoute}
  {req : GatewayRequest} {now : ℕ} {tr : List (Sys × Label × Output)}

/-- The routes among which a step looks for one. -/
def consulted (mode : GatewayMode) (s : Sys) : Label → List GatewayRoute
  | .admitSection call =>
    match s.admissions.lookup call with
    | some ⟨_, .fetched arrival _⟩ => arrival.routes
    | _ => []
  | .pollCommit poll routes safety =>
    (currentRoutes mode poll.request.model safety routes).toOption.getD []
  | .retry reservation (.ok _) routes safety =>
    (currentRoutes mode reservation.request.model safety routes).toOption.getD []
  | _ => []

/-- A step puts a request on a listed route that had a free slot in the state `seen`, where a retry
    has given its old slot back. -/
structure Takes (mode : GatewayMode) (s : Sys) (label : Label) (t : Sys) (route : GatewayRoute)
    (seen : GatewayState) : Prop where
  listed : route ∈ consulted mode s label
  room : seen.routeActive.amount route.placementGroupId < route.maxActiveRequests.1
  freed : ∀ g, seen.routeActive.amount g ≤ s.state.routeActive.amount g
  counted : t.state.routeActive = seen.routeActive.insert route.placementGroupId
    (seen.routeActive.amount route.placementGroupId + 1)

theorem room_of_selected (h : selectRoute st req rts now = .ok (.selected rt)) :
    rt ∈ rts ∧ st.routeActive.amount rt.placementGroupId < rt.maxActiveRequests.1 := by
  have hbest := best_of_pick (selectRoute_selected_iff.mp h)
  have hadm := hbest.eligible
  simp only [admissible, hasCapacity, Bool.and_eq_true, decide_eq_true_eq] at hadm
  exact ⟨hbest.mem, hadm.1⟩

theorem amount_vacate_le (st : GatewayState) (r : GatewayReservation) (g : PlacementGroupId) :
    (vacate st r).routeActive.amount g ≤ st.routeActive.amount g := by
  have hamt := Table.amount_store st.routeActive r.route.placementGroupId g
    (n := st.routeActive.amount r.route.placementGroupId - 1)
    (p := st.routeActive.amount r.route.placementGroupId ≤ 1) (by omega)
  refine hamt.trans_le ?_
  split_ifs with hg
  · rw [hg]
    exact Nat.sub_le ..
  · exact le_rfl

theorem retry_selected (hacc : InOrder s) (hmem : r ∈ s.held)
    {rts : Except GatewayError (List GatewayRoute)}
    (h : retryBeforeOutput s.state r (.ok now) rts = (.ok (.admitted r'), st')) :
    ∃ list, rts = .ok list ∧
      selectRoute (markRouteFailure (vacate s.state r) r.route.placementGroupId now) r.request list
        now = .ok (.selected r'.route) := by
  unfold retryBeforeOutput at h
  rw [releaseReservation_of_held hacc hmem] at h
  cases rts with
  | error e => cases h
  | ok list =>
    simp only [retryRoute] at h
    split at h
    · rename_i rt hsel
      rw [reserveRoute_of_new rt now (hacc.unplace hmem).2.1] at h
      cases h
      exact ⟨list, rfl, hsel⟩
    · split_ifs at h <;> cases h
    · cases h

theorem poll_selected (hacc : InOrder s) {id : Sha256Digest}
    (h : pollSection s.state id req now rts = (.ok (.admitted r), st')) :
    selectRoute s.state req rts now = .ok (.selected r.route) := by
  obtain ⟨hno, -⟩ | ⟨_, -, ⟨ha, -⟩ | ⟨rt, ha, -, -, hsel, -⟩⟩ := pollSection_cases hacc h
  · exact absurd rfl (hno r)
  · cases ha
  · cases ha
    exact hsel

/-- STEP: whoever is given a route takes a free slot of it. -/
theorem takes_of_step (hacc : InOrder s) (hst : step mode s lab = some (t, o))
    (hr : o.reserves = some r) : ∃ seen, Takes mode s lab t r.route seen := by
  have hout := congrArg (Option.map Prod.snd) hst
  cases step_moves hacc hst with
  | @admitted call req arr rct chg rt hcall hpol hsel =>
    cases hr
    obtain ⟨hmem, hroom⟩ := room_of_selected hsel
    have hlisted : rt ∈ consulted mode s (.admitSection call) := by
      simpa [consulted, hcall] using hmem
    have hact := (admitPolicy_places hpol).routeActive
    exact ⟨chg, hlisted, hroom, fun g => by rw [hact], rfl⟩
  | @pollAdmit poll rts safety qd rt hpoll hq =>
    cases hr
    simp only [step, if_pos hpoll] at hout
    split at hout
    · simp at hout
    · rename_i list hrts
      have hsel := poll_selected hacc (Prod.ext (by simpa using hout) rfl)
      obtain ⟨hmem, hroom⟩ := room_of_selected hsel
      exact ⟨s.state, by simpa [consulted, hrts, Except.toOption] using hmem, hroom,
        fun g => le_rfl, rfl⟩
  | @retryAdmit old now rts safety cool rt hmem hcool =>
    cases hr
    simp only [step, if_pos hmem] at hout
    obtain ⟨list, hrts, hsel⟩ := retry_selected hacc hmem (Prod.ext (by simpa using hout) rfl)
    obtain ⟨hlst, hroom⟩ := room_of_selected hsel
    subst hcool
    exact ⟨_, by simpa [consulted, hrts, Except.toOption] using hlst, hroom,
      amount_vacate_le s.state old, rfl⟩
  | @pollIdle _ _ _ answer hpoll hans =>
    cases answer with
    | error e => cases hr
    | ok status =>
      cases status with
      | waiting => cases hr
      | admitted reservation => exact absurd rfl (hans reservation)
  | _ => cases hr

/-- STEP: a step that reserves nothing takes no slot. -/
theorem Moves.amount_le (h : Moves mode s lab t o) (hno : o.reserves = none)
    (g : PlacementGroupId) : t.state.routeActive.amount g ≤ s.state.routeActive.amount g := by
  have hsame : ∀ {m m' : GatewayState}, SamePlaces m m' →
      m'.routeActive.amount g = m.routeActive.amount g := by
    intro m m' hpl
    rw [hpl.routeActive]
  cases h with
  | refuse hcall hpol | enqueue hcall hpol => exact (hsame (admitPolicy_places hpol)).le
  | dismiss hcall hpol =>
    exact (hsame ((admitPolicy_places hpol).trans (releasePrincipal_places ..))).le
  | admitted | pollAdmit | retryAdmit => cases hno
  | pollExpire | cancelQueue | failQueue =>
    exact (hsame (releasePrincipal_places (unqueue s.state _) _ _)).le
  | complete => exact (hsame (completed_places ..)).trans_le (amount_vacate_le ..)
  | cancel => exact (hsame (releasePrincipal_places ..)).trans_le (amount_vacate_le ..)
  | retryFail | fail => exact (hsame (failed_places ..)).trans_le (amount_vacate_le ..)
  | retryEnqueue hmem hcool =>
    subst hcool
    exact amount_vacate_le ..
  | restart => exact Nat.zero_le _
  | _ => exact le_rfl

/-- No placement group is ever overloaded: if the snapshots that are consulted state at most
    `capacity` slots for each group, no more requests than that are ever active on it. -/
theorem groups_never_overloaded (capacity : PlacementGroupId → ℕ)
    (h : Run (step mode) { usage := db } tr s) (hcap : ∀ e ∈ tr, ∀ route ∈ consulted mode e.1 e.2.1,
      route.maxActiveRequests.1 ≤ capacity route.placementGroupId) :
    ∀ g, activeOn s.state.activeRequests g ≤ capacity g := by
  -- The counter of a group is the number of its active requests; it is followed along the run.
  suffices hslots : ∀ g, s.state.routeActive.amount g ≤ capacity g by
    exact fun g => ((inOrder_of_run h).routes g).symm.trans_le (hslots g)
  induction h with
  | nil => exact fun g => Nat.zero_le _
  | @snoc tr s t lab o hrun hst ih =>
    have hacc := inOrder_of_run hrun
    have hbef := ih fun e he => hcap e (List.mem_append_left _ he)
    intro g
    cases hr : o.reserves with
    | none => exact ((step_moves hacc hst).amount_le hr g).trans (hbef g)
    | some r =>
      obtain ⟨seen, htake⟩ := takes_of_step hacc hst hr
      have hroom := htake.room
      have hmax := hcap _ List.mem_concat_self r.route htake.listed
      rw [htake.counted, Table.amount_insert]
      split_ifs with hg
      · subst hg
        omega
      · exact (htake.freed g).trans (hbef g)

/-- Two arrivals for one slot. -/
theorem groups_never_overloaded_one_slot : ∃ s : Sys, s.held.length = 1 ∧ s.state.queued.size = 1 ∧
    ∀ g, activeOn s.state.activeRequests g ≤ 1 := by
  obtain ⟨tr, s, hrun, hheld, hque, hall⟩ := Run.exists_of_exec (step sampleMode) {}
    (arriving 0 "a" unlimited 5 ++ arriving 1 "b" unlimited 6)
    (fun tr s => s.held.length = 1 ∧ s.state.queued.size = 1 ∧ ∀ e ∈ tr,
      ∀ route ∈ consulted sampleMode e.1 e.2.1, route.maxActiveRequests.1 ≤ 1) (by decide)
  exact ⟨s, hheld, hque, groups_never_overloaded (fun _ => 1) hrun hall⟩

end LetsInfer.Gateway
