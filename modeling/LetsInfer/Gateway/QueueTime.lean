import LetsInfer.Gateway.Fifo

/-! @src core/gateway/src/li_gateway_manager.rs | name:Queue time | scheme:invariant

    A request states how long it may be queued, and its queue time adds up over every stay in the
    queue. `poll_queue` measures the entry it finds in its second section against the request it
    read in its first. The two share an identity and need not be the same request: a request that
    was cancelled in between can be followed by another one of its identity with a shorter limit. -/

namespace LetsInfer.Gateway
open Schemes

/-- A provider that does not fail with the gateway's own verdict on a queue entry. -/
def answers {α : Type} : Except GatewayError α → Bool
  | .error .queueExpired => false
  | _ => true

/-- The commit of a poll finds under its identity a request that may wait as long as the one it
    read, and no provider of a poll fails with the gateway's verdict. -/
def pollsSame (s : Sys) : Label → Bool
  | .pollRead _ now => answers now
  | .pollCommit poll routes safety =>
    answers routes && (routes.toOption.getD []).all (fun route => answers (safety route)) &&
      (s.state.queued.lookup poll.requestId).all fun queued =>
        poll.request.maximumQueueMilliseconds ≤ queued.request.maximumQueueMilliseconds
  | _ => true

/-- Nobody has waited longer than it may. -/
structure Timely (s : Sys) : Prop where
  held : ∀ r ∈ s.held, r.queuedMilliseconds ≤ r.request.maximumQueueMilliseconds
  queued : ∀ id q, s.state.queued.lookup id = some q →
    q.queuedMilliseconds ≤ q.request.maximumQueueMilliseconds

/-- A step takes one entry from the queue and gives its principal reservation back, and nothing
    else is released. -/
structure Expires (s t : Sys) (id : Sha256Digest) (queued : QueuedRequest) : Prop where
  found : s.state.queued.lookup id = some queued
  queue : t.state.queued = s.state.queued.erase id
  order : t.state.queueOrder = s.state.queueOrder.filter (· ≠ id)
  active : t.state.activeRequests = s.state.activeRequests
  held : t.held = s.held
  principals : ∀ k, s.state.principalActive.amount k =
    t.state.principalActive.amount k + queued.claim.count k
  tokens : ∀ k, s.state.principalReservedTokens.amount k =
    t.state.principalReservedTokens.amount k + queued.claim.load k

variable {mode : GatewayMode} {s t : Sys} {lab : Label} {o : Output} {poll : PollCall}
  {rts : Except GatewayError (List GatewayRoute)} {safety : PlacementSafety}
  {qd : QueuedRequest} {r : GatewayReservation} {tr : List (Sys × Label × Output)}

/-! ### One poll -/

theorem scanRoutes_answers {model : LogicalModelName} {list : List GatewayRoute}
    (seen : List PlacementGroupId) (h : ∀ rt ∈ list, answers (safety rt) = true) :
    scanRoutes mode model safety seen list ≠ .error .queueExpired := by
  induction list generalizing seen with
  | nil => simp [scanRoutes]
  | cons rt list ih =>
    have hsafe := h rt List.mem_cons_self
    have hrest := ih (rt.placementGroupId :: seen) fun r hr => h r (List.mem_cons_of_mem _ hr)
    simp only [scanRoutes, checkRoute]
    grind [answers]

theorem currentRoutes_answers {model : LogicalModelName} (hr : answers rts = true)
    (hs : (rts.toOption.getD []).all (fun rt => answers (safety rt)) = true) :
    currentRoutes mode model safety rts ≠ .error .queueExpired := by
  cases rts with
  | error e =>
    rintro ⟨⟩
    cases hr
  | ok list => exact scanRoutes_answers [] (List.all_eq_true.mp hs)

theorem InOrder.expires (hacc : InOrder s) (hq : s.state.queued.lookup poll.requestId = some qd) :
    Expires s { s with
      polls := s.polls.erase poll
      state := dropQueued (unqueue s.state poll.requestId) qd poll.now } poll.requestId qd := by
  have hpl := releasePrincipal_places (unqueue s.state poll.requestId) qd.principal
    qd.reservedTokens
  have hcov := Accounted.covers_queued hacc hq
  refine ⟨hq, hpl.queued, hpl.queueOrder, hpl.activeRequests, rfl, fun k => ?_, fun k => ?_⟩
  · have hamt := amount_principalActive_releasePrincipal (unqueue s.state poll.requestId)
      qd.principal qd.reservedTokens k
    exact (Nat.sub_eq_iff_eq_add (hcov k).1).mp hamt.symm
  · have hamt := amount_reservedTokens_releasePrincipal (unqueue s.state poll.requestId)
      qd.principal qd.reservedTokens k
    exact (Nat.sub_eq_iff_eq_add (hcov k).2).mp hamt.symm

/-- STEP: what the commit of a poll answers, if it finds the request it read. -/
theorem pollCommit_timely (hacc : InOrder s)
    (hst : step mode s (.pollCommit poll rts safety) = some (t, o))
    (hok : pollsSame s (.pollCommit poll rts safety) = true) :
    (∀ r, o = .polled (.ok (.admitted r)) →
      r.queuedMilliseconds ≤ r.request.maximumQueueMilliseconds) ∧
    (o = .polled (.error .queueExpired) → ∃ qd, Expires s t poll.requestId qd) := by
  simp only [pollsSame, Bool.and_eq_true] at hok
  obtain ⟨⟨hans, hsafe⟩, hmax⟩ := hok
  simp only [step] at hst
  split_ifs at hst with hpoll
  split at hst
  · rename_i e hrou
    cases hst
    refine ⟨fun r hr => ?_, fun he => ?_⟩
    · cases hr
    · cases he
      exact absurd hrou (currentRoutes_answers hans hsafe)
  · rename_i list hrou
    cases hst
    obtain ⟨hno, hne, -⟩ | ⟨qd, hq, ⟨ha, hs⟩ | ⟨rt, ha, hle, -, -, -⟩⟩ :=
      pollSection_cases hacc (Prod.mk.eta (p := pollSection s.state ..)).symm
    · exact ⟨fun r hr => absurd (Output.polled.inj hr) (hno r),
        fun he => absurd (Output.polled.inj he) hne⟩
    · refine ⟨fun r hr => ?_, fun _ => ⟨qd, ?_⟩⟩
      · cases ha.symm.trans (Output.polled.inj hr)
      · rw [ha, hs]
        exact hacc.expires hq
    · refine ⟨fun r hr => ?_, fun he => ?_⟩
      · cases ha.symm.trans (Output.polled.inj hr)
        rw [hq] at hmax
        exact hle.trans (of_decide_eq_true hmax)
      · cases ha.symm.trans (Output.polled.inj he)

/-! ### Whole runs -/

/-- STEP: a poll that finds the request it read lets nobody wait too long, and no other step can. -/
theorem Timely.step (h : Timely s) (hacc : InOrder s) (hok : pollsSame s lab = true)
    (hst : step mode s lab = some (t, o)) : Timely t := by
  have hmv := step_moves hacc hst
  refine ⟨fun r hr => ?_, fun id q hq => ?_⟩
  · obtain hr | ⟨_, _, arr, _, _, -, rfl⟩ | ⟨poll, rts, safety, _, _, rfl, -, ho, -⟩ |
      ⟨old, hold, _, now, rfl⟩ := hmv.held_from hr
    · exact h.held r hr
    · simp [QueuedRequest.reserved, QueuedRequest.waited, Arrival.queuedRequest, saturatingAdd]
    · exact (pollCommit_timely hacc hst hok).1 r ho
    · refine (min_le_left _ _).trans ?_
      simpa [GatewayReservation.requeued, QueuedRequest.reserved] using h.held old hold
  · obtain hq | ⟨_, _, _, _, -, rfl⟩ | ⟨old, hold, _, rfl⟩ := hmv.queued_from hq
    · exact h.queued id q hq
    · exact Nat.zero_le _
    · exact h.held old hold

/-- RUN: in a run whose polls find the requests they read nobody waits longer than it may. -/
theorem timely_of_run {db : UsageDatabase} (h : Run (Gateway.step mode) { usage := db } tr s)
    (hok : ∀ e ∈ tr, pollsSame e.1 e.2.1 = true) : Timely s := by
  refine (h.invariant_of (fun s a => pollsSame s a = true) (fun s => InOrder s ∧ Timely s)
    ⟨.empty, by rintro r ⟨⟩, by rintro id q ⟨⟩⟩ hok ?_).2
  rintro s a t o ⟨hacc, htime⟩ hsame hst
  exact ⟨(step_moves hacc hst).inOrder hacc, htime.step hacc hsame hst⟩

/-- CORRECT under the condition: in a run whose polls find the requests they read, every reservation
    a step hands out has been queued no longer than its request allows, and a poll that answers that
    the request expired has removed that entry and released its principal reservation. -/
theorem queue_time_bounded {db : UsageDatabase}
    (h : Run (Gateway.step mode) { usage := db } tr s) (hst : Gateway.step mode s lab = some (t, o))
    (hok : ∀ e ∈ tr, pollsSame e.1 e.2.1 = true) (hlast : pollsSame s lab = true) :
    (∀ r, o.reserves = some r → r.queuedMilliseconds ≤ r.request.maximumQueueMilliseconds) ∧
    (o = .polled (.error .queueExpired) → ∃ poll rts safety qd,
      lab = .pollCommit poll rts safety ∧ Expires s t poll.requestId qd) := by
  have hacc := inOrder_of_run h
  have hmv := step_moves hacc hst
  refine ⟨fun r hr => ?_, ?_⟩
  · exact ((timely_of_run h hok).step hacc hlast hst).held r (hmv.reserved_held hr)
  · rintro rfl
    cases lab with
    | pollCommit poll rts safety =>
      obtain ⟨qd, hexp⟩ := (pollCommit_timely hacc hst hlast).2 rfl
      exact ⟨poll, rts, safety, qd, rfl, hexp⟩
    | pollRead ticket now =>
      simp only [Gateway.step] at hst
      split at hst
      · cases hst
        cases hlast
      · cases hst
      · cases hst
    | _ => cases hmv

/-- A poll of a freed slot finds the request it read, and gets it the slot in time. -/
theorem queue_time_bounded_served : ∃ tr s label t o r, Run (Gateway.step sampleMode) {} tr s ∧
    Gateway.step sampleMode s label = some (t, o) ∧ o.reserves = some r ∧
    r.queuedMilliseconds ≤ r.request.maximumQueueMilliseconds := by
  obtain ⟨tr, s, hrun, hall, hlast, hst⟩ := Run.exists_of_exec (Gateway.step sampleMode) {}
    (freedSlot ++ [.pollRead ⟨⟨"b"⟩⟩ (.ok 8)])
    (fun tr s => (∀ e ∈ tr, pollsSame e.1 e.2.1) ∧
      pollsSame s (.pollCommit ⟨⟨"b"⟩, 8, sampleRequest "b"⟩ (.ok [sampleRoute]) fun _ => .ok true) ∧
      (Gateway.step sampleMode s (.pollCommit ⟨⟨"b"⟩, 8, sampleRequest "b"⟩ (.ok [sampleRoute])
        fun _ => .ok true)).any fun p => p.2.reserves.isSome) (by decide +kernel)
  obtain ⟨⟨t, o⟩, hst, ho⟩ := Option.any_eq_true _ _ |>.mp hst
  obtain ⟨r, hr⟩ := Option.isSome_iff_exists.mp ho
  exact ⟨tr, s, _, t, o, r, hrun, hst, hr, (queue_time_bounded hrun hst hall hlast).1 r hr⟩

/-- `b` waits for the slot of `a`, is polled for and cancelled, and another `b` that may wait one
    millisecond takes its place before the poll commits. -/
def replacedWaiter : List Label :=
  arriving 0 "a" unlimited 5 ++ arriving 1 "b" unlimited 6 ++
    .receive { sampleRequest "b" with maximumQueueMilliseconds := 1, queue_bounded := by decide } ::
    (arriving 2 "b" unlimited 8).tail.dropLast ++
    [.pollRead ⟨⟨"b"⟩⟩ (.ok 100), .cancelQueue ⟨⟨"b"⟩⟩ (.ok 100), .admitSection 2,
      .complete (sampleReservation "a" unlimited 5) (.ok 100) sampleCompletion]

/-- The poll admits the second `b` after more time than that request may wait. -/
theorem queue_time_exceeded : ∃ tr s label t o r, Run (Gateway.step sampleMode) {} tr s ∧
    Gateway.step sampleMode s label = some (t, o) ∧ o.reserves = some r ∧
    r.request.maximumQueueMilliseconds < r.queuedMilliseconds := by
  obtain ⟨tr, s, hrun, hst⟩ := Run.exists_of_exec (Gateway.step sampleMode) {} replacedWaiter
    (fun _ s => (Gateway.step sampleMode s (.pollCommit ⟨⟨"b"⟩, 100, sampleRequest "b"⟩
      (.ok [sampleRoute]) fun _ => .ok true)).any fun p => p.2.reserves.any fun r =>
        r.request.maximumQueueMilliseconds < r.queuedMilliseconds) (by decide +kernel)
  obtain ⟨⟨t, o⟩, hst, ho⟩ := Option.any_eq_true _ _ |>.mp hst
  obtain ⟨r, hr, hlt⟩ := Option.any_eq_true _ _ |>.mp ho
  exact ⟨tr, s, _, t, o, r, hrun, hst, hr, of_decide_eq_true hlt⟩

end LetsInfer.Gateway
