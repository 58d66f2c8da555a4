import LetsInfer.Gateway.Accounting

/-! @src core/gateway/src/li_gateway_manager.rs | name:What a critical section does | scheme:inversion

    Under the accounting invariant a critical section has few outcomes: the branches that report a
    duplicate identity, a foreign group or a missing slot are dead, and what is left are the moves
    below, each with the state it ends in written out. Every property of whole runs is proved by
    cases on these moves; none of them opens the operations again. -/

namespace LetsInfer.Gateway
open Schemes

variable {mode : GatewayMode} {state state' : GatewayState} {held : List GatewayReservation}
  {arrival : Arrival} {recent : List GatewayUsageRecord} {requestId : Sha256Digest}
  {reservation : GatewayReservation}

/-! ### Parts of the state a helper leaves alone -/

theorem foldl_pushUsage_eq (k : ApiKeyId) (recent : List GatewayUsageRecord)
    (state : GatewayState) :
    recent.foldl (pushUsage k) state =
      { state with
        requestWindows := (recent.foldl (pushUsage k) state).requestWindows
        tokenWindows := (recent.foldl (pushUsage k) state).tokenWindows } := by
  induction recent generalizing state with
  | nil => rfl
  | cons u recent ih =>
    rw [List.foldl_cons, ih]
    rfl

/-- Loading usage writes the windows and the set of loaded keys and nothing else. -/
theorem loadRecentUsage_eq (state : GatewayState) (k : ApiKeyId)
    (recent : List GatewayUsageRecord) (since now : ℕ) :
    (loadRecentUsage state k recent since now).2 =
      { state with
        loadedKeys := (loadRecentUsage state k recent since now).2.loadedKeys
        requestWindows := (loadRecentUsage state k recent since now).2.requestWindows
        tokenWindows := (loadRecentUsage state k recent since now).2.tokenWindows } := by
  unfold loadRecentUsage
  split_ifs
  · rfl
  · rfl
  · rw [foldl_pushUsage_eq]

variable {answer : Except GatewayError Unit} {loose : List Claim}

theorem loadRecentUsage_frame {k : ApiKeyId} {since now : ℕ} {loaded : GatewayState}
    (h : loadRecentUsage state k recent since now = (answer, loaded)) :
    loaded.live = state.live ∧ loaded.telemetry = state.telemetry := by
  have hldd : loaded = (loadRecentUsage state k recent since now).2 := by rw [h]
  rw [hldd, loadRecentUsage_eq]
  exact ⟨rfl, rfl⟩

section

variable (fin : Except GatewayError UnixMilliseconds)
include fin

@[simp] theorem live_completeRoute : (completeRoute state reservation fin).live = state.live := by
  unfold completeRoute
  cases fin with
  | error e => rfl
  | ok now => cases reservation.request.prefixKey <;> rfl

theorem live_completePrincipal (comp : Completion) :
    (completePrincipal state reservation fin comp).live =
      (releasePrincipal state reservation.principal reservation.reservedTokens).live := by
  unfold completePrincipal
  cases reservation.principal with
  | none => rfl
  | some p =>
    simp only
    split <;> rfl

theorem completeRoute_places : SamePlaces state (completeRoute state reservation fin) := by
  unfold completeRoute
  cases fin with
  | error e => exact ⟨rfl, rfl, rfl, rfl, rfl⟩
  | ok now => cases reservation.request.prefixKey <;> exact ⟨rfl, rfl, rfl, rfl, rfl⟩

theorem completePrincipal_places (comp : Completion) :
    SamePlaces state (completePrincipal state reservation fin comp) := by
  unfold completePrincipal
  cases reservation.principal with
  | none => exact ⟨rfl, rfl, rfl, rfl, rfl⟩
  | some p =>
    have hpl := releasePrincipal_places state (some p) reservation.reservedTokens
    simp only
    split
    · exact hpl.trans ⟨rfl, rfl, rfl, rfl, rfl⟩
    · exact hpl

end

/-! ### Admission -/

theorem requireNewRequest_ok (h : requireNewRequest state requestId = .ok ()) :
    state.live.Free requestId := by
  unfold requireNewRequest at h
  split_ifs at h with hkno
  exact not_or.mp hkno

/-- A granted policy section: the identity is free, and the key, if there is one, is charged on top
    of its loaded usage. -/
theorem admitPolicy_ok (h : admitPolicy state arrival recent = (.ok (), state')) :
    state.live.Free arrival.request.requestId ∧
      ((arrival.principal = none ∧ state' = state) ∨
        ∃ p loaded, arrival.principal = some p ∧
          loadRecentUsage state p.keyId recent arrival.since arrival.now = (.ok (), loaded) ∧
          admitPrincipal loaded p arrival.request arrival.now = (.ok (), state')) := by
  unfold admitPolicy at h
  cases hnew : requireNewRequest state arrival.request.requestId with
  | error e => simp [hnew] at h
  | ok _ =>
    refine ⟨requireNewRequest_ok hnew, ?_⟩
    rw [hnew] at h
    cases hp : arrival.principal with
    | none =>
      rw [hp] at h
      exact .inl ⟨rfl, (Prod.mk.inj h).2.symm⟩
    | some p =>
      rw [hp] at h
      simp only at h
      split at h
      · simp at h
      · rename_i loaded hload
        exact .inr ⟨p, loaded, rfl, hload, h⟩

theorem admitPolicy_error {e : GatewayError}
    (h : admitPolicy state arrival recent = (.error e, state')) :
    state'.live = state.live ∧ state'.telemetry = state.telemetry := by
  unfold admitPolicy at h
  split at h
  · cases h
    exact ⟨rfl, rfl⟩
  · split at h
    · simp at h
    · split at h
      · rename_i hload
        cases h
        exact loadRecentUsage_frame hload
      · rename_i loaded hload
        have hfra := loadRecentUsage_frame hload
        rwa [admitPrincipal_error h]

section

variable (h : admitPolicy state arrival recent = (answer, state'))
include h

/-- Whatever it answers, the policy section writes the windows and the two maps of the key and
    nothing else. -/
theorem admitPolicy_frame :
    state' = { state with
      loadedKeys := state'.loadedKeys
      requestWindows := state'.requestWindows
      tokenWindows := state'.tokenWindows
      principalActive := state'.principalActive
      principalReservedTokens := state'.principalReservedTokens } := by
  have hload : ∀ {k : ApiKeyId} {since now : ℕ} {answer : Except GatewayError Unit}
      {loaded : GatewayState},
      loadRecentUsage state k recent since now = (answer, loaded) →
      loaded = { state with
        loadedKeys := loaded.loadedKeys
        requestWindows := loaded.requestWindows
        tokenWindows := loaded.tokenWindows } := by
    intro k since now answer loaded hldd
    have := loadRecentUsage_eq state k recent since now
    rwa [hldd] at this
  unfold admitPolicy at h
  split at h
  · cases h; rfl
  · split at h
    · cases h; rfl
    · split at h
      · rename_i hldd
        cases h
        rw [hload hldd]
      · rename_i loaded hldd
        cases answer with
        | error e => rw [admitPrincipal_error h, hload hldd]; rfl
        | ok _ =>
          obtain ⟨reserved, rfl, -⟩ := admitPrincipal_ok h
          rw [hload hldd]
          rfl

theorem admitPolicy_places : SamePlaces state state' := by
  constructor <;> rw [admitPolicy_frame h]

end

/-- What a granted policy section leaves behind: the arrival's claim is loose and its identity still
    free. -/
theorem Accounted.policy (hacc : Accounted state.live held loose)
    (h : admitPolicy state arrival recent = (.ok (), state')) :
    Accounted state'.live held (arrival.queuedRequest.claim :: loose) ∧
      state'.live.Free arrival.request.requestId := by
  obtain ⟨hfree, ⟨hno, rfl⟩ | ⟨p, loaded, hp, hload, hok⟩⟩ := admitPolicy_ok h
  · have hclm : arrival.queuedRequest.claim = .of none 0 := by
      simp [QueuedRequest.claim, Arrival.queuedRequest, Arrival.reservedTokens, hno]
    refine ⟨?_, hfree⟩
    rw [hclm]
    exact { hacc with
      principals := fun k => by simpa [Claim.of, Claim.count] using hacc.principals k
      tokens := fun k => by simpa [Claim.of, Claim.load] using hacc.tokens k }
  · have hlive := (loadRecentUsage_frame hload).1
    have hclm : arrival.queuedRequest.claim = .of (some p) (p.reserves arrival.request) := by
      simp [QueuedRequest.claim, Arrival.queuedRequest, Arrival.reservedTokens, hp]
    have hcha := Accounted.charge (hlive ▸ hacc) hok
    refine ⟨hclm ▸ hcha, ?_⟩
    obtain ⟨reserved, rfl, -⟩ := admitPrincipal_ok hok
    have : loaded.live.Free arrival.request.requestId := hlive ▸ hfree
    exact this

theorem admitSection_cases {answer : Except GatewayError GatewayAdmission}
    (h : admitSection state arrival recent = (answer, state')) :
    (∃ e, answer = .error e ∧ admitPolicy state arrival recent = (.error e, state')) ∨
    ∃ chg, admitPolicy state arrival recent = (.ok (), chg) ∧
      ((∃ e, answer = .error e ∧
          (∀ rt, selectRoute chg arrival.request arrival.routes arrival.now ≠ .ok (.selected rt)) ∧
          state' = releasePrincipal chg arrival.principal arrival.reservedTokens) ∨
        (∃ rt, answer = .ok (.admitted (arrival.queuedRequest.reserved rt arrival.now)) ∧
          selectRoute chg arrival.request arrival.routes arrival.now = .ok (.selected rt) ∧
          state' = occupy chg arrival.queuedRequest rt) ∨
        (answer = .ok (.queued ⟨arrival.request.requestId⟩) ∧
          selectRoute chg arrival.request arrival.routes arrival.now = .ok .busy ∧
          chg.queued.size < maxQueuedRequests ∧
          state' = enqueue chg arrival.queuedRequest)) := by
  unfold admitSection at h
  split at h
  · rename_i e refused hpol
    cases h
    exact .inl ⟨e, rfl, hpol⟩
  · rename_i chg hpol
    refine .inr ⟨chg, hpol, ?_⟩
    have hfree : chg.live.Free arrival.queuedRequest.request.requestId := by
      obtain ⟨hfree, ⟨-, rfl⟩ | ⟨p, loaded, -, hload, hok⟩⟩ := admitPolicy_ok hpol
      · exact hfree
      · obtain ⟨reserved, rfl, -⟩ := admitPrincipal_ok hok
        have : loaded.live.Free arrival.request.requestId :=
          (loadRecentUsage_frame hload).1 ▸ hfree
        exact this
    unfold admitRoute at h
    split at h
    · rename_i rt hsel
      simp only [reserveRoute_of_new rt arrival.now hfree.1] at h
      cases h
      exact .inr (.inl ⟨rt, rfl, hsel, rfl⟩)
    · rename_i hsel
      split_ifs at h with hwait hfull
      · cases h
        exact .inl ⟨_, rfl, by simp [hsel], rfl⟩
      · cases h
        exact .inr (.inr ⟨rfl, hsel, not_le.mp hfull, rfl⟩)
      · cases h
        exact .inl ⟨_, rfl, by simp [hsel], rfl⟩
    · rename_i e hsel
      cases h
      exact .inl ⟨_, rfl, by simp [hsel], rfl⟩

/-! ### The queue -/

theorem selectRoute_error {req : GatewayRequest} {rts : List GatewayRoute} {now : ℕ}
    {e : GatewayError} (h : selectRoute state req rts now = .error e) : e ≠ .queueExpired := by
  rintro rfl
  simp only [selectRoute] at h
  split_ifs at h
  any_goals cases h
  split at h <;> cases h

theorem pollSection_cases {req : GatewayRequest} {now : ℕ} {rts : List GatewayRoute}
    {answer : Except GatewayError GatewayQueueStatus} (hacc : Accounted state.live held loose)
    (h : pollSection state requestId req now rts = (answer, state')) :
    ((∀ reservation, answer ≠ .ok (.admitted reservation)) ∧ answer ≠ .error .queueExpired ∧
      state' = state) ∨
    ∃ q, state.queued.lookup requestId = some q ∧
      ((answer = .error .queueExpired ∧
          state' = dropQueued (unqueue state requestId) q now) ∨
        (∃ rt, answer = .ok (.admitted (q.reserved rt now)) ∧
          q.waited now ≤ req.maximumQueueMilliseconds ∧
          mustWait state req.model requestId = false ∧
          selectRoute state req rts now = .ok (.selected rt) ∧
          state' = occupy (unqueue state requestId) q rt)) := by
  unfold pollSection at h
  cases hq : state.queued.lookup requestId with
  | none =>
    rw [hq] at h
    cases h
    exact .inl ⟨by simp, by simp, rfl⟩
  | some q =>
    simp only [hq, removeQueuedRequest_of_lookup hq] at h
    split_ifs at h with hexp hwait
    · cases h
      exact .inr ⟨q, rfl, .inl ⟨rfl, rfl⟩⟩
    · cases h
      exact .inl ⟨by simp, by simp, rfl⟩
    · split at h
      · rename_i e hsel
        cases h
        exact .inl ⟨by simp, by simp [selectRoute_error hsel], rfl⟩
      · cases h
        exact .inl ⟨by simp, by simp, rfl⟩
      · rename_i rt hsel
        have hfree := (hacc.dequeue hq).2
        rw [reserveRoute_of_new rt now hfree.1] at h
        cases h
        exact .inr ⟨q, rfl, .inr ⟨rt, rfl, not_lt.mp hexp, by simpa using hwait, hsel, rfl⟩⟩

/-- The outcomes of `cancel_queue` and `fail_queue`: an error changes nothing, and a request that is
    still queued survives only a failed clock read. -/
theorem endQueued_cases {finish : GatewayState → QueuedRequest → ℕ → GatewayState}
    {now : Except GatewayError UnixMilliseconds}
    (h : endQueued finish state requestId now = (answer, state')) :
    ((∃ e, answer = .error e ∧ (now = .error e ∨ state.queued.lookup requestId = none)) ∧
      state' = state) ∨
    ∃ q t, now = .ok t ∧ state.queued.lookup requestId = some q ∧ answer = .ok () ∧
      state' = finish (unqueue state requestId) q t := by
  unfold endQueued at h
  cases now with
  | error e =>
    cases h
    exact .inl ⟨⟨e, rfl, .inl rfl⟩, rfl⟩
  | ok t =>
    cases hq : state.queued.lookup requestId with
    | none =>
      simp only [removeQueuedRequest, hq] at h
      cases h
      exact .inl ⟨⟨_, rfl, .inr rfl⟩, rfl⟩
    | some q =>
      simp only [removeQueuedRequest_of_lookup hq] at h
      cases h
      exact .inr ⟨q, t, rfl, rfl, rfl, rfl⟩

/-! ### Reservations -/

theorem releaseReservation_of_held (hacc : Accounted state.live held loose)
    (hmem : reservation ∈ held) :
    releaseReservation state reservation = (.ok (), vacate state reservation) :=
  releaseReservation_of_owned (hacc.owned hmem) (hacc.slot hmem)

def completed (state : GatewayState) (reservation : GatewayReservation)
    (completedAt : Except GatewayError UnixMilliseconds) (completion : Completion) :
    GatewayState :=
  let state := completeRoute (vacate state reservation) reservation completedAt
  let state := completePrincipal state reservation completedAt completion
  { state with
    telemetry :=
      match completedAt, completionUsage reservation completedAt completion with
      | .ok completedAt, .ok _ =>
        state.telemetry.recordCompleted reservation.route completedAt completion.timing
          completion.inputTokens completion.outputTokens completion.cachedTokens
          completion.exactTokens
      | _, _ => state.telemetry.recordFailed reservation.route completion.timing }

theorem live_completed (fin : Except GatewayError UnixMilliseconds) (comp : Completion) :
    (completed state reservation fin comp).live =
      (releasePrincipal (completeRoute (vacate state reservation) reservation fin)
        reservation.principal reservation.reservedTokens).live :=
  live_completePrincipal fin comp

theorem completed_places (state : GatewayState) (reservation : GatewayReservation)
    (fin : Except GatewayError UnixMilliseconds) (comp : Completion) :
    SamePlaces (vacate state reservation)
      (completePrincipal (completeRoute (vacate state reservation) reservation fin)
        reservation fin comp) :=
  (completeRoute_places fin).trans (completePrincipal_places fin comp)

theorem completeRequest_eq (hacc : Accounted state.live held loose) (hmem : reservation ∈ held)
    (fin : Except GatewayError UnixMilliseconds) (comp : Completion) :
    completeRequest state reservation fin comp =
      (completionUsage reservation fin comp, completed state reservation fin comp) := by
  unfold completeRequest
  rw [releaseReservation_of_held hacc hmem]
  rfl

theorem cancelWithTiming_eq (hacc : Accounted state.live held loose) (hmem : reservation ∈ held)
    (timing : GatewayTelemetryTiming) :
    cancelWithTiming state reservation timing =
      (.ok (), cancelReleased (vacate state reservation) reservation timing) := by
  unfold cancelWithTiming
  rw [releaseReservation_of_held hacc hmem]

/-- The route's cooldown after a failure, applied only with a clock answer. -/
def cooled (state : GatewayState) (g : PlacementGroupId) :
    Except GatewayError UnixMilliseconds → GatewayState
  | .error _ => state
  | .ok now => markRouteFailure state g now

@[simp] theorem live_cooled (g : PlacementGroupId) (now : Except GatewayError UnixMilliseconds) :
    (cooled state g now).live = state.live := by
  cases now <;> rfl

theorem cooled_places (g : PlacementGroupId) (now : Except GatewayError UnixMilliseconds) :
    SamePlaces state (cooled state g now) := by
  cases now <;> exact ⟨rfl, rfl, rfl, rfl, rfl⟩

theorem failed_places (state : GatewayState) (reservation : GatewayReservation)
    (now : Except GatewayError UnixMilliseconds) :
    SamePlaces (vacate state reservation)
      (releasePrincipal
        (cooled (vacate state reservation) reservation.route.placementGroupId now)
        reservation.principal reservation.reservedTokens) :=
  (cooled_places _ now).trans (releasePrincipal_places ..)

theorem failReservation_eq (hacc : Accounted state.live held loose) (hmem : reservation ∈ held)
    (now : Except GatewayError UnixMilliseconds) (timing : GatewayTelemetryTiming) :
    (failReservation state reservation now timing).2 =
      failReleased (cooled (vacate state reservation) reservation.route.placementGroupId now)
        reservation timing := by
  unfold failReservation
  rw [releaseReservation_of_held hacc hmem]
  cases now <;> rfl

theorem retryBeforeOutput_cases (hacc : Accounted state.live held loose) (hmem : reservation ∈ held)
    {now : Except GatewayError UnixMilliseconds} {rts : Except GatewayError (List GatewayRoute)}
    {answer : Except GatewayError GatewayAdmission}
    (h : retryBeforeOutput state reservation now rts = (answer, state')) :
    (∃ e, answer = .error e ∧
      state' = failReleased
        (cooled (vacate state reservation) reservation.route.placementGroupId now) reservation
        (retryTiming reservation)) ∨
    ∃ t cool, now = .ok t ∧
      cool = markRouteFailure (vacate state reservation) reservation.route.placementGroupId t ∧
      ((∃ rt, answer = .ok (.admitted ((reservation.requeued t).reserved rt t)) ∧
          state' =
            { occupy cool (reservation.requeued t) rt with
              telemetry := (occupy cool (reservation.requeued t) rt).telemetry.recordRetried
                reservation.route }) ∨
        (answer = .ok (.queued ⟨reservation.request.requestId⟩) ∧
          cool.queued.size < maxQueuedRequests ∧
          state' =
            { enqueue cool (reservation.requeued t) with
              telemetry := (enqueue cool (reservation.requeued t)).telemetry.recordRetried
                reservation.route })) := by
  unfold retryBeforeOutput at h
  rw [releaseReservation_of_held hacc hmem] at h
  cases now with
  | error e =>
    cases h
    exact .inl ⟨e, rfl, rfl⟩
  | ok t =>
    cases rts with
    | error e =>
      cases h
      exact .inl ⟨e, rfl, rfl⟩
    | ok rts =>
      have hfree := (hacc.unplace hmem).2
      simp only [retryRoute] at h
      split at h
      · rename_i rt hsel
        rw [reserveRoute_of_new rt t hfree.1] at h
        cases h
        exact .inr ⟨t, _, rfl, rfl, .inl ⟨rt, rfl, rfl⟩⟩
      · split_ifs at h with hwait hfull
        · cases h
          exact .inl ⟨_, rfl, rfl⟩
        · cases h
          exact .inr ⟨t, _, rfl, rfl, .inr ⟨rfl, not_le.mp hfull, rfl⟩⟩
        · cases h
          exact .inl ⟨_, rfl, rfl⟩
      · cases h
        exact .inl ⟨_, rfl, rfl⟩

/-! ### The moves of the system -/

/-- Everything one step can do to a system whose accounts are in order. -/
inductive Moves (mode : GatewayMode) (s : Sys) : Label → Sys → Output → Prop
  | receive (request : GatewayRequest) :
    Moves mode s (.receive request)
      { s with
        state := { s.state with telemetry := s.state.telemetry.recordReceived }
        calls := s.calls + 1
        admissions := s.admissions.insert s.calls ⟨request, .received⟩ } (.started s.calls)
  | prepare {call request surface now routes safety} (phase : AdmissionPhase)
    (hcall : s.admissions.lookup call = some ⟨request, .received⟩)
    (hphase : (∃ e, phase = .failed e) ∨
      ∃ arrival, arrive mode request surface now routes safety = .ok arrival ∧
        phase = .prepared arrival (shouldLoadUsage s.state arrival)) :
    Moves mode s (.prepare call surface now routes safety) (s.setPhase call request phase) .silent
  | fetch {call failure request arrival loadUsage} (phase : AdmissionPhase)
    (hcall : s.admissions.lookup call = some ⟨request, .prepared arrival loadUsage⟩)
    (hphase : (∃ e, phase = .failed e) ∨
      ∃ recent, fetchUsage s.usage arrival loadUsage failure = .ok recent ∧
        phase = .fetched arrival recent) :
    Moves mode s (.fetch call failure) (s.setPhase call request phase) .silent
  | refuse {call request arrival recent e refused}
    (hcall : s.admissions.lookup call = some ⟨request, .fetched arrival recent⟩)
    (hpolicy : admitPolicy s.state arrival recent = (.error e, refused)) :
    Moves mode s (.admitSection call) (Sys.setPhase { s with state := refused } call request (.failed e))
      (.admission (.error e))
  | dismiss {call request arrival recent e charged}
    (hcall : s.admissions.lookup call = some ⟨request, .fetched arrival recent⟩)
    (hpolicy : admitPolicy s.state arrival recent = (.ok (), charged)) :
    Moves mode s (.admitSection call)
      (Sys.setPhase
        { s with
          state := releasePrincipal charged arrival.principal arrival.reservedTokens }
        call request (.failed e))
      (.admission (.error e))
  | admitted {call request arrival recent charged route}
    (hcall : s.admissions.lookup call = some ⟨request, .fetched arrival recent⟩)
    (hpolicy : admitPolicy s.state arrival recent = (.ok (), charged))
    (hselect : selectRoute charged arrival.request arrival.routes arrival.now =
      .ok (.selected route)) :
    Moves mode s (.admitSection call)
      { s with
        state := occupy charged arrival.queuedRequest route
        held := arrival.queuedRequest.reserved route arrival.now :: s.held
        admissions := s.admissions.erase call }
      (.admission (.ok (.admitted (arrival.queuedRequest.reserved route arrival.now))))
  | enqueue {call request arrival recent charged}
    (hcall : s.admissions.lookup call = some ⟨request, .fetched arrival recent⟩)
    (hpolicy : admitPolicy s.state arrival recent = (.ok (), charged))
    (hroom : charged.queued.size < maxQueuedRequests) :
    Moves mode s (.admitSection call)
      { s with
        state := Gateway.enqueue charged arrival.queuedRequest
        admissions := s.admissions.erase call }
      (.admission (.ok (.queued ⟨arrival.request.requestId⟩)))
  | recordFailure {call request e}
    (hcall : s.admissions.lookup call = some ⟨request, .failed e⟩) :
    Moves mode s (.recordFailure call)
      { s with
        state := { s.state with telemetry := s.state.telemetry.recordUnroutedFailure }
        admissions := s.admissions.erase call } (.refused e)
  | pollMiss {ticket now e} :
    Moves mode s (.pollRead ticket now) s (.polled (.error e))
  | pollRead {ticket now queued}
    (hq : s.state.queued.lookup ticket.requestId = some queued) :
    Moves mode s (.pollRead ticket (.ok now))
      { s with polls := ⟨ticket.requestId, now, queued.request⟩ :: s.polls }
      (.polling ⟨ticket.requestId, now, queued.request⟩)
  | pollIdle {poll routes safety answer} (hpoll : poll ∈ s.polls)
    (hanswer : ∀ reservation, answer ≠ .ok (.admitted reservation)) :
    Moves mode s (.pollCommit poll routes safety) { s with polls := s.polls.erase poll }
      (.polled answer)
  | pollExpire {poll routes safety queued} (hpoll : poll ∈ s.polls)
    (hq : s.state.queued.lookup poll.requestId = some queued) :
    Moves mode s (.pollCommit poll routes safety)
      { s with
        polls := s.polls.erase poll
        state := dropQueued (unqueue s.state poll.requestId) queued poll.now }
      (.polled (.error .queueExpired))
  | pollAdmit {poll routes safety queued route} (hpoll : poll ∈ s.polls)
    (hq : s.state.queued.lookup poll.requestId = some queued)
    (hfirst : mustWait s.state poll.request.model poll.requestId = false) :
    Moves mode s (.pollCommit poll routes safety)
      { s with
        polls := s.polls.erase poll
        state := occupy (unqueue s.state poll.requestId) queued route
        held := queued.reserved route poll.now :: s.held }
      (.polled (.ok (.admitted (queued.reserved route poll.now))))
  | cancelQueueFail {ticket now e}
    (hwhy : now = .error e ∨ s.state.queued.lookup ticket.requestId = none) :
    Moves mode s (.cancelQueue ticket now) s (.finished (.error e))
  | cancelQueue {ticket now queued}
    (hq : s.state.queued.lookup ticket.requestId = some queued) :
    Moves mode s (.cancelQueue ticket (.ok now))
      { s with state := cancelQueued (unqueue s.state ticket.requestId) queued now }
      (.finished (.ok ()))
  | failQueueFail {ticket now e}
    (hwhy : now = .error e ∨ s.state.queued.lookup ticket.requestId = none) :
    Moves mode s (.failQueue ticket now) s (.finished (.error e))
  | failQueue {ticket now queued}
    (hq : s.state.queued.lookup ticket.requestId = some queued) :
    Moves mode s (.failQueue ticket (.ok now))
      { s with state := dropQueued (unqueue s.state ticket.requestId) queued now }
      (.finished (.ok ()))
  | complete {reservation completedAt completion} (hmem : reservation ∈ s.held) :
    Moves mode s (.complete reservation completedAt completion)
      { s with
        state := completed s.state reservation completedAt completion
        held := s.held.erase reservation
        unrecorded := holdUsage s.unrecorded (completionUsage reservation completedAt completion) }
      (.completed (completionUsage reservation completedAt completion))
  | recordMiss {usage e} (hmem : usage ∈ s.unrecorded) :
    Moves mode s (.record usage (some e)) { s with unrecorded := s.unrecorded.erase usage }
      (.finished (.error e))
  | record {usage} (hmem : usage ∈ s.unrecorded) :
    Moves mode s (.record usage none)
      { s with unrecorded := s.unrecorded.erase usage, usage := (s.usage.record usage).2 }
      (.finished (s.usage.record usage).1)
  | cancel {reservation timing} (hmem : reservation ∈ s.held) :
    Moves mode s (.cancel reservation timing)
      { s with
        state := cancelReleased (vacate s.state reservation) reservation timing
        held := s.held.erase reservation }
      (.finished (.ok ()))
  | retryFail {reservation now routes safety e} (hmem : reservation ∈ s.held) :
    Moves mode s (.retry reservation now routes safety)
      { s with
        state := failReleased
          (cooled (vacate s.state reservation) reservation.route.placementGroupId now) reservation
          (retryTiming reservation)
        held := s.held.erase reservation }
      (.admission (.error e))
  | retryAdmit {reservation now routes safety cool route} (hmem : reservation ∈ s.held)
    (hcool : cool = markRouteFailure (vacate s.state reservation)
      reservation.route.placementGroupId now) :
    Moves mode s (.retry reservation (.ok now) routes safety)
      { s with
        state :=
          { occupy cool (reservation.requeued now) route with
            telemetry := (occupy cool (reservation.requeued now) route).telemetry.recordRetried
              reservation.route }
        held := (reservation.requeued now).reserved route now :: s.held.erase reservation }
      (.admission (.ok (.admitted ((reservation.requeued now).reserved route now))))
  | retryEnqueue {reservation now routes safety cool} (hmem : reservation ∈ s.held)
    (hcool : cool = markRouteFailure (vacate s.state reservation)
      reservation.route.placementGroupId now)
    (hroom : cool.queued.size < maxQueuedRequests) :
    Moves mode s (.retry reservation (.ok now) routes safety)
      { s with
        state :=
          { Gateway.enqueue cool (reservation.requeued now) with
            telemetry := (Gateway.enqueue cool
              (reservation.requeued now)).telemetry.recordRetried reservation.route }
        held := s.held.erase reservation }
      (.admission (.ok (.queued ⟨reservation.request.requestId⟩)))
  | fail {reservation now timing} (hmem : reservation ∈ s.held) :
    Moves mode s (.fail reservation now timing)
      { s with
        state := failReleased
          (cooled (vacate s.state reservation) reservation.route.placementGroupId now) reservation
          timing
        held := s.held.erase reservation }
      (.finished (now.map fun _ => ()))
  | snapshotMiss {e} : Moves mode s (.snapshot (.error e)) s (.finished (.error e))
  | snapshot {now} :
    Moves mode s (.snapshot (.ok now))
      { s with state := { s.state with telemetry := s.state.telemetry.pruneSamples now } }
      (.finished (.ok ()))
  | restart : Moves mode s .restart { usage := s.usage } .silent

/-- Every step is one of the moves. -/
theorem step_moves {s t : Sys} {label : Label} {o : Output}
    (hacc : Accounted s.state.live s.held []) (h : step mode s label = some (t, o)) :
    Moves mode s label t o := by
  revert h
  fun_cases step mode s label
  case case8 call request arrival recent hcall =>
    intro h
    simp only [Sys.admitCall] at h
    cases hsec : admitSection s.state arrival recent with
    | mk answer state' =>
      rw [hsec] at h
      obtain ⟨e, rfl, hpol⟩ | ⟨charged, hpol, ⟨e, rfl, -, rfl⟩ |
        ⟨route, rfl, hsel, rfl⟩ | ⟨rfl, -, hroom, rfl⟩⟩ := admitSection_cases hsec
      all_goals cases h
      · exact .refuse hcall hpol
      · exact .dismiss hcall hpol
      · exact .admitted hcall hpol hsel
      · exact .enqueue hcall hpol hroom
  -- what is left are the branches that answer, in the order of the definition
  all_goals (intro h; try dsimp +zetaDelta only at h)
  all_goals cases h
  · exact .receive _
  · exact .prepare _ ‹_› (.inl ⟨_, rfl⟩)
  · exact .prepare _ ‹_› (.inr ⟨_, ‹_›, rfl⟩)
  · exact .fetch _ ‹_› (.inl ⟨_, rfl⟩)
  · exact .fetch _ ‹_› (.inr ⟨_, ‹_›, rfl⟩)
  · exact .recordFailure ‹_›
  · exact .pollMiss
  · exact .pollMiss
  · exact .pollRead ‹_›
  · exact .pollIdle ‹_› (by simp)
  · rename_i hpoll _ _ _ answer state' hsec
    obtain ⟨hans, -, rfl⟩ | ⟨queued, hq, ⟨rfl, rfl⟩ | ⟨route, rfl, -, hfst, -, rfl⟩⟩ :=
      pollSection_cases hacc hsec
    · have hheld : holdPoll s.held answer = s.held := by
        unfold holdPoll
        split
        · exact absurd rfl (hans _)
        · rfl
      simp only [hheld]
      exact .pollIdle hpoll hans
    · exact .pollExpire hpoll hq
    · exact .pollAdmit hpoll hq hfst
  · rename_i hsec
    obtain ⟨⟨e, rfl, hwhy⟩, rfl⟩ | ⟨queued, t', rfl, hq, rfl, rfl⟩ := endQueued_cases hsec
    · exact .cancelQueueFail hwhy
    · exact .cancelQueue hq
  · rename_i hsec
    obtain ⟨⟨e, rfl, hwhy⟩, rfl⟩ | ⟨queued, t', rfl, hq, rfl, rfl⟩ := endQueued_cases hsec
    · exact .failQueueFail hwhy
    · exact .failQueue hq
  · rename_i hmem answer state' hsec
    obtain ⟨rfl, rfl⟩ := Prod.mk.inj ((completeRequest_eq hacc hmem _ _).symm.trans hsec)
    exact .complete hmem
  · exact .recordMiss ‹_›
  · rename_i hsec
    obtain ⟨rfl, rfl⟩ := Prod.mk.inj hsec
    exact .record ‹_›
  · rename_i hmem answer state' hsec
    obtain ⟨rfl, rfl⟩ := Prod.mk.inj ((cancelWithTiming_eq hacc hmem _).symm.trans hsec)
    exact .cancel hmem
  · rename_i hmem _ answer state' hsec
    obtain ⟨e, rfl, rfl⟩ | ⟨t', cool, rfl, hcool, ⟨route, rfl, rfl⟩ | ⟨rfl, hroom, rfl⟩⟩ :=
      retryBeforeOutput_cases hacc hmem hsec
    · exact .retryFail hmem
    · exact .retryAdmit hmem hcool
    · exact .retryEnqueue hmem hcool hroom
  · rename_i reservation now timing hmem answer state' hsec
    have hans : (failReservation s.state reservation now timing).1 = now.map fun _ => () := by
      unfold failReservation
      rw [releaseReservation_of_held hacc hmem]
      cases now <;> rfl
    rw [hsec] at hans
    have hsta := failReservation_eq hacc hmem now timing
    rw [hsec] at hsta
    subst hans hsta
    exact .fail hmem
  · exact .snapshotMiss
  · exact .snapshot
  · exact .restart

end LetsInfer.Gateway
