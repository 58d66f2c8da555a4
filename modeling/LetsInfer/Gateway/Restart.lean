import LetsInfer.Gateway.Limits

/-! @src core/gateway/src/li_gateway_manager.rs, core/node/src/li_gateway_usage_database.rs | name:Windows after a restart | scheme:reconstruction

    A process rebuilds the windows of a key from the store. The store selects by completion and
    orders by completion, the load refuses a record that was received before the window, and the
    request window is pruned from its front by receipt. The windows an admission reads are exact
    precisely when those three agree on the records selected: none was received before the window
    starts, and they were received in the order they were completed. -/

namespace LetsInfer.Gateway
open Schemes List Option

def firstCheck (k : ApiKeyId) (tr : List (Sys × Label × Output)) : Option ℕ :=
  tr.findSome? fun e => (checkOf k e.1 e.2.1).map (·.2)

/-- The windows of a key as an admission at `t` uses them hold exactly the loaded records of the last
    minute and what the process itself did in it. -/
structure WindowsExact (k : ApiKeyId) (loaded : List GatewayUsageRecord) (hist : History)
    (state : GatewayState) (t : ℕ) : Prop where
  requests : (prunedRequests state k t).Perm
    ((loaded.map (·.receivedAt) ++ hist.charges).filter fun time => t - 60000 < time)
  tokens : (prunedTokens state k t).Perm
    ((loaded.map (·.entry) ++ hist.completions).filter fun e => t - 60000 < e.1)

/-- A call of the key in any run of a fresh process: it read the clock at `now`, and no admission
    section has loaded the key yet. -/
structure FirstCall (db : UsageDatabase) (k : ApiKeyId) (now : ℕ) (s : Sys) (arrival : Arrival)
    (phase : AdmissionPhase) : Prop where
  run : ∃ mode tr, Run (step mode) { usage := db } tr s ∧ ∀ e ∈ tr, e.2.1 ≠ .restart
  call : ∃ n request, s.admissions.lookup n = some ⟨request, phase⟩
  key : arrival.principal.map (·.keyId) = some k
  now_eq : arrival.now = now
  unloaded : k ∉ s.state.loadedKeys

/-- The clock values that the sections of a run use do not decrease from one section to the next,
    the one that follows the run included. -/
def ClockInOrder (tr : List (Sys × Label × Output)) (s : Sys) (label : Label) : Prop :=
  (windowTimes tr ++ (windowTime s label).toList).Pairwise (· ≤ ·)

/-- A store whose records of a key a process that first admits the key at `now` reconstructs: the
    first admission fetches them, if the store has not grown past what it reads, and loads them; and
    that one and every later one whose clock is in order reads exact windows. -/
structure Reconstructs (db : UsageDatabase) (k : ApiKeyId) (now : ℕ) : Prop where
  fetches : ∀ s arrival load, FirstCall db k now s arrival (.prepared arrival load) →
    s.usage.records.length ≤ max 1000000 db.records.length →
    fetchUsage s.usage arrival load none = .ok (db.matching k (now - 60000))
  loads : ∀ s arrival recent, FirstCall db k now s arrival (.fetched arrival recent) →
    recent = db.matching k (now - 60000) ∧
    ∃ loaded, loadRecentUsage s.state k recent arrival.since arrival.now = (.ok (), loaded)
  exact : ∀ mode tr s label state t, Run (step mode) { usage := db } tr s →
    (∀ e ∈ tr, e.2.1 ≠ .restart) → ClockInOrder tr s label →
    checkOf k s label = some (state, t) → (firstCheck k tr).getD t = now →
    WindowsExact k (db.matching k (now - 60000)) (historyOf k tr) state t

/-- The store holds no more records than it reads, and the records of the key it selects were
    received inside the window, in the order they were completed. -/
structure Reloadable (db : UsageDatabase) (k : ApiKeyId) (now : ℕ) : Prop where
  size : db.records.length ≤ 1000000
  received : ∀ usage ∈ db.matching k (now - 60000), now - 60000 ≤ usage.receivedAt
  sorted : (db.matching k (now - 60000)).Pairwise fun l r => l.receivedAt ≤ r.receivedAt

/-! ### The windows along a run -/

/-- The windows of a loaded key track what was loaded and what the process did. -/
structure Tracked (k : ApiKeyId) (loaded : List GatewayUsageRecord) (hist : History) (now : ℕ)
    (state : GatewayState) : Prop where
  requests : Window.Tracks id rollingWindowMilliseconds now (window state.requestWindows k)
    (loaded.map (·.receivedAt) ++ hist.charges)
  tokens : Window.Tracks Prod.fst rollingWindowMilliseconds now (window state.tokenWindows k)
    (loaded.map (·.entry) ++ hist.completions)

variable {prin : GatewayPrincipal} {rct : List GatewayUsageRecord} {k : ApiKeyId}
  {now since n : ℕ} {st chg : GatewayState} {mode : GatewayMode} {s t : Sys} {lab : Label}
  {o : Output} {req : GatewayRequest} {db : UsageDatabase} {tr : List (Sys × Label × Output)}
  {arr : Arrival}

section Steps

variable {loaded : List GatewayUsageRecord} {hist : History} {st' : GatewayState}

section

variable (h : Tracked k loaded hist now st)
include h

theorem Tracked.advance {now' : ℕ} (hnow : now ≤ now') : Tracked k loaded hist now' st :=
  ⟨h.requests.advance hnow, h.tokens.advance hnow⟩

theorem Tracked.quiet (hqt : Quieter k st st') : Tracked k loaded hist now st' := by
  refine ⟨?_, ?_⟩
  · rw [hqt.requests]
    exact h.requests
  · rw [hqt.tokens]
    exact h.tokens

/-- EXACT: an admission of the key reads exact windows. -/
theorem Tracked.exact : WindowsExact k loaded hist st now where
  requests := .of_eq h.requests.exact
  tokens := .of_eq h.tokens.exact

end

theorem windows_of_admitPrincipal {ans : Except GatewayError Unit}
    (h : admitPrincipal st prin req now = (ans, chg)) :
    window chg.requestWindows prin.keyId =
        prunedRequests st prin.keyId now ++ (if ans.isOk then [now] else []) ∧
      window chg.tokenWindows prin.keyId = prunedTokens st prin.keyId now := by
  cases ans with
  | error e =>
    rw [admitPrincipal_error h]
    simp [pruneWindows, window_insert, Except.isOk, Except.toBool]
  | ok _ =>
    obtain ⟨reserved, rfl, -⟩ := admitPrincipal_ok h
    simp [pruneWindows, window_insert, Except.isOk, Except.toBool]

/-- An admission of the key prunes its windows, and charges it or not. -/
theorem Tracked.check {ans : Except GatewayError Unit} (h : Tracked prin.keyId loaded hist now st)
    (hans : admitPrincipal st prin req now = (ans, chg)) :
    Tracked prin.keyId loaded
      { hist with charges := hist.charges ++ if ans.isOk then [now] else [] } now chg := by
  obtain ⟨hrqs, htok⟩ := windows_of_admitPrincipal hans
  refine ⟨?_, ?_⟩
  · rw [hrqs, ← append_assoc]
    refine h.requests.prune.push fun time htime => ?_
    split_ifs at htime
    · exact mem_singleton.mp htime
    · cases htime
  · rw [htok]
    exact h.tokens.prune

theorem tracked_of_load (hnot : k ∉ st.loadedKeys) (hrqs : window st.requestWindows k = [])
    (htok : window st.tokenWindows k = []) (hcha : hist.charges = []) (hcps : hist.completions = [])
    (hrec : rct.Pairwise fun l r => l.receivedAt ≤ r.receivedAt)
    (hcpd : rct.Pairwise fun l r => l.completedAt ≤ r.completedAt)
    (hload : loadRecentUsage st k rct since now = (.ok (), st')) : Tracked k rct hist now st' := by
  obtain ⟨hval, ⟨hkno, -⟩ | ⟨-, rfl⟩⟩ := loadRecentUsage_ok hload
  · exact absurd hkno hnot
  · obtain ⟨hr, ht⟩ := window_foldl_pushUsage k k rct
      { st with loadedKeys := insert k st.loadedKeys }
    rw [if_pos rfl] at hr ht
    refine ⟨⟨?_, ?_, fun c _ => ?_⟩, ⟨?_, ?_, fun c _ => ?_⟩⟩
    · rw [hr, hrqs, nil_append]
      exact pairwise_map.mpr hrec
    · rw [hr, hrqs, nil_append]
      intro time htime
      obtain ⟨u, husa, rfl⟩ := List.mem_map.mp htime
      exact u.ordered.trans (hval u husa).2.2
    · rw [hr, hrqs, hcha, nil_append, append_nil]
    · rw [ht, htok, nil_append]
      exact pairwise_map.mpr hcpd
    · rw [ht, htok, nil_append]
      intro e he
      obtain ⟨u, husa, rfl⟩ := List.mem_map.mp he
      exact (hval u husa).2.2
    · rw [ht, htok, hcps, nil_append, append_nil]
      rfl

end Steps

/-- What a run has made of the key: nothing yet, or windows that track what was loaded. -/
structure Rebuilt (db : UsageDatabase) (k : ApiKeyId) (now : ℕ)
    (tr : List (Sys × Label × Output)) (s : Sys) : Prop where
  unloaded : k ∉ s.state.loadedKeys → Unloaded k (recordsOf k db.records) s ∧
    (historyOf k tr).charges = [] ∧ (historyOf k tr).completions = [] ∧ firstCheck k tr = none
  loaded : k ∈ s.state.loadedKeys → ∃ t, firstCheck k tr = some t ∧
    (t = now → Tracked k (db.matching k (now - 60000)) (historyOf k tr) (historyOf k tr).now s.state)

section Runs

theorem firstCheck_snoc (tr : List (Sys × Label × Output)) (e : Sys × Label × Output) :
    firstCheck k (tr ++ [e]) = (firstCheck k tr).or ((checkOf k e.1 e.2.1).map (·.2)) := by
  simp [firstCheck, findSome?_append]

theorem firstCheck_append (tr tr' : List (Sys × Label × Output)) :
    firstCheck k (tr ++ tr') = (firstCheck k tr).or (firstCheck k tr') := by
  simp [firstCheck, findSome?_append]

/-- The state in which the first or a later admission of the key reads its windows. -/
theorem Rebuilt.tracked (h : Rebuilt db k now tr s) (hgood : Reloadable db k now)
     {loaded : GatewayState} (hcall : s.admissions.lookup n = some ⟨req, .fetched arr rct⟩)
    (hk : arr.principal.map (·.keyId) = some k)
    (hload : loadRecentUsage s.state k rct arr.since arr.now = (.ok (), loaded))
    (hnow : (historyOf k tr).now ≤ arr.now) (hfst : (firstCheck k tr).getD arr.now = now) :
    Tracked k (db.matching k (now - 60000)) (historyOf k tr) arr.now loaded := by
  by_cases hmem : k ∈ s.state.loadedKeys
  · obtain ⟨t, hchk, htra⟩ := h.loaded hmem
    rw [hchk, getD_some] at hfst
    obtain ⟨-, ⟨-, rfl⟩ | ⟨hnot, -⟩⟩ := loadRecentUsage_ok hload
    · exact (htra hfst).advance hnow
    · exact absurd hmem hnot
  · obtain ⟨hu, hcha, hcps, hchk⟩ := h.unloaded hmem
    rw [hchk, getD_none] at hfst
    have hrct : rct = db.matching k (now - 60000) := by
      rw [matching_eq_windowOf, ← hfst]
      exact hu.calls n _ hcall hk
    subst hrct
    exact tracked_of_load hmem hu.requests hu.tokens hcha hcps hgood.sorted
      (matching_sorted_completedAt db k _) hload

/-- STEP: within a process every step keeps the windows of the key tracked. -/
theorem Moves.rebuilt (h : Moves mode s lab t o) (hacc : InOrder s) (hlb : lab ≠ .restart)
    (hgood : Reloadable db k now) (hr : Rebuilt db k now tr s)
    (htime : ∀ time ∈ windowTime s lab, (historyOf k tr).now ≤ time) :
    Rebuilt db k now (tr ++ [(s, lab, o)]) t := by
  have hlat : (historyOf k tr).now ≤ (windowTime s lab).getD (historyOf k tr).now := by
    cases htms : windowTime s lab with
    | none => exact le_rfl
    | some time => exact htime time htms
  have hfrh : k ∉ s.state.loadedKeys → Unloaded k (recordsOf k db.records) s :=
    fun hnot => (hr.unloaded hnot).1
  have hhist : historyOf k (tr ++ [(s, lab, o)]) =
      { historyOf k tr with
        charges := (historyOf k tr).charges ++ (chargeOf k s lab).toList
        completions := (historyOf k tr).completions ++ (completionOf k lab).toList
        now := (windowTime s lab).getD (historyOf k tr).now } := by
    rw [historyOf_snoc, nextHistory_of_ne_restart hlb]
  cases h.keyStep (k := k) with
  | quiet _ hchk hchg hcpl hqt =>
    rw [hchg, hcpl, toList_none, toList_none, append_nil, append_nil] at hhist
    refine ⟨fun hnot => ?_, fun hmem => ?_⟩
    · obtain ⟨-, hcha, hcps, hfst⟩ :=
        hr.unloaded fun hmem => hnot (hqt.loaded.mpr hmem)
      refine ⟨h.unloaded hacc hlb hfrh hnot, ?_, ?_, ?_⟩
      · rw [hhist, hcha]
      · rw [hhist, hcps]
      · rw [firstCheck_snoc, hfst, hchk]
        rfl
    · obtain ⟨t₀, hfst, htra⟩ := hr.loaded (hqt.loaded.mp hmem)
      refine ⟨t₀, by rw [firstCheck_snoc, hfst]; rfl, fun heq => ?_⟩
      have hlast := ((htra heq).advance hlat).quiet hqt
      rw [hhist]
      exact ⟨hlast.requests, hlast.tokens⟩
  | @check n req arr rct prin loaded chg ans hsec hcall hp hk hload hchk
      hans hchg hqt =>
    subst hsec hk
    have hnow : windowTime s (.admitSection n) = some arr.now := by simp [windowTime, hcall]
    refine ⟨fun hnot => absurd (loaded_of_check hload hans hqt) hnot,
      fun _ => ⟨(firstCheck prin.keyId tr).getD arr.now, ?_, fun hfst => ?_⟩⟩
    · rw [firstCheck_snoc, hchk]
      cases firstCheck prin.keyId tr <;> rfl
    · have htra := hr.tracked hgood hcall (by simp [hp]) hload (htime _ hnow) hfst
      have hlast := (htra.check hans).quiet hqt
      rw [hhist, hchg, hnow]
      refine ⟨?_, ?_⟩
      · simpa [apply_ite] using hlast.requests
      · simpa [completionOf] using hlast.tokens
  | @complete r fin comp e hcom hmem hcpl hmet =>
    subst hcom
    obtain ⟨hk, rfl, -⟩ := completionOf_eq_some hcpl
    have hldd := loaded_of_held hfrh hacc hmem hk
    have hsta : k ∈ t.state.loadedKeys :=
      of_decide_eq_true ((congrArg Meter.loaded hmet).trans (decide_eq_true hldd))
    obtain ⟨t₀, hfst, htra⟩ := hr.loaded hldd
    refine ⟨fun hnot => absurd hsta hnot,
      fun _ => ⟨t₀, by rw [firstCheck_snoc, hfst]; rfl, fun heq => ?_⟩⟩
    have hlast := (htra heq).advance hlat
    have hrqs : window t.state.requestWindows k = window s.state.requestWindows k :=
      congrArg Meter.requests hmet
    have htok : window t.state.tokenWindows k = window s.state.tokenWindows k ++ [e] :=
      congrArg Meter.tokens hmet
    rw [hhist, hcpl]
    refine ⟨?_, ?_⟩
    · simpa [hrqs, chargeOf] using hlast.requests
    · rw [htok, toList_some, ← append_assoc]
      refine hlast.tokens.push fun a ha => ?_
      rw [mem_singleton.mp ha]
      rfl
  | restart hres _ => exact absurd hres hlb

/-- RUN: a key that no section has loaded yet is as it was at the start. -/
theorem unloaded_of_run (h : Run (step mode) { usage := db } tr s)
    (hlbs : ∀ e ∈ tr, e.2.1 ≠ .restart) (hnot : k ∉ s.state.loadedKeys) :
    Unloaded k (recordsOf k db.records) s := by
  induction h with
  | nil => exact .fresh db
  | @snoc tr s t lab o hrun hst ih =>
    have hacc := inOrder_of_run hrun
    exact (step_moves hacc hst).unloaded hacc (hlbs (s, lab, o) (by simp))
      (ih fun e he => hlbs e (mem_append_left _ he)) hnot

/-- RUN: the windows of the key are tracked in every state of a process. -/
theorem rebuilt_of_run (h : Run (step mode) { usage := db } tr s) (hgood : Reloadable db k now)
    (hlbs : ∀ e ∈ tr, e.2.1 ≠ .restart) (htms : (windowTimes tr).Pairwise (· ≤ ·)) :
    Rebuilt db k now tr s := by
  induction h with
  | nil => exact ⟨fun _ => ⟨.fresh db, rfl, rfl, rfl⟩, fun hmem => by simp at hmem⟩
  | @snoc tr s t lab o hrun hst ih =>
    rw [windowTimes_snoc] at htms
    obtain ⟨hbef, -, hlast⟩ := pairwise_append.mp htms
    have hacc := inOrder_of_run hrun
    refine (step_moves hacc hst).rebuilt hacc (hlbs (s, lab, o) (by simp)) hgood
      (ih (fun e he => hlbs e (mem_append_left _ he)) hbef) fun time htime => ?_
    exact historyOf_now_le fun x hx => hlast x hx time (mem_toList.mpr htime)

end Runs

/-! ### One call from its receipt to its admission section -/

section Calls

variable {time : ℕ} {rts : Except GatewayError (List GatewayRoute)} {safety : PlacementSafety}

theorem checkOf_eq_some (h : checkOf k s lab = some (st, time)) :
    ∃ n req arr rct, lab = .admitSection n ∧ s.admissions.lookup n = some ⟨req, .fetched arr rct⟩ ∧
      arr.principal.map (·.keyId) = some k ∧ arr.now = time ∧
      loadRecentUsage s.state k rct arr.since arr.now = (.ok (), st) := by
  unfold checkOf at h
  split at h
  · rename_i n
    split at h
    · rename_i req arr rct hcall
      split_ifs at h with hk
      split at h
      · rename_i hload
        cases h
        exact ⟨n, req, arr, rct, rfl, hcall, hk, rfl, hload⟩
      · cases h
    · cases h
  · cases h

/-- A section that reads the windows of the key leaves the key loaded and its window pruned. -/
theorem Moves.window_of_check (h : Moves mode s lab t o)
    (hchk : checkOf k s lab = some (st, time)) :
    (prunedRequests st k time).Sublist (window t.state.requestWindows k) ∧
      k ∈ t.state.loadedKeys := by
  cases h.keyStep (k := k) with
  | quiet _ hno =>
    rw [hchk] at hno
    cases hno
  | check hlb hcall hp hk hload hchk' hans hchg hqt =>
    refine ⟨?_, loaded_of_check hload hans hqt⟩
    rw [hchk] at hchk'
    cases hchk'
    subst hk
    rw [hqt.requests, (windows_of_admitPrincipal hans).1]
    exact sublist_append_left _ _
  | complete hlb | restart hlb =>
    subst hlb
    cases hchk

def answered (arrival : Arrival) : Except GatewayError (List GatewayUsageRecord) → AdmissionPhase
  | .ok recent => .fetched arrival recent
  | .error e => .failed e

theorem exec_call (s : Sys) {surface : Surface} {time : Except GatewayError UnixMilliseconds}
    (harr : arrive mode req surface time rts safety = .ok arr) :
    ∃ tr t, exec (step mode) s [.receive req, .prepare s.calls surface time rts safety,
        .fetch s.calls none] = some (tr, t) ∧
      t.state = { s.state with telemetry := s.state.telemetry.recordReceived } ∧
      t.admissions.lookup s.calls = some ⟨req,
        answered arr (fetchUsage s.usage arr (shouldLoadUsage s.state arr) none)⟩ ∧
      t.calls = s.calls + 1 ∧
      windowTimes tr = [] ∧ firstCheck k tr = none ∧ ∀ e ∈ tr, e.2.1 ≠ .restart := by
  have hload : shouldLoadUsage { s.state with telemetry := s.state.telemetry.recordReceived }
      arr = shouldLoadUsage s.state arr := rfl
  simp only [exec, step, Finmap.lookup_insert, harr, Sys.setPhase, hload]
  cases fetchUsage s.usage arr (shouldLoadUsage s.state arr) none with
  | error e | ok rct =>
    refine ⟨_, _, rfl, rfl, ?_, rfl, rfl, rfl, by simp⟩
    simp [answered]

/-- An admission section without routes: no request is placed. -/
theorem step_admit_unrouted (mode : GatewayMode)
    (hcall : s.admissions.lookup n = some ⟨req, .fetched arr rct⟩) (hrts : arr.routes = []) :
    ∃ t o, step mode s (.admitSection n) = some (t, o) ∧ SamePlaces s.state t.state ∧
      t.calls = s.calls := by
  have hsel : ∀ st, selectRoute st arr.request arr.routes arr.now = .error .noRoute := by
    intro st
    simp [selectRoute, hrts]
  simp only [step, hcall, Sys.admitCall]
  cases hsec : admitSection s.state arr rct with
  | mk ans st' =>
    obtain ⟨e, rfl, hpol⟩ | ⟨chg, hpol, ⟨e, rfl, -, rfl⟩ | ⟨rt, -, hrou, -⟩ |
      ⟨-, hbusy, -⟩⟩ := admitSection_cases hsec
    · exact ⟨_, _, rfl, admitPolicy_places hpol, rfl⟩
    · exact ⟨_, _, rfl, (admitPolicy_places hpol).trans (releasePrincipal_places ..), rfl⟩
    · rw [hsel] at hrou
      cases hrou
    · rw [hsel] at hbusy
      cases hbusy

/-- The first call of a key, without routes. -/
def soloArrival (k : ApiKeyId) (now : ℕ) : Arrival :=
  ⟨sampleRequest "a", some ⟨k, unlimited⟩, now, []⟩

theorem firstCall_prepared (db : UsageDatabase) (k : ApiKeyId) (now : ℕ) :
    ∃ s, FirstCall db k now s (soloArrival k now) (.prepared (soloArrival k now) true) ∧
      s.usage = db := by
  have hexec : ∃ tr s, exec (step sampleMode) { usage := db } [.receive (sampleRequest "a"),
      .prepare 0 (.publicMain (.ok ⟨k, unlimited⟩)) (.ok now) (.ok []) fun _ => .ok true] =
        some (tr, s) ∧ (∀ e ∈ tr, e.2.1 ≠ .restart) ∧
      s.admissions.lookup 0 = some ⟨sampleRequest "a", .prepared (soloArrival k now) true⟩ ∧
      s.state.loadedKeys = ∅ ∧ s.usage = db := by
    refine ⟨_, _, rfl, by simp, ?_, rfl, rfl⟩
    simp [Sys.setPhase, shouldLoadUsage, soloArrival, sampleRequest]
  obtain ⟨tr, s, hexec, hlbs, hcall, hno, hdb⟩ := hexec
  exact ⟨s, ⟨⟨_, tr, (Run.of_exec hexec).1, hlbs⟩, ⟨0, _, hcall⟩, rfl, rfl, by simp [hno]⟩, hdb⟩

theorem checkOf_first {ans : Except GatewayError (List GatewayUsageRecord)}
    {tel : GatewayTelemetryState} {loaded : GatewayState} (hsta : s.state = { telemetry := tel })
    (hcall : s.admissions.lookup 0 = some ⟨req, answered arr ans⟩)
    (hk : arr.principal.map (·.keyId) = some k) :
    checkOf k s (.admitSection 0) = some (loaded, time) ↔ ∃ rct, ans = .ok rct ∧ arr.now = time ∧
      loadRecentUsage s.state k rct arr.since arr.now = (.ok (), loaded) := by
  have hnew : requireNewRequest s.state arr.request.requestId = .ok () := by
    simp [requireNewRequest, hsta, Finmap.notMem_empty]
  cases ans with
  | error e => simp [checkOf, hcall, answered]
  | ok rct =>
    simp only [checkOf, hcall, answered, hk, if_true, hnew, Except.ok.injEq, exists_eq_left']
    cases hload : loadRecentUsage s.state k rct arr.since arr.now with
    | mk ans st =>
      cases ans with
      | error e => simp
      | ok _ => simp [and_comm]

end Calls

/-! ### When a store reconstructs -/

section Reconstruction

/-- Before the key is loaded the store has the records of the key that it began with. -/
theorem FirstCall.unloaded_key {phase : AdmissionPhase} (h : FirstCall db k now s arr phase) :
    Unloaded k (recordsOf k db.records) s ∧ Informed k (recordsOf k db.records) phase := by
  obtain ⟨mode, tr, hrun, hlbs⟩ := h.run
  obtain ⟨n, req, hcall⟩ := h.call
  have hu := unloaded_of_run hrun hlbs h.unloaded
  exact ⟨hu, hu.calls n _ hcall⟩

theorem Reloadable.reconstructs (h : Reloadable db k now)
    (hpast : ∀ u ∈ db.records, u.keyId = k → u.completedAt ≤ now) : Reconstructs db k now where
  fetches s arr load hfst hsize := by
    obtain ⟨hu, hinf⟩ := hfst.unloaded_key
    obtain ⟨prin, hp, hk⟩ := map_eq_some_iff.mp hfst.key
    have hload : load = true := hinf hfst.key
    have hfew : ¬s.usage.records.length > maximumUsageRecords :=
      not_lt.mpr (hsize.trans (max_le le_rfl h.size))
    simp only [fetchUsage, hp, hload, if_true, hk, UsageDatabase.recent, if_neg hfew, Arrival.since,
      hfst.now_eq, matching_eq_windowOf, hu.stored]
    rfl
  loads s arr rct hfst := by
    have hrct : rct = db.matching k (now - 60000) := by
      rw [matching_eq_windowOf, ← hfst.now_eq]
      exact hfst.unloaded_key.2 hfst.key
    subst hrct
    refine ⟨rfl, loadRecentUsage_of_valid s.state k _ arr.since arr.now fun u husa => ?_⟩
    obtain ⟨hmem, hkey, -⟩ := mem_matching.mp husa
    rw [Arrival.since, hfst.now_eq]
    exact ⟨hkey, h.received u husa, hpast u hmem hkey⟩
  exact mode tr s lab st t hrun hlbs htms hchk hfst := by
    obtain ⟨n, req, arr, rct, rfl, hcall, hk, rfl, hload⟩ := checkOf_eq_some hchk
    obtain ⟨hbef, -, hlast⟩ := pairwise_append.mp htms
    have hnow : windowTime s (.admitSection n) = some arr.now := by simp [windowTime, hcall]
    have hreb := rebuilt_of_run hrun h hlbs hbef
    refine (hreb.tracked h hcall hk hload (historyOf_now_le fun x hx => ?_) hfst).exact
    exact hlast x hx _ (by simp [hnow])

theorem recent_eq_ok (h : db.recent k since = .ok rct) :
    db.records.length ≤ 1000000 ∧ rct = db.matching k since := by
  unfold UsageDatabase.recent at h
  split_ifs at h with hsize
  exact ⟨not_lt.mp hsize, (Except.ok.inj h).symm⟩

theorem Reconstructs.recent (h : Reconstructs db k now) :
    db.recent k (now - 60000) = .ok (db.matching k (now - 60000)) := by
  obtain ⟨s, hfst, rfl⟩ := firstCall_prepared db k now
  exact h.fetches s _ _ hfst (le_max_right _ _)

/-- The first call of the key without routes, and what its section reads. -/
theorem Reconstructs.first (h : Reconstructs db k now) :
    ∃ tr s loaded, Run (step sampleMode) { usage := db } tr s ∧
      s.admissions.lookup 0 = some ⟨sampleRequest "a",
        .fetched (soloArrival k now) (db.matching k (now - 60000))⟩ ∧
      s.state = { telemetry := ({} : GatewayTelemetryState).recordReceived } ∧ s.calls = 1 ∧
      loadRecentUsage s.state k (db.matching k (now - 60000)) (now - 60000) now = (.ok (), loaded) ∧
      checkOf k s (.admitSection 0) = some (loaded, now) ∧
      windowTimes tr = [] ∧ firstCheck k tr = none ∧ ∀ e ∈ tr, e.2.1 ≠ .restart := by
  have harr : arrive sampleMode (sampleRequest "a") (.publicMain (.ok ⟨k, unlimited⟩)) (.ok now)
      (.ok []) (fun _ => .ok true) = .ok (soloArrival k now) := rfl
  obtain ⟨tr, s, hexec, hsta, hcall, hcls, htms, hchk, hlbs⟩ := exec_call (k := k) { usage := db } harr
  have hfet : fetchUsage db (soloArrival k now) (shouldLoadUsage {} (soloArrival k now)) none =
      .ok (db.matching k (now - 60000)) := by
    simp only [fetchUsage, soloArrival, shouldLoadUsage, Finset.notMem_empty, not_false_eq_true,
      decide_true, if_true]
    exact h.recent
  rw [hfet] at hcall
  have hrun := (Run.of_exec hexec).1
  obtain ⟨-, loaded, hload⟩ := h.loads s (soloArrival k now) _
    ⟨⟨_, tr, hrun, hlbs⟩, ⟨0, _, hcall⟩, rfl, rfl, by simp [hsta]⟩
  refine ⟨tr, s, loaded, hrun, hcall, hsta, hcls, hload, ?_, htms, hchk, hlbs⟩
  exact (checkOf_first hsta hcall rfl).mpr ⟨_, rfl, rfl, hload⟩

theorem exec_second (hmem : k ∈ s.state.loadedKeys)
    (hact : s.state.activeRequests = ∅) (hque : s.state.queued = ∅) (time : ℕ) :
    ∃ tr t, Run (step sampleMode) s tr t ∧ t.state.requestWindows = s.state.requestWindows ∧
      checkOf k t (.admitSection s.calls) = some (t.state, time) ∧ windowTime t
      (.admitSection s.calls) = some time ∧ windowTimes tr = [] ∧ ∀ e ∈ tr, e.2.1 ≠ .restart := by
  have harr : arrive sampleMode (sampleRequest "b") (.publicMain (.ok ⟨k, unlimited⟩))
      (.ok time) (.ok []) (fun _ => .ok true) =
        .ok ⟨sampleRequest "b", some ⟨k, unlimited⟩, time, []⟩ := rfl
  obtain ⟨tr, t, hexec, hsta, hcall, -, htms, -, hlbs⟩ := exec_call (k := k) s harr
  have hskip : shouldLoadUsage s.state ⟨sampleRequest "b", some ⟨k, unlimited⟩, time, []⟩ = false := by
    simp [shouldLoadUsage, hmem]
  rw [hskip] at hcall
  refine ⟨tr, t, (Run.of_exec hexec).1, by rw [hsta], ?_, ?_, htms, hlbs⟩
  · simp [checkOf, hcall, answered, fetchUsage, requireNewRequest, loadRecentUsage, hsta, hmem,
      hact, hque, Finmap.notMem_empty]
  · simp [windowTime, hcall, answered, fetchUsage]

/-- Two records in completion order were received in that order: otherwise a second call, at the
    time the second record leaves the window, finds it behind the first one. -/
theorem Reconstructs.ordered (h : Reconstructs db k now) {a b : GatewayUsageRecord}
    (hsub : [a, b].Sublist (db.matching k (now - 60000))) : a.receivedAt ≤ b.receivedAt := by
  by_contra hlt
  rw [not_le] at hlt
  obtain ⟨tr, s, loaded, hrun, hcall, hsta, hcls, hload, hchk, htms, hfst, hlbs⟩ := h.first
  obtain ⟨hval, ⟨hkno, -⟩ | ⟨-, hldd⟩⟩ := loadRecentUsage_ok hload
  · simp [hsta] at hkno
  have hb : now - 60000 ≤ b.receivedAt := (hval b (hsub.subset (by simp))).2.1
  -- the first call leaves both in the req window, in this order
  obtain ⟨s₁, o₁, hsec, hpl, -⟩ := step_admit_unrouted sampleMode hcall rfl
  obtain ⟨hpru, hmem⟩ := (step_moves (inOrder_of_run hrun) hsec).window_of_check hchk
  have hwin : window loaded.requestWindows k =
      (db.matching k (now - 60000)).map (·.receivedAt) := by
    rw [hldd, (window_foldl_pushUsage ..).1, if_pos rfl, hsta]
    rfl
  have hkept : [a.receivedAt, b.receivedAt].Sublist (window s₁.state.requestWindows k) := by
    refine List.Sublist.trans (Window.sublist_prune id ?_ (lt_of_le_of_lt hb hlt)) hpru
    rw [hwin]
    exact hsub.map (·.receivedAt)
  -- the second call comes when `b` leaves the window
  obtain ⟨tr₂, s₂, hrun₂, hwnd, hchk₂, htime₂, htms₂, hlbs₂⟩ := exec_second hmem
    (hpl.activeRequests.trans (by rw [hsta])) (hpl.queued.trans (by rw [hsta]))
    (b.receivedAt + 60000)
  have htime : windowTime s (.admitSection 0) = some now := by
    simp [windowTime, hcall, soloArrival]
  have hexa := h.exact _ _ _ _ _ _ ((Run.snoc hrun hsec).trans hrun₂) ?_ ?_ hchk₂ ?_
  · have hin : b.receivedAt ∈ prunedRequests s₂.state k (b.receivedAt + 60000) := by
      refine (Window.sublist_prune id (hwnd ▸ hkept) ?_).subset (by simp)
      simpa [rollingWindowMilliseconds] using hlt
    simpa using hexa.requests.mem_iff.mp hin
  · intro e he
    simp only [mem_append, mem_singleton] at he
    rcases he with (he | rfl) | he
    · exact hlbs e he
    · simp
    · exact hlbs₂ e he
  · rw [ClockInOrder, windowTimes_append, windowTimes_snoc, htms, htms₂, htime, htime₂]
    simp only [toList_some, nil_append, append_nil, pairwise_append,
      pairwise_singleton, mem_singleton, true_and]
    rintro x rfl y rfl
    omega
  · rw [firstCheck_append, firstCheck_snoc, hfst, hchk]
    rfl

theorem Reconstructs.reloadable (h : Reconstructs db k now) : Reloadable db k now := by
  obtain ⟨tr, s, loaded, -, -, -, -, hload, -⟩ := h.first
  exact ⟨(recent_eq_ok h.recent).1, fun u husa => ((loadRecentUsage_ok hload).1 u husa).2.1,
    pairwise_iff_forall_sublist.mpr fun hsub => h.ordered hsub⟩

/-- CORRECT exactly under the condition: a store is reconstructed if and only if it is small enough to
    be read, and the records of the key it selects were received inside the window, in the order of
    their completion. -/
theorem reconstructs_iff (hpast : ∀ usage ∈ db.records, usage.keyId = k → usage.completedAt ≤ now) :
    Reconstructs db k now ↔ Reloadable db k now :=
  ⟨Reconstructs.reloadable, fun h => h.reconstructs hpast⟩

end Reconstruction

def oneRecord (received completed : ℕ) (h : received ≤ completed) : UsageDatabase where
  records := [⟨⟨"r"⟩, ⟨"key"⟩, received, completed, 1, h⟩]

/-- A short request is reconstructed. -/
theorem reconstructs_iff_short : Reconstructs (oneRecord 65000 66000 (by decide)) ⟨"key"⟩ 70000 := by
  refine (reconstructs_iff (by decide)).mpr ⟨by decide, by decide, by decide⟩

/-- A request that took longer than a minute and completed five seconds before the restart: the
    store selects it, and the first admission of its key is refused as a contract violation. -/
theorem long_request_not_reconstructed :
    (∀ usage ∈ (oneRecord 1000 65000 (by decide)).records, usage.completedAt ≤ 70000) ∧
    ¬Reconstructs (oneRecord 1000 65000 (by decide)) ⟨"key"⟩ 70000 := by
  exact ⟨by decide, fun h => absurd h.reloadable.received (by decide)⟩

end LetsInfer.Gateway
