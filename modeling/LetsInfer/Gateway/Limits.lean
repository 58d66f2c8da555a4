import LetsInfer.Gateway.Loading

/-! @src core/gateway/src/li_gateway_manager.rs | name:Per-key limits | scheme:quota

    A run gives a key its history: the admissions that charged it, the tokens it completed, and the
    usage on record when the process started. The meter of the key stays bounded by that history
    along every run with a clock that does not go back, so no configured limit is ever exceeded. A
    process starts with an empty meter and loads the usage on record in the first admission of the
    key. The source cuts its windows at `now - 60000`, where the subtraction stops at zero; with a
    positive clock that is the last minute. -/

namespace LetsInfer.Gateway
open Schemes List Option

/-! ### The history of a key -/

def ApiKeyLimits.ceilings (limits : ApiKeyLimits) : Ceilings where
  concurrency := limits.concurrency.map (·.1)
  rate := limits.requestsPerMinute.map (·.1)
  volume := limits.tokensPerMinute.map (·.1)

def entriesOf (k : ApiKeyId) (records : List GatewayUsageRecord) : List (ℕ × ℕ) :=
  (recordsOf k records).map (·.entry)

/-- The history of a key after one more step; a restart keeps what is on record. -/
def nextHistory (k : ApiKeyId) (h : History) (e : Sys × Label × Output) : History :=
  match e.2.1 with
  | .restart => { base := entriesOf k e.1.usage.records, now := h.now }
  | label =>
    { h with
      charges := h.charges ++ (chargeOf k e.1 label).toList
      completions := h.completions ++ (completionOf k label).toList
      now := (windowTime e.1 label).getD h.now }

/-- The history of a key in a run that starts with nothing on record. -/
def historyOf (k : ApiKeyId) (tr : List (Sys × Label × Output)) : History :=
  tr.foldl (nextHistory k) {}

/-- The clock values a run used under the lock, in order. -/
def windowTimes (tr : List (Sys × Label × Output)) : List ℕ :=
  tr.filterMap fun e => windowTime e.1 e.2.1

/-! ### What a run must respect -/

/-- The limits of the key do not change: every credential check answers with the same ones. -/
def steady (k : ApiKeyId) (limits : ApiKeyLimits) : Label → Bool
  | .prepare _ (.publicMain (.ok principal)) _ _ _ =>
    principal.keyId ≠ k ∨ principal.limits = limits
  | _ => true

/-- A completion charges at most what its request asked for. -/
def honest : Label → Bool
  | .complete reservation _ completion =>
    completion.inputTokens + completion.outputTokens ≤ reservation.request.tokenDemand
  | _ => true

/-! ### Live requests carry the limits they were admitted under -/

/-- A live request of the key has the key's limits and reserves what they ask for. -/
def Tagged (k : ApiKeyId) (limits : ApiKeyLimits) (principal : Option GatewayPrincipal)
    (request : GatewayRequest) (tokens : ℕ) : Prop :=
  ∀ p, principal = some p → p.keyId = k → p.limits = limits ∧ tokens = p.reserves request

/-- What a call knows once its credential check and its clock read are done. -/
def AdmissionPhase.arrival : AdmissionPhase → Option Arrival
  | .prepared arrival _ => some arrival
  | .fetched arrival _ => some arrival
  | _ => none

/-- Every call past its credential check and every live request of the key has its limits. -/
structure AllTagged (k : ApiKeyId) (limits : ApiKeyLimits) (s : Sys) : Prop where
  calls : ∀ n call arrival, s.admissions.lookup n = some call → call.phase.arrival = some arrival →
    Tagged k limits arrival.principal arrival.request arrival.reservedTokens
  held : ∀ r ∈ s.held, Tagged k limits r.principal r.request r.reservedTokens
  queued : ∀ id q, s.state.queued.lookup id = some q →
    Tagged k limits q.principal q.request q.reservedTokens

variable {k : ApiKeyId} {limits : ApiKeyLimits} {mode : GatewayMode} {s t : Sys} {lab : Label}
  {o : Output} {req : GatewayRequest} {now : Except GatewayError UnixMilliseconds}
  {rts : Except GatewayError (List GatewayRoute)} {safety : PlacementSafety} {hist : History}
  {since time : ℕ} {tr : List (Sys × Label × Output)}

section Tags

theorem arrive_tagged {surface : Surface} {arr : Arrival} {call : ℕ}
    (h : arrive mode req surface now rts safety = .ok arr)
    (hsdy : steady k limits (.prepare call surface now rts safety) = true) :
    Tagged k limits arr.principal arr.request arr.reservedTokens := by
  intro p hp hk
  have hsur : surface = .publicMain (.ok p) := by
    unfold arrive at h
    split at h
    · cases h
    · rename_i prin hauth
      split at h
      · cases h
      · split at h
        · cases h
        · cases h
          subst hp
          unfold authorizeSurface at hauth
          split at hauth
          · split at hauth
            · cases hauth
            · split at hauth <;> cases hauth
              rfl
          · split at hauth
            · cases hauth
            · split at hauth
              · cases hauth
              · split_ifs at hauth
                cases hauth
  subst hsur
  have hlim : p.keyId = k → p.limits = limits := by
    simpa [steady, imp_iff_not_or] using hsdy
  exact ⟨hlim hk, by simp [Arrival.reservedTokens, hp]⟩

theorem AllTagged.rephase {n x : ℕ} {new call : AdmissionCall} {arr : Arrival}
    (h : AllTagged k limits s) (hnew : ∀ arr, new.phase.arrival = some arr →
      Tagged k limits arr.principal arr.request arr.reservedTokens)
    (hn : (s.admissions.insert x new).lookup n = some call) (ha : call.phase.arrival = some arr) :
    Tagged k limits arr.principal arr.request arr.reservedTokens := by
  rcases Table.insert_cases rfl hn with ⟨-, rfl⟩ | ⟨-, hn⟩
  · exact hnew arr ha
  · exact h.calls n call arr hn ha

/-- STEP: every step keeps the tags while the limits of the key are steady. -/
theorem Moves.allTagged (h : Moves mode s lab t o) (htags : AllTagged k limits s)
    (hsdy : steady k limits lab = true) : AllTagged k limits t where
  calls n call arr hn ha := by
    cases h with
    | receive | refuse | dismiss => exact htags.rephase (fun _ ha => by cases ha) hn ha
    | prepare phase hcall hph =>
      refine htags.rephase (fun arr ha => ?_) hn ha
      rcases hph with ⟨e, rfl⟩ | ⟨arr', harr, rfl⟩
      · cases ha
      · cases ha
        exact arrive_tagged harr hsdy
    | fetch phase hcall hph =>
      refine htags.rephase (fun arr ha => ?_) hn ha
      rcases hph with ⟨e, rfl⟩ | ⟨rct, -, rfl⟩
      · cases ha
      · cases ha
        exact htags.calls _ _ _ hcall rfl
    | admitted | enqueue | recordFailure =>
      exact htags.calls n call arr (Table.lookup_of_erase hn) ha
    | restart => cases hn
    | _ => exact htags.calls n call arr hn ha
  held r hr := by
    obtain hr | ⟨_, _, _, _, _, hcall, rfl⟩ | ⟨_, _, _, _, _, -, hq, -, rfl⟩ |
      ⟨old, hold, _, _, rfl⟩ := h.held_from hr
    · exact htags.held r hr
    · exact htags.calls _ _ _ hcall rfl
    · exact htags.queued _ _ hq
    · exact htags.held old hold
  queued id q hq := by
    obtain hq | ⟨_, _, _, _, hcall, rfl⟩ | ⟨r, hr, _, rfl⟩ := h.queued_from hq
    · exact htags.queued id q hq
    · exact htags.calls _ _ _ hcall rfl
    · exact htags.held r hr

end Tags

/-! ### Loading and charging -/

section Meters

variable {lim : Ceilings} {w : ℕ} {st st' : GatewayState}
  {rct rs : List GatewayUsageRecord}

/-- A window of the store shows, after its start, exactly what is on record. -/
theorem load_windowOf (rs : List GatewayUsageRecord) {c : ℕ} (hc : since ≤ c) :
    Window.load c ((windowOf rs since).map (·.entry)) = Window.load c (rs.map (·.entry)) := by
  have hperm : (windowOf rs since).Perm (rs.filter fun u => since ≤ u.completedAt) :=
    perm_insertionSort _ _
  rw [Window.load_perm (hperm.map _)]
  unfold Window.load Window.after
  rw [List.filter_map, List.filter_map, List.filter_filter]
  congr 3
  refine filter_congr fun u _ => ?_
  simp only [Function.comp_apply, GatewayUsageRecord.entry, ← Bool.decide_and, decide_eq_decide]
  omega

theorem windowOf_sorted (rs : List GatewayUsageRecord) (since : ℕ) :
    ((windowOf rs since).map (·.entry)).Pairwise fun a b => a.1 ≤ b.1 := by
  have hsor : (windowOf rs since).Pairwise usageBefore := pairwise_insertionSort _ _
  refine pairwise_map.mpr (hsor.imp fun h => ?_)
  rcases usageBefore_iff.mp h with h | ⟨h, -⟩ <;> exact h.le

theorem bounded_load (hb : Bounded w lim (st.meter k) hist) (hsin : since = hist.now - w)
    (hbase : hist.base = rs.map (·.entry)) (hrct : k ∉ st.loadedKeys → rct = windowOf rs since)
    (hload : loadRecentUsage st k rct since hist.now = (.ok (), st')) : Bounded w lim
    (st'.meter k) hist ∧ k ∈ st'.loadedKeys := by
  obtain ⟨hval, ⟨hkno, rfl⟩ | ⟨hnew, rfl⟩⟩ := loadRecentUsage_ok hload
  · exact ⟨hb, hkno⟩
  · refine ⟨?_, by rw [foldl_pushUsage_eq]; exact Finset.mem_insert_self _ _⟩
    have hunl : (st.meter k).loaded = false := decide_eq_false hnew
    have hpast : ∀ e ∈ rct.map (·.entry), e.1 ≤ hist.now := by
      intro e he
      obtain ⟨u, husa, rfl⟩ := List.mem_map.mp he
      exact (hval u husa).2.2
    obtain rfl := hrct hnew
    have hldd := hb.load ((windowOf rs since).map (·.receivedAt)) hunl
      (windowOf_sorted rs since) hpast fun c hc => by
        rw [hbase]
        exact load_windowOf rs (hsin ▸ hc)
    rw [meter_foldl_pushUsage]
    simpa [GatewayState.meter] using hldd

/-- A granted admission of the key keeps its meter bounded; its charge is part of the history. -/
theorem bounded_charge {p : GatewayPrincipal}
    (hb : Bounded rollingWindowMilliseconds p.limits.ceilings
      (st.meter p.keyId) hist) (hldd : p.keyId ∈ st.loadedKeys)
    (hok : admitPrincipal st p req hist.now = (.ok (), st')) :
    Bounded rollingWindowMilliseconds p.limits.ceilings (st'.meter p.keyId)
      { hist with charges := hist.charges ++ [hist.now] } := by
  obtain ⟨reserved, rfl, hrsv, hrate, hccy, hvol⟩ := admitPrincipal_ok hok
  have hpru := hb.prune
  have hmet : ({ pruneWindows st p.keyId hist.now with
        requestWindows := (pruneWindows st p.keyId hist.now).requestWindows.insert
          p.keyId (prunedRequests st p.keyId hist.now ++ [hist.now])
        principalActive := st.principalActive.insert p.keyId (st.principalActive.amount p.keyId + 1)
        principalReservedTokens := reserved } : GatewayState).meter p.keyId =
      { st.meter p.keyId with
        requests := prunedRequests st p.keyId hist.now ++ [hist.now]
        tokens := prunedTokens st p.keyId hist.now
        active := st.principalActive.amount p.keyId + 1
        reserved := st.principalReservedTokens.amount p.keyId +
          p.reserves req } := by
    simp only [GatewayState.meter, pruneWindows, window_insert, Table.amount_insert, hrsv, if_true]
    rfl
  rw [hmet]
  refine hpru.charge (decide_eq_true hldd) ?_ ?_ ?_
  · intro l hl
    obtain ⟨limit, hlim, rfl⟩ := map_eq_some_iff.mp hl
    exact hccy limit hlim
  · intro l hl
    obtain ⟨limit, hlim, rfl⟩ := map_eq_some_iff.mp hl
    exact hrate limit hlim
  · intro l hl
    obtain ⟨limit, hlim, rfl⟩ := map_eq_some_iff.mp hl
    -- the pruned window holds exactly what was worked in it, so its sum does not wrap
    have hsum : ((prunedTokens st p.keyId hist.now).map Prod.snd).sum =
        hist.worked (hist.now - rollingWindowMilliseconds) := by
      rw [← hb.tokens_kept (decide_eq_true hldd) _ le_rfl, Window.load,
        ← Window.prune_eq_after hb.tokens_sorted]
      rfl
    have hfits := hb.volume limit.1 hl
    have hwrap : hist.worked (hist.now - rollingWindowMilliseconds) < 2 ^ 64 := by
      omega
    have hche := hvol limit hlim
    rw [sumU64, hsum, Nat.mod_eq_of_lt hwrap] at hche
    simpa [GatewayState.meter, GatewayPrincipal.reserves, hlim] using hche

end Meters

/-! ### The meter along a run -/

/-- The meter of the key is bounded by its history; what is or will be stored of the key's work is
    part of it, and a key that is not loaded is as the process found it. -/
structure Metered (k : ApiKeyId) (limits : ApiKeyLimits) (s : Sys) (hist : History) : Prop where
  bounded : Bounded rollingWindowMilliseconds limits.ceilings (s.state.meter k) hist
  stored : ∀ c, Window.load c (entriesOf k s.usage.records ++ entriesOf k s.unrecorded) ≤
    hist.worked c
  fresh : ∃ records, hist.base = records.map (·.entry) ∧
    (k ∉ s.state.loadedKeys → Unloaded k records s)

section Runs

theorem nextHistory_of_ne_restart (hlb : lab ≠ .restart) :
    nextHistory k hist (s, lab, o) =
      { hist with
        charges := hist.charges ++ (chargeOf k s lab).toList
        completions := hist.completions ++ (completionOf k lab).toList
        now := (windowTime s lab).getD hist.now } := by
  unfold nextHistory
  split
  · rename_i heq
    exact absurd heq hlb
  · rfl

section

variable (h : Moves mode s lab t o)
include h

/-- STEP: what is stored stays part of the history. -/
theorem Moves.stored_le (hlb : lab ≠ .restart)
    (hsto : ∀ c, Window.load c (entriesOf k s.usage.records ++ entriesOf k s.unrecorded) ≤
      hist.worked c) (c : ℕ) :
    Window.load c (entriesOf k t.usage.records ++ entriesOf k t.unrecorded) ≤
      (nextHistory k hist (s, lab, o)).worked c := by
  obtain ⟨new, dropped, hnew, hperm⟩ := h.storage (k := k)
  have hload := Window.load_perm (c := c) (hperm.map (·.entry))
  have hcpd : Window.load c (new.map (·.entry)) ≤ Window.load c (completionOf k lab).toList :=
    ((hnew.filter _).map _).sum_le_sum fun _ _ => Nat.zero_le _
  have hold := hsto c
  rw [nextHistory_of_ne_restart hlb]
  simp only [map_append, Window.load_append, entriesOf, History.worked] at hload hold ⊢
  omega

/-- STEP: every step keeps the meter of the key bounded, as long as its calls carry its limits, the
    clock does not go back and completions are honest. -/
theorem Moves.bounded (hacc : InOrder s)
    (htags : AllTagged k limits s) (hm : Metered k limits s hist) (hhon : honest lab = true)
    (htime : ∀ time ∈ windowTime s lab, hist.now ≤ time) :
    Bounded rollingWindowMilliseconds limits.ceilings (t.state.meter k)
      (nextHistory k hist (s, lab, o)) := by
  have hlat : hist.now ≤ (windowTime s lab).getD hist.now := by
    cases htms : windowTime s lab with
    | none => exact le_rfl
    | some time => exact htime time htms
  have hb := hm.bounded.advance hlat
  obtain ⟨rs, hbase, hfrh⟩ := hm.fresh
  cases h.keyStep (k := k) with
  | quiet hlb hchk hchg hcpl hqt =>
    rw [nextHistory_of_ne_restart hlb, hchg, hcpl]
    simpa using hqt.bounded hb
  | @check n req arr rct p loaded chg ans hlb hcall hp hk hload hchk
      hans hchg hqt =>
    subst hlb hk
    obtain ⟨rfl, -⟩ := htags.calls n _ arr hcall rfl p hp rfl
    have hnow : windowTime s (.admitSection n) = some arr.now := by simp [windowTime, hcall]
    rw [hnow, getD_some] at hb
    have hrct : p.keyId ∉ s.state.loadedKeys → rct = windowOf rs arr.since :=
      fun hnot => (hfrh hnot).calls n _ hcall (by simp [hp])
    obtain ⟨hldd, hmem⟩ := bounded_load hb rfl hbase hrct hload
    rw [nextHistory_of_ne_restart (by simp), hchg, hnow]
    refine hqt.bounded ?_
    cases ans with
    | error e =>
      have hpru := hldd.prune
      rw [admitPrincipal_error hans, meter_pruneWindows]
      simp only [Except.isOk, Except.toBool, completionOf, Bool.false_eq_true, if_false,
        toList_none, append_nil]
      exact hpru
    | ok _ =>
      have hcha := bounded_charge hldd hmem hans
      simpa [Except.isOk, Except.toBool, completionOf] using hcha
  | @complete r fin comp e hlb hmem hcpl hmet =>
    subst hlb
    obtain ⟨hk, rfl, htok⟩ := completionOf_eq_some hcpl
    have hldd := loaded_of_held hfrh hacc hmem hk
    rw [nextHistory_of_ne_restart (by simp), hcpl, hmet]
    have hdone := hb.complete (decide_eq_true hldd) (Nat.sub_le _ 1)
      (n := e.2) (d := r.reservedTokens) fun l hl => ?_
    · simpa [chargeOf, windowTime] using hdone
    -- the reservation was for the whole demand, and the completion stays within it
    · obtain ⟨p, hp, hkey⟩ := map_eq_some_iff.mp hk
      obtain ⟨hlim, hres⟩ := htags.held r hmem p hp hkey
      obtain ⟨limit, hlmt, -⟩ := map_eq_some_iff.mp hl
      rw [GatewayPrincipal.reserves, hlim, hlmt] at hres
      have hcov := (hacc.covers_held hmem k).2
      simp only [Claim.load, GatewayReservation.claim, Claim.of, hk, if_true] at hcov
      refine ⟨?_, hcov⟩
      rw [hres]
      unfold Completion.totalTokens checkedAdd at htok
      split_ifs at htok with hfits
      exact (Except.ok.inj htok) ▸ of_decide_eq_true hhon
  | restart hlb hsta =>
    subst hlb
    rw [hsta]
    refine hm.bounded.crash fun c => ?_
    have hsto := hm.stored c
    rw [Window.load_append] at hsto
    exact (Nat.le_add_right _ _).trans hsto

/-- STEP: every step keeps the key metered. -/
theorem Moves.metered (hacc : InOrder s)
    (htags : AllTagged k limits s) (hm : Metered k limits s hist) (hhon : honest lab = true)
    (htime : ∀ time ∈ windowTime s lab, hist.now ≤ time) :
    Metered k limits t (nextHistory k hist (s, lab, o)) := by
  refine ⟨h.bounded hacc htags hm hhon htime, ?_, ?_⟩
  · by_cases hlb : lab = .restart
    · subst hlb
      cases h
      intro c
      simp [nextHistory, History.worked, entriesOf, recordsOf]
    · exact h.stored_le hlb hm.stored
  · by_cases hlb : lab = .restart
    · subst hlb
      cases h
      exact ⟨_, rfl, fun _ => .fresh s.usage⟩
    · obtain ⟨rs, hbase, hfrh⟩ := hm.fresh
      rw [nextHistory_of_ne_restart hlb]
      exact ⟨rs, hbase, h.unloaded hacc hlb hfrh⟩

end

/-! ### Positive times -/

theorem windowTime_of_chargeOf (h : chargeOf k s lab = some time) :
    windowTime s lab = some time := by
  unfold chargeOf at h
  split at h
  · split at h
    · rename_i hcall
      split_ifs at h
      cases h
      simp [windowTime, hcall]
    · cases h
  · cases h

theorem windowTime_of_completionOf {e : ℕ × ℕ} (h : completionOf k lab = some e) :
    windowTime s lab = some e.1 := by
  cases lab with
  | complete r fin comp =>
    obtain ⟨-, rfl, -⟩ := completionOf_eq_some h
    rfl
  | _ => cases h

structure Dated (k : ApiKeyId) (s : Sys) (hist : History) : Prop where
  charges : ∀ time ∈ hist.charges, 0 < time
  work : ∀ e ∈ hist.base ++ hist.completions, 0 < e.1
  stored : ∀ e ∈ entriesOf k s.usage.records ++ entriesOf k s.unrecorded, 0 < e.1

/-- STEP: a step whose clock is positive keeps every time positive. -/
theorem Moves.dated (h : Moves mode s lab t o) (hd : Dated k s hist)
    (hpos : ∀ time ∈ windowTime s lab, 0 < time) : Dated k t (nextHistory k hist (s, lab, o)) := by
  have hcpd : ∀ e ∈ (completionOf k lab).toList, 0 < e.1 := fun e he =>
    hpos e.1 (windowTime_of_completionOf (mem_toList.mp he))
  have hsto : ∀ e ∈ entriesOf k t.usage.records ++ entriesOf k t.unrecorded, 0 < e.1 := by
    intro e he
    obtain ⟨new, dropped, hnew, hperm⟩ := h.storage (k := k)
    rw [entriesOf, entriesOf, ← map_append] at he
    have hmem := (hperm.map (·.entry)).mem_iff.mp (by rw [map_append]; exact mem_append_right _ he)
    rw [map_append, map_append] at hmem
    rcases mem_append.mp hmem with hmem | hmem
    · exact hcpd e (hnew.subset hmem)
    · exact hd.stored e hmem
  by_cases hlb : lab = .restart
  · subst hlb
    refine ⟨fun _ hc => (by cases hc), fun e he => hd.stored e ?_, hsto⟩
    exact mem_append_left _ (by simpa [nextHistory] using he)
  · rw [nextHistory_of_ne_restart hlb]
    refine ⟨fun time htime => ?_, fun e he => ?_, hsto⟩
    · rcases mem_append.mp htime with hold | hnew
      · exact hd.charges time hold
      · exact hpos time (windowTime_of_chargeOf (mem_toList.mp hnew))
    · rw [← append_assoc] at he
      rcases mem_append.mp he with hold | hnew
      · exact hd.work e hold
      · exact hcpd e hnew

/-! ### Whole runs -/

theorem windowTimes_snoc (tr : List (Sys × Label × Output)) (e : Sys × Label × Output) :
    windowTimes (tr ++ [e]) = windowTimes tr ++ (windowTime e.1 e.2.1).toList := by
  simp only [windowTimes, filterMap_append, filterMap_cons, filterMap_nil]
  cases windowTime e.1 e.2.1 <;> rfl

theorem windowTimes_append (tr tr' : List (Sys × Label × Output)) :
    windowTimes (tr ++ tr') = windowTimes tr ++ windowTimes tr' := filterMap_append ..

theorem historyOf_snoc (tr : List (Sys × Label × Output)) (e : Sys × Label × Output) :
    historyOf k (tr ++ [e]) = nextHistory k (historyOf k tr) e := by
  rw [historyOf, foldl_append]
  rfl

theorem historyOf_now_le (h : ∀ x ∈ windowTimes tr, x ≤ time) : (historyOf k tr).now ≤ time := by
  induction tr using reverseRecOn with
  | nil => exact Nat.zero_le _
  | append_singleton tr e ih =>
    rw [windowTimes_snoc] at h
    have hold := ih fun x hx => h x (mem_append_left _ hx)
    rw [historyOf_snoc]
    unfold nextHistory
    split
    · exact hold
    · cases htime : windowTime e.1 e.2.1 with
      | none => exact hold
      | some x => exact h x (mem_append_right _ (by simp [htime]))

/-- RUN: along a run with steady limits, honest completions and a clock that does not go back, the
    meter of the key stays bounded by its history. -/
theorem metered_of_run (h : Run (step mode) {} tr s)
    (hsdy : ∀ e ∈ tr, steady k limits e.2.1 = true) (hhon : ∀ e ∈ tr, honest e.2.1 = true)
    (htms : (windowTimes tr).Pairwise (· ≤ ·)) (hpos : ∀ time ∈ windowTimes tr, 0 < time) :
    AllTagged k limits s ∧ Metered k limits s (historyOf k tr) ∧ Dated k s (historyOf k tr) := by
  induction h with
  | nil =>
    exact ⟨⟨fun _ _ _ hn => (by cases hn), fun _ hr => (by cases hr), fun _ _ hq => (by cases hq)⟩,
      ⟨.start fun _ _ => Nat.zero_le _, fun _ => Nat.zero_le _, [], rfl, fun _ => .fresh {}⟩,
      ⟨fun _ hc => (by cases hc), fun _ he => (by cases he), fun _ he => (by cases he)⟩⟩
  | @snoc tr s t lab o hrun hst ih =>
    rw [windowTimes_snoc] at htms hpos
    obtain ⟨hbef, -, hlast⟩ := pairwise_append.mp htms
    obtain ⟨htags, hm, hd⟩ := ih (fun e he => hsdy e (mem_append_left _ he))
      (fun e he => hhon e (mem_append_left _ he)) hbef
      fun time ht => hpos time (mem_append_left _ ht)
    have hacc := inOrder_of_run hrun
    have hmv := step_moves hacc hst
    have hste : steady k limits lab = true := hsdy (s, lab, o) (by simp)
    have hhns : honest lab = true := hhon (s, lab, o) (by simp)
    have hnow : ∀ time ∈ windowTime s lab, (historyOf k tr).now ≤ time := by
      intro time htime
      exact historyOf_now_le fun x hx => hlast x hx time (mem_toList.mpr htime)
    rw [historyOf_snoc]
    exact ⟨hmv.allTagged htags hste, hmv.metered hacc htags hm hhns hnow,
      hmv.dated hd fun time htime =>
        hpos time (mem_append_right _ (mem_toList.mpr htime))⟩

theorem Moves.retry_quieter {r : GatewayReservation}
    (h : Moves mode s (.retry r now rts safety) t o) : Quieter k s.state t.state := by
  cases h with
  | retryFail hmem => exact (Quieter.failed r now).counted _
  | retryAdmit hmem hcool | retryEnqueue hmem hcool hroom =>
    subst hcool
    exact ⟨.rfl, rfl, rfl, le_rfl, le_rfl⟩

end Runs

/-! ### The limits -/

/-- The limits of a key hold in a state with a history: on the requests that are active or queued,
    on the charges of any minute, and on the tokens completed in the last minute together with those
    still reserved. A minute that ends at `t` is the half-open interval that starts after
    `t - 60000`. -/
structure WithinLimits (k : ApiKeyId) (limits : ApiKeyLimits) (s : Sys) (hist : History) :
    Prop where
  concurrency : ∀ limit ∈ limits.concurrency, s.liveCount k ≤ limit.1
  rate : ∀ limit ∈ limits.requestsPerMinute, ∀ t,
    (hist.charges.filter fun time => t < time + 60000 ∧ time ≤ t).length ≤ limit.1
  volume : ∀ limit ∈ limits.tokensPerMinute, ∀ now, hist.now ≤ now →
    (((hist.base ++ hist.completions).filter fun e => now < e.1 + 60000 ∧ e.1 ≤ now).map
      Prod.snd).sum + s.liveTokens k ≤ limit.1

/-- Positive times are in the minute that ends at `t` exactly when they are after the cutoff, which
    stops at zero. -/
theorem minute_eq_count {l : List ℕ} (hl : ∀ time ∈ l, 0 < time) (t : ℕ) :
    (l.filter fun time => t < time + 60000 ∧ time ≤ t).length =
      Window.count rollingWindowMilliseconds t l := by
  have hmnt : (l.filter fun time => t < time + 60000 ∧ time ≤ t) =
      l.filter fun time => t - rollingWindowMilliseconds < time ∧ time ≤ t := by
    refine filter_congr fun time htime => ?_
    have := hl time htime
    rw [decide_eq_decide, rollingWindowMilliseconds]
    omega
  rw [hmnt, Window.count]

theorem minute_le_load {l : List (ℕ × ℕ)} (hl : ∀ e ∈ l, 0 < e.1) (now : ℕ) :
    ((l.filter fun e => now < e.1 + 60000 ∧ e.1 ≤ now).map Prod.snd).sum ≤
      Window.load (now - rollingWindowMilliseconds) l := by
  have hmnt : (l.filter fun e => now < e.1 + 60000 ∧ e.1 ≤ now) =
      (Window.after Prod.fst (now - rollingWindowMilliseconds) l).filter fun e => e.1 ≤ now := by
    rw [Window.after, List.filter_filter]
    refine filter_congr fun e he => ?_
    have := hl e he
    rw [← Bool.decide_and, decide_eq_decide, rollingWindowMilliseconds]
    omega
  rw [hmnt]
  exact (filter_sublist.map _).sum_le_sum fun _ _ => Nat.zero_le _

/-- CORRECT with a positive clock: no limit of the key is exceeded in any state of any run, and a
    retry charges nothing. -/
theorem limits_hold {k : ApiKeyId} {limits : ApiKeyLimits} {mode : GatewayMode} {s : Sys}
    {tr : List (Sys × Label × Output)} (h : Run (step mode) {} tr s)
    (hsteady : ∀ e ∈ tr, steady k limits e.2.1 = true) (hhonest : ∀ e ∈ tr, honest e.2.1 = true)
    (htimes : (windowTimes tr).Pairwise (· ≤ ·)) (hpositive : ∀ time ∈ windowTimes tr, 0 < time) :
    WithinLimits k limits s (historyOf k tr) ∧
      ∀ reservation now routes safety t o,
        step mode s (.retry reservation now routes safety) = some (t, o) →
          Quieter k s.state t.state := by
  have hacc := inOrder_of_run h
  obtain ⟨-, hm, hd⟩ := metered_of_run h hsteady hhonest htimes hpositive
  refine ⟨⟨fun limit hlim => ?_, fun limit hlim t => ?_, fun limit hlim now hnow => ?_⟩,
    fun reservation now routes safety t o hst => (step_moves hacc hst).retry_quieter⟩
  · rw [← hacc.consistent.principals k]
    exact hm.bounded.concurrency limit.1 (map_eq_some_iff.mpr ⟨limit, hlim, rfl⟩)
  · have hrate := hm.bounded.rate limit.1 (map_eq_some_iff.mpr ⟨limit, hlim, rfl⟩) t
    rwa [← minute_eq_count hd.charges] at hrate
  · have hlat := hm.bounded.advance hnow
    have hvol := hlat.volume limit.1 (map_eq_some_iff.mpr ⟨limit, hlim, rfl⟩)
    have hmnt := minute_le_load hd.work now
    rw [Window.load_append] at hmnt
    simp only [History.worked, GatewayState.meter, hacc.consistent.tokens k] at hvol
    omega

/-- Two requests a minute, two at once, four tokens a minute. -/
def sampleLimits : ApiKeyLimits :=
  ⟨some ⟨2, by decide⟩, some ⟨4, by decide⟩, some ⟨2, by decide⟩, none⟩

/-- A run that uses each limit up: one request completes, one takes its place in the queue. -/
theorem limits_hold_used_up : ∃ tr s, Run (step sampleMode) {} tr s ∧
    (historyOf ⟨"key"⟩ tr).charges = [5, 6] ∧ (historyOf ⟨"key"⟩ tr).completions = [(7, 2)] ∧
    WithinLimits ⟨"key"⟩ sampleLimits s (historyOf ⟨"key"⟩ tr) := by
  obtain ⟨tr, s, hrun, hall, htms, hcha, hcps⟩ := Run.exists_of_exec (step sampleMode) {}
    (arriving 0 "a" sampleLimits 5 ++ arriving 1 "b" sampleLimits 6 ++
      [.complete (sampleReservation "a" sampleLimits 5) (.ok 7) sampleCompletion])
    (fun tr _ => (∀ e ∈ tr, steady ⟨"key"⟩ sampleLimits e.2.1 ∧ honest e.2.1) ∧
      windowTimes tr = [5, 6, 7] ∧ (historyOf ⟨"key"⟩ tr).charges = [5, 6] ∧
      (historyOf ⟨"key"⟩ tr).completions = [(7, 2)]) (by decide)
  refine ⟨tr, s, hrun, hcha, hcps, ?_⟩
  exact (limits_hold hrun (fun e he => (hall e he).1) (fun e he => (hall e he).2)
    (by rw [htms]; decide) (by rw [htms]; decide)).1

theorem one_isNonZeroU32 : 0 < 1 ∧ 1 < 2 ^ 32 := by decide

def oneRequest : ApiKeyLimits := ⟨some ⟨1, one_isNonZeroU32⟩, none, none, none⟩

/-- A clock that reads zero: the cutoff of the window stops at zero, so an entry of that time leaves
    the window at once, and two requests are admitted in one minute under a limit of one. -/
theorem limits_exceeded_at_zero : ∃ tr s, Run (step sampleMode) {} tr s ∧
    (∀ e ∈ tr, steady ⟨"key"⟩ oneRequest e.2.1 = true ∧ honest e.2.1 = true) ∧
    (windowTimes tr).Pairwise (· ≤ ·) ∧
    ¬WithinLimits ⟨"key"⟩ oneRequest s (historyOf ⟨"key"⟩ tr) := by
  obtain ⟨tr, s, hrun, hall, htms, hcha⟩ := Run.exists_of_exec (step sampleMode) {}
    (arriving 0 "a" oneRequest 0 ++ arriving 1 "b" oneRequest 0)
    (fun tr _ => (∀ e ∈ tr, steady ⟨"key"⟩ oneRequest e.2.1 ∧ honest e.2.1) ∧
      windowTimes tr = [0, 0] ∧ (historyOf ⟨"key"⟩ tr).charges = [0, 0]) (by decide)
  refine ⟨tr, s, hrun, hall, by rw [htms]; decide, fun hlim => ?_⟩
  have hrate := hlim.rate ⟨1, by decide⟩ rfl 0
  rw [hcha] at hrate
  exact absurd hrate (by decide)

end LetsInfer.Gateway
