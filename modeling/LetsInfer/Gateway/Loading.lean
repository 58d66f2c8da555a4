import LetsInfer.Gateway.Keys

/-! @src core/gateway/src/li_gateway_manager.rs | name:A key before its usage is loaded | scheme:invariant

    A process loads the usage of a key once, in the first admission of the key that gets that far.
    Until then nothing of the key has happened in the process: it holds no request, its windows are
    empty, what is on record of it is what the process started with, and every call of the key
    inside admission that has read the store has read exactly that. -/

namespace LetsInfer.Gateway
open Schemes

/-- What a window of the store shows of some records. -/
def windowOf (records : List GatewayUsageRecord) (since : ℕ) : List GatewayUsageRecord :=
  (records.filter fun usage => since ≤ usage.completedAt).insertionSort usageBefore

theorem matching_eq_windowOf (database : UsageDatabase) (k : ApiKeyId) (since : ℕ) :
    database.matching k since = windowOf (recordsOf k database.records) since := by
  unfold UsageDatabase.matching windowOf recordsOf
  rw [List.filter_filter]
  congr 1
  refine List.filter_congr fun u _ => ?_
  rw [← Bool.decide_and]
  exact decide_eq_decide.mpr and_comm

/-- What a call of the key inside admission knows while the key is not loaded. -/
def Informed (k : ApiKeyId) (records : List GatewayUsageRecord) : AdmissionPhase → Prop
  | .prepared arrival loadUsage => arrival.principal.map (·.keyId) = some k → loadUsage = true
  | .fetched arrival recent => arrival.principal.map (·.keyId) = some k →
    recent = windowOf records arrival.since
  | _ => True

/-- A key that is not loaded, with the records of it the process started with. -/
structure Unloaded (k : ApiKeyId) (records : List GatewayUsageRecord) (s : Sys) : Prop where
  idle : s.state.principalActive.amount k = 0
  requests : window s.state.requestWindows k = []
  tokens : window s.state.tokenWindows k = []
  stored : recordsOf k s.usage.records = records
  unrecorded : recordsOf k s.unrecorded = []
  calls : ∀ n call, s.admissions.lookup n = some call → Informed k records call.phase

section Steps

variable {k : ApiKeyId} {rs : List GatewayUsageRecord} {mode : GatewayMode} {s t : Sys}
  {a : Label} {o : Output}

theorem Unloaded.fresh (database : UsageDatabase) :
    Unloaded k (recordsOf k database.records) { usage := database } where
  idle := rfl
  requests := rfl
  tokens := rfl
  stored := rfl
  unrecorded := rfl
  calls _ _ hn := by cases hn

inductive PhaseStep (s : Sys) (n : ℕ) (call : AdmissionCall) : Prop
  | old (hold : s.admissions.lookup n = some call)
  | received (hphase : call.phase = .received)
  | failed {e : GatewayError} (hphase : call.phase = .failed e)
  | prepared {arrival : Arrival}
    (hphase : call.phase = .prepared arrival (shouldLoadUsage s.state arrival))
  | fetched {request : GatewayRequest} {arrival : Arrival} {loadUsage : Bool}
    {failure : Option GatewayError} {recent : List GatewayUsageRecord}
    (hbefore : s.admissions.lookup n = some ⟨request, .prepared arrival loadUsage⟩)
    (hfetch : fetchUsage s.usage arrival loadUsage failure = .ok recent)
    (hphase : call.phase = .fetched arrival recent)

theorem PhaseStep.of_insert {m n : ℕ} {call new : AdmissionCall}
    (h : (s.admissions.insert m new).lookup n = some call)
    (hnew : m = n → new = call → PhaseStep s n call) : PhaseStep s n call := by
  rw [Table.lookup_insert_ite] at h
  split_ifs at h with hm
  · exact hnew hm.symm (Option.some.inj h)
  · exact .old h

theorem PhaseStep.of_erase {m n : ℕ} {call : AdmissionCall}
    (h : (s.admissions.erase m).lookup n = some call) : PhaseStep s n call := by
  exact .old (Table.lookup_of_erase h)

/-- Every call inside admission keeps its phase or takes the next one. -/
theorem Moves.phases (h : Moves mode s a t o) {n : ℕ} {call : AdmissionCall}
    (hn : t.admissions.lookup n = some call) : PhaseStep s n call := by
  cases h with
  | receive req =>
    refine .of_insert hn ?_
    rintro - rfl
    exact .received rfl
  | prepare phase hcall hph =>
    refine .of_insert hn ?_
    rintro rfl rfl
    rcases hph with ⟨e, rfl⟩ | ⟨arr, -, rfl⟩
    · exact .failed rfl
    · exact .prepared rfl
  | fetch phase hcall hph =>
    refine .of_insert hn ?_
    rintro rfl rfl
    rcases hph with ⟨e, rfl⟩ | ⟨rct, hfet, rfl⟩
    · exact .failed rfl
    · exact .fetched hcall hfet rfl
  | refuse hcall hpol | dismiss hcall hpol =>
    refine .of_insert hn ?_
    rintro - rfl
    exact .failed rfl
  | admitted hcall hpol hsel => exact .of_erase hn
  | enqueue hcall hpol hroom => exact .of_erase hn
  | recordFailure hcall => exact .of_erase hn
  | restart => cases hn
  | _ => exact .old hn

theorem Unloaded.informed (h : Unloaded k rs s) (hnot : k ∉ s.state.loadedKeys) {n : ℕ}
    {call : AdmissionCall} (hph : PhaseStep s n call) : Informed k rs call.phase := by
  cases hph with
  | old hold => exact h.calls n call hold
  | received hph => rw [hph]; trivial
  | failed hph => rw [hph]; trivial
  | prepared hph =>
    rw [hph]
    intro hk
    obtain ⟨p, hp, rfl⟩ := Option.map_eq_some_iff.mp hk
    simpa [shouldLoadUsage, hp] using hnot
  | @fetched req arr loadUsage failure rct hbef hfet hph =>
    rw [hph]
    intro hk
    obtain rfl : loadUsage = true := h.calls n _ hbef hk
    obtain ⟨p, hp, rfl⟩ := Option.map_eq_some_iff.mp hk
    simp only [fetchUsage, hp, if_true] at hfet
    split at hfet
    · cases hfet
    · unfold UsageDatabase.recent at hfet
      split_ifs at hfet
      rw [← Except.ok.inj hfet, matching_eq_windowOf, h.stored]

theorem loaded_of_held (hs : k ∉ s.state.loadedKeys → Unloaded k rs s) (hacc : InOrder s)
    {r : GatewayReservation} (hmem : r ∈ s.held)
    (hk : r.principal.map (·.keyId) = some k) : k ∈ s.state.loadedKeys := by
  by_contra hnot
  have hzero := (hs hnot).idle
  have hone := (hacc.covers_held hmem k).1
  simp only [Claim.count, GatewayReservation.claim, Claim.of, hk, if_true] at hone
  omega

theorem loaded_of_check {p : GatewayPrincipal} {req : GatewayRequest} {since now : ℕ}
    {rct : List GatewayUsageRecord} {loaded chg state' : GatewayState}
    {ans : Except GatewayError Unit}
    (hload : loadRecentUsage s.state k rct since now = (.ok (), loaded))
    (hans : admitPrincipal loaded p req now = (ans, chg))
    (hqt : Quieter k chg state') : k ∈ state'.loadedKeys := by
  have hldd : k ∈ loaded.loadedKeys := by
    obtain ⟨-, ⟨hkno, rfl⟩ | ⟨-, rfl⟩⟩ := loadRecentUsage_ok hload
    · exact hkno
    · rw [foldl_pushUsage_eq]
      exact Finset.mem_insert_self _ _
  refine hqt.loaded.mpr ?_
  cases ans with
  | error e =>
    rwa [admitPrincipal_error hans]
  | ok _ =>
    obtain ⟨reserved, rfl, -⟩ := admitPrincipal_ok hans
    exact hldd

/-- STEP: within a process, a key that is still not loaded is as it was at the start. -/
theorem Moves.unloaded (h : Moves mode s a t o) (hacc : InOrder s) (hlb : a ≠ .restart)
    (hs : k ∉ s.state.loadedKeys → Unloaded k rs s) (hnot : k ∉ t.state.loadedKeys) :
    Unloaded k rs t := by
  cases h.keyStep (k := k) with
  | quiet _ hchk hchg hcpl hqt =>
    have hbef : k ∉ s.state.loadedKeys := fun hmem => hnot (hqt.loaded.mpr hmem)
    have hu := hs hbef
    obtain ⟨hsto, hunr⟩ := h.storage_untouched hu.unrecorded hcpl
    exact
      { idle := Nat.le_zero.mp (hqt.active.trans hu.idle.le)
        requests := hqt.requests.trans hu.requests
        tokens := hqt.tokens.trans hu.tokens
        stored := hsto.trans hu.stored
        unrecorded := hunr
        calls := fun n call hn => hu.informed hbef (h.phases hn) }
  | check _ hcall hp hk hload hchk hans hchg hqt =>
    exact absurd (loaded_of_check hload hans hqt) hnot
  | complete hcom hmem hcpl hmet =>
    subst hcom
    have hldd := loaded_of_held hs hacc hmem (completionOf_eq_some hcpl).1
    have hsta := congrArg Meter.loaded hmet
    exact absurd (of_decide_eq_true (hsta.trans (decide_eq_true hldd))) hnot
  | restart hres _ => exact absurd hres hlb

end Steps

end LetsInfer.Gateway
