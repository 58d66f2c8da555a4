import LetsInfer.Schemes.Quota
import LetsInfer.Gateway.Invariant

/-! @src core/gateway/src/li_gateway_manager.rs | name:One key's view of a step | scheme:projection

    Of the whole state one key sees its two windows, whether its usage is loaded, what it has in
    flight and what it has reserved: a meter. Most steps only give something back; an admission of
    the key loads, prunes and charges, a completion of the key replaces a reservation by work, and a
    restart forgets. What holds of a key along a run is proved from these four cases. -/

namespace LetsInfer.Gateway
open Schemes List

/-! ### The meter of a key and what a step does to it -/

/-- The work of a usage record: when it was completed and how many tokens it was. -/
def GatewayUsageRecord.entry (usage : GatewayUsageRecord) : ℕ × ℕ :=
  (usage.completedAt, usage.tokens)

def recordsOf (k : ApiKeyId) (records : List GatewayUsageRecord) : List GatewayUsageRecord :=
  records.filter fun usage => usage.keyId = k

/-- What the state keeps for a key. -/
def GatewayState.meter (state : GatewayState) (k : ApiKeyId) : Meter where
  loaded := k ∈ state.loadedKeys
  requests := window state.requestWindows k
  tokens := window state.tokenWindows k
  active := state.principalActive.amount k
  reserved := state.principalReservedTokens.amount k

/-- The clock value a step writes into a window or reads one at. -/
def windowTime (s : Sys) : Label → Option ℕ
  | .admitSection call =>
    match s.admissions.lookup call with
    | some ⟨_, .fetched arrival _⟩ => some arrival.now
    | _ => none
  | .complete _ (.ok completedAt) _ => some completedAt
  | _ => none

/-- When a step charges a key: the time of a successful `admit_principal`. -/
def chargeOf (k : ApiKeyId) (s : Sys) : Label → Option ℕ
  | .admitSection call =>
    match s.admissions.lookup call with
    | some ⟨_, .fetched arrival recent⟩ =>
      if arrival.principal.map (·.keyId) = some k ∧ (admitPolicy s.state arrival recent).1.isOk then
        some arrival.now
      else none
    | _ => none
  | _ => none

def completionOf (k : ApiKeyId) : Label → Option (ℕ × ℕ)
  | .complete reservation (.ok completedAt) completion =>
    match completion.totalTokens with
    | .ok tokens =>
      if reservation.principal.map (·.keyId) = some k then some (completedAt, tokens) else none
    | .error _ => none
  | _ => none

/-- Where a step reads the windows of a key, and when: an admission section of the key that has
    passed the duplicate check and loaded its usage reads them in the state it then has. -/
def checkOf (k : ApiKeyId) (s : Sys) : Label → Option (GatewayState × ℕ)
  | .admitSection call =>
    match s.admissions.lookup call with
    | some ⟨_, .fetched arrival recent⟩ =>
      if arrival.principal.map (·.keyId) = some k then
        match requireNewRequest s.state arrival.request.requestId,
            loadRecentUsage s.state k recent arrival.since arrival.now with
        | .ok (), (.ok (), loaded) => some (loaded, arrival.now)
        | _, _ => none
      else none
    | _ => none
  | _ => none

/-! ### Sections that only give back -/

/-- A section that only gives back what the key holds: its windows are as before, and no more of it
    is in flight or reserved. -/
structure Quieter (k : ApiKeyId) (state state' : GatewayState) : Prop where
  loaded : k ∈ state'.loadedKeys ↔ k ∈ state.loadedKeys
  requests : window state'.requestWindows k = window state.requestWindows k
  tokens : window state'.tokenWindows k = window state.tokenWindows k
  active : state'.principalActive.amount k ≤ state.principalActive.amount k
  reserved : state'.principalReservedTokens.amount k ≤ state.principalReservedTokens.amount k

variable {ans : Except GatewayError Unit} {req : GatewayRequest} {k : ApiKeyId}
  {st' : GatewayState} {arr : Arrival} {rct : List GatewayUsageRecord} {now : ℕ}
  {prin : GatewayPrincipal} {e : ℕ × ℕ}

section Meters

variable {lim : Ceilings} {hist : History} {w : ℕ}
  {st st'' : GatewayState} {res : GatewayReservation}

theorem Quieter.refl : Quieter k st st := ⟨.rfl, rfl, rfl, le_rfl, le_rfl⟩

theorem Quieter.trans (h : Quieter k st st') (h' : Quieter k st' st'') : Quieter k st st'' where
  loaded := h'.loaded.trans h.loaded
  requests := h'.requests.trans h.requests
  tokens := h'.tokens.trans h.tokens
  active := h'.active.trans h.active
  reserved := h'.reserved.trans h.reserved

theorem Quieter.release (prin : Option GatewayPrincipal) (ts : ℕ) :
    Quieter k st (releasePrincipal st prin ts) where
  loaded := by rw [releasePrincipal_eq]
  requests := by rw [releasePrincipal_eq]
  tokens := by rw [releasePrincipal_eq]
  active := by
    rw [amount_principalActive_releasePrincipal]
    exact Nat.sub_le _ _
  reserved := by
    rw [amount_reservedTokens_releasePrincipal]
    exact Nat.sub_le _ _

theorem Quieter.vacate (res : GatewayReservation) :
    Quieter k st (vacate st res) := ⟨.rfl, rfl, rfl, le_rfl, le_rfl⟩

theorem Quieter.cooled (g : PlacementGroupId) (now : Except GatewayError UnixMilliseconds) :
    Quieter k st (cooled st g now) := by
  cases now <;> exact ⟨.rfl, rfl, rfl, le_rfl, le_rfl⟩

theorem Quieter.completeRoute (fin : Except GatewayError UnixMilliseconds) :
    Quieter k st (completeRoute st res fin) := by
  unfold Gateway.completeRoute
  cases fin with
  | error e => exact .refl
  | ok now => cases res.request.prefixKey <;> exact ⟨.rfl, rfl, rfl, le_rfl, le_rfl⟩

theorem Quieter.counted (h : Quieter k st st') (tel : GatewayTelemetryState) :
    Quieter k st { st' with telemetry := tel } :=
  ⟨h.loaded, h.requests, h.tokens, h.active, h.reserved⟩

theorem Quieter.unqueued (id : Sha256Digest) (q : QueuedRequest) :
    Quieter k st (releasePrincipal (unqueue st id) q.principal q.reservedTokens) :=
  (⟨.rfl, rfl, rfl, le_rfl, le_rfl⟩ : Quieter k st (unqueue st id)).trans (.release _ _)

theorem Quieter.failed (res : GatewayReservation) (now : Except GatewayError UnixMilliseconds) :
    Quieter k st (releasePrincipal
      (Gateway.cooled (Gateway.vacate st res) res.route.placementGroupId now)
      res.principal res.reservedTokens) :=
  (Quieter.vacate res).trans ((Quieter.cooled _ now).trans (.release _ _))

theorem Quieter.bounded (h : Quieter k st st') (hb : Bounded w lim (st.meter k) hist) :
    Bounded w lim (st'.meter k) hist := by
  have hmet : st'.meter k =
      { st.meter k with
        active := st'.principalActive.amount k
        reserved := st'.principalReservedTokens.amount k } := by
    simp [GatewayState.meter, h.loaded, h.requests, h.tokens]
  rw [hmet]
  exact hb.release h.active h.reserved

/-! ### Other keys -/

theorem quieter_load_of_ne {key : ApiKeyId} {since : ℕ} (hk : k ≠ key)
    (h : loadRecentUsage st key rct since now = (ans, st')) : Quieter k st st' := by
  cases ans with
  | error e =>
    rw [loadRecentUsage_error h]
    exact .refl
  | ok _ =>
    obtain ⟨-, ⟨-, rfl⟩ | ⟨-, rfl⟩⟩ := loadRecentUsage_ok h
    · exact .refl
    · obtain ⟨hrqs, htok⟩ := window_foldl_pushUsage key k rct
        { st with loadedKeys := insert key st.loadedKeys }
      rw [if_neg hk, append_nil] at hrqs htok
      refine ⟨?_, hrqs, htok, ?_, ?_⟩ <;> rw [foldl_pushUsage_eq]
      simp [hk]

theorem quieter_admitPrincipal_of_ne
    (hk : k ≠ prin.keyId) (h : admitPrincipal st prin req now = (ans, st')) : Quieter k st st' := by
  cases ans with
  | error e =>
    rw [admitPrincipal_error h]
    exact ⟨.rfl, by simp [pruneWindows, window_insert, hk],
      by simp [pruneWindows, window_insert, hk], le_rfl, le_rfl⟩
  | ok _ =>
    obtain ⟨reserved, rfl, hrsv, -⟩ := admitPrincipal_ok h
    exact ⟨.rfl, by simp [pruneWindows, window_insert, hk],
      by simp [pruneWindows, window_insert, hk], by simp [Table.amount_insert, hk],
      by simp [hrsv, hk]⟩

theorem meter_foldl_pushUsage (k : ApiKeyId) (rct : List GatewayUsageRecord) (st : GatewayState) :
    (rct.foldl (pushUsage k) st).meter k =
      { st.meter k with
        requests := (st.meter k).requests ++ rct.map (·.receivedAt)
        tokens := (st.meter k).tokens ++ rct.map (·.entry) } := by
  obtain ⟨hrqs, htok⟩ := window_foldl_pushUsage k k rct st
  rw [if_pos rfl] at hrqs htok
  unfold GatewayState.meter
  rw [hrqs, htok, foldl_pushUsage_eq]
  rfl

theorem meter_pruneWindows (st : GatewayState) (k : ApiKeyId) (now : ℕ) :
    (pruneWindows st k now).meter k =
      { st.meter k with
        requests := prunedRequests st k now
        tokens := prunedTokens st k now } := by
  simp only [GatewayState.meter, pruneWindows, window_insert, if_true]
  rfl

/-! ### Completions -/

section Completions

variable {completedAt fin : Except GatewayError UnixMilliseconds} {comp : Completion}

theorem completionOf_eq_some (h : completionOf k (.complete res fin comp) = some e) :
    res.principal.map (·.keyId) = some k ∧ fin = .ok e.1 ∧ comp.totalTokens = .ok e.2 := by
  unfold completionOf at h
  split at h
  · rename_i heq
    cases heq
    split at h
    · rename_i ts htok
      split_ifs at h with hk
      cases h
      exact ⟨hk, rfl, htok⟩
    · cases h
  · cases h

/-- A completion that is none of the key's, or reports nothing, only gives back. -/
theorem quieter_completed (h : completionOf k (.complete res fin comp) = none) :
    Quieter k st (completed st res fin comp) := by
  have hrou : Quieter k st (completeRoute (vacate st res) res fin) :=
    (Quieter.vacate res).trans (.completeRoute fin)
  have hpri : Quieter k (completeRoute (vacate st res) res fin)
      (completePrincipal (completeRoute (vacate st res) res fin) res fin comp) := by
    unfold completePrincipal
    split
    · exact .refl
    · rename_i prin hp
      have hrel : Quieter k (completeRoute (vacate st res) res fin)
          (releasePrincipal (completeRoute (vacate st res) res fin)
            (some prin) res.reservedTokens) := .release _ _
      split
      · rename_i time ts htok
        have hk : k ≠ prin.keyId := by
          rintro rfl
          simp [completionOf, htok, hp] at h
        refine ⟨hrel.loaded, hrel.requests, ?_, hrel.active, hrel.reserved⟩
        rw [window_insert, if_neg hk]
        exact hrel.tokens
      · exact hrel
  have hall := hrou.trans hpri
  exact ⟨hall.loaded, hall.requests, hall.tokens, hall.active, hall.reserved⟩

theorem meter_completePrincipal {time ts : ℕ}
    (hp : res.principal = some prin) (htok : comp.totalTokens = .ok ts) (st : GatewayState) :
    (completePrincipal st res (.ok time) comp).meter prin.keyId =
      { st.meter prin.keyId with
        active := (st.meter prin.keyId).active - 1
        reserved := (st.meter prin.keyId).reserved - res.reservedTokens
        tokens := (st.meter prin.keyId).tokens ++ [(time, ts)] } := by
  have hact := amount_principalActive_releasePrincipal st (some prin) res.reservedTokens prin.keyId
  have hrsv := amount_reservedTokens_releasePrincipal st (some prin) res.reservedTokens prin.keyId
  simp only [Option.map_some, if_true] at hact hrsv
  simp only [completePrincipal, hp, htok, GatewayState.meter, window_insert, if_true, hact, hrsv]
  rw [releasePrincipal_eq]

theorem meter_completeRoute (st : GatewayState) :
    (completeRoute st res fin).meter k = st.meter k := by
  unfold completeRoute
  cases fin with
  | error e => rfl
  | ok now => cases res.request.prefixKey <;> rfl

/-- A completion of the key: its reservation is replaced by the work it reports. -/
theorem meter_completed (st : GatewayState) (h : completionOf k (.complete res fin comp) = some e) :
    (completed st res fin comp).meter k =
      { st.meter k with
        active := (st.meter k).active - 1
        reserved := (st.meter k).reserved - res.reservedTokens
        tokens := (st.meter k).tokens ++ [e] } := by
  obtain ⟨hk, rfl, htok⟩ := completionOf_eq_some h
  obtain ⟨prin, hp, rfl⟩ := Option.map_eq_some_iff.mp hk
  refine (meter_completePrincipal hp htok _).trans ?_
  rw [meter_completeRoute]
  rfl

/-- A completion leaves at most one record of the key to be written, of the work it reports. -/
theorem recordsOf_holdUsage (k : ApiKeyId) (res : GatewayReservation)
    (fin : Except GatewayError UnixMilliseconds) (comp : Completion)
    (unrecorded : List GatewayUsageRecord) :
    ∃ new : List GatewayUsageRecord,
      (new.map (·.entry)).Sublist (completionOf k (.complete res fin comp)).toList ∧
      recordsOf k (holdUsage unrecorded (completionUsage res fin comp)) =
        new ++ recordsOf k unrecorded := by
  have hno : ∀ l, l = unrecorded → ∃ new : List GatewayUsageRecord,
      (new.map (·.entry)).Sublist (completionOf k (.complete res fin comp)).toList ∧
      recordsOf k l = new ++ recordsOf k unrecorded := by
    rintro l rfl
    exact ⟨[], nil_sublist _, rfl⟩
  unfold completionUsage
  split
  · exact hno _ rfl
  · exact hno _ rfl
  · rename_i time ts htok
    split
    · exact hno _ rfl
    · rename_i prin hp
      split
      · exact hno _ rfl
      · rename_i u husa
        have husa' : u.keyId = prin.keyId ∧ u.entry = (time, ts) := by
          unfold GatewayUsageRecord.new at husa
          split_ifs at husa
          cases husa
          exact ⟨rfl, rfl⟩
        by_cases hk : prin.keyId = k
        · refine ⟨[u], ?_, by simp [holdUsage, recordsOf, husa', hk]⟩
          simp [completionOf, htok, hp, hk, husa']
        · exact ⟨[], nil_sublist _, by simp [holdUsage, recordsOf, husa', hk]⟩

end Completions

end Meters

/-! ### The four cases -/

/-- What a step is to a key. -/
inductive KeyStep (k : ApiKeyId) (s : Sys) (label : Label) (state' : GatewayState) : Prop
  | quiet (hlabel : label ≠ .restart) (hcheck : checkOf k s label = none)
    (hcharge : chargeOf k s label = none) (hcompletion : completionOf k label = none)
    (hquiet : Quieter k s.state state')
  | check {n : ℕ} {request : GatewayRequest} {arrival : Arrival} {recent : List GatewayUsageRecord}
    {principal : GatewayPrincipal} {loaded charged : GatewayState}
    {answer : Except GatewayError Unit} (hlabel : label = .admitSection n)
    (hcall : s.admissions.lookup n = some ⟨request, .fetched arrival recent⟩)
    (hp : arrival.principal = some principal) (hk : principal.keyId = k)
    (hload : loadRecentUsage s.state k recent arrival.since arrival.now = (.ok (), loaded))
    (hcheck : checkOf k s label = some (loaded, arrival.now))
    (hanswer : admitPrincipal loaded principal arrival.request arrival.now = (answer, charged))
    (hcharge : chargeOf k s label = if answer.isOk then some arrival.now else none)
    (hquiet : Quieter k charged state')
  | complete {reservation : GatewayReservation} {completedAt : Except GatewayError UnixMilliseconds}
    {completion : Completion} {e : ℕ × ℕ}
    (hlabel : label = .complete reservation completedAt completion) (hmem : reservation ∈ s.held)
    (hcompletion : completionOf k label = some e)
    (hmeter : state'.meter k =
      { s.state.meter k with
        active := (s.state.meter k).active - 1
        reserved := (s.state.meter k).reserved - reservation.reservedTokens
        tokens := (s.state.meter k).tokens ++ [e] })
  | restart (hlabel : label = .restart) (hstate : state' = {})

section Steps

variable {mode : GatewayMode} {s t : Sys} {a : Label} {o : Output}

/-- An admission section is a check of its key, and quiet for every other. -/
theorem keyStep_of_policy {n : ℕ} {chg : GatewayState}
    (hcall : s.admissions.lookup n = some ⟨req, .fetched arr rct⟩)
    (hpol : admitPolicy s.state arr rct = (ans, chg))
    (hqt : Quieter k chg st') : KeyStep k s (.admitSection n) st' := by
  have hchg : chargeOf k s (.admitSection n) =
      if arr.principal.map (·.keyId) = some k ∧ ans.isOk then some arr.now else none := by
    simp only [chargeOf, hcall, hpol]
  by_cases hk : arr.principal.map (·.keyId) = some k
  · obtain ⟨prin, hp, rfl⟩ := Option.map_eq_some_iff.mp hk
    have href : ∀ {e : GatewayError}, ans = .error e → checkOf prin.keyId s
        (.admitSection n) = none → chg = s.state → KeyStep prin.keyId s (.admitSection n) st' := by
      rintro e rfl hchk rfl
      exact .quiet (by simp) hchk (hchg.trans (if_neg (by simp [Except.isOk, Except.toBool])))
        rfl hqt
    unfold admitPolicy at hpol
    cases hnew : requireNewRequest s.state arr.request.requestId with
    | error e =>
      rw [hnew] at hpol
      cases hpol
      exact href rfl (by simp [checkOf, hcall, hnew]) rfl
    | ok _ =>
      simp only [hnew, hp] at hpol
      split at hpol
      · rename_i e refused hload
        cases hpol
        exact href rfl (by simp [checkOf, hcall, hload]) (loadRecentUsage_error hload)
      · rename_i loaded hload
        refine .check rfl hcall hp rfl hload ?_ hpol ?_ hqt
        · simp [checkOf, hcall, hp, hnew, hload]
        · simpa [hp] using hchg
  · have hoth : Quieter k s.state chg := by
      unfold admitPolicy at hpol
      split at hpol
      · cases hpol
        exact .refl
      · split at hpol
        · cases hpol
          exact .refl
        · rename_i prin hp
          have hne : k ≠ prin.keyId := fun heq => hk (by simp [hp, heq])
          split at hpol
          · rename_i hload
            cases hpol
            exact quieter_load_of_ne hne hload
          · rename_i hload
            exact (quieter_load_of_ne hne hload).trans (quieter_admitPrincipal_of_ne hne hpol)
    exact .quiet (by simp) (by simp [checkOf, hcall, hk])
      (hchg.trans (if_neg fun h => hk h.1)) rfl (hoth.trans hqt)

/-- CASES: every move is one of the four to a key. -/
theorem Moves.keyStep (h : Moves mode s a t o) : KeyStep k s a t.state := by
  cases h with
  | receive | prepare | fetch | recordFailure | pollMiss | pollRead | pollIdle | pollAdmit
  | cancelQueueFail | failQueueFail | recordMiss | record | snapshotMiss | snapshot =>
    exact .quiet (by simp) rfl rfl rfl ⟨.rfl, rfl, rfl, le_rfl, le_rfl⟩
  | refuse hcall hpol => exact keyStep_of_policy hcall hpol .refl
  | dismiss hcall hpol => exact keyStep_of_policy hcall hpol (.release _ _)
  | admitted hcall hpol hsel | enqueue hcall hpol hroom =>
    exact keyStep_of_policy hcall hpol ⟨.rfl, rfl, rfl, le_rfl, le_rfl⟩
  | @pollExpire poll rts safety q hpoll hq =>
    exact .quiet (by simp) rfl rfl rfl ((Quieter.unqueued poll.requestId q).counted _)
  | @cancelQueue ticket now q hq | @failQueue ticket now q hq =>
    exact .quiet (by simp) rfl rfl rfl ((Quieter.unqueued ticket.requestId q).counted _)
  | @complete res fin comp hmem =>
    cases hcpl : completionOf k (.complete res fin comp) with
    | none => exact .quiet (by simp) rfl rfl hcpl (quieter_completed hcpl)
    | some e => exact .complete rfl hmem hcpl (meter_completed s.state hcpl)
  | @cancel res timing hmem =>
    exact .quiet (by simp) rfl rfl rfl (((Quieter.vacate res).trans (.release _ _)).counted _)
  | @retryFail res now rts safety e hmem | @fail res now timing hmem =>
    exact .quiet (by simp) rfl rfl rfl ((Quieter.failed res now).counted _)
  | retryAdmit hmem hcool | retryEnqueue hmem hcool hroom =>
    subst hcool
    exact .quiet (by simp) rfl rfl rfl ⟨.rfl, rfl, rfl, le_rfl, le_rfl⟩
  | restart => exact .restart rfl rfl

/-! ### What is stored of a key -/

theorem recordsOf_append (k : ApiKeyId) (l l' : List GatewayUsageRecord) :
    recordsOf k (l ++ l') = recordsOf k l ++ recordsOf k l' := filter_append ..

theorem recordsOf_perm_erase {u : GatewayUsageRecord} {l : List GatewayUsageRecord} (h : u ∈ l) :
    (recordsOf k l).Perm (recordsOf k [u] ++ recordsOf k (l.erase u)) := by
  rw [← recordsOf_append]
  exact (perm_cons_erase h).filter _

theorem record_records (database : UsageDatabase) (u : GatewayUsageRecord) :
    (database.record u).2.records = database.records ∨
      (database.record u).2.records = database.records ++ [u] := by
  unfold UsageDatabase.record
  split
  · split_ifs <;> exact .inl rfl
  · exact .inr rfl

/-- Nothing of the key is stored, or is to be stored, but what was and what the step completes. -/
theorem Moves.storage (h : Moves mode s a t o) : ∃ new dropped : List GatewayUsageRecord,
    (new.map (·.entry)).Sublist (completionOf k a).toList ∧
    (dropped ++ (recordsOf k t.usage.records ++ recordsOf k t.unrecorded)).Perm
      (new ++ (recordsOf k s.usage.records ++ recordsOf k s.unrecorded)) := by
  cases h with
  | @complete res fin comp hmem =>
    obtain ⟨new, hnew, hrcs⟩ := recordsOf_holdUsage k res fin comp s.unrecorded
    refine ⟨new, [], hnew, ?_⟩
    rw [hrcs, nil_append, ← append_assoc, ← append_assoc]
    exact perm_append_comm.append_right _
  | @recordMiss u e hmem =>
    refine ⟨[], recordsOf k [u], nil_sublist _, ?_⟩
    refine (perm_append_comm_assoc ..).trans ?_
    exact (recordsOf_perm_erase hmem).symm.append_left _
  | @record u hmem =>
    have hperm := recordsOf_perm_erase (k := k) hmem
    rcases record_records s.usage u with hsame | hnew
    · refine ⟨[], recordsOf k [u], nil_sublist _, ?_⟩
      rw [hsame]
      exact (perm_append_comm_assoc ..).trans (hperm.symm.append_left _)
    · refine ⟨[], [], nil_sublist _, ?_⟩
      rw [hnew, recordsOf_append, append_assoc]
      exact hperm.symm.append_left _
  | restart =>
    refine ⟨[], recordsOf k s.unrecorded, nil_sublist _, ?_⟩
    have hemp : recordsOf k ({ usage := s.usage } : Sys).unrecorded = [] := rfl
    rw [hemp, append_nil]
    exact perm_append_comm
  | _ => exact ⟨[], [], nil_sublist _, .refl _⟩

/-- A key with nothing to be written and nothing completed keeps what is stored of it. -/
theorem Moves.storage_untouched (h : Moves mode s a t o) (hno : recordsOf k s.unrecorded = [])
    (hcpl : completionOf k a = none) :
    recordsOf k t.usage.records = recordsOf k s.usage.records ∧ recordsOf k t.unrecorded = [] := by
  have hoth : ∀ u ∈ s.unrecorded, recordsOf k [u] = [] ∧
      recordsOf k (s.unrecorded.erase u) = [] := by
    intro u hmem
    have hperm := recordsOf_perm_erase (k := k) hmem
    rwa [hno, nil_perm, append_eq_nil_iff] at hperm
  cases h with
  | @complete res fin comp hmem =>
    obtain ⟨new, hnew, hrcs⟩ := recordsOf_holdUsage k res fin comp s.unrecorded
    rw [hcpl, Option.toList_none, sublist_nil, map_eq_nil_iff] at hnew
    exact ⟨rfl, by rw [hrcs, hnew, hno]; rfl⟩
  | recordMiss hmem => exact ⟨rfl, (hoth _ hmem).2⟩
  | @record u hmem =>
    refine ⟨?_, (hoth u hmem).2⟩
    rcases record_records s.usage u with hsame | hnew
    · rw [hsame]
    · rw [hnew, recordsOf_append, (hoth u hmem).1, append_nil]
  | restart => exact ⟨rfl, rfl⟩
  | _ => exact ⟨rfl, hno⟩

end Steps

end LetsInfer.Gateway
