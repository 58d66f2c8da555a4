import LetsInfer.Node.ProtectionLease

/-! @src core/node/src/li_node_protection_lease.rs | name:Leases come from live sessions
      | scheme:state-machine

    In every reachable state a lease stands under the placement it names, its node has a session, and
    the lease is one of those that the last committed cycle of that session was answered with. The
    last committed cycle is read off the history: a session that starts or ends forgets it. -/

namespace LetsInfer.Node
open Schemes Interface Watchdog List

/-! ### What a lease says -/

/-- The lease names the session and the cycle that it is from. -/
structure Issued (authority : GatewayProtectionAuthority) (cycle : WatchdogProtectionCycle)
    (lease : GatewayPlacementProtectionLease) : Prop where
  node : lease.nodeId = authority.nodeId
  installation : lease.coreInstallationId = authority.coreInstallationId
  source : lease.watchdogSourceIdentity = authority.watchdogSourceIdentity
  session : lease.watchdogSessionId = authority.watchdogSessionId
  generation : lease.watchdogSessionGeneration = authority.watchdogSessionGeneration
  sequence : (lease.sampleSequence : ℕ) = cycle.sampleSequence
  observed : lease.observedAt = cycle.observedAtUnixMilliseconds
  monotonic : lease.observedAtMonotonicMilliseconds = cycle.observedAtMonotonicMilliseconds

structure Protects (target : ProtectedEngine) (lease : GatewayPlacementProtectionLease) : Prop where
  armed : target.phase = .armed
  generation : target.generation = lease.protectionGeneration
  containerName : target.containerName = lease.containerName.asStr
  containerId : target.containerId = some lease.containerId.asStr
  processId : target.processId = some lease.processId
  processStartTicks : target.processStartTicks = some lease.processStartTicks
  bootId : target.bootId = some lease.bootId.asStr
  cgroup : target.cgroup = some lease.cgroup

variable {ses : NodeProtectionSession} {cycle : WatchdogProtectionCycle}
  {bs : List NodeProtectionLeaseBinding} {lse : GatewayPlacementProtectionLease}
  {k : PlacementKey} {node : NodeId} {s t : NodeProtectionLeaseState} {ans : LeaseAnswer}
  {sessionId : Sha256Digest} {gen : ℕ+} {milliseconds : ℕ} {req : LeaseRequest}

section Cycle

variable {expiresAt : ℕ}

theorem leaseFor_ok {b : NodeProtectionLeaseBinding}
    (h : leaseFor ses cycle expiresAt b = .ok lse) :
    lse.key = b.key ∧ lse.nodeId = b.nodeId ∧
      (b.nodeId = ses.authority.nodeId → Issued ses.authority cycle lse) ∧
      ∀ tgt, targetMatches tgt b.target = true → Protects tgt lse := by
  rw [leaseFor] at h
  split_ifs at h
  cases h
  refine ⟨rfl, rfl, fun hnode => ⟨hnode, rfl, rfl, rfl, rfl, rfl, rfl, rfl⟩, ?_⟩
  intro tgt hmat
  simp only [targetMatches, Bool.and_eq_true, beq_iff_eq] at hmat
  obtain ⟨⟨⟨⟨⟨⟨⟨harm, hgen⟩, hname⟩, hid⟩, hpro⟩, htic⟩, hboot⟩, hcg⟩ := hmat
  exact ⟨harm, hgen, hname, hid, hpro, htic, hboot, hcg⟩

/-- RUN: the loop adds a lease per target, each from a binding of its own. -/
theorem leasesOfTargets_ok {targets : List ProtectedEngine} {used used' : List ℕ}
    {ls ls' : List GatewayPlacementProtectionLease}
    (h : leasesOfTargets ses cycle bs expiresAt targets used ls = .ok (used', ls')) :
    ∃ indices issued, used' = used ++ indices ∧ ls' = ls ++ issued ∧
      List.Forall₂ Protects targets issued ∧
      List.Forall₂ (fun idx lse => ∃ bnd, bs[idx]? = some bnd ∧
        leaseFor ses cycle expiresAt bnd = .ok lse) indices issued ∧
      (used.Nodup → used'.Nodup) := by
  induction targets generalizing used ls with
  | nil =>
    cases h
    exact ⟨[], [], by simp, by simp, .nil, .nil, id⟩
  | cons tgt targets ih =>
    rw [leasesOfTargets] at h
    split at h
    · rename_i bnd idx hmat
      split_ifs at h with hused
      obtain ⟨lse, hlse, hrest⟩ := bind_ok_iff.mp h
      obtain ⟨indices, issued, rfl, rfl, hpro, hfrom, hnd⟩ := ih hrest
      have hmem : (bnd, idx) ∈ matchesOf bs tgt := by simp [hmat]
      obtain ⟨hzip, hmtc⟩ := mem_filter.mp hmem
      refine ⟨idx :: indices, lse :: issued, by simp, by simp,
        .cons ((leaseFor_ok hlse).2.2.2 tgt hmtc) hpro,
        .cons ⟨bnd, mem_zipIdx_iff_getElem?.mp hzip, hlse⟩ hfrom, fun hbef => ?_⟩
      refine hnd (nodup_append.mpr ⟨hbef, nodup_singleton _, ?_⟩)
      rintro a ha b hb rfl
      exact hused (mem_singleton.mp hb ▸ ha)
    · cases h

theorem nodup_keys_of_bindings {indices : List ℕ} {issued : List GatewayPlacementProtectionLease}
    (hfrom : List.Forall₂ (fun idx lse => ∃ b, bs[idx]? = some b ∧
      leaseFor ses cycle expiresAt b = .ok lse) indices issued)
    (hind : indices.Nodup) (hkeys : (bs.map (·.key)).Nodup) : (issued.map (·.key)).Nodup := by
  induction hfrom with
  | nil => exact nodup_nil
  | @cons idx lse indices issued hlse hrest ih =>
    obtain ⟨hnew, hind⟩ := nodup_cons.mp hind
    refine nodup_cons.mpr ⟨fun hmem => hnew ?_, ih hind⟩
    obtain ⟨lse', hlse', hkey⟩ := mem_map.mp hmem
    obtain ⟨b, hbin, hfor⟩ := hlse
    obtain ⟨idx', hidx', b', hbin', hfor'⟩ := exists_left_of_forall₂ hrest hlse'
    have hsame : (bs.map (·.key))[idx]? = (bs.map (·.key))[idx']? := by
      rw [getElem?_map, getElem?_map, hbin, hbin', Option.map_some,
        Option.map_some, ← (leaseFor_ok hfor).1, ← (leaseFor_ok hfor').1, hkey]
    have hlt : idx < (bs.map (·.key)).length := by
      rw [length_map]
      exact (List.getElem?_eq_some_iff.mp hbin).1
    rwa [(getElem?_inj hlt hkeys).mp hsame]

/-- What a cycle is answered with: one lease per target, all of the session. -/
theorem leasesForCycle_ok {ls : List GatewayPlacementProtectionLease}
    (hnode : ∀ b ∈ bs, b.nodeId = ses.authority.nodeId)
    (h : leasesForCycle ses cycle bs expiresAt = .ok ls) :
    (∃ issued, ls.Perm issued ∧ List.Forall₂ Protects cycle.targets issued) ∧
      (∀ lse ∈ ls, Issued ses.authority cycle lse) ∧
      ((bs.map (·.key)).Nodup → (ls.map (·.key)).Nodup) := by
  obtain ⟨⟨used, issued⟩, hloop, hrest⟩ := bind_ok_iff.mp h
  obtain ⟨_, _, hused, hiss, hpro, hfrom, hnd⟩ := leasesOfTargets_ok hloop
  obtain ⟨-, hsor⟩ := error_if_ok_iff.mp hrest
  cases hsor
  rw [nil_append] at hused hiss
  subst hused hiss
  have hperm := perm_insertionSort (fun left right : GatewayPlacementProtectionLease =>
    left.placementId ≤ right.placementId) issued
  refine ⟨⟨issued, hperm, hpro⟩, fun lse hlse => ?_, fun hkeys => ?_⟩
  · obtain ⟨idx, -, b, hbin, hfor⟩ :=
      exists_left_of_forall₂ hfrom (hperm.mem_iff.mp hlse)
    exact (leaseFor_ok hfor).2.2.1 (hnode b (mem_of_getElem? hbin))
  · refine (hperm.map _).nodup_iff.mpr (nodup_keys_of_bindings hfrom ?_ hkeys)
    exact hnd nodup_nil

end Cycle

/-! ### The maps after an operation -/

section Maps

variable {ls : SortedMap PlacementKey GatewayPlacementProtectionLease}
  {next : List GatewayPlacementProtectionLease}

theorem lookup_withoutNode : (withoutNode ls node).lookup k = some lse ↔
    ls.lookup k = some lse ∧ lse.nodeId ≠ node := by
  rw [withoutNode, SortedMap.lookup_retain, bne_iff_ne]

/-- What is found after the leases were inserted is one of them or was there before. -/
theorem lookup_insertLeases (h : (insertLeases ls next).lookup k = some lse) :
    (lse ∈ next ∧ lse.key = k) ∨ (ls.lookup k = some lse ∧ ∀ other ∈ next, other.key ≠ k) := by
  induction next generalizing ls with
  | nil => exact .inr ⟨h, by simp⟩
  | cons head next ih =>
    rcases ih h with ⟨hmem, hkey⟩ | ⟨hbef, hnx⟩
    · exact .inl ⟨mem_cons_of_mem _ hmem, hkey⟩
    · rw [SortedMap.lookup_insert] at hbef
      split_ifs at hbef with hkey
      · cases hbef
        exact .inl ⟨mem_cons_self, hkey.symm⟩
      · refine .inr ⟨hbef, fun other hoth => ?_⟩
        rcases mem_cons.mp hoth with rfl | hoth
        · exact fun heq => hkey heq.symm
        · exact hnx other hoth

theorem lookup_insertLeases_none (h : (insertLeases ls next).lookup k = none) :
    ls.lookup k = none ∧ ∀ other ∈ next, other.key ≠ k := by
  induction next generalizing ls with
  | nil => exact ⟨h, by simp⟩
  | cons head next ih =>
    obtain ⟨hbef, hnx⟩ := ih h
    rw [SortedMap.lookup_insert] at hbef
    split_ifs at hbef with hkey
    refine ⟨hbef, fun other hoth => ?_⟩
    rcases mem_cons.mp hoth with rfl | hoth
    · exact fun heq => hkey heq.symm
    · exact hnx other hoth

theorem exists_lookup_insertLeases (hmem : lse ∈ next) :
    ∃ found ∈ next, found.key = lse.key ∧ (insertLeases ls next).lookup lse.key = some found := by
  cases hfd : (insertLeases ls next).lookup lse.key with
  | some found =>
    rcases lookup_insertLeases hfd with ⟨hnx, hkey⟩ | ⟨-, hoth⟩
    · exact ⟨found, hnx, hkey, rfl⟩
    · exact absurd rfl (hoth lse hmem)
  | none => exact absurd rfl ((lookup_insertLeases_none hfd).2 lse hmem)

theorem lookup_insertLeases_of_mem (hkeys : (next.map (·.key)).Nodup) (hmem : lse ∈ next) :
    (insertLeases ls next).lookup lse.key = some lse := by
  obtain ⟨found, hfd, hkey, hlk⟩ := @exists_lookup_insertLeases lse ls next hmem
  rw [hlk, inj_on_of_nodup_map hkeys hfd hmem hkey]

theorem mem_leasesOf : lse ∈ s.leasesOf node ↔
    lse.nodeId = node ∧ ∃ k, s.leases.lookup k = some lse := by
  rw [NodeProtectionLeaseState.leasesOf, mem_filter, SortedMap.mem_values, beq_iff_eq, and_comm]

end Maps

/-! ### What an operation does -/

section Steps

/-- A commit that is answered with leases: the session it is of, and the leases of the cycle. -/
structure Cycled (s : NodeProtectionLeaseState) (nodeId : NodeId) (cycle : WatchdogProtectionCycle)
    (bindings : List NodeProtectionLeaseBinding) (session : NodeProtectionSession)
    (leases : List GatewayPlacementProtectionLease) : Prop where
  connected : s.sessions.lookup nodeId = some session
  current : session.isRegressed cycle = false
  bound : ∀ binding ∈ bindings, binding.nodeId = nodeId
  made : ∃ expiresAt, leasesForCycle session cycle bindings expiresAt = .ok leases

/-- The session after a cycle of it. -/
def NodeProtectionSession.marked (session : NodeProtectionSession)
    (cycle : WatchdogProtectionCycle) : NodeProtectionSession :=
  { session with
    lastSequence := some cycle.sampleSequence
    lastObservedAt := some cycle.observedAtUnixMilliseconds
    lastMonotonicMilliseconds := some cycle.observedAtMonotonicMilliseconds }

/-- Everything that an operation can do. -/
inductive LeaseMoves (s : NodeProtectionLeaseState) :
    LeaseRequest → NodeProtectionLeaseState → LeaseAnswer → Prop
  | refused (request : LeaseRequest) (error : NodeProtectionLeaseError) :
      LeaseMoves s request s (.error error)
  | resumed (authority : GatewayProtectionAuthority) (connectedAt : ℕ) (minimum : ℕ+)
      (session : NodeProtectionSession) :
      s.sessions.lookup authority.nodeId = some session →
      LeaseMoves s (.begin authority connectedAt minimum) s (.ok [])
  | started (authority : GatewayProtectionAuthority) (connectedAt : ℕ) (minimum : ℕ+) :
      s.sessions.lookup authority.nodeId = none →
      LeaseMoves s (.begin authority connectedAt minimum)
        ⟨s.sessions.insert authority.nodeId ⟨authority, connectedAt, minimum, none, none, none⟩,
          withoutNode s.leases authority.nodeId⟩ (.ok [])
  | ignored (nodeId : NodeId) (sessionId : Sha256Digest) (generation : ℕ+) :
      (s.sessions.lookup nodeId).any (·.isNamed sessionId generation) = false →
      LeaseMoves s (.finish nodeId sessionId generation) s (.ok [])
  | ended (nodeId : NodeId) (sessionId : Sha256Digest) (generation : ℕ+) :
      (s.sessions.lookup nodeId).any (·.isNamed sessionId generation) = true →
      LeaseMoves s (.finish nodeId sessionId generation)
        ⟨s.sessions.erase nodeId, withoutNode s.leases nodeId⟩ (.ok [])
  | replayed (nodeId : NodeId) (sessionId : Sha256Digest) (generation : ℕ+)
      (cycle : WatchdogProtectionCycle) (bindings : List NodeProtectionLeaseBinding)
      (milliseconds : ℕ) (session : NodeProtectionSession)
      (leases : List GatewayPlacementProtectionLease) :
      Cycled s nodeId cycle bindings session leases →
      session.lastSequence = some cycle.sampleSequence → s.leasesOf nodeId = leases →
      LeaseMoves s (.commit nodeId sessionId generation cycle bindings milliseconds) s (.ok leases)
  | committed (nodeId : NodeId) (sessionId : Sha256Digest) (generation : ℕ+)
      (cycle : WatchdogProtectionCycle) (bindings : List NodeProtectionLeaseBinding)
      (milliseconds : ℕ) (session : NodeProtectionSession)
      (leases : List GatewayPlacementProtectionLease) :
      Cycled s nodeId cycle bindings session leases →
      LeaseMoves s (.commit nodeId sessionId generation cycle bindings milliseconds)
        ⟨s.sessions.insert nodeId (session.marked cycle),
          insertLeases (withoutNode s.leases nodeId) leases⟩ (.ok leases)

theorem beginWatchdogSession_moves (authority : GatewayProtectionAuthority) (connectedAt : ℕ)
    (mn : ℕ+) (h : leaseStep s (.begin authority connectedAt mn) = some (t, ans)) :
    LeaseMoves s (.begin authority connectedAt mn) t ans := by
  rw [leaseStep, beginWatchdogSession] at h
  cases hses : s.sessions.lookup authority.nodeId with
  | none =>
    rw [hses] at h
    cases h
    exact .started authority connectedAt mn hses
  | some ses =>
    rw [hses] at h
    dsimp only at h
    split_ifs at h
    · cases h
      exact .resumed authority connectedAt mn ses hses
    · cases h
      exact .refused _ _

theorem endWatchdogSession_moves (node : NodeId) (sessionId : Sha256Digest) (gen : ℕ+)
    (h : leaseStep s (.finish node sessionId gen) = some (t, ans)) :
    LeaseMoves s (.finish node sessionId gen) t ans := by
  rw [leaseStep, endWatchdogSession] at h
  split_ifs at h with hnmd
  · cases h
    exact .ended node sessionId gen hnmd
  · cases h
    exact .ignored node sessionId gen (Bool.eq_false_iff.mpr hnmd)

theorem commitProtectionCycle_ok {ls : List GatewayPlacementProtectionLease}
    (h : commitProtectionCycle s node sessionId gen cycle bs milliseconds = .ok (ls, t)) :
    LeaseMoves s (.commit node sessionId gen cycle bs milliseconds) t (.ok ls) := by
  obtain ⟨hcon, h⟩ := error_if_ok_iff.mp h
  simp only [not_or, any_eq_true, bne_iff_ne, not_exists, not_and, not_not] at hcon
  cases hses : s.sessions.lookup node with
  | none =>
    rw [hses] at h
    cases h
  | some ses =>
    rw [hses] at h
    obtain ⟨-, h⟩ := error_if_ok_iff.mp h
    obtain ⟨hcur, h⟩ := error_if_ok_iff.mp h
    obtain ⟨-, h⟩ := error_if_ok_iff.mp h
    obtain ⟨next, hnx, h⟩ := bind_ok_iff.mp h
    have hcyc : Cycled s node cycle bs ses next :=
      ⟨hses, Bool.eq_false_iff.mpr hcur, hcon.2.2.2, _, hnx⟩
    split_ifs at h with hlast hsame
    · cases h
      exact .replayed _ _ _ _ _ _ ses _ hcyc hlast hsame
    · cases h
      exact .committed _ _ _ _ _ _ ses _ hcyc

/-- STEP: the operations do nothing else. -/
theorem leaseStep_moves (h : leaseStep s req = some (t, ans)) : LeaseMoves s req t ans := by
  cases req with
  | begin authority connectedAt mn => exact beginWatchdogSession_moves _ _ _ h
  | finish node sessionId gen => exact endWatchdogSession_moves _ _ _ h
  | commit node sessionId gen cycle bs milliseconds =>
    rw [leaseStep] at h
    cases hcmt : commitProtectionCycle s node sessionId gen cycle bs milliseconds with
    | error err =>
      rw [hcmt] at h
      cases h
      exact .refused _ _
    | ok found =>
      rw [hcmt] at h
      cases h
      exact commitProtectionCycle_ok hcmt

end Steps

/-! ### The last committed cycle -/

abbrev LeaseEntry := NodeProtectionLeaseState × LeaseRequest × LeaseAnswer

abbrev CommittedCycle := WatchdogProtectionCycle × List GatewayPlacementProtectionLease

/-- What an operation makes of the last committed cycle of the current session of a node. -/
def noteEntry (nodeId : NodeId) (last : Option CommittedCycle) : LeaseEntry → Option CommittedCycle
  | (s, .begin authority _ _, .ok _) =>
    if authority.nodeId = nodeId ∧ (s.sessions.lookup nodeId).isNone then none else last
  | (s, .finish ended sessionId generation, .ok _) =>
    if ended = nodeId ∧ (s.sessions.lookup nodeId).any (·.isNamed sessionId generation) then none
    else last
  | (_, .commit committed _ _ cycle _ _, .ok leases) =>
    if committed = nodeId then some (cycle, leases) else last
  | _ => last

def lastCommitted (tr : List LeaseEntry) (nodeId : NodeId) : Option CommittedCycle :=
  tr.foldl (noteEntry nodeId) none

theorem lastCommitted_concat (tr : List LeaseEntry) (e : LeaseEntry) (node : NodeId) :
    lastCommitted (tr ++ [e]) node = noteEntry node (lastCommitted tr node) e := by
  rw [lastCommitted, foldl_append]
  rfl

structure MarkedBy (session : NodeProtectionSession) (cycle : WatchdogProtectionCycle) : Prop where
  sequence : session.lastSequence = some cycle.sampleSequence
  observed : session.lastObservedAt = some cycle.observedAtUnixMilliseconds
  monotonic : session.lastMonotonicMilliseconds = some cycle.observedAtMonotonicMilliseconds

/-- The lease is of a connected session of its node and of the last committed cycle of it. -/
def Live (tr : List LeaseEntry) (s : NodeProtectionLeaseState)
    (lease : GatewayPlacementProtectionLease) : Prop :=
  ∃ session cycle leases, s.sessions.lookup lease.nodeId = some session ∧
    lastCommitted tr lease.nodeId = some (cycle, leases) ∧ lease ∈ leases ∧
    Issued session.authority cycle lease ∧ MarkedBy session cycle

/-- The invariant of the store. -/
structure LeaseInv (tr : List LeaseEntry) (s : NodeProtectionLeaseState) : Prop where
  placed : ∀ k lease, s.leases.lookup k = some lease → lease.key = k
  named : ∀ nodeId session, s.sessions.lookup nodeId = some session →
    session.authority.nodeId = nodeId
  live : ∀ k lease, s.leases.lookup k = some lease → Live tr s lease

variable {tr : List LeaseEntry} {e : LeaseEntry}

theorem Live.of_other (h : Live tr s lse)
    (hses : t.sessions.lookup lse.nodeId = s.sessions.lookup lse.nodeId)
    (hlast : noteEntry lse.nodeId (lastCommitted tr lse.nodeId) e =
      lastCommitted tr lse.nodeId) : Live (tr ++ [e]) t lse := by
  obtain ⟨ses, cycle, ls, hcon, hcom, hrest⟩ := h
  refine ⟨ses, cycle, ls, hses.trans hcon, ?_, hrest⟩
  rw [lastCommitted_concat, hlast, hcom]

theorem LeaseInv.live_of_other (hinv : LeaseInv tr s)
    (hlse : (withoutNode s.leases node).lookup k = some lse)
    (hses : ∀ other, other ≠ node → t.sessions.lookup other = s.sessions.lookup other)
    (hlast : ∀ other last, other ≠ node → noteEntry other last e = last) :
    Live (tr ++ [e]) t lse := by
  obtain ⟨hbef, hne⟩ := lookup_withoutNode.mp hlse
  exact (hinv.live k lse hbef).of_other (hses _ hne) (hlast _ _ hne)

section Steps

theorem LeaseInv.step_unchanged (hinv : LeaseInv tr s)
    (hlast : ∀ node last, noteEntry node last e = last) : LeaseInv (tr ++ [e]) s :=
  ⟨hinv.placed, hinv.named, fun k lse hlse => (hinv.live k lse hlse).of_other rfl (hlast _ _)⟩

/-- A session starts: only leases of other nodes are left. -/
theorem LeaseInv.step_started (hinv : LeaseInv tr s) (authority : GatewayProtectionAuthority)
    (connectedAt : ℕ) (mn : ℕ+) (answered : List GatewayPlacementProtectionLease) :
    LeaseInv (tr ++ [(s, .begin authority connectedAt mn, .ok answered)])
      ⟨s.sessions.insert authority.nodeId ⟨authority, connectedAt, mn, none, none, none⟩,
        withoutNode s.leases authority.nodeId⟩ where
  placed k lse hlse := hinv.placed k lse (lookup_withoutNode.mp hlse).1
  named node ses hses := by
    rw [SortedMap.lookup_insert] at hses
    split_ifs at hses with hnode
    · cases hses
      exact hnode.symm
    · exact hinv.named node ses hses
  live k lse hlse := by
    refine hinv.live_of_other hlse (fun other hne => ?_) fun other last hne => ?_
    · rw [SortedMap.lookup_insert, if_neg hne]
    · exact if_neg fun h => hne h.1.symm

/-- A session ends: only leases of other nodes are left. -/
theorem LeaseInv.step_ended (hinv : LeaseInv tr s) (node : NodeId) (sessionId : Sha256Digest)
    (gen : ℕ+) (answered : List GatewayPlacementProtectionLease) :
    LeaseInv (tr ++ [(s, .finish node sessionId gen, .ok answered)])
      ⟨s.sessions.erase node, withoutNode s.leases node⟩ where
  placed k lse hlse := hinv.placed k lse (lookup_withoutNode.mp hlse).1
  named other ses hses := by
    rw [SortedMap.lookup_erase] at hses
    split_ifs at hses
    exact hinv.named other ses hses
  live k lse hlse := by
    refine hinv.live_of_other hlse (fun other hne => ?_) fun other last hne => ?_
    · rw [SortedMap.lookup_erase, if_neg hne]
    · exact if_neg fun h => hne h.1.symm

variable {ls : List GatewayPlacementProtectionLease}

section

variable (hinv : LeaseInv tr s)
include hinv

theorem LeaseInv.issued (hcyc : Cycled s node cycle bs ses ls) :
    ∀ lse ∈ ls, Issued ses.authority cycle lse := by
  obtain ⟨expiresAt, hmade⟩ := hcyc.made
  have hnode := hinv.named node ses hcyc.connected
  exact (leasesForCycle_ok (fun b hbin =>
    (hcyc.bound b hbin).trans hnode.symm) hmade).2.1

/-- A cycle that is committed again has the leases that are stored. -/
theorem LeaseInv.step_replayed (hcyc : Cycled s node cycle bs ses ls)
    (hlast : ses.lastSequence = some cycle.sampleSequence) (hsame : s.leasesOf node = ls) :
    LeaseInv (tr ++ [(s, .commit node sessionId gen cycle bs milliseconds, .ok ls)]) s := by
  refine ⟨hinv.placed, hinv.named, fun k lse hlse => ?_⟩
  by_cases hnode : lse.nodeId = node
  · have hmem : lse ∈ ls := hsame ▸ mem_leasesOf.mpr ⟨hnode, k, hlse⟩
    obtain ⟨ses', earlier, answered, hcon, -, -, hiss, hmar⟩ :=
      hinv.live k lse hlse
    rw [hnode, hcyc.connected] at hcon
    cases hcon
    -- The stored lease is from both cycles, so the marks of the earlier are those of this one.
    have haga := hinv.issued hcyc lse hmem
    refine ⟨ses, cycle, ls, hnode ▸ hcyc.connected, ?_, hmem, haga, hlast, ?_, ?_⟩
    · rw [lastCommitted_concat, hnode]
      exact if_pos rfl
    · rw [hmar.observed, ← hiss.observed, haga.observed]
    · rw [hmar.monotonic, ← hiss.monotonic, haga.monotonic]
  · refine (hinv.live k lse hlse).of_other rfl ?_
    exact if_neg fun h => hnode h.symm

/-- A new cycle replaces the leases of its node by its own. -/
theorem LeaseInv.step_committed (hcyc : Cycled s node cycle bs ses ls) :
    LeaseInv (tr ++ [(s, .commit node sessionId gen cycle bs milliseconds, .ok ls)])
      ⟨s.sessions.insert node (ses.marked cycle), insertLeases (withoutNode s.leases node) ls⟩ where
  placed k lse hlse := by
    rcases lookup_insertLeases hlse with ⟨-, hkey⟩ | ⟨hbef, -⟩
    · exact hkey
    · exact hinv.placed k lse (lookup_withoutNode.mp hbef).1
  named other found hfd := by
    rw [SortedMap.lookup_insert] at hfd
    split_ifs at hfd with hnode
    · cases hfd
      exact (hinv.named node ses hcyc.connected).trans hnode.symm
    · exact hinv.named other found hfd
  live k lse hlse := by
    rcases lookup_insertLeases hlse with ⟨hmem, -⟩ | ⟨hbef, -⟩
    · have hiss := hinv.issued hcyc lse hmem
      have hnode : lse.nodeId = node :=
        hiss.node.trans (hinv.named node ses hcyc.connected)
      refine ⟨ses.marked cycle, cycle, ls, ?_, ?_, hmem, hiss, rfl, rfl, rfl⟩
      · rw [SortedMap.lookup_insert, if_pos hnode]
      · rw [lastCommitted_concat, hnode]
        exact if_pos rfl
    · refine hinv.live_of_other hbef (fun other hne => ?_) fun other last hne => ?_
      · rw [SortedMap.lookup_insert, if_neg hne]
      · exact if_neg fun h => hne h.symm

/-- STEP: every operation keeps the invariant. -/
theorem LeaseInv.step (hmv : LeaseMoves s req t ans) : LeaseInv (tr ++ [(s, req, ans)]) t := by
  cases hmv with
  | refused req err =>
    refine hinv.step_unchanged fun node last => ?_
    cases req <;> rfl
  | resumed authority connectedAt mn ses hses =>
    refine hinv.step_unchanged fun node last => if_neg ?_
    rintro ⟨rfl, hno⟩
    simp [hses] at hno
  | started authority connectedAt mn hno => exact hinv.step_started _ _ _ _
  | ignored node sessionId gen hnot =>
    refine hinv.step_unchanged fun other last => if_neg ?_
    rintro ⟨rfl, hnmd⟩
    simp [hnot] at hnmd
  | ended node sessionId gen hnmd => exact hinv.step_ended _ _ _ _
  | replayed node sessionId gen cycle bs milliseconds ses ls hcyc hlast
      hsame => exact hinv.step_replayed hcyc hlast hsame
  | committed node sessionId gen cycle bs milliseconds ses ls hcyc =>
    exact hinv.step_committed hcyc

end

/-- RUN: the invariant holds in every reachable state. -/
theorem leaseInv_of_run (h : Run leaseStep .new tr s) : LeaseInv tr s := by
  induction h with
  | nil => exact ⟨by rintro k lse ⟨⟩, by rintro node ses ⟨⟩, by rintro k lse ⟨⟩⟩
  | snoc _ hst ih => exact ih.step (leaseStep_moves hst)

end Steps

/-! ### What each operation leaves -/

/-- The later mark is there if the earlier is, and is not before it. -/
def NotBefore (before after : Option ℕ) : Prop :=
  ∀ mark, before = some mark → ∃ mark', after = some mark' ∧ mark ≤ mark'

theorem NotBefore.refl (mark : Option ℕ) : NotBefore mark mark :=
  fun v h => ⟨v, h, le_rfl⟩

/-- One session at two times: its marks have not regressed. -/
structure Advances (before after : NodeProtectionSession) : Prop where
  authority : after.authority = before.authority
  connectedAt : after.connectedAt = before.connectedAt
  minimum : after.minimumSampleSequence = before.minimumSampleSequence
  sequence : NotBefore before.lastSequence after.lastSequence
  observed : NotBefore before.lastObservedAt after.lastObservedAt
  monotonic : NotBefore before.lastMonotonicMilliseconds after.lastMonotonicMilliseconds

structure SinceStart (session : NodeProtectionSession) : Prop where
  sequence : ∀ mark, session.lastSequence = some mark → session.minimumSampleSequence ≤ mark
  observed : ∀ mark, session.lastObservedAt = some mark → session.connectedAt ≤ mark

/-- The leases of a node are gone and those of the others are there. -/
def Cleared (s t : NodeProtectionLeaseState) (nodeId : NodeId) : Prop :=
  ∀ k lease, t.leases.lookup k = some lease ↔
    s.leases.lookup k = some lease ∧ lease.nodeId ≠ nodeId

/-- What a committed cycle leaves. -/
structure LeftBy (s t : NodeProtectionLeaseState) (nodeId : NodeId)
    (cycle : WatchdogProtectionCycle) (bindings : List NodeProtectionLeaseBinding)
    (leases : List GatewayPlacementProtectionLease) : Prop where
  /-- It is answered with one lease for each of its targets. -/
  per_target : ∃ issued, leases.Perm issued ∧ List.Forall₂ Protects cycle.targets issued
  /-- No other lease of the node is left. -/
  only : ∀ lease ∈ t.leasesOf nodeId, lease ∈ leases
  /-- There is one lease for each placement that is named. -/
  per_placement : ∀ lease ∈ leases, ∃ found ∈ leases, found.key = lease.key ∧
    t.leases.lookup lease.key = some found
  /-- Placements that are named once keep the lease that was answered. -/
  exact : (bindings.map (·.key)).Nodup → ∀ lease ∈ leases, t.leases.lookup lease.key = some lease
  distinct : (bindings.map (·.key)).Nodup → (leases.map (·.key)).Nodup
  /-- The leases of other nodes stay, but for placements that are named. -/
  others : ∀ k lease, s.leases.lookup k = some lease → lease.nodeId ≠ nodeId →
    (∀ found ∈ leases, found.key ≠ k) → t.leases.lookup k = some lease

section Effects

theorem advances_marked
    (hcur : ses.isRegressed cycle = false) : Advances ses (ses.marked cycle) := by
  simp only [NodeProtectionSession.isRegressed, Bool.or_eq_false_iff, decide_eq_false_iff_not,
    Option.any_eq_false, not_lt] at hcur
  obtain ⟨⟨⟨-, hseq⟩, hobs⟩, hmon⟩ := hcur
  exact ⟨rfl, rfl, rfl, fun mark h => ⟨_, rfl, by simpa using hseq mark h⟩,
    fun mark h => ⟨_, rfl, by simpa using hobs mark h⟩,
    fun mark h => ⟨_, rfl, by simpa using hmon mark h⟩⟩

/-- STEP: a session that is there before and after an operation is the same and has advanced. -/
theorem LeaseMoves.advances (h : LeaseMoves s req t ans)
    {before after : NodeProtectionSession} (hbef : s.sessions.lookup node = some before)
    (haft : t.sessions.lookup node = some after) : Advances before after := by
  have hsame : s.sessions.lookup node = some after → Advances before after := by
    intro hlk
    cases hbef.symm.trans hlk
    exact ⟨rfl, rfl, rfl, .refl _, .refl _, .refl _⟩
  cases h with
  | refused _ _ => exact hsame haft
  | resumed _ _ _ _ _ => exact hsame haft
  | started authority connectedAt mn hno =>
    rw [SortedMap.lookup_insert] at haft
    split_ifs at haft with hnode
    · rw [hnode, hno] at hbef
      cases hbef
    · exact hsame haft
  | ignored _ _ _ _ => exact hsame haft
  | ended ended _ _ _ =>
    rw [SortedMap.lookup_erase] at haft
    split_ifs at haft
    exact hsame haft
  | replayed _ _ _ _ _ _ _ _ _ _ _ => exact hsame haft
  | committed committed _ _ cycle _ _ ses _ hcyc =>
    rw [SortedMap.lookup_insert] at haft
    split_ifs at haft with hnode
    · cases haft
      rw [hnode, hcyc.connected] at hbef
      cases hbef
      exact advances_marked hcyc.current
    · exact hsame haft

/-- STEP: no operation marks a session before its start. -/
theorem LeaseMoves.sinceStart (h : LeaseMoves s req t ans)
    (hinv : ∀ node ses, s.sessions.lookup node = some ses → SinceStart ses) (node : NodeId)
    (ses : NodeProtectionSession) (hses : t.sessions.lookup node = some ses) : SinceStart ses := by
  cases h with
  | refused _ _ | resumed _ _ _ _ _ | ignored _ _ _ _ | replayed _ _ _ _ _ _ _ _ _ _ _ =>
    exact hinv node ses hses
  | started authority connectedAt mn hno =>
    rw [SortedMap.lookup_insert] at hses
    split_ifs at hses
    · cases hses
      exact ⟨by rintro mark ⟨⟩, by rintro mark ⟨⟩⟩
    · exact hinv node ses hses
  | ended ended _ _ _ =>
    rw [SortedMap.lookup_erase] at hses
    split_ifs at hses
    exact hinv node ses hses
  | committed committed _ _ cycle _ _ found _ hcyc =>
    rw [SortedMap.lookup_insert] at hses
    split_ifs at hses
    · cases hses
      have hcur := hcyc.current
      simp only [NodeProtectionSession.isRegressed, Bool.or_eq_false_iff,
        decide_eq_false_iff_not, not_lt] at hcur
      obtain ⟨⟨⟨⟨hmin, hcon⟩, -⟩, -⟩, -⟩ := hcur
      refine ⟨?_, ?_⟩
      · rintro mark ⟨⟩
        exact hmin
      · rintro mark ⟨⟩
        exact hcon
    · exact hinv node ses hses

theorem sinceStart_of_run (h : Run leaseStep .new tr s) :
    ∀ node ses, s.sessions.lookup node = some ses → SinceStart ses := by
  induction h with
  | nil => rintro node ses ⟨⟩
  | snoc _ hst ih => exact (leaseStep_moves hst).sinceStart ih

/-- STEP: what a commit leaves, under the invariant. -/
theorem LeaseMoves.left {ls : List GatewayPlacementProtectionLease} (hinv : LeaseInv tr s)
    (h : LeaseMoves s (.commit node sessionId gen cycle bs milliseconds) t
      (.ok ls)) : LeftBy s t node cycle bs ls := by
  cases h with
  | replayed _ _ _ _ _ _ ses _ hcyc hlast hsame =>
    obtain ⟨expiresAt, hmade⟩ := hcyc.made
    have hnode := hinv.named node ses hcyc.connected
    obtain ⟨hper, -, hdis⟩ := leasesForCycle_ok (fun b hbin =>
      (hcyc.bound b hbin).trans hnode.symm) hmade
    have hsto : ∀ lse ∈ ls, s.leases.lookup lse.key = some lse := by
      intro lse hlse
      obtain ⟨-, k, hk⟩ := mem_leasesOf.mp (hsame ▸ hlse : lse ∈ s.leasesOf node)
      rwa [hinv.placed k lse hk]
    exact ⟨hper, fun lse hlse => hsame ▸ hlse, fun lse hlse =>
      ⟨lse, hlse, rfl, hsto lse hlse⟩, fun _ => hsto, hdis,
      fun k lse hlse _ _ => hlse⟩
  | committed _ _ _ _ _ _ ses _ hcyc =>
    obtain ⟨expiresAt, hmade⟩ := hcyc.made
    have hnode := hinv.named node ses hcyc.connected
    obtain ⟨hper, hiss, hdis⟩ := leasesForCycle_ok (fun b hbin =>
      (hcyc.bound b hbin).trans hnode.symm) hmade
    refine ⟨hper, fun lse hlse => ?_, fun lse hlse => exists_lookup_insertLeases hlse,
      fun hkeys lse hlse => lookup_insertLeases_of_mem (hdis hkeys) hlse, hdis,
      fun k lse hlse hne hoth => ?_⟩
    · obtain ⟨hlse, k, hk⟩ := mem_leasesOf.mp hlse
      rcases lookup_insertLeases hk with ⟨hmem, -⟩ | ⟨hbef, -⟩
      · exact hmem
      · exact absurd hlse (lookup_withoutNode.mp hbef).2
    · cases hfd : (insertLeases (withoutNode s.leases node) ls).lookup k with
      | none =>
        have hno := (lookup_insertLeases_none hfd).1
        rw [lookup_withoutNode.mpr ⟨hlse, hne⟩] at hno
        cases hno
      | some found =>
        rcases lookup_insertLeases hfd with ⟨hmem, hkey⟩ | ⟨hbef, -⟩
        · exact absurd hkey (hoth found hmem)
        · exact (lookup_withoutNode.mp hbef).1.symm.trans hlse

/-- In every reachable state each lease is of a connected session of its node and of that session's
    last committed cycle, and the marks of a session are not before its start. From there on: what
    fails changes nothing; a session that starts or ends takes the leases of its node and no others,
    and a start or an end that is not one changes nothing; a committed cycle is answered with one
    lease per target and leaves exactly those where its bindings name different placements, and
    otherwise one per placement; and as long as a session lasts its marks do not regress. -/
theorem leases_from_live_sessions (h : Run leaseStep .new tr s) :
    (∀ k lease, s.leases.lookup k = some lease → lease.key = k ∧ Live tr s lease) ∧
    (∀ nodeId session, s.sessions.lookup nodeId = some session → SinceStart session) ∧
    ∀ request t answer, leaseStep s request = some (t, answer) →
      (∀ error, answer = .error error → t = s) ∧
      (∀ nodeId before after, s.sessions.lookup nodeId = some before →
        t.sessions.lookup nodeId = some after → Advances before after) ∧
      (∀ authority connectedAt minimum leases, request = .begin authority connectedAt minimum →
        answer = .ok leases → (s.sessions.lookup authority.nodeId = none →
          Cleared s t authority.nodeId ∧ t.sessions.lookup authority.nodeId =
            some ⟨authority, connectedAt, minimum, none, none, none⟩) ∧
        (s.sessions.lookup authority.nodeId ≠ none → t = s)) ∧
      (∀ nodeId sessionId generation, request = .finish nodeId sessionId generation →
        ((s.sessions.lookup nodeId).any (·.isNamed sessionId generation) = true →
          Cleared s t nodeId ∧ t.sessions.lookup nodeId = none) ∧
        ((s.sessions.lookup nodeId).any (·.isNamed sessionId generation) = false → t = s)) ∧
      ∀ nodeId sessionId generation cycle bindings milliseconds leases,
        request = .commit nodeId sessionId generation cycle bindings milliseconds →
        answer = .ok leases → LeftBy s t nodeId cycle bindings leases := by
  have hinv := leaseInv_of_run h
  refine ⟨fun k lease hlse => ⟨hinv.placed k lease hlse, hinv.live k lease hlse⟩,
    sinceStart_of_run h, fun request t answer hst => ?_⟩
  have hmv := leaseStep_moves hst
  refine ⟨?_, fun nodeId before after => hmv.advances, ?_, ?_, ?_⟩
  · rintro error rfl
    cases hmv
    rfl
  · rintro authority connectedAt minimum leases rfl rfl
    cases hmv with
    | resumed _ _ _ session hses => exact ⟨by simp [hses], fun _ => rfl⟩
    | started _ _ _ hno =>
      exact ⟨fun _ => ⟨fun k lease => lookup_withoutNode, by simp⟩, fun hsome => absurd hno hsome⟩
  · rintro nodeId sessionId generation rfl
    cases hmv with
    | refused _ error =>
      rw [leaseStep] at hst
      simp at hst
    | ignored _ _ _ hnot => exact ⟨by simp [hnot], fun _ => rfl⟩
    | ended _ _ _ hnmd =>
      exact ⟨fun _ => ⟨fun k lease => lookup_withoutNode, by simp⟩, by simp [hnmd]⟩
  · rintro nodeId sessionId generation cycle bindings milliseconds leases rfl rfl
    exact hmv.left hinv

end Effects

/-! ### One placement bound twice, and a session that starts over -/

theorem isLowerHex_node : Interface.isLowerHex (replicate 32 48) identityLength = true := by
  decide

theorem isLowerHex_digest : Interface.isLowerHex (replicate 64 48) 64 = true := by decide

theorem isLowerHex_otherDigest : Interface.isLowerHex (replicate 64 49) 64 = true := by decide

def oneNode : NodeId := ⟨replicate 32 48, isLowerHex_node⟩

def firstSessionId : Sha256Digest := ⟨replicate 64 48, isLowerHex_digest⟩

def secondSessionId : Sha256Digest := ⟨replicate 64 49, isLowerHex_otherDigest⟩

def authorityOf (sessionId : Sha256Digest) (generation : ℕ+) : GatewayProtectionAuthority :=
  ⟨oneNode, ⟨replicate 64 48, isLowerHex_digest⟩, firstSessionId, sessionId, generation⟩

def engineCgroup : Text := text "/sys/fs/cgroup/engine"

def engineBootId : Text := text "00000000-0000-0000-0000-000000000000"

theorem engine_bootId_safe : ∀ v ∈ some engineBootId,
    safeToken v bootIdBytes ∧ v.length = bootIdBytes := by
  rintro v ⟨⟩
  decide

theorem engine_cgroup_valid : ∀ v ∈ some engineCgroup, isCgroup v := by
  rintro v ⟨⟩
  decide

def engineOf (processId : UInt32)
    (h : ∀ value ∈ some processId, 1 < value.toNat ∧ value.toNat ≤ maxProcessId) :
    ProtectedEngine :=
  ⟨replicate 32 48, .armed, text "engine", some (replicate 64 48), some processId, some 1,
    some engineBootId, some engineCgroup, isLowerHex_zeroGeneration, safeToken_engine,
    zeroContainer_hex, h, one_isStartTicks, engine_bootId_safe, engine_cgroup_valid,
    ⟨rfl, rfl, rfl, rfl, rfl⟩⟩

theorem isTechnicalName_engine : isTechnicalName (text "engine") = true := by decide

theorem isBootId_engine : isBootId engineBootId = true := by decide +kernel

/-- What the runtime of a target with this process asks of its fields. -/
def runtimeOk (processId : UInt32) : Bool :=
  1 < processId && 0 < (1 : UInt64) && isLinuxBootId engineBootId && isCgroupText engineCgroup &&
    (engineCgroup.splitOn 47).all (· != text "..")

def bindingOf (processId : UInt32) (h : runtimeOk processId = true) : NodeProtectionLeaseBinding :=
  ⟨oneNode, ⟨replicate 32 48, isLowerHex_node⟩, ⟨replicate 32 48, isLowerHex_node⟩,
    ⟨⟨replicate 32 48, isLowerHex_node⟩, .armed,
      ⟨⟨text "engine", isTechnicalName_engine⟩, firstSessionId, processId, 1,
        ⟨engineBootId, isBootId_engine⟩, engineCgroup, h⟩, .inr rfl⟩⟩

theorem processId_three : ∀ v ∈ some (3 : UInt32), 1 < v.toNat ∧ v.toNat ≤ maxProcessId := by
  rintro v ⟨⟩
  decide

theorem binding_two : runtimeOk 2 = true := by decide +kernel

theorem binding_three : runtimeOk 3 = true := by decide +kernel

/-- A session starts and its first cycle has one target. -/
def firstCycle : List LeaseRequest :=
  [.begin (authorityOf firstSessionId 1) 1 1,
    .commit oneNode firstSessionId 1 ⟨5, 10, 10, [engineOf 2 two_isProcessId]⟩
      [bindingOf 2 binding_two] 1000]

theorem isLowerHex_otherNode :
    Interface.isLowerHex (replicate 32 49) identityLength = true := by decide

def otherNode : NodeId := ⟨replicate 32 49, isLowerHex_otherNode⟩

def otherGroup : PlacementGroupId := ⟨replicate 32 49, isLowerHex_otherNode⟩

def otherPlacement : PlacementId := ⟨replicate 32 49, isLowerHex_otherNode⟩

/-- The session of another node, and its first cycle. -/
def otherCycle : List LeaseRequest :=
  [.begin { authorityOf secondSessionId 1 with nodeId := otherNode } 1 1,
    .commit otherNode secondSessionId 1 ⟨5, 10, 10, [engineOf 3 processId_three]⟩
      [⟨otherNode, otherGroup, otherPlacement, (bindingOf 3 binding_three).target⟩] 1000]

/-- Two nodes have a lease each, and each lease is one of a live session. -/
theorem leases_from_live_sessions_two_nodes : ∃ tr s, Run leaseStep .new tr s ∧
    (s.leasesOf oneNode).length = 1 ∧ (s.leasesOf otherNode).length = 1 ∧
    ∀ k lease, s.leases.lookup k = some lease → lease.key = k ∧ Live tr s lease := by
  obtain ⟨tr, s, hrun, hone, hoth⟩ := Run.exists_of_exec leaseStep .new (firstCycle ++ otherCycle)
    (fun _ s => (s.leasesOf oneNode).length = 1 ∧ (s.leasesOf otherNode).length = 1)
    (by decide +kernel)
  exact ⟨tr, s, hrun, hone, hoth, (leases_from_live_sessions hrun).1⟩

/-- A session starts, and its cycle has two targets whose bindings name one placement. -/
def twiceBound : List LeaseRequest :=
  [.begin (authorityOf firstSessionId 1) 1 1,
    .commit oneNode firstSessionId 1
      ⟨5, 10, 10, [engineOf 2 two_isProcessId, engineOf 3 processId_three]⟩
      [bindingOf 2 binding_two, bindingOf 3 binding_three] 1000]

/-- After the first cycle the session ends, and the next one starts over. -/
def startedOver : List LeaseRequest :=
  [.finish oneNode firstSessionId 1, .begin (authorityOf secondSessionId 2) 1 1,
    .commit oneNode secondSessionId 2 ⟨1, 2, 1, []⟩ [] 1000]

def lastSequenceOf (s : NodeProtectionLeaseState) (nodeId : NodeId) : Option ℕ :=
  (s.sessions.lookup nodeId).bind (·.lastSequence)

def lastObservedAtOf (s : NodeProtectionLeaseState) (nodeId : NodeId) : Option ℕ :=
  (s.sessions.lookup nodeId).bind (·.lastObservedAt)

/-- Two targets bound to one placement are answered with two leases, and one is stored; and the
    marks of a node regress when its session ends and another starts. -/
theorem lease_lost_and_marks_restarted :
    (∃ tr s, Run leaseStep .new tr s ∧ tr.map (·.2.1) = twiceBound ∧
      (tr.map fun e => e.2.2.toOption.map List.length) = [some 0, some 2] ∧
      (s.leasesOf oneNode).length = 1) ∧
    ∃ tr t, Run leaseStep .new tr t ∧ tr.map (·.2.1) = firstCycle ++ startedOver ∧
      ((tr[2]?).bind fun e => lastSequenceOf e.1 oneNode) = some 5 ∧
      ((tr[2]?).bind fun e => lastObservedAtOf e.1 oneNode) = some 10 ∧
      lastSequenceOf t oneNode = some 1 ∧ lastObservedAtOf t oneNode = some 2 := by
  constructor
  · exact Run.exists_labelled_of_exec leaseStep .new twiceBound
      (fun tr s => (tr.map fun e => e.2.2.toOption.map List.length) = [some 0, some 2] ∧
        (s.leasesOf oneNode).length = 1) (by decide +kernel)
  · exact Run.exists_labelled_of_exec leaseStep .new (firstCycle ++ startedOver)
      (fun tr t => ((tr[2]?).bind fun e => lastSequenceOf e.1 oneNode) = some 5 ∧
        ((tr[2]?).bind fun e => lastObservedAtOf e.1 oneNode) = some 10 ∧
        lastSequenceOf t oneNode = some 1 ∧ lastObservedAtOf t oneNode = some 2)
      (by decide +kernel)

end LetsInfer.Node
