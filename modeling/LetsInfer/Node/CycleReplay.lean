import LetsInfer.Node.LeaseSessions
import LetsInfer.Schemes.Choice

/-! @src core/node/src/li_node_protection_lease.rs | name:A cycle committed again
      | scheme:state-machine

    A commit is taken for a repetition if the stored leases of the node are the leases of the cycle.
    The stored ones come in the order of the map, by group and then by placement, and those of the
    cycle are sorted by placement alone. So a cycle can be repeated exactly if the two orders agree
    on the placements it names. -/

namespace LetsInfer.Node
open Schemes Interface Watchdog List

variable {tr : List LeaseEntry} {s t : NodeProtectionLeaseState} {node : NodeId}
  {sessionId : Sha256Digest} {gen : ℕ+} {cycle : WatchdogProtectionCycle}
  {bs : List NodeProtectionLeaseBinding} {ms expiresAt : ℕ} {ses : NodeProtectionSession}
  {ls : List GatewayPlacementProtectionLease}

/-! ### The two orders -/

/-- The placements that the targets of a cycle are bound to, in the order of the targets. -/
def boundKeys (bindings : List NodeProtectionLeaseBinding) (targets : List ProtectedEngine) :
    List PlacementKey :=
  targets.flatMap fun target => (matchesOf bindings target).map (·.1.key)

/-- The stable sort by placement leaves two placements in the order of the map. -/
def InStep (a b : PlacementKey) : Prop :=
  ((ofLex a).2 ≤ (ofLex b).2 ∧ a < b) ∨ (¬(ofLex a).2 ≤ (ofLex b).2 ∧ b < a)

instance : DecidableRel InStep := fun _ _ => inferInstanceAs (Decidable (_ ∨ _))

/-- RUN: the loop makes the leases in the order of the targets. -/
theorem keys_of_targets {targets : List ProtectedEngine} {used used' : List ℕ}
    {ls' : List GatewayPlacementProtectionLease}
    (h : leasesOfTargets ses cycle bs expiresAt targets used ls = .ok (used', ls')) :
    ls'.map (·.key) = ls.map (·.key) ++ boundKeys bs targets := by
  induction targets generalizing used ls with
  | nil =>
    cases h
    simp [boundKeys]
  | cons tgt targets ih =>
    rw [leasesOfTargets] at h
    split at h
    · rename_i b idx hmat
      split_ifs at h
      obtain ⟨lse, hlse, hrest⟩ := bind_ok_iff.mp h
      rw [ih hrest, boundKeys, boundKeys, flatMap_cons, hmat]
      simp [(leaseFor_ok hlse).1]
    · cases h

/-- The leases of a cycle are in the order of the map exactly if the two orders agree. -/
theorem leases_ordered_iff (h : leasesForCycle ses cycle bs expiresAt = .ok ls) :
    (ls.Pairwise fun a b => a.key < b.key) ↔ (boundKeys bs cycle.targets).Pairwise InStep := by
  obtain ⟨⟨used, issued⟩, hloop, hrest⟩ := bind_ok_iff.mp h
  obtain ⟨-, hsor⟩ := error_if_ok_iff.mp hrest
  cases hsor
  have hkeys := keys_of_targets hloop
  rw [map_nil, nil_append] at hkeys
  have : IsTrans GatewayPlacementProtectionLease fun a b => a.placementId ≤ b.placementId :=
    ⟨fun _ _ _ => le_trans⟩
  have : Std.Total fun a b : GatewayPlacementProtectionLease => a.placementId ≤ b.placementId :=
    ⟨fun _ _ => le_total _ _⟩
  rw [pairwise_insertionSort_iff, ← hkeys, pairwise_map]
  rfl

theorem leasesOf_ordered (hinv : LeaseInv tr s) (node : NodeId) :
    (s.leasesOf node).Pairwise fun a b => a.key < b.key := by
  refine List.Pairwise.filter _ (pairwise_map.mpr ?_)
  refine s.leases.ordered.imp_of_mem fun {a b} ha hb hlt => ?_
  rw [hinv.placed a.1 a.2 (SortedMap.lookup_eq_some.mpr ha),
    hinv.placed b.1 b.2 (SortedMap.lookup_eq_some.mpr hb)]
  exact hlt

/-- STEP: after a commit the stored leases are the answered ones exactly if those are in the order
    of the map. -/
theorem LeaseMoves.leasesOf_eq_iff (hinv : LeaseInv tr s)
    (h : LeaseMoves s (.commit node sessionId gen cycle bs ms) t (.ok ls)) :
    t.leasesOf node = ls ↔ ls.Pairwise fun a b => a.key < b.key := by
  have hord := leasesOf_ordered (hinv.step h) node
  refine ⟨fun hsame => hsame ▸ hord, fun hls => ?_⟩
  refine eq_of_ordered_by _ hord hls fun lse => ⟨(h.left hinv).only lse, fun hmem => ?_⟩
  cases h with
  | replayed _ _ _ _ _ _ _ _ _ _ hsame => exact hsame ▸ hmem
  | committed _ _ _ _ _ _ ses _ hcyc =>
    have hkeys : (ls.map (·.key)).Nodup := pairwise_map.mpr (hls.imp ne_of_lt)
    exact mem_leasesOf.mpr ⟨((hinv.issued hcyc) lse hmem).node.trans
      (hinv.named node ses hcyc.connected), _, lookup_insertLeases_of_mem hkeys hmem⟩

/-! ### The second commit -/

theorem isRegressed_marked (h : ses.isRegressed cycle = false) :
    (ses.marked cycle).isRegressed cycle = false := by
  simp only [NodeProtectionSession.isRegressed, Bool.or_eq_false_iff] at h
  simp only [NodeProtectionSession.isRegressed, NodeProtectionSession.marked, Option.any_some,
    lt_irrefl, decide_false, Bool.or_false, Bool.or_eq_false_iff]
  exact h.1.1.1

theorem leasesOfTargets_marked (targets : List ProtectedEngine) (used : List ℕ)
    (ls : List GatewayPlacementProtectionLease) :
    leasesOfTargets (ses.marked cycle) cycle bs expiresAt targets used ls =
      leasesOfTargets ses cycle bs expiresAt targets used ls := by
  induction targets generalizing used ls with
  | nil => rfl
  | cons tgt targets ih =>
    simp only [leasesOfTargets, ih]
    rfl

/-- STEP: the commit that follows passes the same checks, and only the comparison decides. -/
theorem commit_again (h : commitProtectionCycle s node sessionId gen cycle bs ms = .ok (ls, t)) :
    commitProtectionCycle t node sessionId gen cycle bs ms =
      if t.leasesOf node = ls then .ok (ls, t) else .error .regressedCycle := by
  obtain ⟨hcon, h⟩ := error_if_ok_iff.mp h
  cases hses : s.sessions.lookup node with
  | none =>
    rw [hses] at h
    cases h
  | some ses =>
    rw [hses] at h
    obtain ⟨hnmd, h⟩ := error_if_ok_iff.mp h
    obtain ⟨hcur, h⟩ := error_if_ok_iff.mp h
    obtain ⟨hover, h⟩ := error_if_ok_iff.mp h
    obtain ⟨next, hnx, h⟩ := bind_ok_iff.mp h
    -- What the second commit needs of the session it finds.
    have hagain : ∀ ses', t.sessions.lookup node = some ses' →
        ses'.isNamed sessionId gen = ses.isNamed sessionId gen →
        ses'.isRegressed cycle = false → ses'.lastSequence = some cycle.sampleSequence →
        leasesForCycle ses' cycle bs (cycle.observedAtUnixMilliseconds + ms) = .ok ls →
        commitProtectionCycle t node sessionId gen cycle bs ms =
          if t.leasesOf node = ls then .ok (ls, t) else .error .regressedCycle := by
      intro ses' hses' hnmd' hcur' hlast' hnx'
      rw [commitProtectionCycle, if_neg hcon, hses']
      dsimp only
      rw [if_neg (hnmd' ▸ hnmd), if_neg (by simp [hcur']), if_neg hover, hnx']
      exact if_pos hlast'
    split_ifs at h with hlast hsame
    · cases h
      exact hagain ses hses rfl (Bool.eq_false_iff.mpr hcur) hlast hnx
    · cases h
      exact hagain (ses.marked cycle) (by rw [SortedMap.lookup_insert, if_pos rfl]; rfl) rfl
        (isRegressed_marked (Bool.eq_false_iff.mpr hcur)) rfl
        (by rwa [leasesForCycle, leasesOfTargets_marked])

/-- Every repetition of a request is answered with the leases and leaves the store as it is. -/
def Repeats (request : LeaseRequest) (t : NodeProtectionLeaseState)
    (leases : List GatewayPlacementProtectionLease) : Prop :=
  ∀ tr u, Run leaseStep t tr u → (∀ e ∈ tr, e.2.1 = request) →
    u = t ∧ ∀ e ∈ tr, e.2.2 = .ok leases

/-- RUN: one repetition decides all of them. -/
theorem repeats_iff {req : LeaseRequest} :
    Repeats req t ls ↔ leaseStep t req = some (t, .ok ls) := by
  constructor
  · intro h
    obtain ⟨u, ans, hst⟩ : ∃ u ans, leaseStep t req = some (u, ans) := by
      cases req <;> exact ⟨_, _, rfl⟩
    obtain ⟨rfl, hans⟩ := h [(t, req, ans)] u (.snoc .nil hst) (by simp)
    rw [hst, show ans = .ok ls from hans _ mem_cons_self]
  · intro hst tr u hrun hreq
    induction hrun with
    | nil => exact ⟨rfl, by simp⟩
    | @snoc tr u v req' ans hrun hst' ih =>
      obtain ⟨rfl, hall⟩ := ih fun e he => hreq e (mem_append_left _ he)
      obtain rfl : req' = req := hreq (u, req', ans) (by simp)
      obtain ⟨rfl, rfl⟩ : v = u ∧ ans = .ok ls := by simpa using hst'.symm.trans hst
      refine ⟨rfl, fun e he => ?_⟩
      rcases mem_append.mp he with he | he
      · exact hall e he
      · rw [mem_singleton.mp he]

/-- In every reachable state a cycle that was committed can be repeated, with the same answer and
    without a change, exactly if sorting its placements by placement alone puts them in the order by
    group and placement. -/
theorem cycle_repeats_iff (h : Run leaseStep .new tr s)
    (hst : leaseStep s (.commit node sessionId gen cycle bs ms) = some (t, .ok ls)) :
    Repeats (.commit node sessionId gen cycle bs ms) t ls ↔
      (boundKeys bs cycle.targets).Pairwise InStep := by
  have hmv := leaseStep_moves hst
  have hinv := leaseInv_of_run h
  obtain ⟨ses, expiresAt, hmade⟩ :
      ∃ ses expiresAt, leasesForCycle ses cycle bs expiresAt = .ok ls := by
    cases hmv with
    | replayed _ _ _ _ _ _ ses _ hcyc _ _ => exact ⟨ses, hcyc.made⟩
    | committed _ _ _ _ _ _ ses _ hcyc => exact ⟨ses, hcyc.made⟩
  rw [repeats_iff, ← leases_ordered_iff hmade, ← hmv.leasesOf_eq_iff hinv]
  have hcom : commitProtectionCycle s node sessionId gen cycle bs ms = .ok (ls, t) := by
    rw [leaseStep] at hst
    split at hst
    · cases hst
      assumption
    · cases hst
  rw [leaseStep, commit_again hcom]
  split_ifs with hsame
  · exact ⟨fun _ => hsame, fun _ => rfl⟩
  · exact iff_of_false (by simp) hsame

/-! ### Two groups -/

def oneGroup : PlacementGroupId := ⟨replicate 32 48, isLowerHex_node⟩

def onePlacement : PlacementId := ⟨replicate 32 48, isLowerHex_node⟩

/-- Two targets, with the placements of their groups in step. -/
def straightCommit : LeaseRequest :=
  .commit oneNode firstSessionId ⟨1, Nat.one_pos⟩
    ⟨5, 10, 10, [engineOf 2 two_isProcessId, engineOf 3 processId_three]⟩
    [⟨oneNode, oneGroup, onePlacement, (bindingOf 2 binding_two).target⟩,
      ⟨oneNode, otherGroup, otherPlacement, (bindingOf 3 binding_three).target⟩] 1000

theorem cycle_repeats_two_groups : ∃ tr s t ls, Run leaseStep .new tr s ∧
    leaseStep s straightCommit = some (t, .ok ls) ∧ ls.length = 2 ∧ Repeats straightCommit t ls := by
  obtain ⟨tr, s, hrun, htwo⟩ := Run.exists_of_exec leaseStep .new
    [.begin (authorityOf firstSessionId 1) 1 1]
    (fun _ s => ((leaseStep s straightCommit).bind (·.2.toOption)).map List.length = some 2)
    (by decide +kernel)
  obtain ⟨ls, hls, hlen⟩ := Option.map_eq_some_iff.mp htwo
  obtain ⟨⟨t, ans⟩, hst, hans⟩ := Option.bind_eq_some_iff.mp hls
  cases ans with
  | error _ => cases hans
  | ok _ =>
    cases hans
    exact ⟨tr, s, t, ls, hrun, hst, hlen, (cycle_repeats_iff hrun hst).mpr (by decide +kernel)⟩

/-- Two targets: the first is bound to the later group, and the second to the later placement. -/
def crossedCommit : LeaseRequest :=
  .commit oneNode firstSessionId ⟨1, Nat.one_pos⟩
    ⟨5, 10, 10, [engineOf 2 two_isProcessId, engineOf 3 processId_three]⟩
    [⟨oneNode, otherGroup, onePlacement, (bindingOf 2 binding_two).target⟩,
      ⟨oneNode, oneGroup, otherPlacement, (bindingOf 3 binding_three).target⟩] 1000

/-- The cycle is committed with two leases, and its repetition is refused. -/
theorem crossed_cycle_refused : ∃ tr s, Run leaseStep .new tr s ∧
    tr.map (·.2.1) = [.begin (authorityOf firstSessionId 1) 1 1, crossedCommit, crossedCommit] ∧
    (tr.map fun e => e.2.2.map List.length) = [.ok 0, .ok 2, .error .regressedCycle] :=
  Run.exists_labelled_of_exec leaseStep .new _
    (fun tr _ => (tr.map fun e => e.2.2.map List.length) = [.ok 0, .ok 2, .error .regressedCycle])
    (by decide +kernel)

end LetsInfer.Node
