import LetsInfer.PrefixStore.Ownership

/-! @src cache/letsinfer_prefix_store/src/store.rs | name:Byte accounting | scheme:accounting

    `committed_bytes` is the bytes of the indexed records and `reserved_bytes` those of the captures
    that hold a reservation; every section moves both sides alike, so the equations survive any
    interleaving. Both are 64-bit words: `begin_capture` adds its reservation before it compares
    anything with the capacity, so the equations need that sum to fit, which it does whenever three
    times the capacity does. What is over the capacity is the reservations no enforcement has
    granted yet. -/

namespace LetsInfer.PrefixStore
open Schemes List

def IndexState.storedBytes (index : IndexState) : ℕ := (index.records.map (·.fileBytes)).sum

def Capture.heldBytes (c : Capture) : ℕ :=
  if c.stage.standing.holds then c.header.fileBytes else 0

/-- Whether a reservation is still to be enforced, or to be given back for want of room. -/
def Standing.pending : Standing → Bool
  | .reserved | .failed => true
  | .before | .held | .done => false

/-- The bytes a capture has reserved and no enforcement has granted. -/
def Capture.pendingBytes (c : Capture) : ℕ :=
  if c.stage.standing.pending then c.header.fileBytes else 0

def Sys.heldBytes (s : Sys) : ℕ := Table.total (fun _ c => c.heldBytes) s.captures

def Sys.pendingBytes (s : Sys) : ℕ := Table.total (fun _ c => c.pendingBytes) s.captures

/-- The counters say what they count. -/
structure IndexState.Exact (index : IndexState) : Prop where
  committed : index.committedBytes = index.storedBytes
  fits : index.committedBytes + index.reservedBytes < u64Bound
  underflow : index.underflowed = false

variable {a b n : ℕ} {idx idx' : IndexState} {gone : List RecordMeta} {cfg : StoreConfig}
  {s t : Sys} {lab : Label}

/-! ### Words -/

theorem addWord_eq (h : a + b < u64Bound) : addWord a b = a + b := Nat.mod_eq_of_lt h

theorem subWord_eq (hle : b ≤ a) (h : a < u64Bound) : subWord a b = a - b := by
  have hb : b % u64Bound = b := Nat.mod_eq_of_lt (hle.trans_lt h)
  have hsum : a + (u64Bound - b) = a - b + u64Bound := by omega
  rw [subWord, hb, hsum, Nat.add_mod_right, Nat.mod_eq_of_lt (by omega)]

/-! ### Sections of the index -/

variable {f : RecordMeta → RecordMeta} {hash : UInt64}

namespace IndexState

variable {rcd : RecordMeta}

theorem storedBytes_remove (hk : idx.Keyed) (hmem : rcd ∈ idx.records) :
    idx.storedBytes = rcd.fileBytes + (idx.remove rcd).storedBytes := by
  rw [storedBytes, storedBytes, records_remove]
  exact hk.sum_dropKeys hmem _

theorem Exact.remove (h : idx.Exact) (hk : idx.Keyed) (hmem : rcd ∈ idx.records) :
    (idx.remove rcd).Exact ∧ (idx.remove rcd).committedBytes ≤ idx.committedBytes := by
  have hsto := storedBytes_remove hk hmem
  have hcom := h.committed
  have hfits := h.fits
  have hle : rcd.fileBytes ≤ idx.committedBytes := by omega
  have hsub : (idx.remove rcd).committedBytes = idx.committedBytes - rcd.fileBytes :=
    subWord_eq hle (by omega)
  have hrsv : (idx.remove rcd).reservedBytes = idx.reservedBytes := rfl
  refine ⟨⟨by omega, by omega, ?_⟩, by omega⟩
  simp [IndexState.remove, uncommit, h.underflow, hle]

/-- An eviction keeps the counters exact and commits no more. -/
theorem Exact.evicts (h : idx.Exact) (hk : idx.Keyed) (hgone : Evicts idx gone idx') :
    idx'.Exact ∧ idx'.committedBytes ≤ idx.committedBytes := by
  induction gone generalizing idx with
  | nil =>
    obtain rfl : idx' = idx := hgone.result
    exact ⟨h, le_rfl⟩
  | cons rcd gone ih =>
    have hmem := hgone.indexed rcd mem_cons_self
    obtain ⟨hnx, hle⟩ := h.remove hk hmem
    have hrest := hgone.uncons
    obtain ⟨hlast, hle'⟩ := ih hnx (((Evicts.refl _).cons hmem).keyed hk) hrest
    exact ⟨hlast, hle'.trans hle⟩

theorem reservedBytes_evicts (hgone : Evicts idx gone idx') :
    idx'.reservedBytes = idx.reservedBytes := by
  rw [hgone.result]
  exact (reserved_removeAll _ _).1

theorem Exact.update (h : idx.Exact) (hash : UInt64)
    (hf : ∀ rcd, (f rcd).fileBytes = rcd.fileBytes) : (idx.update hash f).Exact where
  committed := by
    rw [storedBytes, records_update, sum_mapKey hf]
    exact h.committed
  fits := h.fits
  underflow := h.underflow

/-- The bytes of the record a commit replaces. -/
def priorBytes (index : IndexState) (hash : UInt64) : ℕ :=
  ((index.get hash).map (·.fileBytes)).getD 0

theorem reservedBytes_publish (idx : IndexState) (rcd : RecordMeta) :
    (idx.publish rcd).1.reservedBytes = idx.reservedBytes - rcd.fileBytes := by
  simp only [IndexState.publish]
  split <;> rfl

variable {i : IndexState}

theorem priorBytes_some {prior : RecordMeta} (h : i.get hash = some prior) :
    i.priorBytes hash = prior.fileBytes := by
  rw [priorBytes, h]
  rfl

theorem priorBytes_none (h : i.get hash = none) : i.priorBytes hash = 0 := by
  rw [priorBytes, h]
  rfl

theorem committedBytes_publish (idx : IndexState) (rcd : RecordMeta) :
    (idx.publish rcd).1.committedBytes =
      addWord (idx.committedBytes - idx.priorBytes rcd.hash) rcd.fileBytes := by
  simp only [IndexState.publish]
  split
  · rename_i hno
    rw [priorBytes_none (i := idx) hno]
    rfl
  · rename_i prior hsome
    rw [priorBytes_some (i := idx) hsome]
    rfl

theorem underflowed_publish (h : idx.underflowed = false) (hle : rcd.fileBytes ≤ idx.reservedBytes)
    (hpri : idx.priorBytes rcd.hash ≤ idx.committedBytes) :
    (idx.publish rcd).1.underflowed = false := by
  simp only [IndexState.publish]
  split
  · simp [h, hle]
  · rename_i prior hsome
    rw [priorBytes_some (i := idx) hsome] at hpri
    simp [uncommitSaturating, h, hle, hpri]

theorem storedBytes_publish (hk : idx.Keyed) (rcd : RecordMeta) :
    (idx.publish rcd).1.storedBytes + idx.priorBytes rcd.hash =
      rcd.fileBytes + idx.storedBytes := by
  rw [storedBytes, storedBytes, records_publish, map_cons, sum_cons]
  cases hget : idx.get rcd.hash with
  | none =>
    rw [dropKeys_eq_self fun other hoth => by simpa using get_eq_none.mp hget other hoth,
      priorBytes_none hget]
    rfl
  | some prior =>
    obtain ⟨hmem, hhash⟩ := hk.get_eq_some.mp hget
    rw [hk.sum_dropKeys hmem, hhash, priorBytes_some hget]
    omega

/-- Indexing a record moves its bytes from the reserved side to the committed side. -/
theorem Exact.publish (h : idx.Exact) (hk : idx.Keyed) (hle : rcd.fileBytes ≤ idx.reservedBytes) :
    (idx.publish rcd).1.Exact ∧
      (idx.publish rcd).1.committedBytes + (idx.publish rcd).1.reservedBytes ≤
        idx.committedBytes + idx.reservedBytes := by
  have hcom := h.committed
  have hfits := h.fits
  have hsto := storedBytes_publish hk rcd
  have hsto' : rcd.fileBytes ≤ (idx.publish rcd).1.storedBytes := by
    rw [storedBytes, records_publish, map_cons, sum_cons]
    exact Nat.le_add_right _ _
  have hrsv := reservedBytes_publish idx rcd
  have hnow : (idx.publish rcd).1.committedBytes =
      idx.committedBytes - idx.priorBytes rcd.hash + rcd.fileBytes := by
    rw [committedBytes_publish, addWord_eq (by omega)]
  exact ⟨⟨by omega, by omega, underflowed_publish h.underflow hle (by omega)⟩, by omega⟩

end IndexState

/-! ### The store -/

/-- The accounting of the store: the counters are exact, and only reservations that no enforcement
    has granted are over the capacity. -/
structure Accounted (config : StoreConfig) (s : Sys) : Prop extends Owned s where
  counters : s.index.Exact
  reserved : s.index.reservedBytes = s.heldBytes
  granted : 0 < config.capacityBytes →
    s.index.committedBytes + s.index.reservedBytes ≤ config.capacityBytes + s.pendingBytes

/-- The sum that `begin_capture` makes when it reserves fits a word. -/
def ReservationFits (s : Sys) : Label → Prop
  | .reserve n => ∀ c, s.captures.lookup n = some c → c.stage = .planned →
      s.index.committedBytes + s.index.reservedBytes + c.header.fileBytes < u64Bound
  | _ => True

section Shifts

variable {c c' : Capture}

theorem heldBytes_insert (hc : s.captures.lookup n = some c)
    (h : t.captures = s.captures.insert n c') :
    t.heldBytes + c.heldBytes = s.heldBytes + c'.heldBytes := by
  rw [Sys.heldBytes, h]
  exact Table.total_replace (fun _ c => c.heldBytes) c' hc

theorem pendingBytes_insert (hc : s.captures.lookup n = some c)
    (h : t.captures = s.captures.insert n c') :
    t.pendingBytes + c.pendingBytes = s.pendingBytes + c'.pendingBytes := by
  rw [Sys.pendingBytes, h]
  exact Table.total_replace (fun _ c => c.pendingBytes) c' hc

theorem heldBytes_of_holds (h : c.stage.standing.holds) : c.heldBytes = c.header.fileBytes :=
  if_pos h

theorem heldBytes_of_not_holds (h : c.stage.standing.holds = false) : c.heldBytes = 0 := by
  simp [Capture.heldBytes, h]

theorem pendingBytes_of_pending (h : c.stage.standing.pending) :
    c.pendingBytes = c.header.fileBytes :=
  if_pos h

theorem pendingBytes_of_not_pending (h : c.stage.standing.pending = false) :
    c.pendingBytes = 0 := by
  simp [Capture.pendingBytes, h]

namespace Accounted

section

variable (h : Accounted cfg s)
include h

theorem le_reserved (hc : s.captures.lookup n = some c)
    (hhd : c.stage.standing.holds) : c.header.fileBytes ≤ s.index.reservedBytes := by
  rw [h.reserved, ← heldBytes_of_holds hhd]
  exact Table.le_total (fun _ c => c.heldBytes) hc

/-- A change of the records that commits no more. -/
theorem of_captures (hown : Owned t) (hctr : t.index.Exact)
    (hrsv : t.index.reservedBytes = s.index.reservedBytes)
    (hcom : t.index.committedBytes ≤ s.index.committedBytes)
    (hcap : t.captures = s.captures) : Accounted cfg t := by
  have hheld : t.heldBytes = s.heldBytes := by rw [Sys.heldBytes, hcap, Sys.heldBytes]
  have hpen : t.pendingBytes = s.pendingBytes := by
    rw [Sys.pendingBytes, hcap, Sys.pendingBytes]
  refine ⟨hown, hctr, by rw [hrsv, hheld, h.reserved], fun hpos => ?_⟩
  have hgra := h.granted hpos
  omega

/-- A change of the captures that moves no reservation. -/
theorem of_index (hown : Owned t) (hidx : t.index = s.index) (hheld : t.heldBytes = s.heldBytes)
    (hpen : t.pendingBytes = s.pendingBytes) : Accounted cfg t := by
  refine ⟨hown, by rw [hidx]; exact h.counters, by rw [hidx, hheld, h.reserved], ?_⟩
  rw [hidx, hpen]
  exact h.granted

theorem evicts (hown : Owned t)
    (hgone : s.index.Evicts gone t.index) (hcap : t.captures = s.captures) : Accounted cfg t := by
  obtain ⟨hctr, hle⟩ := h.counters.evicts h.keyed hgone
  exact h.of_captures hown hctr (IndexState.reservedBytes_evicts hgone) hle hcap

theorem update (hown : Owned t) (hidx : t.index = s.index.update hash f)
    (hf : ∀ rcd, (f rcd).fileBytes = rcd.fileBytes) (hcap : t.captures = s.captures) :
    Accounted cfg t := by
  refine h.of_captures hown ?_ ?_ ?_ hcap
  · rw [hidx]
    exact h.counters.update hash hf
  · rw [hidx]
    rfl
  · rw [hidx]
    rfl

/-- STEP: a shift whose reservation fits keeps the accounting. -/
theorem shift (hfits : ReservationFits s lab) (hshf : Shift cfg s t lab) : Accounted cfg t := by
  have hown : Owned t := h.toOwned.shift hshf
  have hrsv := h.reserved
  have hcom := h.counters.committed
  have hword := h.counters.fits
  cases hshf with
  | same hidx hcap _ _ =>
    exact h.of_index hown hidx (by rw [Sys.heldBytes, hcap, Sys.heldBytes])
      (by rw [Sys.pendingBytes, hcap, Sys.pendingBytes])
  | @opened _ c hc _ _ hidx hcap _ _ =>
    have hnew : s.next ∉ s.captures := by
      intro hmem
      obtain ⟨d, hd⟩ := Finmap.mem_iff.mp hmem
      exact lt_irrefl _ (h.numbered _ d hd)
    refine h.of_index hown hidx ?_ ?_
    · rw [Sys.heldBytes, hcap, Table.total_insert _ _ hnew,
        heldBytes_of_not_holds (by rw [hc]; rfl), Nat.zero_add, Sys.heldBytes]
    · rw [Sys.pendingBytes, hcap, Table.total_insert _ _ hnew,
        pendingBytes_of_not_pending (by rw [hc]; rfl), Nat.zero_add, Sys.pendingBytes]
  | @staged _ n c sg hc hstd _ hidx hcap _ _ =>
    have hheld := heldBytes_insert hc hcap
    have hpen := pendingBytes_insert hc hcap
    have hsame : ({ c with stage := sg } : Capture).heldBytes = c.heldBytes ∧
        ({ c with stage := sg } : Capture).pendingBytes = c.pendingBytes := by
      rcases hstd with heq | ⟨hbef, hdone⟩
      · simp [Capture.heldBytes, Capture.pendingBytes, heq]
      · simp [Capture.heldBytes, Capture.pendingBytes, hbef, hdone, Standing.holds,
          Standing.pending]
    exact h.of_index hown hidx (by omega) (by omega)
  | @closed _ n c hc hsg hidx hcap _ _ =>
    refine h.of_index hown hidx ?_ ?_
    · rw [Sys.heldBytes, Sys.heldBytes, Table.total_erase (fun _ c => c.heldBytes) hc, ← hcap,
        heldBytes_of_not_holds (by rw [hsg]; rfl), Nat.zero_add]
    · rw [Sys.pendingBytes, Sys.pendingBytes, Table.total_erase (fun _ c => c.pendingBytes) hc,
        ← hcap, pendingBytes_of_not_pending (by rw [hsg]; rfl), Nat.zero_add]
  | @reserve n c hc hsg _ hidx hcap _ _ =>
    have hheld := heldBytes_insert hc hcap
    have hpen := pendingBytes_insert hc hcap
    rw [heldBytes_of_not_holds (by rw [hsg]; rfl), heldBytes_of_holds rfl] at hheld
    rw [pendingBytes_of_not_pending (by rw [hsg]; rfl), pendingBytes_of_pending rfl] at hpen
    have hsum := hfits c hc hsg
    have hadd : t.index.reservedBytes = s.index.reservedBytes + c.header.fileBytes := by
      rw [hidx]
      exact addWord_eq (by omega)
    have hkept : t.index.committedBytes = s.index.committedBytes := by rw [hidx]; rfl
    refine ⟨hown, ⟨?_, by omega, ?_⟩, ?_, fun hpos => ?_⟩
    · rwa [hidx]
    · rw [hidx]
      exact h.counters.underflow
    · simp only at hheld
      omega
    · have hgra := h.granted hpos
      simp only at hpen
      omega
  | @enforce n c vs exh hc hsg hidx hcap _ _ =>
    obtain ⟨gone, hgone, -, -, hroom, -⟩ := IndexState.enforce_evicts h.keyed le_rfl hidx
    obtain ⟨hctr, hle⟩ := h.counters.evicts h.keyed hgone
    have hkept := IndexState.reservedBytes_evicts hgone
    have hheld := heldBytes_insert hc hcap
    have hpen := pendingBytes_insert hc hcap
    rw [heldBytes_of_holds (by rw [hsg]; rfl), heldBytes_of_holds (by cases exh <;> rfl)] at hheld
    rw [pendingBytes_of_pending (by rw [hsg]; rfl)] at hpen
    refine ⟨hown, hctr, ?_, fun hpos => ?_⟩
    · simp only at hheld
      omega
    · have hgra := h.granted hpos
      cases exh with
      | true =>
        rw [pendingBytes_of_pending rfl] at hpen
        simp only at hpen
        omega
      | false =>
        have hfit : t.index.usedFor 0 ≤ cfg.capacityBytes :=
          (hroom rfl).resolve_right hpos.ne'
        have hword' := hctr.fits
        rw [IndexState.usedFor, addWord_eq hword', addWord_eq (by omega)] at hfit
        omega
  | @release _ n c hc hsg hidx hcap _ _ =>
    have hhd : c.stage.standing.holds := by
      rcases hsg with hsg | hsg <;> simp [hsg, Standing.holds]
    have hle := h.le_reserved hc hhd
    have hheld := heldBytes_insert hc hcap
    have hpen := pendingBytes_insert hc hcap
    rw [heldBytes_of_holds hhd, heldBytes_of_not_holds rfl] at hheld
    rw [pendingBytes_of_not_pending (c := { c with stage := .closing }) rfl] at hpen
    have hless : c.pendingBytes ≤ c.header.fileBytes := by
      rw [Capture.pendingBytes]
      split_ifs <;> omega
    have haft : t.index.reservedBytes = s.index.reservedBytes - c.header.fileBytes ∧
        t.index.committedBytes = s.index.committedBytes ∧ t.index.underflowed = false ∧
        t.index.records = s.index.records := by
      rcases hidx with hidx | hidx
      · rw [hidx]
        refine ⟨subWord_eq hle (by omega), rfl, ?_, rfl⟩
        simp [IndexState.unreserve, h.counters.underflow, hle]
      · rw [hidx]
        refine ⟨rfl, rfl, ?_, rfl⟩
        simp [IndexState.cancelReservation, h.counters.underflow, hle]
    obtain ⟨hsub, hkept, hund, hrcs⟩ := haft
    refine ⟨hown, ⟨?_, by omega, hund⟩, by omega, fun hpos => ?_⟩
    · rw [hkept, hcom, IndexState.storedBytes, IndexState.storedBytes, hrcs]
    · have hgra := h.granted hpos
      omega
  | @publish n c job now sg hc hsg hjob hidx hdone hcap _ _ =>
    have hhd : c.stage.standing.holds := by simp [hsg, Standing.holds]
    have hbs : (job.record c.tokens n now).fileBytes = c.header.fileBytes :=
      (h.jobs n c job hc hjob).2
    have hle := h.le_reserved hc hhd
    obtain ⟨hctr, htot⟩ := h.counters.publish h.keyed (hbs.trans_le hle)
    have hsub := IndexState.reservedBytes_publish s.index (job.record c.tokens n now)
    rw [← hidx] at hctr htot hsub
    have hheld := heldBytes_insert hc hcap
    have hpen := pendingBytes_insert hc hcap
    rw [heldBytes_of_holds hhd, heldBytes_of_not_holds (by simp [hdone, Standing.holds])] at hheld
    rw [pendingBytes_of_not_pending (by simp [hsg, Standing.pending]),
      pendingBytes_of_not_pending (by simp [hdone, Standing.pending])] at hpen
    refine ⟨hown, hctr, by omega, fun hpos => ?_⟩
    have hgra := h.granted hpos
    omega
  | reclaim hidx hcap _ _ =>
    obtain ⟨gone, hgone, -⟩ := IndexState.reclaim_evicts h.keyed hidx
    exact h.evicts hown hgone hcap
  | evict _ hidx hcap _ _ =>
    obtain ⟨gone, hgone, -⟩ := IndexState.evictForIntegrity_evicts hidx
    exact h.evicts hown hgone hcap
  | touch _ hidx hcap _ _ | drop _ hidx hcap _ _ =>
    exact h.update hown hidx (fun _ => rfl) hcap
  | hit hfd _ hcap _ _ =>
    exact h.update hown (IndexState.longestPrefix_eq_some hfd).2 (fun _ => rfl) hcap

end

end Accounted

end Shifts

/-! ### Runs -/

section Runs

variable {crc : List UInt8 → UInt32} {s₀ : Sys} {tr : List (Sys × Label × Output)}

/-- RUN: the accounting is kept along every run whose reservations fit. -/
theorem accounted_of_run (hrun : Run (step crc cfg) s₀ tr s) (h0 : Accounted cfg s₀)
    (hfits : ∀ e ∈ tr, ReservationFits e.1 e.2.1) : Accounted cfg s :=
  hrun.invariant_of ReservationFits (Accounted cfg) h0 hfits
    fun _ _ _ _ h hfit hst => h.shift hfit (step_moves hst).shift

/-- A store that was just opened: nothing is under way, and the records are within the capacity. -/
structure Opened (config : StoreConfig) (s : Sys) : Prop where
  keyed : s.index.Keyed
  committed : s.index.committedBytes = s.index.storedBytes
  unreserved : s.index.reservedBytes = 0 ∧ s.index.reservedHashes = ∅
  underflow : s.index.underflowed = false
  word : s.index.committedBytes < u64Bound
  within : 0 < config.capacityBytes → s.index.committedBytes ≤ config.capacityBytes
  captures : s.captures = ∅
  permits : s.outstanding = 0

theorem Opened.accounted (h : Opened cfg s) : Accounted cfg s := by
  have hno : ∀ n, s.captures.lookup n = none := by simp [h.captures]
  have hhdr : ∀ n hash, ¬Holder s n hash := by
    rintro n hash ⟨c, hc, -⟩
    simp [hno] at hc
  refine ⟨⟨h.keyed, ?_, ?_, ?_, ?_⟩, ⟨h.committed, ?_, h.underflow⟩, ?_, ?_⟩
  · simp [hno]
  · simp [hno]
  · simp [h.unreserved.2, hhdr]
  · exact fun n m hash hn => absurd hn (hhdr n hash)
  · rw [h.unreserved.1]
    exact h.word
  · simp [h.unreserved.1, Sys.heldBytes, h.captures]
  · intro hpos
    rw [h.unreserved.1]
    exact (h.within hpos).trans (Nat.le_add_right _ _)

/-! ### Pinned bytes -/

def IndexState.pinnedBytes (index : IndexState) : ℕ :=
  ((index.records.filter fun record => record.activeReaders ≠ 0).map (·.fileBytes)).sum

/-- What an enforcement cannot evict is within the capacity. -/
def EnforcementFits (config : StoreConfig) (s : Sys) : Label → Prop
  | .enforce _ => s.index.pinnedBytes + s.index.reservedBytes ≤ config.capacityBytes
  | _ => True

/-- No reservation waits to be given back for want of room. -/
def NoneFailed (s : Sys) : Prop :=
  ∀ n c, s.captures.lookup n = some c → c.stage.standing ≠ .failed

theorem IndexState.Evicts.storedBytes_le (h : idx.Evicts gone idx')
    (hpin : ∀ rcd ∈ idx'.records, rcd.activeReaders ≠ 0) : idx'.storedBytes ≤ idx.pinnedBytes := by
  have hsub : idx'.records.Sublist idx.records := by
    rw [h.result, records_removeAll]
    exact filter_sublist
  have hall : (idx'.records.filter fun rcd => rcd.activeReaders ≠ 0) = idx'.records :=
    filter_eq_self.mpr fun rcd hmem => decide_eq_true (hpin rcd hmem)
  rw [storedBytes, pinnedBytes, ← hall]
  exact ((hsub.filter _).map _).sum_le_sum (by simp)

theorem Accounted.not_exhausted {vs : List Path}
    {exh : Bool} (h : Accounted cfg s) (hfit : EnforcementFits cfg s (.enforce n))
    (henf : IndexState.enforce cfg.capacityBytes 0 s.index.records.length s.index =
      (idx, vs, exh)) : exh = false := by
  obtain ⟨gone, hgone, -, -, -, hfull⟩ := IndexState.enforce_evicts h.keyed le_rfl henf
  cases exh with
  | false => rfl
  | true =>
    obtain ⟨hover, hpin⟩ := hfull rfl
    obtain ⟨hctr, -⟩ := h.counters.evicts h.keyed hgone
    have hsto := hgone.storedBytes_le hpin
    have hcom := hctr.committed
    have hkept := IndexState.reservedBytes_evicts hgone
    have hword := hctr.fits
    rw [IndexState.usedFor, addWord_eq hword, addWord_eq (by omega)] at hover
    simp only [EnforcementFits] at hfit
    omega

theorem NoneFailed.shift (hno : NoneFailed s) (h : Accounted cfg s)
    (hfit : EnforcementFits cfg s lab) (hshf : Shift cfg s t lab) : NoneFailed t := by
  have hins : ∀ {n : ℕ} {c : Capture}, t.captures = s.captures.insert n c →
      c.stage.standing ≠ .failed → NoneFailed t := by
    intro n c hcap hstd m d hd
    rcases Table.insert_cases hcap hd with ⟨-, rfl⟩ | ⟨-, hd⟩
    · exact hstd
    · exact hno m d hd
  cases hshf with
  | same _ hcap | reclaim _ hcap | evict _ _ hcap | touch _ _ hcap
  | hit _ _ hcap | drop _ _ hcap =>
    rwa [NoneFailed, hcap]
  | opened hc _ _ _ hcap => exact hins hcap (by simp [hc, CaptureStage.standing])
  | staged hc hstd _ _ hcap =>
    refine hins hcap ?_
    rcases hstd with heq | ⟨-, hdone⟩
    · simpa [heq] using hno _ _ hc
    · simp [hdone]
  | closed _ _ _ hcap =>
    intro m d hd
    exact hno m d (Table.lookup_of_erase (hcap ▸ hd))
  | reserve _ _ _ _ hcap | release _ _ _ hcap =>
    exact hins hcap (by simp [CaptureStage.standing])
  | enforce _ _ hidx hcap =>
    obtain rfl := h.not_exhausted hfit hidx
    exact hins hcap (by simp [CaptureStage.standing])
  | publish _ _ _ _ hdone hcap => exact hins hcap (by simp [hdone])

/-! ### Small capacities -/

/-- Every capture under way has a permit, of which two are out at most, and is within the
    capacity. -/
structure Slotted (config : StoreConfig) (s : Sys) : Prop where
  permits : s.captures.size = s.outstanding
  limit : s.outstanding ≤ maxOutstandingCommits
  bytes : ∀ n c, s.captures.lookup n = some c → c.header.fileBytes ≤ config.capacityBytes

theorem Slotted.of_idle (hcap : s.captures = ∅) (hout : s.outstanding = 0) : Slotted cfg s :=
  ⟨by rw [hcap, hout]; rfl, by simp [hout], by simp [hcap]⟩

theorem Slotted.slots (h : Slotted cfg s) : s.captures.size ≤ maxOutstandingCommits :=
  h.permits.trans_le h.limit

theorem Slotted.bytes_shift (h : Slotted cfg s) (hshf : Shift cfg s t lab) :
    ∀ n c, t.captures.lookup n = some c → c.header.fileBytes ≤ cfg.capacityBytes := by
  have hsg : ∀ {n : ℕ} {c : Capture} {sg : CaptureStage}, s.captures.lookup n = some c →
      t.captures = s.captures.insert n { c with stage := sg } →
      ∀ m d, t.captures.lookup m = some d → d.header.fileBytes ≤ cfg.capacityBytes := by
    intro n c sg hc hcap m d hd
    rcases Table.insert_cases hcap hd with ⟨-, rfl⟩ | ⟨-, hd⟩
    · exact h.bytes n c hc
    · exact h.bytes m d hd
  cases hshf with
  | same _ hcap | reclaim _ hcap | evict _ _ hcap | touch _ _ hcap
  | hit _ _ hcap | drop _ _ hcap => exact hcap ▸ h.bytes
  | opened _ _ hbs _ hcap =>
    intro m d hd
    rcases Table.insert_cases hcap hd with ⟨-, rfl⟩ | ⟨-, hd⟩
    · exact hbs
    · exact h.bytes m d hd
  | closed hc _ _ hcap => exact fun m d hd => h.bytes m d (Table.lookup_of_erase (hcap ▸ hd))
  | staged hc _ _ _ hcap | reserve hc _ _ _ hcap | enforce hc _ _ hcap
  | release hc _ _ hcap | publish hc _ _ _ _ hcap => exact hsg hc hcap

/-- STEP: a permit goes out with a new capture and comes back when the capture closes. -/
theorem Slotted.moves {o : Output} (h : Slotted cfg s) (hown : Owned s)
    (hmv : Moves crc cfg s lab t o) : Slotted cfg t := by
  suffices hpmt : t.captures.size = t.outstanding ∧ t.outstanding ≤ maxOutstandingCommits from
    ⟨hpmt.1, hpmt.2, h.bytes_shift hmv.shift⟩
  cases hmv with
  | plan _ hroom =>
    have hnew : s.next ∉ s.captures := by
      intro hmem
      obtain ⟨d, hd⟩ := Finmap.mem_iff.mp hmem
      exact lt_irrefl _ (hown.numbered _ d hd)
    exact ⟨(Table.size_insert _ hnew).trans (congrArg (· + 1) h.permits), hroom⟩
  | close hc =>
    have hsize := Table.size_erase hc
    have hout := h.permits
    have hle := h.limit
    dsimp only
    omega
  | stored hc | reserve hc | enforce hc | sweepCapture hc | sweptCapture hc | rollback hc
  | allocate hc | allocateFail hc | writeRegion hc | abandon hc | unprepared hc | commit hc
  | enqueue hc | bounce hc | receive hc | persist hc | persistUnsynced hc | persistFail hc
  | readBack hc | discard hc | cancelReservation hc | publish hc | promote hc =>
    exact ⟨(Table.size_replace _ hc).trans h.permits, h.limit⟩
  | readStep =>
    obtain ⟨new, heq, -⟩ := exists_advanceLoad s _ _ _ _
    rw [heq]
    exact ⟨h.permits, h.limit⟩
  | _ => exact ⟨h.permits, h.limit⟩

/-- With two captures at most, what a reservation adds up to is three times the capacity. -/
theorem Accounted.reservationFits (h : Accounted cfg s) (hsls : Slotted cfg s)
    (hsma : 3 * cfg.capacityBytes < u64Bound) (lab : Label) : ReservationFits s lab := by
  cases lab with
  | reserve n =>
    intro c hc hsg
    have hbs := hsls.bytes n c hc
    have hword := h.counters.fits
    rcases Nat.eq_zero_or_pos cfg.capacityBytes with hzero | hpos
    · omega
    · have hoth : s.pendingBytes ≤ 1 * cfg.capacityBytes := by
        have hself : c.pendingBytes = 0 := pendingBytes_of_not_pending (by rw [hsg]; rfl)
        have hsize := Table.size_erase hc
        have hslot : s.captures.size ≤ 2 := hsls.slots
        rw [Sys.pendingBytes, Table.total_erase (fun _ c => c.pendingBytes) hc, hself, Nat.zero_add]
        refine (Table.total_le_size_mul _ fun m d hd => ?_).trans
          (Nat.mul_le_mul_right _ (by omega : _ ≤ 1))
        rw [Table.lookup_erase_ite] at hd
        split_ifs at hd
        have hd' := hsls.bytes m d hd
        rw [Capture.pendingBytes]
        split_ifs
        · exact hd'
        · exact Nat.zero_le _
      have hgra := h.granted hpos
      omega
  | _ => trivial

/-- RUN: below a third of the word range every reservation fits. -/
theorem reservationFits_of_small (hrun : Run (step crc cfg) s₀ tr s) (h0 : Opened cfg s₀)
    (hsma : 3 * cfg.capacityBytes < u64Bound) : ∀ e ∈ tr, ReservationFits e.1 e.2.1 := by
  have hsls : Slotted cfg s₀ := .of_idle h0.captures h0.permits
  intro e he
  obtain ⟨⟨hs, hsls⟩, -⟩ := hrun.step_of (fun _ _ => True)
    (fun s => Accounted cfg s ∧ Slotted cfg s) ⟨h0.accounted, hsls⟩ (fun _ _ => trivial)
    (by
      rintro s lab t o ⟨hs, hsls⟩ - hst
      have hmv := step_moves hst
      exact ⟨hs.shift (hs.reservationFits hsls hsma lab) hmv.shift, hsls.moves hs.toOwned hmv⟩) e he
  exact hs.reservationFits hsls hsma e.2.1

/-! ### Exactness -/

/-- What the counters are to say in every state; the capacity bound when no `begin_capture` stands
    between its reservation and the grant or the rollback of it. -/
structure ByteAccounts (config : StoreConfig) (s : Sys) : Prop where
  committed : s.index.committedBytes = s.index.storedBytes
  reserved : s.index.reservedBytes = s.heldBytes
  hashes : ∀ hash, hash ∈ s.index.reservedHashes ↔ ∃ n, Holder s n hash
  underflow : s.index.underflowed = false
  within : 0 < config.capacityBytes →
    (∀ n c, s.captures.lookup n = some c → c.stage.standing.pending = false) →
    s.index.committedBytes + s.index.reservedBytes ≤ config.capacityBytes

theorem Accounted.byteAccounts (h : Accounted cfg s) : ByteAccounts cfg s where
  committed := h.counters.committed
  reserved := h.reserved
  hashes := h.hashes
  underflow := h.counters.underflow
  within hpos hqt := by
    have hzero : s.pendingBytes = 0 := by
      have hle : s.pendingBytes ≤ s.captures.size * 0 :=
        Table.total_le_size_mul _ fun n c hc =>
          (pendingBytes_of_not_pending (hqt n c hc)).le
      exact Nat.le_zero.mp (hle.trans_eq (Nat.mul_zero _))
    have hgra := h.granted hpos
    omega

/-- EXACT: along every run whose reservations fit a word the counters are exact, no subtraction goes
    below zero and the capacity holds outside pending reservations. Where no enforcement is left
    with more pinned and reserved bytes than the capacity, only the time between a reservation and
    its enforcement is outside the bound. -/
theorem byteAccounts_exact (hrun : Run (step crc cfg) s₀ tr s) (h0 : Accounted cfg s₀)
    (hfits : ∀ e ∈ tr, ReservationFits e.1 e.2.1) :
    ByteAccounts cfg s ∧
      (NoneFailed s₀ → (∀ e ∈ tr, EnforcementFits cfg e.1 e.2.1) → 0 < cfg.capacityBytes →
        (∀ n c, s.captures.lookup n = some c → c.stage ≠ .reserved) →
        s.index.committedBytes + s.index.reservedBytes ≤ cfg.capacityBytes) := by
  have hs := accounted_of_run hrun h0 hfits
  refine ⟨hs.byteAccounts, fun hno hroom hpos hqt => hs.byteAccounts.within hpos ?_⟩
  have hfai : Accounted cfg s ∧ NoneFailed s := by
    refine hrun.invariant_of (fun s lab => ReservationFits s lab ∧ EnforcementFits cfg s lab)
      (fun s => Accounted cfg s ∧ NoneFailed s) ⟨h0, hno⟩ (fun e he => ⟨hfits e he, hroom e he⟩) ?_
    rintro s lab t o ⟨ha, hn⟩ ⟨hfit, hroom⟩ hst
    have hshf := (step_moves hst).shift
    exact ⟨ha.shift hfit hshf, hn.shift ha hroom hshf⟩
  intro n c hc
  have hstd : c.stage.standing ≠ .reserved := by
    intro heq
    refine hqt n c hc ?_
    unfold CaptureStage.standing at heq
    split at heq <;> first | assumption | cases heq
  cases hcase : c.stage.standing with
  | before => rfl
  | reserved => exact absurd hcase hstd
  | failed => exact absurd hcase (hfai.2 n c hc)
  | held => rfl
  | done => rfl

end Runs

/-! ### Two runs -/

def zeroFingerprint : Fingerprint := ⟨replicate 32 0, rfl⟩

def oneRegion (byteCount : ℕ) : List RegionDescription := [⟨[97], byteCount⟩]

/-- A store with a capacity, records of any length, and no resident tier. -/
def storeOf (capacityBytes : ℕ) (h : capacityBytes < u64Bound) : StoreConfig :=
  ⟨capacityBytes, 0, 1, 0, h⟩

theorem opened_empty (cfg : StoreConfig) : Opened cfg {} := by
  refine ⟨nodup_nil, rfl, ⟨rfl, rfl⟩, rfl, by decide, fun _ => Nat.zero_le _, rfl, rfl⟩

def grant (n : ℕ) : List Label := [.reserve n, .enforce n, .sweepCapture n, .allocate n true]

/-- A capture is granted, committed and indexed beside a second one whose buffer fails. -/
theorem byteAccounts_exact_committed : ∃ tr s, Run (step (fun _ => 0) (storeOf 40000 (by decide)))
    {} tr s ∧ tr.length = 14 ∧ s.index.committedBytes = 12288 ∧ s.index.reservedBytes = 0 ∧
    ByteAccounts (storeOf 40000 (by decide)) s := by
  obtain ⟨tr, s, hrun, hlen, hcom, hrsv⟩ := Run.exists_of_exec
    (step (fun _ => 0) (storeOf 40000 (by decide))) {}
    ([.beginCapture zeroFingerprint [1] (oneRegion 5),
      .beginCapture zeroFingerprint [2] (oneRegion 5)] ++ grant 0 ++
    [.reserve 1, .enforce 1, .sweepCapture 1, .allocate 1 false, .rollback 1, .commit 0,
      .persist 0 .renamed, .publish 0 7])
    (fun tr s => tr.length = 14 ∧ s.index.committedBytes = 12288 ∧ s.index.reservedBytes = 0)
    (by decide +kernel)
  refine ⟨tr, s, hrun, hlen, hcom, hrsv, ?_⟩
  exact (byteAccounts_exact hrun (opened_empty _).accounted
    (reservationFits_of_small hrun (opened_empty _) (by decide))).1

/-- Two captures of half the word range reserve before either is compared with the capacity: the
    counter wraps to a few pages, both are granted, and giving the first back goes below zero. A
    capture refused for want of room keeps the sum over the capacity until it is rolled back, with
    no `begin_capture` between its reservation and its enforcement. -/
theorem reservations_wrap :
    (∃ tr s, Run (step (fun _ => 0) (storeOf (2 ^ 64 - 1) (by decide))) {} tr s ∧
      s.index.reservedBytes = 16384 ∧ s.heldBytes = 2 ^ 64 + 16384) ∧
    (∃ tr s, Run (step (fun _ => 0) (storeOf (2 ^ 64 - 1) (by decide))) {} tr s ∧
      s.index.underflowed = true) ∧
    ∃ tr s, Run (step (fun _ => 0) (storeOf 20000 (by decide))) {} tr s ∧
      (s.captures.lookup 2).map (·.stage) = some (.refused .insufficientCapacity) ∧
      s.captures.keys = {2} ∧ 20000 < s.index.committedBytes + s.index.reservedBytes := by
  refine ⟨?_, ?_, ?_⟩
  · exact Run.exists_of_exec (step (fun _ => 0) (storeOf (2 ^ 64 - 1) (by decide))) {}
      [.beginCapture zeroFingerprint [1] (oneRegion (2 ^ 63)),
        .beginCapture zeroFingerprint [2] (oneRegion (2 ^ 63)), .reserve 0, .reserve 1]
      (fun _ s => s.index.reservedBytes = 16384 ∧ s.heldBytes = 2 ^ 64 + 16384)
      (by decide +kernel)
  · exact Run.exists_of_exec (step (fun _ => 0) (storeOf (2 ^ 64 - 1) (by decide))) {}
      [.beginCapture zeroFingerprint [1] (oneRegion (2 ^ 63)),
        .beginCapture zeroFingerprint [2] (oneRegion (2 ^ 63)), .reserve 0, .reserve 1, .enforce 0,
        .sweepCapture 0, .allocate 0 false, .rollback 0]
      (fun _ s => s.index.underflowed = true) (by decide +kernel)
  · exact Run.exists_of_exec (step (fun _ => 0) (storeOf 20000 (by decide))) {}
      ([.beginCapture zeroFingerprint [1] (oneRegion 5)] ++ grant 0 ++
      [.commit 0, .persist 0 .renamed, .publish 0 7, .promote 0, .close 0,
        .lookup zeroFingerprint [1] 1 8, .beginCapture zeroFingerprint [2] (oneRegion 5),
        .reserve 2, .enforce 2, .sweepCapture 2])
      (fun _ s => (s.captures.lookup 2).map (·.stage) = some (.refused .insufficientCapacity) ∧
        s.captures.keys = {2} ∧ 20000 < s.index.committedBytes + s.index.reservedBytes)
      (by decide +kernel)

end LetsInfer.PrefixStore
