import LetsInfer.Watchdog.Record
import LetsInfer.Schemes.Rings
import LetsInfer.Schemes.Volume
import LetsInfer.Schemes.Checks

/-! @src core/watchdog/src/li_watchdog_ring.rs | name:Sample rings | scheme:ring

    A ring file has one record slot for each of its buckets, modulo its capacity, and a sample is
    written to the slot of its bucket. A slot that is not decoded, or that has a sample of another
    lap, reads as a gap. What a ring retains is the last sample written to each slot. -/

namespace LetsInfer.Watchdog
open Schemes List

structure RingLayout where
  intervalMilliseconds : ℕ
  capacity : ℕ
  deriving DecidableEq

def RingLayout.new (intervalMilliseconds capacity : ℕ) : Except WatchdogError RingLayout :=
  if intervalMilliseconds = 0 ∨ capacity = 0 ∨ 2 ^ 63 ≤ capacity * watchdogRecordBytes then
    .error (.invalidContract "Watchdog ring layout is invalid or too large")
  else .ok ⟨intervalMilliseconds, capacity⟩

def RingLayout.byteLength (layout : RingLayout) : ℕ := layout.capacity * watchdogRecordBytes

structure RingHistory where
  samples : List Sample
  missingBuckets : List ℕ
  deriving DecidableEq

structure Ring where
  layout : RingLayout
  file : List UInt8
  deriving DecidableEq

variable {ring : Ring} {xs : List Sample} {smp : Sample} {slot : ℕ}

namespace Ring

def withFile (layout : RingLayout) (file : List UInt8) : Except WatchdogError Ring := do
  if layout.byteLength < file.length then
    throw (storageIoError "ring file exceeds its closed capacity")
  return ⟨layout, file ++ replicate (layout.byteLength - file.length) 0⟩

def bucketOffset (ring : Ring) (bucket : ℕ) : Except WatchdogError ℕ :=
  if u64Bound ≤ bucket % ring.layout.capacity * watchdogRecordBytes then
    .error (.invalidContract "Watchdog ring offset overflowed")
  else .ok (bucket % ring.layout.capacity * watchdogRecordBytes)

def bucket (ring : Ring) (sample : Sample) : ℕ :=
  sample.unixMilliseconds.toNat / ring.layout.intervalMilliseconds

def write (ring : Ring) (sample : Sample) : Except WatchdogError Ring := do
  let record ← encodeWatchdogRecord sample
  let offset ← ring.bucketOffset (ring.bucket sample)
  return { ring with file := splice ring.file offset record }

/-- The bytes of one record; what is past the end of the file reads as zero. -/
def readRecord (ring : Ring) (offset : ℕ) : List UInt8 :=
  ((ring.file.drop offset).take watchdogRecordBytes).rightpad watchdogRecordBytes 0

def readBucket (ring : Ring) (bucket : ℕ) : Except WatchdogError (Option Sample) := do
  let offset ← ring.bucketOffset bucket
  match decodeWatchdogRecord (ring.readRecord offset) with
  | .ok sample => return if ring.bucket sample = bucket then some sample else none
  | .error _ => return none

/-- The loop of a query over its buckets; it stops at the maximum number of samples. -/
def queryBuckets (ring : Ring) (start stop maximum : ℕ) :
    List ℕ → RingHistory → Except WatchdogError RingHistory
  | [], history => .ok history
  | bucket :: buckets, history => do
    match ← ring.readBucket bucket with
    | some sample =>
      if start ≤ sample.unixMilliseconds.toNat ∧ sample.unixMilliseconds.toNat ≤ stop then
        let history := { history with samples := history.samples ++ [sample] }
        if history.samples.length = maximum then return history
        else ring.queryBuckets start stop maximum buckets history
      else
        ring.queryBuckets start stop maximum buckets
          { history with missingBuckets := history.missingBuckets ++ [bucket] }
    | none =>
      ring.queryBuckets start stop maximum buckets
        { history with missingBuckets := history.missingBuckets ++ [bucket] }

def query (ring : Ring) (start stop maximum : ℕ) : Except WatchdogError RingHistory := do
  if stop < start ∨ maximum = 0 ∨ ring.layout.capacity < maximum then
    throw (.invalidContract "Watchdog ring query range or limit is invalid")
  let first := start / ring.layout.intervalMilliseconds
  let final := stop / ring.layout.intervalMilliseconds
  if u64Bound ≤ final - first + 1 then
    throw (.invalidContract "Watchdog ring query range or limit is invalid")
  if ring.layout.capacity < final - first + 1 then
    throw (.invalidContract "Watchdog ring query exceeds retained history")
  ring.queryBuckets start stop maximum (List.range' first (final - first + 1)) ⟨[], []⟩

/-- The record of a slot if it is valid and in its slot. -/
def at? (ring : Ring) (slot : ℕ) : Option Sample :=
  match decodeWatchdogRecord (ring.readRecord (slot * watchdogRecordBytes)) with
  | .ok candidate => if ring.bucket candidate % ring.layout.capacity = slot then some candidate else none
  | .error _ => none

def validRecords (ring : Ring) : List Sample := (List.range ring.layout.capacity).filterMap ring.at?

/-- The valid record with the greatest sequence number. -/
def latest (ring : Ring) : Option Sample :=
  ring.validRecords.foldl (fun latest candidate =>
    if latest.all fun current => current.sequence < candidate.sequence then some candidate
    else latest) none

def findSequence (ring : Ring) (sequence : UInt64) : Option Sample :=
  ring.validRecords.find? fun candidate => candidate.sequence = sequence

/-! ### What a ring retains -/

section Retention

/-- A ring over a file of its full extent. -/
structure Valid (ring : Ring) : Prop where
  interval : 0 < ring.layout.intervalMilliseconds
  capacity : 0 < ring.layout.capacity
  bytes : ring.layout.capacity * watchdogRecordBytes < 2 ^ 63
  length_eq : ring.file.length = ring.layout.byteLength

section

variable (h : ring.Valid)
include h

theorem Valid.fits (hslot : slot < ring.layout.capacity) :
    slot * watchdogRecordBytes + watchdogRecordBytes ≤ ring.file.length := by
  rw [h.length_eq, RingLayout.byteLength, ← Nat.succ_mul]
  exact Nat.mul_le_mul_right _ hslot

theorem Valid.readRecord (hslot : slot < ring.layout.capacity) :
    ring.readRecord (slot * watchdogRecordBytes) = block watchdogRecordBytes ring.file slot := by
  have hfull := length_block (h.fits hslot)
  rw [Ring.readRecord, ← block, List.rightpad, hfull, Nat.sub_self, replicate_zero, append_nil]

theorem Valid.bucketOffset (b : ℕ) :
    ring.bucketOffset b = .ok (b % ring.layout.capacity * watchdogRecordBytes) := by
  have hlt := Nat.mod_lt b h.capacity
  have hle := h.fits hlt
  have hbs := h.bytes
  rw [h.length_eq, RingLayout.byteLength] at hle
  rw [Ring.bucketOffset, if_neg]
  have hbd : u64Bound = 2 ^ 64 := rfl
  omega

/-- A write replaces the record of one slot. -/
theorem Valid.write (smp : Sample) :
    ∃ file, ring.write smp = .ok { ring with file } ∧ ({ ring with file } : Ring).Valid ∧
      ∀ slot < ring.layout.capacity, ({ ring with file } : Ring).at? slot =
        if slot = ring.bucket smp % ring.layout.capacity then some smp else ring.at? slot := by
  obtain ⟨r, henc, hlen⟩ := encodeWatchdogRecord_ok smp
  have hslot := Nat.mod_lt (ring.bucket smp) h.capacity
  have hfits := h.fits hslot
  let file :=
    splice ring.file (ring.bucket smp % ring.layout.capacity * watchdogRecordBytes) r
  have hval : ({ ring with file } : Ring).Valid :=
    ⟨h.interval, h.capacity, h.bytes, by
      rw [← h.length_eq]
      exact length_splice (by rw [hlen]; exact hfits)⟩
  refine ⟨file, ?_, hval, fun slot hlt => ?_⟩
  · rw [Ring.write, henc, ok_bind, h.bucketOffset, ok_bind]
    rfl
  · unfold Ring.at?
    rw [hval.readRecord hlt]
    split_ifs with heq
    · rw [heq, block_splice_self hfits hlen.le, hlen, drop_eq_nil_of_le (by
        rw [length_block hfits]), append_nil, decodeWatchdogRecord_encode henc]
      exact if_pos rfl
    · rw [block_splice_ne hfits hlen.le heq, ← h.readRecord hlt]
      rfl

theorem Valid.readBucket (b : ℕ) :
    ring.readBucket b = .ok ((ring.at? (b % ring.layout.capacity)).filter
      fun smp => ring.bucket smp = b) := by
  rw [Ring.readBucket, h.bucketOffset, ok_bind, at?]
  cases decodeWatchdogRecord (ring.readRecord (b % ring.layout.capacity * watchdogRecordBytes)) with
  | error e => rfl
  | ok smp =>
    dsimp only
    by_cases hbkt : ring.bucket smp = b
    · rw [if_pos hbkt, if_pos (by rw [hbkt])]
      simp [Option.filter, hbkt]
    · rw [if_neg hbkt]
      split_ifs
      · simp [Option.filter, hbkt]
      · rfl

end

/-- Each slot has the last of the samples written to it. -/
def Retains (ring : Ring) (samples : List Sample) : Prop :=
  ∀ slot < ring.layout.capacity, ring.at? slot =
    (samples.filter fun sample => ring.bucket sample % ring.layout.capacity = slot).getLast?

theorem Retains.write (h : ring.Retains xs) {file : List UInt8}
    (hat : ∀ slot < ring.layout.capacity, ({ ring with file } : Ring).at? slot =
      if slot = ring.bucket smp % ring.layout.capacity then some smp else ring.at? slot) :
    ({ ring with file } : Ring).Retains (xs ++ [smp]) := by
  intro slot hslot
  have hbkt : ∀ other, ({ ring with file } : Ring).bucket other = ring.bucket other :=
    fun _ => rfl
  simp only [hbkt]
  rw [hat slot hslot, filter_append]
  by_cases heq : slot = ring.bucket smp % ring.layout.capacity
  · rw [if_pos heq, filter_singleton, decide_eq_true heq.symm]
    simp
  · rw [if_neg heq, filter_singleton, decide_eq_false (Ne.symm heq), h slot hslot]
    simp

theorem Retains.mem (h : ring.Retains xs) (hslot : slot < ring.layout.capacity)
    (hat : ring.at? slot = some smp) :
    smp ∈ xs ∧ ring.bucket smp % ring.layout.capacity = slot := by
  rw [h slot hslot] at hat
  simpa using mem_filter.mp (mem_of_getLast? hat)

theorem Retains.validRecords (h : ring.Retains xs) (hmem : smp ∈ ring.validRecords) : smp ∈ xs := by
  obtain ⟨slot, hslot, hat⟩ := mem_filterMap.mp hmem
  exact (h.mem (mem_range.mp hslot) hat).1

theorem Retains.last (h : ring.Retains (xs ++ [smp])) (hval : ring.Valid) :
    smp ∈ ring.validRecords := by
  have hslot := Nat.mod_lt (ring.bucket smp) hval.capacity
  refine mem_filterMap.mpr ⟨_, mem_range.mpr hslot, ?_⟩
  rw [h _ hslot, filter_append]
  simp

theorem foldl_latest {rs : List Sample} {newest : Sample} :
    ∀ {cur : Option Sample}, (∀ a ∈ rs, a = newest ∨ a.sequence < newest.sequence) →
      (∀ a, cur = some a → a = newest ∨ a.sequence < newest.sequence) →
      newest ∈ rs ∨ cur = some newest →
      rs.foldl (fun latest cand =>
        if latest.all fun cur => cur.sequence < cand.sequence then some cand
        else latest) cur = some newest := by
  induction rs with
  | nil =>
    intro cur _ _ hin
    exact hin.resolve_left (by simp)
  | cons r rs ih =>
    intro cur hall hcur hin
    rw [foldl_cons]
    have hrest : ∀ a ∈ rs, a = newest ∨ a.sequence < newest.sequence :=
      fun a ha => hall a (mem_cons_of_mem _ ha)
    split_ifs with htake
    · refine ih hrest (fun a ha => Option.some.inj ha ▸ hall r mem_cons_self) ?_
      rcases hin with hin | rfl
      · rcases mem_cons.mp hin with rfl | hin
        · exact .inr rfl
        · exact .inl hin
      · -- the newest is never replaced by another one
        have hlt : newest.sequence < r.sequence := by simpa using htake
        rcases hall r mem_cons_self with rfl | hgt
        · exact .inr rfl
        · exact absurd hlt (UInt64.lt_asymm hgt)
    · refine ih hrest hcur ?_
      rcases hin with hin | hin
      · rcases mem_cons.mp hin with rfl | hin
        · right
          cases cur with
          | none => exact absurd rfl htake
          | some a =>
            rcases hcur a rfl with rfl | hlt
            · rfl
            · exact absurd (by simpa using hlt) htake
        · exact .inl hin
      · exact .inr hin

theorem Retains.latest (h : ring.Retains (xs ++ [smp])) (hval : ring.Valid)
    (hnew : ∀ a ∈ xs, a.sequence < smp.sequence) : ring.latest = some smp := by
  refine foldl_latest (fun a ha => ?_) (fun a ha => by cases ha) (.inl (h.last hval))
  rcases mem_append.mp (h.validRecords ha) with hmem | hmem
  · exact .inr (hnew a hmem)
  · exact .inl (mem_singleton.mp hmem)

theorem Retains.latest_nil (h : ring.Retains []) : ring.latest = none := by
  have hno : ring.validRecords = [] := eq_nil_iff_forall_not_mem.mpr fun a ha =>
    absurd (h.validRecords ha) not_mem_nil
  rw [Ring.latest, hno]
  rfl

theorem withFile_nil (lay : RingLayout) (hitv : 0 < lay.intervalMilliseconds)
    (hcap : 0 < lay.capacity) (hbs : lay.capacity * watchdogRecordBytes < 2 ^ 63) :
    ∃ ring, withFile lay [] = .ok ring ∧ ring.layout = lay ∧ ring.Valid ∧ ring.Retains [] := by
  have hval : (⟨lay, replicate lay.byteLength 0⟩ : Ring).Valid :=
    ⟨hitv, hcap, hbs, length_replicate⟩
  refine ⟨_, rfl, rfl, hval, fun slot hslot => ?_⟩
  have hfits := hval.fits hslot
  have hlen : (replicate lay.byteLength (0 : UInt8)).length = lay.byteLength :=
    length_replicate
  change (⟨lay, replicate lay.byteLength 0⟩ : Ring).at? slot = none
  rw [at?, hval.readRecord hslot, block]
  simp only [drop_replicate, take_replicate]
  rw [Nat.min_eq_left (by simp only [hlen] at hfits; omega), decodeWatchdogRecord_zero]

theorem Valid.withFile (h : ring.Valid) : Ring.withFile ring.layout ring.file = .ok ring := by
  rw [Ring.withFile, if_neg (by rw [h.length_eq]; exact lt_irrefl _), h.length_eq, Nat.sub_self,
    replicate_zero, append_nil]
  rfl

end Retention

/-! ### Queries -/

section Queries

variable {start stop mx : ℕ}

/-- What one bucket of a query finds. -/
def found (ring : Ring) (start stop bucket : ℕ) : Option Sample :=
  (ring.at? (bucket % ring.layout.capacity)).filter fun sample =>
    ring.bucket sample = bucket ∧ start ≤ sample.unixMilliseconds.toNat ∧
      sample.unixMilliseconds.toNat ≤ stop

/-- RUN: the loop of a query finds what its buckets have, in order. -/
theorem Valid.queryBuckets (h : ring.Valid) (buckets : List ℕ) :
    ∀ hist : RingHistory,
      hist.samples.length + (buckets.filterMap (ring.found start stop)).length ≤ mx →
      ∃ missing, ring.queryBuckets start stop mx buckets hist =
        .ok ⟨hist.samples ++ buckets.filterMap (ring.found start stop), missing⟩ := by
  induction buckets with
  | nil =>
    intro hist _
    exact ⟨hist.missingBuckets, by simp [Ring.queryBuckets]⟩
  | cons b buckets ih =>
    intro hist hroom
    rw [Ring.queryBuckets, h.readBucket, ok_bind]
    have hskip : ring.found start stop b = none →
        ∃ missing, ring.queryBuckets start stop mx buckets
          { hist with missingBuckets := hist.missingBuckets ++ [b] } =
          .ok ⟨hist.samples ++ (b :: buckets).filterMap (ring.found start stop), missing⟩ := by
      intro hno
      rw [filterMap_cons_none hno] at hroom ⊢
      exact ih _ hroom
    cases hat : ring.at? (b % ring.layout.capacity) with
    | none => exact hskip (by simp [found, hat])
    | some smp =>
      by_cases hbkt : ring.bucket smp = b
      · simp only [Option.filter, hbkt, decide_true, if_true]
        split_ifs with htime hfull
        · have hsome : ring.found start stop b = some smp := by
            simp [found, hat, Option.filter, hbkt, htime]
          rw [filterMap_cons_some hsome] at hroom ⊢
          -- the limit is reached only with the last sample there is
          have hnil : buckets.filterMap (ring.found start stop) = [] := by
            rw [length_append, length_singleton] at hfull
            rw [length_cons] at hroom
            exact length_eq_zero_iff.mp (by omega)
          exact ⟨hist.missingBuckets, by rw [hnil]; rfl⟩
        · have hsome : ring.found start stop b = some smp := by
            simp [found, hat, Option.filter, hbkt, htime]
          rw [filterMap_cons_some hsome] at hroom ⊢
          obtain ⟨missing, hrest⟩ := ih ⟨hist.samples ++ [smp], hist.missingBuckets⟩ (by
            rw [length_append, length_singleton]
            rw [length_cons] at hroom
            omega)
          exact ⟨missing, by rw [hrest, append_assoc]; rfl⟩
        · exact hskip (by simp [found, hat, Option.filter, hbkt, htime])
      · simp only [Option.filter, hbkt, decide_false, Bool.false_eq_true, if_false]
        exact hskip (by simp [found, hat, Option.filter, hbkt])

theorem Retains.found (h : ring.Retains (xs ++ [smp])) (hval : ring.Valid)
    (hbuc : (xs ++ [smp]).Pairwise fun a b => ring.bucket a < ring.bucket b) {bkt : ℕ}
    (hlap : ring.bucket smp < bkt + ring.layout.capacity) {a : Sample} (ha : a ∈ xs ++ [smp])
    (hbkt : ring.bucket a = bkt) : ring.at? (bkt % ring.layout.capacity) = some a := by
  have hslot := Nat.mod_lt bkt hval.capacity
  rw [h _ hslot]
  obtain ⟨before, after, heq⟩ := append_of_mem ha
  rw [heq, filter_append, filter_cons_of_pos (by simp [hbkt])]
  -- a later sample in the same slot would be a whole lap later
  have hno : after.filter (fun b => ring.bucket b % ring.layout.capacity =
      bkt % ring.layout.capacity) = [] := by
    refine filter_eq_nil_iff.mpr fun b hb hmod => ?_
    rw [heq] at hbuc
    have hlt := (pairwise_cons.mp (pairwise_append.mp hbuc).2.1).1 b hb
    have hle : ring.bucket b ≤ ring.bucket smp := by
      have hmem : b ∈ xs ++ [smp] := by rw [heq]; simp [hb]
      rcases mem_append.mp hmem with hin | hin
      · rw [← heq] at hbuc
        exact ((pairwise_append.mp hbuc).2.2 b hin smp (by simp)).le
      · rw [mem_singleton.mp hin]
    have := eq_of_mod_eq (of_decide_eq_true hmod).symm (by omega) (by omega)
    omega
  rw [hno]
  simp

/-- RUN: a query of the last lap up to the newest sample returns the samples from its first bucket
    on, in order. -/
theorem Retains.query (h : ring.Retains (xs ++ [smp])) (hval : ring.Valid)
    (hbuc : (xs ++ [smp]).Pairwise fun a b => ring.bucket a < ring.bucket b) (first : ℕ)
    (hfst : first ≤ ring.bucket smp) (hlap : ring.bucket smp < first + ring.layout.capacity) :
    ∃ missing, ring.query (first * ring.layout.intervalMilliseconds)
      smp.unixMilliseconds.toNat ring.layout.capacity =
      .ok ⟨(xs ++ [smp]).filter fun a => first ≤ ring.bucket a, missing⟩ := by
  have hitv := hval.interval
  have hbkt : smp.unixMilliseconds.toNat / ring.layout.intervalMilliseconds = ring.bucket smp := rfl
  have hstr : first * ring.layout.intervalMilliseconds ≤ smp.unixMilliseconds.toNat :=
    (Nat.mul_le_mul_right _ hfst).trans (Nat.div_mul_le_self _ _)
  have hlast : ∀ a ∈ xs ++ [smp], ring.bucket a ≤ ring.bucket smp := by
    intro a ha
    rcases mem_append.mp ha with hin | hin
    · exact ((pairwise_append.mp hbuc).2.2 a hin smp (by simp)).le
    · rw [mem_singleton.mp hin]
  -- a sample of an earlier bucket is earlier
  have hstop : ∀ a ∈ xs ++ [smp], a.unixMilliseconds.toNat ≤ smp.unixMilliseconds.toNat := by
    intro a ha
    rcases mem_append.mp ha with hin | hin
    · have hlt := (pairwise_append.mp hbuc).2.2 a hin smp (by simp)
      exact (lt_of_not_ge fun hge => absurd (Nat.div_le_div_right hge) (not_le.mpr hlt)).le
    · rw [mem_singleton.mp hin]
  have hfd : ∀ i, first ≤ i → i < first + (ring.bucket smp - first + 1) → ∀ a,
      ring.found (first * ring.layout.intervalMilliseconds) smp.unixMilliseconds.toNat i =
        some a ↔ a ∈ xs ++ [smp] ∧ ring.bucket a = i := by
    intro i hlow hhigh a
    rw [Ring.found, Option.filter_eq_some_iff]
    constructor
    · rintro ⟨hat, hcond⟩
      exact ⟨(h.mem (Nat.mod_lt i hval.capacity) hat).1, (of_decide_eq_true hcond).1⟩
    · rintro ⟨hmem, rfl⟩
      refine ⟨h.found hval hbuc (by omega) hmem rfl, decide_eq_true ⟨rfl, ?_, hstop a hmem⟩⟩
      exact (Nat.mul_le_mul_right _ hlow).trans (Nat.div_mul_le_self _ _)
  have hcol := filterMap_range'_eq hbuc hfd fun a ha _ => by
    have := hlast a ha
    omega
  have hroom : ([] : List Sample).length +
      ((List.range' first (ring.bucket smp - first + 1)).filterMap
        (ring.found (first * ring.layout.intervalMilliseconds)
          smp.unixMilliseconds.toNat)).length ≤ ring.layout.capacity := by
    rw [length_nil, Nat.zero_add]
    refine (length_filterMap_le _ _).trans ?_
    rw [length_range']
    omega
  have hsma : ring.layout.capacity < 2 ^ 63 :=
    (Nat.le_mul_of_pos_right _ (by decide)).trans_lt hval.bytes
  have hbd : u64Bound = 2 ^ 64 := rfl
  obtain ⟨missing, hloop⟩ := hval.queryBuckets _ ⟨[], []⟩ hroom
  refine ⟨missing, ?_⟩
  rw [Ring.query, if_neg]
  swap
  · rintro (hbad | hbad | hbad)
    · exact absurd hbad (not_lt.mpr hstr)
    · exact absurd hbad hval.capacity.ne'
    · exact absurd hbad (lt_irrefl _)
  rw [Nat.mul_div_cancel _ hitv, hbkt, if_neg (by omega), if_neg (by omega), hloop, hcol]
  rfl

end Queries

end Ring

/-! ### Histories -/

/-- Samples written one after the other to a new ring. -/
def Ring.written (layout : RingLayout) (samples : List Sample) : Except WatchdogError Ring := do
  samples.foldlM Ring.write (← Ring.withFile layout [])

/-- What a bucket has after these writes: the last sample of its slot, if it is of this lap. -/
def RingLayout.lastIn (layout : RingLayout) (samples : List Sample) (bucket : ℕ) : Option Sample :=
  let lap (sample : Sample) : ℕ := sample.unixMilliseconds.toNat / layout.intervalMilliseconds
  (samples.filter fun sample => lap sample % layout.capacity = bucket % layout.capacity).getLast?.filter
    fun sample => lap sample = bucket

/-- RUN: a ring retains what was written to it. -/
theorem Ring.retains_of_written {interval capacity : ℕ} {lay : RingLayout}
    (hlay : RingLayout.new interval capacity = .ok lay) (xs : List Sample) :
    ∃ ring, Ring.written lay xs = .ok ring ∧ ring.layout = lay ∧ ring.Valid ∧ ring.Retains xs := by
  unfold RingLayout.new at hlay
  split_ifs at hlay with hbad
  cases hlay
  simp only [not_or, not_le] at hbad
  obtain ⟨ring₀, hopen, hlay, hval, hret⟩ := Ring.withFile_nil ⟨interval, capacity⟩
    (Nat.pos_of_ne_zero hbad.1) (Nat.pos_of_ne_zero hbad.2.1) hbad.2.2
  rw [Ring.written, hopen, ok_bind]
  induction xs using reverseRecOn with
  | nil => exact ⟨ring₀, rfl, hlay, hval, hret⟩
  | append_singleton xs smp ih =>
    obtain ⟨ring, hrun, hlay', hval', hret'⟩ := ih
    obtain ⟨file, hwr, hval'', hat⟩ := hval'.write smp
    refine ⟨{ ring with file }, ?_, hlay', hval'', hret'.write hat⟩
    rw [foldlM_append, hrun, ok_bind, foldlM_cons, hwr]
    rfl

/-- The history of a ring is exact, whatever is written to it: every bucket reads as the last sample
    written to it unless a later one took its slot, the file opens as the same ring, and a query in
    range that is not cut short answers with what its buckets have of the time asked for, in order. -/
theorem ring_history_exact {interval capacity : ℕ} {layout : RingLayout}
    (hlay : RingLayout.new interval capacity = .ok layout) (samples : List Sample) :
    ∃ ring, Ring.written layout samples = .ok ring ∧ Ring.withFile layout ring.file = .ok ring ∧
      (∀ bucket, ring.readBucket bucket = .ok (layout.lastIn samples bucket)) ∧
      ∀ start stop maximum, start ≤ stop → 0 < maximum → maximum ≤ layout.capacity →
        let first := start / layout.intervalMilliseconds
        let count := stop / layout.intervalMilliseconds - first + 1
        let found := (List.range' first count).filterMap fun bucket =>
          (layout.lastIn samples bucket).filter fun sample =>
            start ≤ sample.unixMilliseconds.toNat ∧ sample.unixMilliseconds.toNat ≤ stop
        count ≤ layout.capacity → found.length ≤ maximum →
          ∃ missing, ring.query start stop maximum = .ok ⟨found, missing⟩ := by
  obtain ⟨ring, hrun, rfl, hval, hret⟩ := Ring.retains_of_written hlay samples
  have hlast : ∀ bucket, (ring.at? (bucket % ring.layout.capacity)).filter
      (fun sample => ring.bucket sample = bucket) = ring.layout.lastIn samples bucket := by
    intro bucket
    rw [hret _ (Nat.mod_lt _ hval.capacity)]
    rfl
  refine ⟨ring, hrun, hval.withFile, fun bucket => by rw [hval.readBucket, hlast], ?_⟩
  intro start stop maximum hle hpos hmax first count found hcount hroom
  have hfound : (List.range' first count).filterMap (ring.found start stop) = found := by
    refine filterMap_congr fun bucket _ => ?_
    rw [← hlast, Ring.found, Option.filter_filter]
    congr 1
    funext sample
    simp [Bool.and_comm]
  rw [← hfound, ← Nat.zero_add (List.length _)] at hroom
  obtain ⟨missing, hquery⟩ := hval.queryBuckets (List.range' first count) ⟨[], []⟩ hroom
  have hbytes : ring.layout.capacity * 284 < 2 ^ 63 := hval.bytes
  have hword : u64Bound = 2 ^ 64 := rfl
  refine ⟨missing, ?_⟩
  rw [Ring.query, if_neg (by omega), if_neg (by omega), if_neg (not_lt.mpr hcount), ← hfound]
  exact hquery

/-- A ring of one bucket: the second sample takes the slot of the first. -/
theorem ring_history_exact_one_bucket : ∃ ring, Ring.written ⟨1000, 1⟩
    [⟨1, 1000, 1, {}, unknownTelemetry_cores_le⟩, ⟨2, 2000, 2, {}, unknownTelemetry_cores_le⟩] =
      .ok ring ∧ ring.readBucket 1 = .ok none := by
  obtain ⟨ring, hrun, -, hread, -⟩ := ring_history_exact (rfl : RingLayout.new 1000 1 = _) _
  exact ⟨ring, hrun, hread 1⟩

end LetsInfer.Watchdog
