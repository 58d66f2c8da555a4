import LetsInfer.Watchdog.Storage
import LetsInfer.Watchdog.EventCrash

/-! @src core/watchdog/src/li_watchdog_storage.rs | name:Restart of the sample storage | scheme:refinement

    Runs of the storage that record samples of increasing seconds, may be interrupted before any of
    the writes of a sample and are reopened at any point. What the storage is for is said by the list
    of the samples it accepted: the raw ring retains the newest of them, and the rollups are the
    averages of the minute and the quarter hour that are going on. A reopened storage stands where
    one that was never interrupted stands after the same samples. -/

namespace LetsInfer.Watchdog
open Schemes List

structure SampleSys where
  storage : Storage
  accepted : List Sample
  deriving DecidableEq

inductive SampleLabel where
  | record (sample : Sample) (fault : Option SampleFault)
  | reopen
  deriving DecidableEq

inductive SampleOutput where
  | recorded (result : Except WatchdogError Unit)
  | opened
  | failed (error : WatchdogError)
  deriving DecidableEq

def Storage.create (layout : StorageLayout) : Except WatchdogError Storage :=
  Storage.open layout [] [] [] (Volume.ofBytes [])

namespace SampleSys

def create (layout : StorageLayout) : Except WatchdogError SampleSys := do
  let storage ← Storage.create layout
  return ⟨storage, []⟩

def second (sample : Sample) : ℕ := Rollup.bucketOf watchdogRawIntervalMilliseconds sample

def step (s : SampleSys) : SampleLabel → Option (SampleSys × SampleOutput)
  | .record sample fault =>
    let (storage, result) := s.storage.recordSample sample fault
    let isNext := decide (sample.sequence.toNat = s.storage.acceptedNextSequence)
    some (⟨storage, if isNext && result.isOk then s.accepted ++ [sample] else s.accepted⟩,
      .recorded result)
  | .reopen =>
    match s.storage.reopen with
    | .ok storage => some ({ s with storage }, .opened)
    | .error error => some (s, .failed error)

/-- The next sample is of a later second than the latest, and a raw slot is written or it is not. -/
def Steady (s : SampleSys) : SampleLabel → Prop
  | .record sample fault =>
    (sample.sequence.toNat = s.storage.acceptedNextSequence →
      ∀ latest ∈ s.storage.latestSample, second latest < second sample) ∧
    (∀ count error, fault = some ⟨.write .raw count, error⟩ → count.val = 0)
  | .reopen => True

end SampleSys

/-- A storage that records samples and is never interrupted. -/
def uninterrupted (layout : StorageLayout) (samples : List Sample) : Except WatchdogError Storage := do
  let storage ← Storage.create layout
  samples.foldlM (fun storage sample =>
    match storage.recordSample sample none with
    | (storage, .ok ()) => .ok storage
    | (_, .error error) => .error error) storage

variable {smp : Sample} {iv rawCapacity minuteCapacity quarterCapacity : ℕ}
  {acc : List Sample} {s₀ : SampleSys}

/-! ### Samples of increasing seconds -/

section Seconds

variable {xs : List Sample} {m : ℕ}

theorem bucketOf_mul (m : ℕ) (smp : Sample) :
    Rollup.bucketOf (watchdogRawIntervalMilliseconds * m) smp = SampleSys.second smp / m :=
  (Nat.div_div_eq_div_mul _ _ _).symm

theorem paced_of_seconds (hm : 0 < m) (hsma : m < 2 ^ 32)
    (h : xs.Pairwise fun a b => SampleSys.second a < SampleSys.second b) :
    Rollup.Paced (watchdogRawIntervalMilliseconds * m) xs := by
  refine ⟨h.imp fun {a b} hlt => ?_, fun bkt => ?_⟩
  · rw [bucketOf_mul, bucketOf_mul]
    exact Nat.div_le_div_right hlt.le
  · refine lt_of_le_of_lt ?_ hsma
    have hnd : ((Rollup.inBucket (watchdogRawIntervalMilliseconds * m) bkt xs).map
        SampleSys.second).Nodup :=
      pairwise_map.mpr ((h.sublist filter_sublist).imp fun hlt => hlt.ne)
    have hsub : ((Rollup.inBucket (watchdogRawIntervalMilliseconds * m) bkt xs).map
        SampleSys.second).toFinset ⊆ Finset.Ico (bkt * m) (bkt * m + m) := by
      intro second hsnd
      obtain ⟨a, ha, rfl⟩ := mem_map.mp (mem_toFinset.mp hsnd)
      have hbkt := of_decide_eq_true (mem_filter.mp ha).2
      rw [bucketOf_mul] at hbkt
      have hdec := Nat.div_add_mod (SampleSys.second a) m
      have hlt := Nat.mod_lt (SampleSys.second a) hm
      rw [hbkt, Nat.mul_comm] at hdec
      exact Finset.mem_Ico.mpr ⟨by omega, by omega⟩
    have hcard := Finset.card_le_card hsub
    rw [toFinset_card_of_nodup hnd, length_map, Nat.card_Ico] at hcard
    omega

theorem foldlM_pushRetained (h : Rollup.Paced iv xs) {b : ℕ}
    (hall : ∀ a ∈ xs, Rollup.bucketOf iv a = b) :
    xs.foldlM pushRetained (Rollup.empty iv) = .ok (Rollup.pushed iv xs) := by
  induction xs using reverseRecOn with
  | nil => rfl
  | append_singleton xs smp ih =>
    have hbef := h.of_sublist (sublist_append_left xs [smp])
    have hno := Rollup.push_sameBucket h fun a ha =>
      (hall a (mem_append_left _ ha)).trans (hall smp (by simp)).symm
    rw [foldlM_append, ih hbef fun a ha => hall a (mem_append_left _ ha), ok_bind,
      Rollup.pushed_snoc]
    simp only [foldlM_cons, foldlM_nil, bind_pure, pushRetained]
    generalize (Rollup.pushed iv xs).push smp = pushed at hno ⊢
    obtain ⟨rollup, completed⟩ := pushed
    obtain rfl : completed = none := hno
    rfl

/-- REBUILT: the rollup of a bucket that the raw ring retains as a whole is that of all samples. -/
theorem rebuildRollup_eq {raw : Ring} (hval : raw.Valid)
    (hitv : raw.layout.intervalMilliseconds = watchdogRawIntervalMilliseconds)
    (hret : raw.Retains xs) (hlat : raw.latest = xs.getLast?)
    (hsec : xs.Pairwise fun a b => SampleSys.second a < SampleSys.second b)
    (hm : 0 < m) (hsma : m < 2 ^ 32) (hcap : m ≤ raw.layout.capacity) :
    rebuildRollup raw (watchdogRawIntervalMilliseconds * m) raw.latest =
      .ok (Rollup.pushed (watchdogRawIntervalMilliseconds * m) xs) := by
  have hpos : 0 < watchdogRawIntervalMilliseconds := by decide
  have hnew : Rollup.new (watchdogRawIntervalMilliseconds * m) =
      .ok (Rollup.empty (watchdogRawIntervalMilliseconds * m)) :=
    if_neg (Nat.mul_pos hpos hm).ne'
  rw [hlat, rebuildRollup, hnew, ok_bind]
  cases xs using reverseRecOn with
  | nil => rfl
  | append_singleton xs smp =>
    have hbkt : ∀ a, raw.bucket a = SampleSys.second a := by
      intro a
      rw [Ring.bucket, hitv]
      rfl
    have hpac := paced_of_seconds hm hsma hsec
    have hlast : ∀ a ∈ xs ++ [smp], SampleSys.second a ≤ SampleSys.second smp := by
      intro a ha
      rcases mem_append.mp ha with hin | hin
      · exact ((pairwise_append.mp hsec).2.2 a hin smp (by simp)).le
      · rw [mem_singleton.mp hin]
    -- the first second of the bucket that is going on is retained
    have hdec := Nat.div_add_mod (SampleSys.second smp) m
    have hlt := Nat.mod_lt (SampleSys.second smp) hm
    have hstr : smp.unixMilliseconds.toNat / (watchdogRawIntervalMilliseconds * m) *
        (watchdogRawIntervalMilliseconds * m) / watchdogRawIntervalMilliseconds =
          m * (SampleSys.second smp / m) := by
      rw [← bucketOf_mul, Nat.mul_comm m, ← Nat.mul_assoc, Nat.mul_right_comm,
        Nat.mul_div_cancel _ hpos]
      rfl
    have hfst : max (m * (SampleSys.second smp / m))
        (SampleSys.second smp - (raw.layout.capacity - 1)) = m * (SampleSys.second smp / m) := by
      rw [Nat.max_eq_left]
      omega
    obtain ⟨missing, hque⟩ := hret.query hval (hsec.imp fun {a b} h => by rw [hbkt, hbkt]; exact h)
      (m * (SampleSys.second smp / m)) (by rw [hbkt]; omega) (by rw [hbkt]; omega)
    have hfil : (xs ++ [smp]).filter
        (fun a => m * (SampleSys.second smp / m) ≤ raw.bucket a) =
          Rollup.inBucket (watchdogRawIntervalMilliseconds * m)
            (Rollup.bucketOf (watchdogRawIntervalMilliseconds * m) smp) (xs ++ [smp]) := by
      refine filter_congr fun a ha => ?_
      have hle := hlast a ha
      rw [hbkt, bucketOf_mul, bucketOf_mul, decide_eq_decide]
      constructor
      · intro hge
        refine le_antisymm (Nat.div_le_div_right hle) ((Nat.le_div_iff_mul_le hm).mpr ?_)
        rwa [Nat.mul_comm]
      · intro heq
        rw [← heq]
        exact Nat.mul_div_le _ _
    have hsnd : smp.unixMilliseconds.toNat / watchdogRawIntervalMilliseconds =
        SampleSys.second smp := rfl
    rw [hitv] at hque
    simp only [getLast?_concat, hitv, hstr, hsnd, hfst, hque, ok_bind, hfil]
    have hgoi : Rollup.Paced (watchdogRawIntervalMilliseconds * m)
        (Rollup.inBucket (watchdogRawIntervalMilliseconds * m)
          (Rollup.bucketOf (watchdogRawIntervalMilliseconds * m) smp) (xs ++ [smp])) :=
      hpac.of_sublist filter_sublist
    rw [foldlM_pushRetained hgoi fun a ha => of_decide_eq_true (mem_filter.mp ha).2,
      Rollup.pushed_inBucket hpac]

end Seconds

/-! ### The invariant -/

variable {flt : Option SampleFault}

section Invariant

variable {lay : StorageLayout} {s t : Storage}

/-- A storage that stands after these samples. -/
structure Stands (layout : StorageLayout) (accepted : List Sample) (s : Storage) : Prop where
  raw : s.raw.Valid
  minute : s.minute.Valid
  quarter : s.quarter.Valid
  layout_eq : (⟨s.raw.layout, s.minute.layout, s.quarter.layout⟩ : StorageLayout) = layout
  interval : s.raw.layout.intervalMilliseconds = watchdogRawIntervalMilliseconds
  capacity : 900 ≤ s.raw.layout.capacity
  events : ∃ journal, Journal.withFile (max s.raw.layout.capacity 2) s.eventsFile.view =
    .ok (journal, s.eventsFile.view)
  eventsLength : s.eventsFile.view.length = s.eventsFile.durable.length
  retains : s.raw.Retains accepted
  sequences : ∀ i a, accepted[i]? = some a → a.sequence.toNat = i + 1
  seconds : accepted.Pairwise fun a b => SampleSys.second a < SampleSys.second b
  latest : s.latestSample = accepted.getLast?
  next : s.acceptedNextSequence = accepted.length + 1
  minuteRollup : s.minuteRollup = Rollup.pushed watchdogMinuteIntervalMilliseconds accepted
  quarterRollup : s.quarterRollup = Rollup.pushed watchdogQuarterIntervalMilliseconds accepted

theorem Stands.sequence_lt (h : Stands lay (acc ++ [smp]) s) :
    ∀ a ∈ acc, a.sequence < smp.sequence := by
  intro a ha
  obtain ⟨i, hi⟩ := mem_iff_getElem?.mp ha
  have hlt := (List.getElem?_eq_some_iff.mp hi).1
  have hseq := h.sequences i a (by rw [getElem?_append_left hlt]; exact hi)
  have hlast := h.sequences acc.length smp (by simp)
  rw [UInt64.lt_iff_toNat_lt]
  omega

theorem Stands.rawLatest (h : Stands lay acc s) : s.raw.latest = acc.getLast? := by
  cases acc using reverseRecOn with
  | nil => exact h.retains.latest_nil
  | append_singleton acc smp =>
    rw [h.retains.latest h.raw h.sequence_lt, getLast?_concat]

theorem length_le_second (h : (acc ++ [smp]).Pairwise fun a b =>
    SampleSys.second a < SampleSys.second b) : acc.length ≤ SampleSys.second smp := by
  induction acc using reverseRecOn generalizing smp with
  | nil => exact Nat.zero_le _
  | append_singleton acc last ih =>
    have hle := ih (h.sublist (sublist_append_left _ _))
    have hlt := (pairwise_append.mp h).2.2 last (by simp) smp (by simp)
    rw [length_append, length_singleton]
    omega

theorem second_lt (smp : Sample) : SampleSys.second smp + 2 < u64Bound := by
  have hlt := smp.unixMilliseconds.toNat_lt
  have hdiv : SampleSys.second smp = smp.unixMilliseconds.toNat / 1000 := rfl
  have hbd : u64Bound = 2 ^ 64 := rfl
  omega

/-- REOPENING: the files of a storage open as a storage that stands where it stood. -/
theorem Stands.reopen (h : Stands lay acc s) : ∃ t, s.reopen = .ok t ∧ Stands lay acc t := by
  obtain ⟨j, hevs⟩ := h.events
  have hraw := h.rawLatest
  have hcap := h.capacity
  have hmnt : rebuildRollup s.raw watchdogMinuteIntervalMilliseconds s.raw.latest =
      .ok (Rollup.pushed watchdogMinuteIntervalMilliseconds acc) :=
    rebuildRollup_eq (m := 60) h.raw h.interval h.retains hraw h.seconds (by decide) (by decide)
      (by omega)
  have hqua : rebuildRollup s.raw watchdogQuarterIntervalMilliseconds s.raw.latest =
      .ok (Rollup.pushed watchdogQuarterIntervalMilliseconds acc) :=
    rebuildRollup_eq (m := 900) h.raw h.interval h.retains hraw h.seconds (by decide) (by decide)
      hcap
  have hnx : nextAfter s.raw.latest = .ok (acc.length + 1) := by
    rw [hraw]
    cases acc using reverseRecOn with
    | nil => rfl
    | append_singleton acc smp =>
      have hseq := h.sequences acc.length smp (by simp)
      have hle := length_le_second h.seconds
      have hlt := second_lt smp
      rw [getLast?_concat, nextAfter, if_neg (by omega), hseq, length_append, length_singleton]
  have hext : extendFile s.eventsFile s.eventsFile.view.length = s.eventsFile := by
    rw [extendFile, h.eventsLength, Nat.sub_self, replicate_zero, append_nil]
  let opened : Storage := ⟨s.raw, s.minute, s.quarter, j, s.eventsFile,
    Rollup.pushed watchdogMinuteIntervalMilliseconds acc,
    Rollup.pushed watchdogQuarterIntervalMilliseconds acc, s.raw.latest, acc.length + 1,
    false, false, false, false⟩
  refine ⟨opened, ?_, ⟨h.raw, h.minute, h.quarter, h.layout_eq, h.interval, h.capacity,
    ⟨j, hevs⟩, h.eventsLength, h.retains, h.sequences, h.seconds, hraw, rfl, rfl, rfl⟩⟩
  rw [Storage.reopen, Storage.open]
  simp only [h.raw.withFile, h.minute.withFile, h.quarter.withFile, ok_bind, hevs, hnx, hmnt,
    hqua, hext, pure_eq_ok, opened]

variable {ring : Ring}

section

variable (h : ring.Valid)
include h

/-- A write that stops leaves a ring of the same extent. -/
theorem Ring.Valid.writeStopped (smp : Sample) (n : ℕ) :
    ∃ file, ring.writeStopped smp n = .ok { ring with file } ∧
      ({ ring with file } : Ring).Valid ∧ (n = 0 → file = ring.file) := by
  obtain ⟨r, henc, hlen⟩ := encodeWatchdogRecord_ok smp
  have hfits := h.fits (Nat.mod_lt (ring.bucket smp) h.capacity)
  refine ⟨splice ring.file (ring.bucket smp % ring.layout.capacity * watchdogRecordBytes)
    (r.take n), ?_, ⟨h.interval, h.capacity, h.bytes, ?_⟩, ?_⟩
  · rw [Ring.writeStopped, henc, ok_bind, h.bucketOffset, ok_bind]
    rfl
  · rw [← h.length_eq]
    refine length_splice (le_trans (Nat.add_le_add_left ?_ _) hfits)
    rw [← hlen]
    exact length_take_le' _ _
  · rintro rfl
    rw [take_zero, splice_nil]

/-- A write to a ring, stopped or not, leaves a ring of the same extent. -/
theorem Ring.Valid.writeFaulty (resolution : Resolution) (smp : Sample) (flt : Option SampleFault) :
    ∃ file e, ring.writeFaulty resolution smp flt = ({ ring with file }, e) ∧
      ({ ring with file } : Ring).Valid ∧ (flt = none → e = none) := by
  obtain ⟨file, hwri, hval, -⟩ := h.write smp
  rcases flt with - | ⟨_ | ⟨failing, n⟩, e⟩
  · exact ⟨file, none, by simp [Ring.writeFaulty, hwri], hval, fun _ => rfl⟩
  · exact ⟨file, none, by simp [Ring.writeFaulty, hwri], hval, fun _ => rfl⟩
  · by_cases hfai : failing = resolution
    · obtain ⟨torn, hsto, htorn, -⟩ := h.writeStopped smp n
      exact ⟨torn, some e, by simp [Ring.writeFaulty, hfai, hsto], htorn, by simp⟩
    · exact ⟨file, none, by simp [Ring.writeFaulty, hfai, hwri], hval, fun _ => rfl⟩

/-- A raw slot that is written whole or not at all. -/
theorem Ring.Valid.writeRaw (smp : Sample)
    (hwho : ∀ n e, flt = some ⟨.write .raw n, e⟩ → n.val = 0) :
    (∃ e, ring.writeFaulty .raw smp flt = (ring, some e) ∧ flt ≠ none) ∨
    ∃ file, ring.write smp = .ok { ring with file } ∧
      ring.writeFaulty .raw smp flt = ({ ring with file }, none) := by
  obtain ⟨file, hwri, -, -⟩ := h.write smp
  rcases flt with - | ⟨_ | ⟨failing, n⟩, e⟩
  · exact .inr ⟨file, hwri, by simp [Ring.writeFaulty, hwri]⟩
  · exact .inr ⟨file, hwri, by simp [Ring.writeFaulty, hwri]⟩
  · by_cases hfai : failing = .raw
    · refine .inl ⟨e, ?_, by simp⟩
      subst hfai
      obtain ⟨same, hsto, -, hsame⟩ := h.writeStopped smp n
      obtain rfl := hsame (hwho n e rfl)
      simp [Ring.writeFaulty, hsto]
    · exact .inr ⟨file, hwri, by simp [Ring.writeFaulty, hfai, hwri]⟩

theorem Ring.Valid.writeCompleted (resolution : Resolution)
    (completed : Option Sample) (flt : Option SampleFault) :
    ∃ file e, ring.writeCompleted resolution completed flt = ({ ring with file }, e) ∧
      ({ ring with file } : Ring).Valid ∧ (flt = none → e = none) := by
  cases completed with
  | none => exact ⟨ring.file, none, rfl, h, fun _ => rfl⟩
  | some completed => exact h.writeFaulty resolution completed flt

end

theorem Stands.rollups (h : Stands lay acc s) {minute quarter : List UInt8}
    (hmnt : ({ s.minute with file := minute } : Ring).Valid)
    (hqua : ({ s.quarter with file := quarter } : Ring).Valid) :
    Stands lay acc { s with
      minute := { s.minute with file := minute }
      quarter := { s.quarter with file := quarter } } :=
  ⟨h.raw, hmnt, hqua, h.layout_eq, h.interval, h.capacity, h.events, h.eventsLength,
    h.retains, h.sequences, h.seconds, h.latest, h.next, h.minuteRollup, h.quarterRollup⟩

/-- The next sample is accepted once it is in the raw ring. -/
theorem Stands.accept (h : Stands lay acc s) (hnx : smp.sequence.toNat = s.acceptedNextSequence)
    (hlat : ∀ latest ∈ s.latestSample, SampleSys.second latest < SampleSys.second smp)
    {file : List UInt8} (hwri : s.raw.write smp = .ok { s.raw with file }) :
    ∃ t, Storage.accept { s with raw := { s.raw with file } } smp = (t, .ok ()) ∧
      Stands lay (acc ++ [smp]) t := by
  obtain ⟨file', hwri', hval, hat⟩ := h.raw.write smp
  obtain rfl : file = file' := congrArg Ring.file (Except.ok.inj (hwri.symm.trans hwri'))
  have hsec : (acc ++ [smp]).Pairwise fun a b =>
      SampleSys.second a < SampleSys.second b := by
    refine pairwise_append.mpr ⟨h.seconds, pairwise_singleton _ _, fun a ha b hb => ?_⟩
    obtain rfl := mem_singleton.mp hb
    cases hacc : acc using reverseRecOn with
    | nil => rw [hacc] at ha; cases ha
    | append_singleton before last =>
      have hlast := hlat last (by rw [h.latest, hacc, getLast?_concat]; rfl)
      rw [hacc] at ha
      rcases mem_append.mp ha with hin | hin
      · have hord := h.seconds
        rw [hacc] at hord
        exact ((pairwise_append.mp hord).2.2 a hin last (by simp)).trans hlast
      · rwa [mem_singleton.mp hin]
  have hle := length_le_second hsec
  have hlt := second_lt smp
  have hseq := h.next
  refine ⟨_, if_neg (by omega), ⟨hval, h.minute, h.quarter, h.layout_eq, h.interval, h.capacity,
    h.events, h.eventsLength, h.retains.write hat, fun i a hi => ?_, hsec, ?_, ?_, ?_, ?_⟩⟩
  · rcases Nat.lt_or_ge i acc.length with hlt | hge
    · rw [getElem?_append_left hlt] at hi
      exact h.sequences i a hi
    · rw [getElem?_append_right hge] at hi
      obtain ⟨hzero, rfl⟩ : i - acc.length = 0 ∧ smp = a := by
        simpa [getElem?_singleton, eq_comm] using hi
      omega
  · rw [getLast?_concat]
  · rw [length_append, length_singleton]
    change smp.sequence.toNat + 1 = _
    omega
  · rw [Rollup.pushed_snoc, ← h.minuteRollup]
  · rw [Rollup.pushed_snoc, ← h.quarterRollup]

/-- STEP: recording a sample, interrupted or not. -/
theorem Stands.recordSample (h : Stands lay acc s)
    (hlat : smp.sequence.toNat = s.acceptedNextSequence →
      ∀ latest ∈ s.latestSample, SampleSys.second latest < SampleSys.second smp)
    (hwho : ∀ n e, flt = some ⟨.write .raw n, e⟩ → n.val = 0) :
    ∃ t res, s.recordSample smp flt = (t, res) ∧
      Stands lay (if decide (smp.sequence.toNat = s.acceptedNextSequence) && res.isOk then
        acc ++ [smp] else acc) t ∧
      (flt = none → smp.sequence.toNat = s.acceptedNextSequence → res = .ok ()) := by
  rw [Storage.recordSample]
  split_ifs with hold hoth
  · have hne : smp.sequence.toNat ≠ s.acceptedNextSequence := hold.ne
    refine ⟨s, _, rfl, ?_, fun _ heq => absurd heq hne⟩
    rwa [decide_eq_false hne]
  · refine ⟨s, _, rfl, ?_, fun _ heq => absurd heq hoth⟩
    rwa [decide_eq_false hoth]
  · have hnx : smp.sequence.toNat = s.acceptedNextSequence := not_not.mp hoth
    rw [decide_eq_true hnx]
    obtain ⟨minute, minuteError, hmnt, hmin, hmik⟩ :=
      h.minute.writeCompleted .minute (s.minuteRollup.push smp).2 flt
    rw [hmnt]
    cases minuteError with
    | some e =>
      exact ⟨_, _, rfl, h.rollups hmin h.quarter, fun hno => absurd (hmik hno) (by simp)⟩
    | none =>
      obtain ⟨quarter, quarterError, hqua, hqrt, hquk⟩ :=
        h.quarter.writeCompleted .quarterHour (s.quarterRollup.push smp).2 flt
      rw [hqua]
      have hsta := h.rollups hmin hqrt
      cases quarterError with
      | some e =>
        exact ⟨_, _, rfl, hsta, fun hno => absurd (hquk hno) (by simp)⟩
      | none =>
        rcases h.raw.writeRaw smp hwho with ⟨e, heq, hflt⟩ | ⟨file, hwri, heq⟩
        · rw [heq]
          exact ⟨_, _, rfl, hsta, fun hno => absurd hno hflt⟩
        · rw [heq]
          obtain ⟨t, hacc, hacd⟩ := hsta.accept hnx (hlat hnx) hwri
          exact ⟨t, .ok (), hacc, hacd, fun _ _ => rfl⟩

variable {cap : ℕ}

theorem ringLayout_new {lay : RingLayout} (h : RingLayout.new iv cap = .ok lay) :
    lay = ⟨iv, cap⟩ ∧ 0 < iv ∧ 0 < cap ∧ cap * watchdogRecordBytes < 2 ^ 63 := by
  unfold RingLayout.new at h
  split_ifs at h with hbad
  simp only [not_or, not_le] at hbad
  exact ⟨(Except.ok.inj h).symm, Nat.pos_of_ne_zero hbad.1, Nat.pos_of_ne_zero hbad.2.1, hbad.2.2⟩

theorem eventFileBytes_ok (hroom : 900 ≤ cap) (hbs : cap * watchdogRecordBytes < 2 ^ 63) :
    eventFileBytes cap = .ok ((cap + 1) * watchdogEventRecordBytes) := by
  have hrec : watchdogRecordBytes = 284 := rfl
  have hev : watchdogEventRecordBytes = 64 := rfl
  have hbd : u64Bound = 2 ^ 64 := rfl
  rw [hrec] at hbs
  have hphy : eventPhysicalCapacity cap = .ok (cap + 1) :=
    if_pos ⟨by omega, by omega⟩
  rw [eventFileBytes, hphy, ok_bind, if_neg (by rw [hev]; omega)]
  rfl

theorem withFile_zero {length : ℕ} (hext : eventFileBytes cap = .ok length) :
    Journal.withFile cap (replicate length 0) = Journal.withFile cap [] := by
  unfold Journal.withFile
  cases eventPhysicalCapacity cap with
  | error e => rfl
  | ok physical => simp [hext]

theorem stands_create
    (hlay : StorageLayout.new rawCapacity minuteCapacity quarterCapacity = .ok lay)
    (hraw : 900 ≤ rawCapacity) : ∃ s, Storage.create lay = .ok s ∧ Stands lay [] s := by
  obtain ⟨raw, hr, hlay⟩ := bind_ok_iff.mp hlay
  obtain ⟨minute, hm, hlay⟩ := bind_ok_iff.mp hlay
  obtain ⟨quarter, hq, hlay⟩ := bind_ok_iff.mp hlay
  cases hlay
  obtain ⟨rfl, hri, hrc, hrb⟩ := ringLayout_new hr
  obtain ⟨rfl, hmi, hmc, hmb⟩ := ringLayout_new hm
  obtain ⟨rfl, hqi, hqc, hqb⟩ := ringLayout_new hq
  obtain ⟨rawRing, hrwO, hrwL, hrwV, hrwR⟩ :=
    Ring.withFile_nil ⟨watchdogRawIntervalMilliseconds, rawCapacity⟩ hri hrc hrb
  obtain ⟨minuteRing, hmin, hmnt, hmid, -⟩ :=
    Ring.withFile_nil ⟨watchdogMinuteIntervalMilliseconds, minuteCapacity⟩ hmi hmc hmb
  obtain ⟨quarterRing, hqua, hqrt, hqud, -⟩ :=
    Ring.withFile_nil ⟨watchdogQuarterIntervalMilliseconds, quarterCapacity⟩ hqi hqc hqb
  have hcap : max rawCapacity 2 = rawCapacity := Nat.max_eq_left (by omega)
  have hext := eventFileBytes_ok hraw hrb
  obtain ⟨j, hevs, -, -⟩ := (holds_zero rawCapacity).withFile (by omega) hext
  have hnew : Journal.withFile rawCapacity [] =
      .ok (j, replicate ((rawCapacity + 1) * watchdogEventRecordBytes) 0) := by
    rw [← withFile_zero hext, hevs]
  let zeros : List UInt8 := replicate ((rawCapacity + 1) * watchdogEventRecordBytes) 0
  have hexd : extendFile (Volume.ofBytes []) zeros.length = Volume.ofBytes zeros := by
    simp [extendFile, Volume.ofBytes, zeros]
  have hlat := hrwR.latest_nil
  let created : Storage := ⟨rawRing, minuteRing, quarterRing, j, Volume.ofBytes zeros,
    Rollup.empty watchdogMinuteIntervalMilliseconds,
    Rollup.empty watchdogQuarterIntervalMilliseconds, none, 1, false, false, false, false⟩
  refine ⟨created, ?_, ⟨hrwV, hmid, hqud, ?_, ?_, ?_, ⟨j, ?_⟩, rfl,
    hrwR, fun i a hi => by simp at hi, List.Pairwise.nil, rfl, rfl, rfl, rfl⟩⟩
  · rw [Storage.create, Storage.open]
    simp only [hrwO, hmin, hqua, ok_bind, hcap, Volume.view_ofBytes, hnew, hlat]
    exact congrArg Except.ok (congrArg (fun file => ({ created with eventsFile := file } : Storage))
      hexd)
  · change (⟨rawRing.layout, minuteRing.layout, quarterRing.layout⟩ : StorageLayout) = _
    rw [hrwL, hmnt, hqrt]
  · change rawRing.layout.intervalMilliseconds = _
    rw [hrwL]
  · change 900 ≤ rawRing.layout.capacity
    rwa [hrwL]
  · change Journal.withFile (max rawRing.layout.capacity 2) zeros = .ok (j, zeros)
    rwa [hrwL, hcap]

/-! ### Uninterrupted runs -/

theorem uninterrupted_stands {storage : Storage} (hcre : Storage.create lay = .ok storage)
    (hstr : Stands lay [] storage) (hseq : ∀ i a, acc[i]? = some a → a.sequence.toNat = i + 1)
    (hsec : acc.Pairwise fun a b => SampleSys.second a < SampleSys.second b) :
    ∃ u, uninterrupted lay acc = .ok u ∧ Stands lay acc u := by
  induction acc using reverseRecOn with
  | nil =>
    refine ⟨storage, ?_, hstr⟩
    rw [uninterrupted, hcre]
    rfl
  | append_singleton acc smp ih =>
    obtain ⟨u, hu, hsta⟩ := ih (fun i a hi => hseq i a (by
      rw [getElem?_append_left (List.getElem?_eq_some_iff.mp hi).1]
      exact hi)) (hsec.sublist (sublist_append_left _ _))
    have hnx : smp.sequence.toNat = u.acceptedNextSequence := by
      rw [hsta.next]
      exact hseq acc.length smp (by simp)
    have hltr : ∀ latest ∈ u.latestSample, SampleSys.second latest < SampleSys.second smp := by
      intro latest hlat
      rw [hsta.latest] at hlat
      exact (pairwise_append.mp hsec).2.2 latest (mem_of_getLast? hlat) smp (by simp)
    have hwho : ∀ n e, none = some (⟨.write .raw n, e⟩ : SampleFault) → n.val = 0 := by simp
    obtain ⟨t, res, hrec, ht, hok⟩ := hsta.recordSample (fun _ => hltr) hwho
    obtain rfl := hok rfl hnx
    refine ⟨t, ?_, by simpa [hnx, Except.isOk, Except.toBool] using ht⟩
    rw [uninterrupted, hcre, ok_bind] at hu ⊢
    rw [foldlM_append, hu, ok_bind, foldlM_cons, hrec]
    rfl

/-- Two storages that stand at the same point: the next sequence number, the latest sample and the
    rollups that are going on. -/
structure SameProgress (s t : Storage) : Prop where
  next : s.acceptedNextSequence = t.acceptedNextSequence
  latest : s.latestSample = t.latestSample
  minuteRollup : s.minuteRollup = t.minuteRollup
  quarterRollup : s.quarterRollup = t.quarterRollup

theorem Stands.sameProgress (h : Stands lay acc s) (h' : Stands lay acc t) : SameProgress s t :=
  ⟨h.next.trans h'.next.symm, h.latest.trans h'.latest.symm,
    h.minuteRollup.trans h'.minuteRollup.symm, h.quarterRollup.trans h'.quarterRollup.symm⟩

end Invariant

/-! ### What is written later -/

section Later

variable {s t : Storage}

/-- The minute and the quarter record that recording the samples writes, one pair for each sample. -/
def Storage.written (s : Storage) : List Sample → List (Option Sample × Option Sample)
  | [] => []
  | sample :: later =>
    (if sample.sequence.toNat = s.acceptedNextSequence then
      ((s.minuteRollup.push sample).2, (s.quarterRollup.push sample).2) else (none, none)) ::
      (s.recordSample sample none).1.written later

/-- The three rings have their extents. -/
structure Storage.RingsValid (s : Storage) : Prop where
  raw : s.raw.Valid
  minute : s.minute.Valid
  quarter : s.quarter.Valid

/-- WRITTEN: recording a sample without a fault writes its pair of records to the two rings. -/
theorem Storage.RingsValid.writes (h : s.RingsValid) (smp : Sample) (later : List Sample) :
    ∃ pair ∈ (s.written (smp :: later)).head?,
      s.minute.writeCompleted .minute pair.1 none = ((s.recordSample smp none).1.minute, none) ∧
      s.quarter.writeCompleted .quarterHour pair.2 none =
        ((s.recordSample smp none).1.quarter, none) := by
  refine ⟨_, rfl, ?_⟩
  rw [Storage.recordSample]
  split_ifs with hnx hold hoth
  · exact absurd hnx hold.ne
  · exact absurd hnx hoth
  · obtain ⟨minute, _, hmnt, -, hmin⟩ :=
      h.minute.writeCompleted .minute (s.minuteRollup.push smp).2 none
    obtain ⟨quarter, _, hqrt, -, hqua⟩ :=
      h.quarter.writeCompleted .quarterHour (s.quarterRollup.push smp).2 none
    obtain ⟨raw, _, hraw, -, hrw⟩ := h.raw.writeFaulty .raw smp none
    obtain rfl := hmin rfl
    obtain rfl := hqua rfl
    obtain rfl := hrw rfl
    simp only [hmnt, hqrt, hraw, Storage.accept]
    split_ifs <;> exact ⟨rfl, rfl⟩
  all_goals exact ⟨rfl, rfl⟩

/-- What recording the next sample does: it fails somewhere in the rings, or it is accepted once
    they are written. -/
theorem Storage.RingsValid.recordNext (h : s.RingsValid)
    (hnx : smp.sequence.toNat = s.acceptedNextSequence) (flt : Option SampleFault) :
    ∃ raw minute quarter, Storage.RingsValid { s with
        raw := { s.raw with file := raw }
        minute := { s.minute with file := minute }
        quarter := { s.quarter with file := quarter } } ∧
      ((∃ e, flt ≠ none ∧ s.recordSample smp flt = ({ s with
          raw := { s.raw with file := raw }
          minute := { s.minute with file := minute }
          quarter := { s.quarter with file := quarter } }, .error e)) ∨
        s.recordSample smp flt = Storage.accept { s with
          raw := { s.raw with file := raw }
          minute := { s.minute with file := minute }
          quarter := { s.quarter with file := quarter } } smp) := by
  obtain ⟨minute, minuteError, hmnt, hmin, hmik⟩ :=
    h.minute.writeCompleted .minute (s.minuteRollup.push smp).2 flt
  obtain ⟨quarter, quarterError, hqrt, hqua, hquk⟩ :=
    h.quarter.writeCompleted .quarterHour (s.quarterRollup.push smp).2 flt
  obtain ⟨raw, rawError, hraw, hrwV, hrwO⟩ := h.raw.writeFaulty .raw smp flt
  rw [Storage.recordSample, if_neg (by omega), if_neg (not_not.mpr hnx), hmnt]
  cases minuteError with
  | some e =>
    refine ⟨s.raw.file, minute, s.quarter.file, ⟨h.raw, hmin, h.quarter⟩, .inl ⟨e, ?_, rfl⟩⟩
    exact fun hno => absurd (hmik hno) (by simp)
  | none =>
    rw [hqrt]
    cases quarterError with
    | some e =>
      refine ⟨s.raw.file, minute, quarter, ⟨h.raw, hmin, hqua⟩, .inl ⟨e, ?_, rfl⟩⟩
      exact fun hno => absurd (hquk hno) (by simp)
    | none =>
      rw [hraw]
      refine ⟨raw, minute, quarter, ⟨hrwV, hmin, hqua⟩, ?_⟩
      cases rawError with
      | some e => exact .inl ⟨e, fun hno => absurd (hrwO hno) (by simp), rfl⟩
      | none => exact .inr rfl

/-- What recording a sample without a fault does: nothing, or it is accepted. -/
theorem Storage.RingsValid.recordSample (h : s.RingsValid) (smp : Sample) :
    ∃ raw minute quarter, Storage.RingsValid { s with
        raw := { s.raw with file := raw }
        minute := { s.minute with file := minute }
        quarter := { s.quarter with file := quarter } } ∧
      (s.recordSample smp none).1 =
        if smp.sequence.toNat = s.acceptedNextSequence then
          (Storage.accept { s with
            raw := { s.raw with file := raw }
            minute := { s.minute with file := minute }
            quarter := { s.quarter with file := quarter } } smp).1
        else s := by
  by_cases hnx : smp.sequence.toNat = s.acceptedNextSequence
  · obtain ⟨raw, minute, quarter, hval, ⟨e, hno, -⟩ | hrec⟩ := h.recordNext hnx none
    · exact absurd rfl hno
    · exact ⟨raw, minute, quarter, hval, by rw [if_pos hnx, hrec]⟩
  · refine ⟨s.raw.file, s.minute.file, s.quarter.file, h, ?_⟩
    rw [Storage.recordSample, if_neg hnx]
    split_ifs with hold
    · rfl
    · rfl

theorem Storage.RingsValid.accept (h : s.RingsValid) (smp : Sample) :
    (s.accept smp).1.RingsValid := by
  rw [Storage.accept]
  split_ifs
  · exact ⟨h.raw, h.minute, h.quarter⟩
  · exact ⟨h.raw, h.minute, h.quarter⟩

theorem SameProgress.accept (h : SameProgress s t) (smp : Sample) :
    SameProgress (s.accept smp).1 (t.accept smp).1 := by
  rw [Storage.accept, Storage.accept]
  split_ifs
  · exact ⟨h.next, rfl, by rw [h.minuteRollup], by rw [h.quarterRollup]⟩
  · exact ⟨rfl, rfl, by rw [h.minuteRollup], by rw [h.quarterRollup]⟩

/-- STEP: recording a sample keeps two storages at the same point. -/
theorem SameProgress.recordSample (h : SameProgress s t) (hs : s.RingsValid) (ht : t.RingsValid)
    (smp : Sample) :
    SameProgress (s.recordSample smp none).1 (t.recordSample smp none).1 ∧
      (s.recordSample smp none).1.RingsValid ∧ (t.recordSample smp none).1.RingsValid := by
  obtain ⟨raw, minute, quarter, hval, heq⟩ := hs.recordSample smp
  obtain ⟨raw', minute', quarter', hval', heq'⟩ := ht.recordSample smp
  rw [heq, heq']
  by_cases hnx : smp.sequence.toNat = s.acceptedNextSequence
  · rw [if_pos hnx, if_pos (hnx.trans h.next)]
    refine ⟨?_, hval.accept smp, hval'.accept smp⟩
    refine SameProgress.accept ?_ smp
    exact ⟨h.next, h.latest, h.minuteRollup, h.quarterRollup⟩
  · rw [if_neg hnx, if_neg (fun heq => hnx (heq.trans h.next.symm))]
    exact ⟨h, hs, ht⟩

/-- RUN: storages at the same point write the same records from then on. -/
theorem SameProgress.written (later : List Sample) :
    ∀ {s t : Storage}, SameProgress s t → s.RingsValid → t.RingsValid →
      s.written later = t.written later := by
  induction later with
  | nil =>
    intro s t _ _ _
    rfl
  | cons smp later ih =>
    intro s t h hs ht
    obtain ⟨hsame, hs', ht'⟩ := h.recordSample hs ht smp
    rw [Storage.written, Storage.written, h.next, h.minuteRollup, h.quarterRollup, ih hsame hs' ht']

end Later

/-! ### Runs -/

section Runs

variable {lay : StorageLayout}

/-- STEP: every steady step leaves a storage that stands after the samples it accepted. -/
theorem Stands.step {s t : SampleSys} {a : SampleLabel} {output : SampleOutput}
    (h : Stands lay s.accepted s.storage) (hsdy : s.Steady a) (hst : s.step a = some (t, output)) :
    Stands lay t.accepted t.storage ∧ ∀ e, output ≠ .failed e := by
  cases a with
  | record smp flt =>
    obtain ⟨storage, res, hrec, hsta, -⟩ := h.recordSample hsdy.1 hsdy.2
    rw [SampleSys.step, hrec] at hst
    cases hst
    exact ⟨hsta, fun e herr => by cases herr⟩
  | reopen =>
    obtain ⟨storage, hreo, hsta⟩ := h.reopen
    rw [SampleSys.step, hreo] at hst
    cases hst
    exact ⟨hsta, fun e herr => by cases herr⟩

/-- Two storages at the same point that write the same minute and quarter records from then on. -/
def Equivalent (s t : Storage) : Prop :=
  SameProgress s t ∧ ∀ later, s.written later = t.written later

theorem Stands.equivalent {s t : Storage}
    (h : Stands lay acc s) (h' : Stands lay acc t) : Equivalent s t :=
  ⟨h.sameProgress h', fun later => (h.sameProgress h').written later
    ⟨h.raw, h.minute, h.quarter⟩ ⟨h'.raw, h'.minute, h'.quarter⟩⟩

theorem SampleSys.create_ok
    (hlay : StorageLayout.new rawCapacity minuteCapacity quarterCapacity = .ok lay)
    (hcap : 900 ≤ rawCapacity) (hcre : SampleSys.create lay = .ok s₀) :
    s₀.accepted = [] ∧ Storage.create lay = .ok s₀.storage ∧ Stands lay [] s₀.storage := by
  obtain ⟨storage, hsto, hsta⟩ := stands_create hlay hcap
  rw [SampleSys.create, hsto] at hcre
  cases hcre
  exact ⟨rfl, hsto, hsta⟩

/-- RESTART: after every run of samples of increasing seconds that may be interrupted between the
    writes of a sample and reopened at any point, the storage, and the storage that its files open
    as, stand where one that was never interrupted stands after the same samples. -/
theorem restart_equivalence {s₀ s : SampleSys} {tr : List (SampleSys × SampleLabel × SampleOutput)}
    (hlayout : StorageLayout.new rawCapacity minuteCapacity quarterCapacity = .ok lay)
    (hcapacity : 900 ≤ rawCapacity) (hcreate : SampleSys.create lay = .ok s₀)
    (hrun : Run SampleSys.step s₀ tr s) (hsteady : ∀ e ∈ tr, e.1.Steady e.2.1) :
    (∀ e ∈ tr, ∀ error, e.2.2 ≠ .failed error) ∧
    ∃ reopened storage, s.storage.reopen = .ok reopened ∧
      uninterrupted lay s.accepted = .ok storage ∧
      Equivalent s.storage storage ∧ Equivalent reopened storage := by
  obtain ⟨hno, hsto, hnew⟩ := SampleSys.create_ok hlayout hcapacity hcreate
  have hstr : Stands lay s₀.accepted s₀.storage := by rwa [hno]
  have hst : ∀ (s : SampleSys) a t o, Stands lay s.accepted s.storage → s.Steady a →
      s.step a = some (t, o) → Stands lay t.accepted t.storage :=
    fun s a t o hsta hsteady hmove => (hsta.step hsteady hmove).1
  constructor
  · intro e he
    obtain ⟨hsta, t, hmove⟩ := hrun.step_of SampleSys.Steady
      (fun s => Stands lay s.accepted s.storage) hstr hsteady hst e he
    exact (hsta.step (hsteady e he) hmove).2
  · have hsta : Stands lay s.accepted s.storage :=
      hrun.invariant_of SampleSys.Steady (fun s => Stands lay s.accepted s.storage) hstr hsteady hst
    obtain ⟨reopened, hreo, hrpn⟩ := hsta.reopen
    obtain ⟨storage, hnev, hsto⟩ :=
      uninterrupted_stands hsto hnew hsta.sequences hsta.seconds
    exact ⟨reopened, storage, hreo, hnev, hsta.equivalent hsto, hrpn.equivalent hsto⟩

def firstSample : Sample := ⟨1, 1000, 1, {}, unknownTelemetry_cores_le⟩

/-- A process that stops before the raw slot of a sample. -/
def stoppedBeforeRaw : SampleFault := ⟨.write .raw ⟨0, by decide⟩, storageIoError "stopped"⟩

/-- The first sample can always be recorded: it is next only when there is none. -/
theorem Stands.steady_first {s : SampleSys} (h : Stands lay s.accepted s.storage)
    (hwho : ∀ n e, flt = some ⟨.write .raw n, e⟩ → n.val = 0) :
    s.Steady (.record firstSample flt) := by
  refine ⟨fun hnx latest hlat => ?_, hwho⟩
  rw [h.latest] at hlat
  have hpos := length_pos_of_mem (mem_of_getLast? hlat)
  have hone : firstSample.sequence.toNat = 1 := rfl
  rw [h.next] at hnx
  omega

theorem SampleSys.exists_step (s : SampleSys) (a : SampleLabel) :
    ∃ t output, s.step a = some (t, output) := by
  cases a with
  | record smp flt => exact ⟨_, _, rfl⟩
  | reopen =>
    rw [SampleSys.step]
    cases s.storage.reopen with
    | ok storage => exact ⟨_, _, rfl⟩
    | error e => exact ⟨_, _, rfl⟩

/-- The raw slot of the first sample is not written, and the storage is reopened before the sample
    is recorded again. -/
theorem restart_equivalence_first_sample : ∃ layout s₀ tr s,
    StorageLayout.new 900 1 1 = .ok layout ∧ SampleSys.create layout = .ok s₀ ∧
    Run SampleSys.step s₀ tr s ∧ (∀ e ∈ tr, e.1.Steady e.2.1) ∧
    tr.map (·.2.1) = [.record firstSample (some stoppedBeforeRaw), .reopen,
      .record firstSample none] ∧
    ∃ reopened storage, s.storage.reopen = .ok reopened ∧
      uninterrupted layout s.accepted = .ok storage ∧
      Equivalent s.storage storage ∧ Equivalent reopened storage := by
  have hlay : StorageLayout.new 900 1 1 = .ok ⟨⟨1000, 900⟩, ⟨60000, 1⟩, ⟨900000, 1⟩⟩ := by decide
  obtain ⟨storage, hsto, hsta⟩ := stands_create hlay (le_refl 900)
  have hcre : SampleSys.create ⟨⟨1000, 900⟩, ⟨60000, 1⟩, ⟨900000, 1⟩⟩ = .ok ⟨storage, []⟩ := by
    rw [SampleSys.create, hsto]
    rfl
  obtain ⟨s₁, o₁, hfst⟩ := SampleSys.exists_step ⟨storage, []⟩
    (.record firstSample (some stoppedBeforeRaw))
  obtain ⟨s₂, o₂, hsnd⟩ := s₁.exists_step .reopen
  obtain ⟨s₃, o₃, hthi⟩ := s₂.exists_step (.record firstSample none)
  have hsdy₁ : SampleSys.Steady ⟨storage, []⟩ (.record firstSample (some stoppedBeforeRaw)) :=
    hsta.steady_first fun n err heq => by cases heq; rfl
  have hsta₁ := (Stands.step hsta hsdy₁ hfst).1
  have hsdy₂ : s₁.Steady .reopen := trivial
  have hsta₂ := (hsta₁.step hsdy₂ hsnd).1
  have hsdy₃ : s₂.Steady (.record firstSample none) := hsta₂.steady_first (by simp)
  have hrun : Run SampleSys.step ⟨storage, []⟩ _ s₃ :=
    ((Run.nil.snoc hfst).snoc hsnd).snoc hthi
  have hsdy : ∀ e ∈ [] ++ [(⟨storage, []⟩, .record firstSample (some stoppedBeforeRaw), o₁)] ++
      [(s₁, .reopen, o₂)] ++ [(s₂, .record firstSample none, o₃)], SampleSys.Steady e.1 e.2.1 := by
    simp only [nil_append, cons_append, forall_mem_cons]
    exact ⟨hsdy₁, hsdy₂, hsdy₃, by simp⟩
  exact ⟨_, _, _, s₃, hlay, hcre, hrun, hsdy, rfl,
    (restart_equivalence hlay (le_refl 900) hcre hrun hsdy).2⟩

end Runs

end LetsInfer.Watchdog
