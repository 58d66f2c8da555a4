import LetsInfer.Watchdog.Contract

/-! @src core/watchdog/src/li_watchdog_rollup.rs | name:Rollups | scheme:fold

    A rollup averages the samples of one time bucket and hands the average out when a sample of
    another bucket arrives. Its state is the fold of `accumulate` over the samples of its bucket: it
    does not depend on anything that came before, so that it can be rebuilt from these samples. -/

namespace LetsInfer.Watchdog
open Schemes List

structure UnsignedAccumulator where
  total : UInt64 := 0
  count : UInt32 := 0
  deriving DecidableEq

def UnsignedAccumulator.add (accumulator : UnsignedAccumulator) (value : UInt64) :
    UnsignedAccumulator :=
  ⟨accumulator.total + value, accumulator.count + 1⟩

/-- The rounded average, zero when nothing was added. -/
def UnsignedAccumulator.average (accumulator : UnsignedAccumulator) : UInt64 :=
  if accumulator.count = 0 then 0
  else (accumulator.total + accumulator.count.toUInt64 / 2) / accumulator.count.toUInt64

structure SignedAccumulator where
  total : Int64 := 0
  count : UInt32 := 0
  deriving DecidableEq

def SignedAccumulator.addTemperature (accumulator : SignedAccumulator) (value : Int16) :
    SignedAccumulator :=
  if value ≠ watchdogTempUnknown then ⟨accumulator.total + value.toInt64, accumulator.count + 1⟩
  else accumulator

/-- The truncated average, unknown when nothing was added or it does not fit. -/
def SignedAccumulator.averageTemperature (accumulator : SignedAccumulator) : Int16 :=
  if accumulator.count = 0 then watchdogTempUnknown
  else
    let average := accumulator.total.toInt.tdiv accumulator.count.toNat
    if -32768 ≤ average ∧ average ≤ 32767 then Int16.ofInt average else watchdogTempUnknown

def addPercent (accumulator : UnsignedAccumulator) (value : UInt8) : UnsignedAccumulator :=
  if value ≠ watchdogPercentUnknown then accumulator.add value.toUInt64 else accumulator

def addClock (accumulator : UnsignedAccumulator) (value : UInt32) : UnsignedAccumulator :=
  if value ≠ watchdogClockUnknown then accumulator.add value.toUInt64 else accumulator

def averagePercent (accumulator : UnsignedAccumulator) : UInt8 :=
  if accumulator.count = 0 then watchdogPercentUnknown
  else (min accumulator.average 100).toUInt8

def saturatingU16 (value : UInt64) : UInt16 := (min value 65535).toUInt16

def saturatingU32 (value : UInt64) : UInt32 := (min value 4294967295).toUInt32

def averageClock (accumulator : UnsignedAccumulator) : UInt32 :=
  if accumulator.count = 0 then watchdogClockUnknown else saturatingU32 accumulator.average

/-- Adds the first percentages of a list, each to its own accumulator. -/
def addPercents : ℕ → List UnsignedAccumulator → List UInt8 → List UnsignedAccumulator
  | count + 1, accumulator :: accumulators, value :: values =>
    addPercent accumulator value :: addPercents count accumulators values
  | _, accumulators, _ => accumulators

/-- The averages of the first accumulators, in place of the first outputs. -/
def averagePercents : ℕ → List UInt8 → List UnsignedAccumulator → List UInt8
  | count + 1, _ :: outputs, accumulator :: accumulators =>
    averagePercent accumulator :: averagePercents count outputs accumulators
  | _, outputs, _ => outputs

theorem length_averagePercents (n : ℕ) (outputs : List UInt8)
    (accumulators : List UnsignedAccumulator) :
    (averagePercents n outputs accumulators).length = outputs.length := by
  induction n, outputs, accumulators using averagePercents.induct with
  | case1 n output outputs accumulator accumulators ih => simp [averagePercents, ih]
  | case2 n outputs accumulators h => rw [averagePercents]; exact h

structure Rollup where
  intervalMilliseconds : ℕ
  bucket : ℕ := 0
  sampleCount : UInt32 := 0
  latest : Option Sample := none
  cpu : UnsignedAccumulator := {}
  gpu : UnsignedAccumulator := {}
  memory : UnsignedAccumulator := {}
  disk : UnsignedAccumulator := {}
  gpuMemory : UnsignedAccumulator := {}
  cores : List UnsignedAccumulator := replicate watchdogMaxCpuCores {}
  engines : List UnsignedAccumulator := replicate watchdogGpuEngines {}
  systemTemp : SignedAccumulator := {}
  gpuTemp : SignedAccumulator := {}
  nvmeTemp : SignedAccumulator := {}
  power : UnsignedAccumulator := {}
  load : UnsignedAccumulator := {}
  memoryUsed : UnsignedAccumulator := {}
  diskUsed : UnsignedAccumulator := {}
  networkRx : UnsignedAccumulator := {}
  networkTx : UnsignedAccumulator := {}
  diskRead : UnsignedAccumulator := {}
  diskWrite : UnsignedAccumulator := {}
  cpuClock : UnsignedAccumulator := {}
  gpuClock : UnsignedAccumulator := {}
  vramClock : UnsignedAccumulator := {}
  systemRamClock : UnsignedAccumulator := {}
  activeRequests : UnsignedAccumulator := {}
  connectedClients : UnsignedAccumulator := {}
  queuedRequests : UnsignedAccumulator := {}
  deriving DecidableEq

namespace Rollup

def empty (intervalMilliseconds : ℕ) : Rollup := { intervalMilliseconds }

def new (intervalMilliseconds : ℕ) : Except WatchdogError Rollup :=
  if intervalMilliseconds = 0 then
    .error (.invalidContract "Watchdog rollup interval must be positive")
  else .ok (empty intervalMilliseconds)

/-- Adds every averaged field and keeps the sample for its counters. -/
def accumulate (rollup : Rollup) (sample : Sample) : Rollup :=
  let t := sample.telemetry
  { rollup with
    latest := some sample
    sampleCount := rollup.sampleCount + 1
    cpu := addPercent rollup.cpu t.cpuPercent
    gpu := addPercent rollup.gpu t.gpuPercent
    memory := addPercent rollup.memory t.memoryPercent
    disk := addPercent rollup.disk t.diskPercent
    gpuMemory := addPercent rollup.gpuMemory t.gpuMemoryPercent
    cores := addPercents t.cpuCoreCount.toNat rollup.cores t.cpuCorePercent.bytes
    engines := addPercents watchdogGpuEngines rollup.engines t.gpuEnginePercent.bytes
    systemTemp := rollup.systemTemp.addTemperature t.systemTempDeciC
    gpuTemp := rollup.gpuTemp.addTemperature t.gpuTempDeciC
    nvmeTemp := rollup.nvmeTemp.addTemperature t.nvmeTempDeciC
    power := rollup.power.add t.powerDeciW.toUInt64
    load := rollup.load.add t.load1Centi.toUInt64
    memoryUsed := rollup.memoryUsed.add t.memoryUsedMib.toUInt64
    diskUsed := rollup.diskUsed.add t.diskUsedMib.toUInt64
    networkRx := rollup.networkRx.add t.networkRxKibS.toUInt64
    networkTx := rollup.networkTx.add t.networkTxKibS.toUInt64
    diskRead := rollup.diskRead.add t.diskReadKibS.toUInt64
    diskWrite := rollup.diskWrite.add t.diskWriteKibS.toUInt64
    cpuClock := addClock rollup.cpuClock t.cpuClockMhz
    gpuClock := addClock rollup.gpuClock t.gpuClockMhz
    vramClock := addClock rollup.vramClock t.vramClockMhz
    systemRamClock := addClock rollup.systemRamClock t.systemRamClockMhz
    activeRequests := rollup.activeRequests.add t.activeRequests.toUInt64
    connectedClients := rollup.connectedClients.add t.connectedClients.toUInt64
    queuedRequests := rollup.queuedRequests.add t.queuedRequests.toUInt64 }

/-- The payload of a completed bucket: averages, and the counters of the latest sample. -/
def telemetry (rollup : Rollup) (source : SampleTelemetry) : SampleTelemetry where
  cpuCoreCount := source.cpuCoreCount
  flags := source.flags ||| watchdogSampleRollup
  cpuPercent := averagePercent rollup.cpu
  gpuPercent := averagePercent rollup.gpu
  memoryPercent := averagePercent rollup.memory
  diskPercent := averagePercent rollup.disk
  gpuMemoryPercent := averagePercent rollup.gpuMemory
  workloadType := source.workloadType
  cpuCorePercent :=
    ⟨averagePercents source.cpuCoreCount.toNat
      (replicate watchdogMaxCpuCores watchdogPercentUnknown) rollup.cores, by
      rw [length_averagePercents, length_replicate]⟩
  gpuEnginePercent :=
    ⟨averagePercents watchdogGpuEngines
      (replicate watchdogGpuEngines watchdogPercentUnknown) rollup.engines, by
      rw [length_averagePercents, length_replicate]⟩
  systemTempDeciC := rollup.systemTemp.averageTemperature
  gpuTempDeciC := rollup.gpuTemp.averageTemperature
  nvmeTempDeciC := rollup.nvmeTemp.averageTemperature
  powerDeciW := saturatingU16 rollup.power.average
  load1Centi := saturatingU16 rollup.load.average
  memoryUsedMib := saturatingU32 rollup.memoryUsed.average
  memoryTotalMib := source.memoryTotalMib
  diskUsedMib := saturatingU32 rollup.diskUsed.average
  diskTotalMib := source.diskTotalMib
  networkRxKibS := saturatingU32 rollup.networkRx.average
  networkTxKibS := saturatingU32 rollup.networkTx.average
  diskReadKibS := saturatingU32 rollup.diskRead.average
  diskWriteKibS := saturatingU32 rollup.diskWrite.average
  workloadId := source.workloadId
  cpuClockMhz := averageClock rollup.cpuClock
  gpuClockMhz := averageClock rollup.gpuClock
  vramClockMhz := averageClock rollup.vramClock
  systemRamClockMhz := averageClock rollup.systemRamClock
  activeRequests := saturatingU32 rollup.activeRequests.average
  queuedRequests := saturatingU32 rollup.queuedRequests.average
  connectedClients := saturatingU32 rollup.connectedClients.average
  requestsReceived := source.requestsReceived
  requestsAdmitted := source.requestsAdmitted
  requestsCompleted := source.requestsCompleted
  requestsFailed := source.requestsFailed
  requestsCancelled := source.requestsCancelled
  requestsRetried := source.requestsRetried
  inputTokens := source.inputTokens
  outputTokens := source.outputTokens
  cachedTokens := source.cachedTokens
  queueMilliseconds := source.queueMilliseconds
  ttftMilliseconds := source.ttftMilliseconds
  decodeMilliseconds := source.decodeMilliseconds
  exactTokenRequests := source.exactTokenRequests
  prefixCacheHits := source.prefixCacheHits
  usageRecordsDropped := source.usageRecordsDropped
  usageWriteErrors := source.usageWriteErrors

def complete (rollup : Rollup) : Option Sample :=
  rollup.latest.bind fun latest =>
    (Sample.fromRecord latest.sequence (.ofNat (rollup.bucket * rollup.intervalMilliseconds))
      latest.monotonicMilliseconds (rollup.telemetry latest.telemetry)).toOption

/-- Adds a sample; a sample of another bucket completes the one before it. -/
def push (rollup : Rollup) (sample : Sample) : Rollup × Option Sample :=
  let bucket := sample.unixMilliseconds.toNat / rollup.intervalMilliseconds
  if rollup.sampleCount = 0 then ({ rollup with bucket }.accumulate sample, none)
  else if bucket = rollup.bucket then (rollup.accumulate sample, none)
  else ({ empty rollup.intervalMilliseconds with bucket }.accumulate sample, rollup.complete)

/-! ### A rollup is the fold over its bucket -/

section Folding

variable {iv bkt : ℕ} {xs : List Sample} {smp : Sample}

/-- The samples of one bucket, accumulated. -/
def accumulated (interval bucket : ℕ) (samples : List Sample) : Rollup :=
  samples.foldl accumulate { empty interval with bucket }

def pushed (interval : ℕ) (samples : List Sample) : Rollup :=
  samples.foldl (fun rollup sample => (rollup.push sample).1) (empty interval)

theorem accumulated_snoc (iv bkt : ℕ) (xs : List Sample) (smp : Sample) :
    accumulated iv bkt (xs ++ [smp]) = (accumulated iv bkt xs).accumulate smp := by
  simp [accumulated]

theorem pushed_snoc (iv : ℕ) (xs : List Sample) (smp : Sample) :
    pushed iv (xs ++ [smp]) = ((pushed iv xs).push smp).1 := by
  simp [pushed]

theorem accumulated_fields (iv bkt : ℕ) (xs : List Sample) :
    (accumulated iv bkt xs).intervalMilliseconds = iv ∧ (accumulated iv bkt xs).bucket = bkt ∧
    (accumulated iv bkt xs).sampleCount = UInt32.ofNat xs.length := by
  induction xs using reverseRecOn with
  | nil => exact ⟨rfl, rfl, rfl⟩
  | append_singleton xs smp ih =>
    rw [accumulated_snoc]
    refine ⟨ih.1, ih.2.1, ?_⟩
    change (accumulated iv bkt xs).sampleCount + 1 = _
    rw [ih.2.2, length_append, length_singleton, UInt32.ofNat_add]
    rfl

def bucketOf (interval : ℕ) (sample : Sample) : ℕ := sample.unixMilliseconds.toNat / interval

def inBucket (interval bucket : ℕ) (samples : List Sample) : List Sample :=
  samples.filter fun sample => bucketOf interval sample = bucket

theorem inBucket_snoc_self (iv : ℕ) (xs : List Sample) (smp : Sample) :
    inBucket iv (bucketOf iv smp) (xs ++ [smp]) = inBucket iv (bucketOf iv smp) xs ++ [smp] := by
  rw [inBucket, filter_append, filter_singleton, decide_eq_true rfl]
  rfl

/-- Samples whose buckets do not decrease, and few enough to a bucket for its count. -/
structure Paced (interval : ℕ) (samples : List Sample) : Prop where
  ordered : samples.Pairwise fun a b => bucketOf interval a ≤ bucketOf interval b
  counted : ∀ bucket, (inBucket interval bucket samples).length < 2 ^ 32

theorem Paced.of_sublist {xs' : List Sample} (h : Paced iv xs)
    (hsub : xs'.Sublist xs) : Paced iv xs' :=
  ⟨h.ordered.sublist hsub, fun bkt =>
    lt_of_le_of_lt (hsub.filter _).length_le (h.counted bkt)⟩

section

variable (h : Paced iv (xs ++ [smp]))
include h

/-- STEP and RUN: pushing samples in order leaves those of the last bucket, accumulated. -/
theorem pushed_eq :
    pushed iv (xs ++ [smp]) = accumulated iv (bucketOf iv smp)
      (inBucket iv (bucketOf iv smp) (xs ++ [smp])) := by
  induction xs using reverseRecOn generalizing smp with
  | nil =>
    rw [inBucket_snoc_self]
    rfl
  | append_singleton xs last ih =>
    have hbef : Paced iv (xs ++ [last]) := h.of_sublist (sublist_append_left _ _)
    obtain ⟨hitv, hbkt, hcnt⟩ := accumulated_fields iv (bucketOf iv last)
      (inBucket iv (bucketOf iv last) (xs ++ [last]))
    -- the bkt of the last sample has that sample in it
    have hnon : (accumulated iv (bucketOf iv last)
        (inBucket iv (bucketOf iv last) (xs ++ [last]))).sampleCount ≠ 0 := by
      have hmem : last ∈ inBucket iv (bucketOf iv last) (xs ++ [last]) :=
        mem_filter.mpr ⟨by simp, decide_eq_true rfl⟩
      have hpos := length_pos_of_mem hmem
      rw [hcnt]
      intro hzero
      have := congrArg UInt32.toNat hzero
      rw [UInt32.toNat_ofNat_of_lt' (hbef.counted _)] at this
      exact absurd this hpos.ne'
    rw [pushed_snoc, ih hbef, push, if_neg hnon]
    have hsame : smp.unixMilliseconds.toNat / (accumulated iv (bucketOf iv last)
        (inBucket iv (bucketOf iv last) (xs ++ [last]))).intervalMilliseconds =
          bucketOf iv smp := by
      rw [hitv, bucketOf]
    simp only [hsame, hbkt]
    by_cases heq : bucketOf iv smp = bucketOf iv last
    · rw [if_pos heq, ← heq, ← accumulated_snoc, inBucket_snoc_self]
    · rw [if_neg heq, hitv]
      -- every sample before is of an earlier bkt
      have hno : inBucket iv (bucketOf iv smp) (xs ++ [last]) = [] := by
        refine filter_eq_nil_iff.mpr fun a ha => ?_
        have hle := (pairwise_append.mp h.ordered).2.2 last (by simp) smp (by simp)
        have hlast : bucketOf iv a ≤ bucketOf iv last := by
          rcases mem_append.mp ha with ha | ha
          · exact (pairwise_append.mp hbef.ordered).2.2 a ha last (by simp)
          · rw [mem_singleton.mp ha]
        simp only [decide_eq_true_eq]
        omega
      rw [inBucket_snoc_self iv (xs ++ [last]) smp, hno]
      rfl

/-- REBUILT: the samples of the last bucket alone make the same rollup. -/
theorem pushed_inBucket :
    pushed iv (inBucket iv (bucketOf iv smp) (xs ++ [smp])) = pushed iv (xs ++ [smp]) := by
  have hspl := inBucket_snoc_self iv xs smp
  have haga : inBucket iv (bucketOf iv smp)
      (inBucket iv (bucketOf iv smp) xs ++ [smp]) = inBucket iv (bucketOf iv smp) xs ++ [smp] := by
    simp [inBucket]
  rw [pushed_eq h, hspl, pushed_eq (h.of_sublist (hspl ▸ filter_sublist)), haga]

theorem push_sameBucket
    (hall : ∀ a ∈ xs, bucketOf iv a = bucketOf iv smp) : ((pushed iv xs).push smp).2 = none := by
  cases xs using reverseRecOn with
  | nil => rfl
  | append_singleton xs last =>
    have hbef : Paced iv (xs ++ [last]) := h.of_sublist (sublist_append_left _ _)
    obtain ⟨hitv, hbkt, -⟩ := accumulated_fields iv (bucketOf iv last)
      (inBucket iv (bucketOf iv last) (xs ++ [last]))
    rw [pushed_eq hbef, push]
    split_ifs with hzero hoth
    · rfl
    · rfl
    · rw [hitv, hbkt] at hoth
      exact absurd (hall last (by simp)).symm hoth

end

end Folding

end Rollup

end LetsInfer.Watchdog
