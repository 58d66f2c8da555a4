import LetsInfer.Watchdog.Contract

/-! @src core/watchdog/src/li_watchdog_record.rs | name:Sample records | scheme:codec

    A sample record is 284 bytes: every field of the sample little-endian at a fixed offset, and a
    checksum of all that precedes it. The fields follow one another without a gap, so that the
    encoded bytes are written as the list of the fields in order; the decoder reads by offset. A
    record is decoded as the sample it encodes. -/

namespace LetsInfer.Watchdog
open Schemes List

/-- One byte of the reflected IEEE CRC-32. -/
def crcByte (checksum : UInt32) (byte : UInt8) : UInt32 :=
  (List.range 8).foldl
    (fun checksum _ => (checksum >>> 1) ^^^ (0xedb88320 &&& (0 - (checksum &&& 1))))
    (checksum ^^^ byte.toUInt32)

@[irreducible] def watchdogCrc32 (input : List UInt8) : UInt32 := ~~~(input.foldl crcByte 0xffffffff)

def watchdogRecordBytes : ℕ := 284

def watchdogRecordMagic : UInt32 := 0x3152494c

def watchdogRecordVersion : UInt16 := 2

def watchdogRecordCrcOffset : ℕ := 280

def recordError : WatchdogError :=
  .invalidContract "Watchdog sample record is corrupt or incompatible"

def putU16 (value : UInt16) : List UInt8 := leBytes 2 value.toNat

def putU32 (value : UInt32) : List UInt8 := leBytes 4 value.toNat

def putU64 (value : UInt64) : List UInt8 := leBytes 8 value.toNat

def getU8 (input : List UInt8) (offset : ℕ) : UInt8 := (fieldAt input offset 1).headD 0

def getU16 (input : List UInt8) (offset : ℕ) : UInt16 := .ofNat (leValue (fieldAt input offset 2))

def getU32 (input : List UInt8) (offset : ℕ) : UInt32 := .ofNat (leValue (fieldAt input offset 4))

def getU64 (input : List UInt8) (offset : ℕ) : UInt64 := .ofNat (leValue (fieldAt input offset 8))

theorem length_fieldAt {inp : List UInt8} {off n : ℕ}
    (h : off + n ≤ inp.length) : (fieldAt inp off n).length = n := by
  rw [fieldAt, length_take, length_drop]
  omega

def getBytes (input : List UInt8) (offset count : ℕ) (h : offset + count ≤ input.length) :
    Bytes count :=
  ⟨fieldAt input offset count, length_fieldAt h⟩

/-- The fields of a telemetry payload, from offset 32 on. -/
def telemetryFields (t : SampleTelemetry) : List (List UInt8) :=
  [[t.cpuCoreCount], [t.flags], [t.cpuPercent], [t.gpuPercent], [t.memoryPercent],
    [t.diskPercent], [t.gpuMemoryPercent], [t.workloadType], t.cpuCorePercent.bytes,
    t.gpuEnginePercent.bytes, putU16 t.systemTempDeciC.toUInt16, putU16 t.gpuTempDeciC.toUInt16,
    putU16 t.nvmeTempDeciC.toUInt16, putU16 t.powerDeciW, putU16 t.load1Centi,
    putU32 t.memoryUsedMib, putU32 t.memoryTotalMib, putU32 t.diskUsedMib, putU32 t.diskTotalMib,
    putU32 t.networkRxKibS, putU32 t.networkTxKibS, putU32 t.diskReadKibS,
    putU32 t.diskWriteKibS, putU32 t.workloadId, putU32 t.cpuClockMhz, putU32 t.gpuClockMhz,
    putU32 t.vramClockMhz, putU32 t.systemRamClockMhz, putU32 t.activeRequests,
    putU32 t.queuedRequests, putU64 t.requestsReceived, putU64 t.requestsAdmitted,
    putU64 t.requestsCompleted, putU64 t.requestsFailed, putU64 t.requestsCancelled,
    putU64 t.requestsRetried, putU64 t.inputTokens, putU64 t.outputTokens, putU64 t.cachedTokens,
    putU64 t.queueMilliseconds, putU64 t.ttftMilliseconds, putU64 t.decodeMilliseconds,
    putU64 t.exactTokenRequests, putU64 t.prefixCacheHits, putU64 t.usageRecordsDropped,
    putU64 t.usageWriteErrors, putU32 t.connectedClients]

def recordBody (sample : Sample) : List UInt8 :=
  ([putU32 watchdogRecordMagic, putU16 watchdogRecordVersion, leBytes 2 watchdogRecordBytes,
    putU64 sample.sequence, putU64 sample.unixMilliseconds, putU64 sample.monotonicMilliseconds] ++
      telemetryFields sample.telemetry).flatten

def encodeWatchdogRecord (sample : Sample) : Except WatchdogError (List UInt8) :=
  if watchdogMaxCpuCores < sample.telemetry.cpuCoreCount.toNat then .error recordError
  else .ok (recordBody sample ++ putU32 (watchdogCrc32 (recordBody sample)))

def decodeTelemetry (input : List UInt8) (h : input.length = watchdogRecordBytes) :
    SampleTelemetry where
  cpuCoreCount := getU8 input 32
  flags := getU8 input 33
  cpuPercent := getU8 input 34
  gpuPercent := getU8 input 35
  memoryPercent := getU8 input 36
  diskPercent := getU8 input 37
  gpuMemoryPercent := getU8 input 38
  workloadType := getU8 input 39
  cpuCorePercent := getBytes input 40 watchdogMaxCpuCores (by rw [h]; decide)
  gpuEnginePercent := getBytes input 72 watchdogGpuEngines (by rw [h]; decide)
  systemTempDeciC := (getU16 input 78).toInt16
  gpuTempDeciC := (getU16 input 80).toInt16
  nvmeTempDeciC := (getU16 input 82).toInt16
  powerDeciW := getU16 input 84
  load1Centi := getU16 input 86
  memoryUsedMib := getU32 input 88
  memoryTotalMib := getU32 input 92
  diskUsedMib := getU32 input 96
  diskTotalMib := getU32 input 100
  networkRxKibS := getU32 input 104
  networkTxKibS := getU32 input 108
  diskReadKibS := getU32 input 112
  diskWriteKibS := getU32 input 116
  workloadId := getU32 input 120
  cpuClockMhz := getU32 input 124
  gpuClockMhz := getU32 input 128
  vramClockMhz := getU32 input 132
  systemRamClockMhz := getU32 input 136
  activeRequests := getU32 input 140
  queuedRequests := getU32 input 144
  connectedClients := getU32 input 276
  requestsReceived := getU64 input 148
  requestsAdmitted := getU64 input 156
  requestsCompleted := getU64 input 164
  requestsFailed := getU64 input 172
  requestsCancelled := getU64 input 180
  requestsRetried := getU64 input 188
  inputTokens := getU64 input 196
  outputTokens := getU64 input 204
  cachedTokens := getU64 input 212
  queueMilliseconds := getU64 input 220
  ttftMilliseconds := getU64 input 228
  decodeMilliseconds := getU64 input 236
  exactTokenRequests := getU64 input 244
  prefixCacheHits := getU64 input 252
  usageRecordsDropped := getU64 input 260
  usageWriteErrors := getU64 input 268

def decodeWatchdogRecord (input : List UInt8) : Except WatchdogError Sample :=
  if h : input.length = watchdogRecordBytes then
    if getU32 input 0 ≠ watchdogRecordMagic ∨ getU16 input 4 ≠ watchdogRecordVersion ∨
        (getU16 input 6).toNat ≠ watchdogRecordBytes ∨
        getU32 input watchdogRecordCrcOffset ≠ watchdogCrc32 (input.take watchdogRecordCrcOffset) ∨
        watchdogMaxCpuCores < (getU8 input 32).toNat then
      .error recordError
    else
      Sample.fromRecord (getU64 input 8) (getU64 input 16) (getU64 input 24)
        (decodeTelemetry input h)
  else .error recordError

/-! ### Round trip -/

@[simp] theorem length_putU16 (v : UInt16) : (putU16 v).length = 2 := length_leBytes _ _

@[simp] theorem length_putU32 (v : UInt32) : (putU32 v).length = 4 := length_leBytes _ _

@[simp] theorem length_putU64 (v : UInt64) : (putU64 v).length = 8 := length_leBytes _ _

@[simp] theorem ofNat_leValue_putU16 (v : UInt16) : UInt16.ofNat (leValue (putU16 v)) = v := by
  rw [putU16, leValue_leBytes, Nat.mod_eq_of_lt, UInt16.ofNat_toNat]
  exact v.toNat_lt

@[simp] theorem ofNat_leValue_putU32 (v : UInt32) : UInt32.ofNat (leValue (putU32 v)) = v := by
  rw [putU32, leValue_leBytes, Nat.mod_eq_of_lt, UInt32.ofNat_toNat]
  exact v.toNat_lt

@[simp] theorem ofNat_leValue_putU64 (v : UInt64) : UInt64.ofNat (leValue (putU64 v)) = v := by
  rw [putU64, leValue_leBytes, Nat.mod_eq_of_lt, UInt64.ofNat_toNat]
  exact v.toNat_lt

theorem length_recordBody (x : Sample) : (recordBody x).length = watchdogRecordCrcOffset := by
  simp [recordBody, telemetryFields, x.telemetry.cpuCorePercent.length_eq,
    x.telemetry.gpuEnginePercent.length_eq, watchdogMaxCpuCores, watchdogGpuEngines,
    watchdogRecordCrcOffset]

/-- Each field of a record is read back at its offset. -/
theorem decodeTelemetry_recordBody (x : Sample) (tail : List UInt8)
    (h : (recordBody x ++ tail).length = watchdogRecordBytes) :
    decodeTelemetry (recordBody x ++ tail) h = x.telemetry := by
  have hcor := x.telemetry.cpuCorePercent.length_eq
  have heng := x.telemetry.gpuEnginePercent.length_eq
  have hten : watchdogMaxCpuCores = 32 := rfl
  have hsix : watchdogGpuEngines = 6 := rfl
  simp (disch := simp only [length_leBytes, length_putU16, length_putU32, length_putU64,
      length_singleton, hcor, heng, hten, hsix, Nat.reduceLeDiff]) only [decodeTelemetry,
    getU8, getU16, getU32, getU64, getBytes, recordBody, telemetryFields, flatten_append,
    flatten_cons, flatten_nil, append_assoc, nil_append, fieldAt_skip,
    fieldAt_here, length_leBytes, length_putU16, length_putU32, length_putU64,
    length_singleton, hcor, heng, hten, hsix, Nat.reduceSub, ofNat_leValue_putU16,
    ofNat_leValue_putU32, ofNat_leValue_putU64, headD_cons]
  rfl

theorem recordBody_head (x : Sample) (tail : List UInt8) : getU32
    (recordBody x ++ tail) 0 = watchdogRecordMagic ∧ getU16
    (recordBody x ++ tail) 4 = watchdogRecordVersion ∧
    (getU16 (recordBody x ++ tail) 6).toNat = watchdogRecordBytes ∧ getU64
    (recordBody x ++ tail) 8 = x.sequence ∧ getU64 (recordBody x ++ tail) 16 = x.unixMilliseconds ∧
    getU64 (recordBody x ++ tail) 24 = x.monotonicMilliseconds := by
  have hsize : (UInt16.ofNat (leValue (leBytes 2 watchdogRecordBytes))).toNat =
      watchdogRecordBytes := by decide
  simp (disch := simp only [length_leBytes, length_putU16, length_putU32, length_putU64,
      Nat.reduceLeDiff]) only [getU16, getU32, getU64, recordBody, flatten_append,
    flatten_cons, flatten_nil, append_assoc, nil_append, fieldAt_skip,
    fieldAt_here, length_leBytes, length_putU16, length_putU32, length_putU64, Nat.reduceSub,
    ofNat_leValue_putU16, ofNat_leValue_putU32, ofNat_leValue_putU64, hsize, and_self]

theorem decodeWatchdogRecord_encode {x : Sample} {r : List UInt8}
    (h : encodeWatchdogRecord x = .ok r) : decodeWatchdogRecord r = .ok x := by
  rw [encodeWatchdogRecord, if_neg (not_lt.mpr x.cores_le)] at h
  cases h
  have hbody := length_recordBody x
  generalize hche : watchdogCrc32 (recordBody x) = checksum
  have hlen : (recordBody x ++ putU32 checksum).length = watchdogRecordBytes := by
    rw [length_append, hbody, length_putU32]
    rfl
  obtain ⟨hmag, hver, hsize, hseq, hunix, hmon⟩ :=
    recordBody_head x (putU32 checksum)
  have htel := decodeTelemetry_recordBody x _ hlen
  have hcnt := congrArg (fun t => t.cpuCoreCount.toNat) htel
  have hcrc : getU32 (recordBody x ++ putU32 checksum) watchdogRecordCrcOffset = checksum := by
    rw [getU32, fieldAt_skip hbody.le, hbody, Nat.sub_self, ← append_nil (putU32 _),
      fieldAt_here (length_putU32 _), ofNat_leValue_putU32]
  rw [decodeWatchdogRecord, dif_pos hlen, if_neg, htel, hseq, hunix, hmon]
  · exact Sample.fromRecord_self x
  · rw [hcrc, ← hbody, take_left, hche, hmag, hver, hsize]
    simp only [ne_eq, not_true_eq_false, false_or, not_lt]
    exact hcnt.trans_le x.cores_le

theorem encodeWatchdogRecord_ok (x : Sample) :
    ∃ r, encodeWatchdogRecord x = .ok r ∧ r.length = watchdogRecordBytes := by
  refine ⟨_, if_neg (not_lt.mpr x.cores_le), ?_⟩
  rw [length_append, length_recordBody, length_putU32]
  rfl

theorem decodeWatchdogRecord_zero :
    decodeWatchdogRecord (replicate watchdogRecordBytes 0) = .error recordError := by
  rw [decodeWatchdogRecord, dif_pos length_replicate, if_pos]
  exact .inl (by decide)

end LetsInfer.Watchdog
