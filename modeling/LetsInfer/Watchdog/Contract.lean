import LetsInfer.Schemes.Fields
import LetsInfer.Schemes.Texts

/-! @src core/watchdog/src/li_watchdog_contract.rs | name:Watchdog contract | scheme:contract

    The values that the resident watchdog passes between its sampler, its protection provider, its
    storage and its protocol. A text is the list of its UTF-8 bytes, an array of bytes carries its
    length, and a sample carries the bound on its core count that both of its constructors check. -/

namespace LetsInfer.Watchdog
open Schemes

/-- A text, as its UTF-8 bytes. -/
abbrev Text := List UInt8

/-- The bytes of a text of the source. -/
def text (value : String) : Text := value.toUTF8.data.toList

abbrev u64Bound : ℕ := 2 ^ 64

inductive WatchdogError where
  | invalidContract (reason : String)
  | provider (capability reason : String)
  | stateUnavailable
  deriving DecidableEq

def storageIoError (reason : String) : WatchdogError := .provider "storage" reason

/-- A lowercase hexadecimal digit. -/
def isLowerHexByte (byte : UInt8) : Bool := (48 ≤ byte ∧ byte ≤ 57) ∨ (97 ≤ byte ∧ byte ≤ 102)

def isLowerHex (value : Text) (length : ℕ) : Bool :=
  value.length = length ∧ value.all isLowerHexByte

theorem isLowerHex_zeros (length : ℕ) : isLowerHex (List.replicate length 48) length = true := by
  have hzero : isLowerHexByte 48 = true := by decide
  simp [isLowerHex, hzero]

/-! ### Protection -/

/-- The two thresholds that the manager reads. -/
structure SafetyThresholds where
  warningAvailableBytes : UInt64
  containmentGraceMilliseconds : UInt32
  deriving DecidableEq

inductive ProtectionPhase where
  | pending
  | starting
  | armed
  | disarmed
  deriving DecidableEq

/-- A phase in which the descriptor names a process. -/
def ProtectionPhase.isProcessBound : ProtectionPhase → Bool
  | .starting | .armed => true
  | .pending | .disarmed => false

def maxGenerationBytes : ℕ := 32

def maxContainerNameBytes : ℕ := 128

def containerIdBytes : ℕ := 64

def bootIdBytes : ℕ := 36

def maxCgroupBytes : ℕ := 4095

def maxProcessId : ℕ := 2 ^ 31 - 1

def isAsciiAlphanumeric (byte : UInt8) : Bool :=
  isAsciiDigit byte ∨ (65 ≤ byte ∧ byte ≤ 90) ∨ (97 ≤ byte ∧ byte ≤ 122)

def safeToken (value : Text) (maximum : ℕ) : Bool :=
  value ≠ [] ∧ value.length ≤ maximum ∧
    value.all fun byte => isAsciiAlphanumeric byte ∨ byte ∈ text "._-"

theorem isLowerHex_zeroGeneration :
    isLowerHex (List.replicate 32 48) maxGenerationBytes = true := isLowerHex_zeros 32

theorem safeToken_engine : safeToken (text "engine") maxContainerNameBytes = true := by decide

theorem zeroContainer_hex : ∀ v ∈ some (List.replicate 64 48), isLowerHex v containerIdBytes := by
  rintro v hvl
  cases hvl
  exact isLowerHex_zeros 64

theorem two_isProcessId : ∀ v ∈ some (2 : UInt32), 1 < v.toNat ∧ v.toNat ≤ maxProcessId := by
  rintro v hvl
  cases hvl
  decide

theorem one_isStartTicks : ∀ v ∈ some (1 : UInt64), 0 < v.toNat := by
  rintro v hvl
  cases hvl
  decide

def cgroupRoot : Text := text "/sys/fs/cgroup/"

/-- A relative path without empty, current or parent components. -/
def isCgroupSuffix (suffix : Text) : Bool :=
  suffix ≠ [] ∧ suffix.getLast? ≠ some 47 ∧
    (suffix.splitOn 47).all fun component => component ∉ [[], text ".", text ".."]

def isCgroup (value : Text) : Bool :=
  value.length ≤ maxCgroupBytes ∧ (cgroupRoot.isPrefixOf? value).any isCgroupSuffix ∧
    value.all fun byte => isAsciiAlphanumeric byte ∨ byte ∈ text "/_.:-"

/-- A protected placement, with what its descriptor was checked for. -/
structure ProtectedEngine where
  generation : Text
  phase : ProtectionPhase
  containerName : Text
  containerId : Option Text
  processId : Option UInt32
  processStartTicks : Option UInt64
  bootId : Option Text
  cgroup : Option Text
  generation_hex : isLowerHex generation maxGenerationBytes
  containerName_safe : safeToken containerName maxContainerNameBytes
  containerId_hex : ∀ value ∈ containerId, isLowerHex value containerIdBytes
  processId_bounds : ∀ value ∈ processId, 1 < value.toNat ∧ value.toNat ≤ maxProcessId
  processStartTicks_pos : ∀ value ∈ processStartTicks, 0 < value.toNat
  bootId_safe : ∀ value ∈ bootId, safeToken value bootIdBytes ∧ value.length = bootIdBytes
  cgroup_valid : ∀ value ∈ cgroup, isCgroup value
  process_bound : containerId.isSome = phase.isProcessBound ∧
    processId.isSome = phase.isProcessBound ∧ processStartTicks.isSome = phase.isProcessBound ∧
    bootId.isSome = phase.isProcessBound ∧ cgroup.isSome = phase.isProcessBound
  deriving DecidableEq

/-- Membership among texts, which every check of a name decides. -/
instance decidableMemTexts (value : Text) (values : List Text) : Decidable (value ∈ values) :=
  List.instDecidableMemOfLawfulBEq value values

structure SafetyInput where
  availableBytes : UInt64 := 0
  swapUsedBytes : UInt64 := 0
  psiSomeDeltaMicroseconds : UInt64 := 0
  psiFullDeltaMicroseconds : UInt64 := 0
  cgroupOomDelta : UInt64 := 0
  cgroupOomKillDelta : UInt64 := 0
  cgroupOomGroupKillDelta : UInt64 := 0
  cgroupMaxDelta : UInt64 := 0
  deriving DecidableEq

inductive ProcessState where
  | running
  | exited
  deriving DecidableEq

structure ProtectionObservation where
  target : ProtectedEngine
  processState : ProcessState
  safety : SafetyInput
  tripLatched : Bool
  deriving DecidableEq

inductive SafetyAction where
  | stop
  | kill
  deriving DecidableEq

structure SafetyEvent where
  kind : String
  reason : String
  severity : UInt8
  generation : Text
  sequence : UInt64
  action : Option SafetyAction
  containmentComplete : Option Bool
  deriving DecidableEq

def maximumWatchdogTargets : ℕ := 64

/-! ### Samples -/

def watchdogMaxCpuCores : ℕ := 32

def watchdogGpuEngines : ℕ := 6

def watchdogPercentUnknown : UInt8 := 255

def watchdogTempUnknown : Int16 := -32768

def watchdogClockUnknown : UInt32 := 4294967295

def watchdogSampleRollup : UInt8 := 1

structure SampleTelemetry where
  cpuCoreCount : UInt8 := 0
  flags : UInt8 := 0
  cpuPercent : UInt8 := watchdogPercentUnknown
  gpuPercent : UInt8 := watchdogPercentUnknown
  memoryPercent : UInt8 := watchdogPercentUnknown
  diskPercent : UInt8 := watchdogPercentUnknown
  gpuMemoryPercent : UInt8 := watchdogPercentUnknown
  workloadType : UInt8 := 0
  cpuCorePercent : Bytes watchdogMaxCpuCores :=
    ⟨List.replicate watchdogMaxCpuCores watchdogPercentUnknown, List.length_replicate⟩
  gpuEnginePercent : Bytes watchdogGpuEngines :=
    ⟨List.replicate watchdogGpuEngines watchdogPercentUnknown, List.length_replicate⟩
  systemTempDeciC : Int16 := watchdogTempUnknown
  gpuTempDeciC : Int16 := watchdogTempUnknown
  nvmeTempDeciC : Int16 := watchdogTempUnknown
  powerDeciW : UInt16 := 0
  load1Centi : UInt16 := 0
  memoryUsedMib : UInt32 := 0
  memoryTotalMib : UInt32 := 0
  diskUsedMib : UInt32 := 0
  diskTotalMib : UInt32 := 0
  networkRxKibS : UInt32 := 0
  networkTxKibS : UInt32 := 0
  diskReadKibS : UInt32 := 0
  diskWriteKibS : UInt32 := 0
  workloadId : UInt32 := 0
  cpuClockMhz : UInt32 := watchdogClockUnknown
  gpuClockMhz : UInt32 := watchdogClockUnknown
  vramClockMhz : UInt32 := watchdogClockUnknown
  systemRamClockMhz : UInt32 := watchdogClockUnknown
  activeRequests : UInt32 := 0
  queuedRequests : UInt32 := 0
  connectedClients : UInt32 := 0
  requestsReceived : UInt64 := 0
  requestsAdmitted : UInt64 := 0
  requestsCompleted : UInt64 := 0
  requestsFailed : UInt64 := 0
  requestsCancelled : UInt64 := 0
  requestsRetried : UInt64 := 0
  inputTokens : UInt64 := 0
  outputTokens : UInt64 := 0
  cachedTokens : UInt64 := 0
  queueMilliseconds : UInt64 := 0
  ttftMilliseconds : UInt64 := 0
  decodeMilliseconds : UInt64 := 0
  exactTokenRequests : UInt64 := 0
  prefixCacheHits : UInt64 := 0
  usageRecordsDropped : UInt64 := 0
  usageWriteErrors : UInt64 := 0
  deriving DecidableEq

structure Sample where
  sequence : UInt64
  unixMilliseconds : UInt64
  monotonicMilliseconds : UInt64
  telemetry : SampleTelemetry
  cores_le : telemetry.cpuCoreCount.toNat ≤ watchdogMaxCpuCores
  deriving DecidableEq

theorem unknownTelemetry_cores_le :
    ({} : SampleTelemetry).cpuCoreCount.toNat ≤ watchdogMaxCpuCores := Nat.zero_le _

/-- A sample from a record: only the core count is checked. -/
def Sample.fromRecord (sequence unixMilliseconds monotonicMilliseconds : UInt64)
    (telemetry : SampleTelemetry) : Except WatchdogError Sample :=
  if h : telemetry.cpuCoreCount.toNat ≤ watchdogMaxCpuCores then
    .ok ⟨sequence, unixMilliseconds, monotonicMilliseconds, telemetry, h⟩
  else .error (.invalidContract "sample CPU core count exceeds the native record bound")

theorem Sample.fromRecord_self (x : Sample) :
    Sample.fromRecord x.sequence x.unixMilliseconds x.monotonicMilliseconds
      x.telemetry = .ok x := by
  rw [fromRecord, dif_pos x.cores_le]

end LetsInfer.Watchdog
