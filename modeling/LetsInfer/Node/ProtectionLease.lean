import LetsInfer.Interface.Values
import LetsInfer.Schemes.Checks
import LetsInfer.Schemes.Maps
import LetsInfer.Schemes.Runs
import LetsInfer.Watchdog.Contract

/-! @src core/node/src/li_node_protection_lease.rs | name:Protection leases of the node
      | scheme:state-machine

    The node keeps one Watchdog session per node and one lease per placement, in two maps under one
    lock. A session starts with no leases of its node; a completed cycle of the session replaces all
    of them; the end of the session takes them away. The operations are modelled with every check
    they make, and an operation that fails leaves the maps as they were. -/

namespace LetsInfer.Node
open Schemes Interface Watchdog

/-! ### Values -/

inductive NodeProtectionLeaseError where
  | invalidContract
  | sessionUnavailable
  | regressedCycle
  | stateUnavailable
  deriving DecidableEq

def maximumLeaseMilliseconds : ℕ := 60000

/-- A cgroup as both the placement and the gateway require it. -/
def isCgroupText (value : Octets) : Bool :=
  !value.isEmpty && value.length ≤ 4095 && (cgroupRoot.isPrefixOf? value).isSome &&
    !(scalars value).any fun scalar => isControl scalar || isWhitespace scalar || scalar == 61

def isLinuxBootId (value : Octets) : Bool :=
  value.length == 36 && value.zipIdx.all fun (byte, index) =>
    if index = 8 ∨ index = 13 ∨ index = 18 ∨ index = 23 then byte == 45
    else Interface.isLowerHexByte byte

structure LinuxProtectedProcessIdentity where
  containerName : TechnicalName
  containerId : Sha256Digest
  processId : UInt32
  processStartTicks : UInt64
  bootId : BootId
  cgroup : Octets
  complete : (1 < processId && 0 < processStartTicks && isLinuxBootId bootId.asStr &&
    isCgroupText cgroup && (cgroup.splitOn 47).all (· != text "..")) = true
  deriving DecidableEq

abbrev PlacementProtectionGeneration := Checked fun value => Interface.isLowerHex value 32

inductive PlacementProtectionPhase where
  | unconfigured
  | pending
  | starting
  | armed
  | disarmed
  deriving DecidableEq

structure PlacementProtectedTarget where
  generation : PlacementProtectionGeneration
  phase : PlacementProtectionPhase
  process : LinuxProtectedProcessIdentity
  active : phase = .starting ∨ phase = .armed
  deriving DecidableEq

structure NodeProtectionLeaseBinding where
  nodeId : NodeId
  placementGroupId : PlacementGroupId
  placementId : PlacementId
  target : PlacementProtectedTarget
  deriving DecidableEq

structure GatewayProtectionAuthority where
  nodeId : NodeId
  coreInstallationId : InstallationId
  watchdogSourceIdentity : Sha256Digest
  watchdogSessionId : Sha256Digest
  watchdogSessionGeneration : ℕ+
  deriving DecidableEq

structure WatchdogProtectionCycle where
  sampleSequence : ℕ
  observedAtUnixMilliseconds : ℕ
  observedAtMonotonicMilliseconds : ℕ
  targets : List ProtectedEngine

/-- What the gateway checks of a lease besides the types of its fields. -/
def isLeaseContract (protectionGeneration : Octets) (processId : UInt32)
    (processStartTicks : UInt64) (cgroup : Octets)
    (observedAt observedAtMonotonicMilliseconds expiresAt : ℕ) : Bool :=
  Interface.isLowerHex protectionGeneration 32 && 1 < processId && 0 < processStartTicks &&
    0 < observedAtMonotonicMilliseconds && isCgroupText cgroup &&
    (cgroupRoot.isPrefixOf? cgroup).any isCgroupSuffix && observedAt < expiresAt &&
    expiresAt - observedAt ≤ maximumLeaseMilliseconds

structure GatewayPlacementProtectionLease where
  nodeId : NodeId
  placementGroupId : PlacementGroupId
  placementId : PlacementId
  coreInstallationId : InstallationId
  watchdogSourceIdentity : Sha256Digest
  watchdogSessionId : Sha256Digest
  watchdogSessionGeneration : ℕ+
  protectionGeneration : Octets
  containerName : TechnicalName
  containerId : Sha256Digest
  processId : UInt32
  processStartTicks : UInt64
  bootId : BootId
  cgroup : Octets
  sampleSequence : ℕ+
  observedAt : ℕ
  observedAtMonotonicMilliseconds : ℕ
  expiresAt : ℕ
  armed : Bool
  tripLatched : Bool
  contract : isLeaseContract protectionGeneration processId processStartTicks cgroup observedAt
    observedAtMonotonicMilliseconds expiresAt = true
  deriving DecidableEq

/-- The placement that a lease or a binding names, in the order of the map. -/
abbrev PlacementKey := PlacementGroupId ×ₗ PlacementId

def GatewayPlacementProtectionLease.key (lease : GatewayPlacementProtectionLease) : PlacementKey :=
  toLex (lease.placementGroupId, lease.placementId)

def NodeProtectionLeaseBinding.key (binding : NodeProtectionLeaseBinding) : PlacementKey :=
  toLex (binding.placementGroupId, binding.placementId)

structure NodeProtectionSession where
  authority : GatewayProtectionAuthority
  connectedAt : ℕ
  minimumSampleSequence : ℕ+
  lastSequence : Option ℕ
  lastObservedAt : Option ℕ
  lastMonotonicMilliseconds : Option ℕ

structure NodeProtectionLeaseState where
  sessions : SortedMap NodeId NodeProtectionSession
  leases : SortedMap PlacementKey GatewayPlacementProtectionLease

def NodeProtectionLeaseState.new : NodeProtectionLeaseState := ⟨.empty, .empty⟩

/-! ### The leases of a cycle -/

/-- Watchdog and placement name one armed process. -/
def targetMatches (watchdog : ProtectedEngine) (placement : PlacementProtectedTarget) : Bool :=
  watchdog.phase == .armed && watchdog.generation == placement.generation.asStr &&
    watchdog.containerName == placement.process.containerName.asStr &&
    watchdog.containerId == some placement.process.containerId.asStr &&
    watchdog.processId == some placement.process.processId &&
    watchdog.processStartTicks == some placement.process.processStartTicks &&
    watchdog.bootId == some placement.process.bootId.asStr &&
    watchdog.cgroup == some placement.process.cgroup

/-- The lease that a binding gets from a cycle of the session. -/
def leaseFor (session : NodeProtectionSession) (cycle : WatchdogProtectionCycle) (expiresAt : ℕ)
    (binding : NodeProtectionLeaseBinding) :
    Except NodeProtectionLeaseError GatewayPlacementProtectionLease :=
  let process := binding.target.process
  if hsequence : 0 < cycle.sampleSequence then
    if hcontract : isLeaseContract binding.target.generation.asStr process.processId
        process.processStartTicks process.cgroup cycle.observedAtUnixMilliseconds
        cycle.observedAtMonotonicMilliseconds expiresAt = true then
      .ok ⟨binding.nodeId, binding.placementGroupId, binding.placementId,
        session.authority.coreInstallationId, session.authority.watchdogSourceIdentity,
        session.authority.watchdogSessionId, session.authority.watchdogSessionGeneration,
        binding.target.generation.asStr, process.containerName, process.containerId,
        process.processId, process.processStartTicks, process.bootId, process.cgroup,
        ⟨cycle.sampleSequence, hsequence⟩, cycle.observedAtUnixMilliseconds,
        cycle.observedAtMonotonicMilliseconds, expiresAt, true, false, hcontract⟩
    else .error .invalidContract
  else .error .invalidContract

/-- The bindings, with their positions, that name the process of a target. -/
def matchesOf (bindings : List NodeProtectionLeaseBinding) (target : ProtectedEngine) :
    List (NodeProtectionLeaseBinding × ℕ) :=
  bindings.zipIdx.filter fun (binding, _) => targetMatches target binding.target

/-- The loop over the targets: the positions used so far and the leases made so far. -/
def leasesOfTargets (session : NodeProtectionSession) (cycle : WatchdogProtectionCycle)
    (bindings : List NodeProtectionLeaseBinding) (expiresAt : ℕ) :
    List ProtectedEngine → List ℕ → List GatewayPlacementProtectionLease →
      Except NodeProtectionLeaseError (List ℕ × List GatewayPlacementProtectionLease)
  | [], used, leases => .ok (used, leases)
  | target :: targets, used, leases =>
    match matchesOf bindings target with
    | [(binding, index)] =>
      if index ∈ used then .error .invalidContract
      else do
        let lease ← leaseFor session cycle expiresAt binding
        leasesOfTargets session cycle bindings expiresAt targets (used ++ [index])
          (leases ++ [lease])
    | _ => .error .invalidContract

/-- One lease for every target, if the bindings are exactly those of the targets; by placement. -/
def leasesForCycle (session : NodeProtectionSession) (cycle : WatchdogProtectionCycle)
    (bindings : List NodeProtectionLeaseBinding) (expiresAt : ℕ) :
    Except NodeProtectionLeaseError (List GatewayPlacementProtectionLease) := do
  let (used, leases) ← leasesOfTargets session cycle bindings expiresAt cycle.targets [] []
  if used.length ≠ bindings.length then .error .invalidContract
  else .ok (leases.insertionSort fun left right => left.placementId ≤ right.placementId)

/-! ### The operations -/

def withoutNode (leases : SortedMap PlacementKey GatewayPlacementProtectionLease) (nodeId : NodeId) :
    SortedMap PlacementKey GatewayPlacementProtectionLease :=
  leases.retain fun lease => lease.nodeId != nodeId

def beginWatchdogSession (s : NodeProtectionLeaseState) (authority : GatewayProtectionAuthority)
    (connectedAt : ℕ) (minimumSampleSequence : ℕ+) :
    Except NodeProtectionLeaseError NodeProtectionLeaseState :=
  match s.sessions.lookup authority.nodeId with
  | some session =>
    if session.authority = authority ∧ session.minimumSampleSequence = minimumSampleSequence then
      .ok s
    else .error .regressedCycle
  | none => .ok
      ⟨s.sessions.insert authority.nodeId
        ⟨authority, connectedAt, minimumSampleSequence, none, none, none⟩,
        withoutNode s.leases authority.nodeId⟩

/-- The session is the one that a caller names. -/
def NodeProtectionSession.isNamed (session : NodeProtectionSession)
    (watchdogSessionId : Sha256Digest) (watchdogSessionGeneration : ℕ+) : Bool :=
  session.authority.watchdogSessionId == watchdogSessionId &&
    session.authority.watchdogSessionGeneration == watchdogSessionGeneration

def endWatchdogSession (s : NodeProtectionLeaseState) (nodeId : NodeId)
    (watchdogSessionId : Sha256Digest) (watchdogSessionGeneration : ℕ+) :
    NodeProtectionLeaseState :=
  if (s.sessions.lookup nodeId).any (·.isNamed watchdogSessionId watchdogSessionGeneration) then
    ⟨s.sessions.erase nodeId, withoutNode s.leases nodeId⟩
  else s

/-- A cycle before the start of the session or before an earlier cycle of it. -/
def NodeProtectionSession.isRegressed (session : NodeProtectionSession)
    (cycle : WatchdogProtectionCycle) : Bool :=
  cycle.sampleSequence < session.minimumSampleSequence ||
    cycle.observedAtUnixMilliseconds < session.connectedAt ||
    session.lastSequence.any (cycle.sampleSequence < ·) ||
    session.lastObservedAt.any (cycle.observedAtUnixMilliseconds < ·) ||
    session.lastMonotonicMilliseconds.any (cycle.observedAtMonotonicMilliseconds < ·)

def insertLeases (leases : SortedMap PlacementKey GatewayPlacementProtectionLease)
    (next : List GatewayPlacementProtectionLease) :
    SortedMap PlacementKey GatewayPlacementProtectionLease :=
  next.foldl (fun leases lease => leases.insert lease.key lease) leases

def NodeProtectionLeaseState.leasesOf (s : NodeProtectionLeaseState) (nodeId : NodeId) :
    List GatewayPlacementProtectionLease :=
  s.leases.values.filter fun lease => lease.nodeId == nodeId

def commitProtectionCycle (s : NodeProtectionLeaseState) (nodeId : NodeId)
    (watchdogSessionId : Sha256Digest) (watchdogSessionGeneration : ℕ+)
    (cycle : WatchdogProtectionCycle) (bindings : List NodeProtectionLeaseBinding)
    (leaseMilliseconds : ℕ) :
    Except NodeProtectionLeaseError
      (List GatewayPlacementProtectionLease × NodeProtectionLeaseState) := do
  if cycle.sampleSequence = 0 ∨ leaseMilliseconds = 0 ∨
      leaseMilliseconds > maximumLeaseMilliseconds ∨
      (bindings.any fun binding => binding.nodeId != nodeId) = true then
    .error .invalidContract
  else match s.sessions.lookup nodeId with
    | none => .error .sessionUnavailable
    | some session =>
      if session.isNamed watchdogSessionId watchdogSessionGeneration = false then
        .error .sessionUnavailable
      else if session.isRegressed cycle then .error .regressedCycle
      else if cycle.observedAtUnixMilliseconds + leaseMilliseconds ≥ u64Bound then
        .error .invalidContract
      else do
        let next ← leasesForCycle session cycle bindings
          (cycle.observedAtUnixMilliseconds + leaseMilliseconds)
        if session.lastSequence = some cycle.sampleSequence then
          if s.leasesOf nodeId = next then .ok (next, s) else .error .regressedCycle
        else .ok (next,
          ⟨s.sessions.insert nodeId { session with
              lastSequence := some cycle.sampleSequence
              lastObservedAt := some cycle.observedAtUnixMilliseconds
              lastMonotonicMilliseconds := some cycle.observedAtMonotonicMilliseconds },
            insertLeases (withoutNode s.leases nodeId) next⟩)

/-! ### Any number of nodes -/

/-- What a caller asks of the store. -/
inductive LeaseRequest where
  | begin (authority : GatewayProtectionAuthority) (connectedAt : ℕ) (minimumSampleSequence : ℕ+)
  | finish (nodeId : NodeId) (watchdogSessionId : Sha256Digest) (watchdogSessionGeneration : ℕ+)
  | commit (nodeId : NodeId) (watchdogSessionId : Sha256Digest) (watchdogSessionGeneration : ℕ+)
      (cycle : WatchdogProtectionCycle) (bindings : List NodeProtectionLeaseBinding)
      (leaseMilliseconds : ℕ)

/-- What a caller is answered; the leases of a commit, and none for the others. -/
abbrev LeaseAnswer := Except NodeProtectionLeaseError (List GatewayPlacementProtectionLease)

/-- One operation under the lock. -/
def leaseStep (s : NodeProtectionLeaseState) :
    LeaseRequest → Option (NodeProtectionLeaseState × LeaseAnswer)
  | .begin authority connectedAt minimumSampleSequence =>
    some (match beginWatchdogSession s authority connectedAt minimumSampleSequence with
      | .ok t => (t, .ok [])
      | .error error => (s, .error error))
  | .finish nodeId watchdogSessionId watchdogSessionGeneration =>
    some (endWatchdogSession s nodeId watchdogSessionId watchdogSessionGeneration, .ok [])
  | .commit nodeId watchdogSessionId watchdogSessionGeneration cycle bindings leaseMilliseconds =>
    some (match commitProtectionCycle s nodeId watchdogSessionId watchdogSessionGeneration cycle
        bindings leaseMilliseconds with
      | .ok (leases, t) => (t, .ok leases)
      | .error error => (s, .error error))

end LetsInfer.Node
