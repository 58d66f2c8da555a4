import LetsInfer.Watchdog.Descriptor
import LetsInfer.Watchdog.Record
import LetsInfer.Schemes.Ordered

/-! @src core/watchdog/src/li_watchdog_controller_registry.rs | name:Controller registry | scheme:store

    Which controller controls which protected process. A controller applies a binding under a
    generation that only goes up and retires it again; the entry stays behind so that the generation
    is not used a second time. Every change is first written as one text, which replaces the text
    that the registry wrote before, and becomes visible only when that has succeeded. The SHA-256
    of an allowlist is taken as given. -/

namespace LetsInfer.Watchdog
open Schemes

def controllerError (reason : String) : WatchdogError := .provider "controller registry" reason

def snapshotError (reason : String) : WatchdogError := .provider "controller snapshot" reason

def controllerSnapshotMaxBytes : ℕ := 1048576

def controllerIdBytes : ℕ := 32

def controllerFingerprintBytes : ℕ := 64

def installationIdBytes : ℕ := 64

/-! ### Values -/

/-- The controllers of one installation and their certificates, as `parse` makes them. -/
structure ControllerAllowlist where
  installationId : Text
  controllers : List (Text × Text)
  sha256 : Text
  installationId_hex : isLowerHex installationId installationIdBytes
  ordered : Ordered controllers
  controllers_hex : ∀ entry ∈ controllers,
    isLowerHex entry.1 controllerIdBytes ∧ isLowerHex entry.2 controllerFingerprintBytes
  sha256_hex : isLowerHex sha256 controllerFingerprintBytes

def ControllerAllowlist.authorizes (allowlist : ControllerAllowlist)
    (controllerId certificateSha256 : Text) : Bool :=
  lookupKey controllerId allowlist.controllers = some certificateSha256

/-- A controller session on a process, with what `new` checks. -/
structure ControllerBinding where
  controllerId : Text
  certificateSha256 : Text
  sessionGeneration : ℕ
  target : ProtectedEngine
  controllerId_hex : isLowerHex controllerId controllerIdBytes
  certificate_hex : isLowerHex certificateSha256 controllerFingerprintBytes
  generation_bounds : 0 < sessionGeneration ∧ sessionGeneration < u64Bound
  target_bound : target.phase.isProcessBound
  deriving DecidableEq

/-- The bound on the generation is that of its type; a process-bound target has all its parts. -/
def ControllerBinding.new (controllerId certificateSha256 : Text) (sessionGeneration : ℕ)
    (target : ProtectedEngine) : Except WatchdogError ControllerBinding :=
  if h : isLowerHex controllerId controllerIdBytes ∧
      isLowerHex certificateSha256 controllerFingerprintBytes ∧
      (0 < sessionGeneration ∧ sessionGeneration < u64Bound) ∧ target.phase.isProcessBound then
    .ok ⟨controllerId, certificateSha256, sessionGeneration, target, h.1, h.2.1, h.2.2.1, h.2.2.2⟩
  else .error (controllerError "controller binding is invalid")

structure ControllerEntry where
  sessionGeneration : ℕ
  binding : Option ControllerBinding
  deriving DecidableEq

/-- The entries in the order of their controllers. -/
abbrev ControllerEntries := List (Text × ControllerEntry)

structure RegistryState where
  revision : ℕ
  entries : ControllerEntries
  persistedSnapshot : Option Text
  deriving DecidableEq

inductive MutationKind where
  | created
  | advanced
  | replayed
  | retired
  deriving DecidableEq

/-! ### Checks -/

/-- The same generation, the same container or the same process. -/
def targetsConflict (left right : ProtectedEngine) : Bool :=
  left.generation = right.generation ∨ left.containerId = right.containerId ∨
    (left.processId = right.processId ∧ left.processStartTicks = right.processStartTicks ∧
      left.bootId = right.bootId ∧ left.cgroup = right.cgroup)

def rejectTargetConflict (entries : ControllerEntries) (candidate : ControllerBinding) :
    Except WatchdogError Unit :=
  if entries.any fun entry => decide (entry.1 ≠ candidate.controllerId) &&
      entry.2.binding.any fun binding => targetsConflict binding.target candidate.target then
    .error (controllerError "protected process is already controlled")
  else .ok ()

def activeBindingCount (entries : ControllerEntries) : ℕ :=
  (entries.filter fun entry => entry.2.binding.isSome).length

def requireRevision (current expected : ℕ) : Except WatchdogError Unit :=
  if expected ≠ current then .error (controllerError "controller registry revision is stale")
  else .ok ()

def nextRevision (current : ℕ) : Except WatchdogError ℕ :=
  if u64Bound ≤ current + 1 then
    .error (controllerError "controller registry revision is exhausted")
  else .ok (current + 1)

def validateRegistryBound (maximumActiveBindings : ℕ) : Except WatchdogError Unit :=
  if maximumActiveBindings = 0 ∨ maximumWatchdogTargets < maximumActiveBindings then
    .error (controllerError "controller registry bound is invalid")
  else .ok ()

/-! ### Snapshots -/

/-- The certificate, the state and the descriptor of an entry. The allowlist has every controller
    that is retired: the source indexes it. -/
def entryFields (allowlist : ControllerAllowlist) (entry : Text × ControllerEntry) :
    Text × Text × Text :=
  match entry.2.binding with
  | some binding =>
    (binding.certificateSha256, text "1", hexEncode (targetDescriptor binding.target))
  | none => ((lookupKey entry.1 allowlist.controllers).getD [], text "0", text "-")

def entryLine (allowlist : ControllerAllowlist) (entry : Text × ControllerEntry) : Text :=
  let (certificateSha256, active, descriptor) := entryFields allowlist entry
  text "entry=" ++ List.intercalate [44]
    [entry.1, certificateSha256, decimal entry.2.sessionGeneration, active, descriptor]

def snapshotLines (allowlist : ControllerAllowlist) (state : RegistryState) : List Text :=
  [text "schema=li_watchdog.controller-registry", text "version=1",
    text "installation_id=" ++ allowlist.installationId,
    text "allowlist_sha256=" ++ allowlist.sha256, text "revision=" ++ decimal state.revision] ++
    state.entries.map (entryLine allowlist)

def snapshotBody (allowlist : ControllerAllowlist) (state : RegistryState) : Text :=
  joinTerminated 10 (snapshotLines allowlist state)

def checksumLine (body : Text) : Text :=
  text "checksum=" ++ hexWord 8 (watchdogCrc32 body).toNat ++ [10]

def encodeSnapshot (allowlist : ControllerAllowlist) (state : RegistryState) :
    Except WatchdogError Text :=
  let body := snapshotBody allowlist state
  if controllerSnapshotMaxBytes < (body ++ checksumLine body).length then
    .error (controllerError "controller registry snapshot is oversized")
  else .ok (body ++ checksumLine body)

/-- A decimal number without leading zeros that is not zero. -/
def parsePositive (value : Text) (reason : String) : Except WatchdogError ℕ :=
  if value = [] ∨ !value.all isAsciiDigit ∨ (1 < value.length ∧ value.head? = some 48) then
    .error (controllerError reason)
  else if u64Bound ≤ decimalValue value then .error (controllerError reason)
  else if decimalValue value = 0 then .error (controllerError reason)
  else .ok (decimalValue value)

/-- The text before the checksum line, if the checksum is right. -/
def validatedSnapshotBody (snapshot : Text) : Except WatchdogError Text := do
  if snapshot = [] ∨ controllerSnapshotMaxBytes < snapshot.length ∨
      snapshot.getLast? ≠ some 10 ∨ 0 ∈ snapshot then
    throw (controllerError "controller registry snapshot framing is invalid")
  if !isUtf8 snapshot then throw (controllerError "controller registry snapshot text is invalid")
  match rfind (text "checksum=") snapshot with
  | none => throw (controllerError "controller registry snapshot checksum is missing")
  | some start =>
    if start = 0 ∨ snapshot[start - 1]? ≠ some 10 then
      throw (controllerError "controller registry snapshot checksum is missing")
    match stripPrefix (text "checksum=") (snapshot.drop start).dropLast with
    | none => throw (controllerError "controller registry snapshot checksum is invalid")
    | some checksum =>
      if !isLowerHex checksum 8 then
        throw (controllerError "controller registry snapshot checksum is invalid")
      if (watchdogCrc32 (snapshot.take start)).toNat ≠ hexValue checksum then
        throw (controllerError "controller registry snapshot checksum does not match")
      return snapshot.take start

def parseBinding (controllerId certificateSha256 : Text) (sessionGeneration : ℕ)
    (active descriptor : Text) : Except WatchdogError (Option ControllerBinding) :=
  if active = text "0" ∧ descriptor = text "-" then .ok none
  else if active = text "1" then
    match if descriptor = [] then none else hexDecode descriptor with
    | none => .error (controllerError "controller registry snapshot descriptor is invalid")
    | some source => do
      if !isUtf8 source then
        throw (controllerError "controller registry snapshot descriptor is invalid")
      let target ← ProtectedEngine.parse source
      if targetDescriptor target ≠ source then
        throw (controllerError "controller registry snapshot descriptor is not canonical")
      let binding ← ControllerBinding.new controllerId certificateSha256 sessionGeneration target
      return some binding
  else .error (controllerError "controller registry snapshot active state is invalid")

/-- One entry line, after the entries before it and the controller of the last one. -/
def parseEntry (allowlist : ControllerAllowlist) (found : ControllerEntries × Option Text)
    (line : Text) : Except WatchdogError (ControllerEntries × Option Text) :=
  match stripPrefix (text "entry=") line with
  | none => .error (controllerError "controller registry snapshot field is unknown")
  | some value => do
    let fields := value.splitOn 44
    let controllerId := fields.getD 0 []
    let certificateSha256 := fields.getD 1 []
    if 5 < fields.length ∨ !allowlist.authorizes controllerId certificateSha256 ∨
        allowlist.controllers.length ≤ found.1.length ∨
        (lookupKey controllerId found.1).isSome then
      throw (controllerError "controller registry snapshot entry is invalid")
    if found.2.any fun previous => decide (controllerId ≤ previous) then
      throw (controllerError "controller registry snapshot order is invalid")
    let sessionGeneration ← parsePositive (fields.getD 2 [])
      "controller registry snapshot generation is invalid"
    let binding ← parseBinding controllerId certificateSha256 sessionGeneration (fields.getD 3 [])
      (fields.getD 4 [])
    match binding with
    | some binding => rejectTargetConflict found.1 binding
    | none => pure ()
    return (insertKey controllerId ⟨sessionGeneration, binding⟩ found.1, some controllerId)

def parseSnapshot (allowlist : ControllerAllowlist) (maximumActiveBindings : ℕ)
    (snapshot : Text) : Except WatchdogError RegistryState := do
  if maximumActiveBindings = 0 ∨ maximumWatchdogTargets < maximumActiveBindings then
    throw (controllerError "controller registry snapshot framing is invalid")
  let body ← validatedSnapshotBody snapshot
  match splitTerminator 10 body with
  | schema :: version :: installation :: digest :: rest =>
    if schema ≠ text "schema=li_watchdog.controller-registry" ∨ version ≠ text "version=1" ∨
        stripPrefix (text "installation_id=") installation ≠ some allowlist.installationId ∨
        stripPrefix (text "allowlist_sha256=") digest ≠ some allowlist.sha256 then
      throw (controllerError "controller registry snapshot identity is invalid")
    match rest.head?.bind (stripPrefix (text "revision=")) with
    | none => throw (controllerError "controller registry snapshot revision is missing")
    | some value =>
      let revision ← parsePositive value "controller registry snapshot revision is invalid"
      let found ← rest.tail.foldlM (parseEntry allowlist) ([], none)
      if maximumActiveBindings < activeBindingCount found.1 ∨ revision ≤ found.1.length then
        throw (controllerError "controller registry snapshot exceeds its bound")
      return ⟨revision, found.1, none⟩
  | _ => throw (controllerError "controller registry snapshot identity is invalid")

/-- A snapshot of the first revision without any entry, of whichever installation. -/
def isEmptyInitialSnapshot (snapshot : Text) : Bool :=
  match validatedSnapshotBody snapshot with
  | .error _ => false
  | .ok body =>
    match splitTerminator 10 body with
    | [schema, version, installation, digest, revision] =>
      schema = text "schema=li_watchdog.controller-registry" ∧ version = text "version=1" ∧
        ((stripPrefix (text "installation_id=") installation).any fun value =>
          isLowerHex value installationIdBytes) ∧
        ((stripPrefix (text "allowlist_sha256=") digest).any fun value =>
          isLowerHex value controllerFingerprintBytes) ∧
        revision = text "revision=1"
    | _ => false

/-! ### The registry and its file -/

/-- A commit that fails, before or after the file was replaced. -/
structure CommitFault where
  replaced : Bool
  error : WatchdogError
  deriving DecidableEq

/-- Replaces the stored text if it is the expected one. After the replacement the directory is
    synchronized and the file is read once more, and either may still fail. -/
def commitSnapshot (expected : Option Text) (snapshot : Text) (fault : Option CommitFault)
    (stored : Option Text) : Except WatchdogError Unit × Option Text :=
  if snapshot = [] ∨ controllerSnapshotMaxBytes < snapshot.length then
    (.error (snapshotError "snapshot replacement bytes are invalid"), stored)
  else if stored ≠ expected then (.error (snapshotError "snapshot revision conflicts"), stored)
  else match fault with
    | none => (.ok (), some snapshot)
    | some fault => (.error fault.error, if fault.replaced then some snapshot else stored)

structure Registry where
  allowlist : ControllerAllowlist
  maximumActiveBindings : ℕ
  state : RegistryState

namespace Registry

def activeBindings (registry : Registry) : List ControllerBinding :=
  registry.state.entries.filterMap fun entry => entry.2.binding

/-- Writes a state under an allowlist over what this registry wrote last. -/
def persist (registry : Registry) (allowlist : ControllerAllowlist) (candidate : RegistryState)
    (fault : Option CommitFault) (stored : Option Text) :
    Except WatchdogError Registry × Option Text :=
  match encodeSnapshot allowlist candidate with
  | .error error => (.error error, stored)
  | .ok snapshot =>
    let outcome := commitSnapshot registry.state.persistedSnapshot snapshot fault stored
    (outcome.1.map fun _ => ⟨allowlist, registry.maximumActiveBindings,
      { candidate with persistedSnapshot := some snapshot }⟩, outcome.2)

/-- The state that a restart begins with, and whether it replaces an empty snapshot. -/
def loadState (allowlist : ControllerAllowlist) (maximumActiveBindings : ℕ)
    (stored : Option Text) : Except WatchdogError (RegistryState × Bool) :=
  match stored with
  | none => .ok (⟨1, [], none⟩, false)
  | some snapshot =>
    match parseSnapshot allowlist maximumActiveBindings snapshot with
    | .ok state => .ok (state, false)
    | .error error =>
      if isEmptyInitialSnapshot snapshot then .ok (⟨1, [], none⟩, true) else .error error

/-- A restart; reading the file may fail, and so may the commit of a first snapshot. -/
def openPersistent (allowlist : ControllerAllowlist) (maximumActiveBindings : ℕ)
    (loadFault : Option WatchdogError) (fault : Option CommitFault) (stored : Option Text) :
    Except WatchdogError Registry × Option Text :=
  match validateRegistryBound maximumActiveBindings, loadFault with
  | .error error, _ | .ok (), some error => (.error error, stored)
  | .ok (), none =>
    match loadState allowlist maximumActiveBindings stored with
    | .error error => (.error error, stored)
    | .ok (state, replacesEmptyBootstrap) =>
      match encodeSnapshot allowlist state with
      | .error error => (.error error, stored)
      | .ok canonical =>
        let opened : Registry := ⟨allowlist, maximumActiveBindings,
          { state with persistedSnapshot := some canonical }⟩
        if stored.isSome ∧ replacesEmptyBootstrap = false then
          if stored ≠ some canonical then
            (.error (controllerError "controller registry snapshot is not canonical"), stored)
          else (.ok opened, stored)
        else
          let outcome := commitSnapshot stored canonical fault stored
          (outcome.1.map fun _ => opened, outcome.2)

/-- Whether a binding is the one that its controller has; it must not be older. -/
def replays (existing : Option ControllerEntry) (binding : ControllerBinding) :
    Except WatchdogError Bool :=
  match existing with
  | none => .ok false
  | some entry =>
    if binding.sessionGeneration < entry.sessionGeneration then
      .error (controllerError "controller session generation is stale")
    else if binding.sessionGeneration = entry.sessionGeneration then
      match entry.binding with
      | some current =>
        if current = binding then .ok true
        else .error (controllerError "controller session generation conflicts")
      | none => .error (controllerError "controller session generation is retired")
    else .ok false

/-- What `apply` does before it writes: the kind of the mutation and the new state, which is none
    for a replay. -/
def applyCandidate (registry : Registry) (binding : ControllerBinding) (expectedRevision : ℕ) :
    Except WatchdogError (MutationKind × Option RegistryState) := do
  if !registry.allowlist.authorizes binding.controllerId binding.certificateSha256 then
    throw (controllerError "controller is not authorized")
  requireRevision registry.state.revision expectedRevision
  let existing := lookupKey binding.controllerId registry.state.entries
  let replayed ← replays existing binding
  if replayed then return (.replayed, none)
  rejectTargetConflict registry.state.entries binding
  let replacingActive := existing.any fun entry => entry.binding.isSome
  if !replacingActive ∧
      registry.maximumActiveBindings ≤ activeBindingCount registry.state.entries then
    throw (controllerError "controller registry is full")
  let revision ← nextRevision registry.state.revision
  let entries := insertKey binding.controllerId ⟨binding.sessionGeneration, some binding⟩
    registry.state.entries
  return (if existing.isSome then .advanced else .created,
    some { registry.state with revision := revision, entries := entries })

/-- What `retire` does before it writes. -/
def retireCandidate (registry : Registry) (controllerId : Text) (sessionGeneration : ℕ)
    (expectedRevision : ℕ) : Except WatchdogError (MutationKind × Option RegistryState) := do
  if !isLowerHex controllerId controllerIdBytes ∨ sessionGeneration = 0 then
    throw (controllerError "controller retirement identity is invalid")
  if (lookupKey controllerId registry.allowlist.controllers).isNone then
    throw (controllerError "controller is not authorized")
  requireRevision registry.state.revision expectedRevision
  match lookupKey controllerId registry.state.entries with
  | none => throw (controllerError "controller session generation is stale")
  | some entry =>
    if sessionGeneration < entry.sessionGeneration then
      throw (controllerError "controller session generation is stale")
    if entry.sessionGeneration < sessionGeneration then
      throw (controllerError "controller session generation conflicts")
    if entry.binding.isNone then return (.replayed, none)
    let revision ← nextRevision registry.state.revision
    let entries := insertKey controllerId { entry with binding := none } registry.state.entries
    return (.retired, some { registry.state with revision := revision, entries := entries })

/-- The state under another allowlist: entries stay if their pair is authorized. -/
def replacementCandidate (registry : Registry) (allowlist : ControllerAllowlist) :
    Except WatchdogError RegistryState := do
  if allowlist.installationId ≠ registry.allowlist.installationId then
    throw (controllerError "controller replacement installation identity differs")
  validateRegistryBound registry.maximumActiveBindings
  let entries := registry.state.entries.filter fun entry =>
    ((entry.2.binding.map (·.certificateSha256)).or
      (lookupKey entry.1 registry.allowlist.controllers)).any fun certificate =>
        allowlist.authorizes entry.1 certificate
  let revision ← nextRevision registry.state.revision
  return { registry.state with revision := revision, entries := entries }

/-- Commits what a mutation computed; a replay commits nothing. -/
def commitCandidate (registry : Registry)
    (outcome : Except WatchdogError (MutationKind × Option RegistryState))
    (fault : Option CommitFault) (stored : Option Text) :
    Except WatchdogError (MutationKind × Registry) × Option Text :=
  match outcome with
  | .error error => (.error error, stored)
  | .ok (kind, none) => (.ok (kind, registry), stored)
  | .ok (kind, some candidate) =>
    let written := registry.persist registry.allowlist candidate fault stored
    (written.1.map fun next => (kind, next), written.2)

end Registry

end LetsInfer.Watchdog
