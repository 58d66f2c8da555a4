import LetsInfer.Interface.Values
import LetsInfer.Schemes.Checks

/-! @src core/audit/src/li_audit_contract.rs, li_audit_store.rs | name:Audit contract | scheme:records

    The values of the audit chain. Events, checkpoints and ledger entries can only be built the way
    the constructors of the source build them: what those check are fields here. -/

namespace LetsInfer.Audit
open Schemes Interface

def maxActorIdBytes : ℕ := 128

def maxCheckpointSignatureBytes : ℕ := 4096

def maxTargetBytes : ℕ := 255

/-- The largest number of the signed 64-bit range. -/
def maxSigned : ℕ := 2 ^ 63 - 1

/-! ### Errors -/

/-- What a verification finds wrong, with the sequence of the entry. -/
inductive AuditIntegrityError where
  | sequence (sequence : ℕ)
  | eventIdentity (sequence : ℕ)
  | node (sequence : ℕ)
  | previousHash (sequence : ℕ)
  | eventHash (sequence : ℕ)
  | checkpointMissing (sequence : ℕ)
  | checkpointUnexpected (sequence : ℕ)
  | checkpointHash (sequence : ℕ)
  | checkpointTime (sequence : ℕ)
  | checkpointSignature (sequence : ℕ)
  deriving DecidableEq

inductive AuditStoreError where
  | conflict
  | replayConflict
  | unavailable
  | corrupt
  deriving DecidableEq

inductive AuditError where
  | invalidInput (field reason : String)
  | notFound
  | idempotencyConflict
  | contention
  | exportLimitExceeded
  | provider (capability reason : String)
  | store (error : AuditStoreError)
  | integrity (error : AuditIntegrityError)
  deriving DecidableEq

/-! ### Texts -/

def isAsciiAlphanumeric (byte : UInt8) : Bool :=
  (48 ≤ byte && byte ≤ 57) || (65 ≤ byte && byte ≤ 90) || (97 ≤ byte && byte ≤ 122)

/-- Bounded text of letters, digits and the given marks. -/
def isSafeText (marks : List UInt8) (value : Octets) (maximumBytes : ℕ) : Bool :=
  !value.isEmpty && value.length ≤ maximumBytes &&
    value.all fun byte => isAsciiAlphanumeric byte || marks.contains byte

/-- `is_safe_principal`. -/
def isSafePrincipal : Octets → ℕ → Bool := isSafeText (utf8 "._-@")

/-- `is_safe_target`. -/
def isSafeTarget : Octets → ℕ → Bool := isSafeText (utf8 "._-@:/")

def asciiLowercase (value : Octets) : Octets :=
  value.map fun byte => if 65 ≤ byte && byte ≤ 90 then byte + 32 else byte

/-- `str::contains`. -/
def containsText (needle value : Octets) : Bool := value.tails.any fun tail => needle.isPrefixOf tail

/-- The common envelopes of secrets. -/
def containsSecretMarker (value : Octets) : Bool :=
  let lowercase := asciiLowercase value
  (utf8 "bearer").isPrefixOf lowercase || (utf8 "sk-").isPrefixOf lowercase ||
    containsText (utf8 "private_key") lowercase || containsText (utf8 "private-key") lowercase ||
    containsText (utf8 "-----begin") lowercase

abbrev AuditEventId := Checked fun value => isLowerHex value 32

abbrev AuditCorrelationId := Checked fun value => isLowerHex value 32

/-- A principal that names no secret. -/
abbrev AuditActorId :=
  Checked fun value => isSafePrincipal value maxActorIdBytes && !containsSecretMarker value

abbrev AuditTarget :=
  Checked fun value => isSafeTarget value maxTargetBytes && !containsSecretMarker value

abbrev AuditAction := TechnicalName

abbrev AuditReason := TechnicalName

/-! ### Times, actors and origins -/

@[ext] structure AuditUnixNanoseconds where
  value : ℕ
  bounds : 0 < value ∧ value ≤ maxSigned
  deriving DecidableEq

inductive AuditActorType where
  | localUser
  | controller
  | nodeCandidate
  | node
  | system
  deriving DecidableEq

def AuditActorType.asStr : AuditActorType → Octets
  | .localUser => utf8 "local-user"
  | .controller => utf8 "controller"
  | .nodeCandidate => utf8 "node-candidate"
  | .node => utf8 "node"
  | .system => utf8 "system"

@[ext] structure AuditActor where
  kind : AuditActorType
  identifier : AuditActorId
  deriving DecidableEq

inductive AuditOriginInterface where
  | cli
  | controller
  | pairing
  | gateway
  | node
  | system
  deriving DecidableEq

def AuditOriginInterface.asStr : AuditOriginInterface → Octets
  | .cli => utf8 "cli"
  | .controller => utf8 "controller"
  | .pairing => utf8 "pairing"
  | .gateway => utf8 "gateway"
  | .node => utf8 "node"
  | .system => utf8 "system"

@[ext] structure AuditOrigin where
  nodeId : NodeId
  interface : AuditOriginInterface
  deriving DecidableEq

inductive AuditOutcome where
  | success
  | denied
  | failed
  deriving DecidableEq

def AuditOutcome.asStr : AuditOutcome → Octets
  | .success => utf8 "success"
  | .denied => utf8 "denied"
  | .failed => utf8 "failed"

/-- A reason is given exactly for what did not succeed. -/
def ReasonFits (outcome : AuditOutcome) (reason : Option AuditReason) : Prop :=
  outcome = .success ↔ reason = none

/-! ### Events and checkpoints -/

@[ext] structure AuditEvent where
  sequence : ℕ
  eventId : AuditEventId
  correlationId : AuditCorrelationId
  timestamp : AuditUnixNanoseconds
  nodeId : NodeId
  actor : AuditActor
  origin : AuditOrigin
  action : AuditAction
  target : AuditTarget
  beforeSha256 : Option Sha256Digest
  afterSha256 : Option Sha256Digest
  outcome : AuditOutcome
  reason : Option AuditReason
  previousHash : Sha256Digest
  eventHash : Sha256Digest
  sequence_bounds : 0 < sequence ∧ sequence ≤ maxSigned
  reason_fits : ReasonFits outcome reason
  deriving DecidableEq

/-- A signed head of the chain. -/
structure AuditCheckpoint where
  sequence : ℕ
  eventHash : Sha256Digest
  signature : Octets
  createdAt : AuditUnixNanoseconds
  sequence_bounds : 0 < sequence ∧ sequence ≤ maxSigned
  signature_length : 0 < signature.length ∧ signature.length ≤ maxCheckpointSignatureBytes
  deriving DecidableEq

/-- A checkpoint is due every so many events. -/
structure AuditCheckpointPolicy where
  interval : ℕ
  bounds : 0 < interval ∧ interval ≤ 10000

def AuditCheckpointPolicy.requiresCheckpoint (policy : AuditCheckpointPolicy) (sequence : ℕ) :
    Bool := sequence ≠ 0 && sequence % policy.interval == 0

/-- What a verified ledger comes to. -/
structure AuditVerification where
  events : ℕ
  checkpoints : ℕ
  headSha256 : Sha256Digest
  deriving DecidableEq

/-! ### The ledger -/

/-- A checkpoint is about its own event. -/
def Binds (event : AuditEvent) (checkpoint : Option AuditCheckpoint) : Bool :=
  checkpoint.all fun value => value.sequence == event.sequence && value.eventHash == event.eventHash

/-- An event, with the checkpoint that binds it. -/
structure AuditLedgerEntry where
  event : AuditEvent
  checkpoint : Option AuditCheckpoint
  binds : Binds event checkpoint = true
  deriving DecidableEq

/-- The entries in their order; the revision is their number. -/
structure AuditLedger where
  entries : List AuditLedgerEntry
  revision : ℕ
  revision_eq : entries.length = revision
  deriving DecidableEq

end LetsInfer.Audit
