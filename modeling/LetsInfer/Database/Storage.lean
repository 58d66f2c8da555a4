import LetsInfer.Schemes.Maps
import LetsInfer.Schemes.Framing
import LetsInfer.Schemes.Checks
import LetsInfer.Schemes.Runs

/-! @src core/database/src/li_database_storage.rs | name:Database writer | scheme:lts

    The one writer of the database. A submission is a command or a transaction under an idempotency
    key; what it did is kept under that key together with a digest of what was asked for. A command
    saves or deletes one record under a condition on its revision. SQLite is its two tables: a
    transaction takes effect as a whole or not at all. SHA-256 is a parameter. -/

namespace LetsInfer.Database
open Schemes

abbrev Octets := List UInt8

/-! ### Values -/

inductive DatabaseCollection where
  | authentication
  | auditCheckpoints
  | auditEvents
  | auditReplays
  | auditState
  | benchmarks
  | benchmarkHandoffs
  | commandAuditSessions
  | configuration
  | controllers
  | coreUpdateServiceSnapshots
  | coreUpdates
  | gatewayExposure
  | gatewayUsage
  | hardwareObservations
  | modelLifecycles
  | runtimeInstallations
  | nodes
  | operations
  | outbox
  | pairings
  | pairingReplays
  | peerCredentials
  | placements
  | services
  deriving DecidableEq

def DatabaseCollection.storageName : DatabaseCollection → Octets
  | .authentication => utf8 "authentication"
  | .auditCheckpoints => utf8 "audit_checkpoints"
  | .auditEvents => utf8 "audit_events"
  | .auditReplays => utf8 "audit_replays"
  | .auditState => utf8 "audit_state"
  | .benchmarks => utf8 "benchmarks"
  | .benchmarkHandoffs => utf8 "benchmark_handoffs"
  | .commandAuditSessions => utf8 "command_audit_sessions"
  | .configuration => utf8 "configuration"
  | .controllers => utf8 "controllers"
  | .coreUpdateServiceSnapshots => utf8 "core_update_service_snapshots"
  | .coreUpdates => utf8 "core_updates"
  | .gatewayExposure => utf8 "gateway_exposure"
  | .gatewayUsage => utf8 "gateway_usage"
  | .hardwareObservations => utf8 "hardware_observations"
  | .modelLifecycles => utf8 "model_lifecycles"
  | .runtimeInstallations => utf8 "runtime_installations"
  | .nodes => utf8 "nodes"
  | .operations => utf8 "operations"
  | .outbox => utf8 "outbox"
  | .pairings => utf8 "pairings"
  | .pairingReplays => utf8 "pairing_replays"
  | .peerCredentials => utf8 "peer_credentials"
  | .placements => utf8 "placements"
  | .services => utf8 "services"

/-- The revision a mutation expects of its record. -/
inductive DatabaseRevision where
  | any
  | missing
  | exact (revision : UInt64)
  deriving DecidableEq

inductive DatabaseError where
  | invalidInput (field reason : String)
  | notFound (collection : DatabaseCollection) (identifier : Octets)
  | conflict (collection : DatabaseCollection) (identifier : Octets) (expected : DatabaseRevision)
      (observed : Option ℕ)
  | idempotencyConflict (idempotencyKey : Octets)
  | corrupt (reason : String)
  | unavailable (reason : String)
  | closed
  deriving DecidableEq

/-- One change of one record. -/
inductive DatabaseMutation where
  | created
  | updated
  | deleted
  deriving DecidableEq

/-- What a mutation was committed as. -/
structure DatabaseCommit where
  idempotencyKey : Octets
  collection : DatabaseCollection
  identifier : Octets
  mutation : DatabaseMutation
  revision : ℕ
  committedAtUnixMilliseconds : ℕ
  deriving DecidableEq

def maxIdentifierBytes : ℕ := 255

def maxRecordBytes : ℕ := 1024 * 1024

def maxTransactionMutations : ℕ := 256

/-- SQLite integers are below it, and so is every stored revision. -/
def sqlIntegerBound : ℕ := 2 ^ 63

inductive CommandBody where
  | save (payload : Octets)
  | delete
  deriving DecidableEq

/-- A command whose public contract was checked. -/
structure PreparedCommand where
  collection : DatabaseCollection
  recordVersion : UInt32
  identifier : Octets
  body : CommandBody
  idempotencyKey : Octets
  expectedRevision : DatabaseRevision
  version_ne : recordVersion ≠ 0
  identifier_length : 0 < identifier.length ∧ identifier.length ≤ maxIdentifierBytes
  payload_length : ∀ payload, body = .save payload → payload.length ≤ maxRecordBytes

/-- Mutations of different records under one key. -/
structure DatabaseTransaction where
  idempotencyKey : Octets
  commands : List PreparedCommand
  same_key : ∀ command ∈ commands, command.idempotencyKey = idempotencyKey
  length_le : commands.length ≤ maxTransactionMutations
  targets_nodup : (commands.map fun command => (command.collection, command.identifier)).Nodup

/-! ### Digests -/

structure Sha256 where
  hash : Octets → Octets
  length_hash : ∀ input, (hash input).length = 64

def revisionBytes : DatabaseRevision → Octets
  | .any => utf8 "any"
  | .missing => utf8 "missing"
  | .exact revision => utf8 "exact:" ++ decimal revision.toNat

def PreparedCommand.digestFields (command : PreparedCommand) : List Octets :=
  match command.body with
  | .save payload =>
    [utf8 "save", command.collection.storageName, beBytes 4 command.recordVersion.toNat,
      command.identifier, revisionBytes command.expectedRevision, payload]
  | .delete =>
    [utf8 "delete", command.collection.storageName, beBytes 4 command.recordVersion.toNat,
      command.identifier, revisionBytes command.expectedRevision]

def PreparedCommand.digest (sha : Sha256) (command : PreparedCommand) : Octets :=
  sha.hash (frame command.digestFields)

def transactionFields (sha : Sha256) (commands : List PreparedCommand) : List Octets :=
  utf8 "transaction" :: beBytes 8 commands.length :: commands.map (·.digest sha)

def transactionDigest (sha : Sha256) (commands : List PreparedCommand) : Octets :=
  sha.hash (frame (transactionFields sha commands))

/-! ### The tables -/

/-- One stored record, or what is left of a deleted one. -/
structure Row where
  recordVersion : UInt32
  revision : ℕ
  payload : Octets
  createdAt : ℕ
  updatedAt : ℕ
  revision_bounds : 0 < revision ∧ revision < sqlIntegerBound
  deriving DecidableEq

abbrev Records := DatabaseCollection → SortedMap Octets Row

/-- What a key gave: the commit of a command or the commits of a transaction. -/
inductive StoredResult where
  | single (commit : DatabaseCommit)
  | batch (commits : List DatabaseCommit)
  deriving DecidableEq

/-- The records, and the keys with the results they stand for. -/
structure Store where
  records : Records
  keys : SortedMap Octets (Octets × StoredResult)

def Store.blank : Store := ⟨fun _ => .empty, .empty⟩

def Records.row (records : Records) (collection : DatabaseCollection) (identifier : Octets) :
    Option Row := (records collection).lookup identifier

def Records.put (records : Records) (collection : DatabaseCollection) (identifier : Octets)
    (row : Row) : Records :=
  Function.update records collection ((records collection).insert identifier row)

def Records.remove (records : Records) (collection : DatabaseCollection) (identifier : Octets) :
    Records := Function.update records collection ((records collection).erase identifier)

/-! ### Commands -/

/-- The record stands at the expected revision. -/
def requireRevision (collection : DatabaseCollection) (identifier : Octets)
    (expected : DatabaseRevision) (observed : Option ℕ) : Except DatabaseError Unit :=
  let isValid := match expected with
    | .any => true
    | .missing => observed.isNone
    | .exact revision => decide (observed = some revision.toNat)
  if isValid then .ok () else .error (.conflict collection identifier expected observed)

def versionError : DatabaseError :=
  .corrupt "stored record version does not match its typed contract"

/-- A revision above the range of SQLite is refused. -/
def saveRecord (records : Records) (command : PreparedCommand) (payload : Octets)
    (observedAt : ℕ) : Except DatabaseError (DatabaseCommit × Records) := do
  let existing := records.row command.collection command.identifier
  requireRevision command.collection command.identifier command.expectedRevision
    (existing.map (·.revision))
  match existing with
  | some row =>
    if row.recordVersion ≠ command.recordVersion then throw versionError
    if h : row.revision + 1 < sqlIntegerBound then
      let committedAt := max observedAt row.updatedAt
      return (⟨command.idempotencyKey, command.collection, command.identifier, .updated,
        row.revision + 1, committedAt⟩,
        records.put command.collection command.identifier ⟨row.recordVersion, row.revision + 1,
          payload, row.createdAt, committedAt, Nat.succ_pos _, h⟩)
    else throw (.invalidInput "revision" "revision exceeds the SQLite integer range")
  | none =>
    return (⟨command.idempotencyKey, command.collection, command.identifier, .created, 1,
      observedAt⟩,
      records.put command.collection command.identifier ⟨command.recordVersion, 1, payload,
        observedAt, observedAt, Nat.one_pos, Nat.one_lt_two_pow (Nat.succ_ne_zero 62)⟩)

def deleteRecord (records : Records) (command : PreparedCommand) (observedAt : ℕ) :
    Except DatabaseError (DatabaseCommit × Records) :=
  match records.row command.collection command.identifier with
  | none => .error (.notFound command.collection command.identifier)
  | some row => do
    if row.recordVersion ≠ command.recordVersion then throw versionError
    requireRevision command.collection command.identifier command.expectedRevision
      (some row.revision)
    return (⟨command.idempotencyKey, command.collection, command.identifier, .deleted,
      row.revision + 1, max observedAt row.updatedAt⟩,
      records.remove command.collection command.identifier)

/-- One command in a transaction of the database. -/
def applyCommand (records : Records) (command : PreparedCommand) (observedAt : ℕ) :
    Except DatabaseError (DatabaseCommit × Records) :=
  match command.body with
  | .save payload => saveRecord records command payload observedAt
  | .delete => deleteRecord records command observedAt

/-- One mutation after those before it. -/
def applyNext (observedAt : ℕ) (found : List DatabaseCommit × Records)
    (command : PreparedCommand) : Except DatabaseError (List DatabaseCommit × Records) := do
  let (commit, records) ← applyCommand found.2 command observedAt
  return (found.1 ++ [commit], records)

/-! ### The writer -/

/-- What a write meets: the answer of the clock, and whether SQLite commits. -/
structure WriterEnvironment where
  clock : Except DatabaseError ℤ
  fault : Option DatabaseError

def WriterEnvironment.observe (environment : WriterEnvironment) : Except DatabaseError ℕ := do
  let observedAt ← environment.clock
  if observedAt < 0 then throw (.unavailable "commit clock returned a negative timestamp")
  return observedAt.toNat

/-- What is handed to the writer. -/
inductive Submission where
  | command (command : PreparedCommand)
  | transaction (transaction : DatabaseTransaction)

def Submission.idempotencyKey : Submission → Octets
  | .command prepared => prepared.idempotencyKey
  | .transaction batch => batch.idempotencyKey

/-- How a submission ends. -/
inductive WriteOutcome where
  | applied (result : StoredResult)
  | replayed (result : StoredResult)
  | failed (error : DatabaseError)
  deriving DecidableEq

/-- Stores the result of new mutations in the transaction that made them. -/
def commitResult (store : Store) (key digest : Octets)
    (outcome : Except DatabaseError (StoredResult × Records)) (fault : Option DatabaseError) :
    WriteOutcome × Store :=
  match outcome, fault with
  | .error error, _ | .ok _, some error => (.failed error, store)
  | .ok (result, records), none =>
    (.applied result, ⟨records, store.keys.insert key (digest, result)⟩)

def executeCommand (sha : Sha256) (store : Store) (command : PreparedCommand)
    (environment : WriterEnvironment) : WriteOutcome × Store :=
  match store.keys.lookup command.idempotencyKey with
  | some (digest, result) =>
    if digest = command.digest sha then
      match result with
      | .single commit => (.replayed (.single commit), store)
      | .batch _ => (.failed (.corrupt "stored idempotency result is invalid"), store)
    else (.failed (.idempotencyConflict command.idempotencyKey), store)
  | none =>
    commitResult store command.idempotencyKey (command.digest sha) (do
      let observedAt ← environment.observe
      let (commit, records) ← applyCommand store.records command observedAt
      return (.single commit, records)) environment.fault

def executeTransaction (sha : Sha256) (store : Store) (transaction : DatabaseTransaction)
    (environment : WriterEnvironment) : WriteOutcome × Store :=
  if transaction.commands = [] then
    (.failed (.invalidInput "transaction" "transaction must contain at least one mutation"),
      store)
  else if transaction.commands.any fun command =>
      decide (command.idempotencyKey ≠ transaction.idempotencyKey) then
    (.failed (.corrupt "transaction mutation has a different replay identity"), store)
  else
    match store.keys.lookup transaction.idempotencyKey with
    | some (digest, result) =>
      if digest = transactionDigest sha transaction.commands then
        match result with
        | .batch commits => (.replayed (.batch commits), store)
        | .single _ => (.failed (.corrupt "stored transaction result is invalid"), store)
      else (.failed (.idempotencyConflict transaction.idempotencyKey), store)
    | none =>
      commitResult store transaction.idempotencyKey (transactionDigest sha transaction.commands)
        (do
          let observedAt ← environment.observe
          let (commits, records) ←
            transaction.commands.foldlM (applyNext observedAt) ([], store.records)
          return (.batch commits, records)) environment.fault

/-- The writer, on one submission. -/
def execute (sha : Sha256) (store : Store) :
    Submission × WriterEnvironment → WriteOutcome × Store
  | (.command command, environment) => executeCommand sha store command environment
  | (.transaction transaction, environment) =>
    executeTransaction sha store transaction environment

/-- The writer takes every submission it is sent. -/
def writerStep (sha : Sha256) (store : Store) (label : Submission × WriterEnvironment) :
    Option (Store × WriteOutcome) :=
  some ((execute sha store label).2, (execute sha store label).1)

end LetsInfer.Database
