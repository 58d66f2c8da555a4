import LetsInfer.Authentication.Store

/-! @src core/authentication/src/li_authentication_manager.rs | name:Authentication manager
      | scheme:programs

    The operations of the manager as programs over the key store, the clock and the source of random
    bytes. Every operation on a key reads its record, computes the record that shall follow and
    writes it under the revision it has read; a lost race shows as a conflict. Several managers may
    work on one store: their calls run side by side, one store operation at a time. -/

namespace LetsInfer.Authentication
open Schemes Interface Database

inductive AuthenticationEvent where
  | apiKeyCreated (keyId : ApiKeyId)
  | apiKeyRevoked (keyId : ApiKeyId)
  | apiKeyRotated (revokedKeyId replacementKeyId : ApiKeyId)
  | apiKeyPolicyUpdated (keyId : ApiKeyId)
  deriving DecidableEq

/-- A value and the event of the change that made it, if there was one. -/
structure AuthenticationChange (α : Type) where
  value : α
  event : Option AuthenticationEvent

structure RandomMaterial where
  identifier : Block 16
  secret : Block 32
  salt : Block 16

structure GeneratedApiKeyMaterial where
  keyId : ApiKeyId
  secret : Block 32
  salt : Block 16

inductive Operation where
  | now
  | fill
  | read (keyId : ApiKeyId)
  | create (record : AuthenticationRecord)
  | replace (record : AuthenticationRecord) (expectedRevision : UInt64)
  | rotate (revoked : AuthenticationRecord) (expectedRevision : UInt64)
      (replacement : AuthenticationRecord)

abbrev Operation.Answer : Operation → Type
  | .now => Except AuthenticationError ℕ
  | .fill => Except AuthenticationError RandomMaterial
  | .read _ => Except AuthenticationStoreError (Option VersionedAuthenticationRecord)
  | .create _ => Except AuthenticationStoreError VersionedAuthenticationRecord
  | .replace _ _ => Except AuthenticationStoreError VersionedAuthenticationRecord
  | .rotate _ _ _ => Except AuthenticationStoreError AuthenticationRotation

abbrev Program (α : Type) := ExceptT AuthenticationError (Prog Operation Operation.Answer) α

/-! ### Store, clock and random bytes -/

def Program.ofExcept {α : Type} (x : Except AuthenticationError α) : Program α := .mk (.done x)

def operate (operation : Operation) : Prog Operation Operation.Answer operation.Answer :=
  Prog.ask operation

def now : Program ℕ := .mk (operate .now)

def fill : Program RandomMaterial := .mk (operate .fill)

/-- An answer of the store, with its error as one of the manager. -/
def Program.ofStore {α : Type} (x : Prog Operation Operation.Answer
    (Except AuthenticationStoreError α)) : Program α := do
  match ← ExceptT.lift x with
  | .ok a => return a
  | .error error => throw (.store error)

def generateMaterial : Program GeneratedApiKeyMaterial := do
  let material ← fill
  let keyId ← Program.ofExcept
    ((ApiKeyId.parse (hexEncode material.identifier.1)).mapError .interface)
  return ⟨keyId, material.secret, material.salt⟩

/-- A read has to give the key that was asked for, at a committed revision. -/
def requireReadRecord (stored : VersionedAuthenticationRecord) (expectedKeyId : ApiKeyId) :
    Except AuthenticationError Unit :=
  if stored.revision = 0 ∨ stored.record.apiKey.keyId ≠ expectedKeyId then
    .error (.store .corrupt)
  else .ok ()

def requireCommittedRecord (stored : VersionedAuthenticationRecord)
    (expected : AuthenticationRecord) (priorRevision : UInt64) : Except AuthenticationError Unit :=
  if stored.record ≠ expected ∨ stored.revision ≤ priorRevision then .error (.store .corrupt)
  else .ok ()

/-- The present record of a key; `missing` is the error if there is none. -/
def requiredRecord (keyId : ApiKeyId) (missing : AuthenticationError) :
    Program VersionedAuthenticationRecord := do
  match ← Program.ofStore (operate (.read keyId)) with
  | none => throw missing
  | some current => do
    Program.ofExcept (requireReadRecord current keyId)
    return current

/-! ### Records that follow -/

/-- A record with another name, policy and revocation; everything else is kept. -/
def changedRecord (record : AuthenticationRecord) (name : DisplayName) (policy : ApiKeyPolicy)
    (revokedAt : Option ℕ) : Except AuthenticationError AuthenticationRecord := do
  let apiKey ← ApiKey.new record.apiKey.keyId name policy record.apiKey.createdAt revokedAt
    record.apiKey.rotatedFrom
  return ⟨apiKey, record.salt, record.verifier⟩

def revokedRecord (record : AuthenticationRecord) (revokedAt : ℕ) :
    Except AuthenticationError AuthenticationRecord :=
  changedRecord record record.apiKey.name record.apiKey.policy (some revokedAt)

def revokedRecordWithName (record : AuthenticationRecord) (archivedName : Option DisplayName)
    (revokedAt : ℕ) : Except AuthenticationError AuthenticationRecord :=
  changedRecord record (archivedName.getD record.apiKey.name) record.apiKey.policy (some revokedAt)

def policyRecord (record : AuthenticationRecord) (policy : ApiKeyPolicy) :
    Except AuthenticationError AuthenticationRecord :=
  changedRecord record record.apiKey.name policy record.apiKey.revokedAt

/-- The last character boundary up to a position. -/
def charBoundaryBelow (text : Interface.Octets) : ℕ → ℕ
  | 0 => 0
  | position + 1 =>
    if isCharBoundary text (position + 1) then position + 1 else charBoundaryBelow text position

def archivedRotationName (apiKey : ApiKey) : Except AuthenticationError DisplayName :=
  let suffix := utf8 "-revoked-" ++ apiKey.keyId.asStr
  let maximumPrefixBytes := maxDisplayNameBytes - suffix.length
  let prefixEnd := charBoundaryBelow apiKey.name.asStr
    (min apiKey.name.asStr.length maximumPrefixBytes)
  (DisplayName.parse (apiKey.name.asStr.take prefixEnd ++ suffix)).mapError .interface

/-! ### The operations of the manager -/

section Manager

variable (sha256 : Interface.Octets → Block 32)

def newRecord (apiKey : ApiKey) (material : GeneratedApiKeyMaterial) : AuthenticationRecord :=
  ⟨apiKey, material.salt, apiKeyVerifier sha256 material.salt material.secret⟩

def create (name : DisplayName) (policy : ApiKeyPolicy) :
    Program (AuthenticationChange IssuedApiKey) := do
  let created ← now
  let material ← generateMaterial
  let apiKey ← Program.ofExcept (ApiKey.new material.keyId name policy created none none)
  let record := newRecord sha256 apiKey material
  let stored ← Program.ofStore (operate (.create record))
  Program.ofExcept (requireCommittedRecord stored record 0)
  return ⟨⟨apiKey, material.secret⟩, some (.apiKeyCreated material.keyId)⟩

/-- What a replacement gives: the committed record, or after a lost race the record that is there
    now if it is as wanted. -/
def replaceOrObserve (keyId : ApiKeyId) (wanted : AuthenticationRecord) (revision : UInt64)
    (event : AuthenticationEvent) (asWanted : ApiKey → Bool) :
    Program (AuthenticationChange ApiKey) := do
  match ← ExceptT.lift (operate (.replace wanted revision)) with
  | .ok stored => do
    Program.ofExcept (requireCommittedRecord stored wanted revision)
    return ⟨stored.record.apiKey, some event⟩
  | .error .conflict => do
    let observed ← requiredRecord keyId .notFound
    if asWanted observed.record.apiKey then return ⟨observed.record.apiKey, none⟩
    else throw (.store .conflict)
  | .error error => throw (.store error)

def updatePolicy (keyId : ApiKeyId) (policy : ApiKeyPolicy) :
    Program (AuthenticationChange ApiKey) := do
  let current ← requiredRecord keyId .notFound
  if current.record.apiKey.revokedAt.isSome then throw .notFound
  else if current.record.apiKey.policy = policy then return ⟨current.record.apiKey, none⟩
  else do
    let updated ← Program.ofExcept (policyRecord current.record policy)
    replaceOrObserve keyId updated current.revision (.apiKeyPolicyUpdated keyId) fun observed =>
      observed.revokedAt.isNone && decide (observed.policy = updated.apiKey.policy)

def revoke (keyId : ApiKeyId) : Program (AuthenticationChange ApiKey) := do
  let revokedAt ← now
  let current ← requiredRecord keyId .notFound
  if current.record.apiKey.revokedAt.isSome then return ⟨current.record.apiKey, none⟩
  else do
    let revoked ← Program.ofExcept (revokedRecord current.record revokedAt)
    replaceOrObserve keyId revoked current.revision (.apiKeyRevoked keyId) fun observed =>
      observed.revokedAt.isSome

def rotateRecord (current : VersionedAuthenticationRecord) (replacementName : DisplayName)
    (archivedName : Option DisplayName) : Program (AuthenticationChange IssuedApiKey) := do
  let rotatedAt ← now
  let keyId := current.record.apiKey.keyId
  let material ← generateMaterial
  let replacement ← Program.ofExcept (ApiKey.new material.keyId replacementName
    current.record.apiKey.policy rotatedAt none (some keyId))
  let replacementRecord := newRecord sha256 replacement material
  let revoked ← Program.ofExcept (revokedRecordWithName current.record archivedName rotatedAt)
  let rotation ← Program.ofStore
    (operate (.rotate revoked current.revision replacementRecord))
  Program.ofExcept (requireCommittedRecord rotation.revoked revoked current.revision)
  Program.ofExcept (requireCommittedRecord rotation.replacement replacementRecord 0)
  return ⟨⟨replacement, material.secret⟩, some (.apiKeyRotated keyId material.keyId)⟩

def activeRecord (keyId : ApiKeyId) : Program VersionedAuthenticationRecord := do
  let current ← requiredRecord keyId .notFound
  if current.record.apiKey.revokedAt.isSome then throw .notFound else return current

def rotate (keyId : ApiKeyId) (replacementName : DisplayName) :
    Program (AuthenticationChange IssuedApiKey) := do
  let current ← activeRecord keyId
  rotateRecord sha256 current replacementName none

def rotatePreservingName (keyId : ApiKeyId) : Program (AuthenticationChange IssuedApiKey) := do
  let current ← activeRecord keyId
  let archivedName ← Program.ofExcept (archivedRotationName current.record.apiKey)
  rotateRecord sha256 current current.record.apiKey.name (some archivedName)

/-- What the manager says to a secret, given the record of its key and the time. -/
def verdict (record : AuthenticationRecord) (secret : Block 32) (time : ℕ) :
    Except AuthenticationError AuthenticationPrincipal :=
  if record.apiKey.revokedAt.isSome || record.apiKey.policy.expiresAt.any (· ≤ time) then
    .error .unauthorized
  else if record.verifier = apiKeyVerifier sha256 record.salt secret then
    .ok ⟨record.apiKey.keyId, record.apiKey.policy⟩
  else .error .unauthorized

def authenticateIdentity (token : Interface.Octets) : Program AuthenticationPrincipal := do
  match ParsedApiKey.parse token with
  | none => throw .unauthorized
  | some parsed => do
    let stored ← requiredRecord parsed.keyId .unauthorized
    let time ← now
    Program.ofExcept (verdict sha256 stored.record parsed.secret time)

def authenticate (token : Interface.Octets) (model : LogicalModelName) :
    Program AuthenticationPrincipal := do
  let principal ← authenticateIdentity sha256 token
  if principal.policy.modelScope.permits model then return principal else throw .unauthorized

/-! ### Managers side by side -/

inductive Request where
  | create (name : DisplayName) (policy : ApiKeyPolicy)
  | updatePolicy (keyId : ApiKeyId) (policy : ApiKeyPolicy)
  | rotate (keyId : ApiKeyId) (replacementName : DisplayName)
  | rotatePreservingName (keyId : ApiKeyId)
  | revoke (keyId : ApiKeyId)
  | authenticateIdentity (token : Interface.Octets)
  | authenticate (token : Interface.Octets) (model : LogicalModelName)

inductive Response where
  | issued (result : Except AuthenticationError (AuthenticationChange IssuedApiKey))
  | key (result : Except AuthenticationError (AuthenticationChange ApiKey))
  | principal (result : Except AuthenticationError AuthenticationPrincipal)

def requestProgram : Request → Prog Operation Operation.Answer Response
  | .create name policy => Response.issued <$> (create sha256 name policy).run
  | .updatePolicy keyId policy => Response.key <$> (updatePolicy keyId policy).run
  | .rotate keyId name => Response.issued <$> (rotate sha256 keyId name).run
  | .rotatePreservingName keyId => Response.issued <$> (rotatePreservingName sha256 keyId).run
  | .revoke keyId => Response.key <$> (revoke keyId).run
  | .authenticateIdentity token => Response.principal <$> (authenticateIdentity sha256 token).run
  | .authenticate token model => Response.principal <$> (authenticate sha256 token model).run

structure ManagerEnvironment where
  clock : Except AuthenticationError ℕ
  material : Except AuthenticationError RandomMaterial
  store : StoreEnvironment

/-- One operation of a manager on the database. -/
def perform (sha : Sha256) (json : AuthenticationJson) (environment : ManagerEnvironment)
    (store : Store) : (operation : Operation) → operation.Answer × Store
  | .now => (environment.clock, store)
  | .fill => (environment.material, store)
  | .read keyId => (storeRead json environment.store store keyId, store)
  | .create record => storeCreate sha json environment.store store record
  | .replace record expected => storeReplace sha json environment.store store record expected
  | .rotate revoked expected replacement =>
    storeRotate sha json environment.store store revoked expected replacement

abbrev AuthenticationMachine := Machine Operation Operation.Answer Response Store Request

def authenticationStep (sha : Sha256) (json : AuthenticationJson) :
    AuthenticationMachine → Move Request ManagerEnvironment →
      Option (AuthenticationMachine × Option (Request × Response)) :=
  machineStep (requestProgram sha256) (perform sha json)

end Manager

end LetsInfer.Authentication
