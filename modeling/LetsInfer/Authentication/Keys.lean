import LetsInfer.Interface.Values
import LetsInfer.Database.Typed
import LetsInfer.Schemes.Programs

/-! @src core/authentication/src/li_api_key.rs, li_authentication_store.rs,
      li_authentication_cryptography.rs, li_authentication_error.rs, li_authentication_event.rs
      core/node/src/li_authentication_database.rs | name:API keys | scheme:refinement

    API keys, the record that the node keeps of each of them, its projection onto the fields of a
    database record, and the key store over the database. The token of a key is made of its identity
    and its secret; of the secret only a salted hash is kept. -/

namespace LetsInfer.Authentication
open Schemes Interface Database

abbrev Block (n : ℕ) := {bytes : Interface.Octets // bytes.length = n}

inductive AuthenticationStoreError where
  | conflict
  | corrupt
  | unavailable
  deriving DecidableEq

inductive AuthenticationError where
  | interface (error : InterfaceError)
  | invalidPolicy (reason : String)
  | notFound
  | unauthorized
  | entropyUnavailable
  | store (error : AuthenticationStoreError)
  deriving DecidableEq

/-! ### Keys and their policies -/

def maxModelScopes : ℕ := 128

/-- A non-empty bounded list of different models. -/
structure SelectedModels where
  models : List LogicalModelName
  ne : models ≠ []
  length_le : models.length ≤ maxModelScopes
  nodup : models.Nodup
  deriving DecidableEq

inductive ApiKeyModelScope where
  | all
  | selected (models : SelectedModels)
  deriving DecidableEq

def ApiKeyModelScope.ofSelected (models : List LogicalModelName) :
    Except AuthenticationError ApiKeyModelScope :=
  if h : models ≠ [] ∧ models.length ≤ maxModelScopes ∧ models.Nodup then
    .ok (.selected ⟨models, h.1, h.2.1, h.2.2⟩)
  else .error (.invalidPolicy "selected model scopes must be non-empty, unique, and bounded")

def ApiKeyModelScope.permits (scope : ApiKeyModelScope) (model : LogicalModelName) : Bool :=
  match scope with
  | .all => true
  | .selected models => models.models.contains model

def ApiKeyModelScope.selectedModels : ApiKeyModelScope → Option (List LogicalModelName)
  | .all => none
  | .selected models => some models.models

structure ApiKeyLimits where
  requestsPerMinute : Option ℕ+
  tokensPerMinute : Option ℕ+
  concurrency : Option ℕ+
  contextTokens : Option ℕ+
  deriving DecidableEq

structure ApiKeyPolicy where
  modelScope : ApiKeyModelScope
  expiresAt : Option ℕ
  limits : ApiKeyLimits
  tenant : Option TechnicalName
  application : Option TechnicalName
  deriving DecidableEq

/-- The metadata of a key: it expires after its creation and is not revoked before it. -/
structure ApiKey where
  keyId : ApiKeyId
  name : DisplayName
  policy : ApiKeyPolicy
  createdAt : ℕ
  revokedAt : Option ℕ
  rotatedFrom : Option ApiKeyId
  expires_after : policy.expiresAt.all (createdAt < ·) = true
  revoked_after : revokedAt.all (createdAt ≤ ·) = true
  deriving DecidableEq

def ApiKey.new (keyId : ApiKeyId) (name : DisplayName) (policy : ApiKeyPolicy) (createdAt : ℕ)
    (revokedAt : Option ℕ) (rotatedFrom : Option ApiKeyId) : Except AuthenticationError ApiKey :=
  if hexpires : policy.expiresAt.all (createdAt < ·) = true then
    if hrevoked : revokedAt.all (createdAt ≤ ·) = true then
      .ok ⟨keyId, name, policy, createdAt, revokedAt, rotatedFrom, hexpires, hrevoked⟩
    else .error (.invalidPolicy "revocation cannot precede API-key creation")
  else .error (.invalidPolicy "expiration must follow API-key creation")

structure AuthenticationPrincipal where
  keyId : ApiKeyId
  policy : ApiKeyPolicy
  deriving DecidableEq

/-- A key with its secret, presented once. -/
structure IssuedApiKey where
  apiKey : ApiKey
  secret : Block 32

def tokenStart : Interface.Octets := utf8 "li_"

/-- The bearer token `li_<id>_<secret>`. -/
def IssuedApiKey.takeToken (issued : IssuedApiKey) : Interface.Octets :=
  tokenStart ++ issued.apiKey.keyId.asStr ++ 95 :: hexEncode issued.secret.1

structure ParsedApiKey where
  keyId : ApiKeyId
  secret : Block 32

def decodeHexadecimal (length : ℕ) (value : Interface.Octets) : Option (Block length) :=
  match hexDecode value with
  | none => none
  | some bytes => if h : bytes.length = length then some ⟨bytes, h⟩ else none

def ParsedApiKey.parse (token : Interface.Octets) : Option ParsedApiKey := do
  let value ← stripPrefix tokenStart token
  let (identifier, secret) ← splitOnce 95 value
  if secret.contains 95 then none
  else do
    let keyId ← (ApiKeyId.parse identifier).toOption
    let secret ← decodeHexadecimal 32 secret
    return ⟨keyId, secret⟩

/-! ### Records -/

structure AuthenticationRecord where
  apiKey : ApiKey
  salt : Block 16
  verifier : Block 32
  deriving DecidableEq

structure VersionedAuthenticationRecord where
  record : AuthenticationRecord
  revision : UInt64

structure AuthenticationRotation where
  revoked : VersionedAuthenticationRecord
  replacement : VersionedAuthenticationRecord

def verifierDomain : Interface.Octets := utf8 "letsinfer-api-key-v1" ++ [0]

/-- The salted hash that is kept of a secret; `sha256` is the hash. -/
def apiKeyVerifier (sha256 : Interface.Octets → Block 32) (salt : Block 16) (secret : Block 32) :
    Block 32 := sha256 (verifierDomain ++ salt.1 ++ secret.1)

/-! ### Database records -/

def authenticationRecordSchemaName : Interface.Octets := utf8 "li_authentication_record"

def authenticationRecordSchemaVersion : ℕ := 1

structure AuthenticationDatabaseSchema where
  name : Interface.Octets
  version : ℕ

structure AuthenticationDatabaseRecord where
  schema : AuthenticationDatabaseSchema
  keyId : Interface.Octets
  name : Interface.Octets
  selectedModels : Option (List Interface.Octets)
  expiresAtUnixMilliseconds : Option ℕ
  requestsPerMinute : Option ℕ
  tokensPerMinute : Option ℕ
  concurrency : Option ℕ
  contextTokens : Option ℕ
  tenant : Option Interface.Octets
  application : Option Interface.Octets
  createdAtUnixMilliseconds : ℕ
  revokedAtUnixMilliseconds : Option ℕ
  rotatedFrom : Option Interface.Octets
  salt : Block 16
  verifier : Block 32

def authenticationDatabaseRecord (record : AuthenticationRecord) : AuthenticationDatabaseRecord where
  schema := ⟨authenticationRecordSchemaName, authenticationRecordSchemaVersion⟩
  keyId := record.apiKey.keyId.asStr
  name := record.apiKey.name.asStr
  selectedModels := record.apiKey.policy.modelScope.selectedModels.map (·.map (·.asStr))
  expiresAtUnixMilliseconds := record.apiKey.policy.expiresAt
  requestsPerMinute := record.apiKey.policy.limits.requestsPerMinute.map (·.val)
  tokensPerMinute := record.apiKey.policy.limits.tokensPerMinute.map (·.val)
  concurrency := record.apiKey.policy.limits.concurrency.map (·.val)
  contextTokens := record.apiKey.policy.limits.contextTokens.map (·.val)
  tenant := record.apiKey.policy.tenant.map (·.asStr)
  application := record.apiKey.policy.application.map (·.asStr)
  createdAtUnixMilliseconds := record.apiKey.createdAt
  revokedAtUnixMilliseconds := record.apiKey.revokedAt
  rotatedFrom := record.apiKey.rotatedFrom.map (·.asStr)
  salt := record.salt
  verifier := record.verifier

/-- Any failure of a step means a damaged record. -/
def orCorrupt {ε α : Type} : Except ε α → Except AuthenticationStoreError α
  | .ok a => .ok a
  | .error _ => .error .corrupt

def modelScopeOf : Option (List Interface.Octets) → Except AuthenticationStoreError ApiKeyModelScope
  | none => .ok .all
  | some models => do
    let names ← models.mapM fun model => orCorrupt (TechnicalName.parse model)
    orCorrupt (ApiKeyModelScope.ofSelected names)

def positive (value : Option ℕ) : Option ℕ+ :=
  value.bind fun n => if h : 0 < n then some ⟨n, h⟩ else none

def optionalText {α : Type} (parse : Interface.Octets → Except InterfaceError α) :
    Option Interface.Octets → Except AuthenticationStoreError (Option α)
  | none => .ok none
  | some value => (orCorrupt (parse value)).map some

def authenticationRecord (record : AuthenticationDatabaseRecord) :
    Except AuthenticationStoreError AuthenticationRecord := do
  if record.schema.name ≠ authenticationRecordSchemaName ∨
      record.schema.version ≠ authenticationRecordSchemaVersion then throw .corrupt
  let modelScope ← modelScopeOf record.selectedModels
  if record.requestsPerMinute = some 0 ∨ record.tokensPerMinute = some 0 ∨
      record.concurrency = some 0 ∨ record.contextTokens = some 0 then throw .corrupt
  let tenant ← optionalText TechnicalName.parse record.tenant
  let application ← optionalText TechnicalName.parse record.application
  let keyId ← orCorrupt (ApiKeyId.parse record.keyId)
  let name ← orCorrupt (DisplayName.parse record.name)
  let rotatedFrom ← optionalText ApiKeyId.parse record.rotatedFrom
  let apiKey ← orCorrupt (ApiKey.new keyId name
    ⟨modelScope, record.expiresAtUnixMilliseconds, ⟨positive record.requestsPerMinute,
      positive record.tokensPerMinute, positive record.concurrency,
      positive record.contextTokens⟩, tenant, application⟩
    record.createdAtUnixMilliseconds record.revokedAtUnixMilliseconds rotatedFrom)
  return ⟨apiKey, record.salt, record.verifier⟩

theorem orCorrupt_ok_iff {ε α : Type} {x : Except ε α} {a : α} :
    orCorrupt x = .ok a ↔ x = .ok a := by
  cases x <;> simp [orCorrupt]

theorem optionalText_map {check : Interface.Octets → Bool}
    {parse : Interface.Octets → Except InterfaceError (Checked check)}
    (hprs : ∀ v : Checked check, parse v.asStr = .ok v) (v : Option (Checked check)) :
    optionalText parse (v.map (·.asStr)) = .ok v := by
  cases v with
  | none => rfl
  | some v =>
    rw [Option.map_some, optionalText, hprs]
    rfl

theorem positive_map (v : Option ℕ+) : positive (v.map (·.val)) = v := by
  cases v with
  | none => rfl
  | some n => exact dif_pos n.pos

theorem modelScopeOf_selectedModels (scope : ApiKeyModelScope) :
    modelScopeOf (scope.selectedModels.map (·.map (·.asStr))) = .ok scope := by
  cases scope with
  | all => rfl
  | selected models =>
    have hnms : (models.models.map (·.asStr)).mapM
        (fun model => orCorrupt (TechnicalName.parse model)) = .ok models.models := by
      rw [mapM_ok_iff, List.forall₂_map_left_iff]
      refine List.forall₂_same.mpr fun name _ => ?_
      exact orCorrupt_ok_iff.mpr (TechnicalName.parse_asStr name)
    rw [ApiKeyModelScope.selectedModels, Option.map_some, modelScopeOf, hnms]
    show orCorrupt (ApiKeyModelScope.ofSelected models.models) = _
    rw [orCorrupt_ok_iff, ApiKeyModelScope.ofSelected,
      dif_pos ⟨models.ne, models.length_le, models.nodup⟩]

theorem ApiKey.new_self (key : ApiKey) : ApiKey.new key.keyId key.name key.policy key.createdAt
    key.revokedAt key.rotatedFrom = .ok key := by
  rw [ApiKey.new, dif_pos key.expires_after, dif_pos key.revoked_after]

/-- ROUND TRIP: the database fields of a record give the record back. -/
theorem authenticationRecord_databaseRecord (r : AuthenticationRecord) :
    authenticationRecord (authenticationDatabaseRecord r) = .ok r := by
  rw [authenticationRecord]
  refine throw_if_ok_iff.mpr ⟨?_, ?_⟩
  · simp [authenticationDatabaseRecord]
  refine bind_ok_iff.mpr ⟨_, modelScopeOf_selectedModels _, ?_⟩
  refine throw_if_ok_iff.mpr ⟨?_, ?_⟩
  · simp [authenticationDatabaseRecord]
  refine bind_ok_iff.mpr ⟨_, optionalText_map TechnicalName.parse_asStr _, ?_⟩
  refine bind_ok_iff.mpr ⟨_, optionalText_map TechnicalName.parse_asStr _, ?_⟩
  refine bind_ok_iff.mpr ⟨_, orCorrupt_ok_iff.mpr (ApiKeyId.parse_asStr _), ?_⟩
  refine bind_ok_iff.mpr ⟨_, orCorrupt_ok_iff.mpr (DisplayName.parse_asStr _), ?_⟩
  refine bind_ok_iff.mpr ⟨_, optionalText_map ApiKeyId.parse_asStr _, ?_⟩
  refine bind_ok_iff.mpr ⟨r.apiKey, orCorrupt_ok_iff.mpr ?_, rfl⟩
  simp only [authenticationDatabaseRecord, positive_map]
  exact ApiKey.new_self r.apiKey

end LetsInfer.Authentication
