import LetsInfer.Audit.Contract
import LetsInfer.Schemes.Json
import LetsInfer.Schemes.Fields

/-! @src core/audit/src/li_audit_cryptography.rs, li_audit_manager.rs | name:Hash chain of events
      | scheme:fold

    Every event carries the hash of its predecessor and a hash of its own over that hash and its
    canonical JSON. The verifier walks the ledger once: positions, identities, the node, the links,
    the hashes, and a checkpoint wherever the policy asks for one. -/

namespace LetsInfer.Audit
open Schemes Interface List

/-! ### Canonical bytes -/

def optionalString (value : Option Octets) : JsonScalar := value.elim .null .string

def canonicalMapBytes (fields : List (Octets × JsonScalar)) : Octets := jsonObject fields ++ [10]

/-- The fields of an event in the order of their names. -/
def eventFields (event : AuditEvent) : List (Octets × JsonScalar) :=
  [(utf8 "action", .string event.action.asStr),
    (utf8 "actor_id", .string event.actor.identifier.asStr),
    (utf8 "actor_type", .string event.actor.kind.asStr),
    (utf8 "after_sha256", optionalString (event.afterSha256.map (·.asStr))),
    (utf8 "before_sha256", optionalString (event.beforeSha256.map (·.asStr))),
    (utf8 "correlation_id", .string event.correlationId.asStr),
    (utf8 "event_id", .string event.eventId.asStr),
    (utf8 "node_id", .string event.nodeId.asStr),
    (utf8 "origin_interface", .string event.origin.interface.asStr),
    (utf8 "origin_node_id", .string event.origin.nodeId.asStr),
    (utf8 "outcome", .string event.outcome.asStr),
    (utf8 "previous_hash", .string event.previousHash.asStr),
    (utf8 "reason", optionalString (event.reason.map (·.asStr))),
    (utf8 "target", .string event.target.asStr),
    (utf8 "timestamp_unix_ns", .number event.timestamp.value)]

def canonicalEventBytes (event : AuditEvent) : Octets := canonicalMapBytes (eventFields event)

/-! ### Hashes -/

theorem isLowerHex_digestText (dig : Bytes 32) : isLowerHex (hexEncode dig.bytes) 64 = true := by
  have h := isLowerHex_hexEncode dig.bytes
  rwa [dig.length_eq] at h

/-- A digest in lowercase hexadecimal, which its parser always accepts. -/
def digestText (digest : Bytes 32) : Sha256Digest :=
  ⟨hexEncode digest.bytes, isLowerHex_digestText digest⟩

theorem isLowerHex_genesis : isLowerHex (replicate 64 48) 64 = true := by decide

/-- `AUDIT_GENESIS_HASH`: all zeros. -/
def genesisHash : Sha256Digest := ⟨replicate 64 48, isLowerHex_genesis⟩

def decodeSha256 (value : Sha256Digest) : Except AuditError Octets :=
  match hexDecode value.asStr with
  | some bytes => .ok bytes
  | none => .error (.invalidInput "audit hash" "digest contains invalid hexadecimal text")

section Hashes

variable (sha256 : Octets → Bytes 32)

/-- The hash of an event over the raw hash before it and its canonical bytes. -/
def eventSha256 (event : AuditEvent) : Except AuditError Sha256Digest := do
  let previous ← decodeSha256 event.previousHash
  return digestText (sha256 (previous ++ canonicalEventBytes event))

/-! ### Verification -/

/-- The identity, the policy and the verifier that a manager was made with. -/
structure AuditManager where
  nodeId : NodeId
  checkpointPolicy : AuditCheckpointPolicy
  verify : Octets → Octets → Except AuditError Bool

def verifyCheckpoint (manager : AuditManager) (event : AuditEvent) (checkpoint : AuditCheckpoint) :
    Except AuditError Unit := do
  if checkpoint.sequence ≠ event.sequence ∨ checkpoint.eventHash ≠ event.eventHash then
    throw (.integrity (.checkpointHash event.sequence))
  if checkpoint.createdAt.value < event.timestamp.value then
    throw (.integrity (.checkpointTime event.sequence))
  let accepted ← manager.verify checkpoint.eventHash.asStr checkpoint.signature
  if !accepted then throw (.integrity (.checkpointSignature event.sequence))

/-- An entry has a checkpoint exactly if one is due; how many it has. -/
def checkpointCount (manager : AuditManager) (sequence : ℕ) (entry : AuditLedgerEntry) :
    Except AuditError ℕ :=
  match manager.checkpointPolicy.requiresCheckpoint sequence, entry.checkpoint with
  | true, none => .error (.integrity (.checkpointMissing sequence))
  | false, some _ => .error (.integrity (.checkpointUnexpected sequence))
  | true, some checkpoint => do
    verifyCheckpoint manager entry.event checkpoint
    return 1
  | false, none => .ok 0

/-- The checks on one entry, and how many checkpoints it has. -/
def verifyEntry (manager : AuditManager) (sequence : ℕ) (previousHash : Sha256Digest)
    (eventIds : List AuditEventId) (entry : AuditLedgerEntry) : Except AuditError ℕ := do
  let event := entry.event
  if event.sequence ≠ sequence then throw (.integrity (.sequence event.sequence))
  if event.eventId ∈ eventIds then throw (.integrity (.eventIdentity sequence))
  if event.nodeId ≠ manager.nodeId then throw (.integrity (.node sequence))
  if event.previousHash ≠ previousHash then throw (.integrity (.previousHash sequence))
  let eventHash ← eventSha256 sha256 event
  if eventHash ≠ event.eventHash then throw (.integrity (.eventHash sequence))
  checkpointCount manager sequence entry

/-- The loop of the verifier over the entries from an index on. -/
def verifyEntries (manager : AuditManager) : ℕ → Sha256Digest → List AuditEventId → ℕ →
    List AuditLedgerEntry → Except AuditError (Sha256Digest × ℕ)
  | _, previousHash, _, checkpoints, [] => .ok (previousHash, checkpoints)
  | index, previousHash, eventIds, checkpoints, entry :: entries => do
    if index + 1 ≥ 2 ^ 64 then throw (.integrity (.sequence (2 ^ 64 - 1)))
    let found ← verifyEntry sha256 manager (index + 1) previousHash eventIds entry
    verifyEntries manager (index + 1) entry.event.eventHash (entry.event.eventId :: eventIds)
      (checkpoints + found) entries

def verifyLedger (manager : AuditManager) (ledger : AuditLedger) :
    Except AuditError AuditVerification := do
  let (head, checkpoints) ← verifyEntries sha256 manager 0 genesisHash [] 0 ledger.entries
  return ⟨ledger.entries.length, checkpoints, head⟩

end Hashes

/-! ### What verification establishes -/

variable {seq : ℕ} {ent : AuditLedgerEntry} {previousHash : Sha256Digest}
  {eventIds : List AuditEventId} {es : List AuditLedgerEntry}

variable {sha : Octets → Bytes 32} {mgr : AuditManager}

theorem decodeSha256_ok (v : Sha256Digest) : ∃ bs, decodeSha256 v = .ok bs ∧
    bs.length = 32 ∧ hexEncode bs = v.asStr := by
  obtain ⟨hlen, hall⟩ := Bool.and_eq_true_iff.mp v.valid
  obtain ⟨bs, hdec, hbs, henc⟩ :=
    hexDecode_of_all (n := 32) (beq_iff_eq.mp hlen) hall
  exact ⟨bs, by rw [decodeSha256, hdec], hbs, henc⟩

theorem eventSha256_ok (sha : Octets → Bytes 32) (ev : AuditEvent) : ∃ prev,
    decodeSha256 ev.previousHash = .ok prev ∧
      eventSha256 sha ev = .ok (digestText (sha (prev ++ canonicalEventBytes ev))) := by
  obtain ⟨prev, hdec, -⟩ := decodeSha256_ok ev.previousHash
  exact ⟨prev, hdec, by rw [eventSha256, hdec]; rfl⟩

/-- The entry has the checkpoint that the policy asks for, and that is in order. -/
def CheckpointFits (manager : AuditManager) (sequence : ℕ) (entry : AuditLedgerEntry) : Prop :=
  match manager.checkpointPolicy.requiresCheckpoint sequence, entry.checkpoint with
  | true, some checkpoint => verifyCheckpoint manager entry.event checkpoint = .ok ()
  | false, none => True
  | _, _ => False

theorem checkpointCount_ok_iff : (∃ found, checkpointCount mgr seq ent = .ok found) ↔
      CheckpointFits mgr seq ent := by
  rw [CheckpointFits]
  fun_cases checkpointCount mgr seq ent with
  | case1 hno hdue => simp [hdue, hno]
  | case2 checkpoint hsome hdue => simp [hdue, hsome]
  | case3 checkpoint hsome hdue =>
    rw [hdue, hsome]
    cases hver : verifyCheckpoint mgr ent.event checkpoint <;> simp [hver]
  | case4 hno hdue => simp [hdue, hno]

theorem verifyEntry_ok_iff :
    (∃ found, verifyEntry sha mgr seq previousHash eventIds ent = .ok found) ↔
      ent.event.sequence = seq ∧ ent.event.eventId ∉ eventIds ∧ ent.event.nodeId = mgr.nodeId ∧
        ent.event.previousHash = previousHash ∧
        eventSha256 sha ent.event = .ok ent.event.eventHash ∧ CheckpointFits mgr seq ent := by
  rw [← checkpointCount_ok_iff]
  constructor
  · rintro ⟨found, h⟩
    obtain ⟨hseq, h⟩ := throw_if_ok_iff.mp h
    obtain ⟨hid, h⟩ := throw_if_ok_iff.mp h
    obtain ⟨hnode, h⟩ := throw_if_ok_iff.mp h
    obtain ⟨hprv, h⟩ := throw_if_ok_iff.mp h
    obtain ⟨eventHash, hhash, h⟩ := bind_ok_iff.mp h
    obtain ⟨hequ, h⟩ := throw_if_ok_iff.mp h
    exact ⟨not_not.mp hseq, hid, not_not.mp hnode, not_not.mp hprv,
      not_not.mp hequ ▸ hhash, found, h⟩
  · rintro ⟨hseq, hid, hnode, hprv, hhash, found, h⟩
    refine ⟨found, throw_if_ok_iff.mpr ⟨not_not.mpr hseq, ?_⟩⟩
    refine throw_if_ok_iff.mpr ⟨hid, throw_if_ok_iff.mpr ⟨not_not.mpr hnode, ?_⟩⟩
    refine throw_if_ok_iff.mpr ⟨not_not.mpr hprv, ?_⟩
    exact bind_ok_iff.mpr ⟨_, hhash, throw_if_ok_iff.mpr ⟨not_not.mpr rfl, h⟩⟩

theorem verifyEntries_append (idx checkpoints : ℕ) (previousHash : Sha256Digest)
    (eventIds : List AuditEventId) (es es' : List AuditLedgerEntry) :
    verifyEntries sha mgr idx previousHash eventIds checkpoints (es ++ es') =
      (verifyEntries sha mgr idx previousHash eventIds checkpoints es >>= fun found =>
        verifyEntries sha mgr (idx + es.length) found.1
          ((es.map (·.event.eventId)).reverse ++ eventIds) found.2 es') := by
  induction es generalizing idx previousHash eventIds checkpoints with
  | nil => rfl
  | cons ent es ih =>
    rw [cons_append, verifyEntries, verifyEntries]
    split_ifs with hlar
    · rfl
    · cases verifyEntry sha mgr (idx + 1) previousHash eventIds ent with
      | error e => rfl
      | ok found =>
        simp only [ok_bind, ih, map_cons, reverse_cons, append_assoc, singleton_append, length_cons]
        have hidx : idx + 1 + es.length = idx + (es.length + 1) := by omega
        rw [hidx]

theorem verifyEntries_head {idx checkpoints : ℕ} {found : Sha256Digest × ℕ}
    (h : verifyEntries sha mgr idx previousHash eventIds checkpoints es = .ok found) :
    found.1 = es.getLast?.elim previousHash (·.event.eventHash) := by
  induction es generalizing idx previousHash eventIds checkpoints with
  | nil =>
    cases h
    rfl
  | cons ent es ih =>
    obtain ⟨-, h⟩ := throw_if_ok_iff.mp h
    obtain ⟨n, -, h⟩ := bind_ok_iff.mp h
    rw [ih h]
    cases es with
    | nil => rfl
    | cons next rest => rw [getLast?_cons_cons, getLast?_cons, Option.elim_some, Option.elim_some]

/-- The hash that the next event links to. -/
def headHash (entries : List AuditLedgerEntry) : Sha256Digest :=
  entries.getLast?.elim genesisHash (·.event.eventHash)

theorem headHash_concat (es : List AuditLedgerEntry) (ent : AuditLedgerEntry) :
    headHash (es ++ [ent]) = ent.event.eventHash := by
  rw [headHash, getLast?_concat, Option.elim_some]

/-- The verifier accepts the entries. -/
def Verified (sha256 : Octets → Bytes 32) (manager : AuditManager)
    (entries : List AuditLedgerEntry) : Prop :=
  ∃ found, verifyEntries sha256 manager 0 genesisHash [] 0 entries = .ok found

theorem verifyLedger_ok_iff {ldg : AuditLedger} :
    (∃ verification, verifyLedger sha mgr ldg = .ok verification) ↔
      Verified sha mgr ldg.entries := by
  rw [verifyLedger, Verified]
  cases verifyEntries sha mgr 0 genesisHash [] 0 ldg.entries <;> simp

/-- STEP: a ledger with one entry more is accepted if it was before and the entry fits behind. -/
theorem verified_concat_iff :
    Verified sha mgr (es ++ [ent]) ↔ Verified sha mgr es ∧ es.length + 1 < 2 ^ 64 ∧
      ent.event.sequence = es.length + 1 ∧ ent.event.eventId ∉ es.map (·.event.eventId) ∧
      ent.event.nodeId = mgr.nodeId ∧ ent.event.previousHash = headHash es ∧
      eventSha256 sha ent.event = .ok ent.event.eventHash ∧ CheckpointFits mgr
      (es.length + 1) ent := by
  have hlast : ∀ found : Sha256Digest × ℕ, verifyEntries sha mgr 0 genesisHash [] 0 es = .ok found →
      ((∃ found', verifyEntries sha mgr (0 + es.length) found.1
          ((es.map (·.event.eventId)).reverse ++ []) found.2 [ent] = .ok found') ↔
        es.length + 1 < 2 ^ 64 ∧ ∃ n, verifyEntry sha mgr (es.length + 1)
          (headHash es) (es.map (·.event.eventId)).reverse ent = .ok n) := by
    intro found hfd
    rw [Nat.zero_add, append_nil, verifyEntries_head hfd, ← headHash]
    constructor
    · rintro ⟨found', h⟩
      obtain ⟨hlar, h⟩ := throw_if_ok_iff.mp h
      obtain ⟨n, hcnt, -⟩ := bind_ok_iff.mp h
      exact ⟨not_le.mp hlar, n, hcnt⟩
    · rintro ⟨hlar, n, hcnt⟩
      exact ⟨_, throw_if_ok_iff.mpr ⟨not_le.mpr hlar, bind_ok_iff.mpr ⟨n, hcnt, rfl⟩⟩⟩
  rw [Verified, verifyEntries_append, Verified]
  cases hens : verifyEntries sha mgr 0 genesisHash [] 0 es with
  | error e => simp
  | ok found =>
    simp only [ok_bind, Except.ok.injEq, exists_eq', true_and, hlast found hens,
      verifyEntry_ok_iff, mem_reverse]

end LetsInfer.Audit
