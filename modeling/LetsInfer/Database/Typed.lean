import LetsInfer.Database.Revisions
import LetsInfer.Schemes.Scalars

/-! @src core/database/src/li_database_manager.rs, li_database_transaction.rs,
      li_database_storage.rs | name:Typed records | scheme:refinement

    The managers of the node keep typed records in the database: a record type says its collection
    and version, how a record is named and how it is written in bytes. Reading, saving and
    transactions of such records are given here, with what they do to the tables seen as cells, one
    for each name: version, revision and bytes. The writing in bytes is that of the JSON library; all
    that is asked of it is that it reads back what it wrote. -/

namespace LetsInfer.Database
open Schemes List Option

/-- A type of records: what its trait says, and its encoding. -/
structure RecordContract (ρ : Type) where
  collection : DatabaseCollection
  version : UInt32
  identifier : ρ → Octets
  toVec : ρ → Octets
  fromSlice : Octets → Option ρ
  version_ne : version ≠ 0
  fromSlice_toVec : ∀ record, fromSlice (toVec record) = some record

def maxIdempotencyKeyBytes : ℕ := 255

/-- The checks that record names and replay keys share. -/
def validateText (field noun : String) (maximum : ℕ) (value : Octets) :
    Except DatabaseError Unit := do
  if value.isEmpty || value.length > maximum then
    throw (.invalidInput field (noun ++ " must contain between 1 and 255 bytes"))
  if !isTrimmed value || (scalars value).any isControl then
    throw (.invalidInput field (noun ++ " must be canonical and contain no control characters"))

def validateIdentifier : Octets → Except DatabaseError Unit :=
  validateText "identifier" "identifier" maxIdentifierBytes

def validateIdempotencyKey : Octets → Except DatabaseError Unit :=
  validateText "idempotency key" "key" maxIdempotencyKeyBytes

variable {ρ : Type} {f noun : String} {mx : ℕ} {val ident : Octets} {sha : Sha256}
  {store' : Store} {rs rs' : Records}

theorem validateText_ok (h : validateText f noun mx val = .ok ()) :
    0 < val.length ∧ val.length ≤ mx := by
  obtain ⟨hlen, -⟩ := throw_if_ok_iff.mp h
  simp only [List.isEmpty_iff, Bool.or_eq_true, decide_eq_true_eq, not_or, gt_iff_lt,
    not_lt] at hlen
  exact ⟨length_pos_iff.mpr hlen.1, hlen.2⟩

theorem validateText_visible (hpos : 0 < val.length) (hmax : val.length ≤ mx)
    (hvis : ∀ byte ∈ val, 0x21 ≤ byte ∧ byte < 0x7F) : validateText f noun mx val = .ok () := by
  obtain ⟨htri, hcon⟩ := plain_of_visible hvis
  have hne : val ≠ [] := length_pos_iff.mp hpos
  refine throw_if_ok_iff.mpr ⟨by simp [hne, hmax], ?_⟩
  refine throw_if_ok_iff.mpr ⟨by simp [htri, hcon], rfl⟩

def recordTooLarge : DatabaseError :=
  .invalidInput "record" "encoded record exceeds the size limit"

def validatedName (identifier : Octets) : Except DatabaseError
    {name : Octets // 0 < name.length ∧ name.length ≤ maxIdentifierBytes} :=
  match h : validateIdentifier identifier with
  | .error error => .error error
  | .ok () => .ok ⟨identifier, validateText_ok h⟩

/-- `prepare_command` on a save. -/
def prepareSave (contract : RecordContract ρ) (idempotencyKey : Octets) (record : ρ)
    (expected : DatabaseRevision) : Except DatabaseError PreparedCommand := do
  let name ← validatedName (contract.identifier record)
  validateIdempotencyKey idempotencyKey
  if h : (contract.toVec record).length ≤ maxRecordBytes then
    return ⟨contract.collection, contract.version, name.1, .save (contract.toVec record),
      idempotencyKey, expected, contract.version_ne, name.2,
      fun _ hbody => (CommandBody.save.inj hbody) ▸ h⟩
  else throw recordTooLarge

structure DatabaseStoredRecord (ρ : Type) where
  value : ρ
  revision : ℕ

/-- One stored row, read as a record of its type. -/
def decodeRecord (contract : RecordContract ρ) (identifier : Octets)
    (row : Row) : Except DatabaseError (DatabaseStoredRecord ρ) := do
  if row.recordVersion ≠ contract.version then throw versionError
  match contract.fromSlice row.payload with
  | none => throw (.corrupt "stored record payload is invalid")
  | some value =>
    if contract.identifier value ≠ identifier then
      throw (.corrupt "stored record identity does not match its payload")
    return ⟨value, row.revision⟩

def readOne (contract : RecordContract ρ) (store : Store) (identifier : Octets) :
    Except DatabaseError (DatabaseStoredRecord ρ) := do
  validateIdentifier identifier
  match store.records.row contract.collection identifier with
  | none => throw (.notFound contract.collection identifier)
  | some row => decodeRecord contract identifier row

inductive DatabaseCommitDisposition where
  | applied
  | replayed
  deriving DecidableEq

def tooManyMutations : DatabaseError :=
  .invalidInput "transaction" "transaction exceeds the mutation limit"

def duplicateTargets : DatabaseError :=
  .invalidInput "transaction" "transaction contains duplicate record targets"

def DatabaseTransaction.new (idempotencyKey : Octets) :
    Except DatabaseError DatabaseTransaction := do
  validateIdempotencyKey idempotencyKey
  return ⟨idempotencyKey, [], by simp, Nat.zero_le _, nodup_nil⟩

variable {txn : DatabaseTransaction} {cmd : PreparedCommand}
  {ctr : RecordContract ρ} {key : Octets} {rcd : ρ} {exp : DatabaseRevision}

theorem same_key_concat (hkey : cmd.idempotencyKey = txn.idempotencyKey) :
    ∀ other ∈ txn.commands ++ [cmd], other.idempotencyKey = txn.idempotencyKey := by
  intro other hoth
  rcases mem_concat.mp hoth with hoth | rfl
  · exact txn.same_key other hoth
  · exact hkey

theorem targets_nodup_concat (hnew : cmd.target ∉ txn.commands.map (·.target)) :
    ((txn.commands ++ [cmd]).map (·.target)).Nodup := by
  rw [map_append]
  refine nodup_append.mpr ⟨txn.targets_nodup, nodup_singleton _, ?_⟩
  rintro tgt htgt last hlast rfl
  rw [map_singleton, mem_singleton] at hlast
  exact hnew (hlast ▸ htgt)

/-- A mutation is added only when its target is new and the batch is bounded. -/
def DatabaseTransaction.addCommand (transaction : DatabaseTransaction) (command : PreparedCommand)
    (hkey : command.idempotencyKey = transaction.idempotencyKey) :
    Except DatabaseError DatabaseTransaction :=
  if hfull : transaction.commands.length ≥ maxTransactionMutations then .error tooManyMutations
  else if hnew : command.target ∈ transaction.commands.map (·.target) then .error duplicateTargets
  else .ok ⟨transaction.idempotencyKey, transaction.commands ++ [command], same_key_concat hkey,
    length_append ▸ Nat.lt_of_not_ge hfull, targets_nodup_concat hnew⟩

theorem prepareSave_eq (h : prepareSave ctr key rcd exp = .ok cmd) :
    cmd.collection = ctr.collection ∧ cmd.recordVersion = ctr.version ∧
      cmd.identifier = ctr.identifier rcd ∧ cmd.body = .save (ctr.toVec rcd) ∧
      cmd.idempotencyKey = key ∧ cmd.expectedRevision = exp := by
  obtain ⟨name, hname, h⟩ := bind_ok_iff.mp h
  have hid : name.1 = ctr.identifier rcd := by
    rw [validatedName] at hname
    split at hname
    · cases hname
    · cases hname
      rfl
  obtain ⟨⟨⟩, -, h⟩ := bind_ok_iff.mp h
  split_ifs at h with hsize
  cases h
  exact ⟨rfl, rfl, hid, rfl, rfl, rfl⟩

def DatabaseTransaction.save (transaction : DatabaseTransaction) (contract : RecordContract ρ)
    (record : ρ) (expected : DatabaseRevision) : Except DatabaseError DatabaseTransaction :=
  match h : prepareSave contract transaction.idempotencyKey record expected with
  | .error error => .error error
  | .ok command => transaction.addCommand command (prepareSave_eq h).2.2.2.2.1

def WriteOutcome.writeResult : WriteOutcome →
    Except DatabaseError (DatabaseCommit × DatabaseCommitDisposition)
  | .applied (.single commit) => .ok (commit, .applied)
  | .replayed (.single commit) => .ok (commit, .replayed)
  | .applied (.batch _) | .replayed (.batch _) =>
    .error (.corrupt "stored idempotency result is invalid")
  | .failed error => .error error

def WriteOutcome.transactionResult : WriteOutcome →
    Except DatabaseError (List DatabaseCommit × DatabaseCommitDisposition)
  | .applied (.batch commits) => .ok (commits, .applied)
  | .replayed (.batch commits) => .ok (commits, .replayed)
  | .applied (.single _) | .replayed (.single _) =>
    .error (.corrupt "stored transaction result is invalid")
  | .failed error => .error error

/-- `DatabaseManager::write` of a prepared command. -/
def write (sha : Sha256) (environment : WriterEnvironment) (store : Store)
    (command : Except DatabaseError PreparedCommand) :
    Except DatabaseError (DatabaseCommit × DatabaseCommitDisposition) × Store :=
  match command with
  | .error error => (.error error, store)
  | .ok command =>
    let (outcome, store) := execute sha store (.command command, environment)
    (outcome.writeResult, store)

/-- `DatabaseManager::write_transaction` of a transaction that was put together. -/
def writeTransaction (sha : Sha256) (environment : WriterEnvironment) (store : Store)
    (transaction : Except DatabaseError DatabaseTransaction) :
    Except DatabaseError (List DatabaseCommit × DatabaseCommitDisposition) × Store :=
  match transaction with
  | .error error => (.error error, store)
  | .ok transaction =>
    let (outcome, store) := execute sha store (.transaction transaction, environment)
    (outcome.transactionResult, store)

/-! ### What a write does -/

variable {env : WriterEnvironment} {store : Store} {res : DatabaseTransaction}

theorem write_cases {cmd : Except DatabaseError PreparedCommand}
    {res : Except DatabaseError (DatabaseCommit × DatabaseCommitDisposition)}
    (h : write sha env store cmd = (res, store')) :
    (store' = store ∧ ∀ c, res ≠ .ok (c, .applied)) ∨
      ∃ prepared c, cmd = .ok prepared ∧ res = .ok (c, .applied) ∧
        CommandApplied store.records prepared c store'.records := by
  cases cmd with
  | error e =>
    cases h
    exact .inl ⟨rfl, by rintro c ⟨⟩⟩
  | ok prepared =>
    have hmv := execute_moves sha store (.command prepared) env
    rw [write] at h
    generalize execute sha store (.command prepared, env) = executed at h hmv
    obtain ⟨out, after⟩ := executed
    cases h
    cases hmv with
    | failed e => exact .inl ⟨rfl, by rintro c ⟨⟩⟩
    | @replayed res => exact .inl ⟨rfl, by cases res <;> rintro c ⟨⟩⟩
    | @applied res rs observedAt fresh answers performed =>
      obtain ⟨c, rfl⟩ := answers
      obtain ⟨⟨made, rs'⟩, happ, hmade⟩ := bind_ok_iff.mp performed
      cases hmade
      exact .inr ⟨prepared, _, rfl, rfl, applyCommand_applied happ⟩

theorem writeTransaction_cases {txn : Except DatabaseError DatabaseTransaction}
    {res : Except DatabaseError (List DatabaseCommit × DatabaseCommitDisposition)}
    (h : writeTransaction sha env store txn = (res, store')) :
    (store' = store ∧ ∀ commits, res ≠ .ok (commits, .applied)) ∨
      ∃ batch commits, txn = .ok batch ∧ res = .ok (commits, .applied) ∧
        SubmissionApplied store.records batch.commands commits store'.records := by
  cases txn with
  | error e =>
    cases h
    exact .inl ⟨rfl, by rintro c ⟨⟩⟩
  | ok batch =>
    have hmv := execute_moves sha store (.transaction batch) env
    rw [writeTransaction] at h
    generalize execute sha store (.transaction batch, env) = executed at h hmv
    obtain ⟨out, after⟩ := executed
    cases h
    cases hmv with
    | failed e => exact .inl ⟨rfl, by rintro c ⟨⟩⟩
    | @replayed res => exact .inl ⟨rfl, by cases res <;> rintro c ⟨⟩⟩
    | @applied res rs observedAt fresh answers performed =>
      obtain ⟨-, commits, rfl⟩ := answers
      exact .inr ⟨batch, commits, rfl, rfl, perform_applied performed⟩

theorem addCommand_eq {hkey : cmd.idempotencyKey = txn.idempotencyKey}
    (h : txn.addCommand cmd hkey = .ok res) :
    res.commands = txn.commands ++ [cmd] ∧ res.idempotencyKey = txn.idempotencyKey := by
  rw [DatabaseTransaction.addCommand] at h
  split_ifs at h
  cases h
  exact ⟨rfl, rfl⟩

theorem DatabaseTransaction.save_eq (h : txn.save ctr rcd exp = .ok res) :
    ∃ cmd, prepareSave ctr txn.idempotencyKey rcd exp = .ok cmd ∧ res.commands = txn.commands ++
      [cmd] ∧ res.idempotencyKey = txn.idempotencyKey := by
  rw [DatabaseTransaction.save] at h
  split at h
  · cases h
  · next cmd hprp => exact ⟨cmd, hprp, addCommand_eq h⟩

theorem DatabaseTransaction.new_eq (h : DatabaseTransaction.new key = .ok txn) :
    txn.commands = [] ∧ txn.idempotencyKey = key := by
  obtain ⟨⟨⟩, -, h⟩ := bind_ok_iff.mp h
  cases h
  exact ⟨rfl, rfl⟩

/-! ### Tables of one record type -/

namespace RecordContract

/-- The cells of the collection are records of the type, each under its own name. -/
def Sound (contract : RecordContract ρ) (records : Records) : Prop :=
  ∀ identifier cell, records.cell (contract.collection, identifier) = some cell →
    cell.version = contract.version ∧
      ∃ record, contract.identifier record = identifier ∧ cell.payload = contract.toVec record

/-- The collection as a table of records with their revisions. -/
def table (contract : RecordContract ρ) (records : Records) (identifier : Octets) :
    Option (ρ × ℕ) :=
  (records.cell (contract.collection, identifier)).bind fun cell =>
    (contract.fromSlice cell.payload).map fun record => (record, cell.revision)

variable {ctr : RecordContract ρ}

theorem table_revision (hsou : ctr.Sound rs) (ident : Octets) :
    (ctr.table rs ident).map (·.2) = rs.revision (ctr.collection, ident) := by
  rw [revision_eq, table]
  cases hcell : rs.cell (ctr.collection, ident) with
  | none => rfl
  | some cell =>
    obtain ⟨-, rcd, -, hpay⟩ := hsou ident cell hcell
    simp [hpay, ctr.fromSlice_toVec]

/-- A cell of the collection after a save of a record. -/
theorem sound_of_after {rcd : ρ} {rev : ℕ} (hsou : ctr.Sound rs)
    (haft : rs'.cell (ctr.collection, ctr.identifier rcd) =
      some ⟨ctr.version, rev, ctr.toVec rcd⟩) (hots : ∀ ident, ident ≠ ctr.identifier rcd →
      rs'.cell (ctr.collection, ident) =
        rs.cell (ctr.collection, ident)) :
    ctr.Sound rs' ∧ ctr.table rs' =
      Function.update (ctr.table rs) (ctr.identifier rcd) (some (rcd, rev)) := by
  constructor
  · intro ident cell hcell
    by_cases hid : ident = ctr.identifier rcd
    · subst hid
      cases haft.symm.trans hcell
      exact ⟨rfl, rcd, rfl, rfl⟩
    · exact hsou ident cell (hots ident hid ▸ hcell)
  · refine Function.eq_update_iff.mpr ⟨?_, fun ident hid => ?_⟩
    · rw [table, haft, bind_some, ctr.fromSlice_toVec, map_some]
    · rw [table, hots ident hid, table]

theorem decodeRecord_of_sound {row : Row} {rcd : ρ} (hver : row.recordVersion = ctr.version)
    (hid : ctr.identifier rcd = ident) (hpay : row.payload = ctr.toVec rcd) :
    decodeRecord ctr ident row = .ok ⟨rcd, row.revision⟩ := by
  refine throw_if_ok_iff.mpr ⟨not_not.mpr hver, ?_⟩
  rw [hpay, ctr.fromSlice_toVec]
  exact throw_if_ok_iff.mpr ⟨not_not.mpr hid, rfl⟩

/-- READ: a query for a name gives what the table has under it. -/
theorem readOne_eq (hsou : ctr.Sound store.records) (hval : validateIdentifier ident = .ok ()) :
    readOne ctr store ident = match ctr.table store.records ident with
      | none => .error (.notFound ctr.collection ident)
      | some (rcd, rev) => .ok ⟨rcd, rev⟩ := by
  have hread : readOne ctr store ident =
      match store.records.row ctr.collection ident with
      | none => .error (.notFound ctr.collection ident)
      | some row => decodeRecord ctr ident row := by
    rw [readOne, hval]
    rfl
  rw [hread]
  cases hrow : store.records.row ctr.collection ident with
  | none =>
    have hcell : store.records.cell (ctr.collection, ident) = none := by
      rw [Records.cell, hrow, map_none]
    rw [table, hcell]
    rfl
  | some row =>
    have hcell : store.records.cell (ctr.collection, ident) =
        some ⟨row.recordVersion, row.revision, row.payload⟩ := by
      rw [Records.cell, hrow, map_some]
    obtain ⟨hver, rcd, hid, hpay⟩ := hsou ident _ hcell
    rw [table, hcell, bind_some, hpay, ctr.fromSlice_toVec, map_some]
    exact decodeRecord_of_sound hver hid hpay

end RecordContract

/-- An applied save is found in the table under its name, one revision on. -/
theorem CommandApplied.save_cells {c : DatabaseCommit} (h : CommandApplied rs cmd c rs')
    (hprp : prepareSave ctr key rcd exp = .ok cmd) :
    c.target = (ctr.collection, ctr.identifier rcd) ∧
      exp.accepts (rs.revision (ctr.collection, ctr.identifier rcd)) = true ∧
      c.revision = (rs.revision (ctr.collection, ctr.identifier rcd)).getD 0 + 1 ∧
      rs'.cell = Function.update rs.cell (ctr.collection, ctr.identifier rcd)
        (some ⟨ctr.version, c.revision, ctr.toVec rcd⟩) := by
  obtain ⟨hcol, hver, hid, hbody, -, hexp⟩ := prepareSave_eq hprp
  have htgt : cmd.target = (ctr.collection, ctr.identifier rcd) := by
    rw [PreparedCommand.target, hcol, hid]
  have haft := h.after
  rw [PreparedCommand.cellAfter, hbody, hver, htgt] at haft
  refine ⟨h.target.trans htgt, ?_, ?_, haft⟩
  · rw [← hexp, ← htgt]
    exact h.accepts
  · rw [← htgt]
    exact h.revision

end LetsInfer.Database
