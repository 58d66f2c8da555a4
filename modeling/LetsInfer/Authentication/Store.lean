import LetsInfer.Authentication.Keys

/-! @src core/node/src/li_authentication_database.rs | name:Key store over the database
      | scheme:refinement

    The key store of the node: a read of one record, and writes of one or two records under an
    expected revision. Seen from above it is a table from key identities to records and revisions;
    each operation is given as a change of that table. -/

namespace LetsInfer.Authentication
open Schemes Interface Database Option Function

/-- The JSON writing of database records, read back as it was written. -/
structure AuthenticationJson where
  toVec : AuthenticationDatabaseRecord → Database.Octets
  fromSlice : Database.Octets → Option AuthenticationDatabaseRecord
  fromSlice_toVec : ∀ record, fromSlice (toVec record) = some record

def AuthenticationJson.contract (json : AuthenticationJson) :
    RecordContract AuthenticationDatabaseRecord :=
  ⟨.authentication, 1, (·.keyId), json.toVec, json.fromSlice, one_ne, json.fromSlice_toVec⟩

def authenticationStoreError : DatabaseError → AuthenticationStoreError
  | .conflict _ _ _ _ | .idempotencyConflict _ => .conflict
  | .corrupt _ => .corrupt
  | .notFound _ _ | .invalidInput _ _ | .unavailable _ | .closed => .unavailable

/-- A mutation has to be new, not a replay. -/
def requireApplied : DatabaseCommitDisposition → Except AuthenticationStoreError Unit
  | .applied => .ok ()
  | .replayed => .error .conflict

structure StoreEnvironment where
  readFault : Option DatabaseError
  writer : WriterEnvironment

def versionedAuthenticationRecord (stored : DatabaseStoredRecord AuthenticationDatabaseRecord) :
    Except AuthenticationStoreError VersionedAuthenticationRecord := do
  let record ← authenticationRecord stored.value
  return ⟨record, UInt64.ofNat stored.revision⟩

section Operations

variable (sha : Sha256) (json : AuthenticationJson) (environment : StoreEnvironment) (store : Store)

/-- The answer of the database to a query, unless it cannot be asked. -/
def databaseRead (keyId : ApiKeyId) :
    Except DatabaseError (DatabaseStoredRecord AuthenticationDatabaseRecord) :=
  match environment.readFault with
  | some error => .error error
  | none => readOne json.contract store keyId.asStr

def storeRead (keyId : ApiKeyId) :
    Except AuthenticationStoreError (Option VersionedAuthenticationRecord) :=
  match databaseRead json environment store keyId with
  | .ok stored => (versionedAuthenticationRecord stored).map some
  | .error (.notFound _ _) => .ok none
  | .error error => .error (authenticationStoreError error)

def savedRecord (record : AuthenticationRecord)
    (result : Except DatabaseError (DatabaseCommit × DatabaseCommitDisposition)) :
    Except AuthenticationStoreError VersionedAuthenticationRecord := do
  let (commit, disposition) ← result.mapError authenticationStoreError
  requireApplied disposition
  return ⟨record, UInt64.ofNat commit.revision⟩

def createKey (keyId : ApiKeyId) : Database.Octets := utf8 "authentication:create:" ++ keyId.asStr

def replaceKey (keyId : ApiKeyId) (expectedRevision : UInt64) : Database.Octets :=
  utf8 "authentication:replace:" ++ keyId.asStr ++ 58 :: decimal expectedRevision.toNat

def rotateKey (revokedId replacementId : ApiKeyId) : Database.Octets :=
  utf8 "authentication:rotate:" ++ revokedId.asStr ++ 58 :: replacementId.asStr

def storeCreate (record : AuthenticationRecord) :
    Except AuthenticationStoreError VersionedAuthenticationRecord × Store :=
  let (result, store) := write sha environment.writer store
    (prepareSave json.contract (createKey record.apiKey.keyId)
      (authenticationDatabaseRecord record) .missing)
  (savedRecord record result, store)

def storeReplace (record : AuthenticationRecord) (expectedRevision : UInt64) :
    Except AuthenticationStoreError VersionedAuthenticationRecord × Store :=
  let (result, store) := write sha environment.writer store
    (prepareSave json.contract (replaceKey record.apiKey.keyId expectedRevision)
      (authenticationDatabaseRecord record) (.exact expectedRevision))
  (savedRecord record result, store)

def rotationTransaction (revoked : AuthenticationRecord) (expectedRevision : UInt64)
    (replacement : AuthenticationRecord) : Except DatabaseError DatabaseTransaction := do
  let transaction ← DatabaseTransaction.new
    (rotateKey revoked.apiKey.keyId replacement.apiKey.keyId)
  let transaction ← transaction.save json.contract (authenticationDatabaseRecord revoked)
    (.exact expectedRevision)
  transaction.save json.contract (authenticationDatabaseRecord replacement) .missing

def rotatedRecords (revoked replacement : AuthenticationRecord)
    (result : Except DatabaseError (List DatabaseCommit × DatabaseCommitDisposition)) :
    Except AuthenticationStoreError AuthenticationRotation := do
  let (commits, disposition) ← result.mapError authenticationStoreError
  requireApplied disposition
  match commits with
  | [first, second] =>
    if first.identifier = revoked.apiKey.keyId.asStr ∧
        second.identifier = replacement.apiKey.keyId.asStr then
      return ⟨⟨revoked, UInt64.ofNat first.revision⟩, ⟨replacement, UInt64.ofNat second.revision⟩⟩
    else throw .corrupt
  | _ => throw .corrupt

def storeRotate (revoked : AuthenticationRecord) (expectedRevision : UInt64)
    (replacement : AuthenticationRecord) :
    Except AuthenticationStoreError AuthenticationRotation × Store :=
  let (result, store) := writeTransaction sha environment.writer store
    (rotationTransaction json revoked expectedRevision replacement)
  (rotatedRecords revoked replacement result, store)

end Operations

/-! ### The table of keys -/

variable {sha : Sha256} {json : AuthenticationJson} {env : StoreEnvironment}
  {store store' : Store} {rs : Records} {tgt : Target}
  {revoked rep : AuthenticationRecord}

/-- The keys of the node, each with its record and the revision of that. -/
def keyTable (json : AuthenticationJson) (store : Store) (keyId : ApiKeyId) :
    Option (AuthenticationRecord × ℕ) :=
  (json.contract.table store.records keyId.asStr).bind fun stored =>
    (authenticationRecord stored.1).toOption.map fun record => (record, stored.2)

/-- The collection holds the database fields of key records, and nothing else. -/
structure KeyRows (json : AuthenticationJson) (store : Store) : Prop where
  sound : json.contract.Sound store.records
  fields : ∀ identifier stored revision,
    json.contract.table store.records identifier = some (stored, revision) →
      ∃ record, stored = authenticationDatabaseRecord record

theorem KeyRows.blank : KeyRows json .blank :=
  ⟨by rintro _ _ ⟨⟩, by rintro _ _ _ ⟨⟩⟩

variable {rev : ℕ} {rcd : AuthenticationRecord} {k : ApiKeyId}

theorem revision_pos (h : rs.revision tgt = some rev) : 0 < rev := by
  obtain ⟨row, -, rfl⟩ := map_eq_some_iff.mp h
  exact row.revision_bounds.1

theorem revision_lt (h : rs.revision tgt = some rev) : rev < sqlIntegerBound := by
  obtain ⟨row, -, rfl⟩ := map_eq_some_iff.mp h
  exact row.revision_bounds.2

theorem toNat_ofNat_of_lt (h : rev < sqlIntegerBound) : (UInt64.ofNat rev).toNat = rev := by
  rw [UInt64.toNat_ofNat']
  exact Nat.mod_eq_of_lt (h.trans (by decide))

section

variable (h : KeyRows json store)
include h

theorem KeyRows.identifier_eq {ident : Database.Octets}
    (hsto : json.contract.table store.records ident = some (authenticationDatabaseRecord
      rcd, rev)) : rcd.apiKey.keyId.asStr = ident := by
  obtain ⟨cell, hcell, hmap⟩ := bind_eq_some_iff.mp hsto
  obtain ⟨-, stored, hid, hpay⟩ := h.sound ident cell hcell
  rw [hpay, json.contract.fromSlice_toVec, map_some] at hmap
  cases hmap
  exact hid

theorem KeyRows.stored_iff :
    keyTable json store k = some (rcd, rev) ↔
      json.contract.table store.records k.asStr = some (authenticationDatabaseRecord rcd, rev) := by
  constructor
  · intro hkey
    obtain ⟨⟨stored, rev'⟩, hsto, hmap⟩ := bind_eq_some_iff.mp hkey
    obtain ⟨rcd', rfl⟩ := h.fields _ _ _ hsto
    rw [authenticationRecord_databaseRecord] at hmap
    cases hmap
    exact hsto
  · intro hsto
    rw [keyTable, hsto, bind_some, authenticationRecord_databaseRecord]
    rfl

theorem KeyRows.keyId_eq (hkey : keyTable json store k = some (rcd, rev)) : rcd.apiKey.keyId = k :=
  Checked.ext (h.identifier_eq (h.stored_iff.mp hkey))

theorem KeyRows.revision_eq (k : ApiKeyId) :
    (keyTable json store k).map (·.2) =
      store.records.revision (json.contract.collection, k.asStr) := by
  rw [← RecordContract.table_revision h.sound]
  cases hsto : json.contract.table store.records k.asStr with
  | none => rw [keyTable, hsto]; rfl
  | some stored =>
    obtain ⟨rcd, hrec⟩ := h.fields _ stored.1 stored.2 hsto
    rw [keyTable, hsto, bind_some, hrec, authenticationRecord_databaseRecord]
    rfl

end

theorem validateIdentifier_keyId (k : ApiKeyId) : validateIdentifier k.asStr = .ok () := by
  have hlen : k.asStr.length = identityLength := length_of_isLowerHex k.valid
  refine validateText_visible ?_ ?_ (visible_of_isLowerHex k.valid)
  · rw [hlen]
    decide
  · rw [hlen]
    decide

section

variable (h : KeyRows json store)
include h

/-- READ: without a fault, a read gives the entry of the table. -/
theorem storeRead_eq (hflt : env.readFault = none) (k : ApiKeyId) : storeRead json env store k =
      .ok ((keyTable json store k).map fun e => ⟨e.1, UInt64.ofNat e.2⟩) := by
  rw [storeRead, databaseRead, hflt]
  dsimp only
  rw [RecordContract.readOne_eq h.sound (validateIdentifier_keyId k)]
  cases hsto : json.contract.table store.records k.asStr with
  | none =>
    rw [keyTable, hsto]
    rfl
  | some stored =>
    obtain ⟨v, rev⟩ := stored
    obtain ⟨rcd, rfl⟩ := h.fields _ _ _ hsto
    have hkey := h.stored_iff.mpr hsto
    rw [hkey]
    show (versionedAuthenticationRecord _).map some = _
    rw [versionedAuthenticationRecord, authenticationRecord_databaseRecord]
    rfl

theorem storeRead_some {found : VersionedAuthenticationRecord}
    (hread : storeRead json env store k = .ok (some found)) :
    keyTable json store k = some (found.record, found.revision.toNat) := by
  cases hflt : env.readFault with
  | some e =>
    rw [storeRead, databaseRead, hflt] at hread
    cases e <;> cases hread
  | none =>
    rw [storeRead_eq h hflt] at hread
    obtain ⟨⟨rcd, rev⟩, hkey, rfl⟩ :=
      map_eq_some_iff.mp (Except.ok.inj hread)
    have hrev : store.records.revision (json.contract.collection, k.asStr) = some rev := by
      rw [← h.revision_eq k, hkey]
      rfl
    rw [hkey, toNat_ofNat_of_lt (revision_lt hrev)]

theorem keyTable_update
    (hcell : store'.records.cell = Function.update store.records.cell (json.contract.collection,
      rcd.apiKey.keyId.asStr) (some ⟨json.contract.version, rev, json.contract.toVec
      (authenticationDatabaseRecord rcd)⟩)) :
    KeyRows json store' ∧ keyTable json store' =
      Function.update (keyTable json store) rcd.apiKey.keyId (some (rcd, rev)) := by
  obtain ⟨haft, hots⟩ := eq_update_iff.mp hcell
  obtain ⟨hsou, htb⟩ :=
    @RecordContract.sound_of_after _ _ _ _ (authenticationDatabaseRecord rcd) _ h.sound haft
      fun ident hne => hots (_, ident) fun heq => hne (congrArg Prod.snd heq)
  obtain ⟨hself, hrest⟩ := eq_update_iff.mp htb
  have hrows : KeyRows json store' := by
    refine ⟨hsou, ?_⟩
    intro ident stored rev' hsto
    by_cases hid : ident = rcd.apiKey.keyId.asStr
    · subst hid
      cases hself.symm.trans hsto
      exact ⟨rcd, rfl⟩
    · exact h.fields ident stored rev' ((hrest ident hid).symm.trans hsto)
  refine ⟨hrows, eq_update_iff.mpr ⟨hrows.stored_iff.mpr hself, fun k hkid => ?_⟩⟩
  have hne : k.asStr ≠ rcd.apiKey.keyId.asStr := fun heq => hkid (Checked.ext heq)
  rw [keyTable, hrest _ hne, keyTable]

end

/-! ### The operations on the table -/

variable {res : Except AuthenticationStoreError VersionedAuthenticationRecord}

theorem saved_error_of_not_applied
    {res : Except DatabaseError (DatabaseCommit × DatabaseCommitDisposition)}
    (h : ∀ c, res ≠ .ok (c, .applied)) : ∃ e, savedRecord rcd res = .error e := by
  cases res with
  | error e => exact ⟨authenticationStoreError e, rfl⟩
  | ok made =>
    obtain ⟨c, disposition⟩ := made
    cases disposition with
    | applied => exact absurd rfl (h c)
    | replayed => exact ⟨.conflict, rfl⟩

theorem keyTable_saved (store store' : Store) {key : Database.Octets} {exp : DatabaseRevision}
    {cmd : PreparedCommand} {c : DatabaseCommit}
    (happ : CommandApplied store.records cmd c store'.records) (hrows : KeyRows json store)
    (hprp : prepareSave json.contract key (authenticationDatabaseRecord rcd) exp = .ok cmd) :
    c.identifier = rcd.apiKey.keyId.asStr ∧
      exp.accepts ((keyTable json store rcd.apiKey.keyId).map (·.2)) = true ∧
      c.revision = ((keyTable json store rcd.apiKey.keyId).map (·.2)).getD 0 + 1 ∧
      KeyRows json store' ∧ keyTable json store' = Function.update (keyTable json store)
        rcd.apiKey.keyId (some (rcd, c.revision)) := by
  obtain ⟨htgt, hacs, hrev, hcell⟩ := happ.save_cells hprp
  rw [hrows.revision_eq]
  exact ⟨congrArg Prod.snd htgt, hacs, hrev, keyTable_update hrows hcell⟩

section

variable (hrows : KeyRows json store)
include hrows

/-- CREATE: a record is added where there was none, or nothing happens. -/
theorem storeCreate_cases (rcd : AuthenticationRecord)
    (h : storeCreate sha json env store rcd = (res, store')) :
    (store' = store ∧ ∃ e, res = .error e) ∨
      (keyTable json store rcd.apiKey.keyId = none ∧ res = .ok ⟨rcd, 1⟩ ∧
        KeyRows json store' ∧ keyTable json store' =
          Function.update (keyTable json store) rcd.apiKey.keyId (some (rcd, 1))) := by
  generalize hwri : write sha env.writer store (prepareSave json.contract
    (createKey rcd.apiKey.keyId) (authenticationDatabaseRecord rcd) .missing) = made at h
  rw [storeCreate, hwri] at h
  obtain ⟨written, after⟩ := made
  cases h
  rcases write_cases hwri with ⟨rfl, hnot⟩ | ⟨cmd, c, hprp, rfl, happ⟩
  · exact .inl ⟨rfl, saved_error_of_not_applied hnot⟩
  · obtain ⟨-, hacs, hrev, hrows', htb⟩ :=
      keyTable_saved _ _ happ hrows hprp
    have hno : keyTable json store rcd.apiKey.keyId = none := by
      simpa [DatabaseRevision.accepts] using hacs
    rw [hno] at hrev
    have hone : c.revision = 1 := hrev
    refine .inr ⟨hno, ?_, hrows', hone ▸ htb⟩
    show Except.ok (VersionedAuthenticationRecord.mk rcd (UInt64.ofNat c.revision)) = _
    rw [hone]
    rfl

theorem KeyRows.toNat_succ {rev : UInt64}
    (h : (keyTable json store k).map (·.2) = some rev.toNat) : (rev + 1).toNat = rev.toNat + 1 := by
  have hbd : rev.toNat < sqlIntegerBound :=
    revision_lt ((hrows.revision_eq k).symm.trans h)
  rw [UInt64.toNat_add]
  exact Nat.mod_eq_of_lt (lt_of_le_of_lt (Nat.succ_le_of_lt hbd) (by decide))

/-- REPLACE: the record at the expected revision gets its successor, or nothing happens. -/
theorem storeReplace_cases (rcd : AuthenticationRecord) (exp : UInt64)
    (h : storeReplace sha json env store rcd exp = (res, store')) :
    (store' = store ∧ ∃ e, res = .error e) ∨
      ((keyTable json store rcd.apiKey.keyId).map (·.2) = some exp.toNat ∧
        res = .ok ⟨rcd, exp + 1⟩ ∧ exp < exp + 1 ∧
        KeyRows json store' ∧ keyTable json store' = Function.update (keyTable json store)
          rcd.apiKey.keyId (some (rcd, exp.toNat + 1))) := by
  generalize hwri : write sha env.writer store (prepareSave json.contract
    (replaceKey rcd.apiKey.keyId exp) (authenticationDatabaseRecord rcd)
    (.exact exp)) = made at h
  rw [storeReplace, hwri] at h
  obtain ⟨written, after⟩ := made
  cases h
  rcases write_cases hwri with ⟨rfl, hnot⟩ | ⟨cmd, c, hprp, rfl, happ⟩
  · exact .inl ⟨rfl, saved_error_of_not_applied hnot⟩
  · obtain ⟨-, hacs, hrev, hrows', htb⟩ :=
      keyTable_saved _ _ happ hrows hprp
    have hexp : (keyTable json store rcd.apiKey.keyId).map (·.2) =
        some exp.toNat := of_decide_eq_true hacs
    rw [hexp] at hrev
    have hnx : c.revision = exp.toNat + 1 := hrev
    have hsucc := hrows.toNat_succ hexp
    refine .inr ⟨hexp, ?_, ?_, hrows', hnx ▸ htb⟩
    · show Except.ok (VersionedAuthenticationRecord.mk rcd (UInt64.ofNat c.revision)) = _
      rw [hnx, ← hsucc, UInt64.ofNat_toNat]
    · rw [UInt64.lt_iff_toNat_lt, hsucc]
      exact Nat.lt_succ_self _

end

theorem rotationTransaction_eq {exp : UInt64} {txn : DatabaseTransaction}
    (h : rotationTransaction json revoked exp rep = .ok txn) :
    ∃ key first second, txn.commands = [first, second] ∧
      prepareSave json.contract key (authenticationDatabaseRecord revoked) (.exact exp) =
        .ok first ∧
      prepareSave json.contract key (authenticationDatabaseRecord rep) .missing = .ok second := by
  obtain ⟨opened, hope, h⟩ := bind_ok_iff.mp h
  obtain ⟨hnil, hkey⟩ := DatabaseTransaction.new_eq hope
  obtain ⟨half, hhalf, h⟩ := bind_ok_iff.mp h
  obtain ⟨first, hfst, hcom, hkey'⟩ := DatabaseTransaction.save_eq hhalf
  obtain ⟨second, hsnd, hall, -⟩ := DatabaseTransaction.save_eq h
  refine ⟨opened.idempotencyKey, first, second, ?_, hfst, hkey' ▸ hsnd⟩
  rw [hall, hcom, hnil]
  rfl

theorem rotated_error_of_not_applied
    {res : Except DatabaseError (List DatabaseCommit × DatabaseCommitDisposition)}
    (h : ∀ commits, res ≠ .ok (commits, .applied)) :
    ∃ e, rotatedRecords revoked rep res = .error e := by
  cases res with
  | error e => exact ⟨authenticationStoreError e, rfl⟩
  | ok made =>
    obtain ⟨commits, disposition⟩ := made
    cases disposition with
    | applied => exact absurd rfl (h commits)
    | replayed => exact ⟨.conflict, rfl⟩

/-- ROTATE: the record at the expected revision gets its successor and a record is added where there
    was none, or nothing happens. -/
theorem storeRotate_cases (hrows : KeyRows json store) (revoked rep : AuthenticationRecord)
    (exp : UInt64) {res : Except AuthenticationStoreError AuthenticationRotation}
    (h : storeRotate sha json env store revoked exp rep = (res, store')) :
    (store' = store ∧ ∃ e, res = .error e) ∨
      ((keyTable json store revoked.apiKey.keyId).map (·.2) = some exp.toNat ∧
        keyTable json store rep.apiKey.keyId = none ∧
        res = .ok ⟨⟨revoked, exp + 1⟩, ⟨rep, 1⟩⟩ ∧ exp < exp + 1 ∧
        KeyRows json store' ∧ keyTable json store' = Function.update
          (Function.update (keyTable json store) revoked.apiKey.keyId
            (some (revoked, exp.toNat + 1)))
          rep.apiKey.keyId (some (rep, 1))) := by
  generalize hwri : writeTransaction sha env.writer store
    (rotationTransaction json revoked exp rep) = made at h
  rw [storeRotate, hwri] at h
  obtain ⟨written, after⟩ := made
  cases h
  rcases writeTransaction_cases hwri with
    ⟨rfl, hnot⟩ | ⟨transaction, commits, htra, rfl, happ⟩
  · exact .inl ⟨rfl, rotated_error_of_not_applied hnot⟩
  · obtain ⟨key, first, second, hcom, hfst, hsnd⟩ := rotationTransaction_eq htra
    rw [hcom] at happ
    cases happ with
    | @cons _ middle _ _ _ c commits applied rest fresh =>
    cases rest with
    | @cons _ _ _ _ _ c' commits applied' rest _ =>
    cases rest with
    | nil =>
    obtain ⟨hid, hacs, hrev, hrows₁, htb₁⟩ :=
      keyTable_saved store ⟨middle, store.keys⟩ applied hrows hfst
    obtain ⟨hid', hacs', hrev', hrows₂, htb₂⟩ :=
      keyTable_saved ⟨middle, store.keys⟩ _ applied' hrows₁ hsnd
    have hexp : (keyTable json store revoked.apiKey.keyId).map (·.2) =
        some exp.toNat := of_decide_eq_true hacs
    have hnx : c.revision = exp.toNat + 1 := by rw [hrev, hexp]; rfl
    have hmid : keyTable json ⟨middle, store.keys⟩ rep.apiKey.keyId = none := by
      simpa [DatabaseRevision.accepts] using hacs'
    have hone : c'.revision = 1 := by rw [hrev', hmid]; rfl
    have hne : rep.apiKey.keyId ≠ revoked.apiKey.keyId := by
      intro heq
      rw [htb₁, heq, update_self] at hmid
      cases hmid
    have hsucc := hrows.toNat_succ hexp
    refine .inr ⟨hexp, ?_, ?_, ?_, hrows₂, ?_⟩
    · rwa [htb₁, update_of_ne hne] at hmid
    · have hread : rotatedRecords revoked rep (.ok ([c, c'], .applied)) =
          .ok ⟨⟨revoked, UInt64.ofNat c.revision⟩,
            ⟨rep, UInt64.ofNat c'.revision⟩⟩ := if_pos ⟨hid, hid'⟩
      rw [hread, hnx, hone, ← hsucc, UInt64.ofNat_toNat]
      rfl
    · rw [UInt64.lt_iff_toNat_lt, hsucc]
      exact Nat.lt_succ_self _
    · rw [htb₂, htb₁, hnx, hone]

end LetsInfer.Authentication
