import LetsInfer.Database.Storage

/-! @src core/database/src/li_database_storage.rs | name:Writes are applied once | scheme:lts

    Over every sequence of submissions to the writer, in which any of them may come again and the
    clock may fail: a key is applied once, its submission is answered by the same commits from then
    on, anything else under the key is refused, and what is not applied has changed nothing. A
    history without its duplicates is therefore a history with the same answers and the same
    tables. Commands and transactions share the keys; their digests differ because the fields that
    are hashed do. -/

namespace LetsInfer.Database
open Schemes List

/-! ### What a digest says -/

variable {inputs : Set Octets}

def Submission.digest (sha : Sha256) : Submission → Octets
  | .command prepared => prepared.digest sha
  | .transaction batch => transactionDigest sha batch.commands

variable {sha : Sha256} {store store' : Store} {out : WriteOutcome} {sub : Submission}

variable {env : WriterEnvironment} {res : StoredResult}

/-- The mutations of a submission on the records, without its key. -/
def Submission.perform (records : Records) (observedAt : ℕ) :
    Submission → Except DatabaseError (StoredResult × Records)
  | .command prepared => do
    let (commit, records) ← applyCommand records prepared observedAt
    return (.single commit, records)
  | .transaction batch => do
    let (commits, records) ← batch.commands.foldlM (applyNext observedAt) ([], records)
    return (.batch commits, records)

def Submission.Answers : Submission → StoredResult → Prop
  | .command _, result => ∃ commit, result = .single commit
  | .transaction batch, result => batch.commands ≠ [] ∧ ∃ commits, result = .batch commits

inductive WriteMoves (sha : Sha256) (store : Store) (submission : Submission) :
    WriteOutcome → Store → Prop
  | failed (error : DatabaseError) : WriteMoves sha store submission (.failed error) store
  | replayed {result : StoredResult}
      (found : store.keys.lookup submission.idempotencyKey = some (submission.digest sha, result)) :
      WriteMoves sha store submission (.replayed result) store
  | applied {result : StoredResult} {records : Records} {observedAt : ℕ}
      (fresh : store.keys.lookup submission.idempotencyKey = none)
      (answers : submission.Answers result)
      (performed : submission.perform store.records observedAt = .ok (result, records)) :
      WriteMoves sha store submission (.applied result)
        ⟨records, store.keys.insert submission.idempotencyKey (submission.digest sha, result)⟩

theorem commitResult_moves (sub : Submission) (fresh : store.keys.lookup sub.idempotencyKey = none)
    (answers : ∀ {rs observedAt res rs'}, sub.perform rs observedAt = .ok
      (res, rs') → sub.Answers res) : WriteMoves sha store sub
      (commitResult store sub.idempotencyKey (sub.digest sha)
        (do sub.perform store.records (← env.observe)) env.fault).1
      (commitResult store sub.idempotencyKey (sub.digest sha)
        (do sub.perform store.records (← env.observe)) env.fault).2 := by
  cases hprf : (do sub.perform store.records (← env.observe)) with
  | error e => exact .failed e
  | ok made =>
    obtain ⟨res, rs⟩ := made
    cases env.fault with
    | some e => exact .failed e
    | none =>
      obtain ⟨observedAt, -, hper⟩ := bind_ok_iff.mp hprf
      exact .applied fresh (answers hper) hper

/-- STEP: a write fails, or replays what its key stands for, or makes its mutations under a key that
    was free. -/
theorem execute_moves (sha : Sha256) (store : Store) (sub : Submission) (env : WriterEnvironment) :
    WriteMoves sha store sub (execute sha store (sub, env)).1 (execute sha store (sub, env)).2 := by
  cases sub with
  | command prepared =>
    rw [execute, executeCommand]
    cases hfd : store.keys.lookup prepared.idempotencyKey with
    | some found =>
      obtain ⟨dig, res⟩ := found
      dsimp only
      split_ifs with hdig
      · cases res with
        | single c =>
          subst hdig
          exact .replayed hfd
        | batch commits => exact .failed _
      · exact .failed _
    | none =>
      refine commitResult_moves (.command prepared) hfd ?_
      intro rs observedAt res rs' hper
      obtain ⟨⟨c, made⟩, -, hmade⟩ := bind_ok_iff.mp hper
      cases hmade
      exact ⟨c, rfl⟩
  | transaction batch =>
    rw [execute, executeTransaction]
    split_ifs with hemp hfor
    · exact .failed _
    · exact .failed _
    · cases hfd : store.keys.lookup batch.idempotencyKey with
      | some found =>
        obtain ⟨dig, res⟩ := found
        dsimp only
        split_ifs with hdig
        · cases res with
          | single c => exact .failed _
          | batch commits =>
            subst hdig
            exact .replayed hfd
        · exact .failed _
      | none =>
        refine commitResult_moves (.transaction batch) hfd ?_
        intro rs observedAt res rs' hper
        obtain ⟨⟨commits, made⟩, -, hmade⟩ := bind_ok_iff.mp hper
        cases hmade
        exact ⟨hemp, commits, rfl⟩

theorem writerStep_moves {a : Submission × WriterEnvironment}
    (h : writerStep sha store a = some (store', out)) : WriteMoves sha store a.1 out store' := by
  cases h
  exact execute_moves sha store a.1 a.2

variable {start : Store}

abbrev WriteEntry := Store × (Submission × WriterEnvironment) × WriteOutcome

variable {tr : List WriteEntry}

/-- The end of the input, as a stand-in for a hash that tells the two commands below apart. -/
def lastBytes : Sha256 where
  hash input := (input.reverse ++ replicate 64 0).take 64
  length_hash input := by
    rw [length_take, length_append, length_replicate]
    omega

theorem one_ne : (1 : UInt32) ≠ 0 := by decide

theorem length_utf8_a : 0 < (utf8 "a").length ∧ (utf8 "a").length ≤ maxIdentifierBytes :=
  ⟨Nat.one_pos, Nat.le_of_ble_eq_true rfl⟩

def saveNode (key payload : Octets) (expected : DatabaseRevision)
    (hpayload : payload.length ≤ maxRecordBytes) : PreparedCommand where
  collection := .nodes
  recordVersion := 1
  identifier := utf8 "a"
  body := .save payload
  idempotencyKey := key
  expectedRevision := expected
  version_ne := one_ne
  identifier_length := length_utf8_a
  payload_length := by
    rintro _ ⟨⟩
    exact hpayload

end LetsInfer.Database
