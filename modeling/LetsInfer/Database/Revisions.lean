import LetsInfer.Database.ExactlyOnce
import LetsInfer.Schemes.Counters

/-! @src core/database/src/li_database_storage.rs | name:Revisions of one record | scheme:lts

    A writer that names the revision it has read is refused if the record has moved on. That rests
    on revisions that are never given twice, and they are given twice: a deleted record that is
    created again starts at revision one, so a writer that read the old record at revision one
    changes the new one. As long as no deleted record is created again, the revisions of every
    record grow, and between a read and a write that names its revision nothing was committed. -/

namespace LetsInfer.Database
open Schemes List Function

abbrev Target := DatabaseCollection × Octets

def PreparedCommand.target (command : PreparedCommand) : Target :=
  (command.collection, command.identifier)

def DatabaseCommit.target (commit : DatabaseCommit) : Target :=
  (commit.collection, commit.identifier)

def Records.revision (records : Records) (target : Target) : Option ℕ :=
  (records.row target.1 target.2).map (·.revision)

def Submission.commands : Submission → List PreparedCommand
  | .command prepared => [prepared]
  | .transaction batch => batch.commands

def StoredResult.commits : StoredResult → List DatabaseCommit
  | .single commit => [commit]
  | .batch commits => commits

/-- The commits a write made, none if it was replayed or failed. -/
def WriteOutcome.commits : WriteOutcome → List DatabaseCommit
  | .applied result => result.commits
  | .replayed _ => []
  | .failed _ => []

def committed (tr : List WriteEntry) : List DatabaseCommit := tr.flatMap fun e => e.2.2.commits

/-- A save that asks for no present revision, and so may create its record. -/
def PreparedCommand.mayCreate (command : PreparedCommand) : Bool :=
  match command.body, command.expectedRevision with
  | .save _, .any | .save _, .missing => true
  | .save _, .exact _ | .delete, _ => false

/-! ### The tables as cells -/

/-- What is kept under the name of a record. -/
structure Cell where
  version : UInt32
  revision : ℕ
  payload : Octets

def Records.cell (records : Records) (target : Target) : Option Cell :=
  (records.row target.1 target.2).map fun row => ⟨row.recordVersion, row.revision, row.payload⟩

def DatabaseRevision.accepts (expected : DatabaseRevision) (observed : Option ℕ) : Bool :=
  match expected with
  | .any => true
  | .missing => observed.isNone
  | .exact revision => decide (observed = some revision.toNat)

def PreparedCommand.cellAfter (command : PreparedCommand) (revision : ℕ) : Option Cell :=
  match command.body with
  | .save payload => some ⟨command.recordVersion, revision, payload⟩
  | .delete => none

theorem revision_eq (rs : Records) (tgt : Target) :
    rs.revision tgt = (rs.cell tgt).map (·.revision) := by
  rw [Records.revision, Records.cell, Option.map_map]
  rfl

theorem cell_put (rs : Records) (tgt : Target) (row : Row) :
    (rs.put tgt.1 tgt.2 row).cell =
      Function.update rs.cell tgt (some ⟨row.recordVersion, row.revision, row.payload⟩) := by
  refine eq_update_iff.mpr ⟨by simp [Records.cell, Records.row, Records.put], fun other hne => ?_⟩
  by_cases hcol : other.1 = tgt.1
  · have hid : other.2 ≠ tgt.2 := fun hid => hne (Prod.ext hcol hid)
    simp [Records.cell, Records.row, Records.put, hcol, hid]
  · simp [Records.cell, Records.row, Records.put, hcol]

theorem cell_remove (rs : Records) (tgt : Target) :
    (rs.remove tgt.1 tgt.2).cell = Function.update rs.cell tgt none := by
  refine eq_update_iff.mpr
    ⟨by simp [Records.cell, Records.row, Records.remove], fun other hne => ?_⟩
  by_cases hcol : other.1 = tgt.1
  · have hid : other.2 ≠ tgt.2 := fun hid => hne (Prod.ext hcol hid)
    simp [Records.cell, Records.row, Records.remove, hcol, hid]
  · simp [Records.cell, Records.row, Records.remove, hcol]

theorem requireRevision_ok_iff {collection : DatabaseCollection} {ident : Octets}
    {exp : DatabaseRevision} {obs : Option ℕ} :
    requireRevision collection ident exp obs = .ok () ↔ exp.accepts obs = true := by
  change (if exp.accepts obs = true then _ else _) = _ ↔ _
  split_ifs with h <;> simp [h]

/-- What one applied command is: it found the cell of its target as it expects, with its own
    version, and has put there the next revision of what it carries. -/
structure CommandApplied (records : Records) (command : PreparedCommand) (commit : DatabaseCommit)
    (records' : Records) : Prop where
  target : commit.target = command.target
  accepts : command.expectedRevision.accepts (records.revision command.target) = true
  version : ∀ cell, records.cell command.target = some cell → cell.version = command.recordVersion
  revision : commit.revision = (records.revision command.target).getD 0 + 1
  mutation : commit.mutation = match command.body, records.revision command.target with
    | .delete, _ => .deleted
    | .save _, some _ => .updated
    | .save _, none => .created
  present : command.body = .delete → records.revision command.target ≠ none
  after : records'.cell =
    Function.update records.cell command.target (command.cellAfter commit.revision)

variable {rs rs' : Records} {cmd : PreparedCommand} {observedAt : ℕ}
  {cmt : DatabaseCommit} {sha : Sha256} {store start : Store} {tr : List WriteEntry}

/-- What the row of a command's target says of its revision and its version. -/
theorem target_row {row : Option Row} (hrow : rs.row cmd.collection cmd.identifier = row) :
    rs.revision cmd.target = row.map (·.revision) ∧
      ((∀ r ∈ row, r.recordVersion = cmd.recordVersion) →
        ∀ cell, rs.cell cmd.target = some cell → cell.version = cmd.recordVersion) := by
  rw [Records.revision, Records.cell, PreparedCommand.target, hrow]
  refine ⟨rfl, fun hver cell hcell => ?_⟩
  obtain ⟨r, hr, rfl⟩ := Option.map_eq_some_iff.mp hcell
  exact hver r hr

theorem saveRecord_applied {pay : Octets} (hbody : cmd.body = .save pay)
    (h : saveRecord rs cmd pay observedAt = .ok (cmt, rs')) : CommandApplied rs cmd cmt rs' := by
  obtain ⟨⟨⟩, hreq, h⟩ := bind_ok_iff.mp h
  have hacs : cmd.expectedRevision.accepts (rs.revision cmd.target) = true :=
    requireRevision_ok_iff.mp hreq
  cases hrow : rs.row cmd.collection cmd.identifier with
  | some row =>
    obtain ⟨hrev, hcell⟩ := target_row hrow
    rw [hrow] at h
    obtain ⟨hver, h⟩ := throw_if_ok_iff.mp h
    rw [ne_eq, not_not] at hver
    split_ifs at h with hbd
    cases h
    refine ⟨rfl, hacs, hcell (by simpa using hver), by rw [hrev]; rfl, by simp [hbody, hrev],
      by simp [hbody], ?_⟩
    rw [PreparedCommand.cellAfter, hbody, ← hver]
    exact cell_put rs cmd.target _
  | none =>
    obtain ⟨hrev, hcell⟩ := target_row hrow
    rw [hrow] at h
    cases h
    refine ⟨rfl, hacs, hcell (by simp), by rw [hrev]; rfl, by simp [hbody, hrev],
      by simp [hbody], ?_⟩
    rw [PreparedCommand.cellAfter, hbody]
    exact cell_put rs cmd.target _

theorem deleteRecord_applied (hbody : cmd.body = .delete)
    (h : deleteRecord rs cmd observedAt = .ok (cmt, rs')) : CommandApplied rs cmd cmt rs' := by
  rw [deleteRecord] at h
  cases hrow : rs.row cmd.collection cmd.identifier with
  | none =>
    rw [hrow] at h
    cases h
  | some row =>
    obtain ⟨hrev, hcell⟩ := target_row hrow
    rw [hrow] at h
    obtain ⟨hver, h⟩ := throw_if_ok_iff.mp h
    rw [ne_eq, not_not] at hver
    obtain ⟨⟨⟩, hreq, h⟩ := bind_ok_iff.mp h
    cases h
    refine ⟨rfl, ?_, hcell (by simpa using hver), by rw [hrev]; rfl, by simp only [hbody],
      by simp [hrev], ?_⟩
    · rw [hrev]
      exact requireRevision_ok_iff.mp hreq
    · rw [PreparedCommand.cellAfter, hbody]
      exact cell_remove rs cmd.target

/-- STEP: an applied command, whichever it is. -/
theorem applyCommand_applied (h : applyCommand rs cmd observedAt = .ok (cmt, rs')) :
    CommandApplied rs cmd cmt rs' := by
  rw [applyCommand] at h
  cases hbody : cmd.body with
  | save pay => exact saveRecord_applied hbody (by rwa [hbody] at h)
  | delete => exact deleteRecord_applied hbody (by rwa [hbody] at h)

/-! ### The tables as revision counters -/

variable {tgt : Target} {rev : UInt64}

def DatabaseMutation.kind : DatabaseMutation → ChangeKind
  | .created => .create
  | .updated => .advance
  | .deleted => .remove

def DatabaseCommit.change (commit : DatabaseCommit) : Change Target :=
  ⟨commit.target, commit.mutation.kind, commit.revision⟩

theorem revision_of_cell_update {cell : Option Cell}
    (h : rs'.cell = Function.update rs.cell tgt cell) :
    rs'.revision = Function.update rs.revision tgt (cell.map (·.revision)) := by
  obtain ⟨hself, hrest⟩ := eq_update_iff.mp h
  refine eq_update_iff.mpr ⟨?_, fun other hoth => ?_⟩
  · rw [revision_eq, hself]
  · rw [revision_eq, hrest other hoth, revision_eq]

section

variable (h : CommandApplied rs cmd cmt rs')
include h

/-- An applied command is one change of a revision counter. -/
theorem CommandApplied.bump : Bump rs.revision cmt.change rs'.revision := by
  rw [revision_of_cell_update h.after, DatabaseCommit.change, h.target, h.mutation, h.revision]
  cases hbody : cmd.body with
  | save pay =>
    rw [PreparedCommand.cellAfter, hbody, Option.map_some]
    cases hrev : rs.revision cmd.target with
    | some rev => exact .advance hrev
    | none => exact .create hrev
  | delete =>
    rw [PreparedCommand.cellAfter, hbody, Option.map_none]
    obtain ⟨rev, hrev⟩ := Option.ne_none_iff_exists'.mp (h.present hbody)
    rw [hrev]
    exact .remove hrev

theorem CommandApplied.names
    (hexa : cmd.expectedRevision = .exact rev) : rs.revision cmd.target = some rev.toNat := by
  have hacs := h.accepts
  rw [hexa] at hacs
  exact of_decide_eq_true hacs

theorem CommandApplied.creates (hcre : cmt.mutation = .created) : cmd.mayCreate = true := by
  have hmut := h.mutation.symm.trans hcre
  cases hbody : cmd.body with
  | delete => simp [hbody] at hmut
  | save pay =>
    cases hrev : rs.revision cmd.target with
    | some rev => simp [hbody, hrev] at hmut
    | none =>
      rw [PreparedCommand.mayCreate, hbody]
      cases hexp : cmd.expectedRevision with
      | any => rfl
      | missing => rfl
      | exact rev => cases hrev.symm.trans (h.names hexp)

end

/-! ### Writes -/

/-- What one applied submission is: its commands, each applied to its own record. -/
inductive SubmissionApplied : Records → List PreparedCommand → List DatabaseCommit → Records → Prop
  | nil {records : Records} : SubmissionApplied records [] [] records
  | cons {records middle records' : Records} {command : PreparedCommand}
      {commands : List PreparedCommand} {commit : DatabaseCommit} {commits : List DatabaseCommit}
      (first : CommandApplied records command commit middle)
      (rest : SubmissionApplied middle commands commits records')
      (fresh : ∀ other ∈ commands, other.target ≠ command.target) :
      SubmissionApplied records (command :: commands) (commit :: commits) records'

namespace SubmissionApplied

variable {commands : List PreparedCommand} {commits : List DatabaseCommit}

section

variable (h : SubmissionApplied rs commands commits rs')
include h

theorem bumps : Bumps rs.revision (commits.map (·.change)) rs'.revision := by
  induction h with
  | nil => exact .nil
  | cons first _ _ ih => exact (Bumps.single first.bump).trans ih

theorem targets : commits.map (·.target) = commands.map (·.target) := by
  induction h with
  | nil => rfl
  | cons first _ _ ih => rw [map_cons, map_cons, first.target, ih]

/-- FRAME: the records that are no targets. -/
theorem others (htgt : tgt ∉ commands.map (·.target)) : rs'.cell tgt = rs.cell tgt := by
  induction h with
  | nil => rfl
  | cons first _ _ ih =>
    rw [map_cons, mem_cons, not_or] at htgt
    rw [ih htgt.2, first.after, update_of_ne htgt.1]

/-- Each command is applied to the records as they were before the submission. -/
theorem command_applied (hcmd : cmd ∈ commands) : ∃ cmt ∈ commits,
      ∃ middle middle', CommandApplied middle cmd cmt middle' ∧
        middle.cell cmd.target = rs.cell cmd.target ∧
        rs'.cell cmd.target = cmd.cellAfter cmt.revision := by
  induction h with
  | nil => cases hcmd
  | @cons rs middle rs' first' commands cmt commits first rest fresh ih =>
    rcases mem_cons.mp hcmd with rfl | hcmd
    · refine ⟨cmt, mem_cons_self, rs, middle, first, rfl, ?_⟩
      rw [rest.others, first.after, update_self]
      intro hmem
      obtain ⟨other, hoth, htgt⟩ := mem_map.mp hmem
      exact fresh other hoth htgt
    · obtain ⟨cmt', hcmt', m, m', happ, hbef, haft⟩ := ih hcmd
      refine ⟨cmt', mem_cons_of_mem _ hcmt', m, m', happ, ?_, haft⟩
      rw [hbef, first.after, update_of_ne (fresh cmd hcmd)]

theorem names (hcmd : cmd ∈ commands)
    (hexa : cmd.expectedRevision = .exact rev) : rs.revision cmd.target = some rev.toNat := by
  obtain ⟨_, _, middle, _, happ, hbef, -⟩ := h.command_applied hcmd
  rw [revision_eq, ← hbef, ← revision_eq]
  exact happ.names hexa

theorem creates (hcmt : cmt ∈ commits) (hcre : cmt.mutation = .created) :
    ∃ cmd ∈ commands, cmd.target = cmt.target ∧ cmd.mayCreate = true := by
  induction h with
  | nil => cases hcmt
  | cons first _ _ ih =>
    rcases mem_cons.mp hcmt with rfl | hcmt
    · exact ⟨_, mem_cons_self, first.target.symm, first.creates hcre⟩
    · obtain ⟨cmd, hcmd, hcrt⟩ := ih hcmt
      exact ⟨cmd, mem_cons_of_mem _ hcmd, hcrt⟩

end

end SubmissionApplied

theorem foldlM_applied : ∀ {commands : List PreparedCommand} {rs : Records}
    {found made : List DatabaseCommit × Records}, (commands.map (·.target)).Nodup → found.2 = rs →
    commands.foldlM (applyNext observedAt) found = .ok made → ∃ commits,
    made.1 = found.1 ++ commits ∧ SubmissionApplied rs commands commits made.2
  | [], rs, found, made, _, hrcs, h => by
    cases h
    exact ⟨[], (append_nil _).symm, hrcs ▸ .nil⟩
  | cmd :: commands, rs, found, made, hnd, hrcs, h => by
    subst hrcs
    obtain ⟨hnew, hnd⟩ := nodup_cons.mp hnd
    rw [foldlM_cons] at h
    obtain ⟨next, hnx, h⟩ := bind_ok_iff.mp h
    obtain ⟨⟨cmt, middle⟩, happ, hnx⟩ := bind_ok_iff.mp hnx
    cases hnx
    obtain ⟨commits, hcts, hapd⟩ := foldlM_applied hnd rfl h
    refine ⟨cmt :: commits, by rw [hcts, append_assoc]; rfl, ?_⟩
    refine .cons (applyCommand_applied happ) hapd ?_
    intro other hoth htgt
    exact hnew (mem_map.mpr ⟨other, hoth, htgt⟩)

/-- STEP: an applied submission makes the changes of its commands. -/
theorem perform_applied {sub : Submission} {res : StoredResult}
    (h : sub.perform rs observedAt = .ok (res, rs')) :
    SubmissionApplied rs sub.commands res.commits rs' := by
  cases sub with
  | command prepared =>
    obtain ⟨⟨cmt, made⟩, happ, h⟩ := bind_ok_iff.mp h
    cases h
    exact .cons (applyCommand_applied happ) .nil (by simp)
  | transaction batch =>
    obtain ⟨⟨commits, made⟩, hfold, h⟩ := bind_ok_iff.mp h
    cases h
    obtain ⟨commits', hcts, hapd⟩ := foldlM_applied batch.targets_nodup rfl hfold
    rw [nil_append] at hcts
    subst hcts
    exact hapd

variable {store' : Store} {a : Submission × WriterEnvironment} {out : WriteOutcome}

theorem writerStep_bumps (h : writerStep sha store a = some (store', out)) :
    Bumps store.records.revision (out.commits.map (·.change)) store'.records.revision := by
  cases writerStep_moves h with
  | failed => exact .nil
  | replayed => exact .nil
  | applied _ _ performed => exact (perform_applied performed).bumps

/-- RUN: a history is the sequence of its commits. -/
theorem run_bumps (hrun : Run (writerStep sha) start tr store) :
    Bumps start.records.revision ((committed tr).map (·.change)) store.records.revision := by
  induction hrun with
  | nil => exact .nil
  | snoc _ hst ih =>
    rw [committed, flatMap_append, flatMap_singleton, map_append]
    exact ih.trans (writerStep_bumps hst)

/-! ### Histories without revivals -/

variable {mutation : DatabaseMutation}

/-- A record whose deletion was committed is not submitted again by a save that may create it. -/
def KeepsDeleted (tr : List WriteEntry) : Prop :=
  tr.Pairwise fun e later => ∀ commit ∈ e.2.2.commits, commit.mutation = .deleted →
    ∀ command ∈ later.2.1.1.commands, command.target = commit.target → command.mayCreate = false

instance keepsDeletedDecidable (tr : List WriteEntry) : Decidable (KeepsDeleted tr) :=
  inferInstanceAs (Decidable (List.Pairwise _ tr))

theorem kind_eq_create : mutation.kind = .create ↔ mutation = .created := by
  cases mutation <;> simp [DatabaseMutation.kind]

theorem kind_eq_remove : mutation.kind = .remove ↔ mutation = .deleted := by
  cases mutation <;> simp [DatabaseMutation.kind]

theorem writerStep_applied (h : writerStep sha store a = some (store', out))
    (hcts : out.commits ≠ []) :
    SubmissionApplied store.records a.1.commands out.commits store'.records := by
  cases writerStep_moves h with
  | failed | replayed => exact absurd rfl hcts
  | applied _ _ performed => exact perform_applied performed

theorem Submission.targets_nodup (sub : Submission) : (sub.commands.map (·.target)).Nodup := by
  cases sub with
  | command prepared => exact nodup_singleton _
  | transaction batch => exact batch.targets_nodup

/-- RUN: the commits of a history that keeps deleted records deleted revive nothing. -/
theorem noRevival_of_keepsDeleted (hrun : Run (writerStep sha) start tr store)
    (hkps : KeepsDeleted tr) : NoRevival ((committed tr).map (·.change)) := by
  induction hrun with
  | nil => exact List.Pairwise.nil
  | @snoc tr s t a out _ hst ih =>
    obtain ⟨hpre, -, hlast⟩ := pairwise_append.mp hkps
    rw [committed, flatMap_append, flatMap_singleton, map_append]
    by_cases hcts : out.commits = []
    · rw [hcts, map_nil, append_nil]
      exact ih hpre
    have happ := writerStep_applied hst hcts
    refine pairwise_append.mpr ⟨ih hpre, ?_, ?_⟩
    · -- the rs of one submission are different ones
      have hnd : (out.commits.map (·.target)).Nodup :=
        happ.targets ▸ a.1.targets_nodup
      refine pairwise_map.mpr ((pairwise_map.mp hnd).imp ?_)
      intro cmt later hne _ htgt
      exact absurd htgt.symm hne
    · intro change hcha change' hcha' hrem htgt hcre
      obtain ⟨cmt, hcmt, rfl⟩ := mem_map.mp hcha
      obtain ⟨later, hlat, rfl⟩ := mem_map.mp hcha'
      obtain ⟨e, he, hcmt⟩ := mem_flatMap.mp hcmt
      obtain ⟨cmd, hcmd, hsame, hmay⟩ :=
        happ.creates hlat (kind_eq_create.mp hcre)
      have hnot := hlast e he _ (mem_singleton_self _) cmt hcmt
        (kind_eq_remove.mp hrem) cmd hcmd (hsame.trans htgt)
      exact Bool.noConfusion (hnot.symm.trans hmay)

/-- In every history that keeps deleted records deleted, the revisions committed for one record
    grow, deletions included; and if a record was read at a revision and a write that names it is
    applied later, then nothing was committed for the record in between. -/
theorem revisions_without_lost_update (sha : Sha256) {start store : Store} {tr : List WriteEntry}
    (hrun : Run (writerStep sha) start tr store) (hkeeps : KeepsDeleted tr) :
    ((committed tr).Pairwise fun commit later =>
      later.target = commit.target → commit.revision < later.revision) ∧
    ∀ before between write after read, tr = before ++ between ++ write :: after →
      (between ++ [write]).head? = some read →
      ∀ command ∈ write.2.1.1.commands, ∀ revision, command.expectedRevision = .exact revision →
        read.1.records.revision command.target = some revision.toNat → write.2.2.commits ≠ [] →
        ∀ commit ∈ committed between, commit.target ≠ command.target := by
  refine ⟨?_, ?_⟩
  · have hgrow := ((run_bumps hrun).increasing (noRevival_of_keepsDeleted hrun hkeeps)).2
    exact pairwise_map.mp hgrow
  · rintro before between write after read rfl hread command hcmd revision hexa hrev
      hcts commit hcmt htgt
    obtain ⟨middle, hbef, hrest⟩ := (append_assoc before _ _ ▸ hrun).split
    obtain ⟨atWrite, hbet, hwri⟩ := hrest.split
    obtain ⟨rfl, m, hst, -⟩ := hwri.uncons
    -- the read sees the state in which the part between it and the write starts
    have hstr : read.1 = middle := by
      cases between with
      | nil =>
        cases hread
        exact hbet.eq_of_nil
      | cons first rest =>
        cases hread
        exact hbet.uncons.1
    have hend := (writerStep_applied hst hcts).names hcmd hexa
    have hkee : KeepsDeleted between :=
      hkeeps.sublist ((sublist_append_right _ _).trans (sublist_append_left _ _))
    refine (run_bumps hbet).unchanged (noRevival_of_keepsDeleted hbet hkee)
      (hstr ▸ hrev) hend commit.change ?_ htgt
    exact mem_map_of_mem hcmt

theorem payload_of_delete : ∀ pay, CommandBody.delete = .save pay →
    pay.length ≤ maxRecordBytes := by
  rintro _ ⟨⟩

def deleteNode (key : Octets) (expected : DatabaseRevision) : PreparedCommand where
  collection := .nodes
  recordVersion := 1
  identifier := utf8 "a"
  body := .delete
  idempotencyKey := key
  expectedRevision := expected
  version_ne := one_ne
  identifier_length := length_utf8_a
  payload_length := payload_of_delete

/-- A record is created, changed and deleted, and its name is not used again. -/
theorem revisions_without_lost_update_deleted :
    ∃ tr store, Run (writerStep lastBytes) .blank tr store ∧ KeepsDeleted tr ∧ (committed tr).map
      (·.revision) = [1, 2, 3] ∧ (committed tr).Pairwise fun commit later =>
        later.target = commit.target → commit.revision < later.revision := by
  obtain ⟨tr, store, hrun, hkps, hrev⟩ := Run.exists_of_exec (writerStep lastBytes) .blank
    [(.command (saveNode [1] [7] .missing (by decide)), ⟨.ok 1, none⟩),
      (.command (saveNode [2] [8] (.exact 1) (by decide)), ⟨.ok 2, none⟩),
      (.command (deleteNode [3] (.exact 2)), ⟨.ok 3, none⟩)]
    (fun tr _ => KeepsDeleted tr ∧ (committed tr).map (·.revision) = [1, 2, 3])
    (by decide +kernel)
  exact ⟨tr, store, hrun, hkps, hrev, (revisions_without_lost_update lastBytes hrun hkps).1⟩

/-- A record is read at revision one, deleted and created again. A write that names revision one is
    applied to the new record, and the revisions 1, 2, 1, 2 were given. -/
theorem revived_record_loses_update :
    ∃ before between write read store, Run (writerStep lastBytes) .blank
      (before ++ between ++ [write]) store ∧ between.head? = some read ∧ read.1.records.revision
      (.nodes, utf8 "a") = some 1 ∧ write.2.1.1 = .command
      (saveNode [4] [9] (.exact 1) (by decide)) ∧ write.2.2.commits ≠ [] ∧
      (committed between).map (fun commit => (commit.target, commit.mutation)) =
        [((.nodes, utf8 "a"), .deleted), ((.nodes, utf8 "a"), .created)] ∧
      (committed (before ++ between ++ [write])).map (·.revision) = [1, 2, 1, 2] := by
  obtain ⟨tr, store, hrun, hlbs, hread, hwri, hbet, hrev⟩ :=
    Run.exists_labelled_of_exec (writerStep lastBytes) .blank
    [(.command (saveNode [1] [7] .missing (by decide)), ⟨.ok 1, none⟩),
      (.command (deleteNode [2] (.exact 1)), ⟨.ok 2, none⟩),
      (.command (saveNode [3] [8] .missing (by decide)), ⟨.ok 3, none⟩),
      (.command (saveNode [4] [9] (.exact 1) (by decide)), ⟨.ok 4, none⟩)]
    (fun tr _ =>
      (tr[1]?.bind fun e : WriteEntry => e.1.records.revision (.nodes, utf8 "a")) = some 1 ∧
      (tr[3]?.map fun e : WriteEntry => e.2.2.commits) ≠ some [] ∧
      (committed ((tr.drop 1).take 2)).map (fun commit => (commit.target, commit.mutation)) =
        [((.nodes, utf8 "a"), .deleted), ((.nodes, utf8 "a"), .created)] ∧
      (committed tr).map (·.revision) = [1, 2, 1, 2])
    (by decide +kernel)
  have hlen : tr.length = 4 := by simpa using congrArg List.length hlbs
  obtain ⟨first, second, third, fourth, rfl⟩ := length_eq_four.mp hlen
  simp only [map_cons, map_nil, List.cons.injEq, and_true] at hlbs
  exact ⟨[first], [second, third], fourth, second, store, hrun, rfl, hread,
    congrArg Prod.fst hlbs.2.2.2, fun hno => hwri (congrArg some hno), hbet,
    hrev⟩

end LetsInfer.Database
