import LetsInfer.PrefixStore.Records
import LetsInfer.PrefixStore.Moves

/-! @src cache/letsinfer_prefix_store/src/store.rs | name:Bookkeeping of the store | scheme:abstraction

    The store without its bytes: which captures hold a reservation, which records are indexed, which
    readers are open. A capture passes through five standings,

        before ▸ reserved ▸ held ▸ done        (failed when the enforcement finds no room)

    and every step of the store changes the bookkeeping in one of the ways of `Shift`. The facts about
    bytes, pins and key hashes are proved over the shifts and hold of the store by `Moves.shift`. -/

namespace LetsInfer.PrefixStore
open Schemes

/-- Where a capture stands with its reservation. -/
inductive Standing where
  | before
  /-- Reserved; the capacity is not enforced yet. -/
  | reserved
  /-- The enforcement found no room; the reservation is still to be given back. -/
  | failed
  | held
  | done
  deriving DecidableEq

def CaptureStage.standing : CaptureStage → Standing
  | .planned => .before
  | .reserved => .reserved
  | .sweeping _ true => .failed
  | .refused .insufficientCapacity => .failed
  | .promoting _ _ | .closing => .done
  | _ => .held

def Standing.holds : Standing → Bool
  | .before | .done => false
  | .reserved | .failed | .held => true

/-- The prepared commit of a capture. -/
def CaptureStage.job : CaptureStage → Option PreparedCommit
  | .queued job | .committing job _ => some job
  | _ => none

/-- What a job takes over from the header it was prepared from. -/
def PreparedCommit.For (job : PreparedCommit) (header : RecordHeader) : Prop :=
  job.header.keyHash = header.keyHash ∧ job.header.fileBytes = header.fileBytes

theorem prepare_for {crc : List UInt8 → UInt32} {hdr : RecordHeader} {bs : Blob} {promote : Bool}
    {job : PreparedCommit} (h : prepare crc hdr bs promote = some job) : job.For hdr := by
  rw [prepare] at h
  split at h
  · cases h
  · dsimp only at h
    split at h
    · cases h
    · cases h
      exact ⟨rfl, rfl⟩

theorem fileBytes_le_of_plan {cfg : StoreConfig} {fp : Fingerprint}
    {ts : List UInt32} {rgs : List RegionDescription} {hdr : RecordHeader}
    (h : planCapture cfg fp ts rgs = .ok hdr) : hdr.fileBytes ≤ cfg.capacityBytes := by
  unfold planCapture at h
  split_ifs at h
  split at h
  · cases h
  · split_ifs at h with hlar
    cases h
    exact not_lt.mp hlar

/-- What a reader keeps from its opening to its drop. -/
def RecordReader.pin (reader : RecordReader) : RecordHeader × Path × ℕ :=
  (reader.header, reader.path, reader.capture)

/-- At most one reader has moved on, on the record it had. -/
def SamePins (s t : Sys) : Prop :=
  t.readers = s.readers ∨ ∃ r old new, s.readers.lookup r = some old ∧ new.pin = old.pin ∧
    t.readers = s.readers.insert r new

/-- The ways in which a step changes the bookkeeping. -/
inductive Shift (config : StoreConfig) (s t : Sys) : Label → Prop
  | same {label} (hindex : t.index = s.index) (hcaptures : t.captures = s.captures)
    (hpins : SamePins s t) (hnext : s.next ≤ t.next) : Shift config s t label
  | opened {label} {c : Capture} (hc : c.stage = .planned)
    (hroom : s.outstanding < maxOutstandingCommits)
    (hbytes : c.header.fileBytes ≤ config.capacityBytes) (hindex : t.index = s.index)
    (hcaptures : t.captures = s.captures.insert s.next c) (hreaders : t.readers = s.readers)
    (hnext : t.next = s.next + 1) : Shift config s t label
  -- A capture goes on with the standing it has, or ends before it reserved anything.
  | staged {label n c stage} (hc : s.captures.lookup n = some c)
    (hstanding : stage.standing = c.stage.standing ∨
      c.stage.standing = .before ∧ stage.standing = .done)
    (hjob : ∀ job, stage.job = some job → c.stage.job = some job ∨ job.For c.header)
    (hindex : t.index = s.index)
    (hcaptures : t.captures = s.captures.insert n { c with stage := stage })
    (hreaders : t.readers = s.readers) (hnext : t.next = s.next) : Shift config s t label
  | closed {label n c} (hc : s.captures.lookup n = some c) (hstage : c.stage.standing = .done)
    (hindex : t.index = s.index) (hcaptures : t.captures = s.captures.erase n)
    (hreaders : t.readers = s.readers) (hnext : t.next = s.next) : Shift config s t label
  | reserve {n c} (hc : s.captures.lookup n = some c) (hstage : c.stage = .planned)
    (hnew : c.header.keyHash ∉ s.index.reservedHashes)
    (hindex : t.index = s.index.reserve c.header.keyHash c.header.fileBytes)
    (hcaptures : t.captures = s.captures.insert n { c with stage := .reserved })
    (hreaders : t.readers = s.readers) (hnext : t.next = s.next) :
    Shift config s t (.reserve n)
  | enforce {n c victims exhausted} (hc : s.captures.lookup n = some c)
    (hstage : c.stage = .reserved)
    (hindex : IndexState.enforce config.capacityBytes 0 s.index.records.length s.index =
      (t.index, victims, exhausted))
    (hcaptures : t.captures =
      s.captures.insert n { c with stage := .sweeping ⟨victims, false⟩ exhausted })
    (hreaders : t.readers = s.readers) (hnext : t.next = s.next) :
    Shift config s t (.enforce n)
  | release {label n c} (hc : s.captures.lookup n = some c)
    (hstage : c.stage.standing = .held ∨ c.stage.standing = .failed)
    (hindex : t.index = s.index.unreserve c.header.keyHash c.header.fileBytes ∨
      t.index = s.index.cancelReservation c.header.keyHash c.header.fileBytes)
    (hcaptures : t.captures = s.captures.insert n { c with stage := .closing })
    (hreaders : t.readers = s.readers) (hnext : t.next = s.next) : Shift config s t label
  | publish {n c job now stage} (hc : s.captures.lookup n = some c)
    (hstage : c.stage.standing = .held) (hjob : c.stage.job = some job)
    (hindex : t.index = (s.index.publish (job.record c.tokens n now)).1)
    (hdone : stage.standing = .done)
    (hcaptures : t.captures = s.captures.insert n { c with stage := stage })
    (hreaders : t.readers = s.readers) (hnext : t.next = s.next) :
    Shift config s t (.publish n now)
  | reclaim {now victims}
    (hindex : s.index.reclaim config.ttlSeconds now = (t.index, victims))
    (hcaptures : t.captures = s.captures) (hreaders : t.readers = s.readers)
    (hnext : s.next ≤ t.next) : Shift config s t (.reclaim now)
  | evict {r reader victim} (hr : s.readers.lookup r = some reader)
    (hindex : s.index.evictForIntegrity reader.header.keyHash = (t.index, victim))
    (hcaptures : t.captures = s.captures) (hpins : SamePins s t) (hnext : t.next = s.next) :
    Shift config s t (.evict r)
  | touch {r reader now} (hr : s.readers.lookup r = some reader)
    (hindex : t.index = s.index.touch reader.header.keyHash now)
    (hcaptures : t.captures = s.captures) (hreaders : t.readers = s.readers)
    (hnext : t.next = s.next) : Shift config s t (.touch r now)
  | hit {fingerprint tokens minimum now record} {reader : RecordReader}
    (hfound : s.index.longestPrefix fingerprint tokens minimum now = some (record, t.index))
    (hpin : reader.pin = (record.header, record.path, record.capture))
    (hcaptures : t.captures = s.captures) (hreaders : t.readers = s.readers.insert s.next reader)
    (hnext : t.next = s.next + 1) : Shift config s t (.lookup fingerprint tokens minimum now)
  | drop {r reader} (hr : s.readers.lookup r = some reader)
    (hindex : t.index = s.index.releaseReader reader.header.keyHash)
    (hcaptures : t.captures = s.captures) (hreaders : t.readers = s.readers.erase r)
    (hnext : t.next = s.next) : Shift config s t (.dropReader r)

/-! ### The steps of the store are shifts -/

section Shifts

variable {crc : List UInt8 → UInt32} {cfg : StoreConfig} {s t : Sys} {lab : Label}
  {o : Output} {r : ℕ} {old new : RecordReader}

theorem SamePins.moved (hr : s.readers.lookup r = some old)
    (hrds : t.readers = s.readers.insert r new) (hpin : new.pin = old.pin) : SamePins s t :=
  .inr ⟨r, old, new, hr, hpin, hrds⟩

theorem Shift.ofReader (hr : s.readers.lookup r = some old) (hidx : t.index = s.index)
    (hcap : t.captures = s.captures) (hrds : t.readers = s.readers.insert r new)
    (hpin : new.pin = old.pin) (hnx : t.next = s.next) : Shift cfg s t lab :=
  .same hidx hcap (.moved hr hrds hpin) hnx.ge

/-- A stage of a load, whatever its outcome, moves one reader on. It deletes nothing, and carries on
    what the reader had, or what the stage returned. -/
theorem exists_advanceLoad (s : Sys) (r : ℕ) (old : RecordReader) (elected : Bool)
    (res : ReadResult) :
    ∃ new : RecordReader, s.advanceLoad r old elected res = s.setReader r new ∧
      new.pin = old.pin ∧ (∀ sweep, new.stage ≠ .sweeping sweep) ∧
      ∀ blob, new.blob = some blob ∨ new.stage = .settling (some blob) →
        old.blob = some blob ∨ res = .done blob := by
  cases res with
  | next sg => exact ⟨_, rfl, rfl, by simp, by simp⟩
  | failed => exact ⟨_, rfl, rfl, by cases elected <;> simp, by cases elected <;> simp⟩
  | done blob =>
    rw [Sys.advanceLoad]
    by_cases hlen : blob.length ≠ old.header.fileBytes
    · rw [if_pos hlen]
      exact ⟨_, rfl, rfl, by cases elected <;> simp, by cases elected <;> simp +contextual⟩
    · rw [if_neg hlen]
      cases elected
      · exact ⟨_, rfl, rfl, by simp, by simp⟩
      · exact ⟨_, rfl, rfl, by simp, by simp⟩

theorem standing_afterPublish (job : PreparedCommit) (blob : Option Blob) :
    (afterPublish job blob).standing = .done := by
  unfold afterPublish
  split <;> rfl

/-- SIMULATION: every step of the store is a shift of its bookkeeping. -/
theorem Moves.shift (h : Moves crc cfg s lab t o) : Shift cfg s t lab := by
  cases h with
  | refusePlan | miss | electBusy | readRegion | releaseResident | sweep | swept =>
    exact .same rfl rfl (.inl rfl) le_rfl
  | plan hplan hroom => exact .opened rfl hroom (fileBytes_le_of_plan hplan) rfl rfl rfl rfl
  | stored hc hsg =>
    exact .staged hc (.inr ⟨by rw [hsg]; rfl, rfl⟩) (by simp [CaptureStage.job]) rfl rfl rfl rfl
  | reserve hc hsg hnew =>
    refine .reserve hc hsg ?_ rfl rfl rfl rfl
    simp only [IndexState.isStored, decide_eq_false_iff_not, not_or] at hnew
    exact hnew.1
  | enforce hc hsg henf => exact .enforce hc hsg henf rfl rfl rfl
  | @sweepCapture _ _ _ exh _ _ _ hc hsg =>
    refine .staged hc (.inl ?_) (by simp [CaptureStage.job]) rfl rfl rfl rfl
    rw [hsg]
    cases exh <;> rfl
  | @sweptCapture _ _ _ exh hc hsg =>
    refine .staged hc (.inl ?_) ?_ rfl rfl rfl rfl
    · rw [hsg]
      cases exh <;> rfl
    · cases exh <;> simp [CaptureStage.job]
  | @rollback _ _ why hc hsg =>
    refine .release hc ?_ (.inl rfl) rfl rfl rfl
    rw [hsg]
    cases why <;> simp [CaptureStage.standing]
  | allocate hc hsg | allocateFail hc hsg | writeRegion hc hsg _ _
  | unprepared hc hsg | bounce hc hsg | persistUnsynced hc hsg | persistFail hc hsg
  | discard hc hsg | promote hc hsg =>
    exact .staged hc (.inl (by rw [hsg]; rfl)) (by simp [CaptureStage.job]) rfl rfl rfl rfl
  | abandon hc hsg => exact .release hc (.inl (by rw [hsg]; rfl)) (.inl rfl) rfl rfl rfl
  | commit hc hsg hjob | enqueue hc hsg hjob =>
    refine .staged hc (.inl (by rw [hsg]; rfl)) ?_ rfl rfl rfl rfl
    rintro job ⟨⟩
    exact .inr (prepare_for hjob)
  | receive hc hsg | persist hc hsg | readBack hc hsg stage' =>
    refine .staged hc (.inl (by rw [hsg]; rfl)) ?_ rfl rfl rfl rfl
    rintro job ⟨⟩
    exact .inl (by rw [hsg]; rfl)
  | cancelReservation hc hsg =>
    exact .release hc (.inl (by rw [hsg]; rfl)) (.inr rfl) rfl rfl rfl
  | publish hc hsg hpub =>
    refine .publish hc (by rw [hsg]; rfl) (by rw [hsg]; rfl) ?_
      (standing_afterPublish _ _) rfl rfl rfl
    rw [hpub]
    rfl
  | close hc hsg => exact .closed hc (by rw [hsg]; rfl) rfl rfl rfl rfl
  | hit hfd => exact .hit hfd rfl rfl rfl rfl
  | touch hr => exact .touch hr rfl rfl rfl rfl
  | load hr | electHit hr | elected hr | settle hr | settleFail hr | sweepReader hr
  | sweptReader hr => exact .ofReader hr rfl rfl rfl rfl rfl
  | readStep hr =>
    obtain ⟨new, heq, hpin, -⟩ := exists_advanceLoad s _ _ _ _
    rw [heq]
    exact .ofReader hr rfl rfl rfl hpin rfl
  | evict hr _ hevi => exact .evict hr hevi rfl (.moved hr rfl rfl) rfl
  | dropReader hr => exact .drop hr rfl rfl rfl rfl
  | reclaim hrec => exact .reclaim hrec rfl rfl (Nat.le_succ _)

end Shifts

end LetsInfer.PrefixStore
