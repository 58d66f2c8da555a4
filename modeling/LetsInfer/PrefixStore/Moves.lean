import LetsInfer.PrefixStore.System

/-! @src cache/letsinfer_prefix_store/src/store.rs | name:What a step of the store does | scheme:inversion

    Every step of the store is one of the moves below, with the state it ends in written out. The
    properties of whole runs are proved by cases on the moves; none of them opens the step function
    again. -/

namespace LetsInfer.PrefixStore
open Schemes

/-- The outcomes of a step. -/
inductive Moves (crc32 : List UInt8 → UInt32) (config : StoreConfig) (s : Sys) :
    Label → Sys → Output → Prop
  -- Captures up to the live writer.
  | refusePlan {fingerprint tokens regions why} :
    Moves crc32 config s (.beginCapture fingerprint tokens regions) s (.rejected why)
  | plan {fingerprint tokens regions header}
    (hplan : planCapture config fingerprint tokens regions = .ok header)
    (hroom : s.outstanding < maxOutstandingCommits) :
    Moves crc32 config s (.beginCapture fingerprint tokens regions)
      { s with
        outstanding := s.outstanding + 1
        captures := s.captures.insert s.next ⟨header, tokens, .planned⟩
        next := s.next + 1 } .silent
  | stored {n c} (hc : s.captures.lookup n = some c) (hstage : c.stage = .planned) :
    Moves crc32 config s (.reserve n) (s.setStage n c .closing) (.rejected .alreadyStored)
  | reserve {n c} (hc : s.captures.lookup n = some c) (hstage : c.stage = .planned)
    (hnew : s.index.isStored c.header.keyHash c.tokens = false) :
    Moves crc32 config s (.reserve n)
      (Sys.setStage { s with index := s.index.reserve c.header.keyHash c.header.fileBytes } n c
        .reserved) .silent
  | enforce {n c index victims exhausted} (hc : s.captures.lookup n = some c)
    (hstage : c.stage = .reserved)
    (henforce : IndexState.enforce config.capacityBytes 0 s.index.records.length s.index =
      (index, victims, exhausted)) :
    Moves crc32 config s (.enforce n)
      (Sys.setStage { s with index := index } n c (.sweeping ⟨victims, false⟩ exhausted)) .silent
  | sweepCapture {n c sweep exhausted sweep' tier files} (hc : s.captures.lookup n = some c)
    (hstage : c.stage = .sweeping sweep exhausted)
    (hsweep : sweepStep sweep s.tier s.files = some (sweep', tier, files)) :
    Moves crc32 config s (.sweepCapture n)
      (Sys.setStage { s with tier := tier, files := files } n c (.sweeping sweep' exhausted))
      .silent
  | sweptCapture {n c sweep exhausted} (hc : s.captures.lookup n = some c)
    (hstage : c.stage = .sweeping sweep exhausted)
    (hsweep : sweepStep sweep s.tier s.files = none) :
    Moves crc32 config s (.sweepCapture n)
      (s.setStage n c (if exhausted then .refused .insufficientCapacity else .granted)) .silent
  | rollback {n c why} (hc : s.captures.lookup n = some c) (hstage : c.stage = .refused why) :
    Moves crc32 config s (.rollback n)
      (Sys.setStage { s with index := s.index.unreserve c.header.keyHash c.header.fileBytes } n c
        .closing) (.rejected why)
  | allocate {n c} (hc : s.captures.lookup n = some c) (hstage : c.stage = .granted) :
    Moves crc32 config s (.allocate n true)
      (s.setStage n c (.writing (captureBuffer c.header c.tokens))) .silent
  | allocateFail {n c} (hc : s.captures.lookup n = some c) (hstage : c.stage = .granted) :
    Moves crc32 config s (.allocate n false) (s.setStage n c (.refused .allocationFailure)) .silent
  | writeRegion {n c index data bytes range} (hc : s.captures.lookup n = some c)
    (hstage : c.stage = .writing bytes) (hrange : c.header.regionRange index = some range)
    (hlength : data.length = range.stop - range.start) :
    Moves crc32 config s (.writeRegion n index data)
      (s.setStage n c (.writing (overwrite bytes range.start data))) .silent
  | abandon {n c bytes} (hc : s.captures.lookup n = some c) (hstage : c.stage = .writing bytes) :
    Moves crc32 config s (.abandon n)
      (Sys.setStage { s with index := s.index.unreserve c.header.keyHash c.header.fileBytes } n c
        .closing) .silent
  -- Commits.
  | unprepared {n c bytes label} (hc : s.captures.lookup n = some c)
    (hstage : c.stage = .writing bytes)
    (hlabel : label = .commit n ∨ ∃ promote, label = .commitAsync n promote) :
    Moves crc32 config s label (s.setStage n c .cancelling) .failed
  | commit {n c bytes job} (hc : s.captures.lookup n = some c) (hstage : c.stage = .writing bytes)
    (hjob : prepare crc32 c.header bytes true = some job) :
    Moves crc32 config s (.commit n)
      (Sys.setStage { s with captured := (job.header, job.bytes) :: s.captured } n c
        (.committing job .persisting)) .silent
  | enqueue {n c bytes promote job} (hc : s.captures.lookup n = some c)
    (hstage : c.stage = .writing bytes)
    (hjob : prepare crc32 c.header bytes promote = some job) :
    Moves crc32 config s (.commitAsync n promote)
      (Sys.setStage
        { s with captured := (job.header, job.bytes) :: s.captured, queue := some n } n c
        (.queued job)) .silent
  | bounce {n c bytes promote job} (hc : s.captures.lookup n = some c)
    (hstage : c.stage = .writing bytes)
    (hjob : prepare crc32 c.header bytes promote = some job) :
    Moves crc32 config s (.commitAsync n promote)
      (Sys.setStage { s with captured := (job.header, job.bytes) :: s.captured } n c .cancelling)
      .failed
  | receive {n c job} (hc : s.captures.lookup n = some c) (hstage : c.stage = .queued job) :
    Moves crc32 config s .receive
      (Sys.setStage { s with queue := none, working := some n } n c (.committing job .persisting))
      .silent
  | persist {n c job} (hc : s.captures.lookup n = some c)
    (hstage : c.stage = .committing job .persisting) :
    Moves crc32 config s (.persist n .renamed)
      (Sys.setStage
        { s with files := s.files.insert (.record job.header.keyHash) ⟨job.bytes, n⟩ } n c
        (.committing job (afterPersist config job))) .silent
  | persistUnsynced {n c job} (hc : s.captures.lookup n = some c)
    (hstage : c.stage = .committing job .persisting) :
    Moves crc32 config s (.persist n .unsynced)
      (Sys.setStage
        { s with files := s.files.insert (.record job.header.keyHash) ⟨job.bytes, n⟩ } n c
        .cancelling) .failed
  | persistFail {n c job} (hc : s.captures.lookup n = some c)
    (hstage : c.stage = .committing job .persisting) :
    Moves crc32 config s (.persist n .notWritten) (s.setStage n c .cancelling) .failed
  | readBack {n c job stage io} (hc : s.captures.lookup n = some c)
    (hstage : c.stage = .committing job (.reading stage)) (stage' : CommitStage)
    (hread : (stage' = .discarding ∨
        ∃ next, stage' = .reading next ∧ readStage crc32 job.header stage
          (s.files.lookup (.record job.header.keyHash)) io = .next next) ∨
        ∃ blob, stage' = .publishing (some blob) ∧ readStage crc32 job.header stage
          (s.files.lookup (.record job.header.keyHash)) io = .done blob) :
    Moves crc32 config s (.readBack n io) (s.setStage n c (.committing job stage')) .silent
  | discard {n c job} (hc : s.captures.lookup n = some c)
    (hstage : c.stage = .committing job .discarding) :
    Moves crc32 config s (.discard n)
      (Sys.setStage { s with files := s.files.erase (.record job.header.keyHash) } n c .cancelling)
      .failed
  | cancelReservation {n c} (hc : s.captures.lookup n = some c) (hstage : c.stage = .cancelling) :
    Moves crc32 config s (.cancelReservation n)
      (Sys.setStage
        { s with index := s.index.cancelReservation c.header.keyHash c.header.fileBytes } n c
        .closing) .silent
  | publish {n c job blob now index prior} (hc : s.captures.lookup n = some c)
    (hstage : c.stage = .committing job (.publishing blob))
    (hpublish : s.index.publish (job.record c.tokens n now) = (index, prior)) :
    Moves crc32 config s (.publish n now)
      (Sys.setStage { s with index := index, tier := s.tier.retire prior } n c
        (afterPublish job blob)) .silent
  | promote {n c path blob} (hc : s.captures.lookup n = some c)
    (hstage : c.stage = .promoting path blob) :
    Moves crc32 config s (.promote n)
      (Sys.setStage { s with tier := s.tier.promote config.residentCapacityBytes path blob } n c
        .closing) .silent
  | close {n c} (hc : s.captures.lookup n = some c) (hstage : c.stage = .closing) :
    Moves crc32 config s (.close n)
      { s with
        captures := s.captures.erase n
        outstanding := s.outstanding - 1
        working := if s.working = some n then none else s.working } .silent
  -- Readers.
  | miss {fingerprint tokens minimum now} :
    Moves crc32 config s (.lookup fingerprint tokens minimum now) s .miss
  | hit {fingerprint tokens minimum now record index}
    (hfound : s.index.longestPrefix fingerprint tokens minimum now = some (record, index)) :
    Moves crc32 config s (.lookup fingerprint tokens minimum now)
      { s with
        index := index
        readers := s.readers.insert s.next
          ⟨record.header, record.path, record.tokens, none, .idle, record.capture⟩
        next := s.next + 1 } (.hit s.next)
  | touch {r reader now} (hr : s.readers.lookup r = some reader) :
    Moves crc32 config s (.touch r now)
      { s with index := s.index.touch reader.header.keyHash now } .silent
  | releaseResident {r reader} (hr : s.readers.lookup r = some reader) :
    Moves crc32 config s (.releaseResident r)
      { s with tier := s.tier.invalidate reader.path } .silent
  | load {r reader} (hr : s.readers.lookup r = some reader) (hstage : reader.stage = .idle)
    (hblob : reader.blob = none) (stage : ReaderStage)
    (hnext : stage = .electing ∨ stage = .reading false .sizing) :
    Moves crc32 config s (.load r) (s.setReader r { reader with stage := stage }) .silent
  | electHit {r reader blob tier} (hr : s.readers.lookup r = some reader)
    (hstage : reader.stage = .electing)
    (helect : s.tier.elect reader.path = (.resident blob, tier)) :
    Moves crc32 config s (.elect r)
      (Sys.setReader { s with tier := tier } r { reader with stage := .idle, blob := some blob })
      .silent
  | elected {r reader tier} (hr : s.readers.lookup r = some reader)
    (hstage : reader.stage = .electing) (helect : s.tier.elect reader.path = (.elected, tier)) :
    Moves crc32 config s (.elect r)
      (Sys.setReader { s with tier := tier } r { reader with stage := .reading true .sizing })
      .silent
  | electBusy {r} : Moves crc32 config s (.elect r) s .silent
  | readStep {r reader elected stage io} (hr : s.readers.lookup r = some reader)
    (hstage : reader.stage = .reading elected stage) :
    Moves crc32 config s (.readStep r io)
      (s.advanceLoad r reader elected
        (readStage crc32 reader.header stage (s.files.lookup reader.path) io)) .silent
  | settle {r reader blob} (hr : s.readers.lookup r = some reader)
    (hstage : reader.stage = .settling (some blob)) :
    Moves crc32 config s (.settle r)
      (Sys.setReader
        { s with tier := s.tier.settle config.residentCapacityBytes reader.path (some blob) } r
        { reader with stage := .idle, blob := some blob }) .silent
  | settleFail {r reader} (hr : s.readers.lookup r = some reader)
    (hstage : reader.stage = .settling none) :
    Moves crc32 config s (.settle r)
      (Sys.setReader
        { s with tier := s.tier.settle config.residentCapacityBytes reader.path none } r
        { reader with stage := .evicting }) .silent
  | evict {r reader index victim} (hr : s.readers.lookup r = some reader)
    (hstage : reader.stage = .evicting)
    (hevict : s.index.evictForIntegrity reader.header.keyHash = (index, victim)) :
    Moves crc32 config s (.evict r)
      (Sys.setReader { s with index := index } r
        { reader with stage := .sweeping ⟨victim.toList, false⟩ }) .silent
  | sweepReader {r reader sweep sweep' tier files} (hr : s.readers.lookup r = some reader)
    (hstage : reader.stage = .sweeping sweep)
    (hsweep : sweepStep sweep s.tier s.files = some (sweep', tier, files)) :
    Moves crc32 config s (.sweepReader r)
      (Sys.setReader { s with tier := tier, files := files } r
        { reader with stage := .sweeping sweep' }) .silent
  | sweptReader {r reader sweep} (hr : s.readers.lookup r = some reader)
    (hstage : reader.stage = .sweeping sweep) (hsweep : sweepStep sweep s.tier s.files = none) :
    Moves crc32 config s (.sweepReader r) (s.setReader r { reader with stage := .idle }) .failed
  | readRegion {r reader index length o} (hr : s.readers.lookup r = some reader)
    (hregion : reader.region index length = some o) :
    Moves crc32 config s (.readRegion r index length) s o
  | dropReader {r reader} (hr : s.readers.lookup r = some reader)
    (hstage : reader.stage = .idle) :
    Moves crc32 config s (.dropReader r)
      { s with
        index := s.index.releaseReader reader.header.keyHash
        readers := s.readers.erase r } .silent
  -- Evictions of their own.
  | reclaim {now index victims}
    (hreclaim : s.index.reclaim config.ttlSeconds now = (index, victims)) :
    Moves crc32 config s (.reclaim now)
      { s with
        index := index
        sweeps := s.sweeps.insert s.next ⟨victims, false⟩
        next := s.next + 1 } .silent
  | sweep {k sweep sweep' tier files} (hk : s.sweeps.lookup k = some sweep)
    (hsweep : sweepStep sweep s.tier s.files = some (sweep', tier, files)) :
    Moves crc32 config s (.sweep k)
      { s with tier := tier, files := files, sweeps := s.sweeps.insert k sweep' } .silent
  | swept {k sweep} (hk : s.sweeps.lookup k = some sweep)
    (hsweep : sweepStep sweep s.tier s.files = none) :
    Moves crc32 config s (.sweep k) { s with sweeps := s.sweeps.erase k } .silent

section Inversion

variable {crc : List UInt8 → UInt32} {cfg : StoreConfig} {s t : Sys} {lab : Label}
  {o : Output} {n r : ℕ} {c : Capture} {rd : RecordReader}

theorem captureStep_moves (hc : s.captures.lookup n = some c) (hn : lab.capture = some n)
    (h : s.captureStep cfg n c lab = some (t, o)) : Moves crc cfg s lab t o := by
  revert h
  fun_cases Sys.captureStep cfg s n c lab
  -- what is left are the branches that answer, in the order of the definition
  all_goals (intro h; cases h)
  all_goals cases hn
  · exact .stored hc ‹_›
  · exact .reserve hc ‹_› (eq_false_of_ne_true ‹_›)
  · exact .enforce hc ‹_› ‹_›
  · exact .sweepCapture hc ‹_› ‹_›
  · exact .sweptCapture hc ‹_› ‹_›
  · exact .rollback hc ‹_›
  · exact .allocate hc ‹_›
  · rename_i hok
    rw [eq_false_of_ne_true hok]
    exact .allocateFail hc ‹_›
  · exact .writeRegion hc ‹_› ‹_› ‹_›
  · exact .abandon hc ‹_›

theorem commitStep_moves (hc : s.captures.lookup n = some c) (hn : lab.capture = some n)
    (h : s.commitStep crc cfg n c lab = some (t, o)) : Moves crc cfg s lab t o := by
  revert h
  fun_cases Sys.commitStep crc cfg s n c lab
  all_goals (intro h; cases h)
  all_goals cases hn
  · exact .unprepared hc ‹_› (.inl rfl)
  · exact .commit hc ‹_› ‹_›
  · exact .unprepared hc ‹_› (.inr ⟨_, rfl⟩)
  · exact .enqueue hc ‹_› ‹_›
  · exact .bounce hc ‹_› ‹_›
  · exact .persist hc ‹_›
  · exact .persistUnsynced hc ‹_›
  · exact .persistFail hc ‹_›
  · exact .readBack hc ‹_› _ (.inl (.inl rfl))
  · exact .readBack hc ‹_› _ (.inl (.inr ⟨_, rfl, ‹_›⟩))
  · exact .readBack hc ‹_› _ (.inr ⟨_, rfl, ‹_›⟩)
  · exact .discard hc ‹_›
  · exact .cancelReservation hc ‹_›
  · exact .publish hc ‹_› ‹_›
  · exact .promote hc ‹_›
  · exact .close hc ‹_›

theorem readerStep_moves (hr : s.readers.lookup r = some rd) (hn : lab.reader = some r)
    (h : s.readerStep crc cfg r rd lab = some (t, o)) : Moves crc cfg s lab t o := by
  revert h
  fun_cases Sys.readerStep crc cfg s r rd lab
  case case20 =>
    intro h
    obtain ⟨output, hrgn, heq⟩ := Option.map_eq_some_iff.mp h
    cases heq
    cases hn
    exact .readRegion hr hrgn
  all_goals (intro h; cases h)
  all_goals cases hn
  · exact .touch hr
  · exact .releaseResident hr
  · exact .load hr ‹_› ‹_› _ (.inr rfl)
  · exact .load hr ‹_› ‹_› _ (.inl rfl)
  · exact .electHit hr ‹_› ‹_›
  · exact .elected hr ‹_› ‹_›
  · exact .electBusy
  · exact .readStep hr ‹_›
  · exact .settleFail hr ‹_›
  · exact .settle hr ‹_›
  · exact .evict hr ‹_› ‹_›
  · exact .sweepReader hr ‹_› ‹_›
  · exact .sweptReader hr ‹_› ‹_›
  · exact .dropReader hr ‹_›

theorem openStep_moves (h : s.openStep cfg lab = some (t, o)) : Moves crc cfg s lab t o := by
  revert h
  fun_cases Sys.openStep cfg s lab
  all_goals (intro h; cases h)
  · exact .refusePlan
  · exact .plan ‹_› ‹_›
  · exact .refusePlan
  · exact .receive ‹_› rfl
  · exact .miss
  · exact .hit ‹_›
  · exact .reclaim ‹_›
  · exact .sweep ‹_› ‹_›
  · exact .swept ‹_› ‹_›

/-- Every step is one of the moves. -/
theorem step_moves (h : step crc cfg s lab = some (t, o)) : Moves crc cfg s lab t o := by
  unfold step at h
  split at h
  · rename_i n hn
    split at h
    · cases h
    · rename_i c hc
      cases hcpt : s.captureStep cfg n c lab with
      | some r =>
        rw [hcpt] at h
        cases h
        exact captureStep_moves hc hn hcpt
      | none =>
        rw [hcpt] at h
        exact commitStep_moves hc hn h
  · rename_i r _ hr
    split at h
    · cases h
    · rename_i rd hrdr
      exact readerStep_moves hrdr hr h
  · exact openStep_moves h

end Inversion

end LetsInfer.PrefixStore
