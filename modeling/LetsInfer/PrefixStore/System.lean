import LetsInfer.Schemes.Runs
import LetsInfer.PrefixStore.Index
import LetsInfer.PrefixStore.RamTier

/-! @src cache/letsinfer_prefix_store/src/store.rs | name:Prefix store as a system | scheme:interleaving

    One open store under concurrent callers and its writer thread. A step is one section under the
    state lock or the tier lock, one file removal, one rename, one file the reader opens, or one
    exchange on the commit channel; what the callers ask, the clock and the operating system decide
    is in the label. Every capture, reader and eviction under way is part of the state with the
    point it has reached:

        capture : planned ▸ reserved ▸ sweeping ▸ granted ▸ writing ▸ [queued ▸] committing
                  ▸ promoting ▸ closing, or ▸ refused | cancelling ▸ closing
        reader  : idle ▸ electing | reading ▸ settling ▸ idle, or ▸ evicting ▸ sweeping ▸ idle

    A capture holds its writer permit until it closes. The writer thread does not die while the
    store is open; whether there is one is fixed at the start. -/

namespace LetsInfer.PrefixStore
open Schemes

def maxOutstandingCommits : ℕ := 2

inductive CaptureRejection where
  | disabled
  | writerBusy
  | alreadyStored
  | belowMinimumTokenCount
  | recordTooLarge
  | insufficientCapacity
  | allocationFailure
  | invalidPlan
  deriving DecidableEq

/-- The paths an eviction still has to delete; the first may already be off the resident tier. -/
structure Sweep where
  victims : List Path
  invalidated : Bool := false
  deriving DecidableEq

/-- A prepared commit: the header with its checksums, and the bytes to be written. -/
structure PreparedCommit where
  header : RecordHeader
  bytes : Blob
  promoteResident : Bool
  deriving DecidableEq

/-- Where `commit_prepared` is. -/
inductive CommitStage where
  /-- The file is to be renamed into place. -/
  | persisting
  /-- A large record is read back for promotion. -/
  | reading (stage : ReadStage)
  /-- The read failed: the file is to be removed. -/
  | discarding
  /-- The record is to be indexed. -/
  | publishing (blob : Option Blob)
  deriving DecidableEq

inductive CaptureStage where
  /-- The permit is taken. -/
  | planned
  /-- The bytes are reserved, the capacity is not enforced yet. -/
  | reserved
  /-- The lock is released; the victims of the enforcement are being deleted. -/
  | sweeping (sweep : Sweep) (exhausted : Bool)
  /-- The reservation is to be given back. -/
  | refused (why : CaptureRejection)
  | granted
  /-- A live writer with its buffer. -/
  | writing (bytes : Blob)
  | queued (job : PreparedCommit)
  | committing (job : PreparedCommit) (stage : CommitStage)
  /-- `cancel_reservation` is next. -/
  | cancelling
  /-- Indexed; the blob goes to the resident tier. -/
  | promoting (path : Path) (blob : Blob)
  /-- Only the permit is left. -/
  | closing
  deriving DecidableEq

/-- One capture, from its permit to the end of its commit. -/
structure Capture where
  /-- The layout, without checksums. -/
  header : RecordHeader
  tokens : List UInt32
  stage : CaptureStage
  deriving DecidableEq

inductive ReaderStage where
  | idle
  /-- At the head of the loop of `ResidentTier::load`. -/
  | electing
  /-- Inside the loader, elected for the path or past the tier. -/
  | reading (elected : Bool) (stage : ReadStage)
  /-- The elected loader is back. -/
  | settling (loaded : Option Blob)
  /-- The load failed: `evict_for_integrity` is next. -/
  | evicting
  /-- The file of the evicted record is being deleted. -/
  | sweeping (sweep : Sweep)
  deriving DecidableEq

/-- A pinned reader, with the number of the capture whose record it was opened on. -/
structure RecordReader where
  header : RecordHeader
  path : Path
  tokens : List UInt32
  blob : Option Blob
  stage : ReaderStage
  capture : ℕ
  deriving DecidableEq

structure Sys where
  index : IndexState := {}
  tier : TierState := {}
  files : Table Path File := ∅
  captures : Table ℕ Capture := ∅
  /-- The counter of `WriterSlots`: the permits that are out. -/
  outstanding : ℕ := 0
  /-- The commit channel: at most one job waits. -/
  queue : Option ℕ := none
  /-- The job the writer thread is at. -/
  working : Option ℕ := none
  writerAlive : Bool := true
  readers : Table ℕ RecordReader := ∅
  sweeps : Table ℕ Sweep := ∅
  /-- Numbers captures, readers and evictions. -/
  next : ℕ := 0
  /-- Every record a capture has prepared, as it was in the writer. No operation reads it. -/
  captured : List (RecordHeader × Blob) := []

/-- What becomes of the file of a commit. -/
inductive PersistOutcome where
  | renamed
  /-- An error before the rename. -/
  | notWritten
  /-- Renamed, but the directory could not be synced. -/
  | unsynced
  deriving DecidableEq

inductive Label where
  | beginCapture (fingerprint : Fingerprint) (tokens : List UInt32)
      (regions : List RegionDescription)
  | reserve (n : ℕ)
  | enforce (n : ℕ)
  | sweepCapture (n : ℕ)
  | rollback (n : ℕ)
  | allocate (n : ℕ) (ok : Bool)
  | writeRegion (n index : ℕ) (data : List UInt8)
  | commit (n : ℕ)
  | commitAsync (n : ℕ) (promoteResident : Bool)
  /-- `cancel`, or the drop of a writer; their bodies are the same. -/
  | abandon (n : ℕ)
  | receive
  | persist (n : ℕ) (outcome : PersistOutcome)
  | readBack (n : ℕ) (io : Bool)
  | discard (n : ℕ)
  | cancelReservation (n : ℕ)
  | publish (n now : ℕ)
  | promote (n : ℕ)
  | close (n : ℕ)
  | lookup (fingerprint : Fingerprint) (tokens : List UInt32) (minimum now : ℕ)
  | touch (r now : ℕ)
  | releaseResident (r : ℕ)
  | load (r : ℕ)
  | elect (r : ℕ)
  | readStep (r : ℕ) (io : Bool)
  | settle (r : ℕ)
  | evict (r : ℕ)
  | sweepReader (r : ℕ)
  | readRegion (r index length : ℕ)
  | dropReader (r : ℕ)
  | reclaim (now : ℕ)
  | sweep (k : ℕ)
  deriving DecidableEq

inductive Output where
  | silent
  | rejected (why : CaptureRejection)
  | failed
  | hit (r : ℕ)
  | miss
  /-- The bytes of a region, as `read_region` copies them or `load_region` shows them. -/
  | region (bytes : List UInt8)
  /-- A range outside the blob was indexed. -/
  | panicked
  deriving DecidableEq

/-! ### Captures -/

def overwrite (bytes : Blob) (offset : ℕ) (data : List UInt8) : Blob :=
  bytes.take offset ++ data ++ bytes.drop (offset + data.length)

/-- The zeroed buffer of a capture with its token section. -/
def captureBuffer (header : RecordHeader) (tokens : List UInt32) : Blob :=
  overwrite (List.replicate header.fileBytes 0) header.tokensOffset
    (tokens.flatMap fun token => leBytes 4 token.toNat)

/-- The checks of `begin_capture` before the permit. -/
def planCapture (config : StoreConfig) (fingerprint : Fingerprint) (tokens : List UInt32)
    (regions : List RegionDescription) : Except CaptureRejection RecordHeader :=
  if config.capacityBytes = 0 then .error .disabled
  else if tokens.length < config.minimumTokenCount then .error .belowMinimumTokenCount
  else
    match RecordHeader.layout fingerprint (keyHash fingerprint tokens) tokens.length regions with
    | .error _ => .error .invalidPlan
    | .ok header =>
      if config.capacityBytes < header.fileBytes then .error .recordTooLarge else .ok header

section Step

variable (crc32 : List UInt8 → UInt32) (config : StoreConfig)

/-- `RecordWriter::prepare`: checksums, then the header page. A laid-out header has a range for every
    region and fits its page, so neither failure happens. -/
def prepare (header : RecordHeader) (bytes : Blob) (promoteResident : Bool) :
    Option PreparedCommit :=
  match regionChecksums crc32 header bytes with
  | none => none
  | some regionCrc32 =>
    let header := { header with
      tokensCrc32 := crc32 (slice bytes header.tokensRange), regionCrc32 := regionCrc32 }
    match header.encode crc32 with
    | .error _ => none
    | .ok page => some ⟨header, overwrite bytes 0 page, promoteResident⟩

/-- Where a commit goes once its file is in place. -/
def afterPersist (job : PreparedCommit) : CommitStage :=
  if ¬job.promoteResident then .publishing none
  else if job.header.fileBytes < fileBackedRecordMinBytes then .publishing (some job.bytes)
  else if job.header.fileBytes ≤ config.residentCapacityBytes then .reading .sizing
  else .publishing none

def PreparedCommit.record (job : PreparedCommit) (tokens : List UInt32) (n now : ℕ) :
    RecordMeta where
  header := job.header
  tokens := tokens
  path := .record job.header.keyHash
  fileBytes := job.header.fileBytes
  lastUsed := now
  activeReaders := 0
  capture := n

/-- The resident entry of a replaced record goes with it. -/
def TierState.retire (tier : TierState) (prior : Option RecordMeta) : TierState :=
  match prior with
  | none => tier
  | some prior => tier.invalidate prior.path

def afterPublish (job : PreparedCommit) (blob : Option Blob) : CaptureStage :=
  match job.promoteResident, blob with
  | true, some blob => .promoting (.record job.header.keyHash) blob
  | _, _ => .closing

/-- One action of a loop over victims: the resident entry first, then the file. -/
def sweepStep (sweep : Sweep) (tier : TierState) (files : Table Path File) :
    Option (Sweep × TierState × Table Path File) :=
  match sweep.victims with
  | [] => none
  | path :: rest =>
    if sweep.invalidated then some (⟨rest, false⟩, tier, files.erase path)
    else some (⟨path :: rest, true⟩, tier.invalidate path, files)

def Sys.setStage (s : Sys) (n : ℕ) (c : Capture) (stage : CaptureStage) : Sys :=
  { s with captures := s.captures.insert n { c with stage := stage } }

def Sys.setReader (s : Sys) (r : ℕ) (reader : RecordReader) : Sys :=
  { s with readers := s.readers.insert r reader }

/-- The sections of `begin_capture`. -/
def Sys.captureStep (s : Sys) (n : ℕ) (c : Capture) : Label → Option (Sys × Output)
  | .reserve _ =>
    match c.stage with
    | .planned =>
      if s.index.isStored c.header.keyHash c.tokens then
        some (s.setStage n c .closing, .rejected .alreadyStored)
      else
        some ({ s with index := s.index.reserve c.header.keyHash c.header.fileBytes }.setStage n c
          .reserved, .silent)
    | _ => none
  | .enforce _ =>
    match c.stage with
    | .reserved =>
      let (index, victims, exhausted) :=
        IndexState.enforce config.capacityBytes 0 s.index.records.length s.index
      some ({ s with index := index }.setStage n c (.sweeping ⟨victims, false⟩ exhausted), .silent)
    | _ => none
  | .sweepCapture _ =>
    match c.stage with
    | .sweeping sweep exhausted =>
      match sweepStep sweep s.tier s.files with
      | some (sweep, tier, files) =>
        some ({ s with tier := tier, files := files }.setStage n c (.sweeping sweep exhausted),
          .silent)
      | none =>
        some (s.setStage n c (if exhausted then .refused .insufficientCapacity else .granted),
          .silent)
    | _ => none
  | .rollback _ =>
    match c.stage with
    | .refused why =>
      some ({ s with index := s.index.unreserve c.header.keyHash c.header.fileBytes }.setStage n c
        .closing, .rejected why)
    | _ => none
  | .allocate _ ok =>
    match c.stage with
    | .granted =>
      if ok then some (s.setStage n c (.writing (captureBuffer c.header c.tokens)), .silent)
      else some (s.setStage n c (.refused .allocationFailure), .silent)
    | _ => none
  | .writeRegion _ index data =>
    match c.stage, c.header.regionRange index with
    | .writing bytes, some range =>
      if data.length = range.stop - range.start then
        some (s.setStage n c (.writing (overwrite bytes range.start data)), .silent)
      else none
    | _, _ => none
  | .abandon _ =>
    match c.stage with
    | .writing _ =>
      some ({ s with index := s.index.unreserve c.header.keyHash c.header.fileBytes }.setStage n c
        .closing, .silent)
    | _ => none
  | _ => none

/-- The steps of a commit. -/
def Sys.commitStep (s : Sys) (n : ℕ) (c : Capture) : Label → Option (Sys × Output)
  | .commit _ =>
    match c.stage with
    | .writing bytes =>
      match prepare crc32 c.header bytes true with
      | none => some (s.setStage n c .cancelling, .failed)
      | some job =>
        some ({ s with captured := (job.header, job.bytes) :: s.captured }.setStage n c
          (.committing job .persisting), .silent)
    | _ => none
  | .commitAsync _ promoteResident =>
    match c.stage with
    | .writing bytes =>
      match prepare crc32 c.header bytes promoteResident with
      | none => some (s.setStage n c .cancelling, .failed)
      | some job =>
        let s := { s with captured := (job.header, job.bytes) :: s.captured }
        if s.writerAlive ∧ s.queue = none then
          some ({ s with queue := some n }.setStage n c (.queued job), .silent)
        else some (s.setStage n c .cancelling, .failed)
    | _ => none
  | .persist _ outcome =>
    match c.stage with
    | .committing job .persisting =>
      let placed := s.files.insert (.record job.header.keyHash) ⟨job.bytes, n⟩
      match outcome with
      | .renamed =>
        some ({ s with files := placed }.setStage n c (.committing job (afterPersist config job)),
          .silent)
      | .unsynced => some ({ s with files := placed }.setStage n c .cancelling, .failed)
      | .notWritten => some (s.setStage n c .cancelling, .failed)
    | _ => none
  | .readBack _ io =>
    match c.stage with
    | .committing job (.reading stage) =>
      match readStage crc32 job.header stage
          (s.files.lookup (.record job.header.keyHash)) io with
      | .failed => some (s.setStage n c (.committing job .discarding), .silent)
      | .next stage => some (s.setStage n c (.committing job (.reading stage)), .silent)
      | .done blob => some (s.setStage n c (.committing job (.publishing (some blob))), .silent)
    | _ => none
  | .discard _ =>
    match c.stage with
    | .committing job .discarding =>
      some ({ s with files := s.files.erase (.record job.header.keyHash) }.setStage n c
        .cancelling, .failed)
    | _ => none
  | .cancelReservation _ =>
    match c.stage with
    | .cancelling =>
      some ({ s with
        index := s.index.cancelReservation c.header.keyHash c.header.fileBytes }.setStage n c
          .closing, .silent)
    | _ => none
  | .publish _ now =>
    match c.stage with
    | .committing job (.publishing blob) =>
      let (index, prior) := s.index.publish (job.record c.tokens n now)
      some ({ s with index := index, tier := s.tier.retire prior }.setStage n c
        (afterPublish job blob), .silent)
    | _ => none
  | .promote _ =>
    match c.stage with
    | .promoting path blob =>
      some ({ s with
        tier := s.tier.promote config.residentCapacityBytes path blob }.setStage n c .closing,
        .silent)
    | _ => none
  | .close _ =>
    match c.stage with
    | .closing =>
      some ({ s with
        captures := s.captures.erase n
        outstanding := s.outstanding - 1
        working := if s.working = some n then none else s.working }, .silent)
    | _ => none
  | _ => none

/-! ### Readers -/

/-- The outcome of one stage of a reader's load. -/
def Sys.advanceLoad (s : Sys) (r : ℕ) (reader : RecordReader) (elected : Bool) :
    ReadResult → Sys
  | .next stage => s.setReader r { reader with stage := .reading elected stage }
  | .failed =>
    s.setReader r { reader with stage := if elected then .settling none else .evicting }
  | .done blob =>
    if blob.length ≠ reader.header.fileBytes then
      s.setReader r { reader with stage := if elected then .settling none else .evicting }
    else if elected then s.setReader r { reader with stage := .settling (some blob) }
    else s.setReader r { reader with stage := .idle, blob := some blob }

/-- What `read_region` answers for a destination of this length, and `load_region` for the region's
    own length; `none` when the blob has to be loaded first. -/
def RecordReader.region (reader : RecordReader) (index length : ℕ) : Option Output :=
  match reader.header.regions[index]?, reader.header.regionRange index with
  | some region, some range =>
    if length ≠ region.byteCount then some .failed
    else
      match reader.blob with
      | none => none
      | some blob =>
        if range.start ≤ range.stop ∧ range.stop ≤ blob.length then
          some (.region (slice blob range))
        else some .panicked
  | _, _ => some .failed

/-- The steps of one reader. -/
def Sys.readerStep (s : Sys) (r : ℕ) (reader : RecordReader) : Label → Option (Sys × Output)
  | .touch _ now =>
    some ({ s with index := s.index.touch reader.header.keyHash now }, .silent)
  | .releaseResident _ => some ({ s with tier := s.tier.invalidate reader.path }, .silent)
  | .load _ =>
    match reader.stage, reader.blob with
    | .idle, none =>
      if config.residentCapacityBytes = 0 ∨
          config.residentCapacityBytes < reader.header.fileBytes then
        some (s.setReader r { reader with stage := .reading false .sizing }, .silent)
      else some (s.setReader r { reader with stage := .electing }, .silent)
    | _, _ => none
  | .elect _ =>
    match reader.stage with
    | .electing =>
      match s.tier.elect reader.path with
      | (.resident blob, tier) =>
        some ({ s with tier := tier }.setReader r
          { reader with stage := .idle, blob := some blob }, .silent)
      | (.elected, tier) =>
        some ({ s with tier := tier }.setReader r
          { reader with stage := .reading true .sizing }, .silent)
      | (.busy, _) => some (s, .silent)
    | _ => none
  | .readStep _ io =>
    match reader.stage with
    | .reading elected stage =>
      some (s.advanceLoad r reader elected
        (readStage crc32 reader.header stage (s.files.lookup reader.path) io), .silent)
    | _ => none
  | .settle _ =>
    match reader.stage with
    | .settling loaded =>
      let tier := s.tier.settle config.residentCapacityBytes reader.path loaded
      match loaded with
      | none => some ({ s with tier := tier }.setReader r { reader with stage := .evicting }, .silent)
      | some blob =>
        some ({ s with tier := tier }.setReader r
          { reader with stage := .idle, blob := some blob }, .silent)
    | _ => none
  | .evict _ =>
    match reader.stage with
    | .evicting =>
      let (index, victim) := s.index.evictForIntegrity reader.header.keyHash
      some ({ s with index := index }.setReader r
        { reader with stage := .sweeping ⟨victim.toList, false⟩ }, .silent)
    | _ => none
  | .sweepReader _ =>
    match reader.stage with
    | .sweeping sweep =>
      match sweepStep sweep s.tier s.files with
      | some (sweep, tier, files) =>
        some ({ s with tier := tier, files := files }.setReader r
          { reader with stage := .sweeping sweep }, .silent)
      | none => some (s.setReader r { reader with stage := .idle }, .failed)
    | _ => none
  | .readRegion _ index length =>
    match reader.stage with
    | .idle => (reader.region index length).map fun output => (s, output)
    | _ => none
  | .dropReader _ =>
    match reader.stage with
    | .idle =>
      some ({ s with
        index := s.index.releaseReader reader.header.keyHash
        readers := s.readers.erase r }, .silent)
    | _ => none
  | _ => none

def Label.capture : Label → Option ℕ
  | .reserve n | .enforce n | .sweepCapture n | .rollback n | .allocate n _ | .writeRegion n _ _
  | .commit n | .commitAsync n _ | .abandon n | .persist n _ | .readBack n _ | .discard n
  | .cancelReservation n | .publish n _ | .promote n | .close n => some n
  | _ => none

def Label.reader : Label → Option ℕ
  | .touch r _ | .releaseResident r | .load r | .elect r | .readStep r _ | .settle r | .evict r
  | .sweepReader r | .readRegion r _ _ | .dropReader r => some r
  | _ => none

def Sys.openStep (s : Sys) : Label → Option (Sys × Output)
  | .beginCapture fingerprint tokens regions =>
    match planCapture config fingerprint tokens regions with
    | .error why => some (s, .rejected why)
    | .ok header =>
      -- `try_acquire`; the permit goes with the capture, to its writer and then to its job
      if s.outstanding < maxOutstandingCommits then
        some ({ s with
          outstanding := s.outstanding + 1
          captures := s.captures.insert s.next ⟨header, tokens, .planned⟩
          next := s.next + 1 }, .silent)
      else some (s, .rejected .writerBusy)
  | .receive =>
    match s.queue, s.working with
    | some n, none =>
      match s.captures.lookup n with
      | some ⟨header, tokens, .queued job⟩ =>
        some ({ s with queue := none, working := some n }.setStage n
          ⟨header, tokens, .queued job⟩ (.committing job .persisting), .silent)
      | _ => none
    | _, _ => none
  | .lookup fingerprint tokens minimum now =>
    match s.index.longestPrefix fingerprint tokens minimum now with
    | none => some (s, .miss)
    | some (record, index) =>
      some ({ s with
        index := index
        readers := s.readers.insert s.next
          ⟨record.header, record.path, record.tokens, none, .idle, record.capture⟩
        next := s.next + 1 }, .hit s.next)
  | .reclaim now =>
    let (index, victims) := s.index.reclaim config.ttlSeconds now
    some ({ s with
      index := index
      sweeps := s.sweeps.insert s.next ⟨victims, false⟩
      next := s.next + 1 }, .silent)
  | .sweep k =>
    match s.sweeps.lookup k with
    | none => none
    | some sweep =>
      match sweepStep sweep s.tier s.files with
      | some (sweep, tier, files) =>
        some ({ s with tier := tier, files := files, sweeps := s.sweeps.insert k sweep }, .silent)
      | none => some ({ s with sweeps := s.sweeps.erase k }, .silent)
  | _ => none

/-- One step of the store; `none` when the label names nothing that is there. -/
def step (s : Sys) (label : Label) : Option (Sys × Output) :=
  match label.capture, label.reader with
  | some n, _ =>
    match s.captures.lookup n with
    | none => none
    | some c => (s.captureStep config n c label) <|> (s.commitStep crc32 config n c label)
  | none, some r =>
    match s.readers.lookup r with
    | none => none
    | some reader => s.readerStep crc32 config r reader label
  | none, none => s.openStep config label

end Step

end LetsInfer.PrefixStore
