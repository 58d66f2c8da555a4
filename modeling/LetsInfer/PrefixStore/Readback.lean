import LetsInfer.PrefixStore.Reopen

/-! @src cache/letsinfer_prefix_store/src/io.rs | name:Reading a committed record back | scheme:checked-read

    The bytes of a commit pass every check on the way back: those of `open`, those of a small record
    that is read into memory and those of a large one that is mapped. Only the bound on the token
    count is not among the checks of a capture. A lookup of an extension of the record's tokens finds
    the record or a longer one, and a reader on it is led through its load by the labels given here. -/

namespace LetsInfer.PrefixStore
open Schemes List

/-- A committed record: an image whose sections are those its header describes. -/
structure Intact (crc32 : List UInt8 → UInt32) (header : RecordHeader) (tokens : List UInt32)
    (bytes : Blob) : Prop extends Image crc32 header bytes where
  count : header.tokenCount = tokens.length
  hash : keyHash header.fingerprint tokens = header.keyHash
  tokens_eq : slice bytes header.tokensRange = tokenBytes tokens
  tokensCrc32 : crc32 (slice bytes header.tokensRange) = header.tokensCrc32
  checksums : regionChecksums crc32 header bytes = some header.regionCrc32

variable {crc : List UInt8 → UInt32} {ts : List UInt32} {file : File} {labels : List Label}
  {m t : Sys}

section Stages

variable {hdr : RecordHeader} {bs buffer : Blob} {job : PreparedCommit}

theorem Prepared.intact (h : Prepared crc hdr buffer job) (hwrt : Written hdr ts buffer)
    (hhash : keyHash hdr.fingerprint ts = hdr.keyHash) : Intact crc job.header ts job.bytes where
  toImage := h.image
  count := by rw [h.header_eq]; exact hwrt.count
  hash := by rw [h.header_eq]; exact hhash
  tokens_eq := (h.tokens_eq hwrt.canonical).trans hwrt.tokens_eq
  tokensCrc32 := h.tokensCrc32_eq hwrt.canonical
  checksums := h.regionChecksums_eq hwrt.canonical

/-! ### The stages of a read -/

theorem Intact.readHeaderAndTokens_eq (h : Intact crc hdr ts bs)
    (hcnt : ts.length ≤ maxTokenCount) : readHeaderAndTokens crc bs = .ok (hdr, ts) := by
  have hsize : ¬bs.length < headerBytes := by
    rw [h.length_eq]
    exact not_lt.mpr h.canonical.headerBytes_le
  have hraw : (slice bs hdr.tokensRange).length = hdr.tokenCount * 4 := by
    rw [h.tokens_eq, length_tokenBytes, h.count]
  refine throw_if_ok_iff.mpr ⟨hsize, bind_ok_iff.mpr ⟨hdr, h.decode_eq, ?_⟩⟩
  refine throw_if_ok_iff.mpr ⟨not_not.mpr h.length_eq.symm, ?_⟩
  refine throw_if_ok_iff.mpr ⟨not_lt.mpr (h.count ▸ hcnt), ?_⟩
  refine throw_if_ok_iff.mpr ⟨not_not.mpr hraw, ?_⟩
  refine throw_if_ok_iff.mpr ⟨not_not.mpr h.tokensCrc32, ?_⟩
  rw [h.tokens_eq, tokensOfBytes_tokenBytes]
  rfl

/-- Whatever `open` reads from a committed record is that record. -/
theorem Intact.header_of_readable {hdr' : RecordHeader} {ts' : List UInt32}
    (h : Intact crc hdr ts bs) (hread : Readable crc bs hdr' ts') : hdr' = hdr := by
  obtain ⟨-, hread⟩ := throw_if_ok_iff.mp hread.1
  obtain ⟨decoded, hdec, hread⟩ := bind_ok_iff.mp hread
  obtain ⟨-, hread⟩ := throw_if_ok_iff.mp hread
  obtain ⟨-, hread⟩ := throw_if_ok_iff.mp hread
  obtain ⟨-, hread⟩ := throw_if_ok_iff.mp hread
  obtain ⟨-, hread⟩ := throw_if_ok_iff.mp hread
  obtain rfl : decoded = hdr' := congrArg Prod.fst (Except.ok.inj hread)
  rw [h.decode_eq] at hdec
  exact (Except.ok.inj hdec).symm

theorem Intact.readable (h : Intact crc hdr ts bs)
    (hcnt : ts.length ≤ maxTokenCount) : Readable crc bs hdr ts :=
  ⟨h.readHeaderAndTokens_eq hcnt, h.hash⟩

theorem Canonical.isSome_regionRange (h : Canonical hdr) {idx : ℕ}
    (hidx : idx < hdr.regions.length) : ∃ range, hdr.regionRange idx = some range := by
  have hofs : idx < hdr.regionOffsets.length := h.offsets_length ▸ hidx
  rw [RecordHeader.regionRange, getElem?_eq_getElem hofs, getElem?_eq_getElem hidx]
  exact ⟨_, rfl⟩

section

variable (h : Intact crc hdr ts file.bytes)
include h

theorem Intact.readSize_eq : readSize hdr file = .next .checking := by
  have hpage : file.bytes.length % pageBytes = 0 := by
    rw [h.length_eq]
    exact (alignUp_ok h.canonical.fileBytes).2.2
  have hran : ¬((List.range hdr.regions.length).any fun i => (hdr.regionRange i).isNone) := by
    rw [any_eq_true]
    rintro ⟨idx, hidx, hno⟩
    obtain ⟨range, hrg⟩ := h.canonical.isSome_regionRange (mem_range.mp hidx)
    simp [hrg] at hno
  rw [readSize, if_neg (not_or.mpr ⟨not_not.mpr h.length_eq, not_not.mpr hpage⟩), if_neg hran]

theorem Intact.readBytes_eq :
    readBytes crc hdr file =
      if fileBackedRecordMinBytes ≤ hdr.fileBytes then .next .rechecking
      else .done file.bytes := by
  have hwho : file.bytes.take hdr.fileBytes = file.bytes :=
    take_of_length_le h.length_eq.le
  simp only [readBytes, hwho, h.length_eq, lt_irrefl, if_false, h.checksums, ne_eq,
    not_true_eq_false, h.decode_eq, h.tokensCrc32]

theorem Intact.readHeader_eq
    (hcnt : ts.length ≤ maxTokenCount) : readHeader crc hdr file = .next .mapping := by
  simp [readHeader, h.readHeaderAndTokens_eq hcnt]

theorem Intact.mapRecord_eq : mapRecord hdr file = .done file.bytes := by
  simp [mapRecord, h.length_eq]

end

end Stages

/-! ### Lookups -/

theorem candidates_pairwise (idx : IndexState) (fp : Fingerprint) (ts : List UInt32) (mn : ℕ) :
    (idx.candidates fp ts mn).Pairwise fun a b => b.1 ≤ a.1 := by
  have htot : Std.Total fun a b : ℕ × UInt64 => b.1 ≤ a.1 := ⟨fun a b => le_total b.1 a.1⟩
  have htra : IsTrans (ℕ × UInt64) fun a b => b.1 ≤ a.1 := ⟨fun _ _ _ hab hbc => hbc.trans hab⟩
  exact pairwise_insertionSort _ _

theorem mem_candidates {idx : IndexState} {fp : Fingerprint} {mn : ℕ} {cand : ℕ × UInt64} :
    cand ∈ idx.candidates fp ts mn ↔ ∃ rcd ∈ idx.records,
      rcd.header.fingerprint = fp ∧ rcd.header.tokenCount ≤ ts.length ∧
        mn ≤ rcd.header.tokenCount ∧ cand = (rcd.header.tokenCount, rcd.hash) := by
  simp only [IndexState.candidates, mem_insertionSort, mem_map, mem_filter, decide_eq_true_eq]
  constructor
  · rintro ⟨rcd, ⟨hmem, hfpr, hcnt, hmin⟩, rfl⟩
    exact ⟨rcd, hmem, hfpr, hcnt, hmin, rfl⟩
  · rintro ⟨rcd, hmem, hfpr, hcnt, hmin, rfl⟩
    exact ⟨rcd, ⟨hmem, hfpr, hcnt, hmin⟩, rfl⟩

/-- A lookup of an extension of a record's tokens finds the record, or a longer one that is a prefix
    of the extension too. -/
theorem longestPrefix_extends {idx : IndexState} {rcd : RecordMeta} (hkey : idx.Keyed)
    (hmem : rcd ∈ idx.records) (hcnt : rcd.header.tokenCount = rcd.tokens.length)
    (hhash : keyHash rcd.header.fingerprint rcd.tokens = rcd.hash) (extra : List UInt32)
    (mn now : ℕ) (hmin : mn ≤ rcd.tokens.length) :
    ∃ found idx', idx.longestPrefix rcd.header.fingerprint (rcd.tokens ++ extra) mn
        now = some (found, idx') ∧
      (found = rcd ∨
        rcd.tokens.length < found.tokens.length ∧ found.tokens <+: rcd.tokens ++ extra) := by
  have hcan : (rcd.header.tokenCount, rcd.hash) ∈
      idx.candidates rcd.header.fingerprint (rcd.tokens ++ extra) mn := by
    refine mem_candidates.mpr ⟨rcd, hmem, rfl, ?_, hcnt ▸ hmin, rfl⟩
    rw [hcnt, length_append]
    exact Nat.le_add_right _ _
  have hget : idx.get rcd.hash = some rcd := hkey.get_eq_some.mpr ⟨hmem, rfl⟩
  have hmat : idx.matchesPrefix rcd.header.fingerprint (rcd.tokens ++ extra)
      (rcd.header.tokenCount, rcd.hash) = true := by
    refine decide_eq_true ⟨?_, ?_⟩
    · rw [hcnt, take_left, hhash]
    · rw [hget, hcnt, take_left]
      simp
  obtain ⟨best, hbest, hfst⟩ := exists_find?_of_pairwise
    (candidates_pairwise idx rcd.header.fingerprint (rcd.tokens ++ extra) mn) hcan hmat
  have hbst : idx.matchesPrefix rcd.header.fingerprint (rcd.tokens ++ extra) best =
      true := find?_some hbest
  obtain ⟨hbes, hbestTokens⟩ := of_decide_eq_true hbst
  obtain ⟨found, hfd, htok⟩ := Option.any_eq_true _ _ |>.mp hbestTokens
  have htok : found.tokens = (rcd.tokens ++ extra).take best.1 := of_decide_eq_true htok
  refine ⟨found, _, by rw [IndexState.longestPrefix, hbest]; simp only [hfd]; rfl, ?_⟩
  obtain ⟨source, -, -, hfits, -, hsou⟩ := mem_candidates.mp (mem_of_find?_eq_some hbest)
  have hlen : found.tokens.length = best.1 := by
    rw [htok, length_take, hsou]
    exact Nat.min_eq_left hfits
  have hlon : rcd.tokens.length ≤ best.1 := by
    rcases hfst with rfl | hle
    · exact hcnt.ge
    · exact hcnt ▸ hle
  rcases hlon.eq_or_lt with heq | hlt
  · -- As long as the record's own tokens: then it is the record's key hash.
    rw [← heq, take_left] at hbes
    rw [← hbes, hhash, hget] at hfd
    exact .inl (Option.some.inj hfd).symm
  · exact .inr ⟨hlen ▸ hlt, htok ▸ take_prefix _ _⟩

/-! ### Loads -/

/-- The stages of an undisturbed read of a record. -/
def readLabels (header : RecordHeader) (r : ℕ) : List Label :=
  replicate (if fileBackedRecordMinBytes ≤ header.fileBytes then 4 else 2) (.readStep r true)

/-- The labels of an undisturbed load of a record that is not resident. -/
def loadLabels (config : StoreConfig) (header : RecordHeader) (r : ℕ) : List Label :=
  if config.residentCapacityBytes = 0 ∨ config.residentCapacityBytes < header.fileBytes then
    .load r :: readLabels header r
  else .load r :: .elect r :: (readLabels header r ++ [.settle r])

section Loads

variable {cfg : StoreConfig} {s : Sys} {r : ℕ} {rd : RecordReader}

/-- A run and the labels it took. -/
def RunOf (crc32 : List UInt8 → UInt32) (config : StoreConfig) (s : Sys) (labels : List Label)
    (t : Sys) : Prop :=
  ∃ tr, Run (step crc32 config) s tr t ∧ tr.map (·.2.1) = labels

theorem RunOf.nil : RunOf crc cfg s [] s := ⟨[], .nil, rfl⟩

theorem RunOf.cons {a : Label} {o : Output} (h : step crc cfg s a = some (m, o))
    (hrest : RunOf crc cfg m labels t) : RunOf crc cfg s (a :: labels) t := by
  obtain ⟨tr, hrun, rfl⟩ := hrest
  exact ⟨(s, a, o) :: tr, .cons h hrun, rfl⟩

theorem RunOf.append {first second : List Label} (h : RunOf crc cfg s first m)
    (h' : RunOf crc cfg m second t) : RunOf crc cfg s (first ++ second) t := by
  obtain ⟨tr, hrun, rfl⟩ := h
  obtain ⟨tr', hrun', rfl⟩ := h'
  exact ⟨tr ++ tr', hrun.trans hrun', map_append⟩

def RecordReader.at (reader : RecordReader) (stage : ReaderStage) : RecordReader :=
  { reader with stage := stage }

variable {elected : Bool} {sg : ReadStage}

theorem step_readStep (hr : s.readers.lookup r = some (rd.at (.reading elected sg)))
    (hfile : s.files.lookup rd.path = some file) :
    step crc cfg s (.readStep r true) =
      some (s.advanceLoad r (rd.at (.reading elected sg)) elected
        (readStage crc rd.header sg (some file) true), .silent) := by
  simp only [step, Label.capture, Label.reader, hr, Sys.readerStep, RecordReader.at, hfile]

/-- What the reader has when its read is over. -/
def RecordReader.withBlob (reader : RecordReader) (elected : Bool) (blob : Blob) : RecordReader :=
  if elected then reader.at (.settling (some blob)) else { reader.at .idle with blob := some blob }

section

variable (hr : s.readers.lookup r = some (rd.at (.reading elected sg)))
include hr

theorem read_last (hfile : s.files.lookup rd.path = some file)
    (h : readStage crc rd.header sg (some file) true = .done file.bytes)
    (hlen : file.bytes.length = rd.header.fileBytes) :
    ∃ t, RunOf crc cfg s [.readStep r true] t ∧
      t.readers.lookup r = some (rd.withBlob elected file.bytes) := by
  refine ⟨_, .cons (step_readStep hr hfile) .nil, ?_⟩
  rw [h]
  cases elected <;>
    simp [Sys.advanceLoad, hlen, Sys.setReader, RecordReader.withBlob, RecordReader.at]

theorem read_next {sg' : ReadStage} {P : Sys → Prop} (hfile : s.files.lookup rd.path = some file)
    (h : readStage crc rd.header sg (some file) true = .next sg')
    (hrest : ∃ t, RunOf crc cfg (s.setReader r (rd.at (.reading elected sg'))) labels t
      ∧ P t) : ∃ t, RunOf crc cfg s (.readStep r true :: labels) t ∧ P t := by
  obtain ⟨t, hrun, hP⟩ := hrest
  refine ⟨t, .cons (step_readStep hr hfile) ?_, hP⟩
  rwa [h]

end

/-- READ: an undisturbed read of a committed record returns its bytes, of a small one after two
    stages and of a large one after four. -/
theorem Intact.read (h : Intact crc rd.header ts file.bytes) (hcnt : ts.length ≤ maxTokenCount)
    (hr : s.readers.lookup r = some (rd.at (.reading elected .sizing)))
    (hfile : s.files.lookup rd.path = some file) :
    ∃ t, RunOf crc cfg s (readLabels rd.header r) t ∧
      t.readers.lookup r = some (rd.withBlob elected file.bytes) := by
  have hbs : readStage crc rd.header .checking (some file) true = _ := h.readBytes_eq
  have hmap : readStage crc rd.header .mapping (some file) true = _ := h.mapRecord_eq
  have hself : ∀ (s : Sys) (new : RecordReader), (s.setReader r new).readers.lookup r = some new :=
    fun _ _ => Finmap.lookup_insert _
  by_cases hlar : fileBackedRecordMinBytes ≤ rd.header.fileBytes
  · rw [if_pos hlar] at hbs
    rw [readLabels, if_pos hlar]
    refine read_next hr hfile h.readSize_eq ?_
    refine read_next (hself _ _) hfile hbs ?_
    refine read_next (hself _ _) hfile (h.readHeader_eq hcnt) ?_
    exact read_last (hself _ _) hfile hmap h.length_eq
  · rw [if_neg hlar] at hbs
    rw [readLabels, if_neg hlar]
    refine read_next hr hfile h.readSize_eq ?_
    exact read_last (hself _ _) hfile hbs h.length_eq

/-- LOAD: an undisturbed load of a committed record that is not resident gives the reader its
    bytes. -/
theorem Intact.load (h : Intact crc rd.header ts file.bytes)
    (hcnt : ts.length ≤ maxTokenCount) (hr : s.readers.lookup r = some rd)
    (hidle : rd.stage = .idle) (hblob : rd.blob = none) (hfile : s.files.lookup rd.path = some file)
    (habs : s.tier.entries.lookup rd.path = none) (hfree : rd.path ∉ s.tier.loading) :
    ∃ t, RunOf crc cfg s (loadLabels cfg rd.header r) t ∧
      t.readers.lookup r = some { rd with blob := some file.bytes } := by
  have hdone : ({ rd.at .idle with blob := some file.bytes } : RecordReader) =
      { rd with blob := some file.bytes } := by
    rw [RecordReader.at, hidle]
  by_cases hdir : cfg.residentCapacityBytes = 0 ∨ cfg.residentCapacityBytes < rd.header.fileBytes
  · have hload : step crc cfg s (.load r) =
        some (s.setReader r (rd.at (.reading false .sizing)), .silent) := by
      simp only [step, Label.capture, Label.reader, hr, Sys.readerStep, hidle, hblob,
        if_pos hdir, RecordReader.at]
    obtain ⟨t, hrun, hlk⟩ := h.read (s := s.setReader r _) hcnt (Finmap.lookup_insert _) hfile
    rw [loadLabels, if_pos hdir]
    exact ⟨t, .cons hload hrun, hlk.trans (congrArg some hdone)⟩
  · have hload : step crc cfg s (.load r) = some (s.setReader r (rd.at .electing), .silent) := by
      simp only [step, Label.capture, Label.reader, hr, Sys.readerStep, hidle, hblob,
        if_neg hdir, RecordReader.at]
    have hele : s.tier.elect rd.path =
        (.elected, { s.tier with loading := insert rd.path s.tier.loading }) := by
      rw [TierState.elect, habs]
      exact if_neg hfree
    obtain ⟨m, helc, hmr, hmfi⟩ : ∃ m, step crc cfg (s.setReader r (rd.at .electing))
        (.elect r) = some (m, .silent) ∧ m.readers.lookup r = some (rd.at (.reading true .sizing)) ∧
        m.files.lookup rd.path = some file := by
      have hr' : (s.setReader r (rd.at .electing)).readers.lookup r =
          some (rd.at .electing) := Finmap.lookup_insert _
      have htier : (s.setReader r (rd.at .electing)).tier.elect (rd.at .electing).path = _ :=
        hele
      simp only [step, Label.capture, Label.reader, hr', Sys.readerStep, htier]
      exact ⟨_, rfl, Finmap.lookup_insert _, hfile⟩
    obtain ⟨t, hrun, hlk⟩ := h.read hcnt hmr hmfi
    have hset : step crc cfg t (.settle r) =
        some (Sys.setReader { t with
          tier := t.tier.settle cfg.residentCapacityBytes rd.path (some file.bytes) } r
          { rd.at .idle with blob := some file.bytes }, .silent) := by
      have hlk' : t.readers.lookup r = some (rd.at (.settling (some file.bytes))) := hlk
      simp only [step, Label.capture, Label.reader, hlk', Sys.readerStep, RecordReader.at]
    rw [loadLabels, if_neg hdir]
    refine ⟨_, .cons hload (.cons helc (hrun.append (.cons hset .nil))), ?_⟩
    exact (Finmap.lookup_insert _).trans (congrArg some hdone)

end Loads

end LetsInfer.PrefixStore
