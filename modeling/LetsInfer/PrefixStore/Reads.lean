import LetsInfer.PrefixStore.Directory
import LetsInfer.PrefixStore.Writer

/-! @src cache/letsinfer_prefix_store/src/store.rs | name:What readers see | scheme:coherence

    A reader takes its blob from the resident tier, which is keyed by the path alone, or from the file
    now at the path. Both are of the reader's own record as long as a key hash is reserved only when
    nothing of an earlier record of the hash is left: no index entry, no deletion under way, no live
    reader, no resident entry and no promotion. Then every header at a path is the same, and whatever
    bytes are kept under the path were captured with it. -/

namespace LetsInfer.PrefixStore
open Schemes

/-- A record or a live reader of the header is at the path. -/
def Claims (s : Sys) (path : Path) (header : RecordHeader) : Prop :=
  (∃ record ∈ s.index.records, record.path = path ∧ record.header = header) ∨
    ∃ r reader, s.readers.lookup r = some reader ∧ reader.path = path ∧ reader.header = header

/-- The bytes are resident under the path, or about to be promoted to it. -/
def Cached (s : Sys) (path : Path) (blob : Blob) : Prop :=
  s.tier.entries.lookup path = some blob ∨
    ∃ n c, s.captures.lookup n = some c ∧ c.stage = .promoting path blob

def RecordReader.carries (reader : RecordReader) (blob : Blob) : Prop :=
  reader.blob = some blob ∨ reader.stage = .settling (some blob)

def CaptureStage.carries (stage : CaptureStage) (job : PreparedCommit) (blob : Blob) : Prop :=
  stage.job = some job ∧ (job.bytes = blob ∨ stage = .committing job (.publishing (some blob)))

/-- A reader or a commit of the header has the bytes in hand. -/
def Carried (s : Sys) (header : RecordHeader) (blob : Blob) : Prop :=
  (∃ r reader, s.readers.lookup r = some reader ∧ reader.header = header ∧ reader.carries blob) ∨
    ∃ n c job, s.captures.lookup n = some c ∧ job.header = header ∧ c.stage.carries job blob

/-- Nothing of an earlier record is left under the path. -/
def Unused (s : Sys) (path : Path) : Prop :=
  Clear s path ∧ (∀ header, ¬Claims s path header) ∧ ∀ blob, ¬Cached s path blob

/-- `begin_capture` reserves a key hash whose path is unused. -/
def ReservesUnused (s : Sys) : Label → Prop
  | .reserve n => ∀ c, s.captures.lookup n = some c → c.stage = .planned →
      Unused s (.record c.header.keyHash)
  | _ => True

/-! ### Writers -/

variable {hdr : RecordHeader} {cfg : StoreConfig} {crc : List UInt8 → UInt32} {s t : Sys}
  {lab : Label} {o : Output} {c' : Capture} {path : Path} {job : PreparedCommit}
  {r idx length : ℕ} {sweep sweep' : Sweep} {files : Table Path File} {new : RecordReader}

/-- Every capture is of a laid-out record, and its buffer is one. -/
def Writing (s : Sys) : Prop :=
  ∀ n c, s.captures.lookup n = some c → Canonical c.header ∧
    c.header.tokenCount = c.tokens.length ∧
      ∀ bytes, c.stage = .writing bytes → Written c.header c.tokens bytes

theorem planCapture_ok {fp : Fingerprint} {ts : List UInt32} {rgs : List RegionDescription}
    (h : planCapture cfg fp ts rgs = .ok hdr) :
    Canonical hdr ∧ hdr.fingerprint = fp ∧ hdr.keyHash = keyHash fp ts ∧
      hdr.tokenCount = ts.length ∧ hdr.regions = rgs ∧ cfg.minimumTokenCount ≤ ts.length := by
  unfold planCapture at h
  split_ifs at h with _ hmin
  split at h
  · cases h
  · rename_i hlay
    split_ifs at h
    cases h
    obtain ⟨hcan, hfpr, hhash, hcnt, hrgs, -⟩ := layout_eq_ok.mp hlay
    exact ⟨hcan, hfpr, hhash, hcnt, hrgs, not_lt.mp hmin⟩

variable {rd : RecordReader}

section Steps

variable {n : ℕ} {c : Capture}

variable {sg : CaptureStage}

namespace Writing

theorem of_insert (h : Writing s) (hcap : t.captures = s.captures.insert n c')
    (hc : Canonical c'.header ∧ c'.header.tokenCount = c'.tokens.length ∧
      ∀ bs, c'.stage = .writing bs → Written c'.header c'.tokens bs) : Writing t := by
  intro m d hd
  rcases Table.insert_cases hcap hd with ⟨-, rfl⟩ | ⟨-, hd⟩
  · exact hc
  · exact h m d hd

/-- A capture in a stage without a buffer. -/
theorem of_stage (h : Writing s) (hc : s.captures.lookup n = some c)
    (hcap : t.captures = s.captures.insert n { c with stage := sg })
    (hsg : ∀ bs, sg ≠ .writing bs) : Writing t := by
  obtain ⟨hcan, hcnt, -⟩ := h n c hc
  exact h.of_insert hcap ⟨hcan, hcnt, fun bs heq => absurd heq (hsg bs)⟩

theorem of_eq (h : Writing s) (hcap : t.captures = s.captures) : Writing t := by
  rwa [Writing, hcap]

/-- STEP: writers keep their buffers laid out. -/
theorem moves (h : Writing s) (hmv : Moves crc cfg s lab t o) : Writing t := by
  cases hmv with
  | refusePlan | miss | electBusy | readRegion => exact h
  | releaseResident | hit | touch | load | electHit | elected | settle | settleFail | evict
  | sweepReader | sweptReader | dropReader | reclaim | sweep | swept => exact h.of_eq rfl
  | readStep =>
    obtain ⟨new, heq, -⟩ := exists_advanceLoad s _ _ _ _
    rw [heq]
    exact h.of_eq rfl
  | plan hplan =>
    obtain ⟨hcan, -, -, hcnt, -⟩ := planCapture_ok hplan
    exact h.of_insert rfl ⟨hcan, hcnt, by simp⟩
  | stored hc | reserve hc | enforce hc | sweepCapture hc | rollback hc | allocateFail hc
  | abandon hc | unprepared hc | commit hc | enqueue hc | bounce hc | receive hc | persist hc
  | persistUnsynced hc | persistFail hc | readBack hc | discard hc | cancelReservation hc
  | promote hc => exact h.of_stage hc rfl (by simp)
  | @sweptCapture _ _ _ exh hc =>
    refine h.of_stage hc rfl ?_
    cases exh <;> simp
  | allocate hc =>
    obtain ⟨hcan, hcnt, -⟩ := h _ _ hc
    refine h.of_insert rfl ⟨hcan, hcnt, ?_⟩
    rintro bs ⟨⟩
    exact captureBuffer_written hcan hcnt
  | writeRegion hc hsg hrg hlen =>
    obtain ⟨hcan, hcnt, hwrt⟩ := h _ _ hc
    refine h.of_insert rfl ⟨hcan, hcnt, ?_⟩
    rintro bs ⟨⟩
    exact (hwrt _ hsg).writeRegion hrg hlen
  | publish hc =>
    refine h.of_stage hc rfl ?_
    intro bs
    unfold afterPublish
    split <;> simp
  | close =>
    intro m d hd
    exact h m d (Table.lookup_of_erase hd)

end Writing

/-! ### Bytes under a path -/

/-- Index, readers, tier, files and captures agree on the bytes of every path. -/
structure Coherent (crc32 : List UInt8 → UInt32) (s : Sys) : Prop extends Filed s where
  writing : Writing s
  images : ∀ header blob, (header, blob) ∈ s.captured → Image crc32 header blob
  carried : ∀ header blob, Carried s header blob → (header, blob) ∈ s.captured
  same : ∀ path a b, Claims s path a → Claims s path b → a = b
  cached : ∀ path header blob, Claims s path header → Cached s path blob →
    (header, blob) ∈ s.captured
  files : ∀ path header file, Claims s path header → s.files.lookup path = some file →
    (header, file.bytes) ∈ s.captured
  bytes : ∀ n job file, Placed s n job →
    s.files.lookup (.record job.header.keyHash) = some file → file.bytes = job.bytes
  alone : ∀ n hash, Holder s n hash →
    (∀ header, ¬Claims s (.record hash) header) ∧ ∀ blob, ¬Cached s (.record hash) blob

/-- The tier has no entry it did not have. -/
def TierLess (s t : Sys) : Prop :=
  ∀ path blob, t.tier.entries.lookup path = some blob → s.tier.entries.lookup path = some blob

variable {tier tier' : TierState}

theorem TierLess.of_invalidate (h : t.tier = s.tier.invalidate path) : TierLess s t := by
  intro other blob hoth
  rw [h, lookup_invalidate] at hoth
  split_ifs at hoth
  exact hoth

theorem TierLess.of_eq (h : t.tier = s.tier) : TierLess s t := fun _ _ hoth => h ▸ hoth

theorem TierLess.of_entries (h : t.tier.entries = s.tier.entries) : TierLess s t :=
  fun _ _ hoth => h ▸ hoth

theorem TierLess.of_sweep (h : sweepStep sweep s.tier s.files = some (sweep', tier, files))
    (ht : t.tier = tier) : TierLess s t := by
  rw [sweepStep] at h
  split at h
  · cases h
  · split_ifs at h
    · cases h
      exact .of_eq ht
    · cases h
      exact .of_invalidate ht

theorem lookup_of_sweep {files' : Table Path File} {file : File}
    (h : sweepStep sweep tier files = some (sweep', tier', files'))
    (hfile : files'.lookup path = some file) : files.lookup path = some file := by
  rcases (sweepStep_spec h).2 with rfl | ⟨gone, -, rfl⟩
  · exact hfile
  · exact Table.lookup_of_erase hfile

theorem elect_resident {blob : Blob} (h : tier.elect path = (.resident blob, tier')) :
    tier.entries.lookup path = some blob ∧ tier'.entries = tier.entries := by
  unfold TierState.elect at h
  split at h
  · rename_i found hfd
    cases h
    exact ⟨hfd, rfl⟩
  · split_ifs at h <;> cases h

theorem elect_elected (h : tier.elect path = (.elected, tier')) : tier'.entries = tier.entries := by
  unfold TierState.elect at h
  split at h
  · cases h
  · split_ifs at h
    · cases h
    · cases h
      rfl

theorem afterPersist_publishing {blob : Blob}
    (h : afterPersist cfg job = .publishing (some blob)) : job.bytes = blob := by
  unfold afterPersist at h
  split_ifs at h
  · cases h
    rfl
  · cases h
  · cases h

/-- What a step may bring to a capture: nothing to promote that was not cached, and no bytes but
    carried or captured ones. -/
def Capture.Keeps (s t : Sys) (n : ℕ) (c : Capture) : Prop :=
  (∀ path blob, c.stage = .promoting path blob → Cached s path blob) ∧
    (∀ job blob, c.stage.carries job blob →
      Carried s job.header blob ∨ (job.header, blob) ∈ t.captured) ∧
    (c.stage.standing.holds → Holder s n c.header.keyHash)

def CapturesKeep (s t : Sys) : Prop := ∀ n c, t.captures.lookup n = some c → c.Keeps s t n

/-- What a step may bring to a reader: bytes of its own header. -/
def RecordReader.Keeps (s t : Sys) (reader : RecordReader) : Prop :=
  Claims s reader.path reader.header ∧ ∀ blob, reader.carries blob →
    Carried s reader.header blob ∨ (reader.header, blob) ∈ t.captured

def ReadersKeep (s t : Sys) : Prop :=
  ∀ r reader, t.readers.lookup r = some reader → reader.Keeps s t

theorem keeps_of_lookup (hc : s.captures.lookup n = some c) : c.Keeps s t n :=
  ⟨fun _ _ hsg => .inr ⟨n, c, hc, hsg⟩, fun job _ hcar => .inl (.inr ⟨n, c, job, hc, rfl,
    hcar⟩), fun hhd => ⟨c, hc, hhd, rfl⟩⟩

theorem CapturesKeep.of_eq (h : t.captures = s.captures) : CapturesKeep s t :=
  fun _ _ hc => keeps_of_lookup (h ▸ hc)

theorem CapturesKeep.of_insert (h : t.captures = s.captures.insert n c')
    (hkps : c'.Keeps s t n) : CapturesKeep s t := by
  intro m d hd
  rcases Table.insert_cases h hd with ⟨hm, rfl⟩ | ⟨-, hd⟩
  · exact hm ▸ hkps
  · exact keeps_of_lookup hd

/-- A capture that goes on without a job. -/
theorem keeps_plain (hc : s.captures.lookup n = some c)
    (hpla : ∀ path blob, sg ≠ .promoting path blob) (hjob : sg.job = none)
    (hhd : sg.standing.holds → c.stage.standing.holds) :
    Capture.Keeps s t n { c with stage := sg } := by
  refine ⟨fun path blob heq => absurd heq (hpla path blob), ?_, fun hnow =>
    ⟨c, hc, hhd hnow, rfl⟩⟩
  rintro job blob ⟨heq, -⟩
  simp [hjob] at heq

/-- A commit that goes on with its job. -/
theorem keeps_job (hc : s.captures.lookup n = some c) (hjob : c.stage.job = some job)
    (hsg : sg.job = some job) (hhd : c.stage.standing.holds)
    (hpla : ∀ path blob, sg ≠ .promoting path blob)
    (hblob : ∀ blob, sg = .committing job (.publishing (some blob)) → Carried s job.header blob ∨
      (job.header, blob) ∈ t.captured) : Capture.Keeps s t n { c with stage := sg } := by
  refine ⟨fun path blob heq => absurd heq (hpla path blob), ?_, fun _ => ⟨c, hc, hhd, rfl⟩⟩
  rintro job' blob ⟨heq, hcar⟩
  obtain rfl : job = job' := Option.some.inj (hsg.symm.trans heq)
  rcases hcar with hbs | hpbg
  · exact .inl (.inr ⟨n, c, job, hc, rfl, hjob, .inl hbs⟩)
  · exact hblob blob hpbg

theorem placed_of_stage {m : ℕ} (h : t.captures = s.captures.insert n c')
    (hplc : ∀ job sg, c'.stage = .committing job sg → sg.inPlace → Placed s n job)
    (hm : Placed t m job) : Placed s m job := by
  obtain ⟨d, sg, hd, hsg, hin⟩ := hm
  rcases Table.insert_cases h hd with ⟨hmn, rfl⟩ | ⟨-, hd⟩
  · exact hmn ▸ hplc job sg hsg hin
  · exact ⟨d, sg, hd, hsg, hin⟩

theorem reader_keeps (hr : s.readers.lookup r = some rd) : rd.Keeps s t :=
  ⟨.inr ⟨r, rd, hr, rfl, rfl⟩, fun _ hcar => .inl (.inl ⟨r, rd, hr, rfl, hcar⟩)⟩

theorem ReadersKeep.of_eq (h : t.readers = s.readers) : ReadersKeep s t :=
  fun _ _ hr => reader_keeps (h ▸ hr)

theorem ReadersKeep.of_insert (h : t.readers = s.readers.insert r new)
    (hkps : new.Keeps s t) : ReadersKeep s t := by
  intro m rd hm
  rcases Table.insert_cases h hm with ⟨-, rfl⟩ | ⟨-, hm⟩
  · exact hkps
  · exact reader_keeps hm

/-- A reader that goes on with no bytes but those it had. -/
theorem ReadersKeep.of_stage {old : RecordReader} (hr : s.readers.lookup r = some old)
    (h : t.readers = s.readers.insert r new) (hpin : new.pin = old.pin)
    (hblob : ∀ blob, new.carries blob → old.carries blob ∨ (old.header, blob) ∈ t.captured) :
    ReadersKeep s t := by
  obtain ⟨hhdr, hpath, -⟩ := pin_eq hpin
  refine .of_insert h ⟨.inr ⟨r, old, hr, hpath.symm, hhdr.symm⟩, fun blob hcar => ?_⟩
  rw [hhdr]
  exact (hblob blob hcar).imp_left fun hold => .inl ⟨r, old, hr, rfl, hold⟩

theorem RecordsFrom.claims (h : RecordsFrom s t) (hrds : ReadersKeep s t)
    (hcms : Claims t path hdr) : Claims s path hdr := by
  obtain ⟨g, hg, hfrom⟩ := h
  rcases hcms with ⟨b, hb, hpath, hhdr⟩ | ⟨r, rd, hr, rfl, rfl⟩
  · obtain ⟨a, ha, rfl⟩ := hfrom b hb
    exact .inl ⟨a, ha, (record_pin_eq (hg a)).2.1 ▸ hpath, (record_pin_eq (hg a)).1 ▸ hhdr⟩
  · exact (hrds r rd hr).1

/-- Nothing comes in: no record, no file, no entry of the log, and no resident bytes but cached ones
    and those of a claim. -/
structure Fewer (s t : Sys) : Prop where
  records : RecordsFrom s t
  log : t.captured = s.captured
  tier : ∀ path blob, t.tier.entries.lookup path = some blob → Cached s path blob ∨
    ∃ header, Claims s path header ∧ (header, blob) ∈ t.captured
  files : ∀ path file, t.files.lookup path = some file → s.files.lookup path = some file

theorem Fewer.of_records (hrcs : RecordsFrom s t) (hlog : t.captured = s.captured)
    (htier : TierLess s t) (hfls : t.files = s.files) : Fewer s t :=
  ⟨hrcs, hlog, fun path blob hb => .inl (.inl (htier path blob hb)), fun _ _ hfile =>
    hfls ▸ hfile⟩

/-- The steps that may bring something in. -/
def Label.brings : Label → Bool
  | .commit _ | .commitAsync _ _ | .persist _ _ | .publish _ _ | .promote _ | .settle _ => true
  | _ => false

theorem Moves.fewer (h : Moves crc cfg s lab t o) (hkey : s.index.Keyed)
    (hbri : lab.brings = false) : Fewer s t := by
  have hsame : ∀ b ∈ s.index.records, b ∈ s.index.records := fun _ => id
  cases h with
  | unprepared _ _ hlb => rcases hlb with rfl | ⟨_, rfl⟩ <;> cases hbri
  | commit | enqueue | bounce | persist | persistUnsynced | persistFail | publish | promote | settle
  | settleFail => cases hbri
  | enforce _ _ henf =>
    obtain ⟨gone, hgone, -⟩ := IndexState.enforce_evicts hkey le_rfl henf
    exact .of_records (.of_subset fun _ => hgone.subset) rfl (.of_eq rfl) rfl
  | evict _ _ hevi =>
    obtain ⟨gone, hgone, -⟩ := IndexState.evictForIntegrity_evicts hevi
    exact .of_records (.of_subset fun _ => hgone.subset) rfl (.of_eq rfl) rfl
  | reclaim hrec =>
    obtain ⟨gone, hgone, -⟩ := IndexState.reclaim_evicts hkey hrec
    exact .of_records (.of_subset fun _ => hgone.subset) rfl (.of_eq rfl) rfl
  | sweepCapture _ _ hsw | sweepReader _ _ hsw | sweep _ hsw =>
    exact ⟨.of_subset hsame, rfl, fun path blob hb => .inl (.inl (TierLess.of_sweep hsw rfl _ _ hb)),
      fun _ _ => lookup_of_sweep hsw⟩
  | discard =>
    exact ⟨.of_subset hsame, rfl, fun _ _ hb => .inl (.inl hb), fun _ _ => Table.lookup_of_erase⟩
  | hit hfd =>
    obtain ⟨-, hidx⟩ := IndexState.longestPrefix_eq_some hfd
    exact .of_records (.of_update hidx fun _ => rfl) rfl (.of_eq rfl) rfl
  | touch | dropReader => exact .of_records (.of_update rfl fun _ => rfl) rfl (.of_eq rfl) rfl
  | releaseResident => exact .of_records (.of_subset hsame) rfl (.of_invalidate rfl) rfl
  | electHit _ _ hele =>
    exact .of_records (.of_subset hsame) rfl (.of_entries (elect_resident hele).2) rfl
  | elected _ _ hele =>
    exact .of_records (.of_subset hsame) rfl (.of_entries (elect_elected hele)) rfl
  | readStep =>
    obtain ⟨new, heq, -⟩ := exists_advanceLoad s _ _ _ _
    rw [heq]
    exact .of_records (.of_subset hsame) rfl (.of_eq rfl) rfl
  | _ => exact .of_records (.of_subset hsame) rfl (.of_eq rfl) rfl

namespace Coherent

section

variable (h : Coherent crc s)
include h

/-- What may change under coherence: claims go, and bytes come only where their header claims. -/
theorem of_less (hfil : Filed t) (hwr : Writing t)
    (hlog : ∀ x ∈ s.captured, x ∈ t.captured) (hima : ∀ hdr blob, (hdr, blob) ∈ t.captured →
      (hdr, blob) ∈ s.captured ∨ Image crc hdr blob)
    (hrcs : RecordsFrom s t) (hcap : CapturesKeep s t) (hrds : ReadersKeep s t)
    (htier : ∀ path blob, t.tier.entries.lookup path = some blob → Cached s path blob ∨
      ∃ hdr, Claims s path hdr ∧ (hdr, blob) ∈ t.captured)
    (hfls : ∀ path hdr file, Claims s path hdr → t.files.lookup path = some file →
      s.files.lookup path = some file) (hbs : ∀ n job file, Placed t n job →
      t.files.lookup (.record job.header.keyHash) = some file → file.bytes = job.bytes) :
    Coherent crc t := by
  have hcms : ∀ path hdr, Claims t path hdr → Claims s path hdr :=
    fun _ _ => hrcs.claims hrds
  have hcac : ∀ path blob, Cached t path blob → Cached s path blob ∨
      ∃ hdr, Claims s path hdr ∧ (hdr, blob) ∈ t.captured := by
    rintro path blob (hen | ⟨n, c, hc, hsg⟩)
    · exact htier path blob hen
    · exact .inl ((hcap n c hc).1 path blob hsg)
  refine ⟨hfil, hwr, ?_, ?_, ?_, ?_, ?_, hbs, ?_⟩
  · intro hdr blob hmem
    exact (hima hdr blob hmem).elim (h.images hdr blob) id
  · rintro hdr blob (⟨r, rd, hr, rfl, hcar⟩ | ⟨n, c, job, hc, rfl, hcar⟩)
    · exact ((hrds r rd hr).2 blob hcar).elim (fun hold => hlog _ (h.carried _ _ hold)) id
    · exact ((hcap n c hc).2.1 job blob hcar).elim (fun hold => hlog _ (h.carried _ _ hold)) id
  · exact fun path a b ha hb => h.same path a b (hcms path a ha) (hcms path b hb)
  · intro path hdr blob hclm hin
    have hclm := hcms path hdr hclm
    rcases hcac path blob hin with hin | ⟨other, hoth, hmem⟩
    · exact hlog _ (h.cached path hdr blob hclm hin)
    · rwa [h.same path hdr other hclm hoth]
  · intro path hdr file hclm hfile
    have hclm := hcms path hdr hclm
    exact hlog _ (h.files path hdr file hclm (hfls path hdr file hclm hfile))
  · rintro n hash ⟨c, hc, hhd, rfl⟩
    obtain ⟨hno, hemp⟩ := h.alone n _ ((hcap n c hc).2.2 hhd)
    refine ⟨fun hdr hclm => hno hdr (hcms _ _ hclm), fun blob hin => ?_⟩
    rcases hcac _ blob hin with hin | ⟨other, hoth, -⟩
    · exact hemp blob hin
    · exact hno other hoth

/-- A step of one capture that brings nothing in. -/
theorem of_capture (hfil : Filed t) (hwr : Writing t)
    (hfew : Fewer s t) (hcap : t.captures = s.captures.insert n c') (hkps : c'.Keeps s t n)
    (hplc : ∀ job sg, c'.stage = .committing job sg → sg.inPlace → Placed s n job)
    (hrds : t.readers = s.readers) : Coherent crc t := by
  refine h.of_less hfil hwr (by simp [hfew.log]) (fun _ _ hmem => .inl (hfew.log ▸ hmem))
    hfew.records (.of_insert hcap hkps) (.of_eq hrds) hfew.tier
    (fun path _ file _ => hfew.files path file) ?_
  intro m job file hm hfile
  exact h.bytes m job file (placed_of_stage hcap hplc hm) (hfew.files _ _ hfile)

/-- A step of one reader, or of none, that brings nothing in. -/
theorem of_readers (hfil : Filed t) (hwr : Writing t) (hfew : Fewer s t)
    (hcap : t.captures = s.captures) (hrds : ReadersKeep s t) : Coherent crc t := by
  refine h.of_less hfil hwr (by simp [hfew.log]) (fun _ _ hmem => .inl (hfew.log ▸ hmem))
    hfew.records (.of_eq hcap) hrds hfew.tier
    (fun path _ file _ => hfew.files path file) ?_
  rintro m job file ⟨c, sg, hc, hsg⟩ hfile
  exact h.bytes m job file ⟨c, sg, hcap ▸ hc, hsg⟩ (hfew.files _ _ hfile)

/-- What a checked read of a reader's path gives. -/
theorem read_done {sg : ReadStage} {io : Bool} {blob : Blob}
    (hfile : ∀ file, s.files.lookup path = some file → (hdr, file.bytes) ∈ s.captured)
    (hread : readStage crc hdr sg (s.files.lookup path) io = .done blob) :
    (hdr, blob) ∈ s.captured := by
  obtain ⟨file, hlk, rfl⟩ :=
    readStage_done (fun file hlk => h.images _ _ (hfile file hlk)) hread
  exact hfile file hlk

/-- A commit takes its buffer into the log. -/
theorem of_prepare {bs : Blob} {promote : Bool}
    (hfil : Filed t) (hwr : Writing t) (hc : s.captures.lookup n = some c)
    (hsg : c.stage = .writing bs) (hjob : prepare crc c.header bs promote = some job)
    (hcap : t.captures = s.captures.insert n { c with stage := sg })
    (hnx : sg.job = none ∨ sg.job = some job) (hpla : ∀ path blob, sg ≠ .promoting path blob)
    (hear : ∀ job st, sg = .committing job st → st = .persisting)
    (hlog : t.captured = (job.header, job.bytes) :: s.captured) (hidx : t.index = s.index)
    (hrds : t.readers = s.readers) (htier : t.tier = s.tier) (hfls : t.files = s.files) :
    Coherent crc t := by
  obtain ⟨hcan, -, hwrt⟩ := h.writing n c hc
  have himg := (prepare_spec hcan (hwrt bs hsg).length_eq hjob).1.image
  refine h.of_less hfil hwr (by simp +contextual [hlog]) ?_ (.of_subset (by simp [hidx]))
    (.of_insert hcap ⟨fun path blob heq => absurd heq (hpla path blob), ?_, ?_⟩) (.of_eq hrds)
    (fun path blob hb => .inl (.inl (htier ▸ hb))) (fun path _ file _ hfile => hfls ▸ hfile) ?_
  · intro hdr blob hmem
    rw [hlog] at hmem
    rcases List.mem_cons.mp hmem with heq | hmem
    · cases heq
      exact .inr himg
    · exact .inl hmem
  · rintro job' blob ⟨heq, hcar⟩
    rcases hnx with hno | hsome
    · simp [hno] at heq
    · obtain rfl : job = job' := Option.some.inj (hsome.symm.trans heq)
      rcases hcar with rfl | hpbg
      · exact .inr (by simp [hlog])
      · cases hear job _ hpbg
  · exact fun _ => ⟨c, hc, by rw [hsg]; rfl, rfl⟩
  · intro m job' file hm hfile
    refine h.bytes m job' file (placed_of_stage hcap ?_ hm) (hfls ▸ hfile)
    intro job'' st heq hin
    rw [hear job'' st heq] at hin
    cases hin

/-- The rename of a commit puts its own bytes at a path that nothing else reads. -/
theorem persist {sg : CaptureStage} (hfil : Filed t) (hwr : Writing t)
    (hc : s.captures.lookup n = some c) (hsg : c.stage = .committing job .persisting)
    (hcap : t.captures = s.captures.insert n { c with stage := sg })
    (hkps : Capture.Keeps s t n { c with stage := sg })
    (hjob : ∀ job' st, sg = .committing job' st → job' = job) (hlog : t.captured = s.captured)
    (hidx : t.index = s.index) (hrds : t.readers = s.readers) (htier : t.tier = s.tier)
    (hfls : t.files = s.files.insert (.record job.header.keyHash) ⟨job.bytes, n⟩) :
    Coherent crc t := by
  have hfor : job.For c.header := h.jobs n c job hc (by rw [hsg]; rfl)
  have hself : Holder s n job.header.keyHash := ⟨c, hc, by rw [hsg]; rfl, hfor.1.symm⟩
  refine h.of_less hfil hwr (by simp [hlog]) (fun _ _ hmem => .inl (hlog ▸ hmem))
    (.of_subset (by simp [hidx])) (.of_insert hcap hkps) (.of_eq hrds)
    (fun path blob hb => .inl (.inl (htier ▸ hb))) ?_ ?_
  · intro path hdr file hclm hfile
    have hne : path ≠ .record job.header.keyHash := by
      rintro rfl
      exact (h.alone n _ hself).1 hdr hclm
    rwa [hfls, Table.lookup_insert_ite, if_neg hne] at hfile
  · rintro m job' file ⟨d, st, hd, hst, hin⟩ hfile
    rcases Table.insert_cases hcap hd with ⟨-, rfl⟩ | ⟨-, hd⟩
    · obtain rfl := hjob job' st hst
      rw [hfls, Finmap.lookup_insert] at hfile
      cases hfile
      rfl
    · -- Another commit in place is at another path.
      have hplc : Placed s m job' := ⟨d, st, hd, hst, hin⟩
      have hne : Path.record job'.header.keyHash ≠ .record job.header.keyHash :=
        h.ne_of_needed hc hsg rfl (.inr ⟨m, job', hplc, rfl⟩)
      rw [hfls, Table.lookup_insert_ite, if_neg hne] at hfile
      exact h.bytes m job' file hplc hfile

/-- The index entry of a commit is the first claim on its path. -/
theorem publish {now : ℕ} {blob : Option Blob} (hfil : Filed t) (hwr : Writing t)
    (hc : s.captures.lookup n = some c) (hsg : c.stage = .committing job (.publishing blob))
    (hidx : t.index = (s.index.publish (job.record c.tokens n now)).1)
    (hcap : t.captures = s.captures.insert n { c with stage := afterPublish job blob })
    (hrds : t.readers = s.readers) (htier : TierLess s t) (hfls : t.files = s.files)
    (hlog : t.captured = s.captured) : Coherent crc t := by
  have hplc : Placed s n job := ⟨c, _, hc, hsg, rfl⟩
  have hself := hplc.holder h.toOwned
  obtain ⟨hno, hemp⟩ := h.alone n _ hself
  have hmem := mem_of_publish hidx
  have hcms : ∀ path hdr, Claims t path hdr →
      path = .record job.header.keyHash ∧ hdr = job.header ∨ Claims s path hdr := by
    rintro path hdr (⟨b, hb, rfl, rfl⟩ | hr)
    · rcases hmem b hb with rfl | hb
      · exact .inl ⟨rfl, rfl⟩
      · exact .inr (.inl ⟨b, hb, rfl, rfl⟩)
    · exact .inr (.inr (hrds ▸ hr))
  have hpro : ∀ path b, afterPublish job blob = .promoting path b →
      path = .record job.header.keyHash ∧ blob = some b := by
    intro path b heq
    unfold afterPublish at heq
    split at heq
    · cases heq
      exact ⟨rfl, rfl⟩
    · cases heq
  have hcac : ∀ path b, Cached t path b →
      path = .record job.header.keyHash ∧ blob = some b ∨ Cached s path b := by
    rintro path b (hen | ⟨m, d, hd, hst⟩)
    · exact .inr (.inl (htier path b hen))
    · rcases Table.insert_cases hcap hd with ⟨-, rfl⟩ | ⟨-, hd⟩
      · exact .inl (hpro path b hst)
      · exact .inr (.inr ⟨m, d, hd, hst⟩)
  have hblob : ∀ b, blob = some b → (job.header, b) ∈ s.captured := by
    rintro b rfl
    exact h.carried _ _ (.inr ⟨n, c, job, hc, rfl, by rw [hsg]; rfl, .inr hsg⟩)
  have hjob : (job.header, job.bytes) ∈ s.captured :=
    h.carried _ _ (.inr ⟨n, c, job, hc, rfl, by rw [hsg]; rfl, .inl rfl⟩)
  have hnoj : (afterPublish job blob).job = none :=
    Owned.job_of_done (standing_afterPublish job blob)
  refine ⟨hfil, hwr, hlog ▸ h.images, ?_, ?_, ?_, ?_, ?_, ?_⟩
  · rw [hlog]
    rintro hdr b (hr | ⟨m, d, job', hd, rfl, hcar⟩)
    · exact h.carried _ _ (.inl (hrds ▸ hr))
    · rcases Table.insert_cases hcap hd with ⟨-, rfl⟩ | ⟨-, hd⟩
      · simp [CaptureStage.carries, hnoj] at hcar
      · exact h.carried _ _ (.inr ⟨m, d, job', hd, rfl, hcar⟩)
  · intro path a b ha hb
    rcases hcms path a ha with ⟨rfl, rfl⟩ | ha
    · rcases hcms _ b hb with ⟨-, rfl⟩ | hb
      · rfl
      · exact absurd hb (hno b)
    · rcases hcms _ b hb with ⟨rfl, -⟩ | hb
      · exact absurd ha (hno a)
      · exact h.same path a b ha hb
  · rw [hlog]
    intro path hdr b hclm hin
    rcases hcms path hdr hclm with ⟨rfl, rfl⟩ | hclm
    · rcases hcac _ b hin with ⟨-, heq⟩ | hin
      · exact hblob b heq
      · exact absurd hin (hemp b)
    · rcases hcac _ b hin with ⟨rfl, -⟩ | hin
      · exact absurd hclm (hno hdr)
      · exact h.cached path hdr b hclm hin
  · rw [hlog, hfls]
    intro path hdr file hclm hfile
    rcases hcms path hdr hclm with ⟨rfl, rfl⟩ | hclm
    · rwa [h.bytes n job file hplc hfile]
    · exact h.files path hdr file hclm hfile
  · intro m job' file hm hfile
    refine h.bytes m job' file (placed_of_stage hcap ?_ hm) (hfls ▸ hfile)
    intro job'' st heq
    have hsome : (afterPublish job blob).job = some job'' := by
      rw [show afterPublish job blob = .committing job'' st from heq]
      rfl
    simp [hnoj] at hsome
  · intro m hash hm
    obtain ⟨hne, hm⟩ := (holder_released hcap
      (by simp [standing_afterPublish, Standing.holds])).mp hm
    obtain ⟨hno', hemp'⟩ := h.alone m hash hm
    have hpath : Path.record hash ≠ .record job.header.keyHash := fun heq =>
      hne (h.owner m n hash hm (Path.record.inj heq ▸ hself))
    refine ⟨fun hdr hclm => ?_, fun b hin => ?_⟩
    · exact (hcms _ hdr hclm).elim (fun hp => hpath hp.1) (hno' hdr)
    · exact (hcac _ b hin).elim (fun hp => hpath hp.1) (hemp' b)

/-- A reservation of an unused path. -/
theorem reserve (hfil : Filed t) (hwr : Writing t)
    (hunu : Unused s (.record c.header.keyHash)) (hrcs : t.index.records = s.index.records)
    (hcap : t.captures = s.captures.insert n { c with stage := .reserved })
    (hrds : t.readers = s.readers) (htier : t.tier = s.tier) (hfls : t.files = s.files)
    (hlog : t.captured = s.captured) : Coherent crc t := by
  have hlk : ∀ m d, t.captures.lookup m = some d →
      d = { c with stage := .reserved } ∨ s.captures.lookup m = some d :=
    fun m d hd => (Table.insert_cases hcap hd).imp And.right And.right
  have hcms : ∀ path hdr, Claims t path hdr → Claims s path hdr := by
    intro path hdr hclm
    rwa [Claims, hrcs, hrds] at hclm
  have hcac : ∀ path blob, Cached t path blob → Cached s path blob := by
    rintro path blob (hen | ⟨m, d, hd, hst⟩)
    · exact .inl (htier ▸ hen)
    · rcases hlk m d hd with rfl | hd
      · cases hst
      · exact .inr ⟨m, d, hd, hst⟩
  refine ⟨hfil, hwr, hlog ▸ h.images, ?_, ?_, ?_, ?_, ?_, ?_⟩
  · rw [hlog]
    rintro hdr blob (hr | ⟨m, d, job, hd, rfl, hcar⟩)
    · exact h.carried _ _ (.inl (hrds ▸ hr))
    · rcases hlk m d hd with rfl | hd
      · cases hcar.1
      · exact h.carried _ _ (.inr ⟨m, d, job, hd, rfl, hcar⟩)
  · exact fun path a b ha hb => h.same path a b (hcms path a ha) (hcms path b hb)
  · rw [hlog]
    exact fun path hdr blob hclm hin =>
      h.cached path hdr blob (hcms path hdr hclm) (hcac path blob hin)
  · rw [hlog, hfls]
    exact fun path hdr file hclm => h.files path hdr file (hcms path hdr hclm)
  · rintro m job file ⟨d, st, hd, hst, hin⟩ hfile
    rcases hlk m d hd with rfl | hd
    · cases hst
    · exact h.bytes m job file ⟨d, st, hd, hst, hin⟩ (hfls ▸ hfile)
  · rintro m hash ⟨d, hd, hhd, rfl⟩
    have haln : (∀ hdr, ¬Claims s (.record d.header.keyHash) hdr) ∧
        ∀ blob, ¬Cached s (.record d.header.keyHash) blob := by
      rcases hlk m d hd with rfl | hd
      · exact hunu.2
      · exact h.alone m _ ⟨d, hd, hhd, rfl⟩
    exact ⟨fun hdr hclm => haln.1 hdr (hcms _ _ hclm), fun blob hin => haln.2 blob (hcac _ _ hin)⟩

/-- STEP: a step that reserves only unused paths keeps the bytes of every path coherent. -/
theorem moves (hunu : ReservesUnused s lab) (hmv : Moves crc cfg s lab t o) : Coherent crc t := by
  have hcle : ReservesClear s lab := by
    cases lab with
    | reserve n => exact fun c hc hsg => (hunu c hc hsg).1
    | _ => trivial
  have hfil : Filed t := h.toFiled.moves hcle hmv
  have hwr : Writing t := h.writing.moves hmv
  have hfew : lab.brings = false → Fewer s t := hmv.fewer h.keyed
  have hrcs : RecordsFrom s s := .of_subset fun _ => id
  cases hmv with
  | refusePlan | miss | electBusy | readRegion => exact h
  | plan =>
    exact h.of_capture hfil hwr (hfew rfl) rfl
      ⟨by simp, by simp [CaptureStage.carries, CaptureStage.job],
        by simp [CaptureStage.standing, Standing.holds]⟩ (by simp) rfl
  | reserve hc hsg =>
    exact h.reserve hfil hwr (hunu _ hc hsg) rfl rfl rfl rfl rfl rfl
  | stored hc | rollback hc | abandon hc | cancelReservation hc =>
    exact h.of_capture hfil hwr (hfew rfl) rfl
      (keeps_plain hc (by simp) rfl (by simp [CaptureStage.standing, Standing.holds])) (by simp) rfl
  | enforce hc hsg | allocate hc hsg | allocateFail hc hsg | writeRegion hc hsg
  | discard hc hsg =>
    exact h.of_capture hfil hwr (hfew rfl) rfl
      (keeps_plain hc (by simp) rfl (by rw [hsg]; exact fun _ => rfl)) (by simp) rfl
  | @sweepCapture _ _ _ exh _ _ _ hc hsg =>
    refine h.of_capture hfil hwr (hfew rfl) rfl (keeps_plain hc (by simp) rfl ?_) (by simp) rfl
    rw [hsg]
    cases exh <;> exact fun _ => rfl
  | @sweptCapture _ _ _ exh hc hsg =>
    refine h.of_capture hfil hwr (hfew rfl) rfl (keeps_plain hc ?_ ?_ ?_) ?_ rfl
    · cases exh <;> simp
    · cases exh <;> rfl
    · rw [hsg]
      cases exh <;> exact fun _ => rfl
    · cases exh <;> simp
  | receive hc hsg =>
    refine h.of_capture hfil hwr (hfew rfl) rfl (keeps_job hc (by rw [hsg]; rfl) rfl
      (by rw [hsg]; rfl) (by simp) (by simp)) ?_ rfl
    rintro job st ⟨⟩ hin
    cases hin
  | @readBack n c job sg io hc hsg sg' hread =>
    have hplc : Placed s n job := ⟨c, _, hc, hsg, rfl⟩
    have hjob : (job.header, job.bytes) ∈ s.captured :=
      h.carried _ _ (.inr ⟨n, c, job, hc, rfl, by rw [hsg]; rfl, .inl rfl⟩)
    refine h.of_capture hfil hwr (hfew rfl) rfl (keeps_job hc (by rw [hsg]; rfl) rfl
      (by rw [hsg]; rfl) (by simp) ?_) (fun _ _ heq _ => by cases heq; exact hplc) rfl
    intro blob heq
    have heq : sg' = .publishing (some blob) := (CaptureStage.committing.inj heq).2
    rcases hread with (rfl | ⟨next, rfl, -⟩) | ⟨found, rfl, hdone⟩
    · cases heq
    · cases heq
    · obtain rfl : found = blob := by simpa using heq
      refine .inr (h.read_done (fun file hfile => ?_) hdone)
      rwa [h.bytes n job file hplc hfile]
  | close =>
    refine h.of_less hfil hwr (fun _ => id) (fun _ _ => .inl) (hfew rfl).records ?_
      (.of_eq rfl) (hfew rfl).tier (fun _ _ _ _ => id) ?_
    · intro m d hd
      exact keeps_of_lookup (Table.lookup_of_erase hd)
    · rintro m job file ⟨d, st, hd, hst⟩ hfile
      exact h.bytes m job file ⟨d, st, Table.lookup_of_erase hd, hst⟩ hfile
  | @hit _ _ _ _ rcd _ hfd =>
    obtain ⟨hmem, -⟩ := IndexState.longestPrefix_eq_some hfd
    exact h.of_readers hfil hwr (hfew rfl) rfl
      (.of_insert rfl ⟨.inl ⟨rcd, hmem, rfl, rfl⟩, by simp [RecordReader.carries]⟩)
  | touch | releaseResident | reclaim | sweep | swept =>
    exact h.of_readers hfil hwr (hfew rfl) rfl (.of_eq rfl)
  | load hr _ _ sg hnx =>
    refine h.of_readers hfil hwr (hfew rfl) rfl (.of_stage hr rfl rfl fun blob hcar => .inl ?_)
    rcases hcar with hblob | hset
    · exact .inl hblob
    · rcases hnx with rfl | rfl <;> cases hset
  | @electHit r rd blob tier hr _ hele =>
    refine h.of_readers hfil hwr (hfew rfl) rfl (.of_stage hr rfl rfl fun b hcar => .inr ?_)
    obtain rfl : blob = b := by simpa [RecordReader.carries] using hcar
    exact h.cached _ _ _ (.inr ⟨r, rd, hr, rfl, rfl⟩) (.inl (elect_resident hele).1)
  | elected hr | evict hr | sweepReader hr | sweptReader hr =>
    refine h.of_readers hfil hwr (hfew rfl) rfl (.of_stage hr rfl rfl fun b hcar => ?_)
    exact .inl (.inl (by simpa [RecordReader.carries] using hcar))
  | @readStep r rd elected sg io hr =>
    obtain ⟨new, heq, hpin, -, hcar⟩ := exists_advanceLoad s r rd elected
      (readStage crc rd.header sg (s.files.lookup rd.path) io)
    rw [heq] at hfil hwr hfew ⊢
    refine h.of_readers hfil hwr (hfew rfl) rfl (.of_stage hr rfl hpin fun b hb => ?_)
    refine (hcar b hb).imp .inl fun hdone => h.read_done (fun file hfile => ?_) hdone
    exact h.files _ _ file (.inr ⟨r, rd, hr, rfl, rfl⟩) hfile
  | dropReader =>
    refine h.of_readers hfil hwr (hfew rfl) rfl fun m d hd => ?_
    exact reader_keeps (Table.lookup_of_erase hd)
  | commit hc hsg hjob =>
    exact h.of_prepare hfil hwr hc hsg hjob rfl (.inr rfl) (by simp)
      (fun _ _ heq => by cases heq; rfl) rfl rfl rfl rfl rfl
  | enqueue hc hsg hjob =>
    exact h.of_prepare hfil hwr hc hsg hjob rfl (.inr rfl) (by simp) (by simp) rfl rfl rfl
      rfl rfl
  | bounce hc hsg hjob =>
    exact h.of_prepare hfil hwr hc hsg hjob rfl (.inl rfl) (by simp) (by simp) rfl rfl rfl
      rfl rfl
  | unprepared hc hsg | persistFail hc hsg =>
    exact h.of_capture hfil hwr (.of_records hrcs rfl (.of_eq rfl) rfl) rfl
      (keeps_plain hc (by simp) rfl (by rw [hsg]; exact fun _ => rfl)) (by simp) rfl
  | @persist _ _ job hc hsg =>
    refine h.persist hfil hwr hc hsg rfl (keeps_job hc (by rw [hsg]; rfl) rfl
      (by rw [hsg]; rfl) (by simp) ?_) (fun _ _ heq => by cases heq; rfl) rfl rfl rfl rfl rfl
    intro blob heq
    have hblob := afterPersist_publishing (CaptureStage.committing.inj heq).2
    exact .inl (.inr ⟨_, _, job, hc, rfl, by rw [hsg]; rfl, .inl hblob⟩)
  | persistUnsynced hc hsg =>
    exact h.persist hfil hwr hc hsg rfl
      (keeps_plain hc (by simp) rfl (by rw [hsg]; exact fun _ => rfl)) (by simp) rfl rfl rfl rfl
      rfl
  | @publish _ _ _ _ _ idx prior hc hsg hpub =>
    refine h.publish hfil hwr hc hsg (by rw [hpub]; rfl) rfl rfl ?_ rfl rfl
    cases prior with
    | none => exact .of_eq rfl
    | some prior => exact .of_invalidate rfl
  | @promote n c path blob hc hsg =>
    refine h.of_capture hfil hwr ⟨hrcs, rfl, fun other b hb => .inl ?_, fun _ _ => id⟩ rfl
      (keeps_plain hc (by simp) rfl (by simp [CaptureStage.standing, Standing.holds])) (by simp) rfl
    rcases lookup_promote hb with ⟨rfl, rfl⟩ | hold
    · exact .inr ⟨n, c, hc, hsg⟩
    · exact .inl hold
  | @settle r rd blob hr hsg =>
    have hmem : (rd.header, blob) ∈ s.captured :=
      h.carried _ _ (.inl ⟨r, rd, hr, rfl, .inr hsg⟩)
    refine h.of_readers hfil hwr ⟨hrcs, rfl, fun path b hb => ?_, fun _ _ => id⟩ rfl
      (.of_stage hr rfl rfl fun b hcar => .inr ?_)
    · rcases lookup_settle hb with ⟨rfl, heq⟩ | hold
      · cases heq
        exact .inr ⟨rd.header, .inr ⟨r, rd, hr, rfl, rfl⟩, hmem⟩
      · exact .inl (.inl hold)
    · obtain rfl : blob = b := by simpa [RecordReader.carries] using hcar
      exact hmem
  | settleFail hr =>
    refine h.of_readers hfil hwr ⟨hrcs, rfl, fun path b hb => ?_, fun _ _ => id⟩ rfl
      (.of_stage hr rfl rfl fun b hcar => .inl (.inl ?_))
    · rcases lookup_settle hb with ⟨-, heq⟩ | hold
      · cases heq
      · exact .inl (.inl hold)
    · simpa [RecordReader.carries] using hcar

end

end Coherent

end Steps

/-! ### Runs -/

/-- A store as `open` leaves it, with the images its files were found to be. -/
structure Loaded (crc32 : List UInt8 → UInt32) (s : Sys) : Prop extends Stocked s where
  resident : s.tier.entries = ∅
  images : ∀ header blob, (header, blob) ∈ s.captured → Image crc32 header blob
  contents : ∀ record ∈ s.index.records, ∀ file, s.files.lookup record.path = some file →
    (record.header, file.bytes) ∈ s.captured

/-- A commit of a writer's buffer under the header that `prepare` made. -/
def CommitsBuffer (crc32 : List UInt8 → UInt32) (s : Sys) (label : Label) (header : RecordHeader)
    (buffer : Blob) : Prop :=
  ∃ n c promote job, s.captures.lookup n = some c ∧ c.stage = .writing buffer ∧
    (label = .commit n ∨ label = .commitAsync n promote) ∧
    prepare crc32 c.header buffer promote = some job ∧ job.header = header

section Runs

variable {s₀ : Sys} {tr : List (Sys × Label × Output)}

theorem Loaded.coherent (h : Loaded crc s) : Coherent crc s := by
  have hcap : ∀ n, s.captures.lookup n = none := by simp [h.captures]
  have hrds : ∀ r, s.readers.lookup r = none := by simp [h.readers]
  have hcms : ∀ path hdr, Claims s path hdr →
      ∃ rcd ∈ s.index.records, rcd.path = path ∧ rcd.header = hdr := by
    rintro path hdr (hrec | ⟨r, rd, hr, -⟩)
    · exact hrec
    · simp [hrds] at hr
  have hcac : ∀ path blob, ¬Cached s path blob := by
    rintro path blob (hen | ⟨n, c, hc, -⟩)
    · simp [h.resident] at hen
    · simp [hcap] at hc
  refine ⟨h.filed, by simp [Writing, hcap], h.images, ?_, ?_, ?_, ?_, ?_, ?_⟩
  · rintro hdr blob (⟨r, rd, hr, -⟩ | ⟨n, c, job, hc, -⟩)
    · simp [hrds] at hr
    · simp [hcap] at hc
  · intro path a b ha hb
    obtain ⟨ra, hra, rfl, rfl⟩ := hcms path a ha
    obtain ⟨rb, hrb, hpath, rfl⟩ := hcms _ b hb
    rw [h.paths rb hrb ra hra hpath]
  · exact fun path hdr blob _ hin => absurd hin (hcac path blob)
  · intro path hdr file hclm hfile
    obtain ⟨rcd, hmem, rfl, rfl⟩ := hcms path hdr hclm
    exact h.contents rcd hmem file hfile
  · rintro n job file ⟨c, sg, hc, -⟩
    simp [hcap] at hc
  · rintro n hash ⟨c, hc, -⟩
    simp [hcap] at hc

/-- The log grows by the buffers that are committed. -/
theorem Moves.captured (h : Moves crc cfg s lab t o) :
    (∀ x ∈ s.captured, x ∈ t.captured) ∧ ∀ x ∈ t.captured, x ∈ s.captured ∨
      ∃ n c promote buffer job, s.captures.lookup n = some c ∧ c.stage = .writing buffer ∧
        (lab = .commit n ∨ lab = .commitAsync n promote) ∧
        prepare crc c.header buffer promote = some job ∧ x = (job.header, job.bytes) := by
  cases h with
  | commit hc hsg hjob =>
    refine ⟨fun x => List.mem_cons_of_mem _, fun x hx => ?_⟩
    rcases List.mem_cons.mp hx with rfl | hx
    · exact .inr ⟨_, _, true, _, _, hc, hsg, .inl rfl, hjob, rfl⟩
    · exact .inl hx
  | enqueue hc hsg hjob | bounce hc hsg hjob =>
    refine ⟨fun x => List.mem_cons_of_mem _, fun x hx => ?_⟩
    rcases List.mem_cons.mp hx with rfl | hx
    · exact .inr ⟨_, _, _, _, _, hc, hsg, .inr rfl, hjob, rfl⟩
    · exact .inl hx
  | readStep =>
    obtain ⟨new, heq, -⟩ := exists_advanceLoad s _ _ _ _
    rw [heq]
    exact ⟨fun x => id, fun x => .inl⟩
  | _ => exact ⟨fun x => id, fun x => .inl⟩

/-- RUN: whatever is in the log was there at the start or is a buffer committed on the way. -/
theorem captured_of_run (hrun : Run (step crc cfg) s₀ tr s) :
    (∀ e ∈ tr, ∀ x ∈ e.1.captured, x ∈ s.captured) ∧ ∀ x ∈ s.captured, x ∈ s₀.captured ∨
      ∃ e ∈ tr, ∃ n c promote buffer job, e.1.captures.lookup n = some c ∧
        c.stage = .writing buffer ∧ (e.2.1 = .commit n ∨ e.2.1 = .commitAsync n promote) ∧
        prepare crc c.header buffer promote = some job ∧ x = (job.header, job.bytes) := by
  induction hrun with
  | nil => exact ⟨by simp, fun x => .inl⟩
  | @snoc tr m t lab o _ hst ih =>
    obtain ⟨hgrow, hfrom⟩ := (step_moves hst).captured
    refine ⟨fun e he x hx => hgrow x ?_, fun x hx => ?_⟩
    · rcases mem_snoc.mp he with he | rfl
      · exact ih.1 e he x hx
      · exact hx
    · rcases hfrom x hx with hold | hnew
      · exact (ih.2 x hold).imp_right fun ⟨e, he, hcmt⟩ =>
          ⟨e, List.mem_append_left _ he, hcmt⟩
      · exact .inr ⟨(m, lab, o), by simp, hnew⟩

/-- What a region read puts out is what its reader gives. -/
theorem Moves.region_of_read (h : Moves crc cfg s lab t o) (hlb : lab = .readRegion r idx length)
    (hr : s.readers.lookup r = some rd) : rd.region idx length = some o := by
  subst hlb
  cases h with
  | readRegion hr' hrgn =>
    rw [hr] at hr'
    cases hr'
    exact hrgn
  | unprepared _ _ h => rcases h with h | ⟨_, h⟩ <;> cases h

/-- A region of a coherent reader is inside its blob, and of a captured record. -/
theorem Coherent.region (h : Coherent crc s)
    (hr : s.readers.lookup r = some rd) (hrgn : rd.region idx length = some o) :
    o ≠ .panicked ∧ ∀ bs, o = .region bs → ∃ blob range,
      (rd.header, blob) ∈ s.captured ∧ rd.header.regionRange idx = some range ∧
        range.stop ≤ blob.length ∧ bs = slice blob range := by
  unfold RecordReader.region at hrgn
  split at hrgn
  · rename_i region range _ hrg
    split_ifs at hrgn
    · cases hrgn
      simp
    · cases hblob : rd.blob with
      | none => simp [hblob] at hrgn
      | some blob =>
        have hmem := h.carried _ _ (.inl ⟨r, rd, hr, rfl, .inl hblob⟩)
        have himg := h.images _ _ hmem
        have hstop := himg.region_fits hrg
        have hstr := (himg.canonical.region_fits hrg).1
        simp only [hblob, hstr, hstop, and_self, if_true, Option.some.injEq] at hrgn
        subst hrgn
        refine ⟨by simp, ?_⟩
        rintro bs ⟨⟩
        exact ⟨blob, range, hmem, hrg, hstop, rfl⟩
  · cases hrgn
    simp

/-- COHERENT: as long as captures reserve only unused paths, a region read never leaves the blob, and
    what it returns is that region of a buffer committed with the reader's header (or of a file the
    store was opened on). -/
theorem reads_captured (hrun : Run (step crc cfg) s₀ tr s) (h0 : Loaded crc s₀)
    (hunused : ∀ e ∈ tr, ReservesUnused e.1 e.2.1) :
    ∀ e ∈ tr, ∀ r index length reader, e.2.1 = .readRegion r index length →
      e.1.readers.lookup r = some reader → e.2.2 ≠ .panicked ∧
        ∀ bytes, e.2.2 = .region bytes → ∃ range, reader.header.regionRange index = some range ∧
          ((∃ blob, (reader.header, blob) ∈ s₀.captured ∧ bytes = slice blob range) ∨
            ∃ e' ∈ tr, ∃ buffer, CommitsBuffer crc e'.1 e'.2.1 reader.header buffer ∧
              bytes = slice buffer range) := by
  have hkeep : ∀ s lab t o, Coherent crc s → ReservesUnused s lab →
      step crc cfg s lab = some (t, o) → Coherent crc t :=
    fun _ _ _ _ h hok hst => h.moves hok (step_moves hst)
  have hall := hrun.step_of ReservesUnused (Coherent crc) h0.coherent hunused hkeep
  intro e he r index length reader hlb hr
  obtain ⟨hcoh, t, hst⟩ := hall e he
  have hrgn := (step_moves hst).region_of_read hlb hr
  obtain ⟨hsafe, hbs⟩ := hcoh.region hr hrgn
  refine ⟨hsafe, fun bytes hout => ?_⟩
  obtain ⟨blob, range, hmem, hrg, -, rfl⟩ := hbs bytes hout
  refine ⟨range, hrg, ?_⟩
  obtain ⟨hmono, hsou⟩ := captured_of_run hrun
  rcases hsou _ (hmono e he _ hmem) with hold | ⟨e', he', n, c, promote, buffer, job, hc, hsg,
    hcmt, hjob, heq⟩
  · exact .inl ⟨blob, hold, rfl⟩
  · obtain ⟨hhdr, rfl⟩ := Prod.mk.inj heq
    obtain ⟨hcan, -, hwrt⟩ := (hall e' he').1.writing n c hc
    have hpre := (prepare_spec hcan (hwrt buffer hsg).length_eq hjob).1
    refine .inr ⟨e', he', buffer, ⟨n, c, promote, job, hc, hsg, hcmt, hjob, hhdr.symm⟩, ?_⟩
    rw [hhdr, hpre.regionRange_eq] at hrg
    exact hpre.region_eq hcan hrg

end Runs

/-! ### Resident records -/

theorem loaded_empty (crc : List UInt8 → UInt32) : Loaded crc {} :=
  ⟨stocked_empty, rfl, by simp, by simp⟩

/-- A reservation in a store that holds nothing else, in memory or on disk. -/
def reservesFresh (s : Sys) : Label → Bool
  | .reserve n => reservesAlone s (.reserve n) ∧ s.tier.entries.keys = ∅
  | _ => true

theorem reservesUnused_of_fresh (h : reservesFresh s lab = true) : ReservesUnused s lab := by
  cases lab with
  | reserve n =>
    obtain ⟨haln, hens⟩ := of_decide_eq_true h
    obtain ⟨hrcs, hcap, hrds, -⟩ := of_decide_eq_true haln
    intro c hc hsg
    refine ⟨reservesClear_of_alone haln c hc hsg, ?_, ?_⟩
    · rintro hdr (⟨rcd, hmem, -⟩ | ⟨r, rd, hr, -⟩)
      · simp [hrcs] at hmem
      · have hm : r ∈ s.readers.keys := Finmap.mem_keys.mpr (Finmap.mem_of_lookup_eq_some hr)
        simp [hrds] at hm
    · rintro blob (hen | ⟨m, d, hd, hblob⟩)
      · have hm := Finmap.mem_keys.mpr (Finmap.mem_of_lookup_eq_some hen)
        simp [hens] at hm
      · have hm : m ∈ s.captures.keys := Finmap.mem_keys.mpr (Finmap.mem_of_lookup_eq_some hd)
        rw [hcap, Finset.mem_singleton] at hm
        subst hm
        rw [hc] at hd
        cases hd
        simp [hsg] at hblob
  | _ => trivial

def residentStore : StoreConfig := ⟨100000, 0, 1, 100000, by decide⟩

/-- A checksum that tells records with different first bytes apart. -/
def firstByte (bytes : List UInt8) : UInt32 := (bytes.headD 0).toUInt32

/-- A capture with its region written, up to its writer's last call. -/
def captureBytes (n : ℕ) (data : List UInt8) : List Label :=
  [.beginCapture zeroFingerprint [1] (oneRegion data.length)] ++ grant n ++ [.writeRegion n 0 data]

/-- A record is captured, kept in memory and read from there. -/
theorem reads_captured_resident : ∃ tr s, Run (step firstByte residentStore) {} tr s ∧
    ∃ e ∈ tr, e.2.1 = .readRegion 1 0 5 ∧ e.2.2 = .region [1, 2, 3, 4, 5] ∧
      ∃ e' ∈ tr, ∃ header buffer range, CommitsBuffer firstByte e'.1 e'.2.1 header buffer ∧
        slice buffer range = [1, 2, 3, 4, 5] := by
  obtain ⟨tr, s, hrun, ⟨e, he, hlb, hout, hrdr⟩, hfrh⟩ := Run.exists_of_exec
    (step firstByte residentStore) {}
    (captureBytes 0 [1, 2, 3, 4, 5] ++ [.commit 0, .persist 0 .renamed, .publish 0 7, .promote 0,
      .close 0, .lookup zeroFingerprint [1, 2] 1 8, .load 1, .elect 1, .readRegion 1 0 5])
    (fun tr _ => (∃ e ∈ tr, e.2.1 = .readRegion 1 0 5 ∧ e.2.2 = .region [1, 2, 3, 4, 5] ∧
      (e.1.readers.lookup 1).isSome) ∧ ∀ e ∈ tr, reservesFresh e.1 e.2.1) (by decide +kernel)
  obtain ⟨rd, hr⟩ := Option.isSome_iff_exists.mp hrdr
  refine ⟨tr, s, hrun, e, he, hlb, hout, ?_⟩
  obtain ⟨range, -, ⟨_, hold, -⟩ | ⟨e', he', buffer, hcts, hbs⟩⟩ :=
    (reads_captured hrun (loaded_empty _) (fun e he => reservesUnused_of_fresh (hfrh e he))
      e he 1 0 5 rd hlb hr).2 _ hout
  · cases hold
  · exact ⟨e', he', rd.header, buffer, range, hcts, hbs.symm⟩

/-- The labels of a record that expires while its bytes are resident, of a second capture of its key
    that is not promoted, and of a read of the second record. -/
def expiredThenRead (first second : List UInt8) : List Label :=
  captureBytes 0 first ++ [.commit 0, .persist 0 .renamed, .publish 0 7, .promote 0, .close 0,
    .reclaim 100] ++ captureBytes 2 second ++ [.commitAsync 2 false, .receive,
    .persist 2 .renamed, .publish 2 101, .close 2, .lookup zeroFingerprint [1, 2] 1 102, .load 3,
    .elect 3, .readRegion 3 0 second.length]

/-- A read of a record gets the resident bytes of the expired one before it: another content, which
    not even the checksum in the reader's header fits, or a range outside the blob. -/
theorem reads_expired : (∃ tr s, Run (step firstByte residentStore) {} tr s ∧ ∃ e ∈ tr, ∃ reader,
      e.1.readers.lookup 3 = some reader ∧ e.2.1 = .readRegion 3 0 5 ∧
      reader.header.regionCrc32 = [firstByte [9, 9, 9, 9, 9]] ∧
      e.2.2 = .region [1, 2, 3, 4, 5]) ∧
    ∃ tr s, Run (step firstByte residentStore) {} tr s ∧ ∃ e ∈ tr,
      e.2.1 = .readRegion 3 0 5000 ∧ e.2.2 = .panicked := by
  refine ⟨?_, ?_⟩
  · obtain ⟨tr, s, hrun, e, he, hrdr, hlb, hout⟩ := Run.exists_of_exec
      (step firstByte residentStore) {} (expiredThenRead [1, 2, 3, 4, 5] [9, 9, 9, 9, 9])
      (fun tr _ => ∃ e ∈ tr, (e.1.readers.lookup 3).map (·.header.regionCrc32) =
        some [firstByte [9, 9, 9, 9, 9]] ∧ e.2.1 = .readRegion 3 0 5 ∧
        e.2.2 = .region [1, 2, 3, 4, 5]) (by decide +kernel)
    obtain ⟨reader, hr, hcrc⟩ := Option.map_eq_some_iff.mp hrdr
    exact ⟨tr, s, hrun, e, he, reader, hr, hlb, hcrc, hout⟩
  · exact Run.exists_of_exec (step firstByte residentStore) {}
      (expiredThenRead [1, 2, 3, 4, 5] (List.replicate 5000 9))
      (fun tr _ => ∃ e ∈ tr, e.2.1 = .readRegion 3 0 5000 ∧ e.2.2 = .panicked) (by decide +kernel)

end LetsInfer.PrefixStore
