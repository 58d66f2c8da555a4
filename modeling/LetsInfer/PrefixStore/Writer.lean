import LetsInfer.PrefixStore.System

/-! @src cache/letsinfer_prefix_store/src/store.rs | name:What a writer commits | scheme:buffer

    A writer's buffer has the size of its record and keeps its token section while regions are
    written. Preparing it puts the header page, with the checksums of what is in the buffer, before
    everything else: the result is an image of its header whose sections are those of the buffer. -/

namespace LetsInfer.PrefixStore
open Schemes List

variable {bs : Blob} {data : List UInt8} {range : ByteRange} {hdr : RecordHeader} {idx : ℕ}

section Overwrite

variable {off : ℕ}

theorem length_overwrite (h : off + data.length ≤ bs.length) :
    (overwrite bs off data).length = bs.length := by
  simp only [overwrite, length_append, length_take, length_drop]
  omega

theorem getElem?_overwrite (h : off + data.length ≤ bs.length) (i : ℕ) :
    (overwrite bs off data)[i]? =
      if off ≤ i ∧ i < off + data.length then data[i - off]? else bs[i]? := by
  have htake : (bs.take off).length = off := by
    rw [length_take]
    omega
  rw [overwrite, append_assoc]
  split_ifs with hi
  · rw [getElem?_append_right (by omega), htake, getElem?_append_left (by omega)]
  · by_cases hlt : i < off
    · rw [getElem?_append_left (by omega), getElem?_take_of_lt hlt]
    · rw [getElem?_append_right (by omega), htake, getElem?_append_right (by omega), getElem?_drop]
      congr 1
      omega

theorem getElem?_slice (bs : Blob) (range : ByteRange) (i : ℕ) : (slice bs range)[i]? =
      if i < range.stop - range.start then bs[range.start + i]? else none := by
  rw [slice, getElem?_take, getElem?_drop]

theorem slice_overwrite_self (h : off + data.length ≤ bs.length) :
    slice (overwrite bs off data) ⟨off, off + data.length⟩ = data := by
  refine ext_getElem? fun i => ?_
  rw [getElem?_slice, getElem?_overwrite h]
  simp only [Nat.add_sub_cancel_left]
  split_ifs with hi hin
  · rfl
  · omega
  · rw [getElem?_eq_none (by omega)]

theorem slice_overwrite_apart (h : off + data.length ≤ bs.length)
    (hapa : range.stop ≤ off ∨ off + data.length ≤ range.start) :
    slice (overwrite bs off data) range = slice bs range := by
  refine ext_getElem? fun i => ?_
  rw [getElem?_slice, getElem?_slice, getElem?_overwrite h]
  split_ifs with hi hin
  · omega
  · rfl
  · rfl

end Overwrite

/-! ### The sections of a record -/

section Sections

section

variable (h : Canonical hdr)
include h

theorem Canonical.tokens_before
    (hrg : hdr.regionRange idx = some range) : hdr.tokensRange.stop ≤ range.start := by
  obtain ⟨cursor, hcur, hoff⟩ := h.offsets
  obtain ⟨-, hfrom, -⟩ := regionOffsetsFrom_ok hoff
  unfold RecordHeader.regionRange at hrg
  split at hrg
  · rename_i off region hofs hrgn
    cases hrg
    have hle := hfrom off (mem_of_getElem? hofs)
    have hcur' := (alignUp_ok hcur).1
    rw [RecordHeader.tokensRange, h.tokensOffset]
    exact hcur'.trans hle
  · cases hrg

theorem Canonical.exists_region : ∃ range, hdr.regionRange 0 = some range := by
  have hpos : 0 < hdr.regions.length := length_pos_iff.mpr h.regions_ne
  have hoff : 0 < hdr.regionOffsets.length := h.offsets_length ▸ hpos
  rw [RecordHeader.regionRange, getElem?_eq_getElem hoff, getElem?_eq_getElem hpos]
  exact ⟨_, rfl⟩

theorem Canonical.tokens_fits :
    hdr.tokensRange.start = headerBytes ∧ hdr.tokensRange.stop ≤ hdr.fileBytes := by
  obtain ⟨range, hrg⟩ := h.exists_region
  have hbef := h.tokens_before hrg
  have hfits := h.region_fits hrg
  exact ⟨h.tokensOffset, by omega⟩

theorem Canonical.headerBytes_le : headerBytes ≤ hdr.fileBytes := by
  have hfits := h.tokens_fits
  simp only [RecordHeader.tokensRange] at hfits
  omega

end

end Sections

/-! ### The buffer -/

def tokenBytes (tokens : List UInt32) : List UInt8 :=
  tokens.flatMap fun token => leBytes 4 token.toNat

theorem length_tokenBytes (ts : List UInt32) : (tokenBytes ts).length = ts.length * 4 := by
  induction ts with
  | nil => rfl
  | cons token ts ih =>
    rw [tokenBytes, flatMap_cons, length_append, length_leBytes, ← tokenBytes, ih, length_cons]
    omega

theorem tokensOfBytes_tokenBytes (ts : List UInt32) : tokensOfBytes (tokenBytes ts) = ts := by
  induction ts with
  | nil => rfl
  | cons token ts ih =>
    have hword : leValue (leBytes 4 token.toNat) = token.toNat :=
      (leValue_leBytes 4 _).trans (Nat.mod_eq_of_lt token.toNat_lt)
    obtain ⟨a, b, c, d, hbs⟩ : ∃ a b c d, leBytes 4 token.toNat = [a, b, c, d] :=
      ⟨_, _, _, _, rfl⟩
    rw [tokenBytes, flatMap_cons, ← tokenBytes, hbs]
    rw [hbs] at hword
    simp only [cons_append, nil_append, tokensOfBytes, hword, ih, UInt32.ofNat_toNat]

/-- A writer's buffer: a planned record's size, with its tokens in place. -/
structure Written (header : RecordHeader) (tokens : List UInt32) (bytes : Blob) : Prop where
  canonical : Canonical header
  count : header.tokenCount = tokens.length
  length_eq : bytes.length = header.fileBytes
  tokens_eq : slice bytes header.tokensRange = tokenBytes tokens

section Buffers

variable {crc : List UInt8 → UInt32} {ts : List UInt32} {promote : Bool}
  {job : PreparedCommit}

theorem captureBuffer_written (h : Canonical hdr) (hcnt : hdr.tokenCount = ts.length) :
    Written hdr ts (captureBuffer hdr ts) := by
  have hfits := h.tokens_fits
  have hlen := length_tokenBytes ts
  have hroom : hdr.tokensOffset + (tokenBytes ts).length ≤
      (replicate hdr.fileBytes (0 : UInt8)).length := by
    rw [length_replicate, hlen, ← hcnt]
    exact hfits.2
  refine ⟨h, hcnt, ?_, ?_⟩
  · rw [captureBuffer, ← tokenBytes, length_overwrite hroom, length_replicate]
  · have hrg : hdr.tokensRange = ⟨hdr.tokensOffset, hdr.tokensOffset + (tokenBytes ts).length⟩ := by
      rw [RecordHeader.tokensRange, hlen, hcnt]
    rw [hrg, captureBuffer, ← tokenBytes, slice_overwrite_self hroom]

theorem Written.writeRegion (h : Written hdr ts bs) (hrg : hdr.regionRange idx = some range)
    (hlen : data.length = range.stop - range.start) :
    Written hdr ts (overwrite bs range.start data) := by
  have hfits := h.canonical.region_fits hrg
  have hroom : range.start + data.length ≤ bs.length := by
    rw [h.length_eq]
    omega
  refine ⟨h.canonical, h.count, ?_, ?_⟩
  · rw [length_overwrite hroom, h.length_eq]
  · rw [slice_overwrite_apart hroom (.inl (h.canonical.tokens_before hrg)), h.tokens_eq]

/-- What `prepare` makes of a buffer. -/
structure Prepared (crc32 : List UInt8 → UInt32) (header : RecordHeader) (bytes : Blob)
    (job : PreparedCommit) : Prop where
  header_eq : job.header = { header with
    tokensCrc32 := crc32 (slice bytes header.tokensRange), regionCrc32 := job.header.regionCrc32 }
  checksums : regionChecksums crc32 header bytes = some job.header.regionCrc32
  image : Image crc32 job.header job.bytes
  /-- Everything after the header page is as it was in the buffer. -/
  sections : ∀ range : ByteRange, headerBytes ≤ range.start →
    slice job.bytes range = slice bytes range

theorem prepare_spec (hcan : Canonical hdr) (hlen : bs.length = hdr.fileBytes)
    (h : prepare crc hdr bs promote = some job) :
    Prepared crc hdr bs job ∧ job.promoteResident = promote := by
  rw [prepare] at h
  split at h
  · cases h
  · rename_i checksums hche
    dsimp only at h
    split at h
    · cases h
    · rename_i page hpage
      cases h
      have hcan' : Canonical { hdr with
          tokensCrc32 := crc (slice bs hdr.tokensRange), regionCrc32 := checksums } :=
        { hcan with }
      have hsize := length_encode hcan' hpage
      have hroom : 0 + page.length ≤ bs.length := by
        rw [hsize, hlen, Nat.zero_add]
        exact hcan.headerBytes_le
      refine ⟨⟨rfl, hche, ⟨hcan', ?_, ?_⟩, ?_⟩, rfl⟩
      · exact (length_overwrite hroom).trans hlen
      · rw [hpage]
        simp [overwrite, ← hsize]
      · intro range hstr
        exact slice_overwrite_apart hroom (.inr (by omega))

section

variable (h : Prepared crc hdr bs job)
include h

theorem Prepared.regionRange_eq (idx : ℕ) : job.header.regionRange idx = hdr.regionRange idx := by
  rw [h.header_eq]
  rfl

theorem Prepared.tokensRange_eq : job.header.tokensRange = hdr.tokensRange := by
  rw [h.header_eq]
  rfl

section

variable (hcan : Canonical hdr)
include hcan

theorem Prepared.region_eq
    (hrg : hdr.regionRange idx = some range) : slice job.bytes range = slice bs range := by
  refine h.sections range ?_
  have hbef := hcan.tokens_before hrg
  have htok := hcan.tokens_fits
  simp only [RecordHeader.tokensRange] at hbef htok
  omega

theorem Prepared.tokens_eq : slice job.bytes job.header.tokensRange = slice bs hdr.tokensRange := by
  rw [h.tokensRange_eq]
  exact h.sections _ hcan.tokens_fits.1.ge

theorem Prepared.regionChecksums_eq :
    regionChecksums crc job.header job.bytes = some job.header.regionCrc32 := by
  have hrgs : job.header.regions = hdr.regions := by rw [h.header_eq]
  rw [← h.checksums, regionChecksums, regionChecksums, hrgs]
  congr 1
  funext idx
  rw [h.regionRange_eq]
  cases hrg : hdr.regionRange idx with
  | none => rfl
  | some range => simp only [Option.map_some, h.region_eq hcan hrg]

theorem Prepared.tokensCrc32_eq :
    crc (slice job.bytes job.header.tokensRange) = job.header.tokensCrc32 := by
  rw [h.tokens_eq hcan, h.header_eq]

end

end

end Buffers

end LetsInfer.PrefixStore
