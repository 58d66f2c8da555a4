import LetsInfer.Schemes.Checks

/-! @src cache/letsinfer_prefix_store/src/format.rs | name:Record layout | scheme:format

    A record is a header page, the token section and page-aligned regions, at offsets that follow
    from the sizes alone. Sizes are natural numbers with the overflow checks of the source (a
    `usize` has 64 bits), and a region name is the list of its bytes. A header passes the layout
    check exactly if it is canonical, and a canonical header keeps its regions inside the file. -/

namespace LetsInfer.PrefixStore
open Schemes List

def pageBytes : ℕ := 4096

def headerBytes : ℕ := pageBytes

def maxRegions : ℕ := 96

def maxRegionNameBytes : ℕ := 12

abbrev usizeBound : ℕ := 2 ^ 64

/-- A compatibility fingerprint: 32 opaque bytes. -/
structure Fingerprint where
  bytes : List UInt8
  length_eq : bytes.length = 32
  deriving DecidableEq

structure RegionDescription where
  name : List UInt8
  byteCount : ℕ
  deriving DecidableEq

structure ByteRange where
  start : ℕ
  stop : ℕ
  deriving DecidableEq

structure RecordHeader where
  fingerprint : Fingerprint
  keyHash : UInt64
  tokenCount : ℕ
  regions : List RegionDescription
  tokensOffset : ℕ
  regionOffsets : List ℕ
  logicalBytes : ℕ
  fileBytes : ℕ
  tokensCrc32 : UInt32
  regionCrc32 : List UInt32
  deriving DecidableEq

/-! ### Layout -/

def checkedAdd (left right : ℕ) : Except String ℕ :=
  if left + right < usizeBound then .ok (left + right) else .error "prefix-record size overflow"

def checkedMul (left right : ℕ) : Except String ℕ :=
  if left * right < usizeBound then .ok (left * right) else .error "prefix-record size overflow"

def alignUp (value : ℕ) : Except String ℕ := do
  let withSlack ← checkedAdd value (pageBytes - 1)
  return withSlack / pageBytes * pageBytes

def isAsciiGraphic (byte : UInt8) : Bool := 33 ≤ byte ∧ byte ≤ 126

def validateRegionName (name : List UInt8) : Except String Unit :=
  if name = [] ∨ maxRegionNameBytes < name.length ∨ ¬name.all isAsciiGraphic then
    .error "invalid prefix-record region name"
  else .ok ()

def validateRegions : List RegionDescription → Except String Unit
  | [] => .ok ()
  | region :: regions => do
    validateRegionName region.name
    if region.byteCount = 0 then throw "prefix-record region is empty"
    validateRegions regions

def regionOffsetsFrom (cursor : ℕ) : List RegionDescription → Except String (List ℕ)
  | [] => .ok []
  | region :: regions => do
    let stop ← checkedAdd cursor region.byteCount
    let next ← alignUp stop
    let offsets ← regionOffsetsFrom next regions
    return cursor :: offsets

def RecordHeader.layout (fingerprint : Fingerprint) (keyHash : UInt64) (tokenCount : ℕ)
    (regions : List RegionDescription) : Except String RecordHeader := do
  if tokenCount = 0 then throw "prefix record needs a non-zero token count"
  if regions = [] ∨ maxRegions < regions.length then throw "invalid prefix-record region count"
  validateRegions regions
  let tokenBytes ← checkedMul tokenCount 4
  let tokensEnd ← checkedAdd headerBytes tokenBytes
  let cursor ← alignUp tokensEnd
  let regionOffsets ← regionOffsetsFrom cursor regions
  let lastOffset := regionOffsets.getLastD 0
  let lastBytes := (regions.getLast?.map (·.byteCount)).getD 0
  let logicalBytes ← checkedAdd lastOffset lastBytes
  let fileBytes ← alignUp logicalBytes
  return ⟨fingerprint, keyHash, tokenCount, regions, headerBytes, regionOffsets, logicalBytes,
    fileBytes, 0, []⟩

def RecordHeader.validateLayout (header : RecordHeader) : Except String Unit := do
  if header.tokenCount = 0 ∨ header.tokensOffset ≠ headerBytes ∨
      header.fileBytes < header.logicalBytes ∨ header.fileBytes % pageBytes ≠ 0 ∨
      header.regionOffsets.length ≠ header.regions.length ∨
      header.regionCrc32.length ≠ header.regions.length then
    throw "invalid prefix-record geometry"
  let expected ←
    RecordHeader.layout header.fingerprint header.keyHash header.tokenCount header.regions
  if header.regionOffsets ≠ expected.regionOffsets ∨
      header.logicalBytes ≠ expected.logicalBytes ∨ header.fileBytes ≠ expected.fileBytes then
    throw "non-canonical prefix-record layout"

def RecordHeader.tokensRange (header : RecordHeader) : ByteRange :=
  ⟨header.tokensOffset, header.tokensOffset + header.tokenCount * 4⟩

def RecordHeader.regionRange (header : RecordHeader) (index : ℕ) : Option ByteRange :=
  match header.regionOffsets[index]?, header.regions[index]? with
  | some offset, some region => some ⟨offset, offset + region.byteCount⟩
  | _, _ => none

/-! ### What a layout is -/

variable {rgs : List RegionDescription} {hdr : RecordHeader}

theorem checkedAdd_eq_ok {l r n : ℕ} : checkedAdd l r = .ok n ↔ n = l + r ∧ n < usizeBound := by
  unfold checkedAdd
  split_ifs with h <;> simp <;> omega

theorem checkedMul_eq_ok {l r n : ℕ} : checkedMul l r = .ok n ↔ n = l * r ∧ n < usizeBound := by
  unfold checkedMul
  split_ifs with h
  · simp only [Except.ok.injEq]
    exact ⟨fun heq => ⟨heq.symm, heq ▸ h⟩, fun heq => heq.1.symm⟩
  · refine iff_of_false (by simp) ?_
    rintro ⟨rfl, hlt⟩
    exact h hlt

theorem alignUp_ok {v n : ℕ} (h : alignUp v = .ok n) :
    v ≤ n ∧ n < usizeBound ∧ n % pageBytes = 0 := by
  obtain ⟨slack, hsla, hn⟩ := bind_ok_iff.mp h
  obtain ⟨rfl, hfits⟩ := checkedAdd_eq_ok.mp hsla
  cases hn
  simp only [pageBytes, usizeBound] at *
  omega

/-- Offsets start at the cursor, and a region ends before the next ones begin. -/
theorem regionOffsetsFrom_ok {cursor : ℕ} {offsets : List ℕ}
    (h : regionOffsetsFrom cursor rgs = .ok offsets) :
    offsets.length = rgs.length ∧ (∀ off ∈ offsets, cursor ≤ off) ∧
    ∀ (i j off next : ℕ) (region : RegionDescription), i < j → offsets[i]? = some off →
      rgs[i]? = some region → offsets[j]? = some next → off + region.byteCount ≤ next := by
  induction rgs generalizing cursor offsets with
  | nil =>
    cases h
    simp
  | cons region rgs ih =>
    obtain ⟨stop, hstop, h⟩ := bind_ok_iff.mp h
    obtain ⟨next, hnx, h⟩ := bind_ok_iff.mp h
    obtain ⟨rest, hrest, h⟩ := bind_ok_iff.mp h
    cases h
    obtain ⟨rfl, -⟩ := checkedAdd_eq_ok.mp hstop
    obtain ⟨hle, -, -⟩ := alignUp_ok hnx
    obtain ⟨hlen, hfrom, hapa⟩ := ih hrest
    refine ⟨by simp [hlen], ?_, ?_⟩
    · rintro off hofs
      rcases mem_cons.mp hofs with rfl | hmem
      · exact le_rfl
      · have := hfrom off hmem
        omega
    · rintro i (_ | j) off next' region' hlt hofs hrgn hnx'
      · omega
      · rw [getElem?_cons_succ] at hnx'
        cases i with
        | zero =>
          obtain rfl : cursor = off := by simpa using hofs
          obtain rfl : region = region' := by simpa using hrgn
          have := hfrom next' (mem_of_getElem? hnx')
          omega
        | succ i =>
          rw [getElem?_cons_succ] at hofs hrgn
          exact hapa i j off next' region' (by omega) hofs hrgn hnx'

/-- What the source's `layout` derives, for the sizes it accepts. -/
structure Canonical (header : RecordHeader) : Prop where
  tokens_pos : header.tokenCount ≠ 0
  regions_ne : header.regions ≠ []
  regions_le : header.regions.length ≤ maxRegions
  names : validateRegions header.regions = .ok ()
  tokensOffset : header.tokensOffset = headerBytes
  tokens_fit : headerBytes + header.tokenCount * 4 < usizeBound
  offsets : ∃ cursor, alignUp (headerBytes + header.tokenCount * 4) = .ok cursor ∧
    regionOffsetsFrom cursor header.regions = .ok header.regionOffsets
  logicalBytes : checkedAdd (header.regionOffsets.getLastD 0)
    ((header.regions.getLast?.map (·.byteCount)).getD 0) = .ok header.logicalBytes
  fileBytes : alignUp header.logicalBytes = .ok header.fileBytes

theorem layout_eq_ok {fp : Fingerprint} {keyHash : UInt64} {tokenCount : ℕ} :
    RecordHeader.layout fp keyHash tokenCount rgs = .ok hdr ↔
      Canonical hdr ∧ hdr.fingerprint = fp ∧ hdr.keyHash = keyHash ∧ hdr.tokenCount = tokenCount ∧
        hdr.regions = rgs ∧ hdr.tokensCrc32 = 0 ∧ hdr.regionCrc32 = [] := by
  constructor
  · intro h
    obtain ⟨htok, h⟩ := throw_if_ok_iff.mp h
    obtain ⟨hrgs, h⟩ := throw_if_ok_iff.mp h
    obtain ⟨⟨⟩, hnms, h⟩ := bind_ok_iff.mp h
    obtain ⟨tokenBytes, hbs, h⟩ := bind_ok_iff.mp h
    obtain ⟨tokensEnd, hend, h⟩ := bind_ok_iff.mp h
    obtain ⟨cursor, hcur, h⟩ := bind_ok_iff.mp h
    obtain ⟨offsets, hoff, h⟩ := bind_ok_iff.mp h
    obtain ⟨logicalBytes, hlgc, h⟩ := bind_ok_iff.mp h
    obtain ⟨fileBytes, hfile, h⟩ := bind_ok_iff.mp h
    cases h
    obtain ⟨rfl, -⟩ := checkedMul_eq_ok.mp hbs
    obtain ⟨rfl, hfits⟩ := checkedAdd_eq_ok.mp hend
    obtain ⟨hne, hle⟩ := not_or.mp hrgs
    exact ⟨⟨htok, hne, not_lt.mp hle, hnms, rfl, hfits, ⟨cursor, hcur, hoff⟩, hlgc,
      hfile⟩, rfl, rfl, rfl, rfl, rfl, rfl⟩
  · rintro ⟨h, rfl, rfl, rfl, rfl, hcrc, hcrcs⟩
    obtain ⟨cursor, hcur, hoff⟩ := h.offsets
    have hbs : checkedMul hdr.tokenCount 4 = .ok (hdr.tokenCount * 4) := by
      have := h.tokens_fit
      exact checkedMul_eq_ok.mpr ⟨rfl, by omega⟩
    have hend : checkedAdd headerBytes (hdr.tokenCount * 4) =
        .ok (headerBytes + hdr.tokenCount * 4) := checkedAdd_eq_ok.mpr ⟨rfl, h.tokens_fit⟩
    refine throw_if_ok_iff.mpr ⟨h.tokens_pos, throw_if_ok_iff.mpr ⟨?_, ?_⟩⟩
    · exact not_or.mpr ⟨h.regions_ne, not_lt.mpr h.regions_le⟩
    · simp only [h.names, hbs, hend, hcur, hoff, h.logicalBytes, h.fileBytes, bind,
        Except.bind, pure, Except.pure]
      rw [← h.tokensOffset, ← hcrc, ← hcrcs]

theorem Canonical.offsets_length (h : Canonical hdr) :
    hdr.regionOffsets.length = hdr.regions.length := by
  obtain ⟨cursor, -, hoff⟩ := h.offsets
  exact (regionOffsetsFrom_ok hoff).1

/-- A header passes the layout check exactly if it is canonical and has one checksum a region. -/
theorem validateLayout_eq_ok : hdr.validateLayout = .ok () ↔
    Canonical hdr ∧ hdr.regionCrc32.length = hdr.regions.length := by
  constructor
  · intro h
    obtain ⟨hsha, h⟩ := throw_if_ok_iff.mp h
    obtain ⟨exp, hexp, h⟩ := bind_ok_iff.mp h
    obtain ⟨hsame, -⟩ := throw_if_ok_iff.mp h
    obtain ⟨hcan, -, -, htok, hrgs, -, -⟩ := layout_eq_ok.mp hexp
    simp only [not_or, not_not] at hsha hsame
    obtain ⟨-, htkn, -, -, -, hcrcs⟩ := hsha
    obtain ⟨hoff, hlgc, hfile⟩ := hsame
    refine ⟨?_, hcrcs⟩
    exact
      { tokens_pos := htok ▸ hcan.tokens_pos
        regions_ne := hrgs ▸ hcan.regions_ne
        regions_le := hrgs ▸ hcan.regions_le
        names := hrgs ▸ hcan.names
        tokensOffset := htkn
        tokens_fit := htok ▸ hcan.tokens_fit
        offsets := by rw [hoff, ← htok, ← hrgs]; exact hcan.offsets
        logicalBytes := by rw [hoff, hlgc, ← hrgs]; exact hcan.logicalBytes
        fileBytes := by rw [hlgc, hfile]; exact hcan.fileBytes }
  · rintro ⟨h, hcrcs⟩
    obtain ⟨hle, -, hpage⟩ := alignUp_ok h.fileBytes
    have hlay : RecordHeader.layout hdr.fingerprint hdr.keyHash hdr.tokenCount
        hdr.regions = .ok { hdr with tokensCrc32 := 0, regionCrc32 := [] } :=
      layout_eq_ok.mpr ⟨{ h with }, rfl, rfl, rfl, rfl, rfl, rfl⟩
    refine throw_if_ok_iff.mpr ⟨?_, bind_ok_iff.mpr ⟨_, hlay, ?_⟩⟩
    · simp only [not_or, not_not, not_lt]
      exact ⟨h.tokens_pos, h.tokensOffset, hle, hpage, h.offsets_length, hcrcs⟩
    · exact throw_if_ok_iff.mpr ⟨by simp, rfl⟩

theorem Canonical.region_fits (h : Canonical hdr) {idx : ℕ} {range : ByteRange}
    (hrg : hdr.regionRange idx = some range) :
    range.start ≤ range.stop ∧ range.stop ≤ hdr.fileBytes := by
  obtain ⟨cursor, hcur, hoff⟩ := h.offsets
  obtain ⟨hlen, -, hapa⟩ := regionOffsetsFrom_ok hoff
  obtain ⟨hlgc, -⟩ := checkedAdd_eq_ok.mp h.logicalBytes
  obtain ⟨hfile, -, -⟩ := alignUp_ok h.fileBytes
  unfold RecordHeader.regionRange at hrg
  split at hrg
  · rename_i off region hofs hrgn
    cases hrg
    refine ⟨Nat.le_add_right _ _, ?_⟩
    obtain ⟨hidx, -⟩ := List.getElem?_eq_some_iff.mp hrgn
    -- The last region ends at the logical size, and every other one before it begins.
    have hlast : off + region.byteCount ≤ hdr.logicalBytes := by
      rw [getLastD_eq_getLast?, getLast?_eq_getElem?, getLast?_eq_getElem?, hlen] at hlgc
      by_cases hlt : idx < hdr.regions.length - 1
      · obtain ⟨next, hnx⟩ : ∃ next, hdr.regionOffsets[hdr.regions.length - 1]? = some next :=
          ⟨_, getElem?_eq_getElem (by omega)⟩
        have := hapa idx _ off next region hlt hofs hrgn hnx
        rw [hnx, Option.getD_some] at hlgc
        omega
      · obtain rfl : idx = hdr.regions.length - 1 := by omega
        rw [hofs, hrgn] at hlgc
        simp at hlgc
        omega
    exact hlast.trans hfile
  · cases hrg

end LetsInfer.PrefixStore
