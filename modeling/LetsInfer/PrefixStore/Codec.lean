import LetsInfer.Schemes.Words
import LetsInfer.PrefixStore.Format

/-! @src cache/letsinfer_prefix_store/src/format.rs | name:Header codec | scheme:codec

    The header page names every size, offset and checksum of a record. A decoder accepts a page only
    if the page's own checksum matches and the offsets are the canonical ones; a page that was
    encoded from a canonical header is read back as that header. The checksum function is a
    parameter. -/

namespace LetsInfer.PrefixStore
open Schemes List

/-- `LIPFX001`. -/
def magic : List UInt8 := [76, 73, 80, 70, 88, 48, 48, 49]

def version : ℕ := 1

/-! ### Header page -/

section Codec

variable (crc32 : List UInt8 → UInt32)

/-- The bytes of the header before its own checksum. -/
def RecordHeader.fixedFields (header : RecordHeader) : List UInt8 :=
  magic ++ leBytes 4 version ++ leBytes 4 headerBytes ++ header.fingerprint.bytes ++
    leBytes 8 header.keyHash.toNat ++ leBytes 8 header.tokenCount ++
    leBytes 4 header.regions.length ++ leBytes 4 header.tokensCrc32.toNat ++
    leBytes 8 header.tokensOffset ++ leBytes 8 header.logicalBytes ++ leBytes 8 header.fileBytes

def headerCrcOffset : ℕ := 96

def regionSlotBytes : ℕ := 32

def regionSlot (region : RegionDescription) (offset : ℕ) (crc : UInt32) : List UInt8 :=
  (region.name ++ replicate (maxRegionNameBytes - region.name.length) 0) ++
    leBytes 8 region.byteCount ++ leBytes 8 offset ++ leBytes 4 crc.toNat

/-- The region table: the slots of the regions, then empty slots up to `slots`. -/
def regionTable : ℕ → List RegionDescription → List ℕ → List UInt32 → List UInt8
  | 0, _, _, _ => []
  | slots + 1, region :: regions, offsets, crcs =>
    regionSlot region (offsets.headD 0) (crcs.headD 0) ++
      regionTable slots regions offsets.tail crcs.tail
  | slots + 1, [], _, _ => replicate regionSlotBytes 0 ++ regionTable slots [] [] []

/-- The header page after its own checksum. -/
def RecordHeader.tableFields (header : RecordHeader) : List UInt8 :=
  regionTable maxRegions header.regions header.regionOffsets header.regionCrc32 ++
    replicate (headerBytes - headerCrcOffset - 4 - maxRegions * regionSlotBytes) 0

/-- The header checksum, its own field taken as zero. -/
def headerChecksum (before after : List UInt8) : UInt32 := crc32 (before ++ [0, 0, 0, 0] ++ after)

def RecordHeader.encode (header : RecordHeader) : Except String (List UInt8) :=
  if header.regionCrc32.length ≠ header.regions.length then
    .error "prefix-record region CRC count mismatch"
  else
    .ok (header.fixedFields ++
      leBytes 4 (headerChecksum crc32 header.fixedFields header.tableFields).toNat ++
      header.tableFields)

def take (count : ℕ) (source : List UInt8) : Except String (List UInt8 × List UInt8) :=
  match takeBytes count source with
  | none => .error "short prefix-record header"
  | some r => .ok r

def getWord (width : ℕ) (source : List UInt8) : Except String (ℕ × List UInt8) :=
  match takeWord width source with
  | none => .error "short prefix-record header"
  | some r => .ok r

/-- A region name up to its first zero byte. A name with a byte outside ASCII is refused here or, if
    it is UTF-8, by the layout check that follows; both refuse the header. -/
def parseName (bytes : List UInt8) : Except String (List UInt8) :=
  let name := bytes.takeWhile (· ≠ 0)
  if name.all (· < 128) then .ok name else .error "bad prefix-record region name"

/-- The first `used` of `slots` table slots; the others are skipped. -/
def decodeTable : ℕ → ℕ → List UInt8 → Except String (List (RegionDescription × ℕ × UInt32))
  | 0, _, _ => .ok []
  | slots + 1, used, source => do
    let (nameBytes, source) ← take maxRegionNameBytes source
    let (byteCount, source) ← getWord 8 source
    let (offset, source) ← getWord 8 source
    let (crc, source) ← getWord 4 source
    match used with
    | 0 => decodeTable slots 0 source
    | used + 1 => do
      let name ← parseName nameBytes
      let rest ← decodeTable slots used source
      .ok ((⟨name, byteCount⟩, offset, UInt32.ofNat crc) :: rest)

def RecordHeader.decode (source : List UInt8) : Except String RecordHeader := do
  if source.length < headerBytes then throw "short prefix-record header"
  let page := source.take headerBytes
  let (magicBytes, rest) ← take magic.length page
  if magicBytes ≠ magic then throw "bad prefix-record magic"
  let (versionWord, rest) ← getWord 4 rest
  if versionWord ≠ version then throw "unsupported prefix-record format version"
  let (size, rest) ← getWord 4 rest
  if size ≠ headerBytes then throw "bad prefix-record header size"
  let (fingerprint, rest) ← take 32 rest
  let (keyHash, rest) ← getWord 8 rest
  let (tokenCount, rest) ← getWord 8 rest
  let (regionCount, rest) ← getWord 4 rest
  let (tokensCrc32, rest) ← getWord 4 rest
  let (tokensOffset, rest) ← getWord 8 rest
  let (logicalBytes, rest) ← getWord 8 rest
  let (fileBytes, rest) ← getWord 8 rest
  let (checksum, rest) ← getWord 4 rest
  if checksum ≠ (headerChecksum crc32 (page.take headerCrcOffset) rest).toNat then
    throw "prefix-record header CRC mismatch"
  if regionCount = 0 ∨ maxRegions < regionCount then
    throw "invalid prefix-record region count"
  let slots ← decodeTable maxRegions regionCount rest
  if h : fingerprint.length = 32 then
    let header : RecordHeader :=
      ⟨⟨fingerprint, h⟩, UInt64.ofNat keyHash, tokenCount, slots.map (·.1), tokensOffset,
        slots.map (·.2.1), logicalBytes, fileBytes, UInt32.ofNat tokensCrc32, slots.map (·.2.2)⟩
    header.validateLayout
    return header
  else throw "short prefix-record header"

end Codec

/-! ### Reading a header back -/

theorem take_append {n : ℕ} {block : List UInt8} (h : block.length = n)
    (rest : List UInt8) : take n (block ++ rest) = .ok (block, rest) := by
  rw [take, takeBytes_append h]

theorem getWord_append {width n : ℕ} (h : n < 256 ^ width) (rest : List UInt8) :
    getWord width (leBytes width n ++ rest) = .ok (n, rest) := by
  rw [getWord, takeWord_append h]

variable {region : RegionDescription} {rgs : List RegionDescription}
  {name page source : List UInt8} {slots : ℕ}

theorem validateRegions_cons (h : validateRegions (region :: rgs) = .ok ()) :
    validateRegionName region.name = .ok () ∧ validateRegions rgs = .ok () := by
  obtain ⟨⟨⟩, hname, h⟩ := bind_ok_iff.mp h
  exact ⟨hname, (throw_if_ok_iff.mp h).2⟩

theorem validateRegionName_ok (h : validateRegionName name = .ok ()) :
    name.length ≤ maxRegionNameBytes ∧ ∀ byte ∈ name, 33 ≤ byte ∧ byte ≤ 126 := by
  unfold validateRegionName at h
  split_ifs at h with hbad
  simpa [isAsciiGraphic] using (not_or.mp hbad).2

theorem parseName_padded (h : validateRegionName name = .ok ()) (n : ℕ) :
    parseName (name ++ replicate n 0) = .ok name := by
  obtain ⟨-, hgra⟩ := validateRegionName_ok h
  have hne : ∀ byte ∈ name, byte ≠ 0 := by
    rintro byte hbyte rfl
    exact absurd (hgra 0 hbyte).1 (by decide)
  have hname : (name ++ replicate n 0).takeWhile (· ≠ 0) = name := by
    rw [takeWhile_append_of_pos (by simpa using hne)]
    cases n <;> simp [replicate_succ]
  have hasc : name.all (· < 128) = true := by
    rw [all_eq_true]
    intro byte hbyte
    have := (hgra byte hbyte).2
    grind
  simp only [parseName, hname, hasc, if_true]

theorem decodeTable_slot {off : ℕ} {crc : UInt32} {used : ℕ}
    (hname : validateRegionName region.name = .ok ()) (hcnt : region.byteCount < 256 ^ 8)
    (hofs : off < 256 ^ 8) (rest : List UInt8)
    {tail : List (RegionDescription × ℕ × UInt32)} (htail : decodeTable slots used rest = .ok tail) :
    decodeTable (slots + 1) (used + 1) (regionSlot region off crc ++ rest) =
      .ok ((region, off, crc) :: tail) := by
  obtain ⟨hlen, -⟩ := validateRegionName_ok hname
  have hfld : (region.name ++
      replicate (maxRegionNameBytes - region.name.length) (0 : UInt8)).length =
        maxRegionNameBytes := by
    simp only [length_append, length_replicate]
    omega
  have hcrc : crc.toNat < 256 ^ 4 := crc.toNat_lt
  simp only [decodeTable, regionSlot, append_assoc]
  rw [← append_assoc region.name]
  simp only [take_append hfld, getWord_append hcnt, getWord_append hofs,
    getWord_append hcrc, parseName_padded hname, htail, bind, Except.bind, UInt32.ofNat_toNat]

theorem decodeTable_skip (rest : List UInt8) :
    decodeTable (slots + 1) 0 (replicate regionSlotBytes 0 ++ rest) = decodeTable slots 0 rest := by
  have hslot : replicate regionSlotBytes (0 : UInt8) =
      replicate maxRegionNameBytes 0 ++ leBytes 8 0 ++ leBytes 8 0 ++ leBytes 4 0 := by
    decide
  have hname : (replicate maxRegionNameBytes (0 : UInt8)).length = maxRegionNameBytes :=
    length_replicate
  simp only [decodeTable, hslot, append_assoc, take_append hname,
    getWord_append (show 0 < 256 ^ 8 by decide), getWord_append (show 0 < 256 ^ 4 by decide),
    bind, Except.bind]

theorem decodeTable_regionTable {cursor : ℕ}
    {offsets : List ℕ} {crcs : List UInt32} (hsls : rgs.length ≤ slots)
    (hnms : validateRegions rgs = .ok ()) (hoff : regionOffsetsFrom cursor rgs = .ok offsets)
    (hcrcs : crcs.length = rgs.length) (rest : List UInt8) :
    ∃ table, decodeTable slots rgs.length (regionTable slots rgs offsets crcs ++ rest) =
      .ok table ∧ table.map (·.1) = rgs ∧ table.map (·.2.1) = offsets ∧
        table.map (·.2.2) = crcs := by
  induction slots generalizing cursor rgs offsets crcs with
  | zero =>
    obtain rfl : rgs = [] := length_eq_zero_iff.mp (Nat.le_zero.mp hsls)
    obtain rfl := Except.ok.inj hoff
    obtain rfl : crcs = [] := length_eq_zero_iff.mp hcrcs
    exact ⟨[], rfl, rfl, rfl, rfl⟩
  | succ slots ih =>
    cases rgs with
    | nil =>
      obtain rfl := Except.ok.inj hoff
      obtain rfl : crcs = [] := length_eq_zero_iff.mp hcrcs
      obtain ⟨table, htb, hmaps⟩ := ih (Nat.zero_le _) hnms hoff hcrcs
      refine ⟨table, ?_, hmaps⟩
      rw [regionTable, append_assoc]
      exact (decodeTable_skip _).trans htb
    | cons region rgs =>
      obtain ⟨crc, crcs, rfl⟩ := exists_cons_of_length_eq_add_one hcrcs
      obtain ⟨stop, hstop, h⟩ := bind_ok_iff.mp hoff
      obtain ⟨next, hnx, h⟩ := bind_ok_iff.mp h
      obtain ⟨tail, htail, h⟩ := bind_ok_iff.mp h
      obtain rfl := Except.ok.inj h
      obtain ⟨rfl, hfits⟩ := checkedAdd_eq_ok.mp hstop
      obtain ⟨hname, hnms⟩ := validateRegions_cons hnms
      simp only [length_cons, Nat.add_le_add_iff_right, Nat.add_right_cancel_iff] at hsls hcrcs
      obtain ⟨table, htb, rfl, rfl, rfl⟩ := ih hsls hnms htail hcrcs
      refine ⟨(region, cursor, crc) :: table, ?_, by simp⟩
      simp only [regionTable, append_assoc, headD_cons, tail_cons, length_cons] at htb ⊢
      exact decodeTable_slot hname (lt_of_le_of_lt (Nat.le_add_left _ _) hfits)
        (lt_of_le_of_lt (Nat.le_add_right _ _) hfits) _ htb

section Page

variable {crc32 : List UInt8 → UInt32} {hdr : RecordHeader}

theorem length_fixedFields (hdr : RecordHeader) : hdr.fixedFields.length = headerCrcOffset := by
  simp [RecordHeader.fixedFields, hdr.fingerprint.length_eq, magic, headerCrcOffset]

theorem length_regionTable (offsets : List ℕ)
    (crcs : List UInt32) (hnms : validateRegions rgs = .ok ()) :
    (regionTable slots rgs offsets crcs).length = slots * regionSlotBytes := by
  induction slots generalizing rgs offsets crcs with
  | zero => simp [regionTable]
  | succ slots ih =>
    cases rgs with
    | nil =>
      simp only [regionTable, length_append, length_replicate, ih [] [] hnms]
      ring
    | cons region rgs =>
      obtain ⟨hname, hnms⟩ := validateRegions_cons hnms
      obtain ⟨hlen, -⟩ := validateRegionName_ok hname
      simp only [regionTable, regionSlot, length_append, length_replicate,
        length_leBytes, ih _ _ hnms, maxRegionNameBytes, regionSlotBytes] at *
      omega

theorem length_tableFields (h : Canonical hdr) :
    hdr.tableFields.length = headerBytes - headerCrcOffset - 4 := by
  rw [RecordHeader.tableFields, length_append, length_regionTable _ _ h.names, length_replicate]
  decide

theorem encode_eq_ok (h : hdr.encode crc32 = .ok page) :
    hdr.regionCrc32.length = hdr.regions.length ∧
    page = hdr.fixedFields ++
      (leBytes 4 (headerChecksum crc32 hdr.fixedFields hdr.tableFields).toNat ++
        hdr.tableFields) := by
  unfold RecordHeader.encode at h
  split_ifs at h with hlen
  exact ⟨not_not.mp hlen, by rw [← Except.ok.inj h, append_assoc]⟩

theorem length_encode (hcan : Canonical hdr)
    (h : hdr.encode crc32 = .ok page) : page.length = headerBytes := by
  rw [(encode_eq_ok h).2]
  simp [length_fixedFields, length_tableFields hcan, headerBytes, pageBytes, headerCrcOffset]

theorem headerBytes_le_of_decode
    (h : RecordHeader.decode crc32 source = .ok hdr) : headerBytes ≤ source.length :=
  not_lt.mp (throw_if_ok_iff.mp h).1

/-- ROUND TRIP: a source that begins with the page of a canonical header is decoded as that header. -/
theorem decode_of_encode (hcan : Canonical hdr) (h : hdr.encode crc32 = .ok page)
    (hsou : source.take headerBytes = page) : RecordHeader.decode crc32 source = .ok hdr := by
  obtain ⟨hcrcs, hpage⟩ := encode_eq_ok h
  have hlen : ¬source.length < headerBytes := by
    have := length_encode hcan h
    rw [← hsou, length_take] at this
    omega
  obtain ⟨cursor, -, hoff⟩ := hcan.offsets
  have hlgc : hdr.logicalBytes < 256 ^ 8 := (checkedAdd_eq_ok.mp hcan.logicalBytes).2
  have hfile : hdr.fileBytes < 256 ^ 8 := (alignUp_ok hcan.fileBytes).2.1
  have htok : hdr.tokenCount < 256 ^ 8 := by
    have := hcan.tokens_fit
    simp only [usizeBound] at this
    omega
  have hrgs : hdr.regions.length < 256 ^ 4 :=
    lt_of_le_of_lt hcan.regions_le (by decide)
  have hofs : hdr.tokensOffset < 256 ^ 8 := hcan.tokensOffset ▸ (by decide)
  obtain ⟨table, htb, hrgs', hoff', hcrcs'⟩ := decodeTable_regionTable
    hcan.regions_le hcan.names hoff hcrcs
    (replicate (headerBytes - headerCrcOffset - 4 - maxRegions * regionSlotBytes) 0)
  have hbef : page.take headerCrcOffset = hdr.fixedFields := by
    rw [hpage, ← length_fixedFields hdr, take_left]
  have hcnt : ¬(hdr.regions.length = 0 ∨ maxRegions < hdr.regions.length) := by
    rw [length_eq_zero_iff]
    exact not_or.mpr ⟨hcan.regions_ne, not_lt.mpr hcan.regions_le⟩
  have hval : hdr.validateLayout = .ok () := validateLayout_eq_ok.mpr ⟨hcan, hcrcs⟩
  obtain ⟨checksum, hche⟩ :
      ∃ checksum, checksum = headerChecksum crc32 hdr.fixedFields hdr.tableFields := ⟨_, rfl⟩
  rw [← hche] at hpage
  simp only [RecordHeader.fixedFields, append_assoc] at hpage
  unfold RecordHeader.decode
  rw [if_neg hlen, hsou]
  simp only [hbef]
  rw [hpage]
  have hmag : magic.length = magic.length := rfl
  have hver : version < 256 ^ 4 := by decide
  have hsize : headerBytes < 256 ^ 4 := by decide
  have hkey : hdr.keyHash.toNat < 256 ^ 8 := hdr.keyHash.toNat_lt
  have htkn : hdr.tokensCrc32.toNat < 256 ^ 4 := hdr.tokensCrc32.toNat_lt
  have hword : checksum.toNat < 256 ^ 4 := checksum.toNat_lt
  simp only [bind, Except.bind, take_append hmag, getWord_append hver, getWord_append hsize,
    take_append hdr.fingerprint.length_eq, getWord_append hkey, getWord_append htok,
    getWord_append hrgs, getWord_append htkn, getWord_append hofs,
    getWord_append hlgc, getWord_append hfile, getWord_append hword, ne_eq, not_true_eq_false,
    if_false, ← hche, if_neg hcnt]
  rw [RecordHeader.tableFields, htb]
  simp only [hdr.fingerprint.length_eq, dif_pos, hrgs', hoff', hcrcs',
    UInt64.ofNat_toNat, UInt32.ofNat_toNat]
  rw [hval]
  rfl

end Page

end LetsInfer.PrefixStore
