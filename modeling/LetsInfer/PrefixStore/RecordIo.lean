import LetsInfer.PrefixStore.Codec

/-! @src cache/letsinfer_prefix_store/src/io.rs | name:Record reads | scheme:checked-read

    `read_record_checked` opens a record by its path, more than once: for its size, for its bytes
    and, when the record is large, again for its header and again for the mapping it returns. Each
    of these is a stage that sees whatever file is at the path at that moment; between two of them
    other threads may rename or delete. What a stage reads from one open file cannot change, since a
    file is never written after its rename. The four read bands of a stage are one read here. -/

namespace LetsInfer.PrefixStore
open Schemes

def fileBackedRecordMinBytes : ℕ := 64 * 1024 * 1024

/-- A name in the store's directory: the path of a key hash, or any other name a record was found
    under when the store was opened. Temporary files have names of their own that only their writer
    uses, and are left out. -/
inductive Path where
  | record (hash : UInt64)
  | other (name : String)
  deriving DecidableEq

abbrev Blob := List UInt8

/-- A complete file, with the number of the capture that wrote it. No operation reads the number; it
    tells two files of one path apart. -/
structure File where
  bytes : Blob
  capture : ℕ
  deriving DecidableEq

def slice (bytes : Blob) (range : ByteRange) : List UInt8 :=
  (bytes.drop range.start).take (range.stop - range.start)

def tokensOfBytes : List UInt8 → List UInt32
  | a :: b :: c :: d :: rest => UInt32.ofNat (leValue [a, b, c, d]) :: tokensOfBytes rest
  | _ => []

section Read

variable (crc32 : List UInt8 → UInt32)

/-- The checksum of every region, in order; none when a region has no range. -/
def regionChecksums (header : RecordHeader) (bytes : Blob) : Option (List UInt32) :=
  (List.range header.regions.length).mapM fun index =>
    (header.regionRange index).map fun range => crc32 (slice bytes range)

def maxTokenCount : ℕ := 16 * 1024 * 1024

def readHeaderAndTokens (bytes : Blob) : Except String (RecordHeader × List UInt32) := do
  if bytes.length < headerBytes then throw "failed to fill whole buffer"
  let header ← RecordHeader.decode crc32 (bytes.take headerBytes)
  if header.fileBytes ≠ bytes.length then throw "prefix-record index file size mismatch"
  if maxTokenCount < header.tokenCount then throw "prefix-record token count is implausibly large"
  let rawTokens := slice bytes header.tokensRange
  if rawTokens.length ≠ header.tokenCount * 4 then throw "failed to fill whole buffer"
  if crc32 rawTokens ≠ header.tokensCrc32 then throw "prefix-record token CRC mismatch"
  return (header, tokensOfBytes rawTokens)

/-- Where `read_record_checked` is: the next thing it opens. -/
inductive ReadStage where
  | sizing
  | checking
  | rechecking
  | mapping
  deriving DecidableEq

inductive ReadResult where
  | failed
  | next (stage : ReadStage)
  | done (blob : Blob)
  deriving DecidableEq

/-- `fs::metadata` and the checks that need no bytes. -/
def readSize (expected : RecordHeader) (file : File) : ReadResult :=
  if file.bytes.length ≠ expected.fileBytes ∨ file.bytes.length % pageBytes ≠ 0 then .failed
  else if (List.range expected.regions.length).any fun i => (expected.regionRange i).isNone then
    .failed
  else .next .checking

/-- The bytes of an open file: a small record is read, checked and returned, of a large one only the
    region checksums are taken. -/
def readBytes (expected : RecordHeader) (file : File) : ReadResult :=
  if file.bytes.length < expected.fileBytes then .failed
  else
    let buffer := file.bytes.take expected.fileBytes
    if regionChecksums crc32 expected buffer ≠ some expected.regionCrc32 then .failed
    else if fileBackedRecordMinBytes ≤ expected.fileBytes then .next .rechecking
    else
      match RecordHeader.decode crc32 (buffer.take headerBytes) with
      | .error _ => .failed
      | .ok loadedHeader =>
        if loadedHeader ≠ expected then .failed
        else if crc32 (slice buffer expected.tokensRange) ≠ expected.tokensCrc32 then .failed
        else .done buffer

/-- The header of a large record, from a file opened anew. -/
def readHeader (expected : RecordHeader) (file : File) : ReadResult :=
  match readHeaderAndTokens crc32 file.bytes with
  | .error _ => .failed
  | .ok (loadedHeader, _) => if loadedHeader ≠ expected then .failed else .next .mapping

/-- `MappedRecord::open`: only the size is compared. -/
def mapRecord (expected : RecordHeader) (file : File) : ReadResult :=
  if file.bytes.length ≠ expected.fileBytes then .failed else .done file.bytes

/-- One stage of `read_record_checked` on the file now at the path; `io` is false when the operating
    system reports an error. -/
def readStage (expected : RecordHeader) (stage : ReadStage) (file : Option File) (io : Bool) :
    ReadResult :=
  match file, io with
  | some file, true =>
    match stage with
    | .sizing => readSize expected file
    | .checking => readBytes crc32 expected file
    | .rechecking => readHeader crc32 expected file
    | .mapping => mapRecord expected file
  | _, _ => .failed

end Read

/-! ### Images -/

/-- The bytes a capture of this header writes: the header page, at the size the header says. -/
structure Image (crc32 : List UInt8 → UInt32) (header : RecordHeader) (bytes : Blob) : Prop where
  canonical : Canonical header
  length_eq : bytes.length = header.fileBytes
  page : header.encode crc32 = .ok (bytes.take headerBytes)

section Images

variable {crc : List UInt8 → UInt32} {hdr exp : RecordHeader} {bs : Blob}

theorem Image.decode_eq (h : Image crc hdr bs) :
    RecordHeader.decode crc (bs.take headerBytes) = .ok hdr :=
  decode_of_encode h.canonical h.page (by rw [List.take_take, Nat.min_self])

theorem Image.region_fits (h : Image crc hdr bs) {idx : ℕ} {range : ByteRange}
    (hrg : hdr.regionRange idx = some range) : range.stop ≤ bs.length := by
  rw [h.length_eq]
  exact (h.canonical.region_fits hrg).2

/-- A file that starts with an image's page is decoded as the image's header, however much of it was
    read. -/
theorem Image.header_of_decode (h : Image crc hdr bs) {size : ℕ}
    (hdec : RecordHeader.decode crc ((bs.take size).take headerBytes) = .ok exp) : exp = hdr := by
  have hlen := headerBytes_le_of_decode hdec
  rw [List.length_take, List.length_take] at hlen
  rw [List.take_take, Nat.min_eq_left (by omega), h.decode_eq] at hdec
  exact (Except.ok.inj hdec).symm

/-- What a checked read of a small image returns: the image, and only for its own header. -/
theorem readBytes_done {file : File} {blob : Blob} (h : Image crc hdr file.bytes)
    (hread : readBytes crc exp file = .done blob) : exp = hdr ∧ blob = file.bytes := by
  simp only [readBytes] at hread
  split at hread
  · cases hread
  split at hread
  · cases hread
  split at hread
  · cases hread
  split at hread
  · cases hread
  · rename_i loaded hldd
    split_ifs at hread with hhdr
    obtain rfl := ReadResult.done.inj hread
    obtain rfl : loaded = hdr := h.header_of_decode hldd
    obtain rfl : loaded = exp := not_not.mp hhdr
    exact ⟨rfl, List.take_of_length_le h.length_eq.le⟩

theorem readStage_done {sg : ReadStage} {found : Option File} {io : Bool} {blob : Blob}
    (himg : ∀ file, found = some file → Image crc hdr file.bytes)
    (hread : readStage crc exp sg found io = .done blob) :
    ∃ file, found = some file ∧ blob = file.bytes := by
  cases found with
  | none => cases hread
  | some file =>
    refine ⟨file, rfl, ?_⟩
    cases io with
    | false => cases hread
    | true =>
      cases sg with
      | sizing =>
        simp only [readStage, readSize] at hread
        split_ifs at hread
      | checking => exact (readBytes_done (himg file rfl) hread).2
      | rechecking =>
        simp only [readStage, readHeader] at hread
        split at hread
        · cases hread
        · split_ifs at hread
      | mapping =>
        simp only [readStage, mapRecord] at hread
        split_ifs at hread
        exact (ReadResult.done.inj hread).symm

end Images

end LetsInfer.PrefixStore
