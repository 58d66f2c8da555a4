import LetsInfer.PrefixStore.Survival

/-! @src cache/letsinfer_prefix_store/src/store.rs | name:Opening any directory | scheme:recovery

    A directory may hold what no store wrote: copies of a record under other names, broken records,
    temporaries. Whatever is in it, the index has one record per key hash, and a record's key hash is
    the hash of its own fingerprint and tokens. Commits, replacements and evictions keep that, so a
    lookup is exact in every state. The byte counter is exact only without copies: a copy takes the
    place of the record read before it, and the bytes of both stay counted. -/

namespace LetsInfer.PrefixStore
open Schemes

/-- What `open` tells from a name: a temporary is removed, a name without the extension of records
    is passed over. -/
inductive ListedName where
  | temporary (name : String)
  | foreign (name : String)
  | record (path : Path)
  deriving DecidableEq

/-- The names of a listing that `open` visits. -/
def recordEntries (listing : List (ListedName × Blob × ℕ)) : List DirEntry :=
  listing.filterMap fun
    | (.record path, bytes, modified) => some ⟨path, bytes, modified⟩
    | _ => none

/-- The header is that of a record of the tokens. -/
def Described (header : RecordHeader) (tokens : List UInt32) : Prop :=
  header.tokenCount = tokens.length ∧ keyHash header.fingerprint tokens = header.keyHash

section Opening

variable {crc : List UInt8 → UInt32} {cfg : StoreConfig} {e : DirEntry}
  {es done : List DirEntry} {hdr : RecordHeader} {ts : List UInt32} {s t : Sys}

theorem length_tokensOfBytes (bs : List UInt8) : (tokensOfBytes bs).length = bs.length / 4 := by
  fun_induction tokensOfBytes bs with
  | case1 a b c d rest ih =>
    simp only [List.length_cons, ih]
    omega
  | case2 bs hsho =>
    match bs, hsho with
    | [], _ | [_], _ | [_, _], _ | [_, _, _], _ => simp
    | a :: b :: c :: d :: rest, hsho => exact (hsho a b c d rest rfl).elim

theorem Readable.described {bs : Blob} (h : Readable crc bs hdr ts) :
    Described hdr ts ∧ 0 < hdr.fileBytes := by
  have hhash := h.2
  obtain ⟨hsho, hread⟩ := throw_if_ok_iff.mp h.1
  obtain ⟨decoded, -, hread⟩ := bind_ok_iff.mp hread
  obtain ⟨hbs, hread⟩ := throw_if_ok_iff.mp hread
  obtain ⟨-, hread⟩ := throw_if_ok_iff.mp hread
  obtain ⟨hraw, hread⟩ := throw_if_ok_iff.mp hread
  obtain ⟨-, hread⟩ := throw_if_ok_iff.mp hread
  cases hread
  refine ⟨⟨?_, hhash⟩, ?_⟩
  · rw [length_tokensOfBytes, not_not.mp hraw, Nat.mul_div_cancel _ (by decide)]
  · rw [not_not.mp hbs]
    exact (by decide : 0 < headerBytes).trans_le (not_lt.mp hsho)

theorem described_of_loaded {r : RecordMeta} (h : r ∈ loaded crc es) :
    Described r.header r.tokens ∧ 0 < r.fileBytes := by
  obtain ⟨_, _, -, hdr, ts, hrdb, rfl⟩ := mem_loaded.mp h
  exact hrdb.described

namespace IndexState

variable {idx : IndexState}

/-- What is counted beyond the records stays so when records are removed. -/
theorem excess_evicts {idx' : IndexState} {gone : List RecordMeta} (hk : idx.Keyed)
    (hle : idx.storedBytes ≤ idx.committedBytes) (hword : idx.committedBytes < u64Bound)
    (hgone : idx.Evicts gone idx') :
    idx'.committedBytes ≤ idx.committedBytes ∧
      idx'.committedBytes + idx.storedBytes = idx.committedBytes + idx'.storedBytes := by
  induction gone generalizing idx with
  | nil =>
    obtain rfl : idx' = idx := hgone.result
    exact ⟨le_rfl, rfl⟩
  | cons r gone ih =>
    have hmem := hgone.indexed r List.mem_cons_self
    have hsto := storedBytes_remove hk hmem
    have hsub : (idx.remove r).committedBytes = idx.committedBytes - r.fileBytes :=
      subWord_eq (by omega) hword
    obtain ⟨hless, hsame⟩ := ih (((Evicts.refl _).cons hmem).keyed hk) (by omega)
      (by omega) hgone.uncons
    exact ⟨by omega, by omega⟩

end IndexState

/-! ### The store that is opened -/

/-- A store as `open` makes it from any directory. -/
structure Found (s : Sys) : Prop where
  keyed : s.index.Keyed
  described : ∀ record ∈ s.index.records, Described record.header record.tokens
  unreserved : s.index.reservedHashes = ∅ ∧ s.index.reservedBytes = 0
  captures : s.captures = ∅

theorem openStore_found (h : openStore crc cfg es = some t) : Found t := by
  have hscan := IndexState.tallied_of_found (loaded crc es)
  obtain ⟨gone, hgone, hcap, -⟩ := openStore_evicts h
  obtain ⟨hbs, hhas⟩ :=
    IndexState.reserved_removeAll ((loaded crc es).foldl IndexState.indexFound {}) gone
  rw [← hgone.result] at hbs hhas
  refine ⟨hgone.keyed hscan.keyed, fun r hmem => ?_,
    ⟨hhas.trans hscan.unreserved.1, hbs.trans hscan.unreserved.2⟩, hcap⟩
  exact (described_of_loaded (openStore_loaded h r hmem)).1

/-- What `open` is to establish. -/
structure OpenAccounts (config : StoreConfig) (t : Sys) : Prop where
  exact_bytes : t.index.committedBytes = t.index.storedBytes
  single : ∀ a ∈ t.index.records, ∀ b ∈ t.index.records,
    a.header.fingerprint = b.header.fingerprint → a.tokens = b.tokens → a = b
  within : 0 < config.capacityBytes → t.index.committedBytes ≤ config.capacityBytes

theorem Found.single (h : Found t) : ∀ a ∈ t.index.records, ∀ b ∈ t.index.records,
    a.header.fingerprint = b.header.fingerprint → a.tokens = b.tokens → a = b := by
  intro a ha b hb hfpr htok
  refine h.keyed.eq_of_key ha hb ?_
  rw [RecordMeta.hash, RecordMeta.hash, ← (h.described a ha).2, ← (h.described b hb).2, hfpr, htok]

/-- OPEN: on a directory whose records a word can count, `open` establishes its accounts exactly if
    no two of them have one key hash. -/
theorem open_accounts_iff {listing : List (ListedName × Blob × ℕ)}
    (hopen : openStore crc cfg (recordEntries listing) = some t)
    (hword : IndexState.foundBytes (loaded crc (recordEntries listing)) < u64Bound) :
    OpenAccounts cfg t ↔ DistinctKeys RecordMeta.hash (loaded crc (recordEntries listing)) := by
  have hscan := IndexState.tallied_of_found (loaded crc (recordEntries listing))
  have hfd := openStore_found hopen
  obtain ⟨gone, hgone, -, hfits⟩ := openStore_evicts hopen
  have hcom := hscan.committed.trans (Nat.mod_eq_of_lt hword)
  obtain ⟨hsto, hexa⟩ := hscan.stored
  obtain ⟨hless, hexc⟩ :=
    IndexState.excess_evicts hscan.keyed (by omega) (by omega) hgone
  rw [← hexa fun r hmem => (described_of_loaded hmem).2]
  constructor
  · intro h
    have hexa := h.exact_bytes
    omega
  · intro h
    refine ⟨by omega, hfd.single, fun hpos => ?_⟩
    have hsame : addWord t.index.committedBytes 0 = t.index.committedBytes := addWord_eq (by omega)
    have hused := hfits.resolve_right hpos.ne'
    rwa [IndexState.usedFor, hfd.unreserved.2, hsame, hsame] at hused

end Opening

def commitNow : List Label :=
  captureBytes 0 [1, 2, 3, 4, 5] ++ [.commit 0, .persist 0 .renamed, .publish 0 7]

def commitPath : Path := .record (keyHash zeroFingerprint [1])

/-- A directory with a temporary, a broken record and one that was committed. -/
theorem open_accounts_iff_broken : ∃ listing t, openStore firstByte (storeOf 40000 (by decide))
    (recordEntries listing) = some t ∧ listing.length = 3 ∧ t.index.records.length = 1 ∧
    OpenAccounts (storeOf 40000 (by decide)) t := by
  obtain ⟨tr, s, -, hfile⟩ := Run.exists_of_exec (step firstByte (storeOf 40000 (by decide))) {}
    commitNow (fun _ s => (s.files.lookup commitPath).any fun file =>
      let es := recordEntries [(.temporary "a.tmp-1", [], 0), (.record (.other "b"), [1], 0),
        (.record commitPath, file.bytes, 5)]
      (openStore firstByte (storeOf 40000 (by decide)) es).any (·.index.records.length = 1) ∧
        IndexState.foundBytes (loaded firstByte es) < u64Bound ∧
        ((loaded firstByte es).map (·.hash)).Nodup) (by decide +kernel)
  obtain ⟨file, -, hfile⟩ := Option.any_eq_true _ _ |>.mp hfile
  obtain ⟨hopen, hword, hdis⟩ := of_decide_eq_true hfile
  obtain ⟨t, ht, hlen⟩ := Option.any_eq_true _ _ |>.mp hopen
  exact ⟨_, t, ht, rfl, of_decide_eq_true hlen, (open_accounts_iff ht hword).mpr hdis⟩

/-- A record and a copy of it under another name: one is indexed, and both are counted. -/
theorem open_counts_copies : ∃ listing t, openStore firstByte (storeOf 40000 (by decide))
    (recordEntries listing) = some t ∧ listing.length = 2 ∧ t.index.records.length = 1 ∧
    t.index.storedBytes = 12288 ∧ t.index.committedBytes = 24576 := by
  obtain ⟨tr, s, -, hfile⟩ := Run.exists_of_exec (step firstByte (storeOf 40000 (by decide))) {}
    commitNow (fun _ s => (s.files.lookup commitPath).any fun file =>
      (openStore firstByte (storeOf 40000 (by decide)) (recordEntries
        [(.record commitPath, file.bytes, 5), (.record (.other "copy"), file.bytes, 6)])).any fun t =>
          t.index.records.length = 1 ∧ t.index.storedBytes = 12288 ∧
            t.index.committedBytes = 24576) (by decide +kernel)
  obtain ⟨file, -, hfile⟩ := Option.any_eq_true _ _ |>.mp hfile
  obtain ⟨t, ht, hacc⟩ := Option.any_eq_true _ _ |>.mp hfile
  exact ⟨_, t, ht, rfl, of_decide_eq_true hacc⟩

end LetsInfer.PrefixStore
