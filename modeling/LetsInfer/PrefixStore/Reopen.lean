import LetsInfer.PrefixStore.Reads

/-! @src cache/letsinfer_prefix_store/src/store.rs | name:Opening a store | scheme:recovery

    `open` visits the directory in whatever order it is listed. A record that can be read is indexed
    under its key hash with the modification time of its file, an unreadable one is deleted; then the
    capacity is enforced. Opening numbers the files it finds, in the order of the listing. In a
    directory that only a store has written every readable record is under the path of its own key
    hash, so no record takes the place of another, and the result is a store as the runs of the
    other modules start from. -/

namespace LetsInfer.PrefixStore
open Schemes List

/-- One name of a directory listing, with its contents and modification time. -/
structure DirEntry where
  path : Path
  bytes : Blob
  modified : ℕ
  deriving DecidableEq

section Model

variable (crc32 : List UInt8 → UInt32)

def loadRecordMeta (entry : DirEntry) (number : ℕ) : Except String RecordMeta := do
  let (header, tokens) ← readHeaderAndTokens crc32 entry.bytes
  if keyHash header.fingerprint tokens ≠ header.keyHash then throw "record key-hash mismatch"
  return ⟨header, tokens, entry.path, header.fileBytes, entry.modified, 0, number⟩

/-- Indexes a record that was found; one of the same key hash is replaced, its bytes stay counted. -/
def IndexState.indexFound (index : IndexState) (record : RecordMeta) : IndexState :=
  { index with
    committedBytes := addWord index.committedBytes record.fileBytes
    records := record :: index.records.filter fun other => other.hash ≠ record.hash }

/-- One round of the loop of `open`. An unreadable record is not kept. -/
def Sys.visit (s : Sys) (entry : DirEntry) : Sys :=
  match loadRecordMeta crc32 entry s.next with
  | .error _ => { s with next := s.next + 1 }
  | .ok record =>
    { s with
      index := s.index.indexFound record
      files := s.files.insert entry.path ⟨entry.bytes, s.next⟩
      next := s.next + 1
      captured := (record.header, entry.bytes) :: s.captured }

/-- `open` on a listing; `none` when the capacity cannot be enforced. -/
def openStore (config : StoreConfig) (entries : List DirEntry) : Option Sys :=
  let s := entries.foldl (Sys.visit crc32) {}
  let (index, victims, exhausted) :=
    IndexState.enforce config.capacityBytes 0 s.index.records.length s.index
  if exhausted then none
  else some { s with index := index, files := victims.foldl (fun files path => files.erase path) s.files }

end Model

/-- A record that `load_record_meta` reads from the bytes of a file. -/
def Readable (crc32 : List UInt8 → UInt32) (bytes : Blob) (header : RecordHeader)
    (tokens : List UInt32) : Prop :=
  readHeaderAndTokens crc32 bytes = .ok (header, tokens) ∧
    keyHash header.fingerprint tokens = header.keyHash

/-- The index entry of a record that was found. -/
def DirEntry.record (entry : DirEntry) (header : RecordHeader) (tokens : List UInt32)
    (number : ℕ) : RecordMeta :=
  ⟨header, tokens, entry.path, header.fileBytes, entry.modified, 0, number⟩

/-- Only stores wrote the directory: every readable record is under the path of its key hash. -/
def WellNamed (crc32 : List UInt8 → UInt32) (entries : List DirEntry) : Prop :=
  ∀ entry ∈ entries, ∀ header tokens, Readable crc32 entry.bytes header tokens →
    entry.path = .record header.keyHash

section Visits

variable {crc : List UInt8 → UInt32} {ent : DirEntry} {es done : List DirEntry}
  {hdr : RecordHeader} {ts : List UInt32} {number : ℕ} {rcd : RecordMeta} {s : Sys}

theorem loadRecordMeta_eq_ok : loadRecordMeta crc ent number = .ok rcd ↔
    ∃ hdr ts, Readable crc ent.bytes hdr ts ∧ rcd = ent.record hdr ts number := by
  constructor
  · intro h
    obtain ⟨⟨hdr, ts⟩, hread, h⟩ := bind_ok_iff.mp h
    obtain ⟨hhash, h⟩ := throw_if_ok_iff.mp h
    exact ⟨hdr, ts, ⟨hread, not_not.mp hhash⟩, (Except.ok.inj h).symm⟩
  · rintro ⟨hdr, ts, ⟨hread, hhash⟩, rfl⟩
    exact bind_ok_iff.mpr ⟨_, hread, throw_if_ok_iff.mpr ⟨not_not.mpr hhash, rfl⟩⟩

theorem readable_unique {bs : Blob} {hdr' : RecordHeader} {ts' : List UInt32}
    (h : Readable crc bs hdr ts) (h' : Readable crc bs hdr' ts') : hdr' = hdr ∧ ts' = ts := by
  have heq := h'.1.symm.trans h.1
  exact Prod.mk.inj (Except.ok.inj heq)

theorem fileBytes_of_readable {bs : Blob} (h : Readable crc bs hdr ts) :
    hdr.fileBytes = bs.length ∧ hdr.tokenCount ≤ maxTokenCount := by
  obtain ⟨-, hread⟩ := throw_if_ok_iff.mp h.1
  obtain ⟨decoded, -, hread⟩ := bind_ok_iff.mp hread
  obtain ⟨hbs, hread⟩ := throw_if_ok_iff.mp hread
  obtain ⟨hcnt, hread⟩ := throw_if_ok_iff.mp hread
  obtain ⟨-, hread⟩ := throw_if_ok_iff.mp hread
  obtain ⟨-, hread⟩ := throw_if_ok_iff.mp hread
  obtain rfl : decoded = hdr := congrArg Prod.fst (Except.ok.inj hread)
  exact ⟨not_not.mp hbs, not_lt.mp hcnt⟩

/-! ### The records of a directory -/

def loaded (crc32 : List UInt8 → UInt32) (entries : List DirEntry) : List RecordMeta :=
  entries.zipIdx.filterMap fun (entry, number) => (loadRecordMeta crc32 entry number).toOption

theorem mem_loaded : rcd ∈ loaded crc es ↔ ∃ number, ∃ ent : DirEntry,
    es[number]? = some ent ∧ ∃ hdr ts, Readable crc ent.bytes hdr ts ∧
      rcd = ent.record hdr ts number := by
  simp only [loaded, mem_filterMap, Prod.exists, mk_mem_zipIdx_iff_getElem?,
    toOption_eq_some, loadRecordMeta_eq_ok]
  exact exists_comm

theorem loaded_concat (done : List DirEntry) (ent : DirEntry) :
    loaded crc (done ++ [ent]) =
      loaded crc done ++ (loadRecordMeta crc ent done.length).toOption.toList := by
  rw [loaded, zipIdx_append, filterMap_append, Nat.zero_add, ← loaded]
  cases hload : (loadRecordMeta crc ent done.length).toOption <;> simp [hload]

namespace IndexState

variable {idx : IndexState} {found : List RecordMeta}

theorem records_indexFound (idx : IndexState) (rcd : RecordMeta) :
    (idx.indexFound rcd).records = (idx.publish rcd).1.records := by
  rw [records_publish]
  simp [indexFound, dropKeys]

def foundBytes (found : List RecordMeta) : ℕ := (found.map (·.fileBytes)).sum

/-- An index made of records that were found: every one is counted, one of each key hash is kept. -/
structure Tallied (found : List RecordMeta) (index : IndexState) : Prop where
  keyed : index.Keyed
  origin : ∀ record ∈ index.records, record ∈ found
  hashes : ∀ record ∈ found, ∃ kept ∈ index.records, kept.hash = record.hash
  unreserved : index.reservedHashes = ∅ ∧ index.reservedBytes = 0
  underflow : index.underflowed = false
  committed : index.committedBytes = foundBytes found % u64Bound
  stored : index.storedBytes ≤ foundBytes found ∧ ((∀ record ∈ found, 0 < record.fileBytes) →
    (index.storedBytes = foundBytes found ↔ DistinctKeys RecordMeta.hash found))

/-- STEP: one more record. A record of its key hash is replaced and stays counted. -/
theorem Tallied.indexFound (h : Tallied found idx) (rcd : RecordMeta) :
    Tallied (found ++ [rcd]) (idx.indexFound rcd) := by
  have hbs : foundBytes (found ++ [rcd]) = foundBytes found + rcd.fileBytes := by
    simp [foundBytes]
  have hsto := h.stored
  have hsum : (idx.indexFound rcd).storedBytes + idx.priorBytes rcd.hash =
      rcd.fileBytes + idx.storedBytes := by
    rw [storedBytes, records_indexFound]
    exact storedBytes_publish h.keyed rcd
  refine ⟨?_, ?_, ?_, h.unreserved, h.underflow, ?_, by omega, fun hpos => ?_⟩
  · rw [Keyed, records_indexFound]
    exact h.keyed.publish rcd
  · rw [records_indexFound]
    intro other hoth
    rcases mem_publish.mp hoth with rfl | ⟨hoth, -⟩
    · exact mem_concat_self
    · exact mem_append_left _ (h.origin other hoth)
  · rw [records_indexFound]
    intro other hoth
    by_cases hsame : other.hash = rcd.hash
    · exact ⟨rcd, mem_publish.mpr (.inl rfl), hsame.symm⟩
    · rcases mem_snoc.mp hoth with hoth | rfl
      · obtain ⟨kept, hkept, hhash⟩ := h.hashes other hoth
        exact ⟨kept, mem_publish.mpr (.inr ⟨hkept, hhash ▸ hsame⟩), hhash⟩
      · exact absurd rfl hsame
  · rw [hbs, ← Nat.mod_add_mod, ← h.committed]
    rfl
  · have hiff := hsto.2 fun other hoth => hpos other (mem_append_left _ hoth)
    have hpri : idx.priorBytes rcd.hash = 0 ↔ rcd.hash ∉ found.map RecordMeta.hash := by
      cases hget : idx.get rcd.hash with
      | none =>
        refine iff_of_true (priorBytes_none hget) fun hin => ?_
        obtain ⟨other, hoth, hhash⟩ := mem_map.mp hin
        obtain ⟨kept, hkept, hsame⟩ := h.hashes other hoth
        exact get_eq_none.mp hget kept hkept (hsame.trans hhash)
      | some prior =>
        obtain ⟨hmem, hhash⟩ := h.keyed.get_eq_some.mp hget
        have hold := h.origin prior hmem
        rw [priorBytes_some hget]
        refine iff_of_false (hpos prior (mem_append_left _ hold)).ne' fun hout => hout ?_
        exact hhash ▸ mem_map_of_mem hold
    rw [DistinctKeys, map_append, map_singleton, nodup_append_comm,
      singleton_append, nodup_cons, ← DistinctKeys, ← hiff, ← hpri]
    omega

/-- RUN: an index made of any records. -/
theorem tallied_of_found (found : List RecordMeta) :
    Tallied found (found.foldl IndexState.indexFound {}) := by
  induction found using reverseRecOn with
  | nil => exact ⟨nodup_nil, by simp, by simp, ⟨rfl, rfl⟩, rfl, rfl, le_rfl,
      fun _ => iff_of_true rfl nodup_nil⟩
  | append_singleton found rcd ih =>
    rw [foldl_append]
    exact ih.indexFound rcd

end IndexState

theorem foundBytes_loaded_le (es : List DirEntry) :
    IndexState.foundBytes (loaded crc es) ≤ (es.map fun ent => ent.bytes.length).sum := by
  induction es using reverseRecOn with
  | nil => exact le_rfl
  | append_singleton done ent ih =>
    rw [loaded_concat, map_append, sum_append]
    cases hload : loadRecordMeta crc ent done.length with
    | error => simpa [Except.toOption] using ih.trans (Nat.le_add_right _ _)
    | ok rcd =>
      obtain ⟨hdr, ts, hrdb, rfl⟩ := loadRecordMeta_eq_ok.mp hload
      have hbs := (fileBytes_of_readable hrdb).1
      simp only [IndexState.foundBytes, Except.toOption, Option.toList_some, map_append,
        sum_append] at ih ⊢
      simpa [DirEntry.record, hbs] using ih

/-! ### The scan -/

/-- What a visit does: an unreadable entry only takes a number. -/
theorem visit_cases (s : Sys) (ent : DirEntry) :
    ((∀ hdr ts, ¬Readable crc ent.bytes hdr ts) ∧ s.visit crc ent = { s with next := s.next + 1 }) ∨
    ∃ hdr ts, Readable crc ent.bytes hdr ts ∧ s.visit crc ent =
      { s with
        index := s.index.indexFound (ent.record hdr ts s.next)
        files := s.files.insert ent.path ⟨ent.bytes, s.next⟩
        next := s.next + 1
        captured := (hdr, ent.bytes) :: s.captured } := by
  unfold Sys.visit
  cases hload : loadRecordMeta crc ent s.next with
  | error msg =>
    refine .inl ⟨fun hdr ts hrdb => ?_, rfl⟩
    rw [loadRecordMeta_eq_ok.mpr ⟨hdr, ts, hrdb, rfl⟩] at hload
    cases hload
  | ok rcd =>
    obtain ⟨hdr, ts, hrdb, rfl⟩ := loadRecordMeta_eq_ok.mp hload
    exact .inr ⟨hdr, ts, hrdb, rfl⟩

theorem visits_eq (es : List DirEntry) :
    (es.foldl (Sys.visit crc) {}).index = (loaded crc es).foldl IndexState.indexFound {} ∧
      (es.foldl (Sys.visit crc) {}).next = es.length ∧ (es.foldl (Sys.visit crc) {}).captures = ∅ ∧
      (es.foldl (Sys.visit crc) {}).readers = ∅ ∧ (es.foldl (Sys.visit crc) {}).sweeps = ∅ ∧
      (es.foldl (Sys.visit crc) {}).tier = {} := by
  induction es using reverseRecOn with
  | nil => exact ⟨rfl, rfl, rfl, rfl, rfl, rfl⟩
  | append_singleton done ent ih =>
    obtain ⟨hidx, hnx, hots⟩ := ih
    rw [foldl_append, loaded_concat, foldl_append, ← hidx, length_append]
    simp only [foldl_cons, foldl_nil, Sys.visit, hnx]
    cases loadRecordMeta crc ent done.length with
    | error => exact ⟨rfl, rfl, hots⟩
    | ok rcd => exact ⟨rfl, rfl, hots⟩

theorem mem_captured_visits (es : List DirEntry) (blob : Blob) :
    (hdr, blob) ∈ (es.foldl (Sys.visit crc) {}).captured ↔
      ∃ ent ∈ es, ∃ ts, Readable crc ent.bytes hdr ts ∧ ent.bytes = blob := by
  induction es using reverseRecOn with
  | nil => simp
  | append_singleton done ent ih =>
    simp only [foldl_append, foldl_cons, foldl_nil, mem_append,
      mem_singleton, or_and_right, exists_or, exists_eq_left]
    rcases @visit_cases crc (done.foldl (Sys.visit crc) {}) ent with
      ⟨hno, hvis⟩ | ⟨hdr', ts, hrdb, hvis⟩
    · simp [hvis, ih, hno]
    · rw [hvis, mem_cons, ih, or_comm]
      refine or_congr_right ⟨fun heq => ?_, fun ⟨ts', hread, hblob⟩ => ?_⟩
      · cases heq
        exact ⟨ts, hrdb, rfl⟩
      · rw [(readable_unique hrdb hread).1, hblob]

theorem lookup_visits (hpat : DistinctKeys DirEntry.path es)
    (hen : es[number]? = some ent) (hread : Readable crc ent.bytes hdr ts) :
    (es.foldl (Sys.visit crc) {}).files.lookup ent.path = some ⟨ent.bytes, number⟩ := by
  induction es using reverseRecOn with
  | nil => cases hen
  | append_singleton done last ih =>
    rw [DistinctKeys, map_append, nodup_append] at hpat
    obtain ⟨hdone, -, happ⟩ := hpat
    have hnx := (@visits_eq crc done).2.1
    rw [foldl_append, foldl_cons, foldl_nil]
    rw [getElem?_append] at hen
    split_ifs at hen with hold
    · have hne : ent.path ≠ last.path :=
        happ _ (mem_map_of_mem (mem_of_getElem? hen)) _ (by simp)
      rcases @visit_cases crc (done.foldl (Sys.visit crc) {}) last with
        ⟨-, hvis⟩ | ⟨_, _, -, hvis⟩
      · rw [hvis, ih hdone hen]
      · rw [hvis, Table.lookup_insert_ite, if_neg hne, ih hdone hen]
    · rw [getElem?_singleton] at hen
      split_ifs at hen
      obtain rfl := Option.some.inj hen
      rcases @visit_cases crc (done.foldl (Sys.visit crc) {}) last with
        ⟨hno, -⟩ | ⟨_, _, -, hvis⟩
      · exact absurd hread (hno hdr ts)
      · obtain rfl : number = done.length := by omega
        rw [hvis, hnx]
        exact Finmap.lookup_insert _

/-! ### A scan of a well-named directory -/

structure Scanned (crc32 : List UInt8 → UInt32) (done : List DirEntry) (s : Sys) : Prop
    extends Stocked s where
  resident : s.tier = {}
  images : ∀ header blob, (header, blob) ∈ s.captured → ∃ entry ∈ done, ∃ tokens,
    Readable crc32 entry.bytes header tokens ∧ entry.bytes = blob
  contents : ∀ record ∈ s.index.records, ∀ file, s.files.lookup record.path = some file →
    (record.header, file.bytes) ∈ s.captured
  origin : ∀ record ∈ s.index.records, ∃ entry ∈ done, ∃ header tokens,
    Readable crc32 entry.bytes header tokens ∧ record.path = entry.path ∧ record.header = header
  found : ∀ entry ∈ done, ∀ header tokens, Readable crc32 entry.bytes header tokens →
    ∃ number, entry.record header tokens number ∈ s.index.records ∧
      s.files.lookup entry.path = some ⟨entry.bytes, number⟩
  counters : s.index.reservedBytes = 0 ∧ s.index.underflowed = false
  committed : s.index.committedBytes ≤ (done.map fun entry => entry.bytes.length).sum

/-- RUN: a scan of a well-named listing. -/
theorem scanned_of_visits (hpat : DistinctKeys DirEntry.path es) (hnmd : WellNamed crc es) :
    Scanned crc es (es.foldl (Sys.visit crc) {}) := by
  obtain ⟨hidx, hnx, hcap, hrds, hsws, htier⟩ := @visits_eq crc es
  have hscan := IndexState.tallied_of_found (loaded crc es)
  rw [← hidx] at hscan
  have hori := fun rcd hmem => mem_loaded.mp (hscan.origin rcd hmem)
  -- The path of a record tells its key hash, so no record took the place of another.
  have hhash : ∀ rcd ∈ (es.foldl (Sys.visit crc) {}).index.records,
      rcd.path = .record rcd.hash := by
    intro rcd hmem
    obtain ⟨number, ent, hen, hdr, ts, hread, rfl⟩ := hori rcd hmem
    exact hnmd ent (mem_of_getElem? hen) hdr ts hread
  refine ⟨⟨⟨hscan.keyed, hscan.unreserved.1, hcap, hrds, ?_, ?_, ?_⟩, ?_, ?_, hsws⟩,
    htier, fun hdr blob => (mem_captured_visits es blob).mp, ?_, ?_, ?_,
    ⟨hscan.unreserved.2, hscan.underflow⟩, ?_⟩
  · intro rcd hmem
    obtain ⟨number, ent, hen, -, -, -, rfl⟩ := hori rcd hmem
    rw [hnx]
    exact (List.getElem?_eq_some_iff.mp hen).1
  · intro a ha b hb hsame
    obtain ⟨number, ent, hen, hdr, ts, hread, rfl⟩ := hori a ha
    obtain ⟨number', ent', hen', hdr', ts', hread', rfl⟩ := hori b hb
    obtain rfl : number = number' := hsame
    obtain rfl : ent = ent' := Option.some.inj (hen.symm.trans hen')
    obtain ⟨rfl, rfl⟩ := readable_unique hread hread'
    rfl
  · intro rcd hmem
    obtain ⟨number, ent, -, hdr, ts, -, rfl⟩ := hori rcd hmem
    rfl
  · intro rcd hmem
    obtain ⟨number, ent, hen, hdr, ts, hread, rfl⟩ := hori rcd hmem
    exact ⟨_, lookup_visits hpat hen hread, rfl⟩
  · intro a ha b hb hsame
    rw [hhash a ha, hhash b hb] at hsame
    exact hscan.keyed.eq_of_key ha hb (Path.record.inj hsame)
  · intro rcd hmem file hfile
    obtain ⟨number, ent, hen, hdr, ts, hread, rfl⟩ := hori rcd hmem
    cases (lookup_visits hpat hen hread).symm.trans hfile
    exact (mem_captured_visits es _).mpr ⟨ent, mem_of_getElem? hen, ts, hread, rfl⟩
  · intro rcd hmem
    obtain ⟨number, ent, hen, hdr, ts, hread, rfl⟩ := hori rcd hmem
    exact ⟨ent, mem_of_getElem? hen, hdr, ts, hread, rfl, rfl⟩
  · intro ent hmem hdr ts hread
    obtain ⟨number, hen⟩ := mem_iff_getElem?.mp hmem
    obtain ⟨kept, hkept, hsame⟩ := hscan.hashes _
      (mem_loaded.mpr ⟨number, ent, hen, hdr, ts, hread, rfl⟩)
    have hpath := hhash kept hkept
    rw [hsame, RecordMeta.hash, DirEntry.record, ← hnmd ent hmem hdr ts hread] at hpath
    obtain ⟨number', ent', hen', hdr', ts', hread', rfl⟩ := hori kept hkept
    obtain rfl := hpat.eq_of_key (mem_of_getElem? hen') hmem hpath
    obtain ⟨rfl, rfl⟩ := readable_unique hread hread'
    exact ⟨number', hkept, lookup_visits hpat hen' hread⟩
  · rw [hscan.committed]
    exact (Nat.mod_le _ _).trans (foundBytes_loaded_le es)

end Visits

/-! ### The store that is opened -/

section Opening

variable {crc : List UInt8 → UInt32} {cfg : StoreConfig} {es : List DirEntry} {t : Sys}

theorem enforce_of_fits {cap fuel : ℕ} {idx : IndexState} (h : idx.usedFor 0 ≤ cap ∨ cap = 0) :
    IndexState.enforce cap 0 fuel idx = (idx, [], false) := by
  unfold IndexState.enforce
  exact if_pos h

theorem openStore_of_room (hpat : DistinctKeys DirEntry.path es) (hnmd : WellNamed crc es)
    (hroom : cfg.capacityBytes = 0 ∨ (es.map fun ent => ent.bytes.length).sum ≤ cfg.capacityBytes) :
    openStore crc cfg es = some (es.foldl (Sys.visit crc) {}) := by
  have hscan := scanned_of_visits hpat hnmd
  have hused : (es.foldl (Sys.visit crc) {}).index.usedFor 0 ≤ cfg.capacityBytes ∨
      cfg.capacityBytes = 0 := by
    rcases hroom with hzero | hroom
    · exact .inr hzero
    · have hcom := hscan.committed
      refine .inl ?_
      rw [IndexState.usedFor, hscan.counters.1]
      have hword : ∀ a, addWord a 0 ≤ a := fun a => Nat.mod_le _ _
      exact (hword _).trans ((hword _).trans (hcom.trans hroom))
  rw [openStore, enforce_of_fits hused]
  rfl

section

variable (h : openStore crc cfg es = some t)
include h

theorem openStore_evicts :
    ∃ gone, ((loaded crc es).foldl IndexState.indexFound {}).Evicts gone t.index ∧
      t.captures = ∅ ∧ (t.index.usedFor 0 ≤ cfg.capacityBytes ∨ cfg.capacityBytes = 0) := by
  obtain ⟨hidx, -, hcap, -⟩ := @visits_eq crc es
  rw [openStore] at h
  split at h
  rename_i idx vs exh henf
  split_ifs at h with hok
  obtain rfl := Option.some.inj h
  rw [hidx] at henf
  obtain ⟨gone, hgone, -, -, hfits, -⟩ :=
    IndexState.enforce_evicts (IndexState.tallied_of_found _).keyed le_rfl henf
  exact ⟨gone, hgone, hcap, hfits (eq_false_of_ne_true hok)⟩

theorem openStore_loaded : ∀ rcd ∈ t.index.records, rcd ∈ loaded crc es := by
  obtain ⟨gone, hgone, -⟩ := openStore_evicts h
  exact fun rcd hmem => (IndexState.tallied_of_found _).origin rcd (hgone.subset hmem)

theorem tokenCount_le_of_open : ∀ rcd ∈ t.index.records, rcd.header.tokenCount ≤ maxTokenCount := by
  intro rcd hmem
  obtain ⟨_, _, -, _, _, hrdb, rfl⟩ := mem_loaded.mp (openStore_loaded h rcd hmem)
  exact (fileBytes_of_readable hrdb).2

end

end Opening

end LetsInfer.PrefixStore
