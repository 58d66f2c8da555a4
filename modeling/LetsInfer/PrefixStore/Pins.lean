import LetsInfer.PrefixStore.Capacity

/-! @src cache/letsinfer_prefix_store/src/store.rs | name:Readers and pins | scheme:counting

    A hit pins its record by one more active reader, and the drop of a reader takes one off the record
    that is then indexed under the reader's key hash. Every record and every reader is traced to the
    capture it comes from; the count of a record is the number of its live readers as long as no
    reader of an earlier record of the hash is dropped against it. -/

namespace LetsInfer.PrefixStore
open Schemes

/-- Captures, records and readers, traced to each other by the capture's number. -/
structure Traced (s : Sys) : Prop extends Owned s where
  recordBelow : ∀ record ∈ s.index.records, record.capture < s.next
  readerBelow : ∀ r reader, s.readers.lookup r = some reader → reader.capture < s.next
  readerNumber : ∀ r reader, s.readers.lookup r = some reader → r < s.next
  distinct : ∀ a ∈ s.index.records, ∀ b ∈ s.index.records, a.capture = b.capture → a = b
  unpublished : ∀ n c, s.captures.lookup n = some c → c.stage.standing ≠ .done →
    (∀ record ∈ s.index.records, record.capture ≠ n) ∧
      ∀ r reader, s.readers.lookup r = some reader → reader.capture ≠ n
  pinned : ∀ record ∈ s.index.records, ∀ r reader, s.readers.lookup r = some reader →
    reader.capture = record.capture → reader.header = record.header

def Sys.readerCount (s : Sys) (capture : ℕ) : ℕ :=
  Table.total (fun _ reader => if reader.capture = capture then 1 else 0) s.readers

/-- Every record counts its own live readers. -/
def Counted (s : Sys) : Prop :=
  ∀ record ∈ s.index.records, record.activeReaders = s.readerCount record.capture

/-- The drop of a reader that takes a pin off another record of its key hash. -/
def MisdirectedDrop (s : Sys) (label : Label) : Prop :=
  ∃ r reader record, label = .dropReader r ∧ s.readers.lookup r = some reader ∧
    record ∈ s.index.records ∧ record.hash = reader.header.keyHash ∧
    record.capture ≠ reader.capture ∧ 0 < record.activeReaders

variable {cfg : StoreConfig} {s t : Sys} {lab : Label} {n now r k : ℕ} {c : Capture}
  {rcd : RecordMeta} {rd : RecordReader} {crc : List UInt8 → UInt32} {o : Output}

section Steps

/-! ### Where records and readers come from -/

def RecordMeta.pin (record : RecordMeta) : RecordHeader × Path × ℕ :=
  (record.header, record.path, record.capture)

/-- The records are old ones, with the header, the path and the capture they had. -/
def RecordsFrom (s t : Sys) : Prop :=
  ∃ g : RecordMeta → RecordMeta, (∀ a, (g a).pin = a.pin) ∧
    ∀ b ∈ t.index.records, ∃ a ∈ s.index.records, b = g a

theorem record_pin_eq {a b : RecordMeta} (h : a.pin = b.pin) :
    a.header = b.header ∧ a.path = b.path ∧ a.capture = b.capture := by
  simpa [RecordMeta.pin] using h

/-- The readers are old ones, on the records they had. -/
def ReadersFrom (s t : Sys) : Prop :=
  ∀ r new, t.readers.lookup r = some new → ∃ old, s.readers.lookup r = some old ∧ new.pin = old.pin

theorem RecordsFrom.of_subset (h : ∀ b ∈ t.index.records, b ∈ s.index.records) : RecordsFrom s t :=
  ⟨id, fun _ => rfl, fun b hb => ⟨b, h b hb, rfl⟩⟩

theorem RecordsFrom.of_update {hash : UInt64} {f : RecordMeta → RecordMeta}
    (hidx : t.index = s.index.update hash f) (hf : ∀ a, (f a).pin = a.pin) : RecordsFrom s t := by
  refine ⟨fun a => if a.hash = hash then f a else a, fun a => ?_, fun b hb => ?_⟩
  · dsimp only
    split_ifs
    · exact hf a
    · rfl
  · rw [hidx, IndexState.records_update] at hb
    exact mem_mapKey.mp hb

theorem ReadersFrom.of_eq (h : t.readers = s.readers) : ReadersFrom s t :=
  fun _ new hnew => ⟨new, h ▸ hnew, rfl⟩

theorem SamePins.readersFrom (h : SamePins s t) : ReadersFrom s t := by
  rcases h with h | ⟨r, old, new, hold, hpin, h⟩
  · exact .of_eq h
  · intro m rd hm
    rcases Table.insert_cases h hm with ⟨hmr, rfl⟩ | ⟨-, hm⟩
    · exact ⟨old, hmr ▸ hold, hpin⟩
    · exact ⟨rd, hm, rfl⟩

theorem mem_of_publish {new : RecordMeta} (hidx : t.index = (s.index.publish new).1) :
    ∀ b ∈ t.index.records, b = new ∨ b ∈ s.index.records := by
  intro b hb
  rw [hidx] at hb
  exact (IndexState.mem_publish.mp hb).imp_right And.left

theorem pin_eq {new old : RecordReader} (h : new.pin = old.pin) :
    new.header = old.header ∧ new.path = old.path ∧ new.capture = old.capture := by
  simpa [RecordReader.pin] using h

/-- The captures still to be indexed are old ones, or new. -/
def CapturesFrom (s t : Sys) : Prop :=
  ∀ n c, t.captures.lookup n = some c → c.stage.standing ≠ .done →
    n = s.next ∨ ∃ d, s.captures.lookup n = some d ∧ d.stage.standing ≠ .done

theorem CapturesFrom.of_eq (h : t.captures = s.captures) : CapturesFrom s t :=
  fun _ c hc hdone => .inr ⟨c, h ▸ hc, hdone⟩

theorem CapturesFrom.of_insert (h : t.captures = s.captures.insert n c)
    (hc : c.stage.standing ≠ .done →
      n = s.next ∨ ∃ d, s.captures.lookup n = some d ∧ d.stage.standing ≠ .done) :
    CapturesFrom s t := by
  intro m d hd hdone
  rcases Table.insert_cases h hd with ⟨hm, rfl⟩ | ⟨-, hd⟩
  · exact hm ▸ hc hdone
  · exact .inr ⟨d, hd, hdone⟩

namespace Traced

theorem of_from (h : Traced s) (hown : Owned t) (hcap : CapturesFrom s t)
    (hrcs : RecordsFrom s t) (hrds : ReadersFrom s t) (hnx : s.next ≤ t.next) : Traced t := by
  obtain ⟨g, hg', hfrom⟩ := hrcs
  have hg : ∀ a, (g a).header = a.header ∧ (g a).capture = a.capture := fun a =>
    ⟨(record_pin_eq (hg' a)).1, (record_pin_eq (hg' a)).2.2⟩
  refine ⟨hown, ?_, ?_, ?_, ?_, ?_, ?_⟩
  · intro b hb
    obtain ⟨a, ha, rfl⟩ := hfrom b hb
    exact (hg a).2 ▸ (h.recordBelow a ha).trans_le hnx
  · intro r new hnew
    obtain ⟨old, hold, hpin⟩ := hrds r new hnew
    exact (pin_eq hpin).2.2 ▸ (h.readerBelow r old hold).trans_le hnx
  · intro r new hnew
    obtain ⟨old, hold, -⟩ := hrds r new hnew
    exact (h.readerNumber r old hold).trans_le hnx
  · intro b hb b' hb' heq
    obtain ⟨a, ha, rfl⟩ := hfrom b hb
    obtain ⟨a', ha', rfl⟩ := hfrom b' hb'
    rw [(hg a).2, (hg a').2] at heq
    rw [h.distinct a ha a' ha' heq]
  · intro n c hc hdone
    -- A new number is above every number in use.
    rcases hcap n c hc hdone with rfl | ⟨d, hd, hdone'⟩
    · refine ⟨fun b hb => ?_, fun r new hnew => ?_⟩
      · obtain ⟨a, ha, rfl⟩ := hfrom b hb
        rw [(hg a).2]
        exact (h.recordBelow a ha).ne
      · obtain ⟨old, hold, hpin⟩ := hrds r new hnew
        rw [(pin_eq hpin).2.2]
        exact (h.readerBelow r old hold).ne
    · obtain ⟨hrec, hrdr⟩ := h.unpublished n d hd hdone'
      refine ⟨fun b hb => ?_, fun r new hnew => ?_⟩
      · obtain ⟨a, ha, rfl⟩ := hfrom b hb
        rw [(hg a).2]
        exact hrec a ha
      · obtain ⟨old, hold, hpin⟩ := hrds r new hnew
        rw [(pin_eq hpin).2.2]
        exact hrdr r old hold
  · intro b hb r new hnew heq
    obtain ⟨a, ha, rfl⟩ := hfrom b hb
    obtain ⟨old, hold, hpin⟩ := hrds r new hnew
    rw [(pin_eq hpin).2.2, (hg a).2] at heq
    rw [(pin_eq hpin).1, (hg a).1]
    exact h.pinned a ha r old hold heq

/-- A commit indexes a record that no reader and no other record is traced to. -/
theorem publish {job : PreparedCommit} (h : Traced s)
    (hown : Owned t) (hc : s.captures.lookup n = some c) (hsg : c.stage.standing = .held)
    (hidx : t.index = (s.index.publish (job.record c.tokens n now)).1) (hcap : CapturesFrom s t)
    (hdone : ∀ d, t.captures.lookup n = some d → d.stage.standing = .done)
    (hrds : t.readers = s.readers) (hnx : t.next = s.next) : Traced t := by
  obtain ⟨hrec, hrdr⟩ := h.unpublished n c hc (by simp [hsg])
  have hmem := mem_of_publish hidx
  have hnew : (job.record c.tokens n now).capture = n := rfl
  refine ⟨hown, ?_, ?_, ?_, ?_, ?_, ?_⟩
  · intro b hb
    rw [hnx]
    rcases hmem b hb with rfl | hb
    · exact h.numbered n c hc
    · exact h.recordBelow b hb
  · rw [hrds, hnx]
    exact h.readerBelow
  · rw [hrds, hnx]
    exact h.readerNumber
  · intro b hb b' hb' heq
    rcases hmem b hb with rfl | hb
    · rcases hmem b' hb' with rfl | hb'
      · rfl
      · exact absurd heq.symm (hrec b' hb')
    · rcases hmem b' hb' with rfl | hb'
      · exact absurd heq (hrec b hb)
      · exact h.distinct b hb b' hb' heq
  · intro m d hd hdone'
    have hne : m ≠ n := fun heq => hdone' (hdone d (heq ▸ hd))
    rcases hcap m d hd hdone' with rfl | ⟨e, he, hedo⟩
    · refine ⟨fun b hb => ?_, fun r rd hr => ?_⟩
      · rcases hmem b hb with rfl | hb
        · exact hne.symm
        · exact (h.recordBelow b hb).ne
      · exact (h.readerBelow r rd (hrds ▸ hr)).ne
    · obtain ⟨hrec', hrdr'⟩ := h.unpublished m e he hedo
      refine ⟨fun b hb => ?_, fun r rd hr => hrdr' r rd (hrds ▸ hr)⟩
      rcases hmem b hb with rfl | hb
      · exact hne.symm
      · exact hrec' b hb
  · intro b hb r rd hr heq
    rw [hrds] at hr
    rcases hmem b hb with rfl | hb
    · exact absurd heq (hrdr r rd hr)
    · exact h.pinned b hb r rd hr heq

/-- A hit opens a reader on the record found. -/
theorem hit (h : Traced s) (hown : Owned t) (hmem : rcd ∈ s.index.records)
    (hidx : t.index = s.index.update rcd.hash fun rcd =>
      { rcd with activeReaders := rcd.activeReaders + 1, lastUsed := now })
    (hpin : rd.pin = (rcd.header, rcd.path, rcd.capture))
    (hcap : t.captures = s.captures) (hrds : t.readers = s.readers.insert s.next rd)
    (hnx : t.next = s.next + 1) : Traced t := by
  obtain ⟨hhdr, -, hcpt⟩ : rd.header = rcd.header ∧ rd.path = rcd.path ∧
      rd.capture = rcd.capture := by simpa [RecordReader.pin] using hpin
  -- Without the new reader this is a change in place.
  have hold : Traced { t with readers := s.readers } := by
    refine h.of_from ⟨hown.keyed, hown.numbered, hown.jobs, hown.hashes, hown.owner⟩
      (.of_eq hcap) (.of_update hidx fun _ => rfl) (.of_eq rfl) ?_
    simp only [hnx]
    omega
  have hlk : ∀ r new, t.readers.lookup r = some new →
      r = s.next ∧ new = rd ∨ s.readers.lookup r = some new := by
    intro r new hnew
    rw [hrds, Table.lookup_insert_ite] at hnew
    split_ifs at hnew with hr
    · exact .inl ⟨hr, (Option.some.inj hnew).symm⟩
    · exact .inr hnew
  have hbel := h.recordBelow rcd hmem
  refine ⟨hown, hold.recordBelow, ?_, ?_, hold.distinct, ?_, ?_⟩
  · intro r new hnew
    rcases hlk r new hnew with ⟨-, rfl⟩ | hnew
    · omega
    · exact hold.readerBelow r new hnew
  · intro r new hnew
    rcases hlk r new hnew with ⟨rfl, -⟩ | hnew
    · omega
    · exact hold.readerNumber r new hnew
  · intro n c hc hdone
    obtain ⟨hrec, hrdr⟩ := hold.unpublished n c hc hdone
    refine ⟨hrec, fun r new hnew => ?_⟩
    rcases hlk r new hnew with ⟨-, rfl⟩ | hnew
    · rw [hcpt]
      exact (h.unpublished n c (hcap ▸ hc) hdone).1 rcd hmem
    · exact hrdr r new hnew
  · intro b hb r new hnew heq
    rcases hlk r new hnew with ⟨-, rfl⟩ | hnew
    · rw [hidx, IndexState.records_update] at hb
      obtain ⟨a, ha, rfl⟩ := mem_mapKey.mp hb
      have hsame : a.capture = rcd.capture := by
        rw [← hcpt, heq]
        split_ifs <;> rfl
      obtain rfl := h.distinct a ha rcd hmem hsame
      rw [hhdr]
      split_ifs <;> rfl
    · exact hold.pinned b hb r new hnew heq

/-- STEP: every shift keeps the traces. -/
theorem shift (h : Traced s) (hshf : Shift cfg s t lab) : Traced t := by
  have hown : Owned t := h.toOwned.shift hshf
  cases hshf with
  | same hidx hcap hpins hnx =>
    exact h.of_from hown (.of_eq hcap) (.of_subset (by simp [hidx])) hpins.readersFrom hnx
  | opened _ _ _ hidx hcap hrds hnx =>
    exact h.of_from hown (.of_insert hcap fun _ => .inl rfl) (.of_subset (by simp [hidx]))
      (.of_eq hrds) (by omega)
  | staged hc hstd _ hidx hcap hrds hnx =>
    refine h.of_from hown (.of_insert hcap fun hdone => .inr ⟨_, hc, ?_⟩)
      (.of_subset (by simp [hidx])) (.of_eq hrds) hnx.ge
    rcases hstd with heq | ⟨hbef, -⟩
    · rwa [← heq]
    · simp [hbef]
  | closed _ _ hidx hcap hrds hnx =>
    refine h.of_from hown ?_ (.of_subset (by simp [hidx])) (.of_eq hrds) hnx.ge
    intro m d hd hdone
    exact .inr ⟨d, Table.lookup_of_erase (hcap ▸ hd), hdone⟩
  | reserve hc hsg _ hidx hcap hrds hnx =>
    exact h.of_from hown
      (.of_insert hcap fun _ => .inr ⟨_, hc, by simp [hsg, CaptureStage.standing]⟩)
      (.of_subset (by simp [hidx, IndexState.reserve])) (.of_eq hrds) hnx.ge
  | enforce hc hsg hidx hcap hrds hnx =>
    obtain ⟨gone, hgone, -⟩ := IndexState.enforce_evicts h.keyed le_rfl hidx
    exact h.of_from hown
      (.of_insert hcap fun _ => .inr ⟨_, hc, by simp [hsg, CaptureStage.standing]⟩)
      (.of_subset fun _ => hgone.subset) (.of_eq hrds) hnx.ge
  | release _ _ hidx hcap hrds hnx =>
    refine h.of_from hown (.of_insert hcap (by simp [CaptureStage.standing]))
      (.of_subset ?_) (.of_eq hrds) hnx.ge
    rcases hidx with hidx | hidx <;>
      simp [hidx, IndexState.unreserve, IndexState.cancelReservation]
  | publish hc hsg _ hidx hdone hcap hrds hnx =>
    refine h.publish hown hc hsg hidx (.of_insert hcap fun hne => absurd hdone hne) ?_ hrds hnx
    intro d hd
    rw [hcap, Finmap.lookup_insert] at hd
    cases hd
    exact hdone
  | reclaim hidx hcap hrds hnx =>
    obtain ⟨gone, hgone, -⟩ := IndexState.reclaim_evicts h.keyed hidx
    exact h.of_from hown (.of_eq hcap) (.of_subset fun _ => hgone.subset) (.of_eq hrds) hnx
  | evict _ hidx hcap hpins hnx =>
    obtain ⟨gone, hgone, -⟩ := IndexState.evictForIntegrity_evicts hidx
    exact h.of_from hown (.of_eq hcap) (.of_subset fun _ => hgone.subset) hpins.readersFrom hnx.ge
  | touch _ hidx hcap hrds hnx =>
    exact h.of_from hown (.of_eq hcap) (.of_update hidx fun _ => rfl) (.of_eq hrds) hnx.ge
  | hit hfd hpin hcap hrds hnx =>
    obtain ⟨hmem, hidx⟩ := IndexState.longestPrefix_eq_some hfd
    exact h.hit hown hmem hidx hpin hcap hrds hnx
  | drop _ hidx hcap hrds hnx =>
    refine h.of_from hown (.of_eq hcap) (.of_update hidx fun _ => rfl) ?_ hnx.ge
    intro r new hnew
    exact ⟨new, Table.lookup_of_erase (hrds ▸ hnew), rfl⟩

end Traced

/-! ### Counting readers -/

theorem readerCount_insert (hnew : r ∉ s.readers) (h : t.readers = s.readers.insert r rd) :
    t.readerCount k = (if rd.capture = k then 1 else 0) + s.readerCount k := by
  rw [Sys.readerCount, h]
  exact Table.total_insert _ _ hnew

theorem readerCount_erase (k : ℕ)
    (hr : s.readers.lookup r = some rd) (h : t.readers = s.readers.erase r) :
    s.readerCount k = (if rd.capture = k then 1 else 0) + t.readerCount k := by
  rw [Sys.readerCount, Sys.readerCount, h]
  exact Table.total_erase (fun _ rd => if rd.capture = k then 1 else 0) hr

theorem SamePins.readerCount_eq (h : SamePins s t) (k : ℕ) : t.readerCount k = s.readerCount k := by
  rcases h with h | ⟨r, old, new, hold, hpin, h⟩
  · rw [Sys.readerCount, h, Sys.readerCount]
  · have hrep := Table.total_replace
      (fun _ (rd : RecordReader) => if rd.capture = k then 1 else 0) new hold
    rw [(pin_eq hpin).2.2] at hrep
    rw [Sys.readerCount, h, Sys.readerCount]
    omega

theorem readerCount_pos :
    0 < s.readerCount k ↔ ∃ r rd, s.readers.lookup r = some rd ∧ rd.capture = k := by
  constructor
  · intro hpos
    by_contra hno
    push Not at hno
    have hle : s.readerCount k ≤ s.readers.size * 0 :=
      Table.total_le_size_mul _ fun r rd hr => (if_neg (hno r rd hr)).le
    omega
  · rintro ⟨r, rd, hr, rfl⟩
    have hle := Table.le_total
      (fun _ (other : RecordReader) => if other.capture = rd.capture then 1 else 0) hr
    simp only [if_true] at hle
    exact hle

namespace Counted

section

variable (h : Counted s)
include h

/-- Records that are old ones with the pins they had, and readers as they were. -/
theorem of_from (hrcs : ∀ b ∈ t.index.records, ∃ a ∈ s.index.records,
      b.activeReaders = a.activeReaders ∧ b.capture = a.capture)
    (hcnt : ∀ k, t.readerCount k = s.readerCount k) : Counted t := by
  intro b hb
  obtain ⟨a, ha, hact, hcpt⟩ := hrcs b hb
  rw [hact, hcpt, hcnt]
  exact h a ha

theorem of_subset (hrcs : ∀ b ∈ t.index.records, b ∈ s.index.records)
    (hpins : SamePins s t) : Counted t :=
  h.of_from (fun b hb => ⟨b, hrcs b hb, rfl, rfl⟩) hpins.readerCount_eq

theorem hit (htrc : Traced s) (hmem : rcd ∈ s.index.records)
    (hidx : t.index = s.index.update rcd.hash fun rcd =>
      { rcd with activeReaders := rcd.activeReaders + 1, lastUsed := now })
    (hcpt : rd.capture = rcd.capture)
    (hrds : t.readers = s.readers.insert s.next rd) : Counted t := by
  have hnew : s.next ∉ s.readers := by
    intro hin
    obtain ⟨old, hold⟩ := Finmap.mem_iff.mp hin
    exact lt_irrefl _ (htrc.readerNumber _ old hold)
  intro b hb
  rw [hidx, IndexState.records_update] at hb
  obtain ⟨a, ha, rfl⟩ := mem_mapKey.mp hb
  have hact := h a ha
  split_ifs with hhash
  · obtain rfl := htrc.keyed.eq_of_key ha hmem hhash
    rw [readerCount_insert hnew hrds, if_pos hcpt]
    simp only
    omega
  · have hne : rd.capture ≠ a.capture := by
      intro heq
      exact hhash (congrArg RecordMeta.hash (htrc.distinct a ha rcd hmem (by rw [← heq, hcpt])))
    rw [readerCount_insert hnew hrds, if_neg hne]
    omega

theorem drop (htrc : Traced s) (hr : s.readers.lookup r = some rd)
    (hidx : t.index = s.index.releaseReader rd.header.keyHash)
    (hrds : t.readers = s.readers.erase r) (hrig : ¬MisdirectedDrop s (.dropReader r)) :
    Counted t := by
  intro b hb
  rw [hidx, IndexState.releaseReader, IndexState.records_update] at hb
  obtain ⟨a, ha, rfl⟩ := mem_mapKey.mp hb
  have hact := h a ha
  have hcnt := readerCount_erase a.capture hr hrds
  split_ifs with hhash
  · simp only
    by_cases hsame : rd.capture = a.capture
    · rw [if_pos hsame] at hcnt
      omega
    · -- Another rcd of the hash: nothing may be taken off.
      have hzero : ¬0 < a.activeReaders := fun hpos =>
        hrig ⟨r, rd, a, rfl, hr, ha, hhash, Ne.symm hsame, hpos⟩
      rw [if_neg hsame] at hcnt
      omega
  · have hne : rd.capture ≠ a.capture := by
      intro heq
      exact hhash (congrArg RecordHeader.keyHash (htrc.pinned a ha r rd hr heq)).symm
    rw [if_neg hne] at hcnt
    omega

/-- STEP: a shift that is no misdirected drop keeps the counts. -/
theorem shift (htrc : Traced s) (hrig : ¬MisdirectedDrop s lab)
    (hshf : Shift cfg s t lab) : Counted t := by
  cases hshf with
  | same hidx _ hpins _ => exact h.of_subset (by simp [hidx]) hpins
  | opened _ _ _ hidx _ hrds _ | staged _ _ _ hidx _ hrds _
  | closed _ _ hidx _ hrds _ => exact h.of_subset (by simp [hidx]) (.inl hrds)
  | reserve _ _ _ hidx _ hrds _ =>
    exact h.of_subset (by simp [hidx, IndexState.reserve]) (.inl hrds)
  | enforce _ _ hidx _ hrds _ =>
    obtain ⟨gone, hgone, -⟩ := IndexState.enforce_evicts htrc.keyed le_rfl hidx
    exact h.of_subset (fun _ => hgone.subset) (.inl hrds)
  | release _ _ hidx _ hrds _ =>
    refine h.of_subset ?_ (.inl hrds)
    rcases hidx with hidx | hidx <;>
      simp [hidx, IndexState.unreserve, IndexState.cancelReservation]
  | @publish n c job now _ hc hsg _ hidx _ _ hrds _ =>
    have hsame : ∀ k, t.readerCount k = s.readerCount k :=
      SamePins.readerCount_eq (.inl hrds)
    intro b hb
    rw [hidx] at hb
    rcases IndexState.mem_publish.mp hb with rfl | ⟨hb, -⟩
    · have hno : ¬0 < s.readerCount n := by
        intro hpos
        obtain ⟨r, rd, hr, hcpt⟩ := readerCount_pos.mp hpos
        exact (htrc.unpublished n c hc (by simp [hsg])).2 r rd hr hcpt
      rw [hsame]
      exact (Nat.eq_zero_of_not_pos hno).symm
    · rw [hsame]
      exact h b hb
  | reclaim hidx _ hrds _ =>
    obtain ⟨gone, hgone, -⟩ := IndexState.reclaim_evicts htrc.keyed hidx
    exact h.of_subset (fun _ => hgone.subset) (.inl hrds)
  | evict _ hidx _ hpins _ =>
    obtain ⟨gone, hgone, -⟩ := IndexState.evictForIntegrity_evicts hidx
    exact h.of_subset (fun _ => hgone.subset) hpins
  | touch _ hidx _ hrds _ =>
    refine h.of_from (fun b hb => ?_) (SamePins.readerCount_eq (.inl hrds))
    rw [hidx, IndexState.touch, IndexState.records_update] at hb
    obtain ⟨a, ha, rfl⟩ := mem_mapKey.mp hb
    refine ⟨a, ha, ?_⟩
    split_ifs <;> exact ⟨rfl, rfl⟩
  | hit hfd hpin _ hrds _ =>
    obtain ⟨hmem, hidx⟩ := IndexState.longestPrefix_eq_some hfd
    exact h.hit htrc hmem hidx (congrArg (fun p => p.2.2) hpin) hrds
  | drop hr hidx _ hrds _ => exact h.drop htrc hr hidx hrds hrig

/-- A misdirected drop breaks the count it takes from. -/
theorem not_of_misdirected
    (hwro : MisdirectedDrop s lab) (hmv : Moves crc cfg s lab t o) : ¬Counted t := by
  obtain ⟨r, rd, rcd, rfl, hr, hmem, hhash, hne, hpos⟩ := hwro
  obtain ⟨rd', hr', hidx, hrds⟩ : ∃ rd, s.readers.lookup r = some rd ∧
      t.index = s.index.releaseReader rd.header.keyHash ∧ t.readers = s.readers.erase r := by
    cases hmv with
    | dropReader hr => exact ⟨_, hr, rfl, rfl⟩
    | unprepared _ _ hlb => rcases hlb with hlb | ⟨_, hlb⟩ <;> cases hlb
  obtain rfl : rd' = rd := Option.some.inj (hr'.symm.trans hr)
  intro haft
  have hin : { rcd with activeReaders := rcd.activeReaders - 1 } ∈ t.index.records := by
    rw [hidx, IndexState.releaseReader, IndexState.records_update]
    exact mem_mapKey.mpr ⟨rcd, hmem, by rw [if_pos hhash]⟩
  have hbef := h rcd hmem
  have hnow := haft _ hin
  have hcnt := readerCount_erase rcd.capture hr hrds
  rw [if_neg (Ne.symm hne)] at hcnt
  simp only at hnow
  omega

end

end Counted

end Steps

/-! ### Runs -/

/-- A store as `open` leaves it: records without readers, and nothing under way. -/
structure Started (s : Sys) : Prop where
  keyed : s.index.Keyed
  unreserved : s.index.reservedHashes = ∅
  captures : s.captures = ∅
  readers : s.readers = ∅
  below : ∀ record ∈ s.index.records, record.capture < s.next
  distinct : ∀ a ∈ s.index.records, ∀ b ∈ s.index.records, a.capture = b.capture → a = b
  idle : ∀ record ∈ s.index.records, record.activeReaders = 0

theorem Started.owned (h : Started s) : Owned s := .of_idle h.keyed h.unreserved h.captures

theorem Started.traced (h : Started s) : Traced s :=
  ⟨h.owned, h.below, by simp [h.readers], by simp [h.readers], h.distinct, by simp [h.captures],
    by simp [h.readers]⟩

theorem Started.counted (h : Started s) : Counted s := by
  intro rcd hmem
  rw [h.idle rcd hmem, Sys.readerCount, h.readers]
  rfl

section Runs

variable {s₀ : Sys} {tr : List (Sys × Label × Output)}

def Evicting (label : Label) : Prop := (∃ n, label = .enforce n) ∨ ∃ now, label = .reclaim now

/-- Where the counts are right, capacity and age evict no record that is being read. -/
theorem Counted.evicting_keeps (h : Counted s) (hkey : s.index.Keyed)
    (hmv : Moves crc cfg s lab t o) (hevi : Evicting lab) (hmem : rcd ∈ s.index.records)
    (hread : ∃ r rd, s.readers.lookup r = some rd ∧ rd.capture = rcd.capture) :
    rcd ∈ t.index.records := by
  have hact : rcd.activeReaders ≠ 0 := by
    rw [h rcd hmem]
    exact (readerCount_pos.mpr hread).ne'
  obtain ⟨gone, hgone, hidle⟩ : ∃ gone, s.index.Evicts gone t.index ∧
      ∀ rcd ∈ gone, rcd.activeReaders = 0 := by
    rcases hevi with ⟨n, rfl⟩ | ⟨now, rfl⟩
    · cases hmv with
      | enforce _ _ henf =>
        obtain ⟨gone, hgone, -, hidle, -⟩ := IndexState.enforce_evicts hkey le_rfl henf
        exact ⟨gone, hgone, hidle⟩
      | unprepared _ _ hlb => rcases hlb with hlb | ⟨_, hlb⟩ <;> cases hlb
    · cases hmv with
      | reclaim hrec =>
        obtain ⟨gone, hgone, -, hidle⟩ := IndexState.reclaim_evicts hkey hrec
        exact ⟨gone, hgone, hidle⟩
      | unprepared _ _ hlb => rcases hlb with hlb | ⟨_, hlb⟩ <;> cases hlb
  exact (hgone.mem_iff hkey).mpr ⟨hmem, fun hin => hact (hidle rcd hin)⟩

/-- PINNED: the counts are right in every state of a run exactly if no reader is dropped against a
    later record of its key hash that is being read, and then no eviction for capacity or age takes
    a record one of whose readers is alive. -/
theorem pins_counted_iff (hrun : Run (step crc cfg) s₀ tr s) (h0 : Started s₀) :
    (((∀ e ∈ tr, Counted e.1) ∧ Counted s) ↔ ∀ e ∈ tr, ¬MisdirectedDrop e.1 e.2.1) ∧
      ((∀ e ∈ tr, ¬MisdirectedDrop e.1 e.2.1) →
        ∀ e ∈ tr, ∀ t, step crc cfg e.1 e.2.1 = some (t, e.2.2) → Evicting e.2.1 →
          ∀ record ∈ e.1.index.records,
            (∃ r reader, e.1.readers.lookup r = some reader ∧ reader.capture = record.capture) →
              record ∈ t.index.records) := by
  have hkeep : ∀ s lab t o, Traced s ∧ Counted s → ¬MisdirectedDrop s lab →
      step crc cfg s lab = some (t, o) → Traced t ∧ Counted t := by
    rintro s lab t o ⟨htrc, hcou⟩ hrig hst
    have hshf := (step_moves hst).shift
    exact ⟨htrc.shift hshf, hcou.shift htrc hrig hshf⟩
  have hall : (∀ e ∈ tr, ¬MisdirectedDrop e.1 e.2.1) → ∀ e ∈ tr, Traced e.1 ∧ Counted e.1 :=
    fun hrig e he =>
      (hrun.step_of (fun s lab => ¬MisdirectedDrop s lab) (fun s => Traced s ∧ Counted s)
        ⟨h0.traced, h0.counted⟩ hrig hkeep e he).1
  refine ⟨⟨?_, ?_⟩, ?_⟩
  · rintro ⟨hsta, hlast⟩ e he hwro
    obtain ⟨t, hst, haft⟩ := hrun.after_of_states Counted hsta hlast e he
    exact (hsta e he).not_of_misdirected hwro (step_moves hst) haft
  · intro hrig
    exact ⟨fun e he => (hall hrig e he).2,
      (hrun.invariant_of (fun s lab => ¬MisdirectedDrop s lab)
        (fun s => Traced s ∧ Counted s) ⟨h0.traced, h0.counted⟩ hrig hkeep).2⟩
  · intro hrig e he t hst hevi record hmem hread
    obtain ⟨htrc, hcou⟩ := hall hrig e he
    exact hcou.evicting_keeps htrc.keyed (step_moves hst) hevi hmem hread

end Runs

/-! ### Two runs -/

/-- A capture of one token from its permit to its index entry; the writer is granted at once. -/
def captureNow (n now : ℕ) (token : UInt32) : List Label :=
  [.beginCapture zeroFingerprint [token] (oneRegion 5)] ++ grant n ++
    [.commit n, .persist n .renamed, .publish n now, .promote n, .close n]

/-- A record is captured, read by one reader that is alive, and not taken by expiry. -/
theorem pins_counted_iff_alive : ∃ tr s, Run (step (fun _ => 0) (storeOf 40000 (by decide)))
    {} tr s ∧ tr.length = 12 ∧ s.index.records.map (·.activeReaders) = [1] ∧ Counted s := by
  obtain ⟨tr, s, hrun, hlen, hact, hdro⟩ := Run.exists_of_exec
    (step (fun _ => 0) (storeOf 40000 (by decide))) {}
    (captureNow 0 7 1 ++ [.lookup zeroFingerprint [1] 1 8, .reclaim 100])
    (fun tr s => tr.length = 12 ∧ s.index.records.map (·.activeReaders) = [1] ∧
      ∀ e ∈ tr, e.2.1.reader = none) (by decide +kernel)
  have h0 : Started {} := ⟨List.nodup_nil, rfl, rfl, rfl, by simp, by simp, by simp⟩
  refine ⟨tr, s, hrun, hlen, hact, ?_⟩
  refine ((pins_counted_iff hrun h0).1.mpr ?_).2
  rintro e he ⟨r, rd, rcd, hlb, -⟩
  have hno := hdro e he
  rw [hlb] at hno
  cases hno

/-- Whether the last reader's pin is off its record, so that expiry takes the record. -/
def pinLost (s : Sys) : Bool :=
  (s.readers.lookup 3).any fun reader => s.index.records.length = 1 ∧
    (∀ record ∈ s.index.records, reader.capture = record.capture ∧ record.activeReaders = 0 ∧
      s.readerCount record.capture = 1) ∧
    (exec (step (fun _ => 0) (storeOf 40000 (by decide))) s [.reclaim 100]).any fun r =>
      r.2.index.records = [] ∧ r.2.readers.lookup 3 = some reader

/-- The first reader's load fails and its record is evicted for integrity; the key is captured again
    and read by a second reader. Dropping the first reader takes the second one's pin, and expiry
    then evicts the record it is reading. -/
theorem pins_lost : ∃ tr s tr' t record reader, Run (step (fun _ => 0) (storeOf 40000 (by decide)))
    {} tr s ∧ s.index.records = [record] ∧ s.readers.lookup 3 = some reader ∧
    reader.capture = record.capture ∧ record.activeReaders = 0 ∧ s.readerCount record.capture = 1 ∧
    Run (step (fun _ => 0) (storeOf 40000 (by decide))) s tr' t ∧ t.index.records = [] ∧
    t.readers.lookup 3 = some reader := by
  obtain ⟨tr, s, hrun, hchk⟩ := Run.exists_of_exec
    (step (fun _ => 0) (storeOf 40000 (by decide))) {}
    (captureNow 0 7 1 ++ [.lookup zeroFingerprint [1] 1 8, .load 1, .readStep 1 false, .evict 1,
      .sweepReader 1, .sweepReader 1, .sweepReader 1] ++ captureNow 2 9 1 ++
    [.lookup zeroFingerprint [1] 1 10, .dropReader 1]) (fun _ s => pinLost s) (by decide +kernel)
  obtain ⟨reader, hrdr, hsta⟩ := Option.any_eq_true _ _ |>.mp hchk
  obtain ⟨hone, hrec, hnx⟩ := of_decide_eq_true hsta
  obtain ⟨record, hrcs⟩ := List.length_eq_one_iff.mp hone
  obtain ⟨hcpt, hact, hcnt⟩ := hrec record (by simp [hrcs])
  obtain ⟨⟨tr', t⟩, hexec, hlast⟩ := Option.any_eq_true _ _ |>.mp hnx
  obtain ⟨hgone, hali⟩ := of_decide_eq_true hlast
  exact ⟨tr, s, tr', t, record, reader, hrun, hrcs, hrdr, hcpt, hact, hcnt,
    (Run.of_exec hexec).1, hgone, hali⟩

end LetsInfer.PrefixStore
