import LetsInfer.Schemes.Keyed
import LetsInfer.PrefixStore.Index

/-! @src cache/letsinfer_prefix_store/src/store.rs | name:What the sections do to the records | scheme:store

    One specification per section of the index. The index is a map, so there is one record per hash;
    under that the three evictions are one operation, removing a list of indexed records one after
    the other, and they differ only in which records they choose. -/

namespace LetsInfer.PrefixStore
open Schemes List

def RecordMeta.rank (record : RecordMeta) : ℕ ×ₗ ℕ := toLex (record.lastUsed, record.hash.toNat)

theorem RecordMeta.before_iff {a b : RecordMeta} : a.before b = true ↔ a.rank < b.rank := by
  rw [RecordMeta.before, decide_eq_true_eq, UInt64.lt_iff_toNat_lt]
  exact (Prod.Lex.lt_iff (x := a.rank) (y := b.rank)).symm

variable {rs order : List RecordMeta} {vs : List Path} {now : ℕ}

namespace IndexState

variable {idx idx' : IndexState} {rcd other : RecordMeta} {hash : UInt64}

def Keyed (index : IndexState) : Prop := DistinctKeys RecordMeta.hash index.records

theorem Keyed.get_eq_some (hk : idx.Keyed) :
    idx.get hash = some rcd ↔ rcd ∈ idx.records ∧ rcd.hash = hash :=
  hk.find?_eq_some

theorem get_eq_none : idx.get hash = none ↔ ∀ other ∈ idx.records, other.hash ≠ hash :=
  find?_key_eq_none

/-! ### Removing records -/

def removeAll (index : IndexState) (gone : List RecordMeta) : IndexState :=
  gone.foldl IndexState.remove index

@[simp] theorem removeAll_nil (idx : IndexState) : idx.removeAll [] = idx := rfl

@[simp] theorem removeAll_cons (idx : IndexState) (rcd : RecordMeta) (gone : List RecordMeta) :
    idx.removeAll (rcd :: gone) = (idx.remove rcd).removeAll gone := rfl

theorem records_remove (idx : IndexState) (rcd : RecordMeta) :
    (idx.remove rcd).records = dropKeys RecordMeta.hash [rcd.hash] idx.records := by
  simp [remove, dropKeys]

theorem records_removeAll (idx : IndexState) (gone : List RecordMeta) :
    (idx.removeAll gone).records =
      dropKeys RecordMeta.hash (gone.map RecordMeta.hash) idx.records := by
  induction gone generalizing idx with
  | nil => simp
  | cons rcd gone ih =>
    rw [removeAll_cons, ih, records_remove, map_cons, ← dropKeys_cons]

theorem reserved_removeAll (idx : IndexState) (gone : List RecordMeta) :
    (idx.removeAll gone).reservedBytes = idx.reservedBytes ∧
      (idx.removeAll gone).reservedHashes = idx.reservedHashes := by
  induction gone generalizing idx with
  | nil => exact ⟨rfl, rfl⟩
  | cons rcd gone ih => exact ih (idx.remove rcd)

/-- What every eviction does: it removes records that are indexed, each once. -/
structure Evicts (index : IndexState) (gone : List RecordMeta) (index' : IndexState) : Prop where
  result : index' = index.removeAll gone
  indexed : ∀ record ∈ gone, record ∈ index.records
  distinct : DistinctKeys RecordMeta.hash gone

namespace Evicts

variable {gone : List RecordMeta}

theorem refl (idx : IndexState) : Evicts idx [] idx :=
  ⟨rfl, by simp, nodup_nil⟩

theorem cons (hmem : rcd ∈ idx.records) (h : Evicts (idx.remove rcd) gone idx') :
    Evicts idx (rcd :: gone) idx' := by
  have hkept : ∀ other ∈ gone, other ∈ idx.records ∧ other.hash ∉ [rcd.hash] := by
    intro other hoth
    exact mem_dropKeys.mp (records_remove idx rcd ▸ h.indexed other hoth)
  refine ⟨h.result, ?_, ?_⟩
  · intro other hoth
    rcases mem_cons.mp hoth with rfl | hoth
    · exact hmem
    · exact (hkept other hoth).1
  · refine nodup_cons.mpr ⟨?_, h.distinct⟩
    intro hin
    obtain ⟨other, hoth, heq⟩ := mem_map.mp hin
    exact (hkept other hoth).2 (by simp [heq])

theorem uncons (h : Evicts idx (rcd :: gone) idx') : Evicts (idx.remove rcd) gone idx' := by
  obtain ⟨hnew, hdis⟩ := nodup_cons.mp h.distinct
  refine ⟨h.result, ?_, hdis⟩
  intro other hoth
  rw [records_remove, mem_dropKeys, mem_singleton]
  refine ⟨h.indexed other (mem_cons_of_mem _ hoth), fun heq => hnew ?_⟩
  exact heq ▸ mem_map_of_mem hoth

section

variable (h : Evicts idx gone idx')
include h

theorem keyed (hk : idx.Keyed) : idx'.Keyed := by
  rw [Keyed, h.result, records_removeAll]
  exact hk.dropKeys

theorem subset (hmem : rcd ∈ idx'.records) : rcd ∈ idx.records := by
  rw [h.result, records_removeAll] at hmem
  exact (mem_dropKeys.mp hmem).1

/-- Exactly the records of the list are gone. -/
theorem mem_iff (hk : idx.Keyed) : rcd ∈ idx'.records ↔ rcd ∈ idx.records ∧ rcd ∉ gone := by
  rw [h.result, records_removeAll, mem_dropKeys]
  refine and_congr_right fun hmem => not_congr ⟨?_, mem_map_of_mem⟩
  intro hin
  obtain ⟨other, hoth, heq⟩ := mem_map.mp hin
  rwa [← hk.eq_of_key (h.indexed other hoth) hmem heq]

end

end Evicts

/-! ### The evictions -/

theorem oldestInactive_eq_some (h : oldestInactive rs = some rcd) :
    rcd ∈ rs ∧ rcd.activeReaders = 0 := by
  induction rs generalizing rcd with
  | nil => cases h
  | cons first rs ih =>
    rw [oldestInactive] at h
    split at h
    · split_ifs at h with hfst
      cases h
      exact ⟨mem_cons_self, hfst⟩
    · rename_i best hbest
      split_ifs at h with hfst
      · cases h
        exact ⟨mem_cons_self, hfst.1⟩
      · cases h
        exact ⟨mem_cons_of_mem _ (ih hbest).1, (ih hbest).2⟩

theorem oldestInactive_eq_none (h : oldestInactive rs = none) :
    ∀ rcd ∈ rs, rcd.activeReaders ≠ 0 := by
  induction rs with
  | nil => simp
  | cons first rs ih =>
    rw [oldestInactive] at h
    split at h
    · rename_i hrest
      split_ifs at h with hfst
      simpa using ⟨hfst, ih hrest⟩
    · split_ifs at h

def inactive (index : IndexState) : List RecordMeta :=
  index.records.filter fun record => record.activeReaders = 0

theorem mem_inactive : rcd ∈ idx.inactive ↔ rcd ∈ idx.records ∧ rcd.activeReaders = 0 := by
  simp [inactive]

theorem oldestInactive_least (h : oldestInactive rs = some rcd) :
    ∀ other ∈ rs, other.activeReaders = 0 → rcd.rank ≤ other.rank := by
  induction rs generalizing rcd with
  | nil => cases h
  | cons first rs ih =>
    rw [oldestInactive] at h
    split at h
    · rename_i hrest
      split_ifs at h
      cases h
      intro other hoth hidle
      rcases mem_cons.mp hoth with rfl | hoth
      · exact le_rfl
      · exact absurd hidle (oldestInactive_eq_none hrest other hoth)
    · rename_i best hbest
      have hlea := ih hbest
      simp only [RecordMeta.before_iff] at h
      split_ifs at h with hfst
      · cases h
        intro other hoth hidle
        rcases mem_cons.mp hoth with rfl | hoth
        · exact le_rfl
        · exact (not_lt.mp hfst.2).trans (hlea other hoth hidle)
      · cases h
        intro other hoth hidle
        rcases mem_cons.mp hoth with rfl | hoth
        · exact le_of_lt (not_not.mp fun hnot => hfst ⟨hidle, hnot⟩)
        · exact hlea other hoth hidle

structure EvictionOrder (index : IndexState) (order : List RecordMeta) : Prop where
  perm : order.Perm index.inactive
  sorted : order.Pairwise fun a b => a.rank < b.rank

theorem EvictionOrder.mem_iff (h : EvictionOrder idx order) :
    rcd ∈ order ↔ rcd ∈ idx.records ∧ rcd.activeReaders = 0 :=
  h.perm.mem_iff.trans mem_inactive

theorem Keyed.exists_evictionOrder (hk : idx.Keyed) : ∃ order, EvictionOrder idx order := by
  let le : RecordMeta → RecordMeta → Prop := fun a b => a.rank ≤ b.rank
  have htot : Std.Total le := ⟨fun a b => le_total a.rank b.rank⟩
  have htra : IsTrans RecordMeta le := ⟨fun _ _ _ => le_trans⟩
  have hperm := perm_insertionSort le idx.inactive
  have hdis : (idx.inactive.insertionSort le).Pairwise fun a b => a.hash ≠ b.hash := by
    have hnd : (idx.inactive.map RecordMeta.hash).Nodup :=
      hk.sublist (filter_sublist.map _)
    exact pairwise_map.mp ((hperm.map _).nodup_iff.mpr hnd)
  refine ⟨_, hperm, ((pairwise_insertionSort le idx.inactive).and hdis).imp ?_⟩
  rintro a b ⟨hle, hne⟩
  refine lt_of_le_of_ne hle fun heq => hne ?_
  exact UInt64.toNat_inj.mp (congrArg (fun rank => (ofLex rank).2) heq)

/-- The oldest is the first, and the others are those left when it is removed. -/
theorem EvictionOrder.uncons {first : RecordMeta} {rest : List RecordMeta} (hk : idx.Keyed)
    (h : EvictionOrder idx (first :: rest)) :
    oldestInactive idx.records = some first ∧ EvictionOrder (idx.remove first) rest := by
  obtain ⟨hbef, hsor⟩ := pairwise_cons.mp h.sorted
  obtain ⟨hfst, hidle⟩ := h.mem_iff.mp mem_cons_self
  refine ⟨?_, ?_, hsor⟩
  · cases hold : oldestInactive idx.records with
    | none => exact absurd hidle (oldestInactive_eq_none hold first hfst)
    | some victim =>
      rcases mem_cons.mp (h.mem_iff.mpr (oldestInactive_eq_some hold)) with rfl | hrest
      · rfl
      · have hle := oldestInactive_least hold first hfst hidle
        exact absurd (hbef victim hrest) (not_lt.mpr hle)
  · have hkept : ∀ other ∈ rest, decide (other.hash ≠ first.hash) = true := by
      intro other hoth
      refine decide_eq_true fun heq => ?_
      have hmem := (h.mem_iff.mp (mem_cons_of_mem _ hoth)).1
      have hlt := hbef other hoth
      rw [hk.eq_of_key hmem hfst heq] at hlt
      exact lt_irrefl _ hlt
    have hperm := h.perm.filter fun other => decide (other.hash ≠ first.hash)
    rw [filter_cons_of_neg (by simp), filter_eq_self.mpr hkept, inactive, filter_comm] at hperm
    exact hperm

/-- The sum a round of the enforcement compares with the capacity. -/
def usedFor (index : IndexState) (incoming : ℕ) : ℕ :=
  addWord (addWord index.committedBytes index.reservedBytes) incoming

/-- A round of the enforcement would stop here. -/
def Fits (capacity incoming : ℕ) (index : IndexState) : Prop :=
  index.usedFor incoming ≤ capacity ∨ capacity = 0

/-- ENFORCE: capacity enforcement removes the shortest front part of the eviction order after which
    the rest fits; all of it when nothing does. -/
theorem enforce_shortest (cap incoming : ℕ) (hk : idx.Keyed) (hord : EvictionOrder idx order) :
    ∃ k ≤ order.length, ∃ exh, (∀ fuel, idx.records.length ≤ fuel →
        enforce cap incoming fuel idx =
          (idx.removeAll (order.take k), (order.take k).map (·.path), exh)) ∧
      (∀ j < k, ¬Fits cap incoming (idx.removeAll (order.take j))) ∧
      (exh = false → Fits cap incoming (idx.removeAll (order.take k))) ∧
      (exh = true → k = order.length ∧ ¬Fits cap incoming (idx.removeAll (order.take k))) := by
  induction order generalizing idx with
  | nil =>
    have hno : oldestInactive idx.records = none := by
      by_contra hsome
      obtain ⟨victim, hvic⟩ := Option.ne_none_iff_exists'.mp hsome
      simpa using hord.mem_iff.mpr (oldestInactive_eq_some hvic)
    refine ⟨0, le_rfl, ?_⟩
    by_cases hfits : Fits cap incoming idx
    · refine ⟨false, fun fuel _ => ?_, by simp, fun _ => hfits, by simp⟩
      unfold enforce
      exact if_pos hfits
    · refine ⟨true, fun fuel _ => ?_, by simp, by simp, fun _ => ⟨rfl, hfits⟩⟩
      unfold enforce
      refine (if_neg hfits).trans ?_
      rw [hno]
      cases fuel <;> rfl
  | cons first rest ih =>
    by_cases hfits : Fits cap incoming idx
    · refine ⟨0, Nat.zero_le _, false, fun fuel _ => ?_, by simp, fun _ => hfits, by simp⟩
      unfold enforce
      exact if_pos hfits
    · obtain ⟨hold, hrest⟩ := hord.uncons hk
      have hmem := (hord.mem_iff.mp mem_cons_self).1
      have hlt : (idx.remove first).records.length < idx.records.length := by
        rw [records_remove, dropKeys]
        exact length_filter_lt_length_iff_exists.mpr ⟨first, hmem, by simp⟩
      have hkept : (idx.remove first).Keyed := ((Evicts.refl _).cons hmem).keyed hk
      obtain ⟨k, hk', exh, heq, hbef, hok, hfull⟩ := ih hkept hrest
      refine ⟨k + 1, Nat.succ_le_succ hk', exh, ?_, ?_, hok, ?_⟩
      · rintro (_ | fuel) hfuel
        · omega
        · unfold enforce
          refine (if_neg hfits).trans ?_
          simp only [hold, heq fuel (by omega), take_succ_cons, removeAll_cons, map_cons]
      · rintro (_ | j) hj
        · exact hfits
        · exact hbef j (Nat.lt_of_succ_lt_succ hj)
      · intro hexh
        exact ⟨congrArg _ (hfull hexh).1, (hfull hexh).2⟩

/-- What capacity enforcement takes has no readers; it stops when the rest fits or only pinned
    records are left. -/
theorem enforce_evicts {cap incoming fuel : ℕ} {exh : Bool} (hk : idx.Keyed)
    (hfuel : idx.records.length ≤ fuel) (h : enforce cap incoming fuel idx = (idx', vs, exh)) :
    ∃ gone, Evicts idx gone idx' ∧ vs = gone.map (·.path) ∧ (∀ rcd ∈ gone, rcd.activeReaders = 0) ∧
      (exh = false → idx'.usedFor incoming ≤ cap ∨ cap = 0) ∧
      (exh = true → ¬idx'.usedFor incoming ≤ cap ∧
        ∀ rcd ∈ idx'.records, rcd.activeReaders ≠ 0) := by
  obtain ⟨order, hord⟩ := hk.exists_evictionOrder
  obtain ⟨k, -, _, heq, -, hok, hfull⟩ := enforce_shortest cap incoming hk hord
  cases (heq fuel hfuel).symm.trans h
  have hmem : ∀ rcd ∈ order.take k, rcd ∈ idx.records ∧ rcd.activeReaders = 0 :=
    fun rcd hin => hord.mem_iff.mp (mem_of_mem_take hin)
  have hgone : Evicts idx (order.take k) (idx.removeAll (order.take k)) := by
    refine ⟨rfl, fun rcd hin => (hmem rcd hin).1, ?_⟩
    have hnd : DistinctKeys RecordMeta.hash idx.inactive :=
      hk.sublist (filter_sublist.map _)
    exact (((hord.perm.map _).nodup_iff.mpr hnd)).sublist ((take_sublist _ _).map _)
  refine ⟨_, hgone, rfl, fun rcd hin => (hmem rcd hin).2, hok, fun hexh => ?_⟩
  obtain ⟨rfl, hnot⟩ := hfull hexh
  refine ⟨fun hle => hnot (.inl hle), fun rcd hin hidle => ?_⟩
  obtain ⟨hold, hout⟩ := (hgone.mem_iff hk).mp hin
  exact hout (by rw [take_length]; exact hord.mem_iff.mpr ⟨hold, hidle⟩)

/-- RECLAIM: expiry evicts the expired records, none of which has a reader. -/
theorem reclaim_evicts {ttl : ℕ} (hk : idx.Keyed) (h : idx.reclaim ttl now = (idx', vs)) :
    ∃ gone, Evicts idx gone idx' ∧ vs = gone.map (·.path) ∧
      ∀ rcd ∈ gone, rcd.activeReaders = 0 := by
  cases h
  refine ⟨_, ⟨rfl, fun rcd hmem => mem_of_mem_filter hmem, ?_⟩, rfl, ?_⟩
  · exact hk.sublist (filter_sublist.map _)
  · intro rcd hmem
    have hexp := of_mem_filter hmem
    simp only [RecordMeta.isExpired, decide_eq_true_eq] at hexp
    exact hexp.1

/-- EVICT: an integrity eviction takes the record of its hash, whoever reads it. -/
theorem evictForIntegrity_evicts {victim : Option Path}
    (h : idx.evictForIntegrity hash = (idx', victim)) :
    ∃ gone, Evicts idx gone idx' ∧ victim.toList = gone.map (·.path) ∧
      idx.get hash = gone.head? ∧ gone.length ≤ 1 := by
  rw [evictForIntegrity] at h
  split at h
  · rename_i hget
    cases h
    exact ⟨[], .refl _, rfl, hget, by simp⟩
  · rename_i rcd hget
    cases h
    have hmem : rcd ∈ idx.records := mem_of_find?_eq_some hget
    exact ⟨[rcd], (Evicts.refl _).cons hmem, rfl, hget, by simp⟩

/-! ### The other sections -/

theorem records_update (idx : IndexState) (hash : UInt64) (f : RecordMeta → RecordMeta) :
    (idx.update hash f).records = mapKey RecordMeta.hash hash f idx.records := rfl

theorem Keyed.update (hk : idx.Keyed) {f : RecordMeta → RecordMeta}
    (hf : ∀ rcd, (f rcd).hash = rcd.hash) : (idx.update hash f).Keyed :=
  DistinctKeys.mapKey hk hf

/-- What a hit changes: one more reader of the record found, and its time. -/
theorem longestPrefix_eq_some {fp : Fingerprint} {ts : List UInt32} {mn : ℕ}
    (h : idx.longestPrefix fp ts mn now = some (rcd, idx')) :
    rcd ∈ idx.records ∧ idx' = idx.update rcd.hash fun rcd =>
      { rcd with activeReaders := rcd.activeReaders + 1, lastUsed := now } := by
  rw [longestPrefix] at h
  split at h
  · cases h
  · rename_i cand _
    split at h
    · cases h
    · rename_i hget
      cases h
      have hhash : rcd.hash = cand.2 := by simpa using find?_some hget
      exact ⟨mem_of_find?_eq_some hget, by rw [hhash]⟩

theorem records_publish (idx : IndexState) (rcd : RecordMeta) :
    (idx.publish rcd).1.records = rcd :: dropKeys RecordMeta.hash [rcd.hash] idx.records := by
  simp only [publish]
  split
  · rename_i hpri
    have hno : ∀ other ∈ idx.records, other.hash ∉ [rcd.hash] := by
      intro other hoth
      simpa using get_eq_none.mp hpri other hoth
    rw [dropKeys_eq_self hno]
  · simp [dropKeys]

theorem reservedHashes_publish (idx : IndexState) (rcd : RecordMeta) :
    (idx.publish rcd).1.reservedHashes = idx.reservedHashes.erase rcd.hash := by
  simp only [publish]
  split <;> rfl

theorem Keyed.publish (hk : idx.Keyed) (rcd : RecordMeta) : (idx.publish rcd).1.Keyed := by
  rw [Keyed, records_publish]
  refine nodup_cons.mpr ⟨?_, hk.dropKeys⟩
  intro hin
  obtain ⟨other, hoth, heq⟩ := mem_map.mp hin
  exact (mem_dropKeys.mp hoth).2 (by simp [heq])

theorem mem_publish :
    other ∈ (idx.publish rcd).1.records ↔
      other = rcd ∨ other ∈ idx.records ∧ other.hash ≠ rcd.hash := by
  rw [records_publish, mem_cons, mem_dropKeys, mem_singleton]

end IndexState

end LetsInfer.PrefixStore
