import Mathlib

/-! @scheme keyed | name:Lists read as maps | family:store

    A list whose entries have distinct keys is a map that keeps its entries' order. Removing keys,
    finding an entry by its key and changing the entry of a key in place keep the keys distinct; a
    weight summed over the entries moves by the entry concerned. -/

namespace Schemes
open List

variable {α κ : Type*} (key : α → κ)

def DistinctKeys (l : List α) : Prop := (l.map key).Nodup

variable {key} in
theorem DistinctKeys.eq_of_key {l : List α} {a b : α} (h : DistinctKeys key l) (ha : a ∈ l)
    (hb : b ∈ l) (hk : key a = key b) : a = b :=
  inj_on_of_nodup_map h ha hb hk

variable [DecidableEq κ]

def dropKeys (keys : List κ) (l : List α) : List α := l.filter fun a => key a ∉ keys

def mapKey (k : κ) (f : α → α) (l : List α) : List α := l.map fun a => if key a = k then f a else a

variable {key} {keys : List κ} {k : κ} {l : List α} {a b : α} {f : α → α}

/-! ### Finding -/

theorem DistinctKeys.find?_eq_some (h : DistinctKeys key l) :
    (l.find? fun a => key a = k) = some a ↔ a ∈ l ∧ key a = k := by
  constructor
  · intro hfind
    exact ⟨mem_of_find?_eq_some hfind, by simpa using find?_some hfind⟩
  · rintro ⟨hmem, rfl⟩
    cases hfind : l.find? fun b => key b = key a with
    | none => simpa using find?_eq_none.mp hfind a hmem
    | some b =>
      have hb : key b = key a := by simpa using find?_some hfind
      rw [h.eq_of_key (mem_of_find?_eq_some hfind) hmem hb]

theorem find?_key_eq_none : (l.find? fun a => key a = k) = none ↔ ∀ a ∈ l, key a ≠ k := by
  simp [find?_eq_none]

/-- In a sorted list what is found is not after any entry that would do. -/
theorem exists_find?_of_pairwise {r : α → α → Prop} {p : α → Bool} (h : l.Pairwise r) (hmem : a ∈ l)
    (hp : p a = true) : ∃ b, l.find? p = some b ∧ (b = a ∨ r b a) := by
  induction l with
  | nil => cases hmem
  | cons c l ih =>
    obtain ⟨hc, hl⟩ := pairwise_cons.mp h
    rw [find?_cons]
    cases hpc : p c with
    | true =>
      refine ⟨c, rfl, ?_⟩
      rcases mem_cons.mp hmem with rfl | hmem
      · exact .inl rfl
      · exact .inr (hc a hmem)
    | false =>
      rcases mem_cons.mp hmem with rfl | hmem
      · rw [hp] at hpc
        cases hpc
      · exact ih hl hmem

/-! ### Dropping -/

theorem mem_dropKeys : a ∈ dropKeys key keys l ↔ a ∈ l ∧ key a ∉ keys := by
  simp [dropKeys]

@[simp] theorem dropKeys_nil : dropKeys key [] l = l := by
  simp [dropKeys]

theorem dropKeys_cons : dropKeys key (k :: keys) l = dropKeys key keys (dropKeys key [k] l) := by
  rw [dropKeys, dropKeys, dropKeys, filter_filter]
  refine filter_congr fun a _ => ?_
  by_cases h : key a = k <;> simp [h]

theorem dropKeys_eq_self (h : ∀ a ∈ l, key a ∉ keys) : dropKeys key keys l = l :=
  filter_eq_self.mpr fun a ha => decide_eq_true (h a ha)

theorem DistinctKeys.dropKeys (h : DistinctKeys key l) : DistinctKeys key (dropKeys key keys l) :=
  h.sublist (filter_sublist.map _)

/-- A weight drops by that of the entry removed. -/
theorem DistinctKeys.sum_dropKeys (h : DistinctKeys key l) (hmem : a ∈ l) (w : α → ℕ) :
    (l.map w).sum = w a + ((Schemes.dropKeys key [key a] l).map w).sum := by
  induction l with
  | nil => cases hmem
  | cons b l ih =>
    obtain ⟨hb, hl⟩ := nodup_cons.mp h
    rcases mem_cons.mp hmem with rfl | hmem
    · have hrest : Schemes.dropKeys key [key a] l = l :=
        dropKeys_eq_self fun c hc heq =>
          hb (by simpa using mem_map.mpr ⟨c, hc, mem_singleton.mp heq⟩)
      rw [Schemes.dropKeys, filter_cons_of_neg (by simp), ← Schemes.dropKeys, hrest]
      simp
    · have hne : key b ≠ key a := fun heq => hb (heq ▸ mem_map_of_mem hmem)
      rw [Schemes.dropKeys, filter_cons_of_pos (by simpa using hne), ← Schemes.dropKeys]
      simp only [map_cons, sum_cons, ih hl hmem]
      omega

/-! ### Changing in place -/

theorem mem_mapKey : b ∈ mapKey key k f l ↔ ∃ a ∈ l, b = if key a = k then f a else a := by
  simp [mapKey, eq_comm]

theorem keys_mapKey (hf : ∀ a, key (f a) = key a) : (mapKey key k f l).map key = l.map key := by
  rw [mapKey, map_map]
  refine map_congr_left fun a _ => ?_
  simp only [Function.comp_apply]
  split_ifs
  · exact hf a
  · rfl

theorem DistinctKeys.mapKey (h : DistinctKeys key l) (hf : ∀ a, key (f a) = key a) :
    DistinctKeys key (mapKey key k f l) := by
  rwa [DistinctKeys, keys_mapKey hf]

theorem sum_mapKey {w : α → ℕ} (hw : ∀ a, w (f a) = w a) :
    ((mapKey key k f l).map w).sum = (l.map w).sum := by
  rw [Schemes.mapKey, map_map]
  congr 1
  refine map_congr_left fun a _ => ?_
  simp only [Function.comp_apply]
  split_ifs
  · exact hw a
  · rfl

end Schemes
