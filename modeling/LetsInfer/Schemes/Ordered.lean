import Mathlib

/-! @scheme ordered | name:Maps kept in the order of their keys | family:store

    A map is a list of its entries, its keys strictly increasing. There is one such list for each
    set of entries, so two maps with the same entries are equal; inserting, erasing and looking up
    are described by what they do to membership. -/

namespace Schemes
open List

variable {κ β : Type*} [LinearOrder κ]

def Ordered (l : List (κ × β)) : Prop := l.Pairwise fun a b => a.1 < b.1

def insertKey (k : κ) (v : β) : List (κ × β) → List (κ × β)
  | [] => [(k, v)]
  | e :: l =>
    if k < e.1 then (k, v) :: e :: l
    else if k = e.1 then (k, v) :: l
    else e :: insertKey k v l

def eraseKey (k : κ) (l : List (κ × β)) : List (κ × β) := l.filter fun e => e.1 ≠ k

def lookupKey (k : κ) (l : List (κ × β)) : Option β := (l.find? fun e => e.1 = k).map (·.2)

/-- The map of a list of entries; of two with one key the later counts. -/
def ofEntries (entries : List (κ × β)) : List (κ × β) :=
  entries.foldl (fun l e => insertKey e.1 e.2 l) []

variable {k : κ} {v : β} {a : κ × β} {l l' : List (κ × β)}

theorem Ordered.head (h : Ordered (a :: l)) : ∀ e ∈ l, a.1 < e.1 := (pairwise_cons.mp h).1

theorem Ordered.tail (h : Ordered (a :: l)) : Ordered l := h.of_cons

theorem Ordered.nodup_keys (h : Ordered l) : (l.map (·.1)).Nodup :=
  pairwise_map.mpr (h.imp ne_of_lt)

theorem Ordered.eq_of_key (h : Ordered l) {e : κ × β} (ha : a ∈ l) (he : e ∈ l)
    (hkey : a.1 = e.1) : a = e :=
  inj_on_of_nodup_map h.nodup_keys ha he hkey

/-- EXTENSIONALITY: a map is determined by its entries. -/
theorem Ordered.ext (h : Ordered l) (h' : Ordered l') (hmem : ∀ a, a ∈ l ↔ a ∈ l') : l = l' := by
  have hperm : l.Perm l' :=
    (perm_ext_iff_of_nodup h.nodup_keys.of_map h'.nodup_keys.of_map).mpr hmem
  refine hperm.eq_of_pairwise ?_ h h'
  intro a b _ _ hab hba
  exact absurd hab hba.not_gt

/-- EXTENSIONALITY for lists ordered by a key of their items. -/
theorem eq_of_ordered_by (key : β → κ) {l l' : List β} (h : l.Pairwise fun a b => key a < key b)
    (h' : l'.Pairwise fun a b => key a < key b) (hmem : ∀ a, a ∈ l ↔ a ∈ l') : l = l' := by
  have hkey : ∀ {m : List β}, (m.Pairwise fun a b => key a < key b) →
      Ordered (m.map fun a => (key a, a)) := fun hm => pairwise_map.mpr hm
  have heq := (hkey h).ext (hkey h') fun e => by
    rw [mem_map, mem_map]
    exact ⟨fun ⟨a, ha, he⟩ => ⟨a, (hmem a).mp ha, he⟩, fun ⟨a, ha, he⟩ => ⟨a, (hmem a).mpr ha, he⟩⟩
  have hsnd := congrArg (List.map Prod.snd) heq
  simpa [Function.comp_def] using hsnd

/-! ### Inserting and erasing -/

theorem mem_insertKey (h : Ordered l) : a ∈ insertKey k v l ↔ a = (k, v) ∨ a ∈ l ∧ a.1 ≠ k := by
  induction l with
  | nil => simp [insertKey]
  | cons e l ih =>
    have hhead := h.head
    rw [insertKey]
    split_ifs with hlt heq
    · -- the new key is before all others
      have hall : ∀ x ∈ e :: l, x.1 ≠ k := by
        intro x hx
        rcases mem_cons.mp hx with rfl | hx
        · exact (ne_of_lt hlt).symm
        · exact (ne_of_lt (hlt.trans (hhead x hx))).symm
      constructor
      · intro hmem
        rcases mem_cons.mp hmem with rfl | hmem
        · exact .inl rfl
        · exact .inr ⟨hmem, hall a hmem⟩
      · rintro (rfl | ⟨hmem, -⟩)
        · exact mem_cons_self
        · exact mem_cons_of_mem _ hmem
    · constructor
      · intro hmem
        rcases mem_cons.mp hmem with rfl | hmem
        · exact .inl rfl
        · refine .inr ⟨mem_cons_of_mem _ hmem, ?_⟩
          rw [heq]
          exact (ne_of_lt (hhead a hmem)).symm
      · rintro (rfl | ⟨hmem, hne⟩)
        · exact mem_cons_self
        · rcases mem_cons.mp hmem with rfl | hmem
          · exact absurd heq.symm hne
          · exact mem_cons_of_mem _ hmem
    · rw [mem_cons, ih h.tail, mem_cons]
      constructor
      · rintro (rfl | rfl | ⟨hmem, hne⟩)
        · exact .inr ⟨.inl rfl, Ne.symm heq⟩
        · exact .inl rfl
        · exact .inr ⟨.inr hmem, hne⟩
      · rintro (rfl | ⟨rfl | hmem, hne⟩)
        · exact .inr (.inl rfl)
        · exact .inl rfl
        · exact .inr (.inr ⟨hmem, hne⟩)

theorem ordered_insertKey (h : Ordered l) : Ordered (insertKey k v l) := by
  induction l with
  | nil => simp [insertKey, Ordered]
  | cons e l ih =>
    have hhead := h.head
    rw [insertKey]
    split_ifs with hlt heq
    · refine pairwise_cons.mpr ⟨fun x hx => ?_, h⟩
      rcases mem_cons.mp hx with rfl | hx
      · exact hlt
      · exact hlt.trans (hhead x hx)
    · refine pairwise_cons.mpr ⟨fun x hx => ?_, h.tail⟩
      rw [heq]
      exact hhead x hx
    · refine pairwise_cons.mpr ⟨fun x hx => ?_, ih h.tail⟩
      rcases (mem_insertKey h.tail).mp hx with rfl | ⟨hmem, -⟩
      · exact lt_of_le_of_ne (not_lt.mp hlt) (Ne.symm heq)
      · exact hhead x hmem

theorem mem_eraseKey : a ∈ eraseKey k l ↔ a ∈ l ∧ a.1 ≠ k := by
  simp [eraseKey]

theorem ordered_eraseKey (h : Ordered l) : Ordered (eraseKey k l) :=
  h.sublist filter_sublist

theorem insertKey_eq_append (h : ∀ e ∈ l, e.1 < k) : insertKey k v l = l ++ [(k, v)] := by
  induction l with
  | nil => rfl
  | cons e l ih =>
    have hlt := h e mem_cons_self
    rw [insertKey, if_neg hlt.not_gt, if_neg (ne_of_lt hlt).symm,
      ih fun x hx => h x (mem_cons_of_mem _ hx)]
    rfl

/-! ### Looking up -/

theorem lookupKey_eq_some (h : Ordered l) : lookupKey k l = some v ↔ (k, v) ∈ l := by
  constructor
  · intro hlk
    obtain ⟨e, hfind, rfl⟩ := Option.map_eq_some_iff.mp hlk
    have hkey : e.1 = k := by simpa using find?_some hfind
    subst hkey
    exact mem_of_find?_eq_some hfind
  · intro hmem
    cases hfind : l.find? fun e => e.1 = k with
    | none => simpa using find?_eq_none.mp hfind (k, v) hmem
    | some e =>
      have hkey : e.1 = k := by simpa using find?_some hfind
      obtain rfl := h.eq_of_key (mem_of_find?_eq_some hfind) hmem hkey
      rw [lookupKey, hfind]
      rfl

theorem lookupKey_eq_none : lookupKey k l = none ↔ ∀ e ∈ l, e.1 ≠ k := by
  simp [lookupKey, find?_eq_none]

theorem lookupKey_insertKey (h : Ordered l) (k' : κ) :
    lookupKey k' (insertKey k v l) = if k' = k then some v else lookupKey k' l := by
  split_ifs with hkey
  · rw [hkey]
    exact (lookupKey_eq_some (ordered_insertKey h)).mpr ((mem_insertKey h).mpr (.inl rfl))
  · cases hlk : lookupKey k' l with
    | some w =>
      have hmem := (lookupKey_eq_some h).mp hlk
      exact (lookupKey_eq_some (ordered_insertKey h)).mpr ((mem_insertKey h).mpr (.inr ⟨hmem, hkey⟩))
    | none =>
      refine lookupKey_eq_none.mpr fun e he => ?_
      rcases (mem_insertKey h).mp he with rfl | ⟨hmem, -⟩
      · exact Ne.symm hkey
      · exact lookupKey_eq_none.mp hlk e hmem

/-- Inserting takes the old entry of the key out of a count and puts the new one in. -/
theorem countP_insertKey (p : κ × β → Bool) (h : Ordered l) :
    (insertKey k v l).countP p + ((lookupKey k l).map fun w => (p (k, w)).toNat).getD 0 =
      l.countP p + (p (k, v)).toNat := by
  induction l with
  | nil => cases hp : p (k, v) <;> simp [insertKey, lookupKey, hp]
  | cons e l ih =>
    rw [insertKey]
    split_ifs with hlt heq
    · have hno : lookupKey k (e :: l) = none := by
        refine lookupKey_eq_none.mpr fun x hx => ?_
        rcases mem_cons.mp hx with rfl | hx
        · exact (ne_of_lt hlt).symm
        · exact (ne_of_lt (hlt.trans (h.head x hx))).symm
      rw [hno]
      cases hp : p (k, v) <;> simp [countP_cons, hp]
    · have hsome : lookupKey k (e :: l) = some e.2 := by simp [lookupKey, heq]
      rw [hsome, heq]
      cases hp : p (e.1, v) <;> cases hold : p e <;> simp [hp, hold]
    · have hrest : lookupKey k (e :: l) = lookupKey k l := by
        simp [lookupKey, Ne.symm heq]
      have hih := ih h.tail
      rw [hrest, countP_cons, countP_cons]
      omega

/-! ### Maps from lists -/

theorem foldl_insertKey_spec (entries : List (κ × β)) (h : Ordered l)
    (hkeys : ((l ++ entries).map (·.1)).Nodup) :
    Ordered (entries.foldl (fun l e => insertKey e.1 e.2 l) l) ∧
      ∀ a, a ∈ entries.foldl (fun l e => insertKey e.1 e.2 l) l ↔ a ∈ l ∨ a ∈ entries := by
  induction entries generalizing l with
  | nil => exact ⟨h, fun a => by simp⟩
  | cons e entries ih =>
    have hnew : ∀ x ∈ l, x.1 ≠ e.1 := by
      intro x hx heq
      rw [map_append, map_cons] at hkeys
      exact (nodup_append.mp hkeys).2.2 x.1 (mem_map_of_mem hx) e.1 mem_cons_self heq
    have hmem : ∀ a, a ∈ insertKey e.1 e.2 l ↔ a = e ∨ a ∈ l := by
      intro a
      rw [mem_insertKey h]
      exact or_congr_right ⟨fun ha => ha.1, fun ha => ⟨ha, hnew a ha⟩⟩
    have hperm : (insertKey e.1 e.2 l).Perm (e :: l) := by
      refine (perm_ext_iff_of_nodup (ordered_insertKey h).nodup_keys.of_map ?_).mpr fun a => ?_
      · exact nodup_cons.mpr ⟨fun he => hnew e he rfl, h.nodup_keys.of_map⟩
      · rw [hmem, mem_cons]
    have hkeys' : ((insertKey e.1 e.2 l ++ entries).map (·.1)).Nodup := by
      refine ((hperm.append_right entries).map _).nodup_iff.mpr ?_
      exact (perm_middle.map _).nodup_iff.mp hkeys
    obtain ⟨hord, hmem'⟩ := ih (ordered_insertKey h) hkeys'
    refine ⟨hord, fun a => ?_⟩
    rw [foldl_cons, hmem', hmem, mem_cons]
    tauto

theorem ordered_ofEntries {entries : List (κ × β)} (h : (entries.map (·.1)).Nodup) :
    Ordered (ofEntries entries) :=
  (foldl_insertKey_spec entries List.Pairwise.nil (by simpa using h)).1

theorem mem_ofEntries {entries : List (κ × β)} (h : (entries.map (·.1)).Nodup) :
    a ∈ ofEntries entries ↔ a ∈ entries := by
  rw [ofEntries, (foldl_insertKey_spec entries List.Pairwise.nil (by simpa using h)).2]
  simp

theorem ofEntries_eq {entries : List (κ × β)} (h : (entries.map (·.1)).Nodup) (hl : Ordered l)
    (hmem : ∀ a, a ∈ entries ↔ a ∈ l) : ofEntries entries = l :=
  (ordered_ofEntries h).ext hl fun a => (mem_ofEntries h).trans (hmem a)

end Schemes
