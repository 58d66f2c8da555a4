import Mathlib

/-! @scheme choice | name:First of the least | family:sorting

    A stable sort of the eligible elements, and the first of the result. It is one of the least, and
    among several least ones it is the first of the input, so the order of the input shows exactly
    if there are several. -/

namespace Schemes
open List

variable {α : Type*} {r : α → α → Prop} {p : α → Bool} {l l' : List α} {a : α}

/-- The first of the eligible elements in the order of the relation. -/
def pick (r : α → α → Prop) [DecidableRel r] (p : α → Bool) (l : List α) : Option α :=
  ((l.filter p).insertionSort r).head?

/-- An eligible element that no eligible one is before. -/
structure Best (r : α → α → Prop) (p : α → Bool) (l : List α) (a : α) : Prop where
  mem : a ∈ l
  eligible : p a = true
  least : ∀ b ∈ l, p b = true → r a b

theorem Best.perm (h : Best r p l a) (hperm : l'.Perm l) : Best r p l' a :=
  ⟨hperm.mem_iff.mpr h.mem, h.eligible, fun b hb => h.least b (hperm.mem_iff.mp hb)⟩

variable [DecidableRel r]

theorem pick_eq_none_iff : pick r p l = none ↔ ∀ a ∈ l, p a = false := by
  rw [pick, head?_eq_none_iff, ← length_eq_zero_iff, length_insertionSort, length_eq_zero_iff]
  simp

theorem exists_pick_iff : (∃ a, pick r p l = some a) ↔ ∃ a ∈ l, p a = true := by
  rw [← Option.ne_none_iff_exists', Ne, pick_eq_none_iff]
  simp

theorem pick_cons_of_best (h : Best r p (a :: l) a) : pick r p (a :: l) = some a := by
  rw [pick, filter_cons_of_pos h.eligible, insertionSort_cons]
  cases hsor : (l.filter p).insertionSort r with
  | nil => rfl
  | cons b rest =>
    have hb : b ∈ l.filter p := by
      rw [← mem_insertionSort r, hsor]
      exact mem_cons_self
    obtain ⟨hmem, heli⟩ := mem_filter.mp hb
    rw [orderedInsert_cons, if_pos (h.least b (mem_cons_of_mem _ hmem) heli)]
    rfl

variable [Std.Total r] [IsTrans α r]

theorem best_of_pick (h : pick r p l = some a) : Best r p l a := by
  obtain ⟨rest, hsor⟩ := head?_eq_some_iff.mp h
  have hmem : ∀ b, b ∈ a :: rest ↔ b ∈ l ∧ p b = true := by
    intro b
    rw [← hsor, mem_insertionSort, mem_filter]
  have hpai := pairwise_insertionSort r (l.filter p)
  rw [hsor] at hpai
  obtain ⟨ha, heli⟩ := (hmem a).mp mem_cons_self
  refine ⟨ha, heli, fun b hb hp => ?_⟩
  rcases mem_cons.mp ((hmem b).mpr ⟨hb, hp⟩) with rfl | hrest
  · exact (Std.Total.total b b).elim id id
  · exact (pairwise_cons.mp hpai).1 b hrest

/-- If at most one element is best, picking is the same as being best. -/
theorem pick_eq_some_iff (huni : ∀ a b, Best r p l a → Best r p l b → a = b) :
    pick r p l = some a ↔ Best r p l a := by
  refine ⟨best_of_pick, fun hbest => ?_⟩
  obtain ⟨b, hpick⟩ : ∃ b, pick r p l = some b :=
    exists_pick_iff.mpr ⟨a, hbest.mem, hbest.eligible⟩
  rw [hpick, huni b a (best_of_pick hpick) hbest]

/-- ORDER: the order of the input does not show exactly if at most one element is best. -/
theorem pick_perm_iff [DecidableEq α] : (∀ l', l'.Perm l → pick r p l' = pick r p l) ↔
    ∀ a b, Best r p l a → Best r p l b → a = b := by
  constructor
  · intro hsame a b ha hb
    have hpick : ∀ c, Best r p l c → pick r p l = some c := by
      intro c hc
      have hperm : (c :: l.erase c).Perm l := (perm_cons_erase hc.mem).symm
      rw [← hsame _ hperm]
      exact pick_cons_of_best (hc.perm hperm)
    exact Option.some.inj ((hpick a ha).symm.trans (hpick b hb))
  · intro huni l' hperm
    have huni' : ∀ a b, Best r p l' a → Best r p l' b → a = b :=
      fun a b ha hb => huni a b (ha.perm hperm.symm) (hb.perm hperm.symm)
    ext a
    rw [pick_eq_some_iff huni, pick_eq_some_iff huni']
    exact ⟨fun h => h.perm hperm.symm, fun h => h.perm hperm⟩

/-! ### What a stable sort leaves in order -/

variable {R : α → α → Prop}

omit [Std.Total r] in
theorem pairwise_orderedInsert_iff (h : l.Pairwise r) :
    (l.orderedInsert r a).Pairwise R ↔
      (∀ b ∈ l, r a b ∧ R a b ∨ ¬r a b ∧ R b a) ∧ l.Pairwise R := by
  induction l with
  | nil => simp
  | cons b l ih =>
    obtain ⟨hb, hl⟩ := pairwise_cons.mp h
    rw [List.orderedInsert]
    split_ifs with hab
    · have hall : ∀ c ∈ b :: l, r a c := by
        rintro c (_ | ⟨_, hc⟩)
        · exact hab
        · exact IsTrans.trans _ _ _ hab (hb c hc)
      rw [pairwise_cons]
      exact and_congr_left fun _ => forall₂_congr fun c hc => by simp [hall c hc]
    · rw [pairwise_cons, ih hl, pairwise_cons, forall_mem_cons]
      simp only [mem_orderedInsert, forall_eq_or_imp, hab, false_and, not_false_eq_true,
        true_and, false_or]
      tauto

/-- The sorted list is in the order of another relation exactly if each two elements are, taken in
    the order that the sort leaves them in. -/
theorem pairwise_insertionSort_iff (l : List α) : (l.insertionSort r).Pairwise R ↔
    l.Pairwise fun a b => r a b ∧ R a b ∨ ¬r a b ∧ R b a := by
  induction l with
  | nil => simp
  | cons a l ih =>
    rw [insertionSort_cons, pairwise_orderedInsert_iff (pairwise_insertionSort r l), ih,
      pairwise_cons]
    simp only [mem_insertionSort]

end Schemes
