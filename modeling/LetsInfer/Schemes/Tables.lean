import Mathlib

/-! @scheme tables | name:Finite tables and their totals | family:accounting

    A table is a finite map with one type of values. Two readings of a table recur in every
    accounting argument: the *total* of a weight over its entries, and the *amount* a table of
    numbers holds at a key, where a missing entry counts as zero. The lemmas say how both move when
    an entry is inserted or erased; nothing here depends on what the entries mean. -/

namespace Schemes
open Finmap

/-- A finite map whose values share one type. -/
abbrev Table (K V : Type*) := Finmap (fun _ : K => V)

namespace Table

variable {K V : Type*}

def total (w : K → V → ℕ) (m : Table K V) : ℕ := (m.entries.map fun e => w e.1 e.2).sum

def size (m : Table K V) : ℕ := total (fun _ _ => 1) m

@[simp] theorem total_empty (w : K → V → ℕ) : total w (∅ : Table K V) = 0 := rfl

@[simp] theorem size_empty : size (∅ : Table K V) = 0 := rfl

variable [DecidableEq K]

/-- What a table of numbers holds at a key; a missing entry counts as zero. -/
def amount (m : Table K ℕ) (a : K) : ℕ := (m.lookup a).getD 0

/-! ### Lookups -/

theorem lookup_insert_ite (m : Table K V) (a x : K) (b : V) :
    (m.insert a b).lookup x = if x = a then some b else m.lookup x := by
  split_ifs with h
  · rw [h, Finmap.lookup_insert]
  · exact lookup_insert_of_ne m h

theorem lookup_erase_ite (m : Table K V) (a x : K) :
    (m.erase a).lookup x = if x = a then none else m.lookup x := by
  split_ifs with h
  · rw [h, lookup_erase]
  · exact lookup_erase_ne h

variable {m : Table K V} {a : K} {b : V}

/-- What is found after an insertion is the new entry, or was there under another key. -/
theorem insert_cases {m' : Table K V} {x : K} {c : V} (hm : m' = m.insert a b)
    (h : m'.lookup x = some c) : (x = a ∧ c = b) ∨ (x ≠ a ∧ m.lookup x = some c) := by
  rw [hm, lookup_insert_ite] at h
  split_ifs at h with hx
  · exact .inl ⟨hx, (Option.some.inj h).symm⟩
  · exact .inr ⟨hx, h⟩

theorem lookup_of_erase {x : K} (h : (m.erase a).lookup x = some b) : m.lookup x = some b := by
  rw [lookup_erase_ite] at h
  split_ifs at h
  exact h

theorem insert_erase_self (h : m.lookup a = some b) : (m.erase a).insert a b = m := by
  refine ext_lookup fun x => ?_
  rw [lookup_insert_ite, lookup_erase_ite]
  split_ifs with hx
  · rw [hx, h]
  · rfl

/-! ### Totals -/

theorem total_insert (w : K → V → ℕ) (b : V) (h : a ∉ m) :
    total w (m.insert a b) = w a b + total w m := by
  simp [total, entries_insert_of_notMem h]

theorem total_erase (w : K → V → ℕ) (h : m.lookup a = some b) :
    total w m = w a b + total w (m.erase a) := by
  have hins : total w ((m.erase a).insert a b) = w a b + total w (m.erase a) :=
    total_insert w b notMem_erase_self
  rwa [insert_erase_self h] at hins

theorem erase_of_notMem (h : a ∉ m) : m.erase a = m := by
  refine ext_lookup fun x => ?_
  rw [lookup_erase_ite]
  split_ifs with hx
  · rw [hx, lookup_eq_none.mpr h]
  · rfl

theorem le_total (w : K → V → ℕ) (h : m.lookup a = some b) : w a b ≤ total w m := by
  rw [total_erase w h]; omega

theorem size_insert (b : V) (h : a ∉ m) : size (m.insert a b) = size m + 1 := by
  rw [size, total_insert _ b h, Nat.add_comm]; rfl

theorem size_erase (h : m.lookup a = some b) : size m = size (m.erase a) + 1 := by
  rw [size, total_erase _ h, Nat.add_comm]; rfl

theorem insert_eq_insert_erase (m : Table K V) (a : K) (b : V) :
    m.insert a b = (m.erase a).insert a b := by
  refine ext_lookup fun x => ?_
  simp only [lookup_insert_ite, lookup_erase_ite]
  split_ifs <;> rfl

theorem size_replace (b' : V) (h : m.lookup a = some b) : size (m.insert a b') = size m := by
  rw [insert_eq_insert_erase, size_insert b' notMem_erase_self, size_erase h]

theorem total_replace (w : K → V → ℕ) (b' : V) (h : m.lookup a = some b) :
    total w (m.insert a b') + w a b = total w m + w a b' := by
  rw [insert_eq_insert_erase, total_insert w b' notMem_erase_self, total_erase w h]
  omega

theorem total_le_size_mul (w : K → V → ℕ) {bound : ℕ}
    (h : ∀ a b, m.lookup a = some b → w a b ≤ bound) : total w m ≤ size m * bound := by
  have hcard : size m = (m.entries.map fun e => w e.1 e.2).card := by
    simp [size, total]
  rw [hcard, ← Nat.nsmul_eq_mul]
  refine Multiset.sum_le_card_nsmul _ _ fun x hx => ?_
  obtain ⟨e, he, rfl⟩ := Multiset.mem_map.mp hx
  exact h e.1 e.2 (Finmap.lookup_eq_some_iff.mpr he)

/-! ### Amounts -/

@[simp] theorem amount_empty (a : K) : amount (∅ : Table K ℕ) a = 0 := rfl

theorem amount_insert (m : Table K ℕ) (a x : K) (n : ℕ) :
    amount (m.insert a n) x = if x = a then n else amount m x := by
  rw [amount, lookup_insert_ite]; split_ifs <;> rfl

theorem amount_erase (m : Table K ℕ) (a x : K) :
    amount (m.erase a) x = if x = a then 0 else amount m x := by
  rw [amount, lookup_erase_ite]; split_ifs <;> rfl

/-- Storing a number at a key, its entry dropped when nothing is left. -/
theorem amount_store (m : Table K ℕ) (a x : K) {n : ℕ} {p : Prop} [Decidable p] (hp : p → n = 0) :
    amount (if p then m.erase a else m.insert a n) x = if x = a then n else amount m x := by
  split_ifs with h hx hx
  · rw [amount_erase, if_pos hx, hp h]
  · rw [amount_erase, if_neg hx]
  · rw [amount_insert, if_pos hx]
  · rw [amount_insert, if_neg hx]

theorem lookup_of_amount_pos {m : Table K ℕ} (h : 0 < amount m a) :
    m.lookup a = some (amount m a) := by
  rw [amount] at h ⊢
  cases hl : m.lookup a with
  | none => simp [hl] at h
  | some n => rfl

end Table

end Schemes
