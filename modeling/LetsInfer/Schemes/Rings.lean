import LetsInfer.Schemes.Ordered

/-! @scheme rings | name:Positions in a ring | family:storage

    A ring with `P` positions keeps the item of index `o` at `o % P`. Of the last `P` indices each
    has a position of its own, and each position has one of them. -/

namespace Schemes

variable {P n i a b : ℕ}

/-- Two indices less than a turn apart with one position are the same. -/
theorem eq_of_mod_eq (h : a % P = b % P) (hle : a ≤ b) (hlt : b < a + P) : a = b := by
  have hdvd : P ∣ b - a := Nat.dvd_of_mod_eq_zero (Nat.sub_mod_eq_zero_of_mod_eq h.symm)
  have hzero := Nat.eq_zero_of_dvd_of_lt hdvd (by omega)
  omega

/-- Every position passed already, the next one apart, has one of the last `P - 1` indices. -/
theorem exists_index (hi : i < P) (hne : i ≠ n % P) (hin : i < n) :
    ∃ o < n, n < o + P ∧ o % P = i := by
  have hd := Nat.mod_lt (n - 1 - i) (by omega : 0 < P)
  have hdec := Nat.div_add_mod (n - 1 - i) P
  set d := (n - 1 - i) % P with hdeq
  have hmod : (n - 1 - d) % P = i := by
    have heq : n - 1 - d = P * ((n - 1 - i) / P) + i := by omega
    rw [heq, Nat.mul_add_mod, Nat.mod_eq_of_lt hi]
  refine ⟨n - 1 - d, by omega, ?_, hmod⟩
  by_contra hfar
  -- a whole turn back is the position of `n` itself
  apply hne
  have heq : n = n - 1 - d + P := by omega
  rw [heq, Nat.add_mod_right, hmod]

/-- Reading a range of indices in order finds the items from the first index on, in their order. -/
theorem filterMap_range'_eq {α : Type*} {index : α → ℕ} {items : List α} {found : ℕ → Option α}
    {first count : ℕ} (hite : items.Pairwise fun a b => index a < index b)
    (hfd : ∀ i, first ≤ i → i < first + count → ∀ a, found i = some a ↔ a ∈ items ∧ index a = i)
    (hrg : ∀ a ∈ items, first ≤ index a → index a < first + count) :
    (List.range' first count).filterMap found = items.filter fun a => first ≤ index a := by
  have hin : ∀ {i : ℕ}, i ∈ List.range' first count → first ≤ i ∧ i < first + count := by
    intro i hi
    rwa [List.mem_range'_1] at hi
  refine eq_of_ordered_by index ?_ (hite.filter _) fun a => ?_
  · refine List.pairwise_filterMap.mpr ?_
    refine (List.pairwise_lt_range').imp_of_mem fun {i j} hi hj hlt a ha b hb => ?_
    have hia := ((hfd i (hin hi).1 (hin hi).2 a).mp ha).2
    have hjb := ((hfd j (hin hj).1 (hin hj).2 b).mp hb).2
    omega
  · rw [List.mem_filterMap, List.mem_filter, decide_eq_true_iff]
    constructor
    · rintro ⟨i, hi, ha⟩
      obtain ⟨hmem, rfl⟩ := (hfd i (hin hi).1 (hin hi).2 a).mp ha
      exact ⟨hmem, (hin hi).1⟩
    · rintro ⟨hmem, hle⟩
      have hlt := hrg a hmem hle
      refine ⟨index a, ?_, (hfd _ hle hlt a).mpr ⟨hmem, rfl⟩⟩
      rw [List.mem_range'_1]
      exact ⟨hle, hlt⟩

end Schemes
