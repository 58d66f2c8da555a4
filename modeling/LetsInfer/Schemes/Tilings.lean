import Mathlib

/-! @scheme tilings | name:Intervals laid end to end | family:intervals

    Items that each stand for an interval of numbers, the first starting right after `a`, every next
    one right after the one before, and the last ending at `b`. Such items are disjoint and in
    order, and every number after `a` up to `b` lies in exactly one of them. -/

namespace Schemes

variable {δ : Type*} (first through : δ → ℕ)

def Tiles : ℕ → List δ → ℕ → Prop
  | a, [], b => a = b
  | a, d :: l, b => first d = a + 1 ∧ first d ≤ through d ∧ Tiles (through d) l b

variable {first through} {a b c : ℕ} {d : δ} {l l' : List δ}

section

variable (h : Tiles first through a l b)
include h

theorem Tiles.append (h' : Tiles first through b l' c) : Tiles first through a (l ++ l') c := by
  induction l generalizing a with
  | nil => rwa [show a = b from h]
  | cons d l ih => exact ⟨h.1, h.2.1, ih h.2.2⟩

theorem Tiles.snoc (hfst : first d = b + 1)
    (hle : first d ≤ through d) : Tiles first through a (l ++ [d]) (through d) :=
  h.append ⟨hfst, hle, rfl⟩

theorem Tiles.le : a ≤ b := by
  induction l generalizing a with
  | nil => exact Nat.le_of_eq h
  | cons d l ih =>
    have hrest := ih h.2.2
    have hfst := h.1
    have hle := h.2.1
    omega

theorem Tiles.bounds : ∀ d ∈ l, a < first d ∧ first d ≤ through d ∧ through d ≤ b := by
  induction l generalizing a with
  | nil => simp
  | cons e l ih =>
    intro d hd
    have hfst := h.1
    have hle := h.2.1
    rcases List.mem_cons.mp hd with rfl | hd
    · exact ⟨by omega, hle, h.2.2.le⟩
    · obtain ⟨haft, hrest⟩ := ih h.2.2 d hd
      exact ⟨by omega, hrest⟩

theorem Tiles.pairwise : l.Pairwise fun d e => through d < first e := by
  induction l generalizing a with
  | nil => exact .nil
  | cons d l ih => exact .cons (fun e he => (h.2.2.bounds e he).1) (ih h.2.2)

/-- COVER: every number between the two ends lies in exactly one item. -/
theorem Tiles.existsUnique_covering {n : ℕ} (ha : a < n)
    (hb : n ≤ b) : ∃! d, d ∈ l ∧ first d ≤ n ∧ n ≤ through d := by
  induction l generalizing a with
  | nil =>
    have hend : a = b := h
    omega
  | cons d l ih =>
    have hfst := h.1
    by_cases hn : n ≤ through d
    · -- all later items start after the first one ends
      refine ⟨d, ⟨List.mem_cons_self, by omega, hn⟩, ?_⟩
      rintro e ⟨he, hsta, -⟩
      rcases List.mem_cons.mp he with rfl | he
      · rfl
      · have haft := (h.2.2.bounds e he).1
        omega
    · obtain ⟨e, ⟨he, hcov⟩, huni⟩ := ih h.2.2 (by omega)
      refine ⟨e, ⟨List.mem_cons_of_mem _ he, hcov⟩, ?_⟩
      rintro f ⟨hf, hcov'⟩
      rcases List.mem_cons.mp hf with rfl | hf
      · exact absurd hcov'.2 hn
      · exact huni f ⟨hf, hcov'⟩

end

end Schemes
