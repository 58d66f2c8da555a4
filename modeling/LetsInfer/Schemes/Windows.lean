import Mathlib

/-! @scheme windows | name:Rolling windows kept as queues | family:rate-limit

    A rolling window is a list of timed entries in order of arrival, pruned lazily from its front.
    Pruning loses nothing that is still inside the window, and when the entries are in order of
    time it leaves nothing that is outside. `after c` are the entries later than a cutoff; the
    window that ends at `t` and is `w` long has the cutoff `t - w`, where the subtraction stops at
    zero. -/

namespace Schemes.Window
open List

variable {α : Type*} (time : α → ℕ)

def after (c : ℕ) (l : List α) : List α := l.filter fun a => c < time a

/-- Pruning: entries up to the cutoff leave from the front, as long as there are any there. -/
def prune (c : ℕ) (l : List α) : List α := l.dropWhile fun a => time a ≤ c

variable {time} {c d : ℕ} {l l' : List α}

@[simp] theorem after_nil : after time c [] = [] := rfl

@[simp] theorem after_append : after time c (l ++ l') = after time c l ++ after time c l' :=
  filter_append ..

theorem after_singleton (a : α) : after time c [a] = if c < time a then [a] else [] := by
  simp [after, filter_singleton]

/-- Pruning up to an earlier cutoff loses nothing after the later one. -/
theorem after_prune (h : d ≤ c) : after time c (prune time d l) = after time c l := by
  induction l with
  | nil => rfl
  | cons a l ih =>
    unfold prune at ih ⊢
    by_cases ha : time a ≤ d
    · have hc : ¬c < time a := by omega
      simp only [dropWhile_cons, ha, decide_true, if_true, ih]
      simp [after, hc]
    · simp [ha]

theorem after_sublist_prune : (after time c l).Sublist (prune time c l) := by
  rw [← after_prune le_rfl]
  exact filter_sublist

/-- In order of time, pruning leaves exactly what is after the cutoff. -/
theorem prune_eq_after (h : l.Pairwise fun a b => time a ≤ time b) :
    prune time c l = after time c l := by
  induction l with
  | nil => rfl
  | cons a l ih =>
    obtain ⟨ha, hl⟩ := pairwise_cons.mp h
    by_cases hac : time a ≤ c
    · have hnot : ¬c < time a := by omega
      simpa [prune, after, dropWhile_cons, hac, hnot] using ih hl
    · have hall : ∀ b ∈ a :: l, c < time b := by
        intro b hb
        rcases mem_cons.mp hb with rfl | hb
        · omega
        · have := ha b hb
          omega
      rw [prune, dropWhile_cons_of_neg (by simpa using hac), after,
        filter_eq_self.mpr (by simpa using hall)]

theorem prune_sublist : (prune time c l).Sublist l := dropWhile_sublist _

/-- Pruning stops at the first later entry and loses nothing from there on. -/
theorem sublist_prune (time : α → ℕ) {a : α} {r : List α} (h : (a :: r).Sublist l) (ha : c < time a) :
    (a :: r).Sublist (prune time c l) := by
  induction l with
  | nil => exact h
  | cons b l ih =>
    by_cases hb : time b ≤ c
    · rw [prune, dropWhile_cons_of_pos (by simpa using hb)]
      cases h with
      | cons _ h => exact ih h
      | cons_cons _ h => omega
    · rwa [prune, dropWhile_cons_of_neg (by simpa using hb)]

theorem after_anti (h : c ≤ d) : (after time d l).Sublist (after time c l) := by
  refine monotone_filter_right l fun a ha => ?_
  simp only [decide_eq_true_eq] at ha ⊢
  omega

/-! ### A queue that tracks a list -/

/-- A pruned queue that stands for a longer list: it is in order of time, nothing in it is later than
    now, and it has kept all of the list that the window of length `w` still holds. -/
structure Tracks (time : α → ℕ) (w now : ℕ) (queue all : List α) : Prop where
  sorted : queue.Pairwise fun a b => time a ≤ time b
  past : ∀ a ∈ queue, time a ≤ now
  kept : ∀ c, now - w ≤ c → after time c queue = after time c all

namespace Tracks

variable {w now : ℕ} {queue all : List α}

section

variable (h : Tracks time w now queue all)
include h

theorem advance {now' : ℕ} (hnow : now ≤ now') : Tracks time w now' queue all where
  sorted := h.sorted
  past a ha := (h.past a ha).trans hnow
  kept c hc := h.kept c ((Nat.sub_le_sub_right hnow w).trans hc)

theorem prune : Tracks time w now (Window.prune time (now - w) queue) all where
  sorted := h.sorted.sublist prune_sublist
  past a ha := h.past a (prune_sublist.subset ha)
  kept c hc := by rw [after_prune hc, h.kept c hc]

theorem push {new : List α} (hnew : ∀ a ∈ new, time a = now) :
    Tracks time w now (queue ++ new) (all ++ new) where
  sorted := by
    rw [pairwise_append]
    refine ⟨h.sorted, pairwise_of_forall_mem_list fun a ha b hb => ?_, fun a ha b hb => ?_⟩
    · rw [hnew a ha, hnew b hb]
    · rw [hnew b hb]
      exact h.past a ha
  past a ha := (mem_append.mp ha).elim (h.past a) fun ha => (hnew a ha).le
  kept c hc := by rw [after_append, after_append, h.kept c hc]

/-- EXACT: what is left after pruning is what the window holds. -/
theorem exact : Window.prune time (now - w) queue = after time (now - w) all := by
  rw [prune_eq_after h.sorted, h.kept _ le_rfl]

end

end Tracks

/-! ### Counting a window -/

/-- The entries of the window of length `w` that ends at `t`. -/
def count (w t : ℕ) (l : List ℕ) : ℕ := (l.filter fun a => t - w < a ∧ a ≤ t).length

theorem count_eq_after {w t : ℕ} {l : List ℕ} (h : ∀ a ∈ l, a ≤ t) :
    count w t l = (after id (t - w) l).length := by
  unfold count after
  congr 1
  refine filter_congr fun a ha => ?_
  simp [h a ha]

/-- ANY WINDOW: if every window holds at most `n` entries and the one that ends at a new latest entry
    does too, then every window does with the entry added. A window that holds the new entry holds
    nothing that the window ending there does not. -/
theorem count_snoc {w n m : ℕ} {l : List ℕ} (hl : ∀ a ∈ l, a ≤ m) (h : ∀ t, count w t l ≤ n)
    (hm : count w m (l ++ [m]) ≤ n) (t : ℕ) : count w t (l ++ [m]) ≤ n := by
  by_cases hin : t - w < m ∧ m ≤ t
  · have hall : ∀ a ∈ l ++ [m], a ≤ m := by
      intro a ha
      rcases mem_append.mp ha with ha | ha
      · exact hl a ha
      · exact (mem_singleton.mp ha).le
    have hwide : (after id (t - w) (l ++ [m])).Sublist (after id (m - w) (l ++ [m])) :=
      after_anti (by omega)
    refine le_trans (List.Sublist.length_le ?_) (hwide.length_le.trans (count_eq_after hall ▸ hm))
    refine monotone_filter_right _ fun a ha => ?_
    simp only [decide_eq_true_eq, id_eq] at ha ⊢
    exact ha.1
  · have hout : count w t (l ++ [m]) = count w t l := by
      simp [count, filter_append, hin]
    rw [hout]
    exact h t

/-! ### Summing a window -/

def load (c : ℕ) (l : List (ℕ × ℕ)) : ℕ := ((after Prod.fst c l).map Prod.snd).sum

@[simp] theorem load_nil : load c [] = 0 := rfl

@[simp] theorem load_append {l l' : List (ℕ × ℕ)} : load c (l ++ l') = load c l + load c l' := by
  simp [load]

theorem load_prune {l : List (ℕ × ℕ)} (h : d ≤ c) : load c (prune Prod.fst d l) = load c l := by
  rw [load, after_prune h, load]

theorem load_anti {l : List (ℕ × ℕ)} (h : c ≤ d) : load d l ≤ load c l := by
  exact ((after_anti h).map Prod.snd).sum_le_sum fun _ _ => Nat.zero_le _

theorem load_perm {l l' : List (ℕ × ℕ)} (h : l.Perm l') : load c l = load c l' :=
  ((h.filter _).map _).sum_eq

theorem load_singleton_le (a : ℕ × ℕ) : load c [a] ≤ a.2 := by
  rw [load, after_singleton]
  split_ifs <;> simp

end Schemes.Window
