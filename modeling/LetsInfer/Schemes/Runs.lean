import Mathlib

/-! @scheme runs | name:Runs of a machine | family:state-machine

    A machine is a partial step function: on a state and an action it either is not enabled or
    gives the next state and what the step answered. A run is a list of steps, each kept with the
    state it was taken from, so that a property of "every step of the run" and a property of "the
    state the run ends in" are both plain statements. Runs are closed under prefixes by
    construction, so a property of the final state of every run is a property of every state any
    run passes through. -/

namespace Schemes
open List

variable {σ α ο : Type*}

/-- A run of `step` from a state: its steps in order, and the state it ends in. -/
inductive Run (step : σ → α → Option (σ × ο)) (s₀ : σ) : List (σ × α × ο) → σ → Prop
  | nil : Run step s₀ [] s₀
  | snoc {tr : List (σ × α × ο)} {s t : σ} {a : α} {o : ο} :
      Run step s₀ tr s → step s a = some (t, o) → Run step s₀ (tr ++ [(s, a, o)]) t

/-- Running a list of actions; `none` as soon as one of them is not enabled. -/
def exec (step : σ → α → Option (σ × ο)) : σ → List α → Option (List (σ × α × ο) × σ)
  | s, [] => some ([], s)
  | s, a :: as =>
    match step s a with
    | none => none
    | some (t, o) => (exec step t as).map fun r => ((s, a, o) :: r.1, r.2)

theorem mem_snoc {tr : List α} {e last : α} : e ∈ tr ++ [last] ↔ e ∈ tr ∨ e = last := by simp

namespace Run

variable {step : σ → α → Option (σ × ο)} {s₀ s t : σ} {tr : List (σ × α × ο)}

/-- INVARIANT RULE: what holds at the start and survives every admissible step holds at the end of
    every run whose steps are all admissible. -/
theorem invariant_of (ok : σ → α → Prop) (P : σ → Prop) (h : Run step s₀ tr s) (h0 : P s₀)
    (hok : ∀ e ∈ tr, ok e.1 e.2.1)
    (hst : ∀ s a t o, P s → ok s a → step s a = some (t, o) → P t) : P s := by
  induction h with
  | nil => exact h0
  | @snoc tr s t a o _ hs ih =>
    refine hst s a t o (ih fun e he => hok e (mem_append_left _ he)) ?_ hs
    exact hok (s, a, o) mem_concat_self

/-- INVARIANT RULE without a condition on the steps. -/
theorem invariant (P : σ → Prop) (h : Run step s₀ tr s) (h0 : P s₀)
    (hst : ∀ s a t o, P s → step s a = some (t, o) → P t) : P s :=
  h.invariant_of (fun _ _ => True) P h0 (fun _ _ => trivial)
    fun s a t o hs _ hst' => hst s a t o hs hst'

/-- The run up to a step, and the step. -/
theorem before {e : σ × α × ο} (h : Run step s₀ tr s) (he : e ∈ tr) :
    ∃ tr', Run step s₀ tr' e.1 ∧ tr' ⊆ tr ∧ ∃ t, step e.1 e.2.1 = some (t, e.2.2) := by
  induction h with
  | nil => cases he
  | @snoc tr m t a o hr hs ih =>
    rcases mem_snoc.mp he with he | rfl
    · obtain ⟨tr', hrun, hsub, hst⟩ := ih he
      exact ⟨tr', hrun, fun x hx => mem_append_left _ (hsub hx), hst⟩
    · exact ⟨tr, hr, fun x hx => mem_append_left _ hx, t, hs⟩

/-- STEP RULE: under an invariant of the admissible runs, every step of such a run starts in a state
    where the invariant holds, and is a step of the machine. -/
theorem step_of (ok : σ → α → Prop) (P : σ → Prop) (h : Run step s₀ tr s) (h0 : P s₀)
    (hok : ∀ e ∈ tr, ok e.1 e.2.1) (hst : ∀ s a t o, P s → ok s a → step s a = some (t, o) → P t) :
    ∀ e ∈ tr, P e.1 ∧ ∃ t, step e.1 e.2.1 = some (t, e.2.2) := by
  intro e he
  obtain ⟨tr', hrun, hsub, hnx⟩ := h.before he
  exact ⟨hrun.invariant_of ok P h0 (fun e he => hok e (hsub he)) hst, hnx⟩

/-- What holds in every state of a run holds after each of its steps. -/
theorem after_of_states (P : σ → Prop) (h : Run step s₀ tr s) (hsta : ∀ e ∈ tr, P e.1)
    (hlast : P s) : ∀ e ∈ tr, ∃ t, step e.1 e.2.1 = some (t, e.2.2) ∧ P t := by
  induction h with
  | nil => simp
  | @snoc tr m t a o _ hs ih =>
    intro e he
    rcases mem_snoc.mp he with he | rfl
    · refine ih (fun e he => hsta e (mem_append_left _ he)) ?_ e he
      exact hsta (m, a, o) mem_concat_self
    · exact ⟨t, hs, hlast⟩

theorem cons {a : α} {o : ο} (h : step s₀ a = some (s, o)) (hr : Run step s tr t) :
    Run step s₀ ((s₀, a, o) :: tr) t := by
  induction hr with
  | nil => exact snoc nil h
  | snoc _ hs ih => exact snoc ih hs

theorem trans {tr' : List (σ × α × ο)} (h : Run step s₀ tr s) (h' : Run step s tr' t) :
    Run step s₀ (tr ++ tr') t := by
  induction h' with
  | nil => rwa [append_nil]
  | snoc _ hs ih =>
    rw [← append_assoc]
    exact snoc ih hs

/-- The state between two parts of a run. -/
theorem split {tr' : List (σ × α × ο)} (h : Run step s₀ (tr ++ tr') t) :
    ∃ m, Run step s₀ tr m ∧ Run step m tr' t := by
  induction tr' using reverseRecOn generalizing t with
  | nil => exact ⟨t, by rwa [append_nil] at h, .nil⟩
  | append_singleton tr' e ih =>
    rw [← append_assoc] at h
    generalize hall : tr ++ tr' ++ [e] = all at h
    cases h with
    | nil => simp at hall
    | snoc hrun hs =>
      obtain ⟨hpre, hlast⟩ := append_inj' hall rfl
      cases hlast
      obtain ⟨m, hfst, hrest⟩ := ih (hpre ▸ hrun)
      exact ⟨m, hfst, hrest.snoc hs⟩

theorem eq_of_nil (h : Run step s₀ [] t) : t = s₀ := by
  generalize hall : [] = all at h
  cases h with
  | nil => rfl
  | snoc => simp at hall

/-- The first step of a run is taken where the run starts. -/
theorem uncons {e : σ × α × ο} (h : Run step s₀ (e :: tr) t) :
    e.1 = s₀ ∧ ∃ m, step s₀ e.2.1 = some (m, e.2.2) ∧ Run step m tr t := by
  obtain ⟨m, hfst, hrest⟩ := split (singleton_append ▸ h : Run step s₀ ([e] ++ tr) t)
  generalize hone : [e] = one at hfst
  cases hfst with
  | nil => simp at hone
  | snoc hrun hs =>
    obtain ⟨hnil, hlast⟩ := append_inj' (show [] ++ [e] = _ from hone) rfl
    cases hlast
    obtain rfl := (hnil ▸ hrun : Run step s₀ [] _).eq_of_nil
    exact ⟨rfl, m, hs, hrest⟩

/-- What `exec` computes is a run of the actions. -/
theorem of_exec : ∀ {as : List α} {s₀ : σ} {tr : List (σ × α × ο)} {t : σ},
    exec step s₀ as = some (tr, t) → Run step s₀ tr t ∧ tr.map (fun e => e.2.1) = as
  | [], s₀, tr, t, h => by
    cases h
    exact ⟨nil, rfl⟩
  | a :: as, s₀, tr, t, h => by
    rw [exec] at h
    cases hs : step s₀ a with
    | none => simp [hs] at h
    | some p =>
      rw [hs] at h
      obtain ⟨r, hr, heq⟩ := Option.map_eq_some_iff.mp h
      obtain ⟨hrun, hlab⟩ := of_exec hr
      cases heq
      exact ⟨cons hs hrun, by rw [map_cons, hlab]⟩

/-- A run of the given actions, computed by `exec`, with what was checked of it. -/
theorem exists_labelled_of_exec (step : σ → α → Option (σ × ο)) (s₀ : σ) (as : List α)
    (P : List (σ × α × ο) → σ → Prop) [∀ tr t, Decidable (P tr t)]
    (h : ((exec step s₀ as).any fun r => P r.1 r.2) = true) :
    ∃ tr t, Run step s₀ tr t ∧ tr.map (fun e => e.2.1) = as ∧ P tr t := by
  obtain ⟨⟨tr, t⟩, hexec, hchk⟩ := Option.any_eq_true _ _ |>.mp h
  obtain ⟨hrun, hlab⟩ := of_exec hexec
  exact ⟨tr, t, hrun, hlab, of_decide_eq_true hchk⟩

theorem exists_of_exec (step : σ → α → Option (σ × ο)) (s₀ : σ) (as : List α)
    (P : List (σ × α × ο) → σ → Prop) [∀ tr t, Decidable (P tr t)]
    (h : ((exec step s₀ as).any fun r => P r.1 r.2) = true) : ∃ tr t, Run step s₀ tr t ∧ P tr t := by
  obtain ⟨tr, t, hrun, -, hP⟩ := exists_labelled_of_exec step s₀ as P h
  exact ⟨tr, t, hrun, hP⟩

end Run

theorem eq_take_append {α : Type*} {l : List α} {i : ℕ} {e : α} (h : l[i]? = some e) :
    l = l.take i ++ e :: l.drop (i + 1) := by
  obtain ⟨hi, rfl⟩ := List.getElem?_eq_some_iff.mp h
  rw [← drop_eq_getElem_cons hi, take_append_drop]

end Schemes
