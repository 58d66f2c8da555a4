import Mathlib

/-! @scheme counters | name:Revision counters of records | family:optimistic concurrency

    Every record that exists has a revision. Creating it gives revision one, and a change or a
    removal takes the next one after the record's own; a removed record has none. The revisions of
    one record then grow along every sequence of such changes in which a removed record is not
    created again, and a record that stands at the revision it had was not changed in between. -/

namespace Schemes
open List

inductive ChangeKind where
  | create
  | advance
  | remove
  deriving DecidableEq

/-- A change of a record, with the revision it was given. -/
structure Change (τ : Type*) where
  target : τ
  kind : ChangeKind
  revision : ℕ

variable {τ : Type*}

/-- A removed record is not created again. -/
def NoRevival (changes : List (Change τ)) : Prop :=
  changes.Pairwise fun c later => c.kind = .remove → later.target = c.target → later.kind ≠ .create

variable {c : Change τ} {t : τ} {r : ℕ}

theorem NoRevival.concat {changes : List (Change τ)} (h : NoRevival (changes ++ [c])) :
    NoRevival changes ∧
      ∀ b ∈ changes, b.kind = .remove → c.target = b.target → c.kind ≠ .create := by
  obtain ⟨hpre, -, hlast⟩ := pairwise_append.mp h
  exact ⟨hpre, fun b hb => hlast b hb c (mem_singleton_self c)⟩

theorem mem_concat {α : Type*} {l : List α} {a b : α} : b ∈ l ++ [a] ↔ b ∈ l ∨ b = a := by
  rw [mem_append, mem_singleton]

variable [DecidableEq τ]

/-- The revisions of the records before and after one change. -/
inductive Bump : (τ → Option ℕ) → Change τ → (τ → Option ℕ) → Prop
  | create {revisions : τ → Option ℕ} {t : τ} (h : revisions t = none) :
      Bump revisions ⟨t, .create, 1⟩ (Function.update revisions t (some 1))
  | advance {revisions : τ → Option ℕ} {t : τ} {r : ℕ} (h : revisions t = some r) :
      Bump revisions ⟨t, .advance, r + 1⟩ (Function.update revisions t (some (r + 1)))
  | remove {revisions : τ → Option ℕ} {t : τ} {r : ℕ} (h : revisions t = some r) :
      Bump revisions ⟨t, .remove, r + 1⟩ (Function.update revisions t none)

/-- Changes one after another. -/
inductive Bumps (start : τ → Option ℕ) : List (Change τ) → (τ → Option ℕ) → Prop
  | nil : Bumps start [] start
  | snoc {changes : List (Change τ)} {revisions revisions' : τ → Option ℕ} {c : Change τ} :
      Bumps start changes revisions → Bump revisions c revisions' →
        Bumps start (changes ++ [c]) revisions'

variable {start revisions revisions' : τ → Option ℕ} {changes changes' : List (Change τ)}

theorem Bumps.trans (h : Bumps start changes revisions) (h' : Bumps revisions changes' revisions') :
    Bumps start (changes ++ changes') revisions' := by
  induction h' with
  | nil => rwa [append_nil]
  | snoc _ hbump ih =>
    rw [← append_assoc]
    exact ih.snoc hbump

theorem Bumps.single (h : Bump start c revisions) : Bumps start [c] revisions :=
  Bumps.nil.snoc h

section

variable (h : Bump revisions c revisions')
include h

theorem Bump.of_ne (ht : c.target ≠ t) : revisions' t = revisions t := by
  cases h with
  | create | advance | remove => exact Function.update_of_ne (Ne.symm ht) _ _

/-- A record that stands after a change of its own has the revision of that change. -/
theorem Bump.own (hr : revisions' c.target = some r) : c.revision = r := by
  cases h with
  | create => simpa using hr
  | advance => simpa using hr
  | remove => simp at hr

theorem Bump.removes (hno : revisions' c.target = none) : c.kind = .remove := by
  cases h with
  | create => simp at hno
  | advance => simp at hno
  | remove => rfl

end

/-- What the changes so far say of a record: one that stands has the greatest revision of them, and
    one that is missing was removed if it was changed at all. -/
structure Standing (changes : List (Change τ)) (revisions : τ → Option ℕ) : Prop where
  above : ∀ c ∈ changes, ∀ r, revisions c.target = some r → c.revision ≤ r
  removed : ∀ c ∈ changes, revisions c.target = none →
    ∃ c' ∈ changes, c'.target = c.target ∧ c'.kind = .remove

/-- STEP: a change that revives nothing is given a revision above those before it. -/
theorem Standing.bump (h : Standing changes revisions) (hbump : Bump revisions c revisions')
    (hno : ∀ b ∈ changes, b.kind = .remove → c.target = b.target → c.kind ≠ .create) :
    Standing (changes ++ [c]) revisions' ∧
      ∀ b ∈ changes, c.target = b.target → b.revision < c.revision := by
  have hgre : ∀ b ∈ changes, c.target = b.target → b.revision < c.revision := by
    intro b hb htgt
    cases hbump with
    | create hnon =>
      obtain ⟨b', hb', hsame, hkind⟩ := h.removed b hb (htgt ▸ hnon)
      exact absurd rfl (hno b' hb' hkind (htgt.trans hsame.symm))
    | advance hsome | remove hsome => exact Nat.lt_succ_of_le (h.above b hb _ (htgt ▸ hsome))
  refine ⟨⟨?_, ?_⟩, hgre⟩
  · intro b hb r hr
    rcases mem_concat.mp hb with hb | rfl
    · by_cases htgt : c.target = b.target
      · exact (hgre b hb htgt).le.trans (hbump.own (htgt ▸ hr)).le
      · exact h.above b hb r (hbump.of_ne htgt ▸ hr)
    · exact (hbump.own hr).le
  · intro b hb hnon
    by_cases htgt : c.target = b.target
    · exact ⟨c, mem_concat.mpr (.inr rfl), htgt, hbump.removes (htgt ▸ hnon)⟩
    · rcases mem_concat.mp hb with hb | rfl
      · obtain ⟨b', hb', hsame⟩ := h.removed b hb (hbump.of_ne htgt ▸ hnon)
        exact ⟨b', mem_concat.mpr (.inl hb'), hsame⟩
      · exact absurd rfl htgt

section

variable (h : Bumps start changes revisions)
include h

section

variable (hno : NoRevival changes)
include hno

/-- RUN: without revivals the changes stand behind the revisions, and those of one record grow. -/
theorem Bumps.increasing :
    Standing changes revisions ∧
      changes.Pairwise fun c later => later.target = c.target → c.revision < later.revision := by
  induction h with
  | nil => exact ⟨⟨by simp, by simp⟩, List.Pairwise.nil⟩
  | @snoc changes revisions revisions' c _ hbump ih =>
    obtain ⟨hpre, hlast⟩ := hno.concat
    obtain ⟨hstd, hgrow⟩ := ih hpre
    obtain ⟨hstd', hgre⟩ := hstd.bump hbump hlast
    refine ⟨hstd', pairwise_append.mpr ⟨hgrow, pairwise_singleton _ _, ?_⟩⟩
    intro b hb later hlat
    rw [mem_singleton.mp hlat]
    exact hgre b hb

/-- RUN: the changes of a record that stood at a revision have greater ones, as has the record. -/
theorem Bumps.above_start (hstr : start t = some r) :
    (∀ c ∈ changes, c.target = t → r < c.revision) ∧ (∀ r', revisions t = some r' → r ≤ r') ∧
      (revisions t = none → ∃ c ∈ changes, c.target = t ∧ c.kind = .remove) := by
  induction h with
  | nil =>
    refine ⟨by simp, ?_, ?_⟩
    · intro r' hr'
      exact (Option.some.inj (hstr.symm.trans hr')).le
    · intro hnon
      cases hstr.symm.trans hnon
  | @snoc changes revisions revisions' c _ hbump ih =>
    obtain ⟨hpre, hlast⟩ := hno.concat
    obtain ⟨hchg, hflo, hrem⟩ := ih hpre
    by_cases htgt : c.target = t
    · have habo : r < c.revision := by
        subst htgt
        cases hbump with
        | create hnon =>
          obtain ⟨b, hb, hsame, hkind⟩ := hrem hnon
          exact absurd rfl (hlast b hb hkind hsame.symm)
        | advance hsome | remove hsome => exact Nat.lt_succ_of_le (hflo _ hsome)
      refine ⟨?_, ?_, ?_⟩
      · intro b hb hb'
        rcases mem_concat.mp hb with hb | rfl
        · exact hchg b hb hb'
        · exact habo
      · intro r' hr'
        exact habo.le.trans (hbump.own (htgt ▸ hr')).le
      · intro hnon
        exact ⟨c, mem_concat.mpr (.inr rfl), htgt, hbump.removes (htgt ▸ hnon)⟩
    · rw [hbump.of_ne htgt]
      refine ⟨?_, hflo, ?_⟩
      · intro b hb hb'
        rcases mem_concat.mp hb with hb | rfl
        · exact hchg b hb hb'
        · exact absurd hb' htgt
      · intro hnon
        obtain ⟨b, hb, hrmv⟩ := hrem hnon
        exact ⟨b, mem_concat.mpr (.inl hb), hrmv⟩

/-- A record that stands at the revision it started with was not changed. -/
theorem Bumps.unchanged
    (hstr : start t = some r) (hend : revisions t = some r) : ∀ c ∈ changes, c.target ≠ t := by
  rintro c hc rfl
  have hlow := (h.above_start hno hstr).1 c hc rfl
  have hupp := (h.increasing hno).1.above c hc r hend
  exact absurd hlow hupp.not_gt

end

end

end Schemes
