import Mathlib

/-! @scheme checks | name:Checks in sequence | family:error-handling

    A function that checks its input step by step succeeds exactly if every step does; each lemma
    peels one step off. -/

namespace Schemes

variable {ε α β : Type}

variable {x : Except ε α} {b : β} {a : α} {l : List α} {r : List β} {R : α → β → Prop}

theorem bind_ok_iff {f : α → Except ε β} : (x >>= f) = .ok b ↔ ∃ a, x = .ok a ∧ f a = .ok b := by
  cases x with
  | error e => simp [bind, Except.bind]
  | ok a => simp [bind, Except.bind]

theorem throw_if_ok_iff {p : Prop} [Decidable p] {e : ε} {rest : Except ε α} :
    (if p then throw e else rest) = .ok a ↔ ¬p ∧ rest = .ok a := by
  split_ifs with h
  · simp [h]
  · simp [h]

theorem error_if_ok_iff {p : Prop} [Decidable p] {e : ε} {rest : Except ε α} :
    (if p then .error e else rest) = .ok a ↔ ¬p ∧ rest = .ok a :=
  throw_if_ok_iff

@[simp] theorem ok_bind (a : α) (f : α → Except ε β) : (Except.ok a >>= f) = f a := rfl

@[simp] theorem error_bind (e : ε) (f : α → Except ε β) : (Except.error e >>= f) = .error e := rfl

@[simp] theorem pure_eq_ok (a : α) : (pure a : Except ε α) = .ok a := rfl

@[simp] theorem throw_eq_error (e : ε) : (throw e : Except ε α) = .error e := rfl

theorem toOption_eq_some : x.toOption = some a ↔ x = .ok a := by
  cases x with
  | error e => simp [Except.toOption]
  | ok b => simp [Except.toOption]

theorem mapM_ok_iff {f : α → Except ε β} :
    l.mapM f = .ok r ↔ List.Forall₂ (fun a b => f a = .ok b) l r := by
  induction l generalizing r with
  | nil => cases r <;> simp
  | cons a l ih =>
    rw [List.mapM_cons, bind_ok_iff]
    constructor
    · rintro ⟨b, hb, hrest⟩
      obtain ⟨bs, hbs, hr⟩ := bind_ok_iff.mp hrest
      cases hr
      exact .cons hb (ih.mp hbs)
    · rintro (_ | ⟨hb, hbs⟩)
      exact ⟨_, hb, bind_ok_iff.mpr ⟨_, ih.mpr hbs, rfl⟩⟩

theorem exists_right_of_forall₂ (h : List.Forall₂ R l r) (ha : a ∈ l) : ∃ b ∈ r, R a b := by
  induction h with
  | nil => cases ha
  | cons hhead _ ih =>
    rcases List.mem_cons.mp ha with rfl | ha
    · exact ⟨_, List.mem_cons_self, hhead⟩
    · obtain ⟨b, hb, hab⟩ := ih ha
      exact ⟨b, List.mem_cons_of_mem _ hb, hab⟩

theorem exists_left_of_forall₂ (h : List.Forall₂ R l r) (hb : b ∈ r) : ∃ a ∈ l, R a b :=
  exists_right_of_forall₂ h.flip hb

/-- LOOP RULE: what every step of a loop keeps holds when the loop has succeeded. -/
theorem foldlM_ok_of {f : β → α → Except ε β} (I : β → Prop) {c : β} (h : l.foldlM f b = .ok c)
    (h0 : I b) (hst : ∀ b, ∀ a ∈ l, ∀ c, I b → f b a = .ok c → I c) : I c := by
  induction l generalizing b with
  | nil => exact Except.ok.inj h ▸ h0
  | cons a l ih =>
    rw [List.foldlM_cons] at h
    obtain ⟨m, hm, hrest⟩ := bind_ok_iff.mp h
    refine ih hrest (hst b a List.mem_cons_self m h0 hm) ?_
    intro b x hx
    exact hst b x (List.mem_cons_of_mem _ hx)

end Schemes
