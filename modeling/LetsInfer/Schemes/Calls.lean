import Mathlib

/-! @scheme calls | name:Fallible calls | family:hoare

    A call reads and changes a state and may fail, and what it had changed when it failed stays
    changed. `Post` is its weakest precondition, for the two ways it can end; the rules below take a
    sequence of calls and a loop over a list apart. -/

namespace Schemes

def Call (ε σ α : Type) : Type := σ → Except ε α × σ

namespace Call

variable {ε σ τ α β : Type}

instance : Monad (Call ε σ) where
  pure a := fun s => (.ok a, s)
  bind x f := fun s =>
    match x s with
    | (.ok a, t) => f a t
    | (.error e, t) => (.error e, t)

def fail (e : ε) : Call ε σ α := fun s => (.error e, s)

/-- A call with a given answer, which changes nothing. -/
def answer (r : Except ε α) : Call ε σ α := fun s => (r, s)

def get : Call ε σ σ := fun s => (.ok s, s)

def modify (f : σ → σ) : Call ε σ Unit := fun s => (.ok (), f s)

/-- Fails unless the condition holds. -/
def check (p : Bool) (e : ε) : Call ε σ Unit := if p then pure () else fail e

/-- A call made only under a condition. -/
def onlyIf (p : Bool) (x : Call ε σ Unit) : Call ε σ Unit := if p then x else pure ()

/-- A call, and what is called when it fails. -/
def handle (x : Call ε σ α) (h : ε → Call ε σ α) : Call ε σ α := fun s =>
  match x s with
  | (.ok b, t) => (.ok b, t)
  | (.error e, t) => h e t

/-- A call that answers whatever happens. -/
def orDefault (x : Call ε σ α) (a : α) : Call ε σ α := fun s =>
  match x s with
  | (.ok b, t) => (.ok b, t)
  | (.error _, t) => (.ok a, t)

/-- A call on the first part of the state. -/
def left (x : Call ε σ α) : Call ε (σ × τ) α := fun s => ((x s.1).1, (x s.1).2, s.2)

/-- A call on the second part of the state. -/
def right (x : Call ε τ α) : Call ε (σ × τ) α := fun s => ((x s.2).1, s.1, (x s.2).2)

/-- A call that leaves an entry about its answer. -/
@[irreducible]
def traced (x : Call ε σ α) (entry : Except ε α → τ) : Call ε (σ × List τ) α := fun s =>
  ((x s.1).1, (x s.1).2, s.2 ++ [entry (x s.1).1])

/-- A call whose answer is noted beside the state. -/
@[irreducible]
def noted (x : Call ε σ α) (note : Except ε α → τ → τ) : Call ε (σ × τ) α := fun s =>
  ((x s.1).1, (x s.1).2, note (x s.1).1 s.2)

@[simp] theorem pure_apply (a : α) (s : σ) : (pure a : Call ε σ α) s = (.ok a, s) := rfl

theorem bind_apply {x : Call ε σ α} {f : α → Call ε σ β} {s : σ} : (x >>= f) s =
    match x s with
    | (.ok a, t) => f a t
    | (.error e, t) => (.error e, t) := rfl

/-- The call ends in `Q`, or fails in `E`. -/
def Post (x : Call ε σ α) (s : σ) (Q : α → σ → Prop) (E : ε → σ → Prop) : Prop :=
  match x s with
  | (.ok a, t) => Q a t
  | (.error e, t) => E e t

section Rules

variable {x : Call ε σ α} {f : α → Call ε σ β} {s : σ} {Q Q' : α → σ → Prop}
  {R : β → σ → Prop} {E E' : ε → σ → Prop}

theorem Post.bind (h : x.Post s (fun a t => (f a).Post t R E) E) : (x >>= f).Post s R E := by
  unfold Post at h ⊢
  rw [bind_apply]
  generalize x s = outcome at h ⊢
  rcases outcome with ⟨error | a, t⟩
  · exact h
  · exact h

theorem Post.of_ok {a : α} {t : σ} (hrun : x s = (.ok a, t)) (h : Q a t) : x.Post s Q E := by
  unfold Post
  rwa [hrun]

theorem Post.pure {a : α} (h : Q a s) : (pure a : Call ε σ α).Post s Q E := h

theorem Post.answer {r : Except ε α} (hok : ∀ a, r = .ok a → Q a s)
    (herr : ∀ e, r = .error e → E e s) : (answer r : Call ε σ α).Post s Q E := by
  cases r with
  | ok a => exact hok a rfl
  | error e => exact herr e rfl

theorem Post.get {Q : σ → σ → Prop} (h : Q s s) : (get : Call ε σ σ).Post s Q E := h

theorem Post.modify {g : σ → σ} {Q : Unit → σ → Prop} (h : Q () (g s)) :
    (modify g : Call ε σ Unit).Post s Q E := h

theorem Post.mono (h : x.Post s Q E) (hQ : ∀ a t, Q a t → Q' a t) (hE : ∀ e t, E e t → E' e t) :
    x.Post s Q' E' := by
  unfold Post at h ⊢
  split at h
  · exact hQ _ _ h
  · exact hE _ _ h

/-- A call, and what follows from where it ends. -/
theorem Post.seq (hx : x.Post s Q E) (hf : ∀ a t, Q a t → (f a).Post t R E) :
    (x >>= f).Post s R E :=
  .bind (hx.mono hf fun _ _ h => h)

/-- What a call ends in whether it fails or not. -/
theorem Post.outcome {P : σ → Prop} (h : x.Post s (fun _ t => P t) fun _ t => P t) : P (x s).2 := by
  unfold Post at h
  generalize x s = outcome at h ⊢
  rcases outcome with ⟨error | a, t⟩
  · exact h
  · exact h

theorem Post.ite {p : Prop} [Decidable p] {y : Call ε σ α} (hx : p → x.Post s Q E)
    (hy : ¬p → y.Post s Q E) : (if p then x else y).Post s Q E := by
  split_ifs with hp
  · exact hx hp
  · exact hy hp

theorem Post.check {p : Bool} {e : ε} {Q : Unit → σ → Prop} (hp : p = true → Q () s)
    (he : p = false → E e s) : (check p e : Call ε σ Unit).Post s Q E :=
  .ite hp fun hno => he (Bool.not_eq_true _ ▸ hno)

theorem Post.onlyIf {p : Bool} {x : Call ε σ Unit} {Q : Unit → σ → Prop}
    (hx : p = true → x.Post s Q E) (hskip : p = false → Q () s) : (onlyIf p x).Post s Q E :=
  .ite hx fun hno => hskip (Bool.not_eq_true _ ▸ hno)

theorem Post.handle {h : ε → Call ε σ α} (hx : x.Post s Q fun e t => (h e).Post t Q E) :
    (x.handle h).Post s Q E := by
  have hrun : x.handle h s =
      match x s with
      | (.ok b, t) => (.ok b, t)
      | (.error e, t) => h e t := rfl
  unfold Post at hx ⊢
  rw [hrun]
  generalize x s = outcome at hx ⊢
  rcases outcome with ⟨error | b, t⟩
  · exact hx
  · exact hx

theorem Post.orDefault {a : α} (h : x.Post s Q fun _ t => Q a t) : (x.orDefault a).Post s Q E :=
  Post.handle h

theorem Post.right {x : Call ε τ α} {t : σ × τ} {Q : α → σ × τ → Prop} {E : ε → σ × τ → Prop}
    (h : x.Post t.2 (fun a u => Q a (t.1, u)) fun e u => E e (t.1, u)) :
    (right x : Call ε (σ × τ) α).Post t Q E := by
  have hrun : (Call.right x : Call ε (σ × τ) α) t = ((x t.2).1, t.1, (x t.2).2) := rfl
  unfold Post at h ⊢
  rw [hrun]
  generalize x t.2 = outcome at h ⊢
  rcases outcome with ⟨error | a, u⟩
  · exact h
  · exact h

theorem Post.left {x : Call ε σ α} {t : σ × τ} {Q : α → σ × τ → Prop} {E : ε → σ × τ → Prop}
    (h : x.Post t.1 (fun a u => Q a (u, t.2)) fun e u => E e (u, t.2)) :
    (left x : Call ε (σ × τ) α).Post t Q E := by
  have hrun : (Call.left x : Call ε (σ × τ) α) t = ((x t.1).1, (x t.1).2, t.2) := rfl
  unfold Post at h ⊢
  rw [hrun]
  generalize x t.1 = outcome at h ⊢
  rcases outcome with ⟨error | a, u⟩
  · exact h
  · exact h

theorem Post.traced {x : Call ε σ α} {entry : Except ε α → τ} {s : σ × List τ}
    {Q : α → σ × List τ → Prop} {E : ε → σ × List τ → Prop}
    (hok : ∀ a u, Q a (u, s.2 ++ [entry (.ok a)]))
    (herr : ∀ e u, E e (u, s.2 ++ [entry (.error e)])) : (x.traced entry).Post s Q E := by
  unfold Post Call.traced
  generalize x s.1 = outcome
  rcases outcome with ⟨error | a, u⟩
  · exact herr error u
  · exact hok a u

theorem Post.noted {x : Call ε σ α} {note : Except ε α → τ → τ} {s : σ × τ}
    {Q : α → σ × τ → Prop} {E : ε → σ × τ → Prop} (hok : ∀ a u, Q a (u, note (.ok a) s.2))
    (herr : ∀ e u, E e (u, note (.error e) s.2)) : (x.noted note).Post s Q E := by
  unfold Post Call.noted
  generalize x s.1 = outcome
  rcases outcome with ⟨error | a, u⟩
  · exact herr error u
  · exact hok a u

theorem Post.self : x.Post s (fun a t => x s = (.ok a, t)) fun e t => x s = (.error e, t) := by
  unfold Post
  split
  · assumption
  · assumption

/-- LOOP RULE: an invariant of the elements that are still to come. -/
theorem Post.foldlM {g : β → α → Call ε σ β} (I : List α → β → σ → Prop) {l : List α}
    (hst : ∀ a rest b t, I (a :: rest) b t → (g b a).Post t (I rest) E) :
    ∀ {b : β} {s : σ}, I l b s → (l.foldlM g b).Post s (I []) E := by
  induction l with
  | nil => intro b s h; exact h
  | cons a rest ih =>
    intro b s h
    rw [List.foldlM_cons]
    exact .seq (hst a rest b s h) fun _ _ hnx => ih hnx

end Rules

/-! ### What a call keeps -/

/-- Whichever way it ends, the call keeps what holds before it. -/
def Keeps (P : σ → Prop) (x : Call ε σ α) : Prop :=
  ∀ s, P s → x.Post s (fun _ t => P t) fun _ t => P t

section Keeps

variable {P : σ → Prop} {x : Call ε σ α}

theorem Keeps.bind {f : α → Call ε σ β} (hx : x.Keeps P) (hf : ∀ a, (f a).Keeps P) :
    (x >>= f).Keeps P :=
  fun s hs => .seq (hx s hs) fun a t ht => hf a t ht

theorem Keeps.pure {a : α} : (pure a : Call ε σ α).Keeps P := fun _ hs => hs

theorem Keeps.answer {r : Except ε α} : (answer r : Call ε σ α).Keeps P :=
  fun _ hs => .answer (fun _ _ => hs) fun _ _ => hs

theorem Keeps.ite {p : Prop} [Decidable p] {y : Call ε σ α} (hx : x.Keeps P) (hy : y.Keeps P) :
    (if p then x else y).Keeps P :=
  fun s hs => .ite (fun _ => hx s hs) fun _ => hy s hs

theorem Keeps.check {p : Bool} {e : ε} : (check p e : Call ε σ Unit).Keeps P :=
  .ite .pure fun _ hs => hs

theorem Keeps.onlyIf {p : Bool} {x : Call ε σ Unit} (hx : x.Keeps P) : (onlyIf p x).Keeps P :=
  .ite hx .pure

theorem Keeps.right {Q : τ → Prop} {y : Call ε τ α} (hy : y.Keeps Q) :
    (right y : Call ε (σ × τ) α).Keeps fun s => Q s.2 :=
  fun s hs => .right (hy s.2 hs)

/-- A call on the first part keeps what holds of the second. -/
theorem Keeps.left {Q : τ → Prop} : (left x : Call ε (σ × τ) α).Keeps fun s => Q s.2 := by
  intro s hs
  refine .left ?_
  unfold Post
  split
  · exact hs
  · exact hs

end Keeps

end Call

end Schemes
