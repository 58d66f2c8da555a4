import LetsInfer.Schemes.Runs

/-! @scheme programs | name:Programs over a shared state | family:rely-guarantee

    A program asks a shared state for one operation after another and computes in between. Many of
    them run side by side: a call is started, each of its operations is one atomic step of the shared
    state, and at its end it returns. `Safe` is a Hoare triple for such a program: from its
    precondition, every operation keeps the invariant of the shared state and makes a change the
    others can rely on, and the result satisfies the postcondition. Assertions between operations are
    stable under the changes of others. `Tracks.run` carries a triple through every run. -/

namespace Schemes
open List

/-- A program with operations `ι` that answer in `ρ`. -/
inductive Prog (ι : Type) (ρ : ι → Type) (α : Type) : Type
  | done (a : α)
  | call (i : ι) (next : ρ i → Prog ι ρ α)

namespace Prog

variable {ι : Type} {ρ : ι → Type} {α β : Type}

def bind : Prog ι ρ α → (α → Prog ι ρ β) → Prog ι ρ β
  | done a, f => f a
  | call i next, f => call i fun r => (next r).bind f

instance monad : Monad (Prog ι ρ) where
  pure := done
  bind := bind

/-- One operation, with its answer as the result. -/
def ask (i : ι) : Prog ι ρ (ρ i) := call i done

end Prog

/-! ### Programs side by side -/

section Machine

variable {ι : Type} {ρ : ι → Type} {α σ κ E : Type}

/-- A call: what was asked, and what is left to do; nothing once it has returned. -/
structure Invocation (ι : Type) (ρ : ι → Type) (α κ : Type) where
  request : κ
  rest : Option (Prog ι ρ α)

structure Machine (ι : Type) (ρ : ι → Type) (α σ κ : Type) where
  shared : σ
  calls : List (Invocation ι ρ α κ)

inductive Move (κ E : Type) where
  | start (request : κ)
  | advance (call : ℕ) (environment : E)

/-- A call is started, takes its next operation, or returns. -/
def machineStep (program : κ → Prog ι ρ α) (handle : E → σ → (i : ι) → ρ i × σ)
    (m : Machine ι ρ α σ κ) : Move κ E → Option (Machine ι ρ α σ κ × Option (κ × α))
  | .start request => some (⟨m.shared, m.calls ++ [⟨request, some (program request)⟩]⟩, none)
  | .advance n environment =>
    match m.calls[n]? with
    | none | some ⟨_, none⟩ => none
    | some ⟨request, some (.done a)⟩ =>
      some (⟨m.shared, m.calls.set n ⟨request, none⟩⟩, some (request, a))
    | some ⟨request, some (.call i next)⟩ =>
      some (⟨(handle environment m.shared i).2,
        m.calls.set n ⟨request, some (next (handle environment m.shared i).1)⟩⟩, none)

/-- The operation that the next step of a call takes. -/
def Machine.operation (m : Machine ι ρ α σ κ) : Move κ E → Option ι
  | .start _ => none
  | .advance n _ =>
    match m.calls[n]? with
    | some ⟨_, some (.call i _)⟩ => some i
    | _ => none

inductive MachineMoves (program : κ → Prog ι ρ α) (handle : E → σ → (i : ι) → ρ i × σ)
    (m : Machine ι ρ α σ κ) : Move κ E → Machine ι ρ α σ κ → Option (κ × α) → Prop
  | start (request : κ) : MachineMoves program handle m (.start request)
      ⟨m.shared, m.calls ++ [⟨request, some (program request)⟩]⟩ none
  | returns {n : ℕ} {request : κ} {a : α} (environment : E)
      (found : m.calls[n]? = some ⟨request, some (.done a)⟩) :
      MachineMoves program handle m (.advance n environment)
        ⟨m.shared, m.calls.set n ⟨request, none⟩⟩ (some (request, a))
  | operates {n : ℕ} {request : κ} {i : ι} {next : ρ i → Prog ι ρ α} (environment : E)
      (found : m.calls[n]? = some ⟨request, some (.call i next)⟩) :
      MachineMoves program handle m (.advance n environment)
        ⟨(handle environment m.shared i).2,
          m.calls.set n ⟨request, some (next (handle environment m.shared i).1)⟩⟩ none

variable {m m' : Machine ι ρ α σ κ} {move : Move κ E} {output : Option (κ × α)}
  {tr : List (Machine ι ρ α σ κ × Move κ E × Option (κ × α))} {n : ℕ} {request : κ} {P : σ → Prop}
  {Q : α → σ → Prop}

section Steps

variable {program : κ → Prog ι ρ α} {handle : E → σ → (i : ι) → ρ i × σ}

theorem machineStep_moves (h : machineStep program handle m move = some (m', output)) :
    MachineMoves program handle m move m' output := by
  cases move with
  | start request =>
    cases h
    exact .start request
  | advance n environment =>
    rw [machineStep] at h
    split at h
    · cases h
    · cases h
    · next request a found =>
      cases h
      exact .returns environment found
    · next request i next found =>
      cases h
      exact .operates environment found

/-- FRAME: a call is where it was as long as it is not advanced. -/
theorem call_kept {c : Invocation ι ρ α κ} (hrun : Run (machineStep program handle) m tr m')
    (hidle : ∀ e ∈ tr, ∀ environment, e.2.1 ≠ .advance n environment) (hcall : m.calls[n]? = some c) :
    m'.calls[n]? = some c := by
  induction hrun with
  | nil => exact hcall
  | snoc _ hst ih =>
    have hbef := ih fun e he => hidle e (mem_append_left _ he)
    have hlast := hidle _ mem_concat_self
    cases machineStep_moves hst with
    | start request =>
      exact (getElem?_append_left (List.getElem?_eq_some_iff.mp hbef).1).trans hbef
    | returns environment found | operates environment found =>
      refine (getElem?_set_ne ?_).trans hbef
      rintro rfl
      exact hlast environment rfl

theorem call_of_start (hst : machineStep program handle m (.start request) = some (m', output)) :
    m'.calls[m.calls.length]? = some ⟨request, some (program request)⟩ := by
  cases hst
  simp

theorem operates_of_call {i : ι} {next : ρ i → Prog ι ρ α} {environment : E}
    (hcall : m.calls[n]? = some ⟨request, some (.call i next)⟩)
    (hst : machineStep program handle m (.advance n environment) = some (m', output)) :
    m'.calls[n]? = some ⟨request, some (next (handle environment m.shared i).1)⟩ := by
  rw [machineStep, hcall] at hst
  cases hst
  exact getElem?_set_self (List.getElem?_eq_some_iff.mp hcall).1

theorem returns_of_done {a : α} {environment : E}
    (hcall : m.calls[n]? = some ⟨request, some (.done a)⟩)
    (hst : machineStep program handle m (.advance n environment) = some (m', output)) :
    output = some (request, a) := by
  rw [machineStep, hcall] at hst
  cases hst
  rfl

end Steps

/-! ### Triples -/

variable (handle : E → σ → (i : ι) → ρ i × σ) (I : σ → Prop) (G : σ → σ → Prop)

/-- An assertion that the changes of others keep. -/
def Stable (P : σ → Prop) : Prop := ∀ s s', I s → I s' → G s s' → P s → P s'

inductive Safe (Q : α → σ → Prop) : (σ → Prop) → Prog ι ρ α → Prop
  | done {P : σ → Prop} {a : α} (h : ∀ s, I s → P s → Q a s) : Safe Q P (.done a)
  | call {P : σ → Prop} {i : ι} {next : ρ i → Prog ι ρ α} (P' : ρ i → σ → Prop)
      (stable : ∀ r, Stable I G (P' r))
      (own : ∀ e s, I s → P s → I (handle e s i).2 ∧ G s (handle e s i).2 ∧
        P' (handle e s i).1 (handle e s i).2)
      (rest : ∀ r, Safe Q (P' r) (next r)) : Safe Q P (.call i next)

variable {handle I G}

theorem Stable.true : Stable I G fun _ => True := fun _ _ _ _ _ _ => trivial

theorem Stable.and {Q : σ → Prop} (hP : Stable I G P) (hQ : Stable I G Q) :
    Stable I G fun s => P s ∧ Q s :=
  fun s s' hs hs' hG h => ⟨hP s s' hs hs' hG h.1, hQ s s' hs hs' hG h.2⟩

namespace Safe

variable {β : Type} {P P' : σ → Prop} {Q R : α → σ → Prop} {p : Prog ι ρ α}

/-- CONSEQUENCE: a stronger precondition. -/
theorem pre (h : Safe handle I G Q P p) (hP : ∀ s, I s → P' s → P s) : Safe handle I G Q P' p := by
  cases h with
  | done hdone => exact .done fun s hs hpre => hdone s hs (hP s hs hpre)
  | call Pnext stable own rest =>
    exact .call Pnext stable (fun e s hs hpre => own e s hs (hP s hs hpre)) rest

theorem of_false (p : Prog ι ρ α) : Safe handle I G Q (fun _ => False) p := by
  induction p with
  | done a => exact .done fun _ _ h => h.elim
  | call i next ih =>
    exact .call (fun _ _ => False) (fun _ _ _ _ _ _ h => h) (fun _ _ _ h => h.elim) ih

/-- A fact that the precondition gives may be used from the start. -/
theorem of_fact {φ : Prop} (hfact : ∀ s, I s → P s → φ) (h : φ → Safe handle I G Q P p) :
    Safe handle I G Q P p := by
  by_cases hφ : φ
  · exact h hφ
  · exact (of_false p).pre fun s hs hP => hφ (hfact s hs hP)

variable {ε : Type} {f : α → ExceptT ε (Prog ι ρ) β} {S : β → σ → Prop} {x : ExceptT ε (Prog ι ρ) α}

/-- SEQUENCE: the result of the first program is what the second starts from. -/
theorem bind {f : α → Prog ι ρ β} (h : Safe handle I G Q P p)
    (hf : ∀ a, Safe handle I G S (Q a) (f a)) : Safe handle I G S P (p >>= f) := by
  induction h with
  | done hdone => exact (hf _).pre hdone
  | call Pnext stable own _ ih => exact .call Pnext stable own ih

/-- OPERATION: one operation on its own. -/
theorem ask {i : ι} {Q : ρ i → σ → Prop} (stable : ∀ r, Stable I G (Q r))
    (own : ∀ e s, I s → P s → I (handle e s i).2 ∧ G s (handle e s i).2 ∧
      Q (handle e s i).1 (handle e s i).2) : Safe handle I G Q P (Prog.ask i : Prog ι ρ (ρ i)) :=
  .call Q stable own fun _ => .done fun _ _ h => h

/-- SEQUENCE in a program that may fail: an error ends it. -/
theorem bindExcept {P : σ → Prop} {Q : Except ε α → σ → Prop} {S : Except ε β → σ → Prop}
    (h : Safe handle I G Q P x) (hok : ∀ a, Safe handle I G S (Q (.ok a)) (f a))
    (herr : ∀ e s, I s → Q (.error e) s → S (.error e) s) :
    Safe handle I G S P (x >>= f : ExceptT ε (Prog ι ρ) β) := by
  have hnx : ∀ result, Safe handle I G S (Q result) (ExceptT.bindCont f result) := by
    intro result
    cases result with
    | ok a => exact hok a
    | error e => exact .done (herr e)
  exact h.bind hnx

/-- A postcondition on results only; errors are free. -/
def onOk {ε α σ : Type} (Q : α → σ → Prop) : Except ε α → σ → Prop
  | .ok a, s => Q a s
  | .error _, _ => True

theorem bindOk {P : σ → Prop} {Q : α → σ → Prop} (h : Safe handle I G (onOk Q) P x)
    (hok : ∀ a, Safe handle I G (onOk S) (Q a) (f a)) :
    Safe handle I G (onOk S) P (x >>= f : ExceptT ε (Prog ι ρ) β) :=
  bindExcept h hok fun _ _ _ _ => trivial

theorem map {γ : Type} {f : α → γ} {S : γ → σ → Prop} (h : Safe handle I G Q P p)
    (hf : ∀ a s, I s → Q a s → S (f a) s) : Safe handle I G S P (f <$> p) :=
  h.bind fun a => .done (hf a)

end Safe

/-! ### Triples along runs -/

variable {program : κ → Prog ι ρ α} {post : κ → α → σ → Prop}

/-- Every call is at a point from which it is safe. -/
structure Legit (handle : E → σ → (i : ι) → ρ i × σ) (I : σ → Prop) (G : σ → σ → Prop)
    (post : κ → α → σ → Prop) (m : Machine ι ρ α σ κ) : Prop where
  inv : I m.shared
  calls : ∀ c ∈ m.calls, ∀ p, c.rest = some p →
    ∃ P, Stable I G P ∧ P m.shared ∧ Safe handle I G (post c.request) P p

/-- One call is at a point from which its result satisfies `Q`. -/
def Tracks (handle : E → σ → (i : ι) → ρ i × σ) (I : σ → Prop) (G : σ → σ → Prop)
    (Q : α → σ → Prop) (m : Machine ι ρ α σ κ) (n : ℕ) : Prop :=
  ∃ c, m.calls[n]? = some c ∧ ∀ p, c.rest = some p →
    ∃ P, Stable I G P ∧ P m.shared ∧ Safe handle I G Q P p

theorem Legit.idle {s : σ} (h : I s) :
    Legit handle I G post (⟨s, []⟩ : Machine ι ρ α σ κ) := ⟨h, by simp⟩

/-- A call that was just started, from a state that satisfies its precondition. -/
theorem Tracks.start (hsafe : Safe handle I G Q P (program request)) (hstb : Stable I G P)
    (hP : P m.shared) (hst : machineStep program handle m (.start request) = some (m', output)) :
    Tracks handle I G Q m' m.calls.length := by
  refine ⟨_, call_of_start hst, ?_⟩
  cases hst
  rintro p ⟨⟩
  exact ⟨P, hstb, hP, hsafe⟩

theorem Tracks.stable {shared : σ} {calls : List (Invocation ι ρ α κ)} (h : Tracks handle I G Q m n)
    (hI : I m.shared) (hI' : I shared) (hG : G m.shared shared) (hcall : calls[n]? = m.calls[n]?) :
    Tracks handle I G Q ⟨shared, calls⟩ n := by
  obtain ⟨c, hc, hrest⟩ := h
  refine ⟨c, hcall.trans hc, ?_⟩
  intro p hp
  obtain ⟨P, hstb, hP, hsafe⟩ := hrest p hp
  exact ⟨P, hstb, hstb _ _ hI hI' hG hP, hsafe⟩

variable (hrefl : ∀ s, G s s)
  (hprogram : ∀ request, Safe handle I G (post request) (fun _ => True) (program request))
include hrefl hprogram

section

variable (h : Legit handle I G post m)
include h

/-- STEP: safe calls keep the invariant, every step is a change that others rely on, and what is
    returned is as promised. -/
theorem Legit.step (hst : machineStep program handle m move = some (m', output)) :
    Legit handle I G post m' ∧ G m.shared m'.shared ∧
      ∀ request a, output = some (request, a) → post request a m.shared := by
  cases machineStep_moves hst with
  | start request =>
    refine ⟨⟨h.inv, ?_⟩, hrefl _, by rintro _ _ ⟨⟩⟩
    intro c hc p hp
    rcases mem_snoc.mp hc with hc | rfl
    · exact h.calls c hc p hp
    · cases hp
      exact ⟨fun _ => True, .true, trivial, hprogram request⟩
  | returns environment found =>
    refine ⟨⟨h.inv, ?_⟩, hrefl _, ?_⟩
    · intro c hc p hp
      rcases mem_or_eq_of_mem_set hc with hc | rfl
      · exact h.calls c hc p hp
      · cases hp
    · rintro _ _ ⟨⟩
      obtain ⟨P, -, hP, hsafe⟩ := h.calls _ (mem_of_getElem? found) _ rfl
      cases hsafe with
      | done hdone => exact hdone _ h.inv hP
  | @operates n request i next environment found =>
    obtain ⟨P, -, hP, hsafe⟩ := h.calls _ (mem_of_getElem? found) _ rfl
    cases hsafe with
    | call P' stable own rest =>
      obtain ⟨hI, hG, hP'⟩ := own environment m.shared h.inv hP
      refine ⟨⟨hI, ?_⟩, hG, by rintro _ _ ⟨⟩⟩
      intro c hc p hp
      rcases mem_or_eq_of_mem_set hc with hc | rfl
      · obtain ⟨P₁, hstb, hP₁, hsafe₁⟩ := h.calls c hc p hp
        exact ⟨P₁, hstb, hstb _ _ h.inv hI hG hP₁, hsafe₁⟩
      · cases hp
        exact ⟨_, stable _, hP', rest _⟩

section

variable (hrun : Run (machineStep program handle) m tr m')
include hrun

/-- RUN: the same along every run. -/
theorem Legit.run : Legit handle I G post m' :=
  hrun.invariant _ h fun _ _ _ _ hlgt hst => (hlgt.step hrefl hprogram hst).1

/-- RUN: a stable assertion holds on. -/
theorem Legit.stable_run (hstb : Stable I G P) (hP : P m.shared) : P m'.shared := by
  induction hrun with
  | nil => exact hP
  | snoc hrun hst ih =>
    have hlgt := h.run hrefl hprogram hrun
    obtain ⟨hlgt', hG, -⟩ := hlgt.step hrefl hprogram hst
    exact hstb _ _ hlgt.inv hlgt'.inv hG ih

/-- RUN: every step starts in a safe machine, and so all that is returned is as promised. -/
theorem Legit.returns :
    ∀ e ∈ tr, ∀ request a, e.2.2 = some (request, a) → post request a e.1.shared := by
  intro e he request a hret
  obtain ⟨hlgt, m₁, hst⟩ := hrun.step_of (fun _ _ => True) (Legit handle I G post) h
    (fun _ _ => trivial) (fun _ _ _ _ hlgt _ hst => (hlgt.step hrefl hprogram hst).1) e he
  exact (hlgt.step hrefl hprogram hst).2.2 request a hret

end

end

section

variable (hlgt : Legit handle I G post m)
include hlgt

/-- STEP: a tracked call stays tracked, and if it returns, its result satisfies `Q`. -/
theorem Tracks.step (h : Tracks handle I G Q m n)
    (hst : machineStep program handle m move = some (m', output)) :
    Tracks handle I G Q m' n ∧ ∀ environment request a, move = .advance n environment →
      output = some (request, a) → Q a m.shared := by
  obtain ⟨hlgt', hG, -⟩ := hlgt.step hrefl hprogram hst
  cases machineStep_moves hst with
  | start request =>
    refine ⟨h.stable hlgt.inv hlgt'.inv hG ?_, by rintro _ _ _ ⟨⟩⟩
    obtain ⟨c, hc, -⟩ := h
    exact getElem?_append_left (List.getElem?_eq_some_iff.mp hc).1
  | @returns k request a environment found =>
    by_cases hk : k = n
    · subst hk
      obtain ⟨c, hc, hrest⟩ := h
      cases found.symm.trans hc
      refine ⟨⟨⟨request, none⟩, ?_, by rintro p ⟨⟩⟩, ?_⟩
      · rw [getElem?_set_self (List.getElem?_eq_some_iff.mp hc).1]
      · rintro _ _ _ - ⟨⟩
        obtain ⟨P, -, hP, hsafe⟩ := hrest _ rfl
        cases hsafe with
        | done hdone => exact hdone _ hlgt.inv hP
    · refine ⟨h.stable hlgt.inv hlgt'.inv hG (getElem?_set_ne hk), ?_⟩
      rintro _ _ _ ⟨⟩
      exact absurd rfl hk
  | @operates k request i next environment found =>
    by_cases hk : k = n
    · subst hk
      obtain ⟨c, hc, hrest⟩ := h
      cases found.symm.trans hc
      obtain ⟨P, -, hP, hsafe⟩ := hrest _ rfl
      cases hsafe with
      | call P' stable own rest =>
        refine ⟨⟨_, getElem?_set_self (List.getElem?_eq_some_iff.mp hc).1, ?_⟩,
          by rintro _ _ _ - ⟨⟩⟩
        rintro p ⟨⟩
        exact ⟨_, stable _, (own environment m.shared hlgt.inv hP).2.2, rest _⟩
    · exact ⟨h.stable hlgt.inv hlgt'.inv hG (getElem?_set_ne hk), by rintro _ _ _ - ⟨⟩⟩

/-- RUN: a tracked call returns, if it does, with a result that satisfies `Q`. -/
theorem Tracks.run (h : Tracks handle I G Q m n) (hrun : Run (machineStep program handle) m tr m') :
    Tracks handle I G Q m' n ∧ ∀ e ∈ tr, ∀ environment request a,
      e.2.1 = .advance n environment → e.2.2 = some (request, a) → Q a e.1.shared := by
  induction hrun with
  | nil => exact ⟨h, by simp⟩
  | snoc hrun hst ih =>
    obtain ⟨htra, hret⟩ := ih
    obtain ⟨htra', hlast⟩ :=
      htra.step hrefl hprogram (hlgt.run hrefl hprogram hrun) hst
    refine ⟨htra', ?_⟩
    intro e he
    rcases mem_snoc.mp he with he | rfl
    · exact hret e he
    · exact hlast

/-- RUN: a stable assertion holds in every state after one in which it held. -/
theorem Legit.stable_after {before after : List (Machine ι ρ α σ κ × Move κ E × Option (κ × α))}
    {e : Machine ι ρ α σ κ × Move κ E × Option (κ × α)}
    (hrun : Run (machineStep program handle) m (before ++ e :: after) m') (hstb : Stable I G P)
    (hP : P e.1.shared) : P m'.shared ∧ ∀ later ∈ after, P later.1.shared := by
  obtain ⟨middle, hbef, hrest⟩ := hrun.split
  obtain ⟨rfl, next, hst, haft⟩ := hrest.uncons
  have hlgt' := hlgt.run hrefl hprogram hbef
  obtain ⟨hnx, hG, -⟩ := hlgt'.step hrefl hprogram hst
  have hPnext := hstb _ _ hlgt'.inv hnx.inv hG hP
  refine ⟨hnx.stable_run hrefl hprogram haft hstb hPnext, ?_⟩
  intro later hlat
  obtain ⟨part, hpart, -⟩ := haft.before hlat
  exact hnx.stable_run hrefl hprogram hpart hstb hPnext

/-- RUN: what a call returns that was started where its precondition held. -/
theorem Legit.returns_of_start {before after : List (Machine ι ρ α σ κ × Move κ E × Option (κ × α))}
    {started : Machine ι ρ α σ κ × Move κ E × Option (κ × α)}
    (hrun : Run (machineStep program handle) m (before ++ started :: after) m')
    (hstr : started.2.1 = .start request) (hsafe : Safe handle I G Q P (program request))
    (hstb : Stable I G P) (hP : P started.1.shared) :
    ∀ e ∈ after, ∀ environment request a, e.2.1 = .advance started.1.calls.length environment →
      e.2.2 = some (request, a) → Q a e.1.shared := by
  obtain ⟨middle, hbef, hrest⟩ := hrun.split
  obtain ⟨rfl, next, hst, haft⟩ := hrest.uncons
  have hlgt' := hlgt.run hrefl hprogram hbef
  rw [hstr] at hst
  have htra := Tracks.start hsafe hstb hP hst
  exact (htra.run hrefl hprogram (hlgt'.step hrefl hprogram hst).1 haft).2

end

end Machine

end Schemes
