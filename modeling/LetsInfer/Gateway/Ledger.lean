import LetsInfer.Gateway.Invariant

/-! @src core/gateway/src/li_gateway_telemetry.rs | name:The ledger of a run | scheme:ledger

    Which request a counter moved for is not in the state, so it is read off the run: a ledger
    follows every admission call from its receipt, through the identity it lives under, to its end,
    and credits it with each move of the terminal counters and of the admission counter. A step is
    one of six turns in the life of one request; each turn keeps the ledger in step with the
    counters. -/

namespace LetsInfer.Gateway
open Schemes Finset Function

/-! ### The ledger of a run -/

/-- Who a live identity belongs to, and what each call has been credited with. -/
structure Ledger where
  owner : Sha256Digest → Option ℕ := fun _ => none
  ended : ℕ → ℕ := fun _ => 0
  admitted : ℕ → ℕ := fun _ => 0

def Ledger.subject (ledger : Ledger) (s : Sys) : Label → Option ℕ
  | .receive _ => some s.calls
  | .prepare call _ _ _ _ => some call
  | .fetch call _ => some call
  | .admitSection call => some call
  | .recordFailure call => some call
  | .pollRead ticket _ => ledger.owner ticket.requestId
  | .pollCommit poll _ _ => ledger.owner poll.requestId
  | .cancelQueue ticket _ => ledger.owner ticket.requestId
  | .failQueue ticket _ => ledger.owner ticket.requestId
  | .complete reservation _ _ => ledger.owner reservation.request.requestId
  | .cancel reservation _ => ledger.owner reservation.request.requestId
  | .retry reservation _ _ _ => ledger.owner reservation.request.requestId
  | .fail reservation _ _ => ledger.owner reservation.request.requestId
  | .record _ _ => none
  | .snapshot _ => none
  | .restart => none

def GatewayAdmission.requestId : GatewayAdmission → Sha256Digest
  | .admitted reservation => reservation.request.requestId
  | .queued ticket => ticket.requestId

/-- A granted admission hands its identity to its call. -/
def enroll (owner : Sha256Digest → Option ℕ) : Label → Output → Sha256Digest → Option ℕ
  | .admitSection call, .admission (.ok answer) => Function.update owner answer.requestId (some call)
  | _, _ => owner

def credit (f : ℕ → ℕ) (who : Option ℕ) (n c : ℕ) : ℕ := f c + if who = some c then n else 0

def Ledger.after (ledger : Ledger) (s : Sys) (label : Label) (o : Output) (t : Sys) : Ledger where
  owner := enroll ledger.owner label o
  ended := credit ledger.ended (ledger.subject s label)
    (t.state.telemetry.tally.ended - s.state.telemetry.tally.ended)
  admitted := credit ledger.admitted (ledger.subject s label)
    (t.state.telemetry.tally.admitted - s.state.telemetry.tally.admitted)

/-- The ledger after one more step of a run; a restart begins a new one. -/
def Ledger.next (mode : GatewayMode) (ledger : Ledger) (e : Sys × Label × Output) : Ledger :=
  match e.2.1, step mode e.1 e.2.1 with
  | .restart, _ => {}
  | _, none => ledger
  | label, some (t, o) => ledger.after e.1 label o t

/-- The ledger of a run. -/
def ledgerOf (mode : GatewayMode) (tr : List (Sys × Label × Output)) : Ledger :=
  tr.foldl (Ledger.next mode) {}

/-! ### The turns of a request -/

/-- How far a live identity is: waiting and never placed, or already counted as admitted. -/
def GatewayState.stage (state : GatewayState) (id : Sha256Digest) : Option Bool :=
  match state.queued.lookup id with
  | some queued => some queued.wasAdmitted
  | none => if id ∈ state.activeRequests then some true else none

def Sys.stage (s : Sys) (id : Sha256Digest) : Option Bool := s.state.stage id

/-- The requests that have not ended: active, queued, or still inside admission. -/
def Sys.openRequests (s : Sys) : ℕ :=
  s.state.activeRequests.size + s.state.queued.size + s.admissions.size

/-- What one step does to the life of the request it acts for. -/
inductive Turn (s t : Sys) (who : Option ℕ) (owner owner' : Sha256Digest → Option ℕ) : Prop
  | idle (hcalls : t.calls = s.calls) (hinside : ∀ c, c ∈ t.admissions ↔ c ∈ s.admissions)
    (hstage : ∀ x, t.stage x = s.stage x) (hopen : t.openRequests = s.openRequests)
    (htally : t.state.telemetry.tally = s.state.telemetry.tally) (howner : owner' = owner)
  | receive (hcalls : t.calls = s.calls + 1)
    (hinside : ∀ c, c ∈ t.admissions ↔ c = s.calls ∨ c ∈ s.admissions)
    (hstage : ∀ x, t.stage x = s.stage x) (hopen : t.openRequests = s.openRequests + 1)
    (htally : t.state.telemetry.tally =
      { s.state.telemetry.tally with received := s.state.telemetry.tally.received + 1 })
    (howner : owner' = owner)
  | place {call : ℕ} (id : Sha256Digest) (admitted : Bool) (hwho : who = some call)
    (hcall : call ∈ s.admissions) (hfree : s.stage id = none) (hcalls : t.calls = s.calls)
    (hinside : ∀ c, c ∈ t.admissions ↔ c ≠ call ∧ c ∈ s.admissions)
    (hstage : ∀ x, t.stage x = if x = id then some admitted else s.stage x)
    (hopen : t.openRequests = s.openRequests)
    (htally : t.state.telemetry.tally =
      { s.state.telemetry.tally with
        admitted := s.state.telemetry.tally.admitted + admitted.toNat })
    (howner : owner' = Function.update owner id (some call))
  | refuse {call : ℕ} (hwho : who = some call) (hcall : call ∈ s.admissions)
    (hcalls : t.calls = s.calls) (hinside : ∀ c, c ∈ t.admissions ↔ c ≠ call ∧ c ∈ s.admissions)
    (hstage : ∀ x, t.stage x = s.stage x) (hopen : t.openRequests + 1 = s.openRequests)
    (htally : t.state.telemetry.tally =
      { s.state.telemetry.tally with ended := s.state.telemetry.tally.ended + 1 })
    (howner : owner' = owner)
  | move {id : Sha256Digest} {b : Bool} (hwho : who = owner id)
    (hlive : s.stage id = some b) (hcalls : t.calls = s.calls)
    (hinside : ∀ c, c ∈ t.admissions ↔ c ∈ s.admissions)
    (hstage : ∀ x, t.stage x = if x = id then some true else s.stage x)
    (hopen : t.openRequests = s.openRequests)
    (htally : t.state.telemetry.tally =
      { s.state.telemetry.tally with
        admitted := s.state.telemetry.tally.admitted + (!b).toNat })
    (howner : owner' = owner)
  | finish {id : Sha256Digest} {b : Bool} (hwho : who = owner id)
    (hlive : s.stage id = some b) (hcalls : t.calls = s.calls)
    (hinside : ∀ c, c ∈ t.admissions ↔ c ∈ s.admissions)
    (hstage : ∀ x, t.stage x = if x = id then none else s.stage x)
    (hopen : t.openRequests + 1 = s.openRequests)
    (htally : t.state.telemetry.tally =
      { s.state.telemetry.tally with ended := s.state.telemetry.tally.ended + 1 })
    (howner : owner' = owner)

/-- A call that has not ended: inside admission, or the owner of a live identity. -/
def Pending (s : Sys) (ledger : Ledger) (c : ℕ) : Prop :=
  c ∈ s.admissions ∨ ∃ id b, s.stage id = some b ∧ ledger.owner id = some c

/-- The ledger is in step with the counters. -/
structure Conserved (s : Sys) (ledger : Ledger) : Prop where
  received : s.state.telemetry.tally.received = s.calls
  balance : s.state.telemetry.tally.ended + s.openRequests = s.calls
  inside : ∀ c ∈ s.admissions, c < s.calls
  owned : ∀ id b, s.stage id = some b →
    ∃ c, ledger.owner id = some c ∧ c < s.calls ∧ c ∉ s.admissions
  distinct : ∀ id id' b b', s.stage id = some b → s.stage id' = some b' →
    ledger.owner id = ledger.owner id' → id = id'
  pending : ∀ c, s.calls ≤ c ∨ Pending s ledger c → ledger.ended c = 0
  settled : ∀ c, c < s.calls → ¬Pending s ledger c → ledger.ended c = 1
  admitted_le : ∀ c, ledger.admitted c ≤ 1
  fresh : ∀ c, (s.calls ≤ c ∨ c ∈ s.admissions ∨
    ∃ id, s.stage id = some false ∧ ledger.owner id = some c) → ledger.admitted c = 0
  admitted_sum : s.state.telemetry.tally.admitted = ∑ c ∈ range s.calls, ledger.admitted c
  ended_sum : s.state.telemetry.tally.ended = ∑ c ∈ range s.calls, ledger.ended c

theorem sum_credit {n who : ℕ} (f : ℕ → ℕ) (d : ℕ) (h : who < n) :
    ∑ c ∈ range n, credit f (some who) d c = ∑ c ∈ range n, f c + d := by
  simp only [credit, Option.some.injEq, sum_add_distrib, sum_ite_eq, mem_range, h, if_true]

@[simp] theorem credit_zero (f : ℕ → ℕ) (who : Option ℕ) : credit f who 0 = f := by
  funext c
  simp [credit]

theorem Conserved.empty (db : UsageDatabase) : Conserved { usage := db } {} where
  received := rfl
  balance := rfl
  inside c hc := absurd hc (Finmap.notMem_empty)
  owned id b h := by simp [Sys.stage, GatewayState.stage, Finmap.notMem_empty] at h
  distinct id id' b b' h := by simp [Sys.stage, GatewayState.stage, Finmap.notMem_empty] at h
  pending _ _ := rfl
  settled c hc := absurd hc (Nat.not_lt_zero c)
  admitted_le _ := Nat.zero_le 1
  fresh _ _ := rfl
  admitted_sum := rfl
  ended_sum := rfl

/-! ### A turn keeps the ledger in step -/

section Turns

variable {s t : Sys} {ldg : Ledger} {who : Option ℕ} {owner' : Sha256Digest → Option ℕ}

theorem credit_some (f : ℕ → ℕ) (who n c : ℕ) :
    credit f (some who) n c = if c = who then f c + n else f c := by
  unfold credit
  by_cases h : c = who
  · simp [h]
  · simp [h, Ne.symm h]

variable {id : Sha256Digest}

section

variable (h : Conserved s ldg)
include h

/-- The owner of a live identity has left admission and owns nothing else. -/
theorem Conserved.owner_of {b : Bool} (hlive : s.stage id = some b) :
    ∃ c, ldg.owner id = some c ∧ c < s.calls ∧
      (∀ c', c' ∈ s.admissions ↔ c' ≠ c ∧ c' ∈ s.admissions) ∧
      ∀ x b', x ≠ id → s.stage x = some b' → ldg.owner x ≠ some c := by
  obtain ⟨c, howr, hlt, hout⟩ := h.owned id b hlive
  refine ⟨c, howr, hlt, fun c' => ⟨fun hc => ⟨fun heq => hout (heq ▸ hc), hc⟩, And.right⟩, ?_⟩
  exact fun x b' hne hx hx' => hne (h.distinct x id b' b hx hlive (hx'.trans howr.symm))

theorem Conserved.unowned {call : ℕ} {x : Sha256Digest} {b : Bool}
    (hcall : call ∈ s.admissions) (hx : s.stage x = some b) : ldg.owner x ≠ some call := by
  intro hx'
  obtain ⟨c, hc, -, hout⟩ := h.owned x b hx
  exact hout (Option.some.inj (hx'.symm.trans hc) ▸ hcall)

theorem Conserved.idle (hcalls : t.calls = s.calls)
    (hinside : ∀ c, c ∈ t.admissions ↔ c ∈ s.admissions)
    (hsg : ∀ x, t.stage x = s.stage x) (hopen : t.openRequests = s.openRequests)
    (htally : t.state.telemetry.tally = s.state.telemetry.tally) : Conserved t ldg := by
  have hpen : ∀ c, Pending t ldg c ↔ Pending s ldg c := by
    intro c
    simp only [Pending, hinside, hsg]
  constructor
  · rw [htally, hcalls]; exact h.received
  · rw [htally, hcalls, hopen]; exact h.balance
  · intro c hc
    rw [hcalls]
    exact h.inside c ((hinside c).mp hc)
  · intro id b hb
    simp only [hcalls, hinside]
    exact h.owned id b ((hsg id).symm.trans hb)
  · intro id id' b b' hb hb'
    exact h.distinct id id' b b' ((hsg id).symm.trans hb) ((hsg id').symm.trans hb')
  · intro c hc
    rw [hcalls, hpen] at hc
    exact h.pending c hc
  · intro c hc hover
    rw [hcalls] at hc
    exact h.settled c hc (by rwa [hpen] at hover)
  · exact h.admitted_le
  · intro c hc
    simp only [hcalls, hinside, hsg] at hc
    exact h.fresh c hc
  · rw [htally, hcalls]; exact h.admitted_sum
  · rw [htally, hcalls]; exact h.ended_sum

theorem Conserved.receive (hcalls : t.calls = s.calls + 1)
    (hinside : ∀ c, c ∈ t.admissions ↔ c = s.calls ∨ c ∈ s.admissions)
    (hsg : ∀ x, t.stage x = s.stage x) (hopen : t.openRequests = s.openRequests + 1)
    (htally : t.state.telemetry.tally =
      { s.state.telemetry.tally with received := s.state.telemetry.tally.received + 1 }) :
    Conserved t ldg := by
  have hpen : ∀ c, Pending t ldg c ↔ c = s.calls ∨ Pending s ldg c := by
    intro c
    simp only [Pending, hinside, hsg, or_assoc]
  have hnew := h.pending s.calls (.inl le_rfl)
  have hnew' := h.fresh s.calls (.inl le_rfl)
  constructor
  · rw [htally, hcalls, ← h.received]
  · have := h.balance
    simp only [htally, hcalls, hopen]
    omega
  · intro c hc
    rcases (hinside c).mp hc with rfl | hc
    · omega
    · have := h.inside c hc
      omega
  · intro id b hb
    obtain ⟨c, howr, hlt, hout⟩ := h.owned id b ((hsg id).symm.trans hb)
    refine ⟨c, howr, by omega, fun hc => ?_⟩
    rcases (hinside c).mp hc with rfl | hc
    · omega
    · exact hout hc
  · intro id id' b b' hb hb'
    exact h.distinct id id' b b' ((hsg id).symm.trans hb) ((hsg id').symm.trans hb')
  · intro c hc
    rw [hcalls, hpen] at hc
    rcases hc with hc | rfl | hc
    · exact h.pending c (.inl (by omega))
    · exact hnew
    · exact h.pending c (.inr hc)
  · intro c hc hover
    rw [hpen, not_or] at hover
    exact h.settled c (by omega) hover.2
  · exact h.admitted_le
  · intro c hc
    simp only [hcalls, hinside, hsg] at hc
    rcases hc with hc | (rfl | hc) | hc
    · exact h.fresh c (.inl (by omega))
    · exact hnew'
    · exact h.fresh c (.inr (.inl hc))
    · exact h.fresh c (.inr (.inr hc))
  · simp only [htally, hcalls, sum_range_succ, hnew', h.admitted_sum, Nat.add_zero]
  · simp only [htally, hcalls, sum_range_succ, hnew, h.ended_sum, Nat.add_zero]

end

variable {ldg' : Ledger} {call : ℕ}

section Acting

variable (new : Option Bool) (gain : ℕ) (h : Conserved s ldg) (hlt : call < s.calls)
  (hpend : Pending s ldg call) (hgain : ldg.admitted call + gain ≤ 1)
  (hfresh : new = some false → ldg.admitted call + gain = 0) (hcalls : t.calls = s.calls)
  (hinside : ∀ c, c ∈ t.admissions ↔ c ≠ call ∧ c ∈ s.admissions)
  (hopen : t.openRequests + new.isNone.toNat = s.openRequests)
  (htally : t.state.telemetry.tally =
    { s.state.telemetry.tally with
      admitted := s.state.telemetry.tally.admitted + gain
      ended := s.state.telemetry.tally.ended + new.isNone.toNat })
  (hended : ldg'.ended = credit ldg.ended (some call) new.isNone.toNat)
  (hadmitted : ldg'.admitted = credit ldg.admitted (some call) gain)
include h hlt hpend hgain hfresh hcalls hinside hopen htally hended hadmitted

/-- A turn that acts for one pending call. Afterwards the call owns the identity alone, at the new
    stage, or nothing; then it is credited with its end. It is credited with an admission only if it
    had none. -/
theorem Conserved.credited (id : Sha256Digest)
    (hots : ∀ x b c, c ≠ call → (t.stage x = some b ∧ ldg'.owner x = some c ↔
      s.stage x = some b ∧ ldg.owner x = some c))
    (hself : ∀ x b, t.stage x = some b ∧ ldg'.owner x = some call ↔ x = id ∧ new = some b)
    (hown : ∀ x b, t.stage x = some b → ∃ c, ldg'.owner x = some c) : Conserved t ldg' := by
  have hno := h.pending call (.inr hpend)
  have hout : call ∉ t.admissions := fun hc => ((hinside call).mp hc).1 rfl
  have hoth : ∀ c, c ≠ call → (Pending t ldg' c ↔ Pending s ldg c) := by
    intro c hc
    simp only [Pending, hinside, hots _ _ c hc, ne_eq, hc, not_false_eq_true, true_and]
  have hcall : Pending t ldg' call ↔ new.isSome := by
    simp only [Pending, hout, false_or, hself, exists_and_left, exists_eq_left,
      Option.isSome_iff_exists]
  constructor
  · rw [htally, hcalls]; exact h.received
  · have := h.balance
    simp only [htally, hcalls]
    omega
  · intro c hc
    rw [hcalls]
    exact h.inside c ((hinside c).mp hc).2
  · intro x b hx
    obtain ⟨c, hc⟩ := hown x b hx
    rw [hcalls]
    by_cases hne : c = call
    · exact ⟨c, hc, hne ▸ hlt, hne ▸ hout⟩
    · obtain ⟨hx, hx'⟩ := (hots x b c hne).mp ⟨hx, hc⟩
      obtain ⟨c', hc', hlt', hout'⟩ := h.owned x b hx
      cases hx'.symm.trans hc'
      exact ⟨c, hc, hlt', fun hin => hout' ((hinside c).mp hin).2⟩
  · intro x y b b' hx hy hxy
    obtain ⟨c, hc⟩ := hown x b hx
    by_cases hne : c = call
    · subst hne
      rw [((hself x b).mp ⟨hx, hc⟩).1, ((hself y b').mp ⟨hy, hxy.symm.trans hc⟩).1]
    · obtain ⟨hx, hx'⟩ := (hots x b c hne).mp ⟨hx, hc⟩
      obtain ⟨hy, hy'⟩ := (hots y b' c hne).mp ⟨hy, hxy.symm.trans hc⟩
      exact h.distinct x y b b' hx hy (hx'.trans hy'.symm)
  · intro c hc
    rw [hended, credit_some]
    split_ifs with heq
    · subst heq
      rw [hcalls, hcall] at hc
      rcases hc with hc | hc
      · omega
      · rw [hno, Option.isNone_eq_false_iff.mpr hc]
        rfl
    · rw [hcalls, hoth c heq] at hc
      exact h.pending c hc
  · intro c hc hover
    rw [hended, credit_some]
    split_ifs with heq
    · subst heq
      rw [hcall] at hover
      simp_all
    · rw [hoth c heq] at hover
      exact h.settled c (hcalls ▸ hc) hover
  · intro c
    rw [hadmitted, credit_some]
    split_ifs with heq
    · rw [heq]; exact hgain
    · exact h.admitted_le c
  · intro c hc
    rw [hcalls] at hc
    rw [hadmitted, credit_some]
    split_ifs with heq
    · subst heq
      rcases hc with hc | hc | ⟨x, hx⟩
      · omega
      · exact absurd hc hout
      · exact hfresh ((hself x false).mp hx).2
    · simp only [hinside, hots _ _ c heq] at hc
      exact h.fresh c (hc.imp_right (Or.imp_left And.right))
  · rw [htally, hcalls, hadmitted, sum_credit _ _ hlt, ← h.admitted_sum]
  · rw [htally, hcalls, hended, sum_credit _ _ hlt, ← h.ended_sum]

/-- The identity of the call comes, goes or moves on. -/
theorem Conserved.restaged (hsg : ∀ x, t.stage x = if x = id then new else s.stage x)
    (howr : ldg'.owner = Function.update ldg.owner id (some call))
    (hfree : ∀ b c, s.stage id = some b → ldg.owner id = some c → c = call)
    (honly : ∀ x b, x ≠ id → s.stage x = some b → ldg.owner x ≠ some call) : Conserved t ldg' := by
  have hid : ldg'.owner id = some call := by rw [howr, update_self]
  have hne : ∀ x, x ≠ id → t.stage x = s.stage x ∧ ldg'.owner x = ldg.owner x :=
    fun x hx => ⟨by rw [hsg, if_neg hx], by rw [howr, update_of_ne hx]⟩
  refine Conserved.credited new gain h hlt hpend hgain hfresh hcalls hinside hopen htally hended
    hadmitted id (fun x b c hc => ?_) (fun x b => ?_) fun x b hx => ?_
  · by_cases hx : x = id
    · subst hx
      refine iff_of_false (fun ⟨_, hx⟩ => hc ?_) fun ⟨hx, hx'⟩ => hc (hfree b c hx hx')
      exact Option.some.inj (hx.symm.trans hid)
    · rw [(hne x hx).1, (hne x hx).2]
  · by_cases hx : x = id
    · subst hx
      simp [hsg, hid]
    · rw [(hne x hx).1, (hne x hx).2]
      exact iff_of_false (fun ⟨hb, hb'⟩ => honly x b hx hb hb') fun hb => hx hb.1
  · by_cases hx' : x = id
    · exact ⟨call, hx' ▸ hid⟩
    · rw [(hne x hx').1] at hx
      obtain ⟨c, hc, -⟩ := h.owned x b hx
      exact ⟨c, (hne x hx').2.trans hc⟩

end Acting

/-- TURN: every turn keeps the ledger in step with the counters. -/
theorem Conserved.turn (h : Conserved s ldg) (hturn : Turn s t who ldg.owner ldg'.owner)
    (hended : ldg'.ended = credit ldg.ended who
      (t.state.telemetry.tally.ended - s.state.telemetry.tally.ended))
    (hadmitted : ldg'.admitted = credit ldg.admitted who
      (t.state.telemetry.tally.admitted - s.state.telemetry.tally.admitted)) :
    Conserved t ldg' := by
  cases hturn with
  | idle hcalls hinside hsg hopen htally howr =>
    rw [htally, Nat.sub_self, credit_zero] at hended hadmitted
    have hsame : ldg' = ldg := by
      cases ldg; cases ldg'; simp_all
    exact hsame ▸ h.idle hcalls hinside hsg hopen htally
  | receive hcalls hinside hsg hopen htally howr =>
    simp only [htally, Nat.sub_self, credit_zero] at hended hadmitted
    have hsame : ldg' = ldg := by
      cases ldg; cases ldg'; simp_all
    exact hsame ▸ h.receive hcalls hinside hsg hopen htally
  | @place call id admitted hwho hcall hfree hcalls hinside hsg hopen htally howr =>
    have hzero := h.fresh call (.inr (.inl hcall))
    simp only [hwho, htally, Nat.sub_self, Nat.add_sub_cancel_left] at hended hadmitted
    refine Conserved.restaged (some admitted) _ h (h.inside call hcall) (.inl hcall) ?_ ?_ hcalls
      hinside hopen htally hended hadmitted hsg howr ?_ fun x b _ hx => h.unowned hcall hx
    · cases admitted <;> simp [hzero]
    · rintro ⟨⟩
      exact hzero
    · simp [hfree]
  | @refuse call hwho hcall hcalls hinside hsg hopen htally howr =>
    simp only [hwho, htally, Nat.sub_self, Nat.add_sub_cancel_left] at hended hadmitted
    refine Conserved.credited none 0 h (h.inside call hcall) (.inl hcall) (h.admitted_le call) nofun
      hcalls hinside hopen htally hended hadmitted ⟨""⟩ (fun x b c _ => by rw [hsg, howr])
      (fun x b => ?_) fun x b hx => ?_
    · rw [hsg, howr]
      exact iff_of_false (fun hx => h.unowned hcall hx.1 hx.2) nofun
    · rw [hsg] at hx
      obtain ⟨c, hc, -⟩ := h.owned x b hx
      exact ⟨c, howr ▸ hc⟩
  | @move id before hwho hlive hcalls hinside hsg hopen htally howr =>
    obtain ⟨call, hcall, hlt, hout, honly⟩ := h.owner_of hlive
    simp only [hwho, hcall, htally, Nat.sub_self, Nat.add_sub_cancel_left] at hended hadmitted
    refine Conserved.restaged (some true) _ h hlt (.inr ⟨id, before, hlive, hcall⟩) ?_ nofun hcalls
      (fun c => (hinside c).trans (hout c)) hopen htally hended hadmitted hsg ?_ ?_ honly
    · cases before with
      | true => exact h.admitted_le call
      | false => rw [h.fresh call (.inr (.inr ⟨id, hlive, hcall⟩))]; exact le_rfl
    · rw [howr, ← hcall, update_eq_self]
    · exact fun _ c _ hc => Option.some.inj (hc.symm.trans hcall)
  | @finish id before hwho hlive hcalls hinside hsg hopen htally howr =>
    obtain ⟨call, hcall, hlt, hout, honly⟩ := h.owner_of hlive
    simp only [hwho, hcall, htally, Nat.sub_self, Nat.add_sub_cancel_left] at hended hadmitted
    refine Conserved.restaged none 0 h hlt (.inr ⟨id, before, hlive, hcall⟩) (h.admitted_le call)
      nofun hcalls (fun c => (hinside c).trans (hout c)) hopen htally hended hadmitted hsg ?_ ?_ honly
    · rw [howr, ← hcall, update_eq_self]
    · exact fun _ c _ hc => Option.some.inj (hc.symm.trans hcall)

end Turns

end LetsInfer.Gateway
