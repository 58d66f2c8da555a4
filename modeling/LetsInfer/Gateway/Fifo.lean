import LetsInfer.Gateway.Invariant

/-! @src core/gateway/src/li_gateway_manager.rs | name:Queue order of a model | scheme:stamps

    Three operations reserve a route: the admission section, the commit of a poll and a retry. Only
    the poll looks at the queue. A run is stamped to compare requests: a call is received where it
    reads the clock, before it takes the lock, and its request has the stamp of that step; a retry
    that queues a request again stamps it anew. An admission that finds a free route while its model
    has waiters overtakes them, and one that is queued behind a request received after its own is
    overtaken later; a run without such admissions serves every model in the order of receipt. -/

namespace LetsInfer.Gateway
open Schemes List Finmap

/-! ### Stamps -/

/-- When each call was received and each identity was received or queued again, counted in steps of
    the run. -/
structure Stamps where
  clock : ℕ := 1
  receipt : ℕ → ℕ := fun _ => 0
  entry : Sha256Digest → ℕ := fun _ => 0

/-- The identity a step takes in, with its stamp: a granted admission has that of its receipt, a
    retry into the queue its own. -/
def Stamps.takenIn (stamps : Stamps) : Label → Output → Option (Sha256Digest × ℕ)
  | .admitSection call, .admission (.ok (.admitted reservation)) =>
    some (reservation.request.requestId, stamps.receipt call)
  | .admitSection call, .admission (.ok (.queued ticket)) =>
    some (ticket.requestId, stamps.receipt call)
  | .retry _ _ _ _, .admission (.ok (.queued ticket)) => some (ticket.requestId, stamps.clock)
  | _, _ => none

def Stamps.next (stamps : Stamps) (e : Sys × Label × Output) : Stamps where
  clock := stamps.clock + 1
  receipt call :=
    match e.2.1 with
    | .prepare prepared _ _ _ _ => if call = prepared then stamps.clock else stamps.receipt call
    | _ => stamps.receipt call
  entry id :=
    match stamps.takenIn e.2.1 e.2.2 with
    | some taken => if id = taken.1 then taken.2 else stamps.entry id
    | none => stamps.entry id

/-- The stamps of a run. -/
def stampsOf (tr : List (Sys × Label × Output)) : Stamps := tr.foldl Stamps.next {}

/-- The route reservation a step hands out. -/
def Output.reserves : Output → Option GatewayReservation
  | .admission (.ok (.admitted reservation)) => some reservation
  | .polled (.ok (.admitted reservation)) => some reservation
  | _ => none

/-- A step reserves a route while an earlier request of the same model stays queued. -/
def Overtakes (stamps : Stamps) (o : Output) (t : Sys) : Prop :=
  ∃ r, o.reserves = some r ∧ ∃ id q, t.state.queued.lookup id = some q ∧
    q.request.model = r.request.model ∧ stamps.entry id < stamps.entry r.request.requestId

/-- Every waiting or active request of a model has an earlier stamp. -/
def Stamps.inTurn (stamps : Stamps) (s : Sys) (model : LogicalModelName) (stamp : ℕ) : Bool :=
  (s.state.queueOrder.all fun id =>
    queuedForModel s.state model id = true → stamps.entry id < stamp) &&
  s.held.all fun r => r.request.model = model → stamps.entry r.request.requestId < stamp

/-- No step lets a request in past the queue: an admission section that finds a free route finds no
    waiter of its model, one that queues its request does so after all that were received before
    it, and the commit of a poll finds nothing under its identity or a request of the model it
    read. -/
def orderly (stamps : Stamps) (s : Sys) : Label → Output → Bool
  | .admitSection call, o =>
    match s.admissions.lookup call with
    | some ⟨_, .fetched arrival _⟩ =>
      match o with
      | .admission (.ok (.queued _)) =>
        stamps.inTurn s arrival.request.model (stamps.receipt call)
      | _ =>
        match selectRoute s.state arrival.request arrival.routes arrival.now with
        | .ok (.selected _) => !s.state.queueOrder.any (queuedForModel s.state arrival.request.model)
        | _ => true
    | _ => true
  | .pollCommit poll _ _, _ =>
    match s.state.queued.lookup poll.requestId with
    | some queued => queued.request.model = poll.request.model
    | none => true
  | _, _ => true

/-- The steps of a run that follow these stamps are orderly. -/
def orderlyFrom (stamps : Stamps) : List (Sys × Label × Output) → Bool
  | [] => true
  | e :: rest => orderly stamps e.1 e.2.1 e.2.2 && orderlyFrom (stamps.next e) rest

variable {s t : Sys} {id : Sha256Digest} {qd : QueuedRequest} {lab : Label} {o : Output}
  {new : GatewayReservation} {mode : GatewayMode} {stamps : Stamps} {stamp : ℕ}

theorem orderlyFrom_snoc {tr : List (Sys × Label × Output)} {e : Sys × Label × Output} :
    orderlyFrom stamps (tr ++ [e]) =
      (orderlyFrom stamps tr && orderly (tr.foldl Stamps.next stamps) e.1 e.2.1 e.2.2) := by
  induction tr generalizing stamps with
  | nil => simp [orderlyFrom]
  | cons e' tr ih => rw [cons_append, orderlyFrom, ih, orderlyFrom, Bool.and_assoc, List.foldl]

theorem Stamps.mem_inTurn {model : LogicalModelName} (h : stamps.inTurn s model stamp = true) :
    (∀ x ∈ s.state.queueOrder, queuedForModel s.state model x = true → stamps.entry x < stamp) ∧
    ∀ r ∈ s.held, r.request.model = model → stamps.entry r.request.requestId < stamp := by
  simpa only [Stamps.inTurn, Bool.and_eq_true, all_eq_true, decide_eq_true_eq] using h

theorem orderly_admission {call : ℕ} {req : GatewayRequest} {arr : Arrival}
    {rct : List GatewayUsageRecord} {rt : GatewayRoute}
    (h : orderly stamps s (.admitSection call) (.admission (.ok (.admitted new))) = true)
    (hcall : s.admissions.lookup call = some ⟨req, .fetched arr rct⟩)
    (hsel : selectRoute s.state arr.request arr.routes arr.now =
      .ok (.selected rt)) (hid : id ∈ s.state.queueOrder) :
    queuedForModel s.state arr.request.model id = false := by
  have hno : s.state.queueOrder.any (queuedForModel s.state arr.request.model) = false := by
    simpa [orderly, hcall, hsel] using h
  exact eq_false_of_ne_true fun hq => by
    rw [any_eq_true.mpr ⟨id, hid, hq⟩] at hno
    cases hno

theorem orderly_poll {poll : PollCall} {rts : Except GatewayError (List GatewayRoute)}
    {safety : PlacementSafety} (h : orderly stamps s (.pollCommit poll rts safety) o = true)
    (hq : s.state.queued.lookup poll.requestId = some qd) : qd.request.model = poll.request.model :=
    by
  simpa [orderly, hq] using h

/-! ### Stamps lie in the past -/

structure Stamps.Past (stamps : Stamps) : Prop where
  receipt : ∀ call, stamps.receipt call < stamps.clock
  entry : ∀ id, stamps.entry id < stamps.clock

theorem Stamps.takenIn_le {taken : Sha256Digest × ℕ} (h : stamps.Past)
    (htak : stamps.takenIn lab o = some taken) : taken.2 ≤ stamps.clock := by
  unfold Stamps.takenIn at htak
  split at htak <;> cases htak
  · exact (h.receipt _).le
  · exact (h.receipt _).le
  · exact le_rfl

theorem Stamps.Past.next (h : stamps.Past) (e : Sys × Label × Output) : (stamps.next e).Past := by
  constructor
  · intro call
    simp only [Stamps.next]
    split
    · split_ifs
      · exact Nat.lt_succ_self _
      · exact Nat.lt_succ_of_lt (h.receipt call)
    · exact Nat.lt_succ_of_lt (h.receipt call)
  · intro id
    simp only [Stamps.next]
    split
    · rename_i htak
      split_ifs
      · exact Nat.lt_succ_of_le (Stamps.takenIn_le h htak)
      · exact Nat.lt_succ_of_lt (h.entry id)
    · exact Nat.lt_succ_of_lt (h.entry id)

theorem stampsOf_past (tr : List (Sys × Label × Output)) : (stampsOf tr).Past := by
  induction tr using reverseRecOn with
  | nil => exact ⟨fun _ => Nat.one_pos, fun _ => Nat.one_pos⟩
  | append_singleton tr e ih =>
    rw [stampsOf, foldl_append]
    exact ih.next e

/-! ### The line -/

/-- The waiters of a model stand in stamp order, behind every active request of the model. -/
structure InLine (s : Sys) (stamps : Stamps) : Prop where
  sorted : s.state.queueOrder.Pairwise fun a b => ∀ model, queuedForModel s.state model a = true →
    queuedForModel s.state model b = true → stamps.entry a < stamps.entry b
  ahead : ∀ r ∈ s.held, ∀ id q, s.state.queued.lookup id = some q →
    q.request.model = r.request.model → stamps.entry r.request.requestId < stamps.entry id

section Line

theorem queuedForModel_iff {model : LogicalModelName} : queuedForModel s.state model id = true ↔
    ∃ q, s.state.queued.lookup id = some q ∧ q.request.model = model := by
  rw [queuedForModel]
  cases s.state.queued.lookup id <;> simp

theorem InLine.empty (db : UsageDatabase) (stamps : Stamps) : InLine { usage := db } stamps where
  sorted := .nil
  ahead r h := by cases h

theorem next_entry_none (h : stamps.takenIn lab o = none) :
    (stamps.next (s, lab, o)).entry = stamps.entry := by
  simp [Stamps.next, h]

theorem next_entry_self (h : stamps.takenIn lab o = some (id, stamp)) :
    (stamps.next (s, lab, o)).entry id = stamp := by
  simp [Stamps.next, h]

theorem next_entry_of_ne {x : Sha256Digest} (h : stamps.takenIn lab o = some (id, stamp))
    (hne : x ≠ id) : (stamps.next (s, lab, o)).entry x = stamps.entry x := by
  simp [Stamps.next, h, hne]

/-- A step that takes nobody in and only lets requests go. -/
theorem InLine.shrink (h : InLine s stamps) (hnew : stamps.takenIn lab o = none)
    (hord : t.state.queueOrder.Sublist s.state.queueOrder) (hheld : ∀ r ∈ t.held, r ∈ s.held)
    (hque : ∀ id q, t.state.queued.lookup id = some q → s.state.queued.lookup id = some q) :
    InLine t (stamps.next (s, lab, o)) := by
  have hmod : ∀ model x, queuedForModel t.state model x = true →
      queuedForModel s.state model x = true := by
    intro model x hx
    obtain ⟨q, hq, hmod⟩ := queuedForModel_iff.mp hx
    exact queuedForModel_iff.mpr ⟨q, hque x q hq, hmod⟩
  constructor
  · rw [next_entry_none hnew]
    exact (h.sorted.sublist hord).imp fun hab model ha hb => hab model (hmod _ _ ha) (hmod _ _ hb)
  · intro r hr id q hq hsame
    rw [next_entry_none hnew]
    exact h.ahead r (hheld r hr) id q (hque id q hq) hsame

theorem InLine.keep (h : InLine s stamps) (hnew : stamps.takenIn lab o = none)
    (hord : t.state.queueOrder = s.state.queueOrder) (hque : t.state.queued = s.state.queued)
    (hheld : ∀ r ∈ t.held, r ∈ s.held) : InLine t (stamps.next (s, lab, o)) :=
  h.shrink hnew (hord ▸ List.Sublist.refl _) hheld fun _ _ hq => hque ▸ hq

theorem InLine.leave (h : InLine s stamps) (hnew : stamps.takenIn lab o = none)
    (hord : t.state.queueOrder = (unqueue s.state id).queueOrder)
    (hque : t.state.queued = (unqueue s.state id).queued) (hheld : t.held = s.held) :
    InLine t (stamps.next (s, lab, o)) := by
  refine h.shrink hnew (hord ▸ filter_sublist) (fun r hr => hheld ▸ hr) fun x q hx => ?_
  exact Table.lookup_of_erase (hque ▸ hx)

/-- A step that puts an active request back on a route. -/
theorem InLine.swap {old : GatewayReservation} (new : GatewayReservation) (h : InLine s stamps)
    (hnew : stamps.takenIn lab o = none) (hord : t.state.queueOrder = s.state.queueOrder)
    (hque : t.state.queued = s.state.queued) (hold : old ∈ s.held)
    (hheld : ∀ r ∈ t.held, r = new ∨ r ∈ s.held) (hreq : new.request = old.request) :
    InLine t (stamps.next (s, lab, o)) := by
  have hleft : InLine { t with held := s.held } (stamps.next (s, lab, o)) :=
    h.keep hnew hord hque fun _ hr => hr
  refine ⟨hleft.sorted, fun r hr id q hq hmod => ?_⟩
  rcases hheld r hr with rfl | hr
  · rw [hreq] at hmod ⊢
    exact hleft.ahead old hold id q hq hmod
  · exact hleft.ahead r hr id q hq hmod

/-- A step that takes a request in on a route, with nobody of its model waiting. -/
theorem InLine.admitted (h : InLine s stamps)
    (hnew : stamps.takenIn lab o = some (new.request.requestId, stamp))
    (hfrh : new.request.requestId ∉ s.state.queueOrder)
    (hunh : ∀ r ∈ s.held, r.request.requestId ≠ new.request.requestId)
    (hord : t.state.queueOrder = s.state.queueOrder) (hqd : t.state.queued = s.state.queued)
    (hheld : t.held = new :: s.held) (hlis : ∀ x, x ∈ s.state.queueOrder ↔ x ∈ s.state.queued)
    (hnob : ∀ id q, s.state.queued.lookup id = some q →
      q.request.model ≠ new.request.model) : InLine t (stamps.next (s, lab, o)) := by
  have hque : ∀ x ∈ s.state.queueOrder, x ≠ new.request.requestId :=
    fun x hx heq => hfrh (heq ▸ hx)
  constructor
  · rw [hord]
    refine h.sorted.imp_of_mem fun ha hb hab model hfa hfb => ?_
    rw [queuedForModel, hqd] at hfa hfb
    rw [next_entry_of_ne hnew (hque _ ha), next_entry_of_ne hnew (hque _ hb)]
    exact hab model hfa hfb
  · intro r hr x q hq hmod
    rw [hqd] at hq
    rw [hheld] at hr
    rcases mem_cons.mp hr with rfl | hr
    · exact absurd hmod (hnob x q hq)
    · have hx := (hlis x).mpr (mem_of_lookup_eq_some hq)
      rw [next_entry_of_ne hnew (hunh r hr), next_entry_of_ne hnew (hque x hx)]
      exact h.ahead r hr x q hq hmod

/-- A step that takes a request in at the back of the queue, with a stamp after those of its
    model. -/
theorem InLine.append (qd : QueuedRequest) (h : InLine s stamps)
    (hnew : stamps.takenIn lab o = some (id, stamp)) (hfrh : id ∉ s.state.queueOrder)
    (hturn : stamps.inTurn s qd.request.model stamp = true)
    (hord : t.state.queueOrder = s.state.queueOrder ++ [id])
    (hheld : ∀ r ∈ t.held, r ∈ s.held ∧ r.request.requestId ≠ id)
    (hqd : t.state.queued = s.state.queued.insert id qd) : InLine t (stamps.next (s, lab, o)) := by
  obtain ⟨hwait, hact⟩ := Stamps.mem_inTurn hturn
  have hque : ∀ x ∈ s.state.queueOrder, x ≠ id := fun x hx heq => hfrh (heq ▸ hx)
  have hold : ∀ x ∈ s.state.queueOrder, ∀ model, queuedForModel t.state model x = true →
      queuedForModel s.state model x = true := by
    intro x hx model hfx
    rwa [queuedForModel, hqd, lookup_insert_of_ne _ (hque x hx)] at hfx
  constructor
  · rw [hord, pairwise_append]
    refine ⟨h.sorted.imp_of_mem fun ha hb hab model hfa hfb => ?_, by simp, fun x hx y hy model hfx
      hfy => ?_⟩
    · rw [next_entry_of_ne hnew (hque _ ha), next_entry_of_ne hnew (hque _ hb)]
      exact hab model (hold _ ha model hfa) (hold _ hb model hfb)
    · rw [List.mem_singleton.mp hy] at hfy ⊢
      rw [queuedForModel, hqd, Finmap.lookup_insert, decide_eq_true_eq] at hfy
      rw [next_entry_self hnew, next_entry_of_ne hnew (hque x hx)]
      exact hwait x hx (hfy ▸ hold x hx model hfx)
  · intro r hr x q hq hmod
    obtain ⟨hr, hne⟩ := hheld r hr
    rw [next_entry_of_ne hnew hne]
    rw [hqd, Table.lookup_insert_ite] at hq
    split_ifs at hq with hx
    · cases hq
      rw [hx, next_entry_self hnew]
      exact hact r hr hmod.symm
    · rw [next_entry_of_ne hnew hx]
      exact h.ahead r hr x q hq hmod

/-- The head of a model's line: whoever else waits for the model stands behind it. -/
theorem InLine.head {model : LogicalModelName} (h : InLine s stamps)
    (hfst : mustWait s.state model id = false) {x : Sha256Digest} (hx : x ∈ s.state.queueOrder)
    (hmod : queuedForModel s.state model x = true) (hne : x ≠ id) :
    stamps.entry id < stamps.entry x := by
  have hfind : s.state.queueOrder.find? (queuedForModel s.state model) = some id := by
    have hgate : ∀ y ∈ s.state.queueOrder, ¬y = id → queuedForModel s.state model y = true →
        s.state.queueOrder.find? (queuedForModel s.state model) = some id := by
      simpa [mustWait] using hfst
    exact hgate x hx hne hmod
  obtain ⟨hid, before, after, hord, hbef⟩ := find?_eq_some_iff_append.mp hfind
  have hsor := h.sorted
  rw [hord] at hx hsor
  rcases mem_append.mp hx with hx | hx
  · have := hbef x hx
    simp [hmod] at this
  · rcases mem_cons.mp hx with rfl | hx
    · exact absurd rfl hne
    · exact (pairwise_cons.mp (pairwise_append.mp hsor).2.1).1 x hx model hid hmod

/-- A step that moves the head of a model's line from the queue to a route. -/
theorem InLine.promote (h : InLine s stamps) (hnew : stamps.takenIn lab o = none)
    (hord : t.state.queueOrder = (unqueue s.state id).queueOrder)
    (hque : t.state.queued = (unqueue s.state id).queued) (hreq : new.request = qd.request)
    (hid : qd.request.requestId = id) (hheld : t.held = new :: s.held)
    (hlis : ∀ x, x ∈ s.state.queueOrder ↔ x ∈ s.state.queued)
    (hfst : mustWait s.state qd.request.model id = false) : InLine t (stamps.next (s, lab, o)) := by
  have hleft : InLine { t with held := s.held } (stamps.next (s, lab, o)) :=
    h.leave hnew hord hque rfl
  refine ⟨hleft.sorted, fun r hr x q hx hmod => ?_⟩
  rw [hheld] at hr
  rcases mem_cons.mp hr with rfl | hr
  · rw [hque, unqueue, Table.lookup_erase_ite] at hx
    split_ifs at hx with hne
    rw [hreq] at hmod
    rw [next_entry_none hnew, hreq, hid]
    exact h.head hfst ((hlis x).mpr (mem_of_lookup_eq_some hx))
      (queuedForModel_iff.mpr ⟨q, hx, hmod⟩) hne
  · exact hleft.ahead r hr x q hx hmod

/-- STEP: an orderly step keeps everybody in line. -/
theorem Moves.inLine (h : Moves mode s lab t o) (hacc : InOrder s) (hpast : stamps.Past)
    (hline : InLine s stamps) (hok : orderly stamps s lab o = true) :
    InLine t (stamps.next (s, lab, o)) := by
  have hera : ∀ (res r : GatewayReservation), r ∈ s.held.erase res →
      r ∈ s.held := fun _ _ => mem_of_mem_erase
  have hunh : ∀ {id : Sha256Digest}, s.state.live.Free id →
      ∀ r ∈ s.held, r.request.requestId ≠ id := by
    rintro id hfree r hr rfl
    exact hfree.1 (mem_of_lookup_eq_some (hacc.owned hr))
  cases h with
  | receive | prepare | fetch | recordFailure | pollMiss | pollRead | cancelQueueFail
  | failQueueFail | recordMiss | record | snapshotMiss | snapshot | pollIdle =>
    exact hline.keep rfl rfl rfl fun _ hr => hr
  | restart => exact .empty _ _
  | refuse hcall hpol =>
    have hpl := admitPolicy_places hpol
    exact hline.keep rfl hpl.queueOrder hpl.queued fun _ hr => hr
  | @dismiss call req arr rct e chg hcall hpol =>
    have hpl := (admitPolicy_places hpol).trans
      (releasePrincipal_places chg arr.principal arr.reservedTokens)
    exact hline.keep rfl hpl.queueOrder hpl.queued fun _ hr => hr
  | @admitted call req arr rct chg rt hcall hpol hsel =>
    have hpl := admitPolicy_places hpol
    have hfree := (admitPolicy_ok hpol).1
    rw [admitPolicy_frame hpol] at hsel
    refine hline.admitted rfl (fun hmem => hfree.2 ((hacc.listed _).mp hmem)) (hunh hfree)
      hpl.queueOrder hpl.queued rfl hacc.listed fun id q hq hmod => ?_
    have hid := (hacc.listed id).mpr (mem_of_lookup_eq_some hq)
    have hno := orderly_admission hok hcall hsel hid
    rw [queuedForModel, hq, decide_eq_false_iff_not] at hno
    exact hno hmod
  | @enqueue call req arr rct chg hcall hpol hroom =>
    have hpl := admitPolicy_places hpol
    have hfree := (admitPolicy_ok hpol).1
    have hturn : stamps.inTurn s arr.request.model (stamps.receipt call) = true := by
      simpa [orderly, hcall] using hok
    refine hline.append arr.queuedRequest rfl (fun hmem => hfree.2 ((hacc.listed _).mp hmem)) hturn
      ?_ ?_ ?_
    · exact congrArg (· ++ [arr.request.requestId]) hpl.queueOrder
    · exact fun r hr => ⟨hr, hunh hfree r hr⟩
    · exact congrArg (Finmap.insert arr.request.requestId arr.queuedRequest) hpl.queued
  | @pollExpire poll rts safety qd hpoll hq =>
    have hpl := releasePrincipal_places (unqueue s.state poll.requestId) qd.principal
      qd.reservedTokens
    exact hline.leave rfl hpl.queueOrder hpl.queued rfl
  | @cancelQueue ticket now qd hq | @failQueue ticket now qd hq =>
    have hpl := releasePrincipal_places (unqueue s.state ticket.requestId) qd.principal
      qd.reservedTokens
    exact hline.leave rfl hpl.queueOrder hpl.queued rfl
  | @pollAdmit poll rts safety qd rt hpoll hq hfst =>
    rw [← orderly_poll hok hq] at hfst
    exact hline.promote rfl rfl rfl rfl (hacc.named _ _ hq) rfl hacc.listed hfst
  | @complete res fin comp hmem =>
    have hpl := completed_places s.state res fin comp
    exact hline.keep rfl hpl.queueOrder hpl.queued (hera res)
  | @cancel res timing hmem =>
    have hpl := releasePrincipal_places (vacate s.state res) res.principal res.reservedTokens
    exact hline.keep rfl hpl.queueOrder hpl.queued (hera res)
  | @retryFail res now rts safety e hmem | @fail res now timing hmem =>
    have hpl := failed_places s.state res now
    exact hline.keep rfl hpl.queueOrder hpl.queued (hera res)
  | @retryAdmit res now rts safety cool rt hmem hcool =>
    subst hcool
    refine hline.swap ((res.requeued now).reserved rt now) rfl rfl rfl hmem (fun r hr => ?_) rfl
    exact (mem_cons.mp hr).imp_right (hera res r)
  | @retryEnqueue res now rts safety cool hmem hcool hroom =>
    subst hcool
    have hfree := (hacc.unplace hmem).2
    -- A retry into the queue stamps the request with its own step, after all stamps there are.
    have hturn : stamps.inTurn s res.request.model stamps.clock = true := by
      simp [Stamps.inTurn, hpast.entry]
    refine hline.append (res.requeued now) rfl
      (fun hq => hfree.2 ((hacc.listed _).mp hq)) hturn rfl (fun r hr => ?_) rfl
    exact (hacc.mem_erase_iff hmem).mp hr

end Line

/-! ### Whole runs -/

section Runs

variable {db : UsageDatabase} {tr : List (Sys × Label × Output)}

/-- RUN: in a run of orderly steps everybody stays in line. -/
theorem inLine_of_run (h : Run (step mode) { usage := db } tr s)
    (hok : orderlyFrom {} tr = true) : InLine s (stampsOf tr) := by
  induction h with
  | nil => exact .empty db _
  | @snoc tr s t lab o hrun hst ih =>
    rw [orderlyFrom_snoc, Bool.and_eq_true] at hok
    have hacc := inOrder_of_run hrun
    rw [stampsOf, foldl_append, foldl_cons, foldl_nil]
    exact (step_moves hacc hst).inLine hacc (stampsOf_past tr) (ih hok.1) hok.2

theorem Moves.reserved_held (h : Moves mode s lab t o) {r : GatewayReservation}
    (hr : o.reserves = some r) : r ∈ t.held := by
  cases h with
  | admitted | pollAdmit | retryAdmit =>
    cases hr
    exact mem_cons_self
  | pollIdle hpoll hans =>
    unfold Output.reserves at hr
    split at hr
    · rename_i heq; cases heq
    · rename_i heq
      cases heq
      exact absurd rfl (hans _)
    · cases hr
  | _ => cases hr

/-- CORRECT under the condition: in a run of orderly steps no step reserves a route for a request
    while an earlier one of its model is queued. -/
theorem fifo_of_orderly (h : Run (step mode) { usage := db } tr s)
    (hst : step mode s lab = some (t, o)) (hok : orderlyFrom {} (tr ++ [(s, lab, o)]) = true) :
    ¬Overtakes (stampsOf (tr ++ [(s, lab, o)])) o t := by
  rintro ⟨r, hr, id, q, hq, hmod, hlt⟩
  have hline := inLine_of_run (.snoc h hst) hok
  have hheld := (step_moves (inOrder_of_run h) hst).reserved_held hr
  exact Nat.lt_asymm hlt (hline.ahead r hheld id q hq hmod)

end Runs

/-- `a` takes the only slot, `b` waits for it, `a` completes. -/
def freedSlot : List Label :=
  arriving 0 "a" unlimited 5 ++ arriving 1 "b" unlimited 6 ++
    [.complete (sampleReservation "a" unlimited 5) (.ok 7) sampleCompletion]

/-- The second section of the poll of `b` once `a` is gone. -/
def servingPoll : Label :=
  .pollCommit ⟨⟨"b"⟩, 8, sampleRequest "b"⟩ (.ok [sampleRoute]) fun _ => .ok true

/-- A waiter is served: the run is orderly, its last step reserves the freed slot for `b`, and
    nobody is overtaken. -/
theorem fifo_of_orderly_served : ∃ tr s label t o r, Run (step sampleMode) {} tr s ∧
    step sampleMode s label = some (t, o) ∧ o.reserves = some r ∧
    ¬Overtakes (stampsOf (tr ++ [(s, label, o)])) o t := by
  obtain ⟨tr, s, hrun, hs⟩ := Run.exists_of_exec (step sampleMode) {}
    (freedSlot ++ [.pollRead ⟨⟨"b"⟩⟩ (.ok 8)])
    (fun tr s => (step sampleMode s servingPoll).any fun p =>
      orderlyFrom {} (tr ++ [(s, servingPoll, p.2)]) && p.2.reserves.isSome) (by decide)
  obtain ⟨⟨t, o⟩, hst, ho⟩ := Option.any_eq_true _ _ |>.mp hs
  obtain ⟨hok, hres⟩ := Bool.and_eq_true _ _ |>.mp ho
  obtain ⟨r, hr⟩ := Option.isSome_iff_exists.mp hres
  exact ⟨tr, s, _, t, o, r, hrun, hst, hr, fifo_of_orderly hrun hst hok⟩

/-- The freed slot goes to a new arrival `c` while `b` is still waiting for it. -/
theorem fifo_overtaken : ∃ tr s label t o, Run (step sampleMode) {} tr s ∧
    step sampleMode s label = some (t, o) ∧ Overtakes (stampsOf (tr ++ [(s, label, o)])) o t := by
  obtain ⟨tr, s, hrun, hs⟩ := Run.exists_of_exec (step sampleMode) {}
    (freedSlot ++ (arriving 2 "c" unlimited 8).dropLast)
    (fun tr s => (step sampleMode s (.admitSection 2)).any fun p =>
      p.2.reserves.any fun c => (p.1.state.queued.lookup ⟨"b"⟩).any fun b =>
        b.request.model = c.request.model ∧
        (stampsOf (tr ++ [(s, .admitSection 2, p.2)])).entry ⟨"b"⟩ <
          (stampsOf (tr ++ [(s, .admitSection 2, p.2)])).entry c.request.requestId) (by decide)
  obtain ⟨⟨t, o⟩, hst, ho⟩ := Option.any_eq_true _ _ |>.mp hs
  obtain ⟨c, hc, hb⟩ := Option.any_eq_true _ _ |>.mp ho
  obtain ⟨b, hb, hlt⟩ := Option.any_eq_true _ _ |>.mp hb
  rw [decide_eq_true_eq] at hlt
  exact ⟨tr, s, .admitSection 2, t, o, hrun, hst, c, hc, ⟨"b"⟩, b, hb, hlt⟩

end LetsInfer.Gateway
