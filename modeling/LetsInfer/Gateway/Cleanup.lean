import LetsInfer.Gateway.Execution

/-! @src core/gateway/src/li_gateway_execution.rs | name:What a returned call leaves | scheme:frame

    A call owns one identity, and what its stage says about it (absent, queued, on a route) is true
    of the manager: the call's own actions move both together, and a step of another call touches
    neither. So a call that has returned owns nothing, with one exception: `fail_queue` reads the
    clock before it takes the entry off the queue, so a clean-up whose clock read fails gives up
    with the request still queued. -/

namespace LetsInfer.Gateway
open Schemes List Finmap

variable {mode : GatewayMode} {s t : Sys} {lab : Label} {o : Output} {id : Sha256Digest}
  {req : GatewayRequest} {sg : Stage} {now : Except GatewayError UnixMilliseconds}
  {rts : Except GatewayError (List GatewayRoute)} {safety : PlacementSafety}
  {m call ats : ℕ} {phase : AdmissionPhase} {db : UsageDatabase}
  {res : GatewayReservation} {ticket : GatewayQueueTicket} {e : GatewayError} {w w' : World}
  {u : Unit}

/-! ### The admission calls in flight -/

variable {n : ℕ} {c : AdmissionCall}

/-- A phase speaks of the request its call was made for. -/
def AdmissionPhase.About (request : GatewayRequest) : AdmissionPhase → Prop
  | .prepared arrival _ => arrival.request = request
  | .fetched arrival _ => arrival.request = request
  | _ => True

/-- Where a call inside admission comes from. -/
inductive CallStep (s : Sys) (n : ℕ) (c : AdmissionCall) : Label → Prop
  | kept {label : Label} (h : s.admissions.lookup n = some c) : CallStep s n c label
  | advanced {label : Label} {phase : AdmissionPhase}
      (h : s.admissions.lookup n = some ⟨c.request, phase⟩)
      (habout : phase.About c.request → c.phase.About c.request) : CallStep s n c label
  | received (hn : n = s.calls) (hphase : c.phase = .received) :
      CallStep s n c (.receive c.request)

theorem arrive_request {surface : Surface}
    {arr : Arrival} (h : arrive mode req surface now rts safety = .ok arr) : arr.request = req := by
  unfold arrive at h
  split at h
  · cases h
  · split at h
    · cases h
    · split at h
      · cases h
      · rw [← Except.ok.inj h]

theorem CallStep.of_setPhase {phase' : AdmissionPhase}
    (hcall : s.admissions.lookup m = some ⟨req, phase⟩) (habo : phase.About req → phase'.About req)
    (h : (s.admissions.insert m ⟨req, phase'⟩).lookup n = some c) : CallStep s n c lab := by
  rw [Table.lookup_insert_ite] at h
  split_ifs at h with hm
  · subst hm
    rw [← Option.some.inj h]
    exact .advanced hcall habo
  · exact .kept h

theorem CallStep.of_erase (h : (s.admissions.erase m).lookup n = some c) : CallStep s n c lab := by
  exact .kept (Table.lookup_of_erase h)

namespace Moves

/-- Every call inside admission was there before, for the same request, or has just begun. -/
theorem call_step (h : Moves mode s lab t o) (hn : t.admissions.lookup n = some c) :
    CallStep s n c lab := by
  cases h with
  | receive req =>
    rw [Table.lookup_insert_ite] at hn
    split_ifs at hn with hm
    · rw [← Option.some.inj hn]
      exact .received hm rfl
    · exact .kept hn
  | prepare phase hcall hph =>
    refine .of_setPhase hcall (fun _ => ?_) hn
    rcases hph with ⟨e, rfl⟩ | ⟨arr, harr, rfl⟩
    · trivial
    · exact arrive_request harr
  | fetch phase hcall hph =>
    refine .of_setPhase hcall (fun habo => ?_) hn
    rcases hph with ⟨e, rfl⟩ | ⟨rct, -, rfl⟩
    · trivial
    · exact habo
  | refuse hcall hpol | dismiss hcall hpol =>
    refine .of_setPhase hcall ?_ hn
    exact fun _ => trivial
  | admitted hcall hpol hsel => exact .of_erase hn
  | enqueue hcall hpol hroom => exact .of_erase hn
  | recordFailure hcall => exact .of_erase hn
  | restart => cases hn
  | _ => exact .kept hn

theorem calls_le (h : Moves mode s lab t o) (hlb : lab ≠ .restart) : s.calls ≤ t.calls := by
  cases h with
  | receive req => exact Nat.le_succ _
  | restart => exact absurd rfl hlb
  | _ => exact le_rfl

end Moves

/-- The calls inside admission are numbered below the next one and speak of their own request. -/
structure Registered (s : Sys) : Prop where
  numbered : ∀ n c, s.admissions.lookup n = some c → n < s.calls
  about : ∀ n c, s.admissions.lookup n = some c → c.phase.About c.request

/-- STEP: admission calls stay orderly. -/
theorem Moves.registered (h : Moves mode s lab t o) (hs : Registered s) : Registered t where
  numbered n c hn := by
    have hlb : lab ≠ .restart := by
      rintro rfl
      cases h
      cases hn
    cases h.call_step hn with
    | kept hold => exact (hs.numbered n c hold).trans_le (h.calls_le hlb)
    | advanced hold _ => exact (hs.numbered n _ hold).trans_le (h.calls_le hlb)
    | received hnew _ =>
      cases h
      exact hnew ▸ Nat.lt_succ_self _
  about n c hn := by
    cases h.call_step hn with
    | kept hold => exact hs.about n c hold
    | advanced hold habo => exact habo (hs.about n _ hold)
    | received _ hph => rw [hph]; trivial

variable {tr : List (Sys × Label × Output)}

theorem registered_of_run (h : Run (step mode) { usage := db } tr s) : Registered s := by
  have hboth : InOrder s ∧ Registered s := by
    refine h.invariant (fun s => InOrder s ∧ Registered s)
      ⟨.empty, ⟨fun _ _ hn => (by cases hn), fun _ _ hn => (by cases hn)⟩⟩ ?_
    rintro s lab t o ⟨hacc, hs⟩ hst
    have hmove := step_moves hacc hst
    exact ⟨hmove.inOrder hacc, hmove.registered hs⟩
  exact hboth.2

/-! ### What a step of another call leaves alone -/

variable {fin : Except GatewayError UnixMilliseconds} {comp : Completion}
  {usg : GatewayUsageRecord}

/-- Everything an identity owns in the manager is the same in two states. -/
structure SameFor (id : Sha256Digest) (s t : Sys) : Prop where
  queued : t.state.queued.lookup id = s.state.queued.lookup id
  held : ∀ r, r.request.requestId = id → (r ∈ t.held ↔ r ∈ s.held)
  polls : ∀ p, p.requestId = id → (p ∈ t.polls ↔ p ∈ s.polls)
  unrecorded : ∀ u, u.requestId = id → (u ∈ t.unrecorded ↔ u ∈ s.unrecorded)

/-- A call for the identity inside admission is the one the stage names. -/
structure Alone (request : GatewayRequest) (stage : Stage) (s : Sys) : Prop where
  others : ∀ n c, s.admissions.lookup n = some c → c.request.requestId = request.requestId →
    stage.call = some n
  mine : ∀ n, stage.call = some n → ∃ phase, s.admissions.lookup n = some ⟨request, phase⟩

theorem mem_cons_iff_of_ne {α β : Type*} {f : α → β} {x y : α} {l : List α} (h : f y ≠ f x) :
    x ∈ y :: l ↔ x ∈ l := by
  rw [mem_cons, or_iff_right]
  rintro rfl
  exact h rfl

theorem mem_erase_iff_of_ne {α β : Type*} [BEq α] [LawfulBEq α] {f : α → β} {x y : α} {l : List α}
    (h : f y ≠ f x) : x ∈ l.erase y ↔ x ∈ l := by
  refine mem_erase_of_ne ?_
  rintro rfl
  exact h rfl

theorem completionUsage_requestId (h : completionUsage res fin comp = .ok (some usg)) :
    usg.requestId = res.request.requestId := by
  unfold completionUsage GatewayUsageRecord.new at h
  grind

theorem mem_holdUsage {unrecorded : List GatewayUsageRecord}
    {ans : Except GatewayError (Option GatewayUsageRecord)}
    (h : ∀ new, ans = .ok (some new) → new.requestId ≠ usg.requestId) :
    usg ∈ holdUsage unrecorded ans ↔ usg ∈ unrecorded := by
  rcases ans with e | _ | new
  · rfl
  · rfl
  · exact mem_cons_iff_of_ne (f := GatewayUsageRecord.requestId) (h new rfl)

/-- FRAME: a step of another call leaves everything the identity owns alone. -/
theorem Moves.sameFor (h : Moves mode s lab t o) (hacc : InOrder s) (hreg : Registered s)
    (haln : Alone req sg s)
    (hfor : foreign req.requestId sg lab = true) : SameFor req.requestId s t := by
  -- An admission section runs for the request its call was made for, and that is another one.
  have hoth {n : ℕ} {req' : GatewayRequest} {arr : Arrival} {rct : List GatewayUsageRecord}
      (hcall : s.admissions.lookup n = some ⟨req', .fetched arr rct⟩) (hn : sg.call ≠ some n) :
      arr.request.requestId ≠ req.requestId := by
    have habo : arr.request = req' := hreg.about n _ hcall
    rw [habo]
    exact fun hid => hn (haln.others n _ hcall hid)
  cases h with
  | receive | prepare | fetch | recordFailure | pollMiss | snapshotMiss | snapshot
  | cancelQueueFail | failQueueFail =>
    exact ⟨rfl, fun _ _ => Iff.rfl, fun _ _ => Iff.rfl, fun _ _ => Iff.rfl⟩
  | refuse hcall hpol =>
    have hque := (admitPolicy_places hpol).queued
    exact ⟨congrArg _ hque, fun _ _ => Iff.rfl, fun _ _ => Iff.rfl, fun _ _ => Iff.rfl⟩
  | dismiss hcall hpol =>
    refine ⟨congrArg _ ?_, fun _ _ => Iff.rfl, fun _ _ => Iff.rfl, fun _ _ => Iff.rfl⟩
    exact ((admitPolicy_places hpol).trans (releasePrincipal_places ..)).queued
  | admitted hcall hpol hsel =>
    have hne := hoth hcall (of_decide_eq_true hfor)
    have hque := (admitPolicy_places hpol).queued
    refine ⟨congrArg _ hque, ?_, fun _ _ => Iff.rfl, fun _ _ => Iff.rfl⟩
    rintro r hr
    exact mem_cons_iff_of_ne (f := fun r => r.request.requestId) (hr ▸ hne)
  | enqueue hcall hpol hroom =>
    have hne := hoth hcall (of_decide_eq_true hfor)
    have hque := (admitPolicy_places hpol).queued
    refine ⟨?_, fun _ _ => Iff.rfl, fun _ _ => Iff.rfl, fun _ _ => Iff.rfl⟩
    exact (lookup_insert_of_ne _ hne.symm).trans (congrArg _ hque)
  | pollRead hq =>
    refine ⟨rfl, fun _ _ => Iff.rfl, fun p hp => ?_, fun _ _ => Iff.rfl⟩
    exact mem_cons_iff_of_ne (f := PollCall.requestId) (hp ▸ of_decide_eq_true hfor)
  | pollIdle hpoll hans =>
    refine ⟨rfl, fun _ _ => Iff.rfl, fun p hp => ?_, fun _ _ => Iff.rfl⟩
    exact mem_erase_iff_of_ne (f := PollCall.requestId) (hp ▸ of_decide_eq_true hfor)
  | pollExpire hpoll hq =>
    have hne := of_decide_eq_true hfor
    refine ⟨?_, fun _ _ => Iff.rfl, fun p hp => ?_, fun _ _ => Iff.rfl⟩
    · exact (congrArg _ (queued_dropQueued ..)).trans (lookup_erase_ne hne.symm)
    · exact mem_erase_iff_of_ne (f := PollCall.requestId) (hp ▸ hne)
  | pollAdmit hpoll hq hfst =>
    have hne := of_decide_eq_true hfor
    refine ⟨lookup_erase_ne hne.symm, fun r hr => ?_, fun p hp => ?_, fun _ _ => Iff.rfl⟩
    · have hid := hacc.named _ _ hq
      exact mem_cons_iff_of_ne (f := fun r => r.request.requestId) (hr ▸ hid.trans_ne hne)
    · exact mem_erase_iff_of_ne (f := PollCall.requestId) (hp ▸ hne)
  | cancelQueue hq =>
    refine ⟨?_, fun _ _ => Iff.rfl, fun _ _ => Iff.rfl, fun _ _ => Iff.rfl⟩
    exact (congrArg _ (queued_cancelQueued ..)).trans
      (lookup_erase_ne (of_decide_eq_true hfor).symm)
  | failQueue hq =>
    refine ⟨?_, fun _ _ => Iff.rfl, fun _ _ => Iff.rfl, fun _ _ => Iff.rfl⟩
    exact (congrArg _ (queued_dropQueued ..)).trans (lookup_erase_ne (of_decide_eq_true hfor).symm)
  | complete hmem =>
    have hne := of_decide_eq_true hfor
    refine ⟨congrArg _ (queued_completed ..), fun r hr => ?_, fun _ _ => Iff.rfl, fun u hu => ?_⟩
    · exact mem_erase_iff_of_ne (f := fun r => r.request.requestId) (hr ▸ hne)
    · exact mem_holdUsage fun new hnew => (completionUsage_requestId hnew).trans_ne (hu ▸ hne)
  | recordMiss hmem | record hmem =>
    refine ⟨rfl, fun _ _ => Iff.rfl, fun _ _ => Iff.rfl, fun u hu => ?_⟩
    exact mem_erase_iff_of_ne (f := GatewayUsageRecord.requestId) (hu ▸ of_decide_eq_true hfor)
  | cancel hmem =>
    refine ⟨congrArg _ (queued_cancelReleased ..), fun r hr => ?_, fun _ _ => Iff.rfl,
      fun _ _ => Iff.rfl⟩
    exact mem_erase_iff_of_ne (f := fun r => r.request.requestId) (hr ▸ of_decide_eq_true hfor)
  | retryFail hmem | fail hmem =>
    refine ⟨congrArg _ (queued_failReleased ..), fun r hr => ?_, fun _ _ => Iff.rfl,
      fun _ _ => Iff.rfl⟩
    exact mem_erase_iff_of_ne (f := fun r => r.request.requestId) (hr ▸ of_decide_eq_true hfor)
  | retryAdmit hmem hcool =>
    subst hcool
    have hne := of_decide_eq_true hfor
    refine ⟨rfl, fun r hr => ?_, fun _ _ => Iff.rfl, fun _ _ => Iff.rfl⟩
    rw [mem_cons_iff_of_ne (f := fun r => r.request.requestId) (hr ▸ hne)]
    exact mem_erase_iff_of_ne (f := fun r => r.request.requestId) (hr ▸ hne)
  | retryEnqueue hmem hcool hroom =>
    subst hcool
    have hne := of_decide_eq_true hfor
    refine ⟨lookup_insert_of_ne _ hne.symm, fun r hr => ?_, fun _ _ => Iff.rfl, fun _ _ => Iff.rfl⟩
    exact mem_erase_iff_of_ne (f := fun r => r.request.requestId) (hr ▸ hne)
  | restart => cases hfor

/-- A step of another call leaves the call inside admission where it is, and begins no second one
    for its identity. -/
theorem Moves.alone (h : Moves mode s lab t o) (hreg : Registered s) (haln : Alone req sg s)
    (hfor : foreign req.requestId sg lab = true) : Alone req sg t where
  others n c hn hid := by
    cases h.call_step hn with
    | kept hold => exact haln.others n c hold hid
    | advanced hold _ => exact haln.others n _ hold hid
    | received => exact absurd hid (of_decide_eq_true hfor)
  mine n hn := by
    obtain ⟨phase, hph⟩ := haln.mine n hn
    have hne {m : ℕ} (hm : sg.call ≠ some m) : n ≠ m := fun h => hm (h ▸ hn)
    refine ⟨phase, ?_⟩
    cases h with
    | receive req =>
      exact (lookup_insert_of_ne _ (hreg.numbered n _ hph).ne).trans hph
    | prepare | fetch | refuse | dismiss =>
      exact (lookup_insert_of_ne _ (hne (of_decide_eq_true hfor))).trans hph
    | admitted | enqueue | recordFailure =>
      exact (lookup_erase_ne (hne (of_decide_eq_true hfor))).trans hph
    | restart => cases hfor
    | _ => exact hph

/-! ### What a stage owns -/

variable {r : GatewayReservation}

def Unplaced (id : Sha256Digest) (s : Sys) : Prop := ∀ r ∈ s.held, r.request.requestId ≠ id

/-- What the manager holds for the request of a call, by the stage of the call. -/
def Owns (request : GatewayRequest) (s : Sys) : Stage → Prop
  | .start | .admitting _ => Unplaced request.requestId s ∧ request.requestId ∉ s.state.queued
  | .waiting ticket _ _ | .parked ticket _ _ =>
    ticket.requestId = request.requestId ∧ request.requestId ∈ s.state.queued
  | .polling ticket poll _ _ =>
    ticket.requestId = request.requestId ∧ poll.requestId = request.requestId ∧ poll ∈ s.polls ∧
      request.requestId ∈ s.state.queued
  | .cleaning ticket _ => ticket.requestId = request.requestId ∧ Unplaced request.requestId s
  | .executing reservation _ =>
    reservation.request.requestId = request.requestId ∧ reservation ∈ s.held
  | .recording usage _ =>
    usage.requestId = request.requestId ∧ usage ∈ s.unrecorded ∧
      Unplaced request.requestId s ∧ request.requestId ∉ s.state.queued
  | .returned _ => Unplaced request.requestId s

/-- The call has returned and its request is still queued. -/
def Leaked (request : GatewayRequest) (s : Sys) : Stage → Prop
  | .returned _ => request.requestId ∈ s.state.queued
  | _ => False

/-- The stage owns what it says, and nothing is left behind. -/
structure Tidy (request : GatewayRequest) (s : Sys) (stage : Stage) : Prop where
  owns : Owns request s stage
  clear : ¬Leaked request s stage

theorem SameFor.mem_queued (h : SameFor id s t) : id ∈ t.state.queued ↔ id ∈ s.state.queued := by
  rw [← lookup_isSome, ← lookup_isSome, h.queued]

theorem SameFor.unplaced (h : SameFor id s t) (hs : Unplaced id s) : Unplaced id t :=
  fun r hr hid => hs r ((h.held r hid).mp hr) hid

theorem SameFor.leaked_iff (h : SameFor req.requestId s t) : Leaked req t sg ↔ Leaked req s sg := by
  cases sg with
  | returned => exact h.mem_queued
  | _ => exact Iff.rfl

theorem SameFor.owns (h : SameFor req.requestId s t) (hs : Owns req s sg) : Owns req t sg := by
  have hque := h.mem_queued
  cases sg with
  | start | admitting => exact ⟨h.unplaced hs.1, mt hque.mp hs.2⟩
  | waiting | parked => exact ⟨hs.1, hque.mpr hs.2⟩
  | polling => exact ⟨hs.1, hs.2.1, (h.polls _ hs.2.1).mpr hs.2.2.1, hque.mpr hs.2.2.2⟩
  | cleaning => exact ⟨hs.1, h.unplaced hs.2⟩
  | executing => exact ⟨hs.1, (h.held _ hs.1).mpr hs.2⟩
  | recording =>
    obtain ⟨hid, hmem, hplc, hunq⟩ := hs
    exact ⟨hid, (h.unrecorded _ hid).mpr hmem, h.unplaced hplc, mt hque.mp hunq⟩
  | returned => exact h.unplaced hs

theorem InOrder.unplaced_of_queued (hacc : InOrder s) (hid : id ∈ s.state.queued) :
    Unplaced id s := by
  intro r hr heq
  have hown := hacc.owned hr
  rw [heq] at hown
  exact hacc.apart id (mem_of_lookup_eq_some hown) hid

theorem InOrder.unplaced_erase (hacc : InOrder s) (hr : r ∈ s.held) (hid : r.request.requestId = id) :
    ∀ r' ∈ s.held.erase r, r'.request.requestId ≠ id := by
  intro r' hr'
  exact hid ▸ ((hacc.mem_erase_iff hr).mp hr').2

theorem InOrder.unqueued_of_held (hacc : InOrder s) (hr : r ∈ s.held)
    (hid : r.request.requestId = id) : id ∉ s.state.queued :=
  hacc.apart id (mem_of_lookup_eq_some (hid ▸ hacc.owned hr))

/-! ### The actions of the call -/

section Actions

variable {cycles : ℕ} {poll : PollCall}

/-- Outside admission no call for the identity is inside it, and none gets there by a step that
    receives no request. -/
theorem Moves.alone_outside (h : Moves mode s lab t o) (haln : Alone req sg s)
    (hsg : sg.call = none) (hlb : ∀ req', lab ≠ .receive req')
    {sg' : Stage} (hsg' : sg'.call = none) : Alone req sg' t where
  others n c hn hid := by
    have hold : ∃ phase, s.admissions.lookup n = some ⟨c.request, phase⟩ := by
      cases h.call_step hn with
      | kept hold => exact ⟨_, hold⟩
      | advanced hold _ => exact ⟨_, hold⟩
      | received => exact absurd rfl (hlb _)
    obtain ⟨phase, hph⟩ := hold
    exact absurd ((haln.others n _ hph hid).symm.trans hsg) (by simp)
  mine n hn := absurd (hsg'.symm.trans hn) (by simp)

theorem Moves.alone_receive (h : Moves mode s (.receive req) t o) (haln : Alone req sg s)
    (hsg : sg.call = none) : Alone req (.admitting s.calls) t where
  others n c hn hid := by
    cases h.call_step hn with
    | kept hold | advanced hold _ =>
      exact absurd ((haln.others n _ hold hid).symm.trans hsg) (by simp)
    | received hnew => exact hnew ▸ rfl
  mine n hn := by
    cases h
    obtain rfl : s.calls = n := Option.some.inj hn
    exact ⟨_, Finmap.lookup_insert _⟩

theorem Moves.owns_receive (h : Moves mode s (.receive req) t o)
    (howns : Owns req s .start) : Owns req t (.admitting s.calls) := by
  cases h
  exact howns

theorem Alone.request_eq (haln : Alone req (.admitting call) s) {req' : GatewayRequest}
    (hcall : s.admissions.lookup n = some ⟨req', phase⟩) (hn : n = call) : req' = req := by
  obtain ⟨phase', hmine⟩ := haln.mine call rfl
  rw [hn, hmine] at hcall
  exact (congrArg AdmissionCall.request (Option.some.inj hcall)).symm

/-- An action inside admission keeps the call there or ends it. -/
theorem Moves.alone_admission (h : Moves mode s lab t o) (haln : Alone req (.admitting call) s)
    (hlb : ofCall call lab = true) : Alone req (afterAdmission call o) t := by
  have hots {n : ℕ} {c : AdmissionCall} (hn : t.admissions.lookup n = some c)
      (hid : c.request.requestId = req.requestId) : n = call := by
    have hcall : (Stage.admitting call).call = some n := by
      cases h.call_step hn with
      | kept hold | advanced hold _ => exact haln.others n _ hold hid
      | received => cases hlb
    exact (Option.some.inj hcall).symm
  have hsta {phase' : AdmissionPhase} (ht : t.admissions = s.admissions.insert call ⟨req, phase'⟩) :
      Alone req (.admitting call) t := by
    refine ⟨fun n c hn hid => (hots hn hid) ▸ rfl, ?_⟩
    rintro n hn
    obtain rfl : call = n := Option.some.inj hn
    exact ⟨phase', ht ▸ Finmap.lookup_insert _⟩
  have hlea (ht : t.admissions = s.admissions.erase call) {sg' : Stage}
      (hsg' : sg'.call = none) : Alone req sg' t := by
    refine ⟨fun n c hn hid => ?_, fun n hn => absurd (hsg'.symm.trans hn) (by simp)⟩
    rw [hots hn hid, ht, lookup_erase] at hn
    cases hn
  cases h with
  | prepare phase hcall | fetch phase hcall | refuse hcall | dismiss hcall =>
    have hn := of_decide_eq_true hlb
    exact hsta (by rw [← haln.request_eq hcall hn, ← hn]; rfl)
  | admitted | enqueue | recordFailure => exact hlea (of_decide_eq_true hlb ▸ rfl) rfl
  | _ => cases hlb

theorem Moves.tidy_admission (h : Moves mode s lab t o) (hreg : Registered s)
    (haln : Alone req (.admitting call) s) (howns : Owns req s (.admitting call))
    (hlb : ofCall call lab = true) : Tidy req t (afterAdmission call o) := by
  have harr {n : ℕ} {req' : GatewayRequest} {arr : Arrival} {rct : List GatewayUsageRecord}
      (hcall : s.admissions.lookup n = some ⟨req', .fetched arr rct⟩) (hn : n = call) :
      arr.request.requestId = req.requestId := by
    have habo : arr.request = req' := hreg.about n _ hcall
    rw [habo, haln.request_eq hcall hn]
  cases h with
  | prepare | fetch => exact ⟨howns, id⟩
  | recordFailure => exact ⟨howns.1, howns.2⟩
  | refuse hcall hpol =>
    refine ⟨⟨howns.1, ?_⟩, id⟩
    exact (admitPolicy_places hpol).queued ▸ howns.2
  | @dismiss _ _ arr _ _ chg hcall hpol =>
    refine ⟨⟨howns.1, ?_⟩, id⟩
    have hrel := releasePrincipal_places chg arr.principal arr.reservedTokens
    exact ((admitPolicy_places hpol).trans hrel).queued ▸ howns.2
  | admitted hcall => exact ⟨⟨harr hcall (of_decide_eq_true hlb), mem_cons_self ..⟩, id⟩
  | enqueue hcall =>
    have hid := harr hcall (of_decide_eq_true hlb)
    exact ⟨⟨hid, mem_insert.mpr (.inl hid.symm)⟩, id⟩
  | _ => cases hlb

theorem Moves.tidy_poll (h : Moves mode s (.pollRead ticket now) t o) (hacc : InOrder s)
    (howns : Owns req s (.waiting ticket cycles ats)) :
    Tidy req t (afterPollRead ticket cycles ats o) := by
  obtain ⟨hid, hque⟩ := howns
  cases h with
  | pollMiss => exact ⟨⟨hid, hacc.unplaced_of_queued hque⟩, id⟩
  | pollRead hq => exact ⟨⟨hid, hid, mem_cons_self .., hque⟩, id⟩

theorem Moves.tidy_commit (h : Moves mode s (.pollCommit poll rts safety) t o)
    (hacc : InOrder s) (howns : Owns req s (.polling ticket poll cycles ats)) :
    Tidy req t (afterPollCommit ticket cycles ats o) := by
  obtain ⟨hid, hpol, hmem, hque⟩ := howns
  cases h with
  | @pollIdle _ _ _ ans hpoll hans =>
    rcases ans with e | status
    · exact ⟨⟨hid, hacc.unplaced_of_queued hque⟩, id⟩
    · cases status with
      | waiting => exact ⟨⟨hid, hque⟩, id⟩
      | admitted res => exact absurd rfl (hans res)
  | pollExpire => exact ⟨⟨hid, hacc.unplaced_of_queued hque⟩, id⟩
  | pollAdmit hpoll hq =>
    exact ⟨⟨(hacc.named _ _ hq).trans hpol, mem_cons_self ..⟩, id⟩

theorem tidy_afterWait (connected : Except GatewayExecutionFailure Bool)
    (wait : Except GatewayError Unit) (hacc : InOrder s)
    (howns : Owns req s (.parked ticket cycles ats)) :
    Tidy req s (afterWait ticket cycles ats connected wait) := by
  obtain ⟨hid, hque⟩ := howns
  have hcle (e : GatewayError) : Tidy req s (.cleaning ticket e) :=
    ⟨⟨hid, hacc.unplaced_of_queued hque⟩, id⟩
  unfold afterWait nextCycle
  split
  · split
    · split_ifs
      · exact ⟨⟨hid, hque⟩, id⟩
      · exact hcle _
    · exact hcle _
  · exact hcle _

theorem Moves.owns_cleanup (h : Moves mode s (.failQueue ticket now) t o)
    (howns : Owns req s (.cleaning ticket e)) : Owns req t (afterCleanup e o) := by
  cases h with
  | failQueueFail => exact howns.2
  | failQueue => exact howns.2

/-- The clean-up leaves the identity queued exactly when it was queued and the clock did not
    answer. -/
theorem Moves.queued_cleanup (h : Moves mode s (.failQueue ticket now) t o)
    (hid : ticket.requestId = id) :
    id ∈ t.state.queued ↔ id ∈ s.state.queued ∧ now.isOk = false := by
  cases h with
  | failQueueFail hwhy =>
    refine ⟨fun hmem => ⟨hmem, ?_⟩, And.left⟩
    rcases hwhy with rfl | hno
    · rfl
    · exact absurd (hid ▸ hmem) (lookup_eq_none.mp hno)
  | failQueue hq =>
    rw [queued_dropQueued]
    simp [unqueue, hid, Except.isOk, Except.toBool]

theorem tidy_returned (hacc : InOrder s) (howns : Owns req s (.executing res ats))
    (hheld : t.held = s.held.erase res) (hque : t.state.queued = s.state.queued)
    (ans : Except GatewayError GatewayExecutionReceipt) : Tidy req t (.returned ans) := by
  obtain ⟨hid, hmem⟩ := howns
  constructor
  · rw [Owns, Unplaced, hheld]
    exact hacc.unplaced_erase hmem hid
  · rw [Leaked, hque]
    exact hacc.unqueued_of_held hmem hid

variable {receipt : GatewayExecutionReceipt}

theorem Moves.tidy_complete (h : Moves mode s (.complete res fin comp) t o) (hacc : InOrder s)
    (howns : Owns req s (.executing res ats)) : Tidy req t (afterComplete receipt o) := by
  cases h with
  | complete hmem =>
    generalize husa : completionUsage res fin comp = usg
    have hend (ans : Except GatewayError GatewayExecutionReceipt) := tidy_returned hacc howns
      (t := { s with
        state := completed s.state res fin comp
        held := s.held.erase res
        unrecorded := holdUsage s.unrecorded usg }) rfl (queued_completed ..) ans
    rcases usg with e | _ | usg
    · exact hend _
    · exact hend _
    · have hid := (completionUsage_requestId husa).trans howns.1
      obtain ⟨hplc, hunq⟩ := hend (.ok receipt)
      exact ⟨⟨hid, mem_cons_self .., hplc, hunq⟩, id⟩

variable {timing : GatewayTelemetryTiming}

theorem Moves.tidy_cancel (h : Moves mode s (.cancel res timing) t o) (hacc : InOrder s)
    (howns : Owns req s (.executing res ats)) : Tidy req t (afterEnd e o) := by
  cases h with
  | cancel => exact tidy_returned hacc howns rfl (queued_cancelReleased ..) _

theorem Moves.tidy_fail (h : Moves mode s (.fail res now timing) t o) (hacc : InOrder s)
    (howns : Owns req s (.executing res ats)) : Tidy req t (afterEnd e o) := by
  cases h with
  | fail =>
    rcases now with e' | now
    · exact tidy_returned hacc howns rfl (queued_failReleased ..) _
    · exact tidy_returned hacc howns rfl (queued_failReleased ..) _

theorem Moves.tidy_retry (h : Moves mode s (.retry res now rts safety) t o) (hacc : InOrder s)
    (howns : Owns req s (.executing res ats)) : Tidy req t (afterRetry ats o) := by
  cases h with
  | retryFail => exact tidy_returned hacc howns rfl (queued_failReleased ..) _
  | retryAdmit => exact ⟨⟨howns.1, mem_cons_self ..⟩, id⟩
  | retryEnqueue => exact ⟨⟨howns.1, mem_insert.mpr (.inl howns.1.symm)⟩, id⟩

theorem Moves.tidy_record {failure : Option GatewayError}
    (h : Moves mode s (.record usg failure) t o) (howns : Owns req s (.recording usg receipt)) :
    Tidy req t (afterRecord receipt o) := by
  obtain ⟨-, -, hplc, hunq⟩ := howns
  cases h with
  | recordMiss => exact ⟨hplc, hunq⟩
  | record =>
    unfold afterRecord
    split <;> exact ⟨hplc, hunq⟩

end Actions

/-! ### Whole calls -/

variable {next : Output → Stage}

/-- Between two actions: the accounts are in order, and the call owns what its stage says. -/
structure Working (request : GatewayRequest) (w : World) : Prop where
  inOrder : InOrder w.sys
  registered : Registered w.sys
  alone : Alone request w.stage w.sys
  owns : Owns request w.sys w.stage

/-- Whether an action is no clean-up of a queued request without a clock answer. -/
def cleanupReadsClock (request : GatewayRequest) (w : World) : Act → Bool
  | .cleanup (.error _) => request.requestId ∉ w.sys.state.queued
  | _ => true

theorem World.take_eq_some (h : w.take mode lab next = some (w', u)) :
    ∃ o, Gateway.step mode w.sys lab = some (w'.sys, o) ∧ w'.stage = next o := by
  obtain ⟨⟨t, o⟩, hst, heq⟩ := Option.map_eq_some_iff.mp h
  cases heq
  exact ⟨o, hst, rfl⟩

/-- A manager step of the call outside admission. -/
theorem Working.manage (hw : Working req w)
    (h : w.take mode lab next = some (w', u)) (hsg : w.stage.call = none)
    (hlb : ∀ req', lab ≠ .receive req') (hnx : ∀ o, (next o).call = none)
    (howns : ∀ t o, Moves mode w.sys lab t o → Tidy req t (next o)) :
    Working req w' ∧ ¬Leaked req w'.sys w'.stage := by
  obtain ⟨o, hst, hsg'⟩ := World.take_eq_some h
  have hmove := step_moves hw.inOrder hst
  have htidy := howns _ o hmove
  rw [← hsg'] at htidy
  refine ⟨⟨hmove.inOrder hw.inOrder, hmove.registered hw.registered, ?_, htidy.owns⟩, htidy.clear⟩
  exact hmove.alone_outside hw.alone hsg hlb (hsg' ▸ hnx o)

theorem entered_call (ats : ℕ) (admission : GatewayAdmission) :
    (entered ats admission).call = none := by
  cases admission <;> rfl

theorem afterPollRead_call (ticket : GatewayQueueTicket) (cycles ats : ℕ) (o : Output) :
    (afterPollRead ticket cycles ats o).call = none := by
  unfold afterPollRead
  split <;> rfl

theorem afterPollCommit_call (ticket : GatewayQueueTicket) (cycles ats : ℕ) (o : Output) :
    (afterPollCommit ticket cycles ats o).call = none := by
  unfold afterPollCommit
  split <;> rfl

theorem afterWait_call (ticket : GatewayQueueTicket) (cycles ats : ℕ)
    (connected : Except GatewayExecutionFailure Bool) (wait : Except GatewayError Unit) :
    (afterWait ticket cycles ats connected wait).call = none := by
  unfold afterWait nextCycle
  split
  · split
    · split_ifs <;> rfl
    · rfl
  · rfl

theorem afterComplete_call (receipt : GatewayExecutionReceipt) (o : Output) :
    (afterComplete receipt o).call = none := by
  unfold afterComplete
  split <;> rfl

theorem afterEnd_call (e : GatewayError) (o : Output) : (afterEnd e o).call = none := by
  unfold afterEnd
  split <;> rfl

theorem afterRetry_call (ats : ℕ) (o : Output) : (afterRetry ats o).call = none := by
  unfold afterRetry
  split
  · exact entered_call ..
  · rfl
  · rfl

theorem afterRecord_call (receipt : GatewayExecutionReceipt) (o : Output) :
    (afterRecord receipt o).call = none := by
  unfold afterRecord
  split <;> rfl

theorem afterCleanup_eq (e : GatewayError) (o : Output) :
    ∃ ans, afterCleanup e o = .returned ans := by
  unfold afterCleanup
  split <;> exact ⟨_, rfl⟩

section Step

/-- STEP: a step of another call. -/
theorem Working.other (hw : Working req w) (h : w.step mode req (.other lab) = some (w', u)) :
    Working req w' ∧ (Leaked req w'.sys w'.stage ↔ Leaked req w.sys w.stage) := by
  rw [World.step] at h
  split_ifs at h with hfor
  obtain ⟨o, hst, hsg'⟩ := World.take_eq_some h
  have hmove := step_moves hw.inOrder hst
  have hsame := hmove.sameFor hw.inOrder hw.registered hw.alone hfor
  rw [hsg']
  refine ⟨⟨hmove.inOrder hw.inOrder, hmove.registered hw.registered, ?_, ?_⟩, hsame.leaked_iff⟩
  · exact hsg' ▸ hmove.alone hw.registered hw.alone hfor
  · exact hsg' ▸ hsame.owns hw.owns

/-- STEP: the clean-up leaks the request exactly when it finds it queued and gets no time. -/
theorem Working.cleanup (hw : Working req ⟨s, .cleaning ticket e⟩)
    (h : World.step mode req ⟨s, .cleaning ticket e⟩ (.cleanup now) = some (w', u)) :
    Working req w' ∧ (Leaked req w'.sys w'.stage ↔
      cleanupReadsClock req ⟨s, .cleaning ticket e⟩ (.cleanup now) = false) := by
  obtain ⟨o, hst, hsg'⟩ := World.take_eq_some h
  have hmove := step_moves hw.inOrder hst
  have howns := hmove.owns_cleanup hw.owns
  obtain ⟨ans, hans⟩ := afterCleanup_eq e o
  refine ⟨⟨hmove.inOrder hw.inOrder, hmove.registered hw.registered, ?_, hsg' ▸ howns⟩, ?_⟩
  · refine hmove.alone_outside hw.alone rfl (by simp) ?_
    rw [hsg', hans]
    rfl
  · rw [hsg', hans, Leaked, hmove.queued_cleanup hw.owns.1]
    cases now <;> simp [cleanupReadsClock, Except.isOk, Except.toBool]

theorem Working.receive (hw : Working req ⟨s, .start⟩)
    (h : World.step mode req ⟨s, .start⟩ .receive = some (w', u)) :
    Working req w' ∧ ¬Leaked req w'.sys w'.stage := by
  simp only [World.step] at h
  obtain ⟨o, hst, hsg'⟩ := World.take_eq_some h
  have hmove := step_moves hw.inOrder hst
  have howns := hmove.owns_receive hw.owns
  refine ⟨⟨hmove.inOrder hw.inOrder, hmove.registered hw.registered, ?_, hsg' ▸ howns⟩, ?_⟩
  · exact hsg' ▸ hmove.alone_receive hw.alone rfl
  · rw [hsg']
    exact id

theorem Working.admission (hw : Working req ⟨s, .admitting call⟩)
    (h : World.step mode req ⟨s, .admitting call⟩ (.admission lab) = some (w', u)) :
    Working req w' ∧ ¬Leaked req w'.sys w'.stage := by
  simp only [World.step] at h
  split_ifs at h with hlb
  obtain ⟨o, hst, hsg'⟩ := World.take_eq_some h
  have hmove := step_moves hw.inOrder hst
  have htidy := hmove.tidy_admission hw.registered hw.alone hw.owns hlb
  rw [← hsg'] at htidy
  refine ⟨⟨hmove.inOrder hw.inOrder, hmove.registered hw.registered, ?_, htidy.owns⟩, htidy.clear⟩
  exact hsg' ▸ hmove.alone_admission hw.alone hlb

/-- STEP: an attempt, by the way it is settled. -/
theorem Working.attempt {attempt : Attempt} (hw : Working req ⟨s, .executing res ats⟩)
    (h : World.step mode req ⟨s, .executing res ats⟩
      (.attempt attempt now rts safety) = some (w', u)) :
    Working req w' ∧ ¬Leaked req w'.sys w'.stage := by
  simp only [World.step] at h
  split at h
  · exact hw.manage h rfl (by simp) (afterComplete_call _)
      fun t o hmove => hmove.tidy_complete hw.inOrder hw.owns
  · exact hw.manage h rfl (by simp) (afterEnd_call _)
      fun t o hmove => hmove.tidy_cancel hw.inOrder hw.owns
  · exact hw.manage h rfl (by simp) (afterEnd_call _)
      fun t o hmove => hmove.tidy_fail hw.inOrder hw.owns
  · exact hw.manage h rfl (by simp) (afterRetry_call _)
      fun t o hmove => hmove.tidy_retry hw.inOrder hw.owns

theorem iff_of_clear {P : Prop} (h : ¬P) : P ↔ False ∨ true = false := iff_of_false h (by simp)

/-- STEP: every action keeps the call accountable, and it leaks the request only by a clean-up that
    finds it queued and gets no time. -/
theorem Working.step {act : Act} (hw : Working req w) (h : w.step mode req act = some (w', u)) :
    Working req w' ∧ (Leaked req w'.sys w'.stage ↔
      Leaked req w.sys w.stage ∨ cleanupReadsClock req w act = false) := by
  obtain ⟨s, sg⟩ := w
  cases act with
  | other lab =>
    refine (hw.other h).imp_right fun hiff => hiff.trans ?_
    simp [cleanupReadsClock]
  | receive =>
    cases sg with
    | start => exact (hw.receive h).imp_right iff_of_clear
    | _ => cases h
  | admission lab =>
    cases sg with
    | admitting call => exact (hw.admission h).imp_right iff_of_clear
    | _ => cases h
  | poll now =>
    cases sg with
    | waiting ticket cycles ats =>
      refine (hw.manage h rfl (by simp) (afterPollRead_call _ _ _) ?_).imp_right iff_of_clear
      exact fun t o hmove => hmove.tidy_poll hw.inOrder hw.owns
    | _ => cases h
  | commit rts safety =>
    cases sg with
    | polling ticket poll cycles ats =>
      refine (hw.manage h rfl (by simp) (afterPollCommit_call _ _ _) ?_).imp_right iff_of_clear
      exact fun t o hmove => hmove.tidy_commit hw.inOrder hw.owns
    | _ => cases h
  | wait connected wait =>
    cases sg with
    | parked ticket cycles ats =>
      cases h
      have htidy := tidy_afterWait connected wait hw.inOrder hw.owns
      refine ⟨⟨hw.inOrder, hw.registered, ⟨fun n c hn hid => ?_, fun n hn => ?_⟩, htidy.owns⟩,
        iff_of_clear htidy.clear⟩
      · exact absurd (hw.alone.others n c hn hid) (by simp [Stage.call])
      · exact absurd ((afterWait_call ..).symm.trans hn) (by simp)
    | _ => cases h
  | cleanup now =>
    cases sg with
    | cleaning ticket e =>
      exact (hw.cleanup h).imp_right fun hiff => hiff.trans (or_iff_right id).symm
    | _ => cases h
  | attempt attempt now rts safety =>
    cases sg with
    | executing res ats => exact (hw.attempt h).imp_right iff_of_clear
    | _ => cases h
  | record failure =>
    cases sg with
    | recording usg receipt =>
      refine (hw.manage h rfl (by simp) (afterRecord_call _) ?_).imp_right iff_of_clear
      exact fun t o hmove => hmove.tidy_record hw.owns
    | _ => cases h

end Step

/-- RUN: along a run of a call, its request is leaked exactly if some clean-up found it queued and
    got no time. -/
theorem Working.run {w₀ : World} {tr : List (World × Act × Unit)}
    (h : Run (World.step mode req) w₀ tr w) (h₀ : Working req w₀)
    (hcle : ¬Leaked req w₀.sys w₀.stage) :
    Working req w ∧ (Leaked req w.sys w.stage ↔
      ∃ e ∈ tr, cleanupReadsClock req e.1 e.2.1 = false) := by
  induction h with
  | nil => exact ⟨h₀, by simp [hcle]⟩
  | @snoc tr w w' act u _ hst ih =>
    obtain ⟨hw, hleak⟩ := ih
    obtain ⟨hw', hleak'⟩ := hw.step hst
    refine ⟨hw', hleak'.trans ?_⟩
    rw [hleak]
    simp [or_and_right, exists_or]

/-- Nothing in the manager is held for an identity: no entry, no place in the queue, and the slots
    and quotas are exactly those of the other live requests. -/
structure Clean (id : Sha256Digest) (s : Sys) : Prop where
  inactive : id ∉ s.state.activeRequests
  unqueued : id ∉ s.state.queued
  unlisted : id ∉ s.state.queueOrder
  routes : ∀ g, s.state.routeActive.amount g = activeOn (s.state.activeRequests.erase id) g
  principals : ∀ k, s.state.principalActive.amount k =
    ((s.held.filter fun r => r.request.requestId ≠ id).map (·.claim.count k)).sum +
      Table.total (fun _ q => q.claim.count k) (s.state.queued.erase id)
  tokens : ∀ k, s.state.principalReservedTokens.amount k =
    ((s.held.filter fun r => r.request.requestId ≠ id).map (·.claim.load k)).sum +
      Table.total (fun _ q => q.claim.load k) (s.state.queued.erase id)

theorem InOrder.clean (hacc : InOrder s) (hplc : Unplaced id s)
    (hunq : id ∉ s.state.queued) : Clean id s := by
  have hots : (s.held.filter fun r => r.request.requestId ≠ id) = s.held :=
    filter_eq_self.mpr fun r hr => decide_eq_true (hplc r hr)
  have hina : id ∉ s.state.activeRequests := by
    intro hmem
    obtain ⟨g, hg⟩ := Finmap.mem_iff.mp hmem
    obtain ⟨r, hr, hid, -⟩ := (hacc.active id g).mp hg
    exact hplc r hr hid
  refine ⟨hina, hunq, mt (hacc.listed id).mp hunq, fun g => ?_, fun k => ?_, fun k => ?_⟩
  · rw [Table.erase_of_notMem hina]
    exact hacc.routes g
  · rw [hots, Table.erase_of_notMem hunq]
    exact hacc.principals k
  · rw [hots, Table.erase_of_notMem hunq]
    exact hacc.tokens k

structure Unused (id : Sha256Digest) (s : Sys) : Prop where
  inactive : id ∉ s.state.activeRequests
  unqueued : id ∉ s.state.queued
  outside : ∀ n c, s.admissions.lookup n = some c → c.request.requestId ≠ id

/-- A call that begins in any reachable state with a new identity. -/
theorem Unused.working (h : Run (step mode) { usage := db } tr s)
    (hnew : Unused req.requestId s) : Working req ⟨s, .start⟩ where
  inOrder := inOrder_of_run h
  registered := registered_of_run h
  alone := ⟨fun n c hn hid => absurd hid (hnew.outside n c hn), fun n hn => by cases hn⟩
  owns := by
    refine ⟨fun r hr hid => hnew.inactive ?_, hnew.unqueued⟩
    exact mem_of_lookup_eq_some (hid ▸ (inOrder_of_run h).owned hr)

/-- CORRECT exactly under the condition: a call that has returned leaves nothing behind if and only
    if no clean-up of its queue entry found the request queued and got no time from the clock. -/
theorem returned_clean_iff {db : UsageDatabase} {tr₀ : List (Sys × Label × Output)} {s₀ : Sys}
    (h₀ : Run (step mode) { usage := db } tr₀ s₀) (hnew : Unused req.requestId s₀)
    {tr : List (World × Act × Unit)} {w : World} (h : Run (World.step mode req) ⟨s₀, .start⟩ tr w)
    {ans : Except GatewayError GatewayExecutionReceipt} (hrtd : w.stage = .returned ans) :
    Clean req.requestId w.sys ↔ ∀ e ∈ tr, cleanupReadsClock req e.1 e.2.1 = true := by
  obtain ⟨hw, hleak⟩ := Working.run h (hnew.working h₀) id
  have howns := hw.owns
  rw [hrtd] at hleak howns
  constructor
  · intro hcle e he
    by_contra hbad
    exact hcle.unqueued (hleak.mpr ⟨e, he, by simpa using hbad⟩)
  · intro hok
    refine hw.inOrder.clean howns fun hque => ?_
    obtain ⟨e, he, hbad⟩ := hleak.mp hque
    rw [hok e he] at hbad
    cases hbad

/-! ### A call that waits and gives up -/

/-- A call for the sample request "b" that is queued, polls once, finds its client gone and cleans
    up with this answer of the clock. -/
def disconnected (now : Except GatewayError UnixMilliseconds) : List Act :=
  [.receive,
    .admission (.prepare 1 (.publicMain (.ok (samplePrincipal unlimited))) (.ok 6)
      (.ok [sampleRoute]) fun _ => .ok true),
    .admission (.fetch 1 none), .admission (.admitSection 1), .poll (.ok 7),
    .commit (.ok [sampleRoute]) (fun _ => .ok true), .wait (.ok false) (.ok ()), .cleanup now]

/-- The runs of such a call after the sample request "a" has taken the only slot. -/
theorem exists_disconnected (now : Except GatewayError UnixMilliseconds)
    (check : List (World × Act × Unit) → World → Bool)
    (h : (exec (step sampleMode) {} (arriving 0 "a" unlimited 5)).any (fun r =>
      r.2.state.activeRequests.keys = {⟨"a"⟩} ∧ r.2.state.queued.keys = ∅ ∧
        r.2.admissions.keys = ∅ ∧
      (exec (World.step sampleMode (sampleRequest "b")) ⟨r.2, .start⟩ (disconnected now)).any
        fun r' => (match r'.2.stage with | .returned _ => true | _ => false) && check r'.1 r'.2) =
      true) :
    ∃ tr₀ s₀ tr w ans, Run (step sampleMode) {} tr₀ s₀ ∧ Unused ⟨"b"⟩ s₀ ∧
      Run (World.step sampleMode (sampleRequest "b")) ⟨s₀, .start⟩ tr w ∧
      w.stage = .returned ans ∧ check tr w = true := by
  obtain ⟨⟨tr₀, s₀⟩, hexec₀, hs₀⟩ := Option.any_eq_true _ _ |>.mp h
  obtain ⟨hact, hque, hins, hcall⟩ := of_decide_eq_true hs₀
  obtain ⟨⟨tr, w⟩, hexec, hw⟩ := Option.any_eq_true _ _ |>.mp hcall
  obtain ⟨hrtd, hchk⟩ := Bool.and_eq_true_iff.mp hw
  have hnew : Unused ⟨"b"⟩ s₀ := by
    refine ⟨?_, ?_, fun n c hn => ?_⟩
    · rw [← Finmap.mem_keys, hact]
      decide
    · rw [← Finmap.mem_keys, hque]
      decide
    · have hmem := Finmap.mem_keys.mpr (mem_of_lookup_eq_some hn)
      rw [hins] at hmem
      cases hmem
  obtain ⟨ans, hans⟩ : ∃ ans, w.stage = .returned ans := by
    cases hsg : w.stage with
    | returned ans => exact ⟨ans, rfl⟩
    | _ => simp [hsg] at hrtd
  exact ⟨tr₀, s₀, tr, w, ans, (Run.of_exec hexec₀).1, hnew, (Run.of_exec hexec).1, hans, hchk⟩

/-- With a clock answer the request that waited is gone. -/
theorem returned_clean_iff_disconnected : ∃ tr₀ s₀ tr w answer, Run (step sampleMode) {} tr₀ s₀ ∧
    Unused ⟨"b"⟩ s₀ ∧ Run (World.step sampleMode (sampleRequest "b")) ⟨s₀, .start⟩ tr w ∧
    w.stage = .returned answer ∧ tr.length = 8 ∧ Clean ⟨"b"⟩ w.sys := by
  obtain ⟨tr₀, s₀, tr, w, answer, h₀, hnew, hrun, hrtd, hchk⟩ :=
    exists_disconnected (.ok 8)
      (fun tr _ => tr.length = 8 ∧ ∀ e ∈ tr, cleanupReadsClock (sampleRequest "b") e.1 e.2.1 = true)
      (by decide)
  obtain ⟨hlen, hok⟩ := of_decide_eq_true hchk
  exact ⟨tr₀, s₀, tr, w, answer, h₀, hnew, hrun, hrtd, hlen,
    (returned_clean_iff h₀ hnew hrun hrtd).mpr hok⟩

/-- Without one the call returns and the request stays: it is still queued, first in the order, and
    its key is charged for it. -/
theorem returned_leaks_queued : ∃ tr₀ s₀ tr w answer, Run (step sampleMode) {} tr₀ s₀ ∧
    Unused ⟨"b"⟩ s₀ ∧ Run (World.step sampleMode (sampleRequest "b")) ⟨s₀, .start⟩ tr w ∧
    w.stage = .returned answer ∧ w.sys.state.queueOrder = [⟨"b"⟩] ∧
    w.sys.state.principalActive.amount ⟨"key"⟩ = 2 ∧ w.sys.held.length = 1 ∧
    ¬Clean ⟨"b"⟩ w.sys := by
  obtain ⟨tr₀, s₀, tr, w, answer, h₀, hnew, hrun, hrtd, hchk⟩ :=
    exists_disconnected (.error (.provider "clock" "unavailable"))
      (fun _ w => w.sys.state.queueOrder = [⟨"b"⟩] ∧
        w.sys.state.principalActive.amount ⟨"key"⟩ = 2 ∧ w.sys.held.length = 1)
      (by decide)
  obtain ⟨hord, hcha, hheld⟩ := of_decide_eq_true hchk
  refine ⟨tr₀, s₀, tr, w, answer, h₀, hnew, hrun, hrtd, hord, hcha, hheld, ?_⟩
  intro hcle
  exact hcle.unlisted (hord ▸ mem_singleton_self _)

end LetsInfer.Gateway
