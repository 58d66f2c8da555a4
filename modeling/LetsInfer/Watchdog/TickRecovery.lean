import LetsInfer.Watchdog.Manager
import LetsInfer.Watchdog.SampleRestart

/-! @src core/watchdog/src/li_watchdog_manager.rs | name:Ticks after a failed tick | scheme:invariant

    The manager over the filesystem storage. The storage accepts a sample in the middle of a tick,
    and the manager takes the next sequence number at its end. As long as a tick fails only before
    its sample is accepted, the two agree on what comes next and every healthy tick succeeds. A tick
    that fails later leaves the manager one sample behind: it asks for a fresh sample under a number
    that the storage has given to another one, and every tick from then on is refused. -/

namespace LetsInfer.Watchdog
open Schemes List

/-! ### The manager over the storage -/

/-- What the sampler, the protection provider and the operating system answer during one tick. -/
structure Answers where
  sample : Except WatchdogError Sample
  observations : Except WatchdogError (List ProtectionObservation)
  acknowledge : ProtectedEngine → Except WatchdogError Unit
  latch : ProtectedEngine → Except WatchdogError Unit
  contain : ProtectedEngine → Except WatchdogError Bool
  sampleFault : Option SampleFault
  eventFault : SafetyEvent → Option EventFault
  flushFault : ℕ → Option FlushFault

/-- The storage during one tick, and how often the tick flushed it. -/
structure TickWorld where
  storage : Storage
  flushes : ℕ

/-- A call of the storage. -/
def onStorage (f : Storage → Storage × Except WatchdogError Unit) :
    Call WatchdogError TickWorld Unit :=
  fun w => ((f w.storage).2, { w with storage := (f w.storage).1 })

def Answers.providers (answers : Answers) : Providers TickWorld where
  sample _ := .answer answers.sample
  observations _ := .answer answers.observations
  acknowledgeDisarmed target := .answer (answers.acknowledge target)
  latchTrip target _ _ _ := .answer (answers.latch target)
  contain target _ _ := .answer (answers.contain target)
  recordSample sample := onStorage fun storage => storage.recordSample sample answers.sampleFault
  recordEvent event := onStorage fun storage => storage.recordEvent event (answers.eventFault event)
  flush := fun w => onStorage (fun storage => storage.flush (answers.flushFault w.flushes))
    { w with flushes := w.flushes + 1 }

structure ManagerSys where
  manager : ManagerState
  storage : Storage
  deriving DecidableEq

def ManagerSys.open (storage : Storage) : Except WatchdogError ManagerSys := do
  let manager ← ManagerState.new storage.acceptedNextSequence
  return ⟨manager, storage⟩

def ManagerSys.step (thresholds : SafetyThresholds) (s : ManagerSys) (answers : Answers) :
    Option (ManagerSys × Except WatchdogError Tick) :=
  let outcome := tick thresholds answers.providers (s.manager, ⟨s.storage, 0⟩)
  some (⟨outcome.2.1, outcome.2.2.storage⟩, outcome.1)

/-- No call fails that the tick makes after it recorded its sample. -/
structure Answers.Spares (answers : Answers) : Prop where
  acknowledge : ∀ target, answers.acknowledge target = .ok ()
  latch : ∀ target, answers.latch target = .ok ()
  event : ∀ event, answers.eventFault event = none
  flush : ∀ count, answers.flushFault count = none

/-- No call fails at all, and the sampler returns a fresh sample in order. -/
structure Answers.Succeed (answers : Answers) (manager : ManagerState) : Prop
    extends answers.Spares where
  sample : ∃ sample, answers.sample = .ok sample ∧ inOrder manager sample
  observations : ∃ observations, answers.observations = .ok observations ∧
    areBounded (sortObservations observations)
  record : answers.sampleFault = none

/-- The journal has ordinals for the events of one more tick. -/
def ManagerSys.HasOrdinals (s : ManagerSys) : Prop :=
  s.storage.events.nextOrdinal + maximumWatchdogTargets < u64Bound

variable {L : ℕ} {mgr : ManagerState} {smp : Sample} {answers : Answers}
  {thr : SafetyThresholds} {ev : SafetyEvent} {Q : Unit → TickWorld → Prop}

/-! ### The invariant -/

section Invariant

variable {budget : ℕ} {w : TickWorld}

/-- The manager and the storage agree on the next sample. -/
structure Serves (L : ℕ) (manager : ManagerState) (s : Storage) : Prop where
  rings : s.RingsValid
  positive : 0 < L
  journal : ∃ log, Mem L log s.events ∧ Holds L log s.eventsFile.view
  next : s.acceptedNextSequence = manager.nextSequence
  started : 0 < manager.nextSequence

/-- The storage has accepted the sample of the tick, and its journal has room for as many events. -/
structure Accepted (L : ℕ) (manager : ManagerState) (sample : Sample) (budget : ℕ) (s : Storage) :
    Prop where
  rings : s.RingsValid
  positive : 0 < L
  journal : ∃ log, Mem L log s.events ∧ Holds L log s.eventsFile.view ∧
    log.length + budget + 1 < u64Bound
  next : s.acceptedNextSequence = manager.nextSequence + 1
  started : 0 < manager.nextSequence
  room : manager.nextSequence + 1 < u64Bound
  sequence : sample.sequence.toNat = manager.nextSequence
  latest : s.latestSample = some sample

theorem Accepted.of_next {mgr' : ManagerState} {s : Storage} (h : Accepted L mgr smp budget s)
    (hnx : mgr'.nextSequence = mgr.nextSequence) : Accepted L mgr' smp budget s :=
  ⟨h.rings, h.positive, h.journal, by rw [hnx]; exact h.next, by rw [hnx]; exact h.started,
    by rw [hnx]; exact h.room, by rw [hnx]; exact h.sequence, h.latest⟩

theorem Accepted.spend {budget' : ℕ} {s : Storage} (h : Accepted L mgr smp budget s)
    (hle : budget' ≤ budget) : Accepted L mgr smp budget' s := by
  obtain ⟨log, hmem, hhd, hroom⟩ := h.journal
  exact ⟨h.rings, h.positive, ⟨log, hmem, hhd, by omega⟩, h.next, h.started, h.room, h.sequence,
    h.latest⟩

/-- STEP: recording the next sample accepts it, or leaves the manager and the storage agreed. -/
theorem Serves.recordSample (h : Serves L mgr w.storage)
    (hseq : smp.sequence.toNat = mgr.nextSequence)
    (hbud : w.storage.events.nextOrdinal + budget < u64Bound) :
    (answers.providers.recordSample smp).Post w (fun _ t => Accepted L mgr smp budget t.storage)
      (fun _ t => (answers.sampleFault = none → u64Bound ≤ mgr.nextSequence + 1) ∧
        Serves L mgr t.storage) := by
  obtain ⟨raw, minute, quarter, hval, ⟨e, hflt, hrec⟩ | hrec⟩ :=
    h.rings.recordNext (hseq.trans h.next.symm) answers.sampleFault
  · simp only [Call.Post, Answers.providers, onStorage, hrec]
    exact ⟨fun hno => absurd hno hflt, hval, h.positive, h.journal, h.next, h.started⟩
  · simp only [Call.Post, Answers.providers, onStorage, hrec, Storage.accept]
    obtain ⟨log, hmem, hhd⟩ := h.journal
    rw [hmem.next] at hbud
    split_ifs with hfull
    · exact ⟨fun _ => by omega, ⟨hval.raw, hval.minute, hval.quarter⟩, h.positive,
        ⟨log, hmem, hhd⟩, h.next, h.started⟩
    · exact ⟨⟨hval.raw, hval.minute, hval.quarter⟩, h.positive,
        ⟨log, hmem, hhd, by omega⟩, by rw [← hseq], h.started, by omega, hseq, rfl⟩

variable {E : WatchdogError → TickWorld → Prop} {t : ManagerState × TickWorld}

/-- STEP: recording an event of the accepted sample takes one ordinal at most. -/
theorem Accepted.recordEvent (h : Accepted L mgr smp (budget + 1) w.storage)
    (hseq : ev.sequence = smp.sequence) (hidt : ∃ idn, EventIdentity.fromEvent ev = .ok idn)
    (hspa : answers.eventFault ev = none) :
    (answers.providers.recordEvent ev).Post w
      (fun _ t => Accepted L mgr smp budget t.storage) E := by
  obtain ⟨idn, hidt⟩ := hidt
  obtain ⟨log, hmem, hhd, hroom⟩ := h.journal
  have hret : w.storage.retainsSequence ev.sequence = true := by
    simp [Storage.retainsSequence, h.latest, hseq]
  simp only [Call.Post, Answers.providers, onStorage, hspa, Storage.recordEvent, hret, if_true]
  obtain ⟨j, vol, ⟨-, hrec, hmem', hhd'⟩ | ⟨-, hrec, hmem', hhd'⟩⟩ :=
    hmem.ready.record_healthy hhd h.positive hidt fun _ => by omega
  · rw [hrec]
    exact ⟨⟨h.rings.raw, h.rings.minute, h.rings.quarter⟩, h.positive,
      ⟨log, hmem', hhd', by omega⟩, h.next, h.started, h.room, h.sequence, h.latest⟩
  · rw [hrec]
    refine ⟨⟨h.rings.raw, h.rings.minute, h.rings.quarter⟩, h.positive,
      ⟨log ++ [idn], hmem', hhd', ?_⟩, h.next, h.started, h.room, h.sequence, h.latest⟩
    rw [length_append, length_singleton]
    omega

theorem Accepted.flush (h : Accepted L mgr smp budget w.storage) (hspa : answers.Spares) :
    answers.providers.flush.Post w (fun _ t => Accepted L mgr smp budget t.storage) E := by
  obtain ⟨log, hmem, hhd, hroom⟩ := h.journal
  simp only [Call.Post, Answers.providers, onStorage, hspa.flush, Storage.flush]
  refine ⟨⟨h.rings.raw, h.rings.minute, h.rings.quarter⟩, h.positive, ⟨log, hmem, ?_, hroom⟩, h.next,
    h.started, h.room, h.sequence, h.latest⟩
  split_ifs
  · rwa [Volume.view_sync]
  · exact hhd

/-! ### A tick after its sample -/

theorem fromEvent_ok {kind : EventKind} {reason : EventReason}
    (hkind : EventKind.ofName ev.kind = .ok kind) (hrea : EventReason.ofName ev.reason = .ok reason)
    (hgen : isLowerHex ev.generation maxGenerationBytes) (hseq : ev.sequence ≠ 0)
    (hcld : ∀ gen, EventIdentity.closed ⟨kind, reason, ev.severity, gen,
      ev.sequence, ev.action, ev.containmentComplete⟩ = true) :
    ∃ idn, EventIdentity.fromEvent ev = .ok idn := by
  obtain ⟨hlen, hhex⟩ : ev.generation.length = watchdogEventGenerationBytes ∧
      ev.generation.all isLowerHexByte = true := of_decide_eq_true hgen
  unfold EventIdentity.fromEvent
  rw [hkind, hrea, ok_bind, ok_bind, dif_pos hlen]
  simp [hseq, hhex, EventIdentity.validate, hcld]

theorem Accepted.warning (h : Accepted L mgr smp budget w.storage) (tgt : ProtectedEngine) :
    ∃ idn, EventIdentity.fromEvent (warningOf smp tgt) = .ok idn := by
  refine fromEvent_ok rfl rfl tgt.generation_hex ?_ fun _ => rfl
  intro hzero
  have hpos := h.started
  rw [← h.sequence, show smp.sequence = 0 from hzero] at hpos
  exact absurd hpos (by decide)

theorem Accepted.trip (h : Accepted L mgr smp budget w.storage) {trip : Trip}
    (hdcn : safetyDecision trip.observation = some (trip.action, trip.reason))
    (containmentComplete : Bool) :
    ∃ idn, EventIdentity.fromEvent (tripEvent smp trip containmentComplete) = .ok idn := by
  have hpos := h.started
  have hseq : smp.sequence ≠ 0 := by
    intro hzero
    rw [← h.sequence, hzero] at hpos
    exact absurd hpos (by decide)
  obtain ⟨observation, act, reason⟩ := trip
  unfold safetyDecision at hdcn
  split_ifs at hdcn with hexi hkil
  · cases hdcn
    exact fromEvent_ok rfl rfl observation.target.generation_hex hseq fun _ => rfl
  · cases hdcn
    exact fromEvent_ok rfl rfl observation.target.generation_hex hseq fun _ => rfl

/-- What holds between two observations of a tick: each of those to come takes one event at most,
    now or as a trip. -/
def Judged (L : ℕ) (sample : Sample) (rest : List ProtectionObservation)
    (found : List SafetyEvent × List Trip) (t : ManagerState × TickWorld) : Prop :=
  Accepted L t.1 sample (rest.length + found.2.length) t.2.storage ∧
    ∀ trip ∈ found.2, safetyDecision trip.observation = some (trip.action, trip.reason)

theorem Answers.Spares.acknowledged (h : answers.Spares) (tgt : ProtectedEngine) (hQ : Q () w) :
    (answers.providers.acknowledgeDisarmed tgt).Post w Q E := by
  refine .answer (fun _ _ => hQ) fun e herr => ?_
  rw [h.acknowledge] at herr
  cases herr

theorem Answers.Spares.latched (h : answers.Spares) (trip : Trip) (hQ : Q () w) :
    (answers.providers.latchTrip trip.observation.target trip.action trip.reason
      trip.observation.safety).Post w Q E := by
  refine .answer (fun _ _ => hQ) fun e herr => ?_
  rw [h.latch] at herr
  cases herr

section Judging

variable {observation : ProtectionObservation} {rest : List ProtectionObservation}
  {found : List SafetyEvent × List Trip} {t : ManagerState × TickWorld}
  {E : WatchdogError → ManagerState × TickWorld → Prop}

section

variable (h : Judged L smp (observation :: rest) found t)
include h

theorem Judged.skip
    (warnings : Table Text Bool) : Judged L smp rest found ({ t.1 with warnings }, t.2) := by
  refine ⟨(h.1.spend ?_).of_next rfl, h.2⟩
  rw [length_cons]
  omega

/-- STEP: an observation is judged without a failure. -/
theorem Judged.judge (hspa : answers.Spares) :
    (judge thr answers.providers smp found observation).Post t (Judged L smp rest) E := by
  have hacc := h.1
  rw [length_cons, Nat.add_right_comm] at hacc
  refine judge_post (fun act reason _ hdcn => ⟨?_, fun trip htrip => ?_⟩)
    (fun _ _ => hspa.acknowledged _ h.skip) (fun _ => ?_) fun _ => h.skip
  · rwa [length_append, length_singleton, ← Nat.add_assoc]
  · rcases mem_snoc.mp htrip with hin | rfl
    · exact h.2 trip hin
    · exact hdcn
  · exact (hacc.recordEvent rfl (hacc.warning _) (hspa.event _)).mono
      (fun _ _ hu _ => ⟨hu.of_next rfl, h.2⟩) fun _ _ h => h

end

/-- STEP: a trip is latched and recorded without a failure, contained or not. -/
theorem Accepted.contain {trip : Trip} {trips : List Trip} {evs : List SafetyEvent}
    (h : Accepted L t.1 smp (trips.length + 1) t.2.storage) (hspa : answers.Spares)
    (hdcn : safetyDecision trip.observation = some (trip.action, trip.reason)) :
    (contain thr answers.providers smp evs trip).Post t
      (fun _ u => Accepted L u.1 smp trips.length u.2.storage) E := by
  refine contain_post (P := fun w => w = t.2)
    (hspa.latched trip (.answer (fun _ _ => rfl) fun _ _ => rfl)) ?_
  rintro complete _ rfl
  exact (h.recordEvent rfl (h.trip hdcn _) (hspa.event _)).mono
    (fun _ _ hu _ => hu.of_next rfl) fun _ _ h => h

end Judging

theorem Accepted.advance (h : Accepted L t.1 smp 0 t.2.storage)
    {E : WatchdogError → ManagerState × TickWorld → Prop} :
    (advance smp).Post t (fun _ u => Serves L u.1 u.2.storage) E := by
  refine .bind (.left (.get ?_))
  refine .bind (.check (fun _ => ?_) fun hfull => ?_)
  · obtain ⟨log, hmem, hhd, -⟩ := h.journal
    exact ⟨h.rings, h.positive, ⟨log, hmem, hhd⟩, h.next, Nat.succ_pos _⟩
  · exact absurd h.room (of_decide_eq_false hfull)

/-- RUN: once the sample is accepted, the tick completes and the manager catches up. -/
theorem Accepted.protect {obs : List ProtectionObservation}
    {E : WatchdogError → ManagerState × TickWorld → Prop}
    (h : Accepted L t.1 smp obs.length t.2.storage) (hspa : answers.Spares) :
    (protect thr answers.providers smp obs).Post t (fun _ u => Serves L u.1 u.2.storage) E := by
  refine protect_post (Judged L smp)
    (fun trips _ x => Accepted L x.1 smp trips.length x.2.storage ∧
      ∀ trip ∈ trips, safetyDecision trip.observation = some (trip.action, trip.reason))
    (F := fun x => Accepted L x.1 smp 0 x.2.storage)
    (fun _ _ _ _ hu => hu.judge hspa) (fun found u hu => ?_) (fun trip trips _ x hx => ?_)
    (fun _ x hx => .onlyIf (fun _ => .right (hx.1.flush hspa)) fun _ => hx.1)
    (fun _ hy => hy.advance) ⟨h, by simp⟩
  · obtain ⟨hu, htri⟩ := hu
    rw [length_nil, Nat.zero_add] at hu
    exact .onlyIf (fun _ => .right ((hu.flush hspa).mono (fun _ _ hv => ⟨hv, htri⟩)
      fun _ _ h => h)) fun _ => ⟨hu, htri⟩
  · exact (hx.1.contain hspa (hx.2 trip mem_cons_self)).mono
      (fun _ y hy => ⟨hy, fun trip htrip => hx.2 trip (mem_cons_of_mem _ htrip)⟩) fun _ _ h => h

/-! ### Ticks -/

/-- STEP: a tick that fails at most before its sample is accepted keeps the two agreed, and a tick
    in which nothing fails succeeds. -/
theorem Serves.tick (thr : SafetyThresholds) (h : Serves L t.1 t.2.storage)
    (hors : t.2.storage.events.nextOrdinal + maximumWatchdogTargets < u64Bound)
    (hspa : answers.Spares) :
    (tick thr answers.providers).Post t (fun _ u => Serves L u.1 u.2.storage)
      (fun _ u => (answers.Succeed t.1 → u64Bound ≤ t.1.nextSequence + 1) ∧
        Serves L u.1 u.2.storage) := by
  have hfai : ¬answers.Succeed t.1 → (answers.Succeed t.1 → u64Bound ≤ t.1.nextSequence + 1) ∧
      Serves L t.1 t.2.storage := fun hno => ⟨fun hyes => absurd hyes hno, h⟩
  refine .bind (.bind (.left (.get ?_)))
  refine .bind (.right (.answer (fun smp hsmp => ?_) fun e herr => hfai ?_))
  · refine .bind (.check (fun hord => ?_) fun hsta => hfai ?_)
    · refine .bind (.right (.answer (fun obs hobs => ?_) fun e herr =>
        hfai ?_))
      · refine .bind (.check (fun hbou => ?_) fun hmany => hfai ?_)
        · obtain ⟨hseq, -, -⟩ := of_decide_eq_true hord
          have hlen : (sortObservations obs).length ≤ maximumWatchdogTargets :=
            (of_decide_eq_true hbou).1
          refine .bind (.right ((h.recordSample hseq (lt_of_le_of_lt
            (Nat.add_le_add_left hlen _) hors)).mono (fun _ u hu => ?_) fun _ u hu => ?_))
          · exact hu.protect hspa
          · exact ⟨fun hsuc => hu.1 hsuc.record, hu.2⟩
        · rintro ⟨-, -, ⟨others, hots, hbou⟩, -⟩
          cases hobs.symm.trans hots
          exact absurd hbou (by rw [hmany]; exact Bool.false_ne_true)
      · rintro ⟨-, -, ⟨others, hots, -⟩, -⟩
        cases hots.symm.trans herr
    · rintro ⟨-, ⟨other, hoth, hord⟩, -, -⟩
      cases hsmp.symm.trans hoth
      exact absurd hord (by rw [hsta]; exact Bool.false_ne_true)
  · rintro ⟨-, ⟨other, hoth, -⟩, -, -⟩
    cases hoth.symm.trans herr

end Invariant

/-! ### Runs -/

section Runs

variable {lay : StorageLayout} {rawCapacity minuteCapacity quarterCapacity : ℕ}
  {raw minute quarter evs : List UInt8} {storage : Storage} {s₀ s t : ManagerSys}

theorem Ring.valid_of_withFile {iv cap : ℕ} {lay : RingLayout} {file : List UInt8}
    {ring : Ring} (hlay : RingLayout.new iv cap = .ok lay)
    (hopen : Ring.withFile lay file = .ok ring) : ring.Valid := by
  obtain ⟨rfl, hitv, hcap, hbs⟩ := ringLayout_new hlay
  obtain ⟨hfits, hopen⟩ := throw_if_ok_iff.mp hopen
  cases hopen
  refine ⟨hitv, hcap, hbs, ?_⟩
  rw [length_append, length_replicate]
  exact Nat.add_sub_of_le (not_lt.mp hfits)

theorem serves_open (hlay : StorageLayout.new rawCapacity minuteCapacity quarterCapacity = .ok lay)
    (hopen : Storage.open lay raw minute quarter (Volume.ofBytes evs) = .ok storage)
    (hmgr : ManagerSys.open storage = .ok s₀) :
    Serves (max lay.raw.capacity 2) s₀.manager s₀.storage := by
  obtain ⟨rawLayout, hr, hlay⟩ := bind_ok_iff.mp hlay
  obtain ⟨minuteLayout, hm, hlay⟩ := bind_ok_iff.mp hlay
  obtain ⟨quarterLayout, hq, hlay⟩ := bind_ok_iff.mp hlay
  cases hlay
  obtain ⟨rawRing, hraw, hopen⟩ := bind_ok_iff.mp hopen
  obtain ⟨minuteRing, hmnt, hopen⟩ := bind_ok_iff.mp hopen
  obtain ⟨quarterRing, hqua, hopen⟩ := bind_ok_iff.mp hopen
  obtain ⟨⟨j, extended⟩, hjnl, hopen⟩ := bind_ok_iff.mp hopen
  obtain ⟨next, hnx, hopen⟩ := bind_ok_iff.mp hopen
  obtain ⟨minuteRollup, hmin, hopen⟩ := bind_ok_iff.mp hopen
  obtain ⟨quarterRollup, hqrt, hopen⟩ := bind_ok_iff.mp hopen
  cases hopen
  obtain ⟨mgr, hnew, hmgr⟩ := bind_ok_iff.mp hmgr
  cases hmgr
  rw [Volume.view_ofBytes] at hjnl
  obtain ⟨hL, -, hext, ⟨log, hhd⟩, hmem⟩ := holds_of_withFile hjnl
  unfold ManagerState.new at hnew
  split_ifs at hnew with hzero
  cases hnew
  refine ⟨⟨Ring.valid_of_withFile hr hraw, Ring.valid_of_withFile hm hmnt,
    Ring.valid_of_withFile hq hqua⟩, by omega, ⟨log, hmem log hhd, ?_⟩, rfl, Nat.pos_of_ne_zero hzero⟩
  have hfile : (extendFile (Volume.ofBytes evs) extended.length).view =
      evs ++ replicate (extended.length - evs.length) 0 := rfl
  rw [← hext] at hfile
  change Holds _ log (extendFile (Volume.ofBytes evs) extended.length).view
  rwa [hfile]

/-- A tick, as its weakest precondition says. -/
theorem ManagerSys.step_post (thr : SafetyThresholds) (h : Serves L s.manager s.storage)
    (hord : s.HasOrdinals) (hspa : answers.Spares) :
    ∃ t res, s.step thr answers = some (t, res) ∧ Serves L t.manager t.storage ∧
      (answers.Succeed s.manager → s.manager.nextSequence + 1 < u64Bound →
        ∃ tick, res = .ok tick) := by
  have hpost := Serves.tick thr (t := (s.manager, (⟨s.storage, 0⟩ : TickWorld))) h hord hspa
  unfold Call.Post at hpost
  unfold ManagerSys.step
  generalize tick thr answers.providers (s.manager, ⟨s.storage, 0⟩) = out at hpost ⊢
  rcases out with ⟨e | tick, u⟩
  · exact ⟨_, _, rfl, hpost.2, fun hsuc hroom => absurd (hpost.1 hsuc) (not_le.mpr hroom)⟩
  · exact ⟨_, _, rfl, hpost, fun _ _ => ⟨tick, rfl⟩⟩

/-! ### Ticks that fail -/

def healthyAnswers (sample : Sample) (observations : List ProtectionObservation) : Answers where
  sample := .ok sample
  observations := .ok observations
  acknowledge _ := .ok ()
  latch _ := .ok ()
  contain _ := .ok true
  sampleFault := none
  eventFault _ := none
  flushFault _ := none

/-- Another sample of the first number, taken a second later. -/
def freshSample : Sample := ⟨1, 2000, 2, {}, unknownTelemetry_cores_le⟩

def disarmedEngine : ProtectedEngine :=
  ⟨replicate 32 48, .disarmed, text "engine", none, none, none, none, none,
    isLowerHex_zeroGeneration, safeToken_engine, by simp, by simp, by simp, by simp, by simp, by decide⟩

def observationsFail : Answers :=
  { healthyAnswers firstSample [] with observations := .error .stateUnavailable }

/-- The acknowledgement of a disarmed placement cannot be written. -/
def acknowledgementFails : Answers :=
  { healthyAnswers firstSample [⟨disarmedEngine, .exited, {}, false⟩] with
    acknowledge := fun _ => .error .stateUnavailable }

def someThresholds : SafetyThresholds := ⟨1, 1⟩

theorem healthyAnswers_succeed (hord : inOrder mgr smp) : (healthyAnswers smp []).Succeed mgr :=
  ⟨⟨fun _ => rfl, fun _ => rfl, fun _ => rfl, fun _ => rfl⟩, ⟨smp, rfl, hord⟩,
    ⟨[], rfl, by decide⟩, rfl⟩

/-- A run over new files of one slot each, computed by `exec`, with what a check says of it. -/
theorem exists_manager_run (labels : List Answers)
    (P : List (ManagerSys × Answers × Except WatchdogError Tick) → ManagerSys → Prop)
    [∀ tr s, Decidable (P tr s)] (h : ((StorageLayout.new 1 1 1).toOption.any fun lay =>
      (Storage.open lay [] [] [] (Volume.ofBytes [])).toOption.any fun storage =>
        (ManagerSys.open storage).toOption.any fun s₀ =>
          (exec (ManagerSys.step someThresholds) s₀ labels).any fun r => P r.1 r.2) = true) :
    ∃ lay storage s₀ tr s, StorageLayout.new 1 1 1 = .ok lay ∧ Storage.open lay [] [] []
      (Volume.ofBytes []) = .ok storage ∧ ManagerSys.open storage = .ok s₀ ∧ Run
      (ManagerSys.step someThresholds) s₀ tr s ∧ P tr s := by
  obtain ⟨lay, hlay, h⟩ := (Option.any_eq_true _ _).mp h
  obtain ⟨storage, hopen, h⟩ := (Option.any_eq_true _ _).mp h
  obtain ⟨s₀, hmgr, h⟩ := (Option.any_eq_true _ _).mp h
  obtain ⟨tr, s, hrun, hP⟩ := Run.exists_of_exec _ _ _ P h
  exact ⟨lay, storage, s₀, tr, s, toOption_eq_some.mp hlay, toOption_eq_some.mp hopen,
    toOption_eq_some.mp hmgr, hrun, hP⟩

/-- CONTINUES: after every run whose ticks fail at most before their sample is accepted, a tick in
    which nothing fails succeeds. -/
theorem spared_run_continues {tr : List (ManagerSys × Answers × Except WatchdogError Tick)}
    (hlayout : StorageLayout.new rawCapacity minuteCapacity quarterCapacity = .ok lay)
    (hopen : Storage.open lay raw minute quarter (Volume.ofBytes evs) = .ok storage)
    (hmanager : ManagerSys.open storage = .ok s₀) (hrun : Run (ManagerSys.step thr) s₀ tr s)
    (hspared : ∀ e ∈ tr, e.1.HasOrdinals ∧ e.2.1.Spares)
    (hroom : s.HasOrdinals ∧ s.manager.nextSequence + 1 < u64Bound)
    (hsucceed : answers.Succeed s.manager) : ∃ t tick, s.step thr answers = some (t, .ok tick) := by
  have hser := hrun.invariant_of (fun s answers => s.HasOrdinals ∧ answers.Spares)
    (fun s => Serves (max lay.raw.capacity 2) s.manager s.storage)
    (serves_open hlayout hopen hmanager) hspared (by
      intro s answers t res h hspa hst
      obtain ⟨t', res', hst', hser, -⟩ :=
        ManagerSys.step_post thr h hspa.1 hspa.2
      cases hst.symm.trans hst'
      exact hser)
  obtain ⟨t, res, hst, -, hok⟩ :=
    ManagerSys.step_post thr hser hroom.1 hsucceed.toSpares
  obtain ⟨tick, rfl⟩ := hok hsucceed hroom.2
  exact ⟨t, tick, hst⟩

/-- A tick whose observations fail, and then one in which nothing fails. -/
theorem spared_run_continues_after_observations : ∃ layout storage s₀ tr s,
    StorageLayout.new 1 1 1 = .ok layout ∧ Storage.open layout [] [] []
    (Volume.ofBytes []) = .ok storage ∧ ManagerSys.open storage = .ok s₀ ∧ Run
    (ManagerSys.step someThresholds) s₀ tr s ∧ tr.map (·.2.2) = [.error .stateUnavailable] ∧
    (∀ e ∈ tr, e.1.HasOrdinals ∧ e.2.1.Spares) ∧
    (s.HasOrdinals ∧ s.manager.nextSequence + 1 < u64Bound) ∧
    (healthyAnswers freshSample []).Succeed s.manager ∧ ∃ t tick, s.step someThresholds
    (healthyAnswers freshSample []) = some (t, .ok tick) := by
  obtain ⟨layout, storage, s₀, tr, s, hlay, hopen, hmgr, hrun, rfl, hord, hany⟩ :=
    exists_manager_run [] (fun tr s => tr = [] ∧
      s.storage.events.nextOrdinal + maximumWatchdogTargets < u64Bound ∧
      (s.step someThresholds observationsFail).any fun r : ManagerSys × Except WatchdogError Tick =>
        decide (r.2 = .error .stateUnavailable ∧
          (r.1.storage.events.nextOrdinal + maximumWatchdogTargets < u64Bound ∧
            r.1.manager.nextSequence + 1 < u64Bound) ∧ inOrder r.1.manager freshSample = true))
      (by decide +kernel)
  obtain ⟨⟨t, res⟩, hst, haft⟩ := (Option.any_eq_true _ _).mp hany
  obtain ⟨rfl, hroom, horr⟩ := of_decide_eq_true haft
  have hspr : observationsFail.Spares := ⟨fun _ => rfl, fun _ => rfl, fun _ => rfl, fun _ => rfl⟩
  have hspa : ∀ e ∈ ([] ++ [(s, observationsFail, .error .stateUnavailable)] :
      List (ManagerSys × Answers × Except WatchdogError Tick)),
      e.1.HasOrdinals ∧ e.2.1.Spares := by
    intro e he
    obtain rfl := mem_singleton.mp he
    exact ⟨hord, hspr⟩
  have hsuc := healthyAnswers_succeed horr
  exact ⟨layout, storage, s₀, _, t, hlay, hopen, hmgr, hrun.snoc hst, rfl, hspa, hroom,
    hsuc, spared_run_continues hlay hopen hmgr (hrun.snoc hst) hspa hroom hsuc⟩

/-- A tick whose acknowledgement fails makes the next tick fail, though nothing fails in it. -/
theorem failed_acknowledgement_blocks_next_tick : ∃ layout storage s₀ tr s t,
    StorageLayout.new 1 1 1 = .ok layout ∧ Storage.open layout [] [] []
    (Volume.ofBytes []) = .ok storage ∧ ManagerSys.open storage = .ok s₀ ∧ Run
    (ManagerSys.step someThresholds) s₀ tr s ∧ tr.map (·.2.2) = [.error .stateUnavailable] ∧
    (s.HasOrdinals ∧ s.manager.nextSequence + 1 < u64Bound) ∧
    (healthyAnswers freshSample []).Succeed s.manager ∧ s.step someThresholds
    (healthyAnswers freshSample []) = some (t, .error replayConflict) := by
  obtain ⟨layout, storage, s₀, tr, s, hlay, hopen, hmgr, hrun, hlbs, hroom, hord,
    hst⟩ := exists_manager_run
    [acknowledgementFails] (fun tr s => tr.map (·.2.2) = [.error .stateUnavailable] ∧
      (s.storage.events.nextOrdinal + maximumWatchdogTargets < u64Bound ∧
        s.manager.nextSequence + 1 < u64Bound) ∧ inOrder s.manager freshSample = true ∧
      (s.step someThresholds (healthyAnswers freshSample [])).map (·.2) =
        some (.error replayConflict))
    (by decide +kernel)
  obtain ⟨⟨t, res⟩, hmove, rfl⟩ := Option.map_eq_some_iff.mp hst
  exact ⟨layout, storage, s₀, tr, s, t, hlay, hopen, hmgr, hrun, hlbs, hroom,
    healthyAnswers_succeed hord, hmove⟩

end Runs

end LetsInfer.Watchdog
