import LetsInfer.Watchdog.Contract
import LetsInfer.Schemes.Calls
import LetsInfer.Schemes.Tables

/-! @src core/watchdog/src/li_watchdog_manager.rs | name:Watchdog manager | scheme:control-loop

    One tick of the resident manager: it asks for the next sample and for the protected placements,
    records the sample, judges every placement, latches and contains those that trip, and only then
    advances its sequence number. It reaches everything else through provider traits, which are a
    record of calls on some world here. A call that fails ends the tick at that point, with whatever
    the manager and the world had changed by then. -/

namespace LetsInfer.Watchdog
open Schemes

structure ManagerState where
  nextSequence : ℕ
  lastUnixMilliseconds : UInt64
  lastMonotonicMilliseconds : UInt64
  warnings : Table Text Bool
  deriving DecidableEq

/-- The sample, protection and storage providers of a manager. -/
structure Providers (ω : Type) where
  sample : ℕ → Call WatchdogError ω Sample
  observations : Sample → Call WatchdogError ω (List ProtectionObservation)
  acknowledgeDisarmed : ProtectedEngine → Call WatchdogError ω Unit
  latchTrip : ProtectedEngine → SafetyAction → String → SafetyInput → Call WatchdogError ω Unit
  contain : ProtectedEngine → SafetyAction → UInt32 → Call WatchdogError ω Bool
  recordSample : Sample → Call WatchdogError ω Unit
  recordEvent : SafetyEvent → Call WatchdogError ω Unit
  flush : Call WatchdogError ω Unit

/-- The armed, running and untripped targets of one complete tick. -/
structure ProtectionCycle where
  sampleSequence : UInt64
  observedAtUnixMilliseconds : UInt64
  observedAtMonotonicMilliseconds : UInt64
  targets : List ProtectedEngine
  deriving DecidableEq

def ProtectionCycle.completed (sample : Sample) (observations : List ProtectionObservation)
    (events : List SafetyEvent) : ProtectionCycle where
  sampleSequence := sample.sequence
  observedAtUnixMilliseconds := sample.unixMilliseconds
  observedAtMonotonicMilliseconds := sample.monotonicMilliseconds
  targets := (observations.filter fun observation =>
    observation.target.phase = .armed ∧ observation.processState = .running ∧
      !observation.tripLatched ∧ !events.any fun event =>
        event.generation = observation.target.generation ∧ event.action.isSome).map (·.target)

structure Tick where
  sample : Sample
  events : List SafetyEvent
  activeTargets : ℕ
  protectionCycle : ProtectionCycle
  deriving DecidableEq

structure Trip where
  observation : ProtectionObservation
  action : SafetyAction
  reason : String
  deriving DecidableEq

/-- Only an exit or an observed OOM kill trips. -/
def safetyDecision (observation : ProtectionObservation) : Option (SafetyAction × String) :=
  if observation.processState = .exited then some (.stop, "protected_process_exited")
  else if observation.safety.cgroupOomKillDelta ≠ 0 ∨
      observation.safety.cgroupOomGroupKillDelta ≠ 0 then
    some (.kill, "cgroup_oom_kill")
  else none

def sampleOrderError : WatchdogError :=
  .invalidContract "Watchdog sample is stale or out of order"

def inOrder (state : ManagerState) (sample : Sample) : Bool :=
  sample.sequence.toNat = state.nextSequence ∧
    state.lastUnixMilliseconds ≤ sample.unixMilliseconds ∧
    state.lastMonotonicMilliseconds < sample.monotonicMilliseconds

def observationsError : WatchdogError :=
  .invalidContract "protected placement observations are duplicated or exceed their bound"

def sortObservations (observations : List ProtectionObservation) : List ProtectionObservation :=
  observations.insertionSort fun left right => left.target.generation ≤ right.target.generation

/-- Few enough observations, of distinct generations. -/
def areBounded (observations : List ProtectionObservation) : Bool :=
  observations.length ≤ maximumWatchdogTargets ∧
    (observations.map (·.target.generation)).dedup.length = observations.length

def ManagerState.new (nextSequence : ℕ) : Except WatchdogError ManagerState :=
  if nextSequence = 0 then .error (.invalidContract "Watchdog storage returned a zero sequence")
  else .ok ⟨nextSequence, 0, 0, ∅⟩

section Ticks

variable {ω : Type} (thresholds : SafetyThresholds) (providers : Providers ω)

/-- A call of the manager on its own state and the world. -/
abbrev ManagerCall (ω α : Type) := Call WatchdogError (ManagerState × ω) α

def changeWarnings (f : Table Text Bool → Table Text Bool) : ManagerCall ω Unit :=
  .left (.modify fun state => { state with warnings := f state.warnings })

/-- A tick up to its sample and its observations. -/
def observe : ManagerCall ω (Sample × List ProtectionObservation) := do
  let state ← Call.left Call.get
  let sample ← Call.right (providers.sample state.nextSequence)
  Call.check (inOrder state sample) sampleOrderError
  let observations ← Call.right (providers.observations sample)
  Call.check (areBounded (sortObservations observations)) observationsError
  return (sample, sortObservations observations)

def warningOf (sample : Sample) (target : ProtectedEngine) : SafetyEvent :=
  ⟨"protection.warning", "host_memory_warning", 1, target.generation, sample.sequence, none, none⟩

/-- A placement with a process: it trips, or it may be warned about. -/
def judgeActive (sample : Sample) (found : List SafetyEvent × List Trip)
    (observation : ProtectionObservation) : ManagerCall ω (List SafetyEvent × List Trip) := do
  let target := observation.target
  if observation.tripLatched then return found
  else match safetyDecision observation with
    | some (action, reason) => return (found.1, found.2 ++ [⟨observation, action, reason⟩])
    | none =>
      let warning := decide (observation.safety.availableBytes ≤ thresholds.warningAvailableBytes)
      let state ← Call.left Call.get
      let wasWarning := (state.warnings.lookup target.generation).getD false
      if warning && !wasWarning then
        Call.right (providers.recordEvent (warningOf sample target))
        changeWarnings (·.insert target.generation warning)
        return (found.1 ++ [warningOf sample target], found.2)
      else
        changeWarnings (·.insert target.generation warning)
        return found

/-- What the tick does about one observation; it collects the events and the trips. -/
def judge (sample : Sample) (found : List SafetyEvent × List Trip)
    (observation : ProtectionObservation) : ManagerCall ω (List SafetyEvent × List Trip) := do
  let target := observation.target
  match target.phase with
  | .disarmed =>
    Call.right (providers.acknowledgeDisarmed target)
    changeWarnings (·.erase target.generation)
    return found
  | .pending =>
    changeWarnings (·.erase target.generation)
    return found
  | .starting | .armed => judgeActive thresholds providers sample found observation

def tripEvent (sample : Sample) (trip : Trip) (containmentComplete : Bool) : SafetyEvent :=
  ⟨if trip.reason = "protected_process_exited" then "engine.exit" else "protection.trip",
    trip.reason, if trip.action = .kill then 3 else 2, trip.observation.target.generation,
    sample.sequence, some trip.action, some containmentComplete⟩

/-- Latches one trip and then contains its target. -/
def contain (sample : Sample) (events : List SafetyEvent) (trip : Trip) :
    ManagerCall ω (List SafetyEvent) := do
  let target := trip.observation.target
  Call.right (providers.latchTrip target trip.action trip.reason trip.observation.safety)
  let containmentComplete ← Call.right ((providers.contain target trip.action
    thresholds.containmentGraceMilliseconds).orDefault false)
  let event := tripEvent sample trip containmentComplete
  Call.right (providers.recordEvent event)
  changeWarnings (·.erase target.generation)
  return events ++ [event]

/-- The end of a complete tick. -/
def advance (sample : Sample) : ManagerCall ω Unit := do
  let state ← Call.left Call.get
  Call.check (state.nextSequence + 1 < u64Bound) (.invalidContract "Watchdog sequence overflowed")
  Call.left (.modify fun state => { state with
    nextSequence := state.nextSequence + 1
    lastUnixMilliseconds := sample.unixMilliseconds
    lastMonotonicMilliseconds := sample.monotonicMilliseconds })

/-- A tick from its recorded sample on. -/
def protect (sample : Sample) (observations : List ProtectionObservation) :
    ManagerCall ω Tick := do
  let found ← observations.foldlM (judge thresholds providers sample) ([], [])
  Call.onlyIf (!found.2.isEmpty) (.right providers.flush)
  let events ← found.2.foldlM (contain thresholds providers sample) found.1
  Call.onlyIf (events.any (·.action.isSome)) (.right providers.flush)
  advance sample
  return ⟨sample, events, observations.length,
    ProtectionCycle.completed sample observations events⟩

def tick : ManagerCall ω Tick := do
  let observed ← observe providers
  Call.right (providers.recordSample observed.1)
  protect thresholds providers observed.1 observed.2

end Ticks

/-- The observation trips: it is active, its trip is not latched, and it is decided on. -/
def Trips (observation : ProtectionObservation) : Prop :=
  observation.target.phase.isProcessBound ∧ observation.tripLatched = false ∧
    ∃ action reason, safetyDecision observation = some (action, reason)

section Judging

variable {ω : Type} {thr : SafetyThresholds} {ps : Providers ω} {smp : Sample}
  {found : List SafetyEvent × List Trip} {observation : ProtectionObservation}
  {s : ManagerState × ω} {Q : List SafetyEvent × List Trip → ManagerState × ω → Prop}
  {E : WatchdogError → ManagerState × ω → Prop}

/-- RULE: an observation adds its trip to those found, or it is acknowledged, warned about or passed
    over, and only the warnings of the manager change. -/
theorem judge_post
    (htrip : ∀ act reason, Trips observation → safetyDecision observation = some (act, reason) →
      Q (found.1, found.2 ++ [⟨observation, act, reason⟩]) s)
    (hack : ¬Trips observation → observation.target.phase = .disarmed →
      (ps.acknowledgeDisarmed observation.target).Post s.2
        (fun _ w => ∀ warnings, Q found ({ s.1 with warnings }, w)) fun e w => E e (s.1, w))
    (hwarn : ¬Trips observation → (ps.recordEvent (warningOf smp observation.target)).Post
      s.2 (fun _ w => ∀ warnings,
        Q (found.1 ++ [warningOf smp observation.target], found.2) ({ s.1 with warnings }, w))
      fun e w => E e (s.1, w))
    (hskip : ¬Trips observation → ∀ warnings, Q found ({ s.1 with warnings }, s.2)) :
    (judge thr ps smp found observation).Post s Q E := by
  have hact : observation.target.phase.isProcessBound = true →
      (judgeActive thr ps smp found observation).Post s Q E := by
    intro hbd
    refine .ite (fun hltd => .pure ?_) fun hltd => ?_
    · exact hskip (fun htri => by simp [htri.2.1] at hltd) s.1.warnings
    · cases hdcn : safetyDecision observation with
      | some decision =>
        exact .pure (htrip _ _ ⟨hbd, by simpa using hltd, _, _, hdcn⟩ hdcn)
      | none =>
        have hno : ¬Trips observation := by
          rintro ⟨-, -, act, reason, hsome⟩
          cases hdcn.symm.trans hsome
        refine .bind (.left (.get (.ite (fun _ => .bind (.right ?_)) fun _ => ?_)))
        · exact (hwarn hno).mono (fun _ _ h => .bind (.left (.modify (.pure (h _))))) fun _ _ h => h
        · exact .bind (.left (.modify (.pure (hskip hno _))))
  have hunb : observation.target.phase.isProcessBound = false → ¬Trips observation :=
    fun hno htri => Bool.false_ne_true (hno.symm.trans htri.1)
  cases hph : observation.target.phase with
  | disarmed =>
    simp only [judge, hph]
    refine .bind (.right ((hack (hunb (by rw [hph]; rfl)) hph).mono
      (fun _ _ h => ?_) fun _ _ h => h))
    exact .bind (.left (.modify (.pure (h _))))
  | pending =>
    simp only [judge, hph]
    exact .bind (.left (.modify (.pure (hskip (hunb (by rw [hph]; rfl)) _))))
  | starting | armed => simpa only [judge, hph] using hact (by rw [hph]; rfl)

end Judging

section Passes

variable {ω : Type} {thr : SafetyThresholds} {ps : Providers ω} {smp : Sample}
  {s : ManagerState × ω} {E : WatchdogError → ManagerState × ω → Prop}

/-- RULE: a trip is latched, contained one way or the other, and recorded. -/
theorem contain_post {trip : Trip} {evs : List SafetyEvent} {P : ω → Prop}
    {Q : List SafetyEvent → ManagerState × ω → Prop}
    (hlat : (ps.latchTrip trip.observation.target trip.action trip.reason
      trip.observation.safety).Post s.2 (fun _ w => (ps.contain trip.observation.target
        trip.action thr.containmentGraceMilliseconds).Post w (fun _ => P) fun _ => P)
      fun e w => E e (s.1, w))
    (hrec : ∀ complete w, P w → (ps.recordEvent (tripEvent smp trip complete)).Post w
      (fun _ u => ∀ warnings, Q (evs ++ [tripEvent smp trip complete])
        ({ s.1 with warnings }, u)) fun e u => E e (s.1, u)) :
    (contain thr ps smp evs trip).Post s Q E := by
  refine .bind (.right (hlat.mono (fun _ w hw => .bind (.right (.orDefault ?_))) fun _ _ h => h))
  have hnx : ∀ complete u, P u → Call.Post (do
      Call.right (ps.recordEvent (tripEvent smp trip complete))
      changeWarnings (·.erase trip.observation.target.generation)
      return evs ++ [tripEvent smp trip complete] : ManagerCall ω _) (s.1, u) Q E :=
    fun complete u hu => .bind (.right ((hrec complete u hu).mono
      (fun _ _ h => .bind (.left (.modify (.pure (h _))))) fun _ _ h => h))
  exact hw.mono (fun complete u hu => hnx complete u hu) fun _ u hu => hnx false u hu

/-- RULE: one invariant for each pass, and what the last flush and the advance make of them. -/
theorem protect_post {obs : List ProtectionObservation}
    (J : List ProtectionObservation → List SafetyEvent × List Trip → ManagerState × ω → Prop)
    (C : List Trip → List SafetyEvent → ManagerState × ω → Prop) {F R : ManagerState × ω → Prop}
    (hjud : ∀ observation rest found t, J (observation :: rest) found t →
      (judge thr ps smp found observation).Post t (J rest) E) (hflu : ∀ found t, J [] found t →
      (Call.onlyIf (!found.2.isEmpty) (.right ps.flush)).Post t
        (fun _ => C found.2 found.1) E) (hcon : ∀ trip rest evs t, C (trip :: rest) evs t →
      (contain thr ps smp evs trip).Post t (C rest) E) (hlast : ∀ evs t, C [] evs t →
      (Call.onlyIf (evs.any (·.action.isSome)) (.right ps.flush)).Post t (fun _ => F) E)
    (hadv : ∀ t, F t → (advance smp).Post t (fun _ => R) E) (h : J obs ([], []) s) :
    (protect thr ps smp obs).Post s (fun _ => R) E := by
  refine .seq (.foldlM J hjud h) fun found t ht => .seq (hflu found t ht) fun _ u hu => ?_
  refine .seq (.foldlM C hcon hu) fun evs v hv => .seq (hlast evs v hv) fun _ w hw => ?_
  exact .seq (hadv w hw) fun _ _ hx => .pure hx

end Passes

/-! ### What the providers keep -/

section Keeps

variable {ω : Type} {thr : SafetyThresholds} {ps : Providers ω} {P : ω → Prop}

/-- The calls that a tick makes after its observations keep `P`. -/
structure Providers.Keep (providers : Providers ω) (P : ω → Prop) : Prop where
  acknowledgeDisarmed : ∀ target, (providers.acknowledgeDisarmed target).Keeps P
  latchTrip : ∀ target action reason input, (providers.latchTrip target action reason input).Keeps P
  contain : ∀ target action grace, (providers.contain target action grace).Keeps P
  recordSample : ∀ sample, (providers.recordSample sample).Keeps P
  recordEvent : ∀ event, (providers.recordEvent event).Keeps P
  flush : providers.flush.Keeps P

theorem Providers.Keep.judge (h : ps.Keep P) (smp : Sample)
    (found : List SafetyEvent × List Trip) (observation : ProtectionObservation) :
    (judge thr ps smp found observation).Keeps fun s => P s.2 := by
  intro s hs
  refine judge_post (fun _ _ _ _ => hs) (fun _ _ => ?_) (fun _ => ?_) fun _ _ => hs
  · exact (h.acknowledgeDisarmed _ _ hs).mono (fun _ _ hw _ => hw) fun _ _ hw => hw
  · exact (h.recordEvent _ _ hs).mono (fun _ _ hw _ => hw) fun _ _ hw => hw

theorem Providers.Keep.protect (h : ps.Keep P) (smp : Sample) (obs : List ProtectionObservation) :
    (protect thr ps smp obs).Keeps fun s => P s.2 := by
  intro s hs
  refine protect_post (fun _ _ t => P t.2) (fun _ _ t => P t.2)
    (fun _ _ _ t ht => h.judge _ _ _ t ht)
    (fun _ t ht => Call.Keeps.onlyIf (.right h.flush) t ht) (fun _ _ _ t ht => ?_)
    (fun _ t ht => Call.Keeps.onlyIf (.right h.flush) t ht) (fun t ht => ?_) hs
  · refine contain_post (P := P) ((h.latchTrip _ _ _ _ _ ht).mono (fun _ w hw => ?_) fun _ _ h => h)
      fun _ w hw => (h.recordEvent _ w hw).mono (fun _ _ hu _ => hu) fun _ _ h => h
    exact h.contain _ _ _ w hw
  · exact Call.Keeps.bind .left (fun _ => .bind .check fun _ => .left) t ht

/-- What a tick keeps: everything but its observations is covered by `Keep`. -/
theorem Providers.Keep.tick (h : ps.Keep P) (hsmp : ∀ seq, (ps.sample seq).Keeps P)
    (hobs : ∀ smp, (ps.observations smp).Keeps P) : (tick thr ps).Keeps fun s => P s.2 := by
  refine .bind ?_ fun obs => .bind (.right (h.recordSample _)) fun _ => h.protect _ _
  refine .bind .left fun _ => .bind (.right (hsmp _)) fun _ => .bind .check fun _ => ?_
  exact .bind (.right (hobs _)) fun _ => .bind .check fun _ => .pure

end Keeps

end LetsInfer.Watchdog
