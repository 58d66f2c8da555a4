import LetsInfer.Watchdog.Protection
import LetsInfer.Schemes.Runs

/-! @src core/watchdog/src/li_watchdog_manager.rs | name:Observed OOM kills | scheme:invariant

    The manager over the Linux protection provider. The provider reports how far the kill counters
    of a placement's cgroup rose since it last looked, and forgets the old counters as soon as it
    has looked. A placement whose descriptor did not change is tripped in the very tick that sees
    its counter rise, if no later call of that tick fails. If one does, the rise is gone: the next
    tick compares with the counters that the failed tick committed. -/

namespace LetsInfer.Watchdog
open Schemes List

/-! ### The manager over the provider -/

/-- What everything outside of the manager and the provider answers during one tick. -/
structure GuardInput where
  sample : Except WatchdogError Sample
  kernel : Kernel
  recordSample : Except WatchdogError Unit
  recordEvent : SafetyEvent → Except WatchdogError Unit
  flush : ℕ → Except WatchdogError Unit

/-- The slots of the provider; beside them, the counters of the last successful observation of each
    generation, the targets latched in this tick and the number of its flushes. -/
structure GuardWorld where
  slots : ProtectionSlots
  seen : Text → Option (Text × CgroupEvents)
  latched : List ProtectedEngine
  flushes : ℕ

/-- The generation, the cgroup and the counters of an active slot that was observed. -/
def readingOf (kernel : Kernel) (entry : Text × ProtectionSlot) :
    Option (Text × Text × CgroupEvents) :=
  match entry.2.target.cgroup with
  | some cgroup => (kernel.cgroupEvents entry.1 cgroup).toOption.map fun events =>
      (entry.2.target.generation, cgroup, events)
  | none => none

/-- The last counters of every generation, after the slots were observed once more. -/
def noteReadings (kernel : Kernel) (slots : ProtectionSlots)
    (seen : Text → Option (Text × CgroupEvents)) (generation : Text) :
    Option (Text × CgroupEvents) :=
  match (slots.filterMap (readingOf kernel)).find? fun reading => reading.1 = generation with
  | some reading => some reading.2
  | none => seen generation

def GuardInput.providers (input : GuardInput) : Providers GuardWorld where
  sample _ := .answer input.sample
  observations _ := fun w =>
    match observations input.kernel w.slots with
    | .ok (slots, observed) =>
      (.ok observed, { w with slots := slots, seen := noteReadings input.kernel slots w.seen })
    | .error e => (.error e, w)
  acknowledgeDisarmed target := fun w => (acknowledgeDisarmed input.kernel w.slots target, w)
  latchTrip target _ reason _ := fun w =>
    match latchTrip input.kernel w.slots target reason with
    | .ok () => (.ok (), { w with latched := target :: w.latched })
    | .error e => (.error e, w)
  contain target _ grace := fun w => (containTarget input.kernel w.slots target grace, w)
  recordSample _ := .answer input.recordSample
  recordEvent event := .answer (input.recordEvent event)
  flush := fun w => (input.flush w.flushes, { w with flushes := w.flushes + 1 })

structure GuardSys where
  manager : ManagerState
  slots : ProtectionSlots
  seen : Text → Option (Text × CgroupEvents)

/-- A manager that has just been started over a new provider. -/
def GuardSys.start (nextSequence : ℕ) : Except WatchdogError GuardSys := do
  let manager ← ManagerState.new nextSequence
  return ⟨manager, [], fun _ => none⟩

structure GuardOutput where
  result : Except WatchdogError Tick
  latched : List ProtectedEngine
  deriving DecidableEq

def GuardSys.step (thresholds : SafetyThresholds) (s : GuardSys) (input : GuardInput) :
    Option (GuardSys × GuardOutput) :=
  let outcome := tick thresholds input.providers (s.manager, ⟨s.slots, s.seen, [], 0⟩)
  some (⟨outcome.2.1, outcome.2.2.slots, outcome.2.2.seen⟩, ⟨outcome.1, outcome.2.2.latched⟩)

/-- No call fails that the tick makes after its observations. -/
structure GuardInput.Spares (input : GuardInput) : Prop where
  sample : input.recordSample = .ok ()
  event : ∀ event, input.recordEvent event = .ok ()
  flush : ∀ count, input.flush count = .ok ()
  disarmed : ∀ key, input.kernel.writeDisarmed key = .ok ()
  trip : ∀ key, input.kernel.writeTrip key = .ok ()

variable {slots : ProtectionSlots} {observed : List ProtectionObservation}
  {thr : SafetyThresholds} {inp : GuardInput} {s t : GuardSys} {output : GuardOutput}
  {obs : ProtectionObservation} {tgt : ProtectedEngine} {key : Text}
  {tr : List (GuardSys × GuardInput × GuardOutput)}

/-! ### The counters of the slots -/

section Baselines

variable {kernel : Kernel} {cur : ProtectionSlots} {seen : Text → Option (Text × CgroupEvents)}

/-- Every active slot has the counters of the last successful observation of its generation. -/
structure Baselines (slots : ProtectionSlots) (seen : Text → Option (Text × CgroupEvents)) :
    Prop where
  ordered : Ordered slots
  distinct : (slots.map (·.2.target.generation)).Nodup
  baseline : ∀ entry ∈ slots, entry.2.target.phase.isProcessBound → ∃ cgroup events,
    entry.2.target.cgroup = some cgroup ∧ entry.2.cgroup = some events ∧
      seen entry.2.target.generation = some (cgroup, events)

theorem validateProtectionSlots_ok (h : validateProtectionSlots slots = .ok ()) :
    slots.length ≤ maximumWatchdogTargets ∧ (slots.map (·.2.target.generation)).Nodup := by
  obtain ⟨hbd, -⟩ := error_if_ok_iff.mp h
  push Not at hbd
  refine ⟨hbd.1, ?_⟩
  have hsame : (slots.map (·.2.target.generation)).dedup = slots.map (·.2.target.generation) :=
    (dedup_sublist _).eq_of_length (by rw [hbd.2, length_map])
  exact hsame ▸ nodup_dedup _

theorem noteReadings_of_mem {e : Text × ProtectionSlot} {cgroup : Text} {evs : CgroupEvents}
    (hdis : (slots.map (·.2.target.generation)).Nodup) (hmem : e ∈ slots)
    (hcg : e.2.target.cgroup = some cgroup) (hevs : kernel.cgroupEvents e.1 cgroup = .ok evs) :
    noteReadings kernel slots seen e.2.target.generation = some (cgroup, evs) := by
  have hrea : readingOf kernel e = some (e.2.target.generation, cgroup, evs) := by
    simp [readingOf, hcg, hevs, Except.toOption]
  have hgen : ∀ (other : Text × ProtectionSlot) reading,
      readingOf kernel other = some reading → reading.1 = other.2.target.generation := by
    intro other reading h
    unfold readingOf at h
    split at h
    · obtain ⟨_, -, rfl⟩ := Option.map_eq_some_iff.mp h
      rfl
    · cases h
  unfold noteReadings
  cases hfind : (slots.filterMap (readingOf kernel)).find?
      fun reading => reading.1 = e.2.target.generation with
  | none =>
    have hmis := find?_eq_none.mp hfind _ (mem_filterMap.mpr ⟨e, hmem, hrea⟩)
    simp at hmis
  | some reading =>
    obtain ⟨other, hoth, hread⟩ := mem_filterMap.mp (mem_of_find?_eq_some hfind)
    have hsame : reading.1 = e.2.target.generation := by simpa using find?_some hfind
    obtain rfl := inj_on_of_nodup_map hdis hoth hmem ((hgen other reading hread).symm.trans hsame)
    cases hread.symm.trans hrea
    rfl

theorem observed_keys {discovered : ProtectionSlots}
    {collected : List ((Text × ProtectionSlot) × ProtectionObservation)}
    (h : List.Forall₂ (Observed kernel) discovered collected) :
    (collected.map (·.1)).map (·.1) = discovered.map (·.1) ∧
      (collected.map (·.1)).map (·.2.target) = discovered.map (·.2.target) := by
  induction h with
  | nil => exact ⟨rfl, rfl⟩
  | cons hen _ ih => simp [hen.key, hen.slot_target, ih.1, ih.2]

/-- STEP: a successful observation leaves every active slot with the counters it just read. -/
theorem Baselines.observe (h : Baselines cur seen)
    (hobv : observations kernel cur = .ok (slots, observed)) :
    Baselines slots (noteReadings kernel slots seen) := by
  obtain ⟨discovered, changed, collected, hdsc, hval, hall, rfl, rfl⟩ :=
    observations_ok hobv
  obtain ⟨hkeys, htar⟩ := observed_keys hall
  have hord := discoveredSlots_ordered h.ordered hdsc
  have hdis : ((collected.map (·.1)).map (·.2.target.generation)).Nodup := by
    have hsame := congrArg (List.map ProtectedEngine.generation) htar
    simp only [map_map, Function.comp_def] at hsame ⊢
    rw [hsame]
    exact (validateProtectionSlots_ok hval).2
  refine ⟨?_, hdis, ?_⟩
  · rw [Ordered, ← pairwise_map (f := Prod.fst) (R := (· < ·))] at hord ⊢
    rwa [hkeys]
  · intro e hen hbd
    obtain ⟨res, hres, rfl⟩ := mem_map.mp hen
    obtain ⟨before, hbef, hobs⟩ := exists_left_of_forall₂ hall hres
    rw [hobs.slot_target] at hbd ⊢
    obtain ⟨cgroup, evs, -, -, hcg, hevs, hctr, -⟩ := hobs.counters hbd
    refine ⟨cgroup, evs, hcg, hctr, ?_⟩
    rw [← hobs.slot_target]
    refine noteReadings_of_mem hdis hen ?_ ?_
    · rw [hobs.slot_target, hcg]
    · rw [hobs.key, hevs]

end Baselines

/-! ### One tick -/

section Tick

variable {w : GuardWorld} {u : ManagerState × GuardWorld}

/-- After its observations, a tick changes neither the slots nor the readings. -/
theorem GuardInput.keep (inp : GuardInput)
    (P : ProtectionSlots → (Text → Option (Text × CgroupEvents)) → Prop) :
    inp.providers.Keep fun w => P w.slots w.seen where
  acknowledgeDisarmed tgt := by
    intro w h
    simp only [Call.Post, GuardInput.providers]
    cases acknowledgeDisarmed inp.kernel w.slots tgt with
    | error e => exact h
    | ok _ => exact h
  latchTrip tgt act reason safety := by
    intro w h
    simp only [Call.Post, GuardInput.providers]
    cases latchTrip inp.kernel w.slots tgt reason with
    | error e => exact h
    | ok _ => exact h
  contain tgt act grace := by
    intro w h
    simp only [Call.Post, GuardInput.providers]
    cases containTarget inp.kernel w.slots tgt grace with
    | error e => exact h
    | ok _ => exact h
  recordSample smp := .answer
  recordEvent ev := .answer
  flush := by
    intro w h
    simp only [Call.Post, GuardInput.providers]
    cases inp.flush w.flushes with
    | error e => exact h
    | ok _ => exact h

/-- STEP: the counters of the slots are those of the last successful observation. -/
theorem Baselines.step (h : Baselines s.slots s.seen)
    (hst : s.step thr inp = some (t, output)) : Baselines t.slots t.seen := by
  have hkps : (tick thr inp.providers).Keeps fun u => Baselines u.2.slots u.2.seen := by
    refine (inp.keep Baselines).tick (fun _ => .answer) fun smp => ?_
    intro w hw
    simp only [Call.Post, GuardInput.providers]
    cases hobv : observations inp.kernel w.slots with
    | error e => exact hw
    | ok found => exact hw.observe hobv
  have hpost := hkps (s.manager, ⟨s.slots, s.seen, [], 0⟩) h
  cases hst
  exact hpost.outcome

/-- A trip whose target has a slot and may be latched. -/
def Trip.IsLatchable (slots : ProtectionSlots) (trip : Trip) : Prop :=
  (∃ entry ∈ slots, entry.2.target = trip.observation.target) ∧
    trip.observation.target.phase.isProcessBound ∧
    (trip.reason = "protected_process_exited" ∨ trip.reason = "cgroup_oom_kill")

variable {act : SafetyAction} {reason : String}

theorem safetyDecision_reason (h : safetyDecision obs = some (act, reason)) :
    reason = "protected_process_exited" ∨ reason = "cgroup_oom_kill" := by
  unfold safetyDecision at h
  split_ifs at h
  · exact .inl (Prod.mk.inj (Option.some.inj h)).2.symm
  · exact .inr (Prod.mk.inj (Option.some.inj h)).2.symm

theorem latchTrip_ok {trip : Trip} (hspa : inp.Spares)
    (hdis : (slots.map (·.2.target.generation)).Nodup) (h : trip.IsLatchable slots) :
    latchTrip inp.kernel slots trip.observation.target trip.reason = .ok () := by
  obtain ⟨⟨e, hen, htgt⟩, hbd, hrea⟩ := h
  have hcon : ¬(trip.observation.target.containerId.isNone = true) := by
    rw [Option.isNone_iff_eq_none, ← Option.not_isSome_iff_eq_none, not_not]
    exact trip.observation.target.process_bound.1.trans hbd
  have hvoc : ¬(trip.reason ≠ "protected_process_exited" ∧ trip.reason ≠ "cgroup_oom_kill") :=
    fun hno => hrea.elim hno.1 hno.2
  have hslot := slotForTarget_ok hdis hen
  rw [htgt] at hslot
  refine throw_if_ok_iff.mpr ⟨hvoc, bind_ok_iff.mpr ⟨e.1, hslot, ?_⟩⟩
  exact throw_if_ok_iff.mpr ⟨hcon, hspa.trip e.1⟩

/-- The state of the tick while it judges: the trip of `observation` is found or still to come. -/
structure Judging (slots : ProtectionSlots) (observation : ProtectionObservation)
    (rest : List ProtectionObservation) (found : List SafetyEvent × List Trip)
    (u : ManagerState × GuardWorld) : Prop where
  kept : u.2.slots = slots
  targets : ∀ other ∈ rest, ∃ entry ∈ slots, entry.2.target = other.target
  latchable : ∀ trip ∈ found.2, trip.IsLatchable slots
  pending : observation ∈ rest ∨ ∃ trip ∈ found.2, trip.observation = observation

section Judging

variable {other : ProtectionObservation} {rest : List ProtectionObservation}
  {found : List SafetyEvent × List Trip} {smp : Sample}

variable {evs : List SafetyEvent}

section

variable (h : Judging slots obs (other :: rest) found u)
include h

/-- An observation that does not trip is done with, and leaves the trips as they are. -/
theorem Judging.skip {v : ManagerState × GuardWorld} (hskip : other ≠ obs)
    (hkept : v.2.slots = u.2.slots) : Judging slots obs rest (evs, found.2) v := by
  refine ⟨hkept.trans h.kept, fun o ho => h.targets o (mem_cons_of_mem _ ho), h.latchable, ?_⟩
  rcases h.pending with hmem | htrip
  · rcases mem_cons.mp hmem with rfl | hmem
    · exact absurd rfl hskip
    · exact .inl hmem
  · exact .inr htrip

theorem Judging.trip
    (hbd : other.target.phase.isProcessBound) (hdcn : safetyDecision other = some (act, reason)) :
    Judging slots obs rest (found.1, found.2 ++ [⟨other, act, reason⟩]) u := by
  refine ⟨h.kept, fun o ho => h.targets o (mem_cons_of_mem _ ho), ?_, ?_⟩
  · intro trip htrip
    rcases mem_snoc.mp htrip with htrip | rfl
    · exact h.latchable trip htrip
    · exact ⟨h.targets other mem_cons_self, hbd, safetyDecision_reason hdcn⟩
  · rcases h.pending with hmem | ⟨trip, htrip, heq⟩
    · rcases mem_cons.mp hmem with rfl | hmem
      · exact .inr ⟨_, mem_concat_self, rfl⟩
      · exact .inl hmem
    · exact .inr ⟨trip, mem_append_left _ htrip, heq⟩

end

theorem acknowledgeDisarmed_ok (hspa : inp.Spares)
    (hdis : (slots.map (·.2.target.generation)).Nodup) (hslot : ∃ e ∈ slots, e.2.target = tgt)
    (hph : tgt.phase = .disarmed) : acknowledgeDisarmed inp.kernel slots tgt = .ok () := by
  obtain ⟨e, hen, rfl⟩ := hslot
  refine throw_if_ok_iff.mpr ⟨not_not.mpr hph, ?_⟩
  exact bind_ok_iff.mpr ⟨e.1, slotForTarget_ok hdis hen, hspa.disarmed _⟩

/-- STEP: judging an observation does not fail, and finds its trip. -/
theorem Judging.judge (hspa : inp.Spares) (hdis : (slots.map (·.2.target.generation)).Nodup)
    (htri : Trips obs) (h : Judging slots obs (other :: rest) found u) :
    (judge thr inp.providers smp found other).Post u
      (Judging slots obs rest) (fun _ _ => False) := by
  have hskip : ¬Trips other → other ≠ obs := by
    rintro hno rfl
    exact hno htri
  refine judge_post (fun _ _ hoth hdcn => h.trip hoth.1 hdcn) (fun hno hph => ?_)
    (fun hno => .answer (fun _ _ _ => h.skip (hskip hno) rfl) fun e he => ?_)
    fun hno _ => h.skip (hskip hno) rfl
  · have hans := acknowledgeDisarmed_ok hspa hdis (h.targets other mem_cons_self) hph
    have hrun : inp.providers.acknowledgeDisarmed other.target u.2 = (.ok (), u.2) := by
      simp only [GuardInput.providers, h.kept, hans]
    exact .of_ok hrun fun _ => h.skip (hskip hno) rfl
  · cases (hspa.event _).symm.trans he

/-- The state of the tick while it contains: the target is latched, or one of its trips is still to
    come. -/
structure Containing (slots : ProtectionSlots) (target : ProtectedEngine) (rest : List Trip)
    (u : ManagerState × GuardWorld) : Prop where
  kept : u.2.slots = slots
  latchable : ∀ trip ∈ rest, trip.IsLatchable slots
  pending : target ∈ u.2.latched ∨ ∃ trip ∈ rest, trip.observation.target = target

/-- STEP: containing a trip does not fail, and latches its target. -/
theorem Containing.contain {trip : Trip} {rest : List Trip} (hspa : inp.Spares)
    (hdis : (slots.map (·.2.target.generation)).Nodup) (h : Containing slots tgt (trip :: rest) u) :
    (contain thr inp.providers smp evs trip).Post u
      (fun _ => Containing slots tgt rest) (fun _ _ => False) := by
  have hlat := latchTrip_ok hspa hdis (h.latchable trip mem_cons_self)
  have hdone : ∀ m : ManagerState, Containing slots tgt rest
      (m, { u.2 with latched := trip.observation.target :: u.2.latched }) := by
    intro m
    refine ⟨h.kept, fun o ho => h.latchable o (mem_cons_of_mem _ ho), ?_⟩
    rcases h.pending with hltd | ⟨other, hoth, rfl⟩
    · exact .inl (mem_cons_of_mem _ hltd)
    · rcases mem_cons.mp hoth with rfl | hoth
      · exact .inl mem_cons_self
      · exact .inr ⟨other, hoth, rfl⟩
  have hrun : inp.providers.latchTrip trip.observation.target trip.action trip.reason
      trip.observation.safety u.2 =
        (.ok (), { u.2 with latched := trip.observation.target :: u.2.latched }) := by
    simp only [GuardInput.providers, h.kept, hlat]
  have hcon : ∀ w : GuardWorld, (inp.providers.contain trip.observation.target trip.action
      thr.containmentGraceMilliseconds).Post w (fun _ v => v = w) fun _ v => v = w := by
    intro w
    simp only [Call.Post, GuardInput.providers]
    cases containTarget inp.kernel w.slots trip.observation.target
      thr.containmentGraceMilliseconds with
    | error e => rfl
    | ok _ => rfl
  refine contain_post (.of_ok hrun (hcon _)) ?_
  rintro complete _ rfl
  refine .answer (fun _ _ warnings => hdone _) fun e he => ?_
  cases (hspa.event _).symm.trans he

/-- RUN: from the recorded sample on, the tick latches the target of an observation that trips,
    even if it fails in the end. -/
theorem protect_latches (hspa : inp.Spares) (hdis : (u.2.slots.map (·.2.target.generation)).Nodup)
    (htri : Trips obs) (htar : ∀ other ∈ observed, ∃ e ∈ u.2.slots, e.2.target = other.target)
    (hmem : obs ∈ observed) :
    (protect thr inp.providers smp observed).Post u
      (fun _ v => obs.target ∈ v.2.latched) fun _ v => obs.target ∈ v.2.latched := by
  have hflu : ∀ w : GuardWorld, inp.providers.flush w =
      (.ok (), { w with flushes := w.flushes + 1 }) := fun w => by
    simp only [GuardInput.providers, hspa.flush]
  have hltd : ∀ v, Containing u.2.slots obs.target [] v → obs.target ∈ v.2.latched := by
    intro v hv
    rcases hv.pending with hltd | ⟨_, hno, -⟩
    · exact hltd
    · cases hno
  refine protect_post (Judging u.2.slots obs) (fun rest _ => Containing u.2.slots obs.target rest)
    (F := fun v => obs.target ∈ v.2.latched)
    (fun _ _ _ _ h => (h.judge hspa hdis htri).mono (fun _ _ h => h) fun _ _ h => h.elim)
    (fun found v h => ?_)
    (fun _ _ _ _ h => (h.contain hspa hdis).mono (fun _ _ h => h) fun _ _ h => h.elim)
    (fun _ v hv => .onlyIf (fun _ => .right (.of_ok (hflu v.2) (hltd v hv))) fun _ => hltd v hv)
    (fun v hv => ?_) ⟨rfl, htar, by simp, .inl hmem⟩
  · have hpen : ∃ trip ∈ found.2, trip.observation.target = obs.target := by
      rcases h.pending with hno | ⟨trip, htrip, rfl⟩
      · cases hno
      · exact ⟨trip, htrip, rfl⟩
    exact .onlyIf (fun _ => .right (.of_ok (hflu v.2) ⟨h.kept, h.latchable, .inr hpen⟩))
      fun _ => ⟨h.kept, h.latchable, .inr hpen⟩
  · exact .bind (.left (.get (.bind (.check (fun _ => .left (.modify hv)) fun _ => hv))))

end Judging

/-- The tick observes the target in the slot of this name, active and not latched, and one of the
    kill counters of its cgroup is above what the last successful observation read. -/
structure KillRises (s : GuardSys) (input : GuardInput) (key : Text) (target : ProtectedEngine) :
    Prop where
  sample : ∃ sample, input.sample = .ok sample ∧ inOrder s.manager sample
  observed : ∃ slots observed slot, observations input.kernel s.slots = .ok (slots, observed) ∧
    (key, slot) ∈ slots ∧ slot.target = target
  active : target.phase.isProcessBound
  unlatched : input.kernel.tripLatched key = .ok false
  rises : ∃ cgroup before now, target.cgroup = some cgroup ∧
    s.seen target.generation = some (cgroup, before) ∧
    input.kernel.cgroupEvents key cgroup = .ok now ∧
    (before.oomKill < now.oomKill ∨ before.oomGroupKill < now.oomGroupKill)

def seesRise (s : GuardSys) (input : GuardInput) (key : Text) (target : ProtectedEngine) : Bool :=
  input.sample.toOption.any (inOrder s.manager) &&
    (observations input.kernel s.slots).toOption.any (fun found =>
      found.1.any fun entry => decide (entry.1 = key ∧ entry.2.target = target)) &&
    target.phase.isProcessBound && decide (input.kernel.tripLatched key = .ok false) &&
    target.cgroup.any fun cgroup => (s.seen target.generation).any fun reading =>
      decide (reading.1 = cgroup) && (input.kernel.cgroupEvents key cgroup).toOption.any fun now =>
        decide (reading.2.oomKill < now.oomKill ∨ reading.2.oomGroupKill < now.oomGroupKill)

theorem KillRises.of_seesRise (h : seesRise s inp key tgt = true) : KillRises s inp key tgt := by
  simp only [seesRise, Bool.and_eq_true, Option.any_eq_true, decide_eq_true_iff,
    toOption_eq_some, any_eq_true] at h
  obtain ⟨⟨⟨⟨⟨smp, hsmp, hord⟩, ⟨slots, observed⟩, hobv, e, hen, hkey, htgt⟩,
    hact⟩, hunl⟩, cgroup, hcg, ⟨path, before⟩, hseen, hpath, now, hnow, hris⟩ := h
  refine ⟨⟨smp, hsmp, hord⟩, ⟨slots, observed, e.2, hobv, ?_, htgt⟩, hact,
    hunl, cgroup, before, now, hcg, hpath ▸ hseen, hnow, hris⟩
  rwa [← hkey]

/-- The provider has observed the target in this slot before, under this very descriptor. -/
def HasSlot (s : GuardSys) (key : Text) (target : ProtectedEngine) : Prop :=
  ∃ slot, (key, slot) ∈ s.slots ∧ slot.target = target

section Rise

section

variable (h : observations inp.kernel s.slots = .ok (slots, observed))
include h

theorem observed_targets : observed.map (·.target) = slots.map (·.2.target) := by
  obtain ⟨discovered, -, collected, -, -, hall, rfl, rfl⟩ := observations_ok h
  rw [(observed_keys hall).2]
  clear h
  induction hall with
  | nil => rfl
  | cons hen _ ih => simp only [map_cons, hen.target, ih]

theorem areBounded_observed : areBounded (sortObservations observed) := by
  obtain ⟨discovered, -, collected, -, hval, hall, rfl, rfl⟩ := observations_ok h
  obtain ⟨hlen, hdis⟩ := validateProtectionSlots_ok hval
  have hperm := perm_insertionSort
    (fun left right : ProtectionObservation => left.target.generation ≤ right.target.generation)
    (collected.map (·.2))
  have hgen : (sortObservations (collected.map (·.2))).map (·.target.generation) |>.Nodup := by
    refine (hperm.map _).nodup_iff.mpr ?_
    have hsame := congrArg (List.map ProtectedEngine.generation)
      ((observed_targets h).trans (observed_keys hall).2)
    simp only [map_map, Function.comp_def] at hsame hdis ⊢
    rwa [hsame]
  have hcnt : (sortObservations (collected.map (·.2))).length = discovered.length := by
    rw [sortObservations, hperm.length_eq, length_map, hall.length_eq]
  simp only [areBounded, dedup_eq_self.mpr hgen, length_map, hcnt, decide_eq_true_iff, and_true]
  exact hlen

end

theorem KillRises.trips (hbase : Baselines s.slots s.seen) (h : KillRises s inp key tgt)
    (hslot : HasSlot s key tgt) (hobv : observations inp.kernel s.slots = .ok (slots, observed)) :
    ∃ obs ∈ observed, obs.target = tgt ∧ Trips obs := by
  obtain ⟨slot, hmem, rfl⟩ := hslot
  obtain ⟨slots', observed', after, hobv', haft, htgt⟩ := h.observed
  cases hobv.symm.trans hobv'
  obtain ⟨discovered, changed, collected, hdis, -, hall, rfl, rfl⟩ := observations_ok hobv
  obtain ⟨res, hres, hen⟩ := mem_map.mp haft
  obtain ⟨e, hin, hobs⟩ := exists_left_of_forall₂ hall hres
  obtain ⟨name, found⟩ := e
  -- the slot that was observed is the one with the counters of the last observation
  have hname : name = key := hobs.key.symm.trans (by rw [hen])
  have hfd : found.target = slot.target := by
    rw [← htgt, ← hobs.slot_target, hen]
  subst hname
  obtain rfl := discoveredSlots_keeps hbase.ordered hmem hdis hin hfd
  obtain ⟨cgroup, before, now, hcg, hseen, hnow, hris⟩ := h.rises
  obtain ⟨cgroup', evs', hcg', hctr, hseen'⟩ := hbase.baseline _ hmem h.active
  cases hseen.symm.trans hseen'
  obtain ⟨path, evs, memory, pressure, hpath, hevs, -, hsaf⟩ := hobs.counters h.active
  cases hcg.symm.trans hpath
  cases hnow.symm.trans hevs
  refine ⟨res.2, mem_map_of_mem hres, hobs.target, ?_, ?_, ?_⟩
  · rw [hobs.target]
    exact h.active
  · exact (Except.ok.inj (h.unlatched.symm.trans hobs.latched)).symm
  · have hdel : res.2.safety.cgroupOomKillDelta ≠ 0 ∨ res.2.safety.cgroupOomGroupKillDelta ≠ 0 := by
      rw [hsaf, (safetyOf_kills hctr).1, (safetyOf_kills hctr).2]
      exact hris.imp monotonicDelta_ne_zero monotonicDelta_ne_zero
    by_cases hexi : res.2.processState = .exited
    · exact ⟨_, _, if_pos hexi⟩
    · exact ⟨_, _, (if_neg hexi).trans (if_pos hdel)⟩

/-- STEP: the tick that sees the counter rise latches the target. -/
theorem KillRises.latches (hbase : Baselines s.slots s.seen) (h : KillRises s inp key tgt)
    (hslot : HasSlot s key tgt) (hspa : inp.Spares)
    (hst : s.step thr inp = some (t, output)) : tgt ∈ output.latched := by
  obtain ⟨smp, hsmp, hord⟩ := h.sample
  obtain ⟨slots, observed, -, hobv, -⟩ := h.observed
  obtain ⟨obs, hmem, rfl, htri⟩ := h.trips hbase hslot hobv
  have hnx := hbase.observe hobv
  have hsor : ∀ other ∈ sortObservations observed, ∃ ent ∈ slots, ent.2.target = other.target := by
    intro other hoth
    have htgt := mem_map_of_mem (f := ProtectionObservation.target) ((mem_insertionSort _).mp hoth)
    rw [observed_targets hobv] at htgt
    exact mem_map.mp htgt
  have hpost : (tick thr inp.providers).Post (s.manager, ⟨s.slots, s.seen, [], 0⟩)
      (fun _ v => obs.target ∈ v.2.latched) fun _ v => obs.target ∈ v.2.latched := by
    have hsam : ∀ w, inp.providers.sample s.manager.nextSequence w = (.ok smp, w) :=
      fun w => by rw [← hsmp]; rfl
    have hobs : ∀ smp, inp.providers.observations smp ⟨s.slots, s.seen, [], 0⟩ =
        (.ok observed, ⟨slots, noteReadings inp.kernel slots s.seen, [], 0⟩) := by
      intro smp
      simp only [GuardInput.providers, hobv]
    refine .bind (.bind (.left (.get (.bind (.right (.of_ok (hsam _) ?_))))))
    refine .bind (.check (fun _ => ?_) fun hno => ?_)
    · refine .bind (.right (.of_ok (hobs _) (.bind (.check (fun _ => .pure ?_) fun hno => ?_))))
      · refine .bind (.right (.answer (fun _ _ => ?_) fun e he => ?_))
        · exact protect_latches hspa hnx.distinct htri hsor ((mem_insertionSort _).mpr hmem)
        · cases hspa.sample.symm.trans he
      · exact absurd (hno.symm.trans (areBounded_observed hobv)) Bool.false_ne_true
    · exact absurd (hno.symm.trans hord) Bool.false_ne_true
  cases hst
  exact hpost.outcome

end Rise

end Tick

/-! ### Runs -/

/-- LATCHED: in every run, a tick that sees a kill counter of an active target rise since its last
    successful observation latches the target, if the provider had the target in its slot already
    and no call fails after the observations. -/
theorem observed_kill_latches {nextSequence : ℕ} {thresholds : SafetyThresholds} {s₀ s s' : GuardSys}
    {tr : List (GuardSys × GuardInput × GuardOutput)} {input : GuardInput} {output : GuardOutput}
    {key : Text} {target : ProtectedEngine} (hstart : GuardSys.start nextSequence = .ok s₀)
    (hrun : Run (GuardSys.step thresholds) s₀ tr s') (htick : (s, input, output) ∈ tr)
    (hrises : KillRises s input key target) (hslot : HasSlot s key target)
    (hspares : input.Spares) : target ∈ output.latched := by
  obtain ⟨mgr, -, hs₀⟩ := bind_ok_iff.mp hstart
  cases hs₀
  have hfst : Baselines ([] : ProtectionSlots) fun _ => none :=
    ⟨List.Pairwise.nil, nodup_nil, by simp⟩
  obtain ⟨hbase, t, hst⟩ := hrun.step_of (fun _ _ => True) (fun s => Baselines s.slots s.seen)
    hfst (fun _ _ => trivial) (fun _ _ _ _ h _ hst => h.step hst) _ htick
  exact hrises.latches hbase hslot hspares hst

def guardSlot : Text := replicate 32 48

def guardCgroup : Text := text "/sys/fs/cgroup/engine"

def guardEngine (phase : ProtectionPhase) (h : phase.isProcessBound = true) : ProtectedEngine :=
  ⟨replicate 32 48, phase, text "engine", some (replicate 64 48), some 2, some 1,
    some (replicate 36 48), some guardCgroup, isLowerHex_zeroGeneration, safeToken_engine,
    fun _ hvalue => Option.mem_some_iff.mp hvalue ▸ isLowerHex_zeros 64, by simp; decide, by simp,
    by simp [safeToken]; decide, by simp; decide, by simp [h]⟩

def armedEngine : ProtectedEngine := guardEngine .armed rfl

def guardDescriptor (phase : String) : Text :=
  text "version=1\ngeneration=" ++ replicate 32 48 ++ text "\nphase=" ++ text phase ++
    text "\ncontainer_name=engine\ncontainer_id=" ++ replicate 64 48 ++
    text "\npid=2\nstart_ticks=1\nboot_id=" ++ replicate 36 48 ++ text "\ncgroup=" ++
    guardCgroup ++ text "\n"

example : ProtectedEngine.parse (guardDescriptor "armed") = .ok armedEngine := by decide +kernel

def guardKernel (phase : String) (kills : UInt64) : Kernel where
  slots := .ok [guardSlot]
  descriptor _ := .ok (some (guardDescriptor phase))
  tripLatched _ := .ok false
  bind _ _ := .ok (some 1)
  processState _ _ := .ok .running
  memoryInput := .ok { availableBytes := 2 }
  pressureTotals := .ok none
  cgroupEvents _ _ := .ok ⟨0, kills, 0, 0⟩
  writeAcknowledgement _ := .ok ()
  writeDisarmed _ := .ok ()
  writeTrip _ := .ok ()
  empty _ := .ok true

def guardTick (sequence clock : UInt64) (phase : String) (kills : UInt64) : GuardInput where
  sample := .ok ⟨sequence, clock, clock, {}, unknownTelemetry_cores_le⟩
  kernel := guardKernel phase kills
  recordSample := .ok ()
  recordEvent _ := .ok ()
  flush _ := .ok ()

def guardThresholds : SafetyThresholds := ⟨1, 1⟩

theorem guardTick_spares (seq clock : UInt64) (phase : String) (kills : UInt64) :
    (guardTick seq clock phase kills).Spares :=
  ⟨rfl, fun _ => rfl, fun _ => rfl, fun _ => rfl, fun _ => rfl⟩

def guardStart : GuardSys := ⟨⟨1, 0, 0, ∅⟩, [], fun _ => none⟩

def guardStep (s : GuardSys) (input : GuardInput) : GuardSys × GuardOutput :=
  (s.step guardThresholds input).get rfl

theorem run_guardStep (s : GuardSys) (inp : GuardInput)
    (h : Run (GuardSys.step guardThresholds) (guardStep s inp).1 tr t) :
    Run (GuardSys.step guardThresholds) s ((s, inp, (guardStep s inp).2) :: tr) t :=
  Run.cons rfl h

/-- The state after one tick that saw the placement without any kill. -/
def guardedOnce (phase : String) : GuardSys := (guardStep guardStart (guardTick 1 1 phase 0)).1

theorem observed_kill_latches_second_tick :
    Run (GuardSys.step guardThresholds) guardStart
      [(guardStart, guardTick 1 1 "armed" 0, (guardStep guardStart (guardTick 1 1 "armed" 0)).2),
        (guardedOnce "armed", guardTick 2 2 "armed" 1,
          (guardStep (guardedOnce "armed") (guardTick 2 2 "armed" 1)).2)]
      (guardStep (guardedOnce "armed") (guardTick 2 2 "armed" 1)).1 ∧
    KillRises (guardedOnce "armed") (guardTick 2 2 "armed" 1) guardSlot armedEngine ∧
    HasSlot (guardedOnce "armed") guardSlot armedEngine ∧
    armedEngine ∈ (guardStep (guardedOnce "armed") (guardTick 2 2 "armed" 1)).2.latched := by
  have hrun := run_guardStep guardStart (guardTick 1 1 "armed" 0)
    (run_guardStep (guardedOnce "armed") (guardTick 2 2 "armed" 1) .nil)
  have hris : KillRises (guardedOnce "armed") (guardTick 2 2 "armed" 1) guardSlot armedEngine :=
    .of_seesRise (by decide +kernel)
  have hslot : HasSlot (guardedOnce "armed") guardSlot armedEngine := by
    have hany : ((guardedOnce "armed").slots.any fun e =>
        decide (e.1 = guardSlot ∧ e.2.target = armedEngine)) = true := by decide +kernel
    obtain ⟨⟨key, slot⟩, hmem, hen⟩ := any_eq_true.mp hany
    obtain ⟨rfl, htgt⟩ := of_decide_eq_true hen
    exact ⟨slot, hmem, htgt⟩
  refine ⟨hrun, hris, hslot, ?_⟩
  have hstr : GuardSys.start 1 = .ok guardStart := rfl
  exact observed_kill_latches hstr hrun (mem_cons_of_mem _ mem_cons_self) hris hslot
    (guardTick_spares 2 2 "armed" 1)

/-- A tick whose sample cannot be recorded. -/
def recordFails (input : GuardInput) : GuardInput :=
  { input with recordSample := .error .stateUnavailable }

/-- LOST: the tick that sees the kill cannot record its sample; the next tick, in which nothing
    fails, finds no difference and latches nothing. -/
theorem kill_lost_by_failed_record :
    let failed := guardStep (guardedOnce "armed") (recordFails (guardTick 2 2 "armed" 1))
    let healthy := guardStep failed.1 (guardTick 2 3 "armed" 1)
    Run (GuardSys.step guardThresholds) guardStart
      [(guardStart, guardTick 1 1 "armed" 0, (guardStep guardStart (guardTick 1 1 "armed" 0)).2),
        (guardedOnce "armed", recordFails (guardTick 2 2 "armed" 1), failed.2),
        (failed.1, guardTick 2 3 "armed" 1, healthy.2)] healthy.1 ∧
    KillRises (guardedOnce "armed") (recordFails (guardTick 2 2 "armed" 1)) guardSlot armedEngine ∧
    (guardTick 2 3 "armed" 1).Spares ∧ healthy.2.result.toBool = true ∧
    failed.2.latched = [] ∧ healthy.2.latched = [] :=
  ⟨run_guardStep _ _ (run_guardStep _ _ (run_guardStep _ _ .nil)), .of_seesRise (by decide +kernel),
    guardTick_spares 2 3 "armed" 1, by decide +kernel, by decide +kernel, by decide +kernel⟩

end LetsInfer.Watchdog
