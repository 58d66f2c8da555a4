import LetsInfer.Watchdog.Manager
import LetsInfer.Schemes.Runs

/-! @src core/watchdog/src/li_watchdog_manager.rs | name:Order of containment | scheme:trace

    What one tick asks of its providers, in order. The trace has an entry for every call with how it
    ended, so whatever it shows holds for every point at which a tick can stop. A target is contained
    for a reason that was observed, after a flush and its own latch, and once; its event comes after
    that, and the tick ends with a flush if there was one. -/

namespace LetsInfer.Watchdog
open Schemes List

/-- A call of a provider, with its answer where that matters. -/
inductive ProviderCall where
  | sample (succeeds : Bool)
  | observations (answer : Option (List ProtectionObservation))
  | acknowledgeDisarmed (target : ProtectedEngine) (succeeds : Bool)
  | latchTrip (target : ProtectedEngine) (succeeds : Bool)
  | contain (target : ProtectedEngine)
  | recordSample (succeeds : Bool)
  | recordEvent (event : SafetyEvent) (succeeds : Bool)
  | flush (succeeds : Bool)

/-- The same providers, with a trace of their calls beside their world. -/
def Providers.traced {ω : Type} (providers : Providers ω) :
    Providers (ω × List ProviderCall) where
  sample sequence := (providers.sample sequence).traced fun r => .sample r.isOk
  observations sample := (providers.observations sample).traced fun r => .observations r.toOption
  acknowledgeDisarmed target :=
    (providers.acknowledgeDisarmed target).traced fun r => .acknowledgeDisarmed target r.isOk
  latchTrip target action reason input :=
    (providers.latchTrip target action reason input).traced fun r => .latchTrip target r.isOk
  contain target action grace :=
    (providers.contain target action grace).traced fun _ => .contain target
  recordSample sample := (providers.recordSample sample).traced fun r => .recordSample r.isOk
  recordEvent event := (providers.recordEvent event).traced fun r => .recordEvent event r.isOk
  flush := providers.flush.traced fun r => .flush r.isOk

/-- An observation a target is contained for. -/
structure Tripping (observation : ProtectionObservation) : Prop where
  active : observation.target.phase = .starting ∨ observation.target.phase = .armed
  unlatched : observation.tripLatched = false
  reason : observation.processState = .exited ∨ observation.safety.cgroupOomKillDelta ≠ 0 ∨
    observation.safety.cgroupOomGroupKillDelta ≠ 0

variable {observation : ProtectionObservation} {trace : List ProviderCall} {call : ProviderCall}

theorem Trips.tripping (h : Trips observation) : Tripping observation := by
  obtain ⟨hbd, hunl, act, reason, hdcn⟩ := h
  refine ⟨?_, hunl, ?_⟩
  · revert hbd
    cases observation.target.phase <;> simp [ProtectionPhase.isProcessBound]
  · unfold safetyDecision at hdcn
    split_ifs at hdcn with hexi hkil
    · exact .inl hexi
    · exact .inr hkil

/-- A flush that succeeded, and later the latch of the target. -/
def LatchedIn (earlier : List ProviderCall) (target : ProtectedEngine) : Prop :=
  ∃ a b c, earlier = a ++ .flush true :: b ++ .latchTrip target true :: c

/-- What a call may rely on having happened. -/
def Allowed (earlier : List ProviderCall) : ProviderCall → Prop
  | .contain target =>
    (∃ observations observation, .observations (some observations) ∈ earlier ∧
      observation ∈ observations ∧ observation.target = target ∧ Tripping observation) ∧
    LatchedIn earlier target ∧
    ∀ other, .contain other ∈ earlier → other.generation ≠ target.generation
  | .recordEvent event _ => event.action.isSome →
    ∃ target, .contain target ∈ earlier ∧ target.generation = event.generation
  | _ => True

/-- Every call of the trace was allowed by the calls before it. -/
def InSequence (trace : List ProviderCall) : Prop :=
  ∀ earlier call later, trace = earlier ++ call :: later → Allowed earlier call

/-- Every trip event of the trace is followed by a flush that succeeded. -/
def FlushedAfterTrips (trace : List ProviderCall) : Prop :=
  ∀ earlier event succeeds later, trace = earlier ++ .recordEvent event succeeds :: later →
    event.action.isSome → .flush true ∈ later

/-! ### Longer traces -/

section Traces

theorem snoc_eq_append_cons {α : Type} {l earlier later : List α} {a b : α}
    (h : l ++ [a] = earlier ++ b :: later) :
    (l = earlier ∧ a = b) ∨ ∃ shorter, l = earlier ++ b :: shorter ∧ later = shorter ++ [a] := by
  rcases eq_nil_or_concat' later with rfl | ⟨shorter, last, rfl⟩
  · obtain ⟨hl, ha⟩ := append_inj' h rfl
    exact .inl ⟨hl, singleton_injective ha⟩
  · rw [← cons_append, ← append_assoc] at h
    obtain ⟨hl, ha⟩ := append_inj' h rfl
    exact .inr ⟨shorter, hl, by rw [ha]⟩

/-- STEP: one more call that is allowed. -/
theorem InSequence.snoc (h : InSequence trace) (hcall : Allowed trace call) :
    InSequence (trace ++ [call]) := by
  intro earlier other later heq
  rcases snoc_eq_append_cons heq with ⟨rfl, rfl⟩ | ⟨shorter, hsho, -⟩
  · exact hcall
  · exact h earlier other shorter hsho

def ProviderCall.isQuiet : ProviderCall → Bool
  | .contain _ => false
  | .recordEvent event _ => event.action.isNone
  | _ => true

theorem allowed_of_isQuiet (h : call.isQuiet = true) : Allowed trace call := by
  cases call with
  | contain tgt => cases h
  | recordEvent ev succeeds =>
    intro hsome
    rw [ProviderCall.isQuiet, Option.isNone_iff_eq_none] at h
    rw [h] at hsome
    cases hsome
  | _ => trivial

theorem inSequence_of_isQuiet (h : ∀ call ∈ trace, call.isQuiet = true) : InSequence trace := by
  intro earlier call later heq
  exact allowed_of_isQuiet (h call (heq ▸ by simp))

theorem flushedAfterTrips_flush : FlushedAfterTrips (trace ++ [.flush true]) := by
  intro earlier ev succeeds later heq _
  rcases snoc_eq_append_cons heq with ⟨-, hcall⟩ | ⟨shorter, -, rfl⟩
  · cases hcall
  · exact mem_append_right _ (mem_singleton_self _)

end Traces

/-! ### The two passes -/

section Passes

variable {ω : Type} {thr : SafetyThresholds} {ps : Providers ω} {smp : Sample}
  {obss rest : List ProtectionObservation} {found : List SafetyEvent × List Trip}
  {trips : List Trip} {evs : List SafetyEvent}

/-- The first pass: nothing was contained, and the trips found so far are of observations that trip
    and of other generations than those to come. -/
structure FirstPass (observations rest : List ProtectionObservation) (trips : List Trip)
    (trace : List ProviderCall) : Prop where
  quiet : ∀ call ∈ trace, call.isQuiet = true
  observed : .observations (some observations) ∈ trace
  trip : ∀ trip ∈ trips, trip.observation ∈ observations ∧ Tripping trip.observation
  mem : ∀ observation ∈ rest, observation ∈ observations
  distinct : (trips.map (·.observation.target.generation) ++
    rest.map (·.target.generation)).Nodup

/-- The second pass: what is still to be contained trips, and none of it was contained. -/
structure SecondPass (observations : List ProtectionObservation) (trips : List Trip)
    (events : List SafetyEvent) (trace : List ProviderCall) : Prop where
  ordered : InSequence trace
  observed : .observations (some observations) ∈ trace
  flushed : trips ≠ [] → .flush true ∈ trace
  trip : ∀ trip ∈ trips, trip.observation ∈ observations ∧ Tripping trip.observation
  distinct : (trips.map (·.observation.target.generation)).Nodup
  fresh : ∀ target, .contain target ∈ trace → ∀ trip ∈ trips,
    target.generation ≠ trip.observation.target.generation
  reported : ∀ event succeeds, .recordEvent event succeeds ∈ trace → event.action.isSome →
    events.any (·.action.isSome)

theorem FirstPass.snoc (h : FirstPass obss rest trips trace) (hcall : call.isQuiet = true) :
    FirstPass obss rest trips (trace ++ [call]) where
  __ := h
  quiet := by
    intro other hoth
    rcases mem_snoc.mp hoth with hoth | rfl
    · exact h.quiet other hoth
    · exact hcall
  observed := mem_append_left _ h.observed

theorem FirstPass.ordered (h : FirstPass obss rest trips trace) : InSequence trace :=
  inSequence_of_isQuiet h.quiet

section

variable (h : FirstPass obss (observation :: rest) trips trace)
include h

/-- An observation that does not trip is passed. -/
theorem FirstPass.skip : FirstPass obss rest trips trace where
  __ := h
  mem := fun other hoth => h.mem other (mem_cons_of_mem _ hoth)
  distinct := h.distinct.sublist ((sublist_cons_self _ _).append_left _)

theorem FirstPass.add {act : SafetyAction} {reason : String} (htri : Tripping observation) :
    FirstPass obss rest (trips ++ [⟨observation, act, reason⟩]) trace where
  __ := h.skip
  trip := by
    intro trip htrip
    rcases mem_snoc.mp htrip with htrip | rfl
    · exact h.trip trip htrip
    · exact ⟨h.mem _ mem_cons_self, htri⟩
  distinct := by simpa using h.distinct

end

/-- The postcondition of every part of a tick when it fails. -/
abbrev stopped (_ : WatchdogError) (s : ManagerState × ω × List ProviderCall) : Prop :=
  InSequence s.2.2

/-- STEP: one observation. -/
theorem FirstPass.judge {s : ManagerState × ω × List ProviderCall}
    (h : FirstPass obss (observation :: rest) found.2 s.2.2) :
    (judge thr ps.traced smp found observation).Post s
      (fun next t => FirstPass obss rest next.2 t.2.2) stopped := by
  refine judge_post (fun _ _ htri _ => h.add htri.tripping) (fun _ _ => ?_) (fun _ => ?_)
    fun _ _ => h.skip
  all_goals exact .traced (fun _ _ _ => h.skip.snoc rfl) fun _ _ => (h.snoc rfl).ordered

/-- STEP: one containment. -/
theorem SecondPass.contain {trip : Trip} {s : ManagerState × ω × List ProviderCall}
    (h : SecondPass obss (trip :: trips) evs s.2.2) :
    (contain thr ps.traced smp evs trip).Post s
      (fun next t => SecondPass obss trips next t.2.2) stopped := by
  obtain ⟨hmem, htri⟩ := h.trip trip mem_cons_self
  obtain ⟨hoth, hdis⟩ := nodup_cons.mp h.distinct
  have hlat : ∀ succeeds, InSequence (s.2.2 ++ [.latchTrip trip.observation.target succeeds]) :=
    fun succeeds => h.ordered.snoc trivial
  -- The containment is allowed by the latch just before it.
  have hcon : InSequence (s.2.2 ++ [.latchTrip trip.observation.target true] ++
      [.contain trip.observation.target]) := by
    refine (hlat true).snoc ⟨⟨_, _, ?_, hmem, rfl, htri⟩, ?_, fun other hin => ?_⟩
    · exact mem_append_left _ h.observed
    · obtain ⟨a, b, hspl⟩ := append_of_mem (h.flushed (cons_ne_nil _ _))
      exact ⟨a, b, [], by rw [hspl]⟩
    · exact h.fresh other (by simpa using hin) trip mem_cons_self
  have hev : ∀ complete succeeds, InSequence (s.2.2 ++ [.latchTrip trip.observation.target true] ++
      [.contain trip.observation.target] ++
      [.recordEvent (tripEvent smp trip complete) succeeds]) :=
    fun complete succeeds => hcon.snoc fun _ => ⟨trip.observation.target, by simp, rfl⟩
  have hdone : ∀ complete, SecondPass obss trips (evs ++ [tripEvent smp trip complete])
      (s.2.2 ++ [.latchTrip trip.observation.target true] ++ [.contain trip.observation.target] ++
        [.recordEvent (tripEvent smp trip complete) true]) := by
    intro complete
    refine ⟨hev complete true, ?_, fun _ => ?_, ?_, hdis, ?_, ?_⟩
    · simp [h.observed]
    · simp [h.flushed]
    · exact fun other hin => h.trip other (mem_cons_of_mem _ hin)
    · intro tgt htgt other hin
      simp only [append_assoc, mem_append, mem_singleton, reduceCtorEq, false_or,
        ProviderCall.contain.injEq, or_false] at htgt
      rcases htgt with htgt | rfl
      · exact h.fresh tgt htgt other (mem_cons_of_mem _ hin)
      · exact fun heq => hoth (mem_map.mpr ⟨other, hin, heq.symm⟩)
    · intro ev succeeds _ _
      simp [tripEvent]
  refine contain_post (P := fun w => w.2 = s.2.2 ++ [.latchTrip trip.observation.target true] ++
    [.contain trip.observation.target]) (.traced (fun _ _ => ?_) fun _ _ => hlat _) ?_
  · exact .traced (fun _ _ => rfl) fun _ _ => rfl
  · rintro complete ⟨w, _⟩ rfl
    exact .traced (fun _ _ _ => hdone _) fun _ _ => hev _ _

theorem observe_post (st : ManagerState) (world : ω) :
    (observe ps.traced).Post (st, world, [])
      (fun obs t => ∃ obss, FirstPass obss obs.2 [] t.2.2) stopped := by
  refine .bind (.left (.get (.bind (.right (.traced (fun smp _ => ?_) fun _ _ => ?_)))))
  · refine .bind (.check (fun _ => .bind (.right (.traced (fun obss _ => ?_) fun _ _ => ?_)))
      fun _ => ?_)
    · have hqt : ∀ call ∈ [ProviderCall.sample true, .observations (some obss)],
          call.isQuiet = true := by simp [ProviderCall.isQuiet]
      refine .bind (.check (fun hbou => .pure ⟨obss, hqt, ?_, by simp, ?_, ?_⟩)
        fun _ => inSequence_of_isQuiet hqt)
      · exact mem_append_right _ (mem_singleton_self _)
      · exact fun observation hin => (mem_insertionSort _).mp hin
      · have hlen := (of_decide_eq_true hbou).2
        refine dedup_eq_self.mp ((dedup_sublist _).eq_of_length ?_)
        simpa using hlen
    all_goals exact inSequence_of_isQuiet (by simp [ProviderCall.isQuiet])
  · exact inSequence_of_isQuiet (by simp [ProviderCall.isQuiet])

/-- Between the passes. -/
theorem FirstPass.second (h : FirstPass obss [] trips trace)
    (hflu : trips ≠ [] → .flush true ∈ trace) : SecondPass obss trips evs trace where
  ordered := h.ordered
  observed := h.observed
  flushed := hflu
  trip := h.trip
  distinct := by simpa using h.distinct
  fresh tgt htgt := by cases h.quiet _ htgt
  reported ev succeeds hev hsome := by
    have hno := h.quiet _ hev
    rw [ProviderCall.isQuiet, Option.isNone_iff_eq_none] at hno
    rw [hno] at hsome
    cases hsome

/-- RUN: everything from the recorded sample on. -/
theorem FirstPass.protect {s : ManagerState × ω × List ProviderCall}
    (h : FirstPass obss rest [] s.2.2) :
    (protect thr ps.traced smp rest).Post s
      (fun _ t => InSequence t.2.2 ∧ FlushedAfterTrips t.2.2) stopped := by
  refine protect_post (fun rest found t => FirstPass obss rest found.2 t.2.2)
    (fun trips evs t => SecondPass obss trips evs t.2.2)
    (F := fun t => InSequence t.2.2 ∧ FlushedAfterTrips t.2.2) (fun _ _ _ _ ht => ht.judge)
    (fun found t ht => ?_) (fun _ _ _ _ ht => ht.contain) (fun evs t ht => ?_) (fun t ht => ?_) h
  · refine .onlyIf (fun _ => .right (.traced (fun _ _ => ?_) fun _ _ => ?_)) fun hemp => ?_
    · exact (ht.snoc rfl).second fun _ => mem_append_right _ (mem_singleton_self _)
    · exact (ht.snoc rfl).ordered
    · exact ht.second fun hne => absurd (by simpa using hemp) hne
  · refine .onlyIf (fun _ => .right (.traced (fun _ _ => ?_) fun _ _ => ?_)) fun hno => ?_
    · exact ⟨ht.ordered.snoc trivial, flushedAfterTrips_flush⟩
    · exact ht.ordered.snoc trivial
    · refine ⟨ht.ordered, fun earlier ev succeeds later heq hsome => ?_⟩
      have hrep := ht.reported ev succeeds (heq ▸ by simp) hsome
      rw [hno] at hrep
      cases hrep
  · exact .bind (.left (.get (.bind (.check (fun _ => .left (.modify ht)) fun _ => ht.1))))

end Passes

/-- ORDER: in every tick, wherever it stops, each containment is of an observation that trips, after
    a flush and the latch of the target, and the only one of its generation; each trip event comes
    after the containment; and a tick that succeeds flushes after its last trip event. -/
theorem tick_contains_in_order {ω : Type} (thresholds : SafetyThresholds)
    (providers : Providers ω) (state : ManagerState) (world : ω) :
    (tick thresholds providers.traced).Post (state, world, [])
      (fun _ t => InSequence t.2.2 ∧ FlushedAfterTrips t.2.2) fun _ t => InSequence t.2.2 := by
  refine .seq (observe_post state world) fun obs t hobs => ?_
  obtain ⟨obss, hjud⟩ := hobs
  refine .bind (.right (.traced (fun _ _ => (hjud.snoc rfl).protect) fun _ _ => ?_))
  exact (hjud.snoc rfl).ordered

end LetsInfer.Watchdog
