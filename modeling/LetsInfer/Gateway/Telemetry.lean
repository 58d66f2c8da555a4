import LetsInfer.Schemes.Tables
import LetsInfer.Gateway.Contract

/-! @src core/gateway/src/li_gateway_telemetry.rs | name:Gateway telemetry state | scheme:counters

    The cumulative counters kept under the Gateway state lock, the bounded per-group counters, and
    the bounded token samples. Every counter moves through `increment`, which saturates. The
    publisher's readiness fields are read by no admission or lifecycle operation and are left
    out. -/

namespace LetsInfer.Gateway
open Schemes

def maxPlacementGroupActivity : ℕ := 4096

def maxPlacementGroupSamples : ℕ := 16384

def placementGroupRateWindowMilliseconds : ℕ := 5000

abbrev Counter := { n : ℕ // n ≤ u64Max }

instance : Zero Counter := ⟨0, Nat.zero_le _⟩

/-- Adds one delta without wrapping. -/
def increment (value : Counter) (delta : ℕ) : Counter :=
  ⟨saturatingAdd value.1 delta, min_le_right _ _⟩

structure GatewayTelemetryTiming where
  queueMilliseconds : ℕ
  ttftMilliseconds : ℕ
  decodeMilliseconds : ℕ
  deriving DecidableEq

def GatewayTelemetryTiming.fromObservations (queueMilliseconds : ℕ)
    (dispatchedAt firstByteAt completedAt : Option ℕ) : GatewayTelemetryTiming where
  queueMilliseconds := queueMilliseconds
  ttftMilliseconds :=
    match dispatchedAt, firstByteAt with
    | some dispatched, some first => first - dispatched
    | _, _ => 0
  decodeMilliseconds :=
    match firstByteAt, completedAt with
    | some first, some completed => completed - first
    | _, _ => 0

/-- The cumulative aggregate counters (the two gauges are filled in by a snapshot). -/
structure GatewayTelemetryCounters where
  requestsReceived : Counter := 0
  requestsAdmitted : Counter := 0
  requestsCompleted : Counter := 0
  requestsFailed : Counter := 0
  requestsCancelled : Counter := 0
  requestsRetried : Counter := 0
  inputTokens : Counter := 0
  outputTokens : Counter := 0
  cachedTokens : Counter := 0
  queueMilliseconds : Counter := 0
  ttftMilliseconds : Counter := 0
  decodeMilliseconds : Counter := 0
  exactTokenRequests : Counter := 0
  prefixCacheHits : Counter := 0
  deriving DecidableEq

structure GatewayPlacementGroupCounters where
  requestsAdmitted : Counter := 0
  requestsCompleted : Counter := 0
  requestsFailed : Counter := 0
  requestsCancelled : Counter := 0
  requestsRetried : Counter := 0
  inputTokens : Counter := 0
  outputTokens : Counter := 0
  cachedTokens : Counter := 0
  deriving DecidableEq

structure PlacementGroupTelemetry where
  model : LogicalModelName
  endpointNodeId : NodeId
  maxActiveRequests : ℕ
  counters : GatewayPlacementGroupCounters
  deriving DecidableEq

structure PlacementGroupSample where
  observedAt : ℕ
  placementGroupId : PlacementGroupId
  inputTokens : ℕ
  outputTokens : ℕ
  cachedTokens : ℕ
  deriving DecidableEq

structure GatewayTelemetryState where
  counters : GatewayTelemetryCounters := {}
  placementGroups : Table PlacementGroupId PlacementGroupTelemetry := ∅
  placementGroupSamples : List PlacementGroupSample := []

namespace GatewayTelemetryState

def recordTiming (counters : GatewayTelemetryCounters) (timing : GatewayTelemetryTiming) :
    GatewayTelemetryCounters :=
  { counters with
    queueMilliseconds := increment counters.queueMilliseconds timing.queueMilliseconds
    ttftMilliseconds := increment counters.ttftMilliseconds timing.ttftMilliseconds
    decodeMilliseconds := increment counters.decodeMilliseconds timing.decodeMilliseconds }

/-- `group` followed by an update of the group's counters: the group is inserted when there is room
    for its identity and refreshed from the route, otherwise nothing is recorded. -/
def updateGroup (telemetry : GatewayTelemetryState) (route : GatewayRoute)
    (update : GatewayPlacementGroupCounters → GatewayPlacementGroupCounters) :
    GatewayTelemetryState :=
  let refresh (counters : GatewayPlacementGroupCounters) : GatewayTelemetryState :=
    { telemetry with
      placementGroups := telemetry.placementGroups.insert route.placementGroupId
        { model := route.model
          endpointNodeId := route.endpointNodeId
          maxActiveRequests := route.maxActiveRequests.1
          counters := update counters } }
  match telemetry.placementGroups.lookup route.placementGroupId with
  | some group => refresh group.counters
  | none =>
    if maxPlacementGroupActivity ≤ telemetry.placementGroups.size then telemetry
    else refresh {}

def recordReceived (telemetry : GatewayTelemetryState) : GatewayTelemetryState :=
  { telemetry with
    counters := { telemetry.counters with
      requestsReceived := increment telemetry.counters.requestsReceived 1 } }

/-- One terminal failure before a placement group owns the request. -/
def recordUnroutedFailureWithTiming (telemetry : GatewayTelemetryState)
    (timing : GatewayTelemetryTiming) : GatewayTelemetryState :=
  { telemetry with
    counters := recordTiming { telemetry.counters with
      requestsFailed := increment telemetry.counters.requestsFailed 1 } timing }

def recordUnroutedFailure (telemetry : GatewayTelemetryState) : GatewayTelemetryState :=
  telemetry.recordUnroutedFailureWithTiming ⟨0, 0, 0⟩

/-- The first placement-group reservation of one request. -/
def recordAdmitted (telemetry : GatewayTelemetryState) (route : GatewayRoute) :
    GatewayTelemetryState :=
  updateGroup
    { telemetry with
      counters := { telemetry.counters with
        requestsAdmitted := increment telemetry.counters.requestsAdmitted 1 } }
    route fun c => { c with requestsAdmitted := increment c.requestsAdmitted 1 }

/-- One successful pre-output move away from a failed placement group. -/
def recordRetried (telemetry : GatewayTelemetryState) (route : GatewayRoute) :
    GatewayTelemetryState :=
  updateGroup
    { telemetry with
      counters := { telemetry.counters with
        requestsRetried := increment telemetry.counters.requestsRetried 1 } }
    route fun c => { c with requestsRetried := increment c.requestsRetried 1 }

/-- One token sample, the oldest dropped beyond the bound. -/
def recordSample (telemetry : GatewayTelemetryState) (sample : PlacementGroupSample) :
    GatewayTelemetryState :=
  if sample.placementGroupId ∈ telemetry.placementGroups then
    let samples := telemetry.placementGroupSamples ++ [sample]
    { telemetry with
      placementGroupSamples := samples.drop (samples.length - maxPlacementGroupSamples) }
  else telemetry

def recordCompleted (telemetry : GatewayTelemetryState) (route : GatewayRoute)
    (observedAt : ℕ) (timing : GatewayTelemetryTiming)
    (inputTokens outputTokens cachedTokens : ℕ) (exactTokens : Bool) : GatewayTelemetryState :=
  let c := telemetry.counters
  let counters := recordTiming
    { c with
      requestsCompleted := increment c.requestsCompleted 1
      inputTokens := increment c.inputTokens inputTokens
      outputTokens := increment c.outputTokens outputTokens
      cachedTokens := increment c.cachedTokens cachedTokens } timing
  let counters :=
    { counters with
      exactTokenRequests :=
        if exactTokens then increment c.exactTokenRequests 1 else c.exactTokenRequests
      prefixCacheHits :=
        if cachedTokens > 0 then increment c.prefixCacheHits 1 else c.prefixCacheHits }
  (updateGroup { telemetry with counters := counters } route fun g =>
    { g with
      requestsCompleted := increment g.requestsCompleted 1
      inputTokens := increment g.inputTokens inputTokens
      outputTokens := increment g.outputTokens outputTokens
      cachedTokens := increment g.cachedTokens cachedTokens }).recordSample
    ⟨observedAt, route.placementGroupId, inputTokens, outputTokens, cachedTokens⟩

def recordFailed (telemetry : GatewayTelemetryState) (route : GatewayRoute)
    (timing : GatewayTelemetryTiming) : GatewayTelemetryState :=
  updateGroup
    { telemetry with
      counters := recordTiming { telemetry.counters with
        requestsFailed := increment telemetry.counters.requestsFailed 1 } timing }
    route fun c => { c with requestsFailed := increment c.requestsFailed 1 }

/-- One explicit cancellation with its durations; a queued request has no route. -/
def recordCancelled (telemetry : GatewayTelemetryState) (route : Option GatewayRoute)
    (timing : GatewayTelemetryTiming) : GatewayTelemetryState :=
  let telemetry : GatewayTelemetryState :=
    { telemetry with
      counters := recordTiming { telemetry.counters with
        requestsCancelled := increment telemetry.counters.requestsCancelled 1 } timing }
  match route with
  | some route =>
    telemetry.updateGroup route
      fun c => { c with requestsCancelled := increment c.requestsCancelled 1 }
  | none => telemetry

/-- The pruning half of `snapshot`, the only write a snapshot makes. -/
def pruneSamples (telemetry : GatewayTelemetryState) (observedAt : ℕ) : GatewayTelemetryState :=
  { telemetry with
    placementGroupSamples := telemetry.placementGroupSamples.dropWhile fun sample =>
      sample.observedAt < observedAt - placementGroupRateWindowMilliseconds }

end GatewayTelemetryState

/-! ### Counters never go back -/

theorem le_increment (v : Counter) (delta : ℕ) : v ≤ increment v delta :=
  le_min (Nat.le_add_right _ _) v.2

theorem increment_val {v : Counter} {delta : ℕ} (h : v.1 + delta ≤ u64Max) :
    (increment v delta).1 = v.1 + delta :=
  min_eq_left h

structure GatewayTelemetryCounters.Le (a b : GatewayTelemetryCounters) : Prop where
  requestsReceived : a.requestsReceived ≤ b.requestsReceived
  requestsAdmitted : a.requestsAdmitted ≤ b.requestsAdmitted
  requestsCompleted : a.requestsCompleted ≤ b.requestsCompleted
  requestsFailed : a.requestsFailed ≤ b.requestsFailed
  requestsCancelled : a.requestsCancelled ≤ b.requestsCancelled
  requestsRetried : a.requestsRetried ≤ b.requestsRetried
  inputTokens : a.inputTokens ≤ b.inputTokens
  outputTokens : a.outputTokens ≤ b.outputTokens
  cachedTokens : a.cachedTokens ≤ b.cachedTokens
  queueMilliseconds : a.queueMilliseconds ≤ b.queueMilliseconds
  ttftMilliseconds : a.ttftMilliseconds ≤ b.ttftMilliseconds
  decodeMilliseconds : a.decodeMilliseconds ≤ b.decodeMilliseconds
  exactTokenRequests : a.exactTokenRequests ≤ b.exactTokenRequests
  prefixCacheHits : a.prefixCacheHits ≤ b.prefixCacheHits

structure GatewayPlacementGroupCounters.Le (a b : GatewayPlacementGroupCounters) : Prop where
  requestsAdmitted : a.requestsAdmitted ≤ b.requestsAdmitted
  requestsCompleted : a.requestsCompleted ≤ b.requestsCompleted
  requestsFailed : a.requestsFailed ≤ b.requestsFailed
  requestsCancelled : a.requestsCancelled ≤ b.requestsCancelled
  requestsRetried : a.requestsRetried ≤ b.requestsRetried
  inputTokens : a.inputTokens ≤ b.inputTokens
  outputTokens : a.outputTokens ≤ b.outputTokens
  cachedTokens : a.cachedTokens ≤ b.cachedTokens

/-- No counter of the telemetry, aggregate or of a group, goes back, and no group is dropped. -/
structure GatewayTelemetryState.Grows (a b : GatewayTelemetryState) : Prop where
  counters : a.counters.Le b.counters
  groups : ∀ g x, a.placementGroups.lookup g = some x →
    ∃ y, b.placementGroups.lookup g = some y ∧ x.counters.Le y.counters

namespace GatewayTelemetryState

variable (tel : GatewayTelemetryState) (rt : GatewayRoute)
  (timing : GatewayTelemetryTiming)

theorem Grows.refl (a : GatewayTelemetryState) : Grows a a := by
  refine ⟨by constructor <;> exact le_rfl, fun g x hx => ⟨x, hx, ?_⟩⟩
  constructor <;> exact le_rfl

@[simp] theorem counters_updateGroup
    (update : GatewayPlacementGroupCounters → GatewayPlacementGroupCounters) :
    (tel.updateGroup rt update).counters = tel.counters := by
  unfold updateGroup
  simp only
  split
  · rfl
  · split_ifs <;> rfl

section

variable (x : PlacementGroupSample)
include x

@[simp] theorem counters_recordSample : (tel.recordSample x).counters = tel.counters := by
  unfold recordSample
  split_ifs <;> rfl

@[simp] theorem placementGroups_recordSample :
    (tel.recordSample x).placementGroups = tel.placementGroups := by
  unfold recordSample
  split_ifs <;> rfl

theorem Grows.recordSample {a b : GatewayTelemetryState}
    (h : Grows a b) : Grows a (b.recordSample x) :=
  ⟨by simpa using h.counters, by simpa using h.groups⟩

end

/-- A group update after an update of the aggregate counters grows when both do. -/
theorem grows_updateGroup {tel : GatewayTelemetryState} {counters : GatewayTelemetryCounters}
    {update : GatewayPlacementGroupCounters → GatewayPlacementGroupCounters}
    (hctr : tel.counters.Le counters) (hgro : ∀ c : GatewayPlacementGroupCounters, c.Le (update c)) :
    Grows tel (updateGroup { tel with counters := counters } rt update) := by
  refine ⟨by rwa [counters_updateGroup], fun g x hx => ?_⟩
  have hsame : x.counters.Le x.counters := by constructor <;> exact le_rfl
  unfold updateGroup
  simp only
  split
  · rename_i group hgro'
    by_cases hg : g = rt.placementGroupId
    · subst hg
      obtain rfl : group = x := Option.some.inj (hgro'.symm.trans hx)
      exact ⟨_, Finmap.lookup_insert _, hgro _⟩
    · exact ⟨x, by rwa [Finmap.lookup_insert_of_ne _ hg], hsame⟩
  · rename_i hno
    have hg : g ≠ rt.placementGroupId := by
      rintro rfl
      rw [hno] at hx
      cases hx
    split_ifs
    · exact ⟨x, hx, hsame⟩
    · exact ⟨x, by rwa [Finmap.lookup_insert_of_ne _ hg], hsame⟩

theorem grows_recordReceived : Grows tel tel.recordReceived := by
  refine ⟨?_, (Grows.refl tel).groups⟩
  constructor <;> simp [recordReceived, le_increment]

theorem grows_recordUnroutedFailureWithTiming :
    Grows tel (tel.recordUnroutedFailureWithTiming timing) := by
  refine ⟨?_, (Grows.refl tel).groups⟩
  constructor <;> simp [recordUnroutedFailureWithTiming, recordTiming, le_increment]

theorem grows_recordAdmitted : Grows tel (tel.recordAdmitted rt) := by
  refine grows_updateGroup rt ?_ fun c => ?_ <;> constructor <;> simp [le_increment]

theorem grows_recordRetried : Grows tel (tel.recordRetried rt) := by
  refine grows_updateGroup rt ?_ fun c => ?_ <;> constructor <;> simp [le_increment]

theorem grows_recordFailed : Grows tel (tel.recordFailed rt timing) := by
  refine grows_updateGroup rt ?_ fun c => ?_ <;> constructor <;>
    simp [recordTiming, le_increment]

theorem grows_recordCancelled (rt : Option GatewayRoute) :
    Grows tel (tel.recordCancelled rt timing) := by
  have hctr : tel.counters.Le (recordTiming { tel.counters with
      requestsCancelled := increment tel.counters.requestsCancelled 1 } timing) := by
    constructor <;> simp [recordTiming, le_increment]
  cases rt with
  | none => exact ⟨hctr, (Grows.refl tel).groups⟩
  | some rt =>
    unfold recordCancelled
    refine grows_updateGroup rt hctr fun c => ?_
    constructor <;> simp [le_increment]

theorem grows_recordCompleted (observedAt inputTokens outputTokens cachedTokens : ℕ)
    (exactTokens : Bool) :
    Grows tel (tel.recordCompleted rt observedAt timing inputTokens outputTokens
      cachedTokens exactTokens) := by
  refine Grows.recordSample _ (grows_updateGroup rt ?_ fun c => ?_)
  · constructor <;> simp only [recordTiming] <;> try split_ifs
    all_goals first | exact le_increment _ _ | exact le_rfl
  · constructor <;> simp [le_increment]

/-! ### The three tallies -/

def terminals (telemetry : GatewayTelemetryState) : ℕ :=
  telemetry.counters.requestsCompleted.1 + telemetry.counters.requestsFailed.1 +
    telemetry.counters.requestsCancelled.1

structure Tally where
  received : ℕ
  admitted : ℕ
  ended : ℕ

def tally (telemetry : GatewayTelemetryState) : Tally where
  received := telemetry.counters.requestsReceived.1
  admitted := telemetry.counters.requestsAdmitted.1
  ended := telemetry.terminals

variable {tel}

theorem tally_recordReceived (h : tel.tally.received < u64Max) :
    tel.recordReceived.tally = { tel.tally with received := tel.tally.received + 1 } := by
  simp only [tally, recordReceived, terminals]
  rw [increment_val h]

theorem tally_recordAdmitted (h : tel.tally.admitted < u64Max) :
    (tel.recordAdmitted rt).tally = { tel.tally with admitted := tel.tally.admitted + 1 } := by
  simp only [tally, recordAdmitted, terminals, counters_updateGroup]
  rw [increment_val h]

theorem tally_recordRetried : (tel.recordRetried rt).tally = tel.tally := by
  simp only [tally, recordRetried, terminals, counters_updateGroup]

theorem tally_recordUnroutedFailureWithTiming (h : tel.tally.ended < u64Max) :
    (tel.recordUnroutedFailureWithTiming timing).tally =
      { tel.tally with ended := tel.tally.ended + 1 } := by
  simp only [tally, terminals] at h
  simp only [tally, recordUnroutedFailureWithTiming, recordTiming, terminals]
  rw [increment_val (by omega), Tally.mk.injEq]
  omega

theorem tally_recordFailed (h : tel.tally.ended < u64Max) :
    (tel.recordFailed rt timing).tally = { tel.tally with ended := tel.tally.ended + 1 } := by
  simp only [tally, terminals] at h
  simp only [tally, recordFailed, recordTiming, terminals, counters_updateGroup]
  rw [increment_val (by omega), Tally.mk.injEq]
  omega

theorem tally_recordCancelled (rt : Option GatewayRoute) (h : tel.tally.ended < u64Max) :
    (tel.recordCancelled rt timing).tally = { tel.tally with ended := tel.tally.ended + 1 } := by
  simp only [tally, terminals] at h
  cases rt <;>
    simp only [tally, recordCancelled, recordTiming, terminals, counters_updateGroup] <;>
    rw [increment_val (by omega), Tally.mk.injEq] <;> omega

theorem tally_recordCompleted (observedAt inputTokens outputTokens cachedTokens : ℕ)
    (exactTokens : Bool) (h : tel.tally.ended < u64Max) :
    (tel.recordCompleted rt observedAt timing inputTokens outputTokens cachedTokens
        exactTokens).tally =
      { tel.tally with ended := tel.tally.ended + 1 } := by
  simp only [tally, terminals] at h
  simp only [tally, recordCompleted, recordTiming, terminals, counters_recordSample,
    counters_updateGroup]
  rw [increment_val (by omega), Tally.mk.injEq]
  omega

end GatewayTelemetryState

end LetsInfer.Gateway
