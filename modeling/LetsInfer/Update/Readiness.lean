import LetsInfer.Schemes.Calls
import LetsInfer.Interface.Values

/-! @src core/update/src/li_core_update_lifecycle.rs | name:Service readiness | scheme:deadline

    `verify` waits until every resident service of the durable snapshot was found ready on the
    candidate in a number of rounds in a row, or a deadline passes. Clock, waiter and services are
    whatever they are: each is a call on a state of its own choosing, and the log beside that state
    notes the rounds, the answers and the clock readings. The loop runs on fuel; the clock shows that
    one round more than the timeout has milliseconds is always enough. -/

namespace LetsInfer.Update
open Schemes Interface List

inductive CoreUpdateError where
  | invalidContract (reason : String)
  | provider (capability reason : String)
  deriving DecidableEq

inductive CoreUpdateResidentService where
  | node
  | watchdog
  | gateway
  deriving DecidableEq

inductive CoreUpdateServiceMode where
  | node
  | publicGateway
  | privateGateway
  | watchdog
  deriving DecidableEq

inductive CoreUpdateServicePlatform where
  | linux
  | macOs
  deriving DecidableEq

inductive CoreUpdateNodeRole where
  | main
  | child
  deriving DecidableEq

structure CoreUpdateServiceContext where
  platform : CoreUpdateServicePlatform
  role : CoreUpdateNodeRole
  deriving DecidableEq

structure CoreUpdateServiceState where
  service : CoreUpdateResidentService
  wasLoaded : Bool
  wasActive : Bool
  deriving DecidableEq

structure CoreUpdateServiceSnapshotRecord where
  updateId : Sha256Digest
  receiptId : Sha256Digest
  context : CoreUpdateServiceContext
  services : List CoreUpdateServiceState
  deriving DecidableEq

def u64Max : ℕ := 2 ^ 64 - 1

def maximumReadinessTimeoutMilliseconds : ℕ := 300000

def maximumStableReadinessObservations : ℕ := 100

/-- The bounds of `CoreUpdateReadinessPolicy::new`. -/
structure CoreUpdateReadinessPolicy where
  timeoutMilliseconds : ℕ
  pollMilliseconds : ℕ
  stableObservations : ℕ
  timeout_bounded : 0 < timeoutMilliseconds ∧
    timeoutMilliseconds ≤ maximumReadinessTimeoutMilliseconds
  poll_bounded : 0 < pollMilliseconds ∧ pollMilliseconds ≤ timeoutMilliseconds
  stable_bounded : 0 < stableObservations ∧
    stableObservations ≤ maximumStableReadinessObservations

/-- What a service is asked: whether it is ready in its mode on an installation. -/
structure ReadinessQuery (ι : Type) where
  service : CoreUpdateResidentService
  mode : CoreUpdateServiceMode
  installation : ι
  active : Bool
  timeout : ℕ

/-- The clock, the waiter and the services. -/
structure ReadinessPorts (ι σ : Type) where
  monotonicMilliseconds : Call CoreUpdateError σ ℕ
  wait : ℕ → Call CoreUpdateError σ Unit
  serviceIsReady : ReadinessQuery ι → Call CoreUpdateError σ Bool
  snapshotRecord : Sha256Digest → Call CoreUpdateError σ (Option CoreUpdateServiceSnapshotRecord)
  context : Call CoreUpdateError σ CoreUpdateServiceContext

abbrev Round (ι : Type) := List (ReadinessQuery ι × Bool)

/-- What happened so far, newest first. No call reads it. -/
structure ReadinessLog (ι : Type) where
  rounds : List (Round ι) := []
  readings : List ℕ := []

variable {ι σ : Type}

def ReadinessLog.round (log : ReadinessLog ι) : ReadinessLog ι :=
  { log with rounds := [] :: log.rounds }

def ReadinessLog.read (answer : Except CoreUpdateError ℕ) (log : ReadinessLog ι) :
    ReadinessLog ι :=
  match answer with
  | .ok now => { log with readings := now :: log.readings }
  | .error _ => log

def ReadinessLog.asked (query : ReadinessQuery ι) (answer : Except CoreUpdateError Bool)
    (log : ReadinessLog ι) : ReadinessLog ι :=
  match answer, log.rounds with
  | .ok ready, round :: rounds => { log with rounds := ((query, ready) :: round) :: rounds }
  | _, _ => log

/-! ### The snapshot -/

def expectedServices (context : CoreUpdateServiceContext) : List CoreUpdateResidentService :=
  match context.platform with
  | .linux => [.node, .watchdog, .gateway]
  | .macOs => [.node, .gateway]

def serviceMode (context : CoreUpdateServiceContext) :
    CoreUpdateResidentService → Except CoreUpdateError CoreUpdateServiceMode
  | .node => .ok .node
  | .gateway =>
    match context.role with
    | .main => .ok .publicGateway
    | .child => .ok .privateGateway
  | .watchdog =>
    match context.platform with
    | .linux => .ok .watchdog
    | .macOs =>
      .error (.invalidContract "macOS Core service state cannot contain a separate Watchdog")

def validateServiceSnapshot (record : CoreUpdateServiceSnapshotRecord) :
    Except CoreUpdateError Unit :=
  if record.services.map (·.service) ≠ expectedServices record.context then
    .error (.invalidContract
      "Core service snapshot is not the exact role-appropriate service set")
  else if record.services.any fun state => !state.wasLoaded || !state.wasActive then
    .error (.invalidContract
      "Core update requires every resident service to be loaded and active")
  else .ok ()

section Verify

variable (ports : ReadinessPorts ι σ)

def requiredSnapshot (updateId receiptId : Sha256Digest) :
    Call CoreUpdateError σ CoreUpdateServiceSnapshotRecord := do
  let stored ← ports.snapshotRecord updateId
  let record ← Call.answer (match stored with
    | some record => .ok record
    | none => .error (.invalidContract "Core service snapshot state is unavailable"))
  Call.answer (validateServiceSnapshot record)
  Call.check (record.updateId = updateId ∧ record.receiptId = receiptId)
    (.invalidContract "Core service snapshot receipt does not match durable state")
  let context ← ports.context
  Call.check (context = record.context)
    (.invalidContract "Core service platform or node role changed during update")
  pure record

/-! ### Rounds -/

def clockError (reason : String) : CoreUpdateError := .provider "readiness clock" reason

def serviceReadinessDeadlineError : CoreUpdateError :=
  .provider "service readiness" "role-appropriate services did not become stably ready"

def now : Call CoreUpdateError (σ × ReadinessLog ι) ℕ :=
  ports.monotonicMilliseconds.noted ReadinessLog.read

def isReady (query : ReadinessQuery ι) : Call CoreUpdateError (σ × ReadinessLog ι) Bool :=
  (ports.serviceIsReady query).noted (ReadinessLog.asked query)

variable (installation : ι) (context : CoreUpdateServiceContext) (deadline : ℕ)

/-- The loop of `readiness_observation` over the services, with the last reading. -/
def observeServices : List CoreUpdateServiceState → ℕ →
    Call CoreUpdateError (σ × ReadinessLog ι) (Bool × ℕ)
  | [], last => pure (true, last)
  | state :: rest, last => do
    Call.check (last < deadline) serviceReadinessDeadlineError
    let mode ← Call.answer (serviceMode context state.service)
    let ready ← isReady ports ⟨state.service, mode, installation, state.wasActive, deadline - last⟩
    let observed ← now ports
    Call.check (last ≤ observed)
      (clockError "monotonic time regressed during service observation")
    Call.check (observed < deadline) serviceReadinessDeadlineError
    if ready then observeServices rest observed else pure (false, observed)

def readinessObservation (services : List CoreUpdateServiceState) (minimumObserved : ℕ) :
    Call CoreUpdateError (σ × ReadinessLog ι) (Bool × ℕ) := do
  Call.right (Call.modify ReadinessLog.round)
  let last ← now ports
  Call.check (minimumObserved ≤ last)
    (clockError "monotonic time regressed before service observation")
  observeServices ports installation context deadline services last

/-- The loop of `verify`: no answer when the fuel is used up. -/
def verifyLoop (policy : CoreUpdateReadinessPolicy) (services : List CoreUpdateServiceState) :
    ℕ → ℕ → ℕ → Call CoreUpdateError (σ × ReadinessLog ι) (Option Unit)
  | 0, _, _ => pure none
  | fuel + 1, consecutive, last => do
    let round ← readinessObservation ports installation context deadline services last
    let consecutive := if round.1 then consecutive + 1 else 0
    if round.1 ∧ policy.stableObservations ≤ consecutive then pure (some ())
    else do
      let observed ← now ports
      Call.check (round.2 ≤ observed)
        (clockError "monotonic time regressed after service observation")
      Call.check (observed < deadline) serviceReadinessDeadlineError
      Call.left (ports.wait (min policy.pollMilliseconds (deadline - observed)))
      let advanced ← now ports
      Call.check (observed < advanced)
        (clockError "monotonic time did not advance after a bounded wait")
      verifyLoop policy services fuel consecutive advanced

def verify (policy : CoreUpdateReadinessPolicy) (fuel : ℕ) (updateId receiptId : Sha256Digest) :
    Call CoreUpdateError (σ × ReadinessLog ι) (Option Unit) := do
  let record ← Call.left (requiredSnapshot ports updateId receiptId)
  let started ← now ports
  Call.check (started + policy.timeoutMilliseconds ≤ u64Max)
    (.invalidContract "Core service readiness deadline overflowed")
  verifyLoop ports installation record.context (started + policy.timeoutMilliseconds) policy
    record.services fuel 0 started

end Verify

/-! ### What a round leaves in the log -/

/-- A service was asked about on the candidate and found ready. -/
def FoundReady (installation : ι) (state : CoreUpdateServiceState)
    (entry : ReadinessQuery ι × Bool) : Prop :=
  entry.1.service = state.service ∧ entry.1.installation = installation ∧
    entry.1.active = state.wasActive ∧ entry.2 = true

/-- A round that asked about every service and found all of them ready. -/
def CompleteRound (installation : ι) (services : List CoreUpdateServiceState)
    (round : Round ι) : Prop :=
  List.Forall₂ (FoundReady installation) services round.reverse

/-- The readings do not decrease from the first to the last. -/
structure Clocked (started : ℕ) (log : ReadinessLog ι) (last : ℕ) : Prop where
  newest : log.readings.head? = some last
  sorted : log.readings.Pairwise (· ≥ ·)
  first : started ∈ log.readings
  since : ∀ t ∈ log.readings, started ≤ t

section Rounds

variable {ports : ReadinessPorts ι σ} {installation : ι} {context : CoreUpdateServiceContext}
  {policy : CoreUpdateReadinessPolicy} {services : List CoreUpdateServiceState} {s : σ}
  {log : ReadinessLog ι} {started last deadline : ℕ}

theorem Clocked.le_last (h : Clocked started log last) {t : ℕ} (ht : t ∈ log.readings) :
    t ≤ last := by
  obtain ⟨before, hlog⟩ := head?_eq_some_iff.mp h.newest
  have hpw := h.sorted
  rw [hlog] at ht hpw
  rcases mem_cons.mp ht with rfl | ht
  · exact le_rfl
  · exact (pairwise_cons.mp hpw).1 t ht

theorem Clocked.read (h : Clocked started log last) {t : ℕ} (hle : last ≤ t) :
    Clocked started (log.read (.ok t)) t where
  newest := rfl
  sorted := pairwise_cons.mpr ⟨fun _ hu => (h.le_last hu).trans hle, h.sorted⟩
  first := mem_cons_of_mem _ h.first
  since u hu := by
    rcases mem_cons.mp hu with rfl | hu
    · exact ((h.since _ h.first).trans (h.le_last h.first)).trans hle
    · exact h.since u hu

theorem now_post {Q : ℕ → σ × ReadinessLog ι → Prop}
    {E : CoreUpdateError → σ × ReadinessLog ι → Prop} (hok : ∀ t u, Q t (u, log.read (.ok t)))
    (herr : ∀ e u, E e (u, log)) : (now ports).Post (s, log) Q E :=
  .noted hok herr

/-- What a round leaves behind, from its first service on. -/
structure Observed (installation : ι) (services : List CoreUpdateServiceState)
    (started deadline last : ℕ) (round : Round ι)
    (rounds : List (Round ι)) (result : Bool × ℕ) (log : ReadinessLog ι) :
    Prop where
  clocked : Clocked started log result.2
  advanced : last ≤ result.2
  rounds : ∃ entries, log.rounds = (entries.reverse ++ round) :: rounds ∧
    (result.1 = true → List.Forall₂ (FoundReady installation) services entries)
  before : last < deadline ∨ services ≠ [] → result.2 < deadline

/-- STEP and RUN over the services: a round that ends has asked until one was not ready. -/
theorem observeServices_post {round : Round ι}
    {rounds : List (Round ι)} (h : Clocked started log last) (hlog : log.rounds = round :: rounds) :
    (observeServices ports installation context deadline services last).Post (s, log)
      (fun result t => Observed installation services started deadline last round rounds result t.2)
      fun _ t => t.2.rounds.length = rounds.length + 1 := by
  induction services generalizing s log last round with
  | nil => exact ⟨h, le_rfl, ⟨[], hlog, fun _ => .nil⟩, fun hlt => hlt.resolve_right (absurd rfl)⟩
  | cons state rest ih =>
    have hlen : log.rounds.length = rounds.length + 1 := by simp [hlog]
    refine .bind (.check (fun _ => ?_) fun _ => hlen)
    refine .bind (.answer (fun mode _ => ?_) fun _ _ => hlen)
    refine .bind (.noted (fun ready u => ?_) fun _ _ => hlen)
    have hask : ∀ q, (log.asked q (.ok ready)).rounds = ((q, ready) :: round) :: rounds := by
      intro q
      simp [ReadinessLog.asked, hlog]
    have hsame : ∀ q, (log.asked q (.ok ready)).readings = log.readings := by
      intro q
      simp [ReadinessLog.asked, hlog]
    refine .bind (now_post (fun observed u => ?_) fun _ _ => by simp [hask])
    refine .bind (.check (fun hle => ?_) fun _ => by simp [ReadinessLog.read, hask])
    refine .bind (.check (fun hlt => ?_) fun _ => by simp [ReadinessLog.read, hask])
    have hclk : ∀ q, Clocked started ((log.asked q (.ok ready)).read (.ok observed)) observed :=
      fun q => Clocked.read ⟨hsame q ▸ h.newest, hsame q ▸ h.sorted, hsame q ▸ h.first,
        hsame q ▸ h.since⟩ (of_decide_eq_true hle)
    refine .ite (fun hready => ?_) fun hready => ?_
    · refine (ih (hclk _) (hask _)).mono (fun result t hobs => ?_) fun _ _ he => he
      obtain ⟨entries, hrounds, hall⟩ := hobs.rounds
      refine ⟨hobs.clocked, (of_decide_eq_true hle).trans hobs.advanced,
        ⟨(_, ready) :: entries, by simpa using hrounds, fun hr => ?_⟩, fun _ => ?_⟩
      · exact .cons ⟨rfl, rfl, rfl, hready⟩ (hall hr)
      · exact hobs.before (.inl (of_decide_eq_true hlt))
    · exact ⟨hclk _, of_decide_eq_true hle, ⟨[(_, ready)], hask _, nofun⟩,
        fun _ => of_decide_eq_true hlt⟩

/-- The log at the head of the loop: the clock has advanced by a millisecond a round, and the newest
    rounds were complete. -/
structure AtHead (installation : ι) (services : List CoreUpdateServiceState) (started timeout : ℕ)
    (consecutive last : ℕ) (log : ReadinessLog ι) : Prop where
  clocked : Clocked started log last
  paced : started + log.rounds.length ≤ last
  bounded : log.rounds.length ≤ timeout
  counted : consecutive ≤ log.rounds.length
  complete : ∀ round ∈ log.rounds.take consecutive, CompleteRound installation services round

/-- The log of a verification that succeeded. -/
structure Verified (installation : ι) (services : List CoreUpdateServiceState)
    (policy : CoreUpdateReadinessPolicy) (log : ReadinessLog ι) : Prop where
  counted : policy.stableObservations ≤ log.rounds.length
  complete : ∀ round ∈ log.rounds.take policy.stableObservations,
    CompleteRound installation services round
  sorted : log.readings.Pairwise (· ≥ ·)
  before : ∃ started ∈ log.readings, ∀ t ∈ log.readings,
    started ≤ t ∧ t < started + policy.timeoutMilliseconds

theorem readinessObservation_post (hne : services ≠ []) (h : Clocked started log last) :
    (readinessObservation ports installation context deadline services last).Post (s, log)
      (fun result t => Observed installation services started deadline last [] log.rounds result t.2)
      fun _ t => t.2.rounds.length = log.rounds.length + 1 := by
  refine .bind (.right (.modify ?_))
  refine .bind (now_post (fun first u => ?_) fun _ _ => rfl)
  refine .bind (.check (fun hle => ?_) fun _ => rfl)
  have hclk : Clocked started log.round last := ⟨h.newest, h.sorted, h.first, h.since⟩
  refine (observeServices_post (hclk.read (of_decide_eq_true hle)) rfl).mono
    (fun result t hobs => ?_) fun _ _ he => he
  exact ⟨hobs.clocked, (of_decide_eq_true hle).trans hobs.advanced, hobs.rounds,
    fun _ => hobs.before (.inr hne)⟩

/-- STEP and RUN over the rounds: the loop ends while the fuel lasts. -/
theorem verifyLoop_post {fuel consecutive : ℕ} (hne : services ≠ [])
    (hat : AtHead installation services started policy.timeoutMilliseconds consecutive last log)
    (hfuel : policy.timeoutMilliseconds < log.rounds.length + fuel) :
    (verifyLoop ports installation context (started + policy.timeoutMilliseconds) policy services
      fuel consecutive last).Post (s, log)
      (fun result t => result = some () ∧
        t.2.rounds.length ≤ policy.timeoutMilliseconds + 1 ∧
        Verified installation services policy t.2)
      fun _ t => t.2.rounds.length ≤ policy.timeoutMilliseconds + 1 := by
  induction fuel generalizing s log consecutive last with
  | zero => exact absurd hat.bounded (by omega)
  | succ fuel ih =>
    have hroom := Nat.succ_le_succ hat.bounded
    refine .seq ((readinessObservation_post hne hat.clocked).mono (fun _ _ hobs => hobs)
      fun _ _ he => he.trans_le hroom) fun round t hobs => ?_
    obtain ⟨entries, hrounds, hall⟩ := hobs.rounds
    have hlen : t.2.rounds.length = log.rounds.length + 1 := by simp [hrounds]
    -- the newest round counts only if it was complete
    have hcomplete : ∀ r ∈ t.2.rounds.take (if round.1 then consecutive + 1 else 0),
        CompleteRound installation services r := by
      split_ifs with hready
      · rw [hrounds, take_succ_cons, forall_mem_cons]
        exact ⟨by simpa [CompleteRound] using hall hready, hat.complete⟩
      · simp
    refine .ite (fun hdone => .pure ⟨rfl, hlen.trans_le hroom, ?_⟩) fun _ => ?_
    · have hlast : round.2 < started + policy.timeoutMilliseconds :=
        hobs.before (.inr hne)
      rw [if_pos hdone.1] at hdone hcomplete
      refine ⟨?_, fun r hr => hcomplete r ?_, hobs.clocked.sorted, started, hobs.clocked.first,
        fun u hu => ⟨hobs.clocked.since u hu, (hobs.clocked.le_last hu).trans_lt hlast⟩⟩
      · have := hat.counted
        omega
      · exact (take_subset_take_left _ hdone.2) hr
    · refine .bind (now_post (s := t.1) (fun observed u => ?_) fun _ _ => hlen.trans_le hroom)
      refine .bind (.check (fun hle => ?_) fun _ => hlen.trans_le hroom)
      refine .bind (.check (fun hlt => ?_) fun _ => hlen.trans_le hroom)
      have hclk := hobs.clocked.read (of_decide_eq_true hle)
      refine .seq ((Call.Keeps.left (Q := (· = t.2.read (.ok observed))) (u, _) rfl).mono
        (fun _ _ h => h) fun _ v hv => hv ▸ hlen.trans_le hroom) fun _ (v, log') hv => ?_
      obtain rfl : log' = t.2.read (.ok observed) := hv
      refine .bind (now_post (fun advanced w => ?_) fun _ _ => hlen.trans_le hroom)
      refine .bind (.check (fun hadv => ?_) fun _ => hlen.trans_le hroom)
      have hpaced := hat.paced
      have hobserved := hobs.advanced
      simp only [decide_eq_true_eq] at hle hlt hadv
      refine ih ⟨hclk.read hadv.le, ?_, ?_, ?_, hcomplete⟩ ?_
      all_goals simp only [ReadinessLog.read, hlen]
      · omega
      · omega
      · have := hat.counted
        split_ifs <;> omega
      · omega

theorem services_ne_nil {record : CoreUpdateServiceSnapshotRecord}
    (h : validateServiceSnapshot record = .ok ()) : record.services ≠ [] := by
  intro hnil
  unfold validateServiceSnapshot expectedServices at h
  rw [hnil] at h
  split_ifs at h with hexpected
  rw [not_not] at hexpected
  split at hexpected <;> cases hexpected

theorem requiredSnapshot_post {updateId receiptId : Sha256Digest} :
    (requiredSnapshot ports updateId receiptId).Post s
      (fun record _ => (ports.snapshotRecord updateId s).1 = .ok (some record) ∧
        record.services ≠ [])
      fun _ _ => True := by
  refine .seq (Call.Post.self.mono (fun _ _ h => h) fun _ _ _ => trivial) fun stored t hstored => ?_
  refine .bind (.answer (fun record hrecord => ?_) fun _ _ => trivial)
  cases stored with
  | none => cases hrecord
  | some stored =>
    cases hrecord
    refine .bind (.answer (fun _ hvalid => ?_) fun _ _ => trivial)
    refine .bind (.check (fun _ => ?_) fun _ => trivial)
    refine .seq (Call.Post.self.mono (fun _ _ h => h) fun _ _ _ => trivial) fun _ _ _ => ?_
    refine .bind (.check (fun _ => ?_) fun _ => trivial)
    exact .pure ⟨congrArg Prod.fst hstored, services_ne_nil hvalid⟩

end Rounds

/-- CORRECT: whatever the clock, the waiter and the services do, a verification ends within one
    round more than the timeout has milliseconds, and it succeeds only after the required number of
    complete rounds in a row over the services of the durable snapshot, with clock readings that do
    not decrease and lie before the deadline. -/
theorem verify_bounded_and_sound (ports : ReadinessPorts ι σ) (policy : CoreUpdateReadinessPolicy)
    (installation : ι) (updateId receiptId : Sha256Digest) (s : σ) (more : ℕ) :
    ∃ answer log, (∃ t, verify ports installation policy
        (policy.timeoutMilliseconds + 1 + more) updateId receiptId (s, {}) = (answer, t, log)) ∧
      answer ≠ .ok none ∧ log.rounds.length ≤ policy.timeoutMilliseconds + 1 ∧
      (answer = .ok (some ()) → ∃ record,
        (ports.snapshotRecord updateId s).1 = .ok (some record) ∧
        Verified installation record.services policy log) := by
  generalize hfuel : policy.timeoutMilliseconds + 1 + more = fuel
  have hpost : (verify ports installation policy fuel updateId receiptId).Post (s, {})
      (fun result t => result = some () ∧
        t.2.rounds.length ≤ policy.timeoutMilliseconds + 1 ∧ ∃ record,
          (ports.snapshotRecord updateId s).1 = .ok (some record) ∧
          Verified installation record.services policy t.2)
      fun _ t => t.2.rounds.length ≤ policy.timeoutMilliseconds + 1 := by
    refine .bind (.left (requiredSnapshot_post.mono (fun record t hrecord => ?_)
      fun _ _ _ => Nat.zero_le _))
    refine .bind (now_post (fun started u => ?_) fun _ _ => Nat.zero_le _)
    refine .bind (.check (fun _ => ?_) fun _ => Nat.zero_le _)
    have hat : AtHead installation record.services started policy.timeoutMilliseconds 0 started
        (ReadinessLog.read (.ok started) {}) :=
      ⟨⟨rfl, by simp [ReadinessLog.read], by simp [ReadinessLog.read],
        by simp [ReadinessLog.read]⟩, le_rfl, Nat.zero_le _, le_rfl, by simp⟩
    refine (verifyLoop_post hrecord.2 hat (by simp [ReadinessLog.read]; omega)).mono
      (fun result t h => ?_) fun _ _ h => h
    exact ⟨h.1, h.2.1, record, hrecord.1, h.2.2⟩
  unfold Call.Post at hpost
  generalize hrun : verify ports installation policy fuel updateId receiptId (s, {}) = outcome
  rw [hrun] at hpost
  obtain ⟨answer | answer, t, log⟩ := outcome
  · exact ⟨.error answer, log, ⟨t, rfl⟩, nofun, hpost, nofun⟩
  · obtain ⟨rfl, hrounds, hverified⟩ := hpost
    exact ⟨.ok (some ()), log, ⟨t, rfl⟩, nofun, hrounds, fun _ => hverified⟩

end LetsInfer.Update
