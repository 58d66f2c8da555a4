import LetsInfer.Watchdog.Descriptor
import LetsInfer.Watchdog.Manager
import LetsInfer.Schemes.Ordered

/-! @src core/watchdog/src/li_watchdog_linux_protection.rs | name:Linux protection provider | scheme:store

    The provider keeps, for every protected placement, the process it is bound to and the counters
    it last read. One call of `observations` reads the descriptors, takes up those that changed,
    turns the counters into differences and commits the new counters; a call that fails commits
    nothing. What the files and the kernel answer is given for each tick: a descriptor as its text,
    the counters as they were parsed, a process by a number. -/

namespace LetsInfer.Watchdog
open Schemes List

def protectionError (reason : String) : WatchdogError := .provider "Linux protection" reason

structure PressureTotals where
  some : UInt64
  full : UInt64
  deriving DecidableEq

structure CgroupEvents where
  oom : UInt64
  oomKill : UInt64
  oomGroupKill : UInt64
  maximum : UInt64
  deriving DecidableEq

structure ProtectionSlot where
  target : ProtectedEngine
  process : Option ℕ
  pressure : Option PressureTotals
  cgroup : Option CgroupEvents
  deriving DecidableEq

/-- The slots in the order of their names. -/
abbrev ProtectionSlots := List (Text × ProtectionSlot)

/-- What the files, the processes and the kernel answer during one tick, to the calls made for the
    slot of a given name. -/
structure Kernel where
  slots : Except WatchdogError (List Text)
  descriptor : Text → Except WatchdogError (Option Text)
  tripLatched : Text → Except WatchdogError Bool
  bind : Text → ProtectedEngine → Except WatchdogError (Option ℕ)
  processState : Text → ℕ → Except WatchdogError ProcessState
  memoryInput : Except WatchdogError SafetyInput
  pressureTotals : Except WatchdogError (Option PressureTotals)
  cgroupEvents : Text → Text → Except WatchdogError CgroupEvents
  writeAcknowledgement : Text → Except WatchdogError Unit
  writeDisarmed : Text → Except WatchdogError Unit
  writeTrip : Text → Except WatchdogError Unit
  empty : Text → Except WatchdogError Bool

def validSlotName (value : Text) : Bool := isLowerHex value 32

def monotonicDelta (current previous : UInt64) : UInt64 :=
  if previous ≤ current then current - previous else 0

/-! ### Discovering -/

structure Discovery where
  next : ProtectionSlots
  seen : List Text
  changed : List Text

/-- The process of a target that must have one. -/
def bindProcess (kernel : Kernel) (key : Text) (target : ProtectedEngine) :
    Except WatchdogError (Option ℕ) :=
  if target.phase.isProcessBound then kernel.bind key target else .ok none

/-- One slot name of the directory: its descriptor replaces the slot unless it is the same. -/
def discoverSlot (kernel : Kernel) (found : Discovery) (key : Text) :
    Except WatchdogError Discovery := do
  if !validSlotName key ∨ key ∈ found.seen then
    throw (protectionError "protection slot identity is invalid or duplicated")
  let found := { found with seen := key :: found.seen }
  match ← kernel.descriptor key with
  | none => return found
  | some source =>
    let target ← ProtectedEngine.parse source
    if (lookupKey key found.next).any fun slot => slot.target = target then return found
    else
      let process ← bindProcess kernel key target
      let mayAcknowledge := !target.phase.isProcessBound || process.isSome
      return { found with
        next := insertKey key ⟨target, process, none, none⟩ found.next
        changed := if mayAcknowledge then found.changed ++ [key] else found.changed }

/-- The slots after the descriptors are read; an active slot stays without its descriptor. -/
def discoveredSlots (kernel : Kernel) (current : ProtectionSlots) :
    Except WatchdogError (ProtectionSlots × List Text) := do
  let keys ← kernel.slots
  if maximumWatchdogTargets < keys.length then
    throw (protectionError "protection target count exceeded its bound")
  let found ← keys.foldlM (discoverSlot kernel) ⟨current, [], []⟩
  return (found.next.filter fun entry =>
    entry.1 ∈ found.seen ∨ entry.2.target.phase.isProcessBound, found.changed)

def validateProtectionSlots (slots : ProtectionSlots) : Except WatchdogError Unit :=
  if maximumWatchdogTargets < slots.length ∨
      (slots.map (·.2.target.generation)).dedup.length ≠ slots.length then
    .error (protectionError "protection slots are duplicated or exceed their bound")
  else .ok ()

/-! ### Collecting -/

/-- The differences to the counters that the slot had. -/
def safetyOf (memory : SafetyInput) (pressure : Option PressureTotals) (events : CgroupEvents)
    (slot : ProtectionSlot) : SafetyInput :=
  let memory := match pressure, slot.pressure with
    | .some current, .some previous => { memory with
        psiSomeDeltaMicroseconds := monotonicDelta current.some previous.some
        psiFullDeltaMicroseconds := monotonicDelta current.full previous.full }
    | _, _ => memory
  match slot.cgroup with
  | some previous => { memory with
      cgroupOomDelta := monotonicDelta events.oom previous.oom
      cgroupOomKillDelta := monotonicDelta events.oomKill previous.oomKill
      cgroupOomGroupKillDelta := monotonicDelta events.oomGroupKill previous.oomGroupKill
      cgroupMaxDelta := monotonicDelta events.maximum previous.maximum }
  | none => memory

def processStateOf (kernel : Kernel) (entry : Text × ProtectionSlot) :
    Except WatchdogError ProcessState :=
  match entry.2.process with
  | some process => kernel.processState entry.1 process
  | none => .ok .exited

/-- One slot observed: the slot with its new counters, and the observation. -/
def observeSlot (kernel : Kernel) (memory : SafetyInput) (pressure : Option PressureTotals)
    (entry : Text × ProtectionSlot) :
    Except WatchdogError ((Text × ProtectionSlot) × ProtectionObservation) := do
  let slot := entry.2
  let tripLatched ← kernel.tripLatched entry.1
  if slot.target.phase.isProcessBound then
    let processState ← processStateOf kernel entry
    match slot.target.cgroup with
    | none => throw (protectionError "active descriptor has no cgroup identity")
    | some cgroup =>
      let events ← kernel.cgroupEvents entry.1 cgroup
      return ((entry.1, { slot with pressure := pressure.or slot.pressure, cgroup := some events }),
        ⟨slot.target, processState, safetyOf memory pressure events slot, tripLatched⟩)
  else return (entry, ⟨slot.target, .exited, {}, tripLatched⟩)

/-- The counters of the host, which are read only if some slot is active. -/
def hostCounters (kernel : Kernel) (slots : ProtectionSlots) :
    Except WatchdogError (SafetyInput × Option PressureTotals) := do
  if slots.any fun entry => entry.2.target.phase.isProcessBound then
    let memory ← kernel.memoryInput
    let pressure ← kernel.pressureTotals
    return (memory, pressure)
  else return ({}, none)

def collectObservations (kernel : Kernel) (slots : ProtectionSlots) :
    Except WatchdogError (List ((Text × ProtectionSlot) × ProtectionObservation)) := do
  let (memory, pressure) ← hostCounters kernel slots
  slots.mapM (observeSlot kernel memory pressure)

def acknowledgeChanged (kernel : Kernel) (slots : ProtectionSlots) :
    List Text → Except WatchdogError Unit
  | [] => .ok ()
  | key :: changed => do
    if (lookupKey key slots).isNone then
      throw (protectionError "changed protection slot disappeared")
    kernel.writeAcknowledgement key
    acknowledgeChanged kernel slots changed

/-- `observations`: the slots it commits and what it observed. -/
def observations (kernel : Kernel) (current : ProtectionSlots) :
    Except WatchdogError (ProtectionSlots × List ProtectionObservation) := do
  let (slots, changed) ← discoveredSlots kernel current
  validateProtectionSlots slots
  let collected ← collectObservations kernel slots
  acknowledgeChanged kernel (collected.map (·.1)) changed
  return (collected.map (·.1), collected.map (·.2))

/-! ### What an observation finds -/

variable {ent : Text × ProtectionSlot}

section Found

variable {kernel : Kernel} {cur slots : ProtectionSlots} {found next : Discovery}
  {key : Text} {slot : ProtectionSlot}

/-- A name that was not looked at yet leaves the slots as they are, or brings a target that its
    slot does not have. -/
theorem discoverSlot_ok (h : discoverSlot kernel found key = .ok next) :
    key ∉ found.seen ∧ next.seen = key :: found.seen ∧
      (next.next = found.next ∨ ∃ tgt process,
        ¬((lookupKey key found.next).any fun slot => slot.target = tgt) ∧
        next.next = insertKey key ⟨tgt, process, none, none⟩ found.next) := by
  unfold discoverSlot at h
  obtain ⟨hfrh, hread⟩ := throw_if_ok_iff.mp h
  refine ⟨fun hseen => hfrh (.inr hseen), ?_⟩
  obtain ⟨pay, hpay, hread⟩ := bind_ok_iff.mp hread
  cases pay with
  | none =>
    cases hread
    exact ⟨rfl, .inl rfl⟩
  | some source =>
    obtain ⟨tgt, htgt, hread⟩ := bind_ok_iff.mp hread
    split_ifs at hread with hsame
    · cases hread
      exact ⟨rfl, .inl rfl⟩
    · obtain ⟨process, -, hread⟩ := bind_ok_iff.mp hread
      cases hread
      exact ⟨rfl, .inr ⟨tgt, process, hsame, rfl⟩⟩

theorem discoverSlot_ordered (hord : Ordered found.next)
    (h : discoverSlot kernel found key = .ok next) : Ordered next.next := by
  rcases (discoverSlot_ok h).2.2 with heq | ⟨_, _, -, heq⟩
  · rwa [heq]
  · rw [heq]
    exact ordered_insertKey hord

/-- The slot is as it was, or its name was looked at and brought another target. -/
def KeptOrReplaced (key : Text) (slot : ProtectionSlot) (found : Discovery) : Prop :=
  (key, slot) ∈ found.next ∨ key ∈ found.seen ∧
    ∃ other, (key, other) ∈ found.next ∧ other.target ≠ slot.target

/-- STEP: each name is looked at once, and leaves the slots of all other names alone. -/
theorem KeptOrReplaced.discoverSlot {name : Text} (hord : Ordered found.next)
    (hkept : KeptOrReplaced key slot found) (h : discoverSlot kernel found name = .ok next) :
    KeptOrReplaced key slot next := by
  obtain ⟨hfrh, hseen, heq | ⟨tgt, process, hoth, heq⟩⟩ := discoverSlot_ok h
  · rcases hkept with hmem | ⟨hkey, other, hmem, hne⟩
    · exact .inl (heq ▸ hmem)
    · exact .inr ⟨hseen ▸ mem_cons_of_mem _ hkey, other, heq ▸ hmem, hne⟩
  · rcases hkept with hmem | ⟨hkey, other, hmem, hne⟩
    · by_cases hname : name = key
      · subst hname
        rw [(lookupKey_eq_some hord).mpr hmem] at hoth
        refine .inr ⟨hseen ▸ mem_cons_self, _, heq ▸ (mem_insertKey hord).mpr (.inl rfl), ?_⟩
        rintro rfl
        simp at hoth
      · exact .inl (heq ▸ (mem_insertKey hord).mpr (.inr ⟨hmem, Ne.symm hname⟩))
    · have hname : key ≠ name := fun hsame => hfrh (hsame ▸ hkey)
      refine .inr ⟨hseen ▸ mem_cons_of_mem _ hkey, other, ?_, hne⟩
      exact heq ▸ (mem_insertKey hord).mpr (.inr ⟨hmem, hname⟩)

variable {changed : List Text}

theorem discoveredSlots_ok (h : discoveredSlots kernel cur = .ok (slots, changed)) :
    ∃ (keys : List Text) (found : Discovery), keys.foldlM (discoverSlot kernel)
      ⟨cur, [], []⟩ = .ok found ∧ slots = found.next.filter fun ent =>
        ent.1 ∈ found.seen ∨ ent.2.target.phase.isProcessBound := by
  obtain ⟨keys, -, h⟩ := bind_ok_iff.mp h
  obtain ⟨-, h⟩ := throw_if_ok_iff.mp h
  obtain ⟨found, hfold, h⟩ := bind_ok_iff.mp h
  cases h
  exact ⟨keys, found, hfold, rfl⟩

theorem discoveredSlots_ordered (hord : Ordered cur)
    (h : discoveredSlots kernel cur = .ok (slots, changed)) : Ordered slots := by
  obtain ⟨keys, found, hfold, rfl⟩ := discoveredSlots_ok h
  have hfd : Ordered found.next := foldlM_ok_of (fun d : Discovery => Ordered d.next) hfold
    hord fun _ _ _ _ => discoverSlot_ordered
  exact hfd.sublist filter_sublist

/-- RUN: a slot that has the same target before and after was not touched. -/
theorem discoveredSlots_keeps {after : ProtectionSlot} (hord : Ordered cur)
    (hmem : (key, slot) ∈ cur) (h : discoveredSlots kernel cur = .ok (slots, changed))
    (haft : (key, after) ∈ slots) (htgt : after.target = slot.target) : after = slot := by
  obtain ⟨keys, found, hfold, rfl⟩ := discoveredSlots_ok h
  obtain ⟨hfd, hkept⟩ := foldlM_ok_of
    (fun d : Discovery => Ordered d.next ∧ KeptOrReplaced key slot d) hfold
    ⟨hord, .inl hmem⟩ fun _ _ _ _ hinv hst =>
      ⟨discoverSlot_ordered hinv.1 hst, hinv.2.discoverSlot hinv.1 hst⟩
  have hpre := (mem_filter.mp haft).1
  rcases hkept with hsame | ⟨-, other, hoth, hne⟩
  · exact congrArg Prod.snd (hfd.eq_of_key hpre hsame rfl)
  · have heq := hfd.eq_of_key hpre hoth rfl
    exact absurd (congrArg (fun ent => ent.2.target) heq.symm |>.trans htgt) hne

/-- The observation of a slot: nothing but its counters changes. -/
structure Observed (kernel : Kernel) (entry : Text × ProtectionSlot)
    (result : (Text × ProtectionSlot) × ProtectionObservation) : Prop where
  key : result.1.1 = entry.1
  slot_target : result.1.2.target = entry.2.target
  target : result.2.target = entry.2.target
  latched : kernel.tripLatched entry.1 = .ok result.2.tripLatched
  counters : entry.2.target.phase.isProcessBound → ∃ cgroup events memory pressure,
    entry.2.target.cgroup = some cgroup ∧ kernel.cgroupEvents entry.1 cgroup = .ok events ∧
      result.1.2.cgroup = some events ∧ result.2.safety = safetyOf memory pressure events entry.2

variable {memory : SafetyInput} {pressure : Option PressureTotals}

theorem observeSlot_ok {res : (Text × ProtectionSlot) × ProtectionObservation}
    (h : observeSlot kernel memory pressure ent = .ok res) : Observed kernel ent res := by
  obtain ⟨latched, hltd, h⟩ := bind_ok_iff.mp h
  split_ifs at h with hbd
  · obtain ⟨st, -, h⟩ := bind_ok_iff.mp h
    cases hcg : ent.2.target.cgroup with
    | none => simp [hcg] at h
    | some cgroup =>
      rw [hcg] at h
      obtain ⟨evs, hevs, h⟩ := bind_ok_iff.mp h
      cases h
      exact ⟨rfl, rfl, rfl, hltd, fun _ => ⟨cgroup, evs, memory, pressure, hcg, hevs, rfl, rfl⟩⟩
  · cases h
    exact ⟨rfl, rfl, rfl, hltd, fun hno => absurd hno hbd⟩

/-- What a successful call of `observations` did: it observed the slots it had discovered, which
    have distinct generations, one after the other. -/
theorem observations_ok {obs : List ProtectionObservation}
    (h : observations kernel cur = .ok (slots, obs)) :
    ∃ discovered changed collected, discoveredSlots kernel cur = .ok (discovered, changed) ∧
      validateProtectionSlots discovered = .ok () ∧
      List.Forall₂ (Observed kernel) discovered collected ∧
      slots = collected.map (·.1) ∧ obs = collected.map (·.2) := by
  obtain ⟨⟨discovered, changed⟩, hdis, h⟩ := bind_ok_iff.mp h
  obtain ⟨⟨⟩, hval, h⟩ := bind_ok_iff.mp h
  obtain ⟨collected, hcol, h⟩ := bind_ok_iff.mp h
  obtain ⟨⟨⟩, -, h⟩ := bind_ok_iff.mp h
  cases h
  obtain ⟨⟨memory, pressure⟩, -, hcol⟩ := bind_ok_iff.mp hcol
  exact ⟨discovered, changed, collected, hdis, hval,
    (mapM_ok_iff.mp hcol).imp fun _ _ => observeSlot_ok, rfl, rfl⟩

theorem safetyOf_kills {now before : CgroupEvents} (h : slot.cgroup = some before) :
    (safetyOf memory pressure now slot).cgroupOomKillDelta =
        monotonicDelta now.oomKill before.oomKill ∧
      (safetyOf memory pressure now slot).cgroupOomGroupKillDelta =
        monotonicDelta now.oomGroupKill before.oomGroupKill := by
  simp only [safetyOf, h, and_self]

theorem monotonicDelta_ne_zero {now before : UInt64} (h : before < now) :
    monotonicDelta now before ≠ 0 := by
  have hle : before ≤ now := UInt64.le_of_lt h
  rw [monotonicDelta, if_pos hle]
  intro hzero
  rw [UInt64.sub_eq_iff_eq_add, UInt64.zero_add] at hzero
  exact UInt64.lt_irrefl _ (hzero ▸ h)

end Found

/-! ### Calls about one target -/

/-- The name of the only slot with this target. -/
def slotForTarget (slots : ProtectionSlots) (target : ProtectedEngine) :
    Except WatchdogError Text :=
  match slots.filter fun entry => entry.2.target = target with
  | [entry] => .ok entry.1
  | _ => .error (protectionError "protection target is missing or ambiguous")

theorem slotForTarget_ok {slots : ProtectionSlots}
    (hdis : (slots.map (·.2.target.generation)).Nodup) (hmem : ent ∈ slots) :
    slotForTarget slots ent.2.target = .ok ent.1 := by
  have hone : (slots.filter fun other => other.2.target = ent.2.target) = [ent] := by
    refine perm_singleton.mp ?_
    refine (perm_ext_iff_of_nodup (hdis.of_map.filter _) (nodup_singleton ent)).mpr fun other => ?_
    rw [mem_filter, mem_singleton, decide_eq_true_iff]
    constructor
    · rintro ⟨hoth, htgt⟩
      exact inj_on_of_nodup_map hdis hoth hmem (congrArg _ htgt)
    · rintro rfl
      exact ⟨hmem, rfl⟩
  rw [slotForTarget, hone]

def acknowledgeDisarmed (kernel : Kernel) (slots : ProtectionSlots) (target : ProtectedEngine) :
    Except WatchdogError Unit := do
  if target.phase ≠ .disarmed then
    throw (protectionError "only a disarmed descriptor may use the disarm acknowledgement")
  let key ← slotForTarget slots target
  kernel.writeDisarmed key

def latchTrip (kernel : Kernel) (slots : ProtectionSlots) (target : ProtectedEngine)
    (reason : String) : Except WatchdogError Unit := do
  if reason ≠ "protected_process_exited" ∧ reason ≠ "cgroup_oom_kill" then
    throw (protectionError "trip reason is outside the closed vocabulary")
  let key ← slotForTarget slots target
  if target.containerId.isNone then throw (protectionError "trip target has no container identity")
  kernel.writeTrip key

/-- Whether the cgroup of the target is empty in the end; the signals are the kernel's part. -/
def containTarget (kernel : Kernel) (slots : ProtectionSlots) (target : ProtectedEngine)
    (graceMilliseconds : UInt32) : Except WatchdogError Bool := do
  if graceMilliseconds < 1 ∨ 30000 < graceMilliseconds then
    throw (protectionError "containment grace is outside its bound")
  let key ← slotForTarget slots target
  if target.cgroup.isNone then
    throw (protectionError "containment target has no cgroup identity")
  kernel.empty key

end LetsInfer.Watchdog
