import LetsInfer.Watchdog.Record
import LetsInfer.Schemes.Checks

/-! @src core/watchdog/src/li_watchdog_event_journal.rs | name:Journal slots | scheme:codec

    A slot of the safety-event journal is 64 bytes: all zero when it is empty, and otherwise one
    event record under a marker that says whether its publication is still being prepared or is
    committed. `decode_slot` accepts the zero slot and whole records of the closed vocabulary; a
    slot that a stopped write left between two of those states is decoded only when it is one of
    them after all. -/

namespace LetsInfer.Watchdog
open Schemes List

def watchdogEventMagic : List UInt8 := [76, 73, 87, 69]

def watchdogEventVersion : UInt8 := 1

def watchdogEventRecordBytes : ℕ := 64

def watchdogEventCrcOffset : ℕ := 60

def watchdogEventGenerationBytes : ℕ := 32

def watchdogEventPreparingMarker : UInt8 := 0x5a

def watchdogEventCommittedMarker : UInt8 := 0xa5

def eventContractError : WatchdogError :=
  .invalidContract "Watchdog safety event is outside the native journal contract"

def eventCorruptionError : WatchdogError :=
  .invalidContract "Watchdog safety event journal is corrupt"

inductive EventKind where
  | warning
  | engineExit
  | protectionTrip
  deriving DecidableEq

inductive EventReason where
  | hostMemoryWarning
  | protectedProcessExited
  | cgroupOomKill
  deriving DecidableEq

/-- What tells one event from another. -/
structure EventIdentity where
  kind : EventKind
  reason : EventReason
  severity : UInt8
  generation : Bytes watchdogEventGenerationBytes
  sequence : UInt64
  action : Option SafetyAction
  containmentComplete : Option Bool
  deriving DecidableEq

def EventKind.code : EventKind → UInt8
  | .warning => 1
  | .engineExit => 2
  | .protectionTrip => 3

def EventReason.code : EventReason → UInt8
  | .hostMemoryWarning => 1
  | .protectedProcessExited => 2
  | .cgroupOomKill => 3

def actionCode : Option SafetyAction → UInt8
  | none => 0
  | some .stop => 1
  | some .kill => 2

def containmentCode : Option Bool → UInt8
  | none => 0
  | some false => 1
  | some true => 2

/-- The combinations that the watchdog emits. -/
def EventIdentity.closed (identity : EventIdentity) : Bool :=
  match identity.kind, identity.reason, identity.severity, identity.action,
    identity.containmentComplete with
  | .warning, .hostMemoryWarning, 1, none, none => true
  | .engineExit, .protectedProcessExited, 2, some .stop, some _ => true
  | .protectionTrip, .cgroupOomKill, 3, some .kill, some _ => true
  | _, _, _, _, _ => false

/-- The rules for the fields of each kind. -/
def EventIdentity.validate (identity : EventIdentity) : Except WatchdogError Unit :=
  if !identity.closed ∨ identity.sequence = 0 ∨ !identity.generation.bytes.all isLowerHexByte then
    .error eventContractError
  else .ok ()

def EventKind.ofName : String → Except WatchdogError EventKind
  | "protection.warning" => .ok .warning
  | "engine.exit" => .ok .engineExit
  | "protection.trip" => .ok .protectionTrip
  | _ => .error eventContractError

def EventReason.ofName : String → Except WatchdogError EventReason
  | "host_memory_warning" => .ok .hostMemoryWarning
  | "protected_process_exited" => .ok .protectedProcessExited
  | "cgroup_oom_kill" => .ok .cgroupOomKill
  | _ => .error eventContractError

/-- `SafetyEventIdentity::from_event`. -/
def EventIdentity.fromEvent (event : SafetyEvent) : Except WatchdogError EventIdentity := do
  let kind ← EventKind.ofName event.kind
  let reason ← EventReason.ofName event.reason
  if h : event.generation.length = watchdogEventGenerationBytes then
    if event.sequence = 0 ∨ !event.generation.all isLowerHexByte then throw eventContractError
    let identity : EventIdentity :=
      ⟨kind, reason, event.severity, ⟨event.generation, h⟩, event.sequence, event.action,
        event.containmentComplete⟩
    identity.validate
    return identity
  else throw eventContractError

def EventKind.ofCode : UInt8 → Except WatchdogError EventKind
  | 1 => .ok .warning
  | 2 => .ok .engineExit
  | 3 => .ok .protectionTrip
  | _ => .error eventCorruptionError

def EventReason.ofCode : UInt8 → Except WatchdogError EventReason
  | 1 => .ok .hostMemoryWarning
  | 2 => .ok .protectedProcessExited
  | 3 => .ok .cgroupOomKill
  | _ => .error eventCorruptionError

def actionOfCode : UInt8 → Except WatchdogError (Option SafetyAction)
  | 0 => .ok none
  | 1 => .ok (some .stop)
  | 2 => .ok (some .kill)
  | _ => .error eventCorruptionError

def containmentOfCode : UInt8 → Except WatchdogError (Option Bool)
  | 0 => .ok none
  | 1 => .ok (some false)
  | 2 => .ok (some true)
  | _ => .error eventCorruptionError

/-- Reads an identity back from a record; every failure is a corrupt record. -/
def EventIdentity.fromRecord (record : Bytes watchdogEventRecordBytes) :
    Except WatchdogError EventIdentity := do
  let kind ← EventKind.ofCode (getU8 record.bytes 5)
  let reason ← EventReason.ofCode (getU8 record.bytes 6)
  let action ← actionOfCode (getU8 record.bytes 8)
  let containmentComplete ← containmentOfCode (getU8 record.bytes 9)
  let identity : EventIdentity :=
    ⟨kind, reason, getU8 record.bytes 7,
      getBytes record.bytes 28 watchdogEventGenerationBytes (by rw [record.length_eq]; decide),
      getU64 record.bytes 20, action, containmentComplete⟩
  match identity.validate with
  | .ok () => return identity
  | .error _ => throw eventCorruptionError

/-- An identity under its ordinal. -/
structure EventRecord where
  ordinal : ℕ
  identity : EventIdentity
  deriving DecidableEq

/-- What the 64 bytes of a slot say. -/
inductive EventSlot where
  | empty
  | preparing (record : EventRecord)
  | committed (record : EventRecord)
  deriving DecidableEq

/-- The bytes of a record under its checksum. -/
def eventBody (ordinal : ℕ) (identity : EventIdentity) (marker : UInt8) : List UInt8 :=
  watchdogEventMagic ++
    ([watchdogEventVersion, identity.kind.code, identity.reason.code, identity.severity,
        actionCode identity.action, containmentCode identity.containmentComplete, marker, 0] ++
      (leBytes 8 ordinal ++ (putU64 identity.sequence ++ identity.generation.bytes)))

theorem length_eventBody (ord : ℕ) (idn : EventIdentity) (mk : UInt8) :
    (eventBody ord idn mk).length = watchdogEventCrcOffset := by
  simp [eventBody, watchdogEventMagic, idn.generation.length_eq, watchdogEventCrcOffset,
    watchdogEventGenerationBytes]

/-- The 64 bytes of a record. -/
def encodeRecord (ordinal : ℕ) (identity : EventIdentity) (marker : UInt8) :
    Bytes watchdogEventRecordBytes :=
  ⟨eventBody ordinal identity marker ++ putU32 (watchdogCrc32 (eventBody ordinal identity marker)),
    by rw [length_append, length_eventBody, length_putU32]; rfl⟩

/-- A slot of zeros is empty; any other must be a whole record. -/
def decodeSlot (record : Bytes watchdogEventRecordBytes) : Except WatchdogError EventSlot := do
  if record.bytes.all (· == 0) then return .empty
  let marker := getU8 record.bytes 10
  if marker ≠ watchdogEventPreparingMarker ∧ marker ≠ watchdogEventCommittedMarker then
    throw eventCorruptionError
  let checksum := getU32 record.bytes watchdogEventCrcOffset
  if record.bytes.take 4 ≠ watchdogEventMagic ∨ getU8 record.bytes 4 ≠ watchdogEventVersion ∨
      getU8 record.bytes 11 ≠ 0 ∨
      checksum ≠ watchdogCrc32 (record.bytes.take watchdogEventCrcOffset) then
    throw eventCorruptionError
  let ordinal := (getU64 record.bytes 12).toNat
  if ordinal = 0 then throw eventCorruptionError
  let identity ← EventIdentity.fromRecord record
  if marker = watchdogEventPreparingMarker then return .preparing ⟨ordinal, identity⟩
  else return .committed ⟨ordinal, identity⟩

/-! ### Round trip -/

/-- An identity that the journal stores. -/
def EventIdentity.Valid (identity : EventIdentity) : Prop := identity.validate = .ok ()

variable {idn : EventIdentity} {ord : ℕ}

theorem fromEvent_valid {ev : SafetyEvent} (h : EventIdentity.fromEvent ev = .ok idn) :
    idn.Valid := by
  obtain ⟨kind, -, h⟩ := bind_ok_iff.mp h
  obtain ⟨reason, -, h⟩ := bind_ok_iff.mp h
  split at h
  · obtain ⟨-, h⟩ := throw_if_ok_iff.mp h
    obtain ⟨⟨⟩, hval, h⟩ := bind_ok_iff.mp h
    cases h
    exact hval
  · cases h

theorem encodeRecord_fields (ord : ℕ) (idn : EventIdentity) (mk : UInt8) (hord : ord < u64Bound) :
    (encodeRecord ord idn mk).bytes.take 4 = watchdogEventMagic ∧ getU8
    (encodeRecord ord idn mk).bytes 4 = watchdogEventVersion ∧ getU8
    (encodeRecord ord idn mk).bytes 5 = idn.kind.code ∧ getU8
    (encodeRecord ord idn mk).bytes 6 = idn.reason.code ∧ getU8
    (encodeRecord ord idn mk).bytes 7 = idn.severity ∧ getU8
    (encodeRecord ord idn mk).bytes 8 = actionCode idn.action ∧ getU8
    (encodeRecord ord idn mk).bytes 9 = containmentCode idn.containmentComplete ∧ getU8
    (encodeRecord ord idn mk).bytes 10 = mk ∧ getU8 (encodeRecord ord idn mk).bytes 11 = 0 ∧
    (getU64 (encodeRecord ord idn mk).bytes 12).toNat = ord ∧ getU64
    (encodeRecord ord idn mk).bytes 20 = idn.sequence ∧
    fieldAt (encodeRecord ord idn mk).bytes 28 watchdogEventGenerationBytes =
      idn.generation.bytes := by
  have hgen := idn.generation.length_eq
  have hmag : watchdogEventMagic.length = 4 := rfl
  have hvl : (UInt64.ofNat (leValue (leBytes 8 ord))).toNat = ord := by
    rw [leValue_leBytes, Nat.mod_eq_of_lt (by exact hord), UInt64.toNat_ofNat_of_lt' hord]
  refine ⟨rfl, rfl, rfl, rfl, rfl, rfl, rfl, rfl, rfl, ?_, ?_, ?_⟩
  all_goals
    simp (disch := simp only [length_leBytes, length_putU64, hmag, hgen, length_cons,
        length_nil, Nat.reduceAdd, Nat.reduceLeDiff]) only [encodeRecord, eventBody, getU64,
      append_assoc, fieldAt_skip, fieldAt_here, length_leBytes, length_putU64, hmag,
      length_cons, length_nil, Nat.reduceAdd, Nat.reduceSub, ofNat_leValue_putU64, hvl]

theorem encodeRecord_crc (ord : ℕ) (idn : EventIdentity) (mk : UInt8) :
    (encodeRecord ord idn mk).bytes.take watchdogEventCrcOffset = eventBody ord idn mk ∧
    getU32 (encodeRecord ord idn mk).bytes watchdogEventCrcOffset =
      watchdogCrc32 (eventBody ord idn mk) := by
  have hlen := length_eventBody ord idn mk
  refine ⟨?_, ?_⟩
  · rw [encodeRecord, ← hlen, take_left]
  · rw [encodeRecord, getU32, fieldAt_skip hlen.le, hlen, Nat.sub_self,
      ← append_nil (putU32 _), fieldAt_here (length_putU32 _), ofNat_leValue_putU32]

theorem fromRecord_encode {mk : UInt8} (hord : ord < u64Bound) (hval : idn.Valid) :
    EventIdentity.fromRecord (encodeRecord ord idn mk) = .ok idn := by
  obtain ⟨-, -, hkind, hrea, hsev, hact, hcon, -, -, -, hseq, hgen⟩ :=
    encodeRecord_fields ord idn mk hord
  have hkind' : EventKind.ofCode idn.kind.code = .ok idn.kind := by
    cases idn.kind <;> rfl
  have hrea' : EventReason.ofCode idn.reason.code = .ok idn.reason := by
    cases idn.reason <;> rfl
  have hact' : actionOfCode (actionCode idn.action) = .ok idn.action := by
    rcases idn.action with - | - | - <;> rfl
  have hcon' : containmentOfCode (containmentCode idn.containmentComplete) =
      .ok idn.containmentComplete := by
    rcases idn.containmentComplete with - | - | - <;> rfl
  unfold EventIdentity.fromRecord
  rw [hkind, hkind', ok_bind, hrea, hrea', ok_bind, hact, hact', ok_bind, hcon, hcon', ok_bind]
  simp only [hsev, hseq, getBytes, hgen]
  rw [show idn.validate = .ok () from hval]
  rfl

theorem decodeSlot_encode {mk : UInt8} (hpos : 0 < ord) (hord : ord < u64Bound) (hval : idn.Valid)
    (hmar : mk = watchdogEventPreparingMarker ∨ mk = watchdogEventCommittedMarker) :
    decodeSlot (encodeRecord ord idn mk) =
      .ok (if mk = watchdogEventPreparingMarker then .preparing ⟨ord, idn⟩
        else .committed ⟨ord, idn⟩) := by
  obtain ⟨hmag, hver, -, -, -, -, -, hmark, hpad, hvl, -, -⟩ :=
    encodeRecord_fields ord idn mk hord
  obtain ⟨htake, hcrc⟩ := encodeRecord_crc ord idn mk
  have hnon : ¬((encodeRecord ord idn mk).bytes.all (· == 0)) = true := by
    intro hall
    have := all_eq_true.mp hall 76 mem_cons_self
    exact absurd this (by decide)
  have hkno : ¬(mk ≠ watchdogEventPreparingMarker ∧ mk ≠ watchdogEventCommittedMarker) :=
    fun h => hmar.elim h.1 h.2
  unfold decodeSlot
  rw [if_neg hnon]
  simp only [hmark, hmag, hver, hpad, htake, hcrc, hvl, fromRecord_encode hord hval,
    if_neg hkno, ne_eq, not_true_eq_false, or_self, if_false, hpos.ne', ok_bind, pure_eq_ok]
  split_ifs <;> rfl

theorem decodeSlot_preparing (hpos : 0 < ord) (hord : ord < u64Bound) (hval : idn.Valid) :
    decodeSlot (encodeRecord ord idn watchdogEventPreparingMarker) = .ok (.preparing ⟨ord, idn⟩) :=
  decodeSlot_encode hpos hord hval (.inl rfl)

theorem decodeSlot_committed (hpos : 0 < ord) (hord : ord < u64Bound) (hval : idn.Valid) :
    decodeSlot (encodeRecord ord idn watchdogEventCommittedMarker) = .ok (.committed ⟨ord, idn⟩) :=
  decodeSlot_encode hpos hord hval (.inr rfl)

theorem decodeSlot_zero : decodeSlot (Bytes.zero watchdogEventRecordBytes) = .ok .empty := rfl

end LetsInfer.Watchdog
