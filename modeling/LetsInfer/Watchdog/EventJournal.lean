import LetsInfer.Watchdog.EventSlots
import LetsInfer.Schemes.Volume
import LetsInfer.Schemes.Ordered
import LetsInfer.Schemes.Runs

/-! @src core/watchdog/src/li_watchdog_event_journal.rs | name:Safety-event journal | scheme:journal

    The journal keeps the newest events in a ring with one slot to spare. To append, `record` clears
    the slot of the next ordinal, writes the record under the preparing marker and writes it again
    under the committed marker, and synchronizes after each of the three writes. Opening the journal
    reads every slot back and accepts a contiguous window of committed records with at most one
    record being prepared after it.

    The file is a volume: what a process reads, and the writes that a crash may still take away. A
    call is given the fault it meets, if any: a read that fails, a write that stops after some of
    its 64 bytes, or a synchronization that fails. A crash inside a call is a fault at that point
    and a crash after it. -/

namespace LetsInfer.Watchdog
open Schemes

def eventCapacityError : WatchdogError :=
  .invalidContract "Watchdog safety event journal capacity is invalid"

def eventPhysicalCapacity (logicalCapacity : ℕ) : Except WatchdogError ℕ :=
  if logicalCapacity + 1 < u64Bound ∧ 2 ≤ logicalCapacity then .ok (logicalCapacity + 1)
  else .error eventCapacityError

def eventFileBytes (logicalCapacity : ℕ) : Except WatchdogError ℕ := do
  let physicalCapacity ← eventPhysicalCapacity logicalCapacity
  if 2 ^ 63 ≤ physicalCapacity * watchdogEventRecordBytes then throw eventCapacityError
  return physicalCapacity * watchdogEventRecordBytes

/-- One slot; what is past the end of the file reads as zero. -/
theorem length_rightpad_block (bs : List UInt8) (slot : ℕ) :
    ((block watchdogEventRecordBytes bs slot).rightpad watchdogEventRecordBytes 0).length =
      watchdogEventRecordBytes := by
  rw [List.length_rightpad, block, List.length_take]
  omega

def readSlot (bytes : List UInt8) (slot : ℕ) : Bytes watchdogEventRecordBytes :=
  ⟨(block watchdogEventRecordBytes bytes slot).rightpad watchdogEventRecordBytes 0,
    length_rightpad_block bytes slot⟩

/-! ### Opening -/

/-- One slot of the scan: the committed records so far and the slot being prepared, if any. -/
def scanSlot (capacity : ℕ) (bytes : List UInt8) (found : List EventRecord × Option (ℕ × ℕ))
    (slot : ℕ) : Except WatchdogError (List EventRecord × Option (ℕ × ℕ)) := do
  match ← decodeSlot (readSlot bytes slot) with
  | .empty => return found
  | .preparing record =>
    if (record.ordinal - 1) % capacity ≠ slot ∨ found.2.isSome then throw eventCorruptionError
    return (found.1, some (slot, record.ordinal))
  | .committed record =>
    if (record.ordinal - 1) % capacity ≠ slot then throw eventCorruptionError
    return (found.1 ++ [record], found.2)

def scanRecords (capacity : ℕ) (bytes : List UInt8) :
    Except WatchdogError (List EventRecord × Option (ℕ × ℕ)) :=
  (List.range capacity).foldlM (scanSlot capacity bytes) ([], none)

/-- The next ordinal after a contiguous window of records with distinct retained identities. -/
def validateRecordSet (logicalCapacity physicalCapacity : ℕ) (records : List EventRecord)
    (preparing : Option (ℕ × ℕ)) : Except WatchdogError ℕ := do
  let maximum := (records.map (·.ordinal)).foldr max 0
  if u64Bound ≤ maximum + 1 then throw eventCorruptionError
  let nextOrdinal := maximum + 1
  if preparing.any fun p => p.1 ≠ (nextOrdinal - 1) % physicalCapacity ∨ p.2 ≠ nextOrdinal then
    throw eventCorruptionError
  if maximum = 0 then
    if records = [] then return nextOrdinal else throw eventCorruptionError
  else
    let committedCount := records.length
    let completeCount := min maximum physicalCapacity
    let interruptedCount := min maximum logicalCapacity
    if committedCount ≠ interruptedCount ∧ (preparing.isSome ∨ committedCount ≠ completeCount) then
      throw eventCorruptionError
    let first := maximum - committedCount + 1
    let ordinals := (records.map (·.ordinal)).toFinset
    if ordinals.card ≠ records.length ∨ ordinals.min ≠ (first : ℕ) ∨
        ordinals.max ≠ (maximum : ℕ) then
      throw eventCorruptionError
    let retainedFirst := maximum - min maximum logicalCapacity + 1
    let retained := records.filter fun record => retainedFirst ≤ record.ordinal
    if (retained.map (·.identity)).toFinset.card ≠ retained.length then throw eventCorruptionError
    return nextOrdinal

/-- The newest identities, up to the logical capacity. -/
def retainedIdentities (records : List (ℕ × EventIdentity)) (logicalCapacity : ℕ) :
    Finset EventIdentity :=
  ((records.reverse.take logicalCapacity).map (·.2)).toFinset

structure Journal where
  logicalCapacity : ℕ
  physicalCapacity : ℕ
  nextOrdinal : ℕ
  records : List (ℕ × EventIdentity)
  identities : Finset EventIdentity
  publicationUncertain : Bool
  deriving DecidableEq

/-- The memory of a journal from the records of its file. -/
def Journal.load (logicalCapacity physicalCapacity : ℕ) (bytes : List UInt8) :
    Except WatchdogError Journal := do
  let (decoded, preparing) ← scanRecords physicalCapacity bytes
  let nextOrdinal ← validateRecordSet logicalCapacity physicalCapacity decoded preparing
  let records := ofEntries (decoded.map fun record => (record.ordinal, record.identity))
  return ⟨logicalCapacity, physicalCapacity, nextOrdinal, records,
    retainedIdentities records logicalCapacity, false⟩

/-- Opens a journal over a file, which is brought to its full extent first. -/
def Journal.withFile (logicalCapacity : ℕ) (bytes : List UInt8) :
    Except WatchdogError (Journal × List UInt8) := do
  let physicalCapacity ← eventPhysicalCapacity logicalCapacity
  let expected ← eventFileBytes logicalCapacity
  if expected < bytes.length then
    throw (storageIoError "safety event journal exceeds its closed capacity")
  let extended := bytes ++ List.replicate (expected - bytes.length) 0
  let journal ← Journal.load logicalCapacity physicalCapacity extended
  return (journal, extended)

/-! ### Recording -/

inductive Publication where
  | clear
  | preparing
  | committed
  deriving DecidableEq

/-- Where a call can be stopped. -/
inductive FaultPoint where
  | scan
  | read
  | settle
  | write (publication : Publication) (count : Fin watchdogEventRecordBytes)
  | sync (publication : Publication)
  deriving DecidableEq

structure Fault where
  point : FaultPoint
  error : WatchdogError
  deriving DecidableEq

/-- The error of a fault at a point. -/
def faultAt (fault : Option Fault) (point : FaultPoint) : Option WatchdogError :=
  match fault with
  | some fault => if fault.point = point then some fault.error else none
  | none => none

/-- Rereads the file into the journal's memory; `publication_uncertain` is the caller's to clear. -/
def Journal.reconstruct (journal : Journal) (bytes : List UInt8) (fault : Option Fault) :
    Except WatchdogError Journal := do
  if let some error := faultAt fault .scan then throw error
  let loaded ← Journal.load journal.logicalCapacity journal.physicalCapacity bytes
  return { loaded with publicationUncertain := journal.publicationUncertain }

structure Append where
  ordinal : ℕ
  identity : EventIdentity
  overwritten : Option ℕ
  previous : Option ℕ
  deriving DecidableEq

inductive Plan where
  | replayed
  | append (append : Append)
  deriving DecidableEq

/-- A journal whose publication was left uncertain is reread first. -/
def Journal.settle (journal : Journal) (bytes : List UInt8) (fault : Option Fault) :
    Except WatchdogError Journal := do
  if journal.publicationUncertain then
    let journal ← journal.reconstruct bytes fault
    return { journal with publicationUncertain := false }
  else return journal

def Journal.slotOf (journal : Journal) (ordinal : ℕ) : ℕ := (ordinal - 1) % journal.physicalCapacity

/-- `record` up to its first write. A committed record of the next ordinal itself makes it reread
    the file and start again; the ordinal is then after every committed record, so that the second
    start is the last one. -/
def Journal.plan : ℕ → Journal → Volume UInt8 → SafetyEvent → Option Fault →
    Journal × Volume UInt8 × Except WatchdogError Plan
  | 0, journal, volume, _, _ => (journal, volume, .error eventCorruptionError)
  | starts + 1, journal, volume, event, fault =>
    match journal.settle volume.view fault with
    | .error error => (journal, volume, .error error)
    | .ok journal =>
      match EventIdentity.fromEvent event with
      | .error error => (journal, volume, .error error)
      | .ok identity =>
        let ordinal := journal.nextOrdinal
        let slot := journal.slotOf ordinal
        let overwritten := (journal.records.map (·.1)).find? fun previous =>
          journal.slotOf previous = slot
        let append := fun previous => Plan.append ⟨ordinal, identity, overwritten, previous⟩
        if identity ∈ journal.identities then (journal, volume, .ok .replayed)
        else if u64Bound ≤ ordinal + 1 then
          (journal, volume,
            .error (.invalidContract "Watchdog safety event journal ordinal overflowed"))
        else
          match faultAt fault .read with
          | some error => (journal, volume, .error error)
          | none =>
            match decodeSlot (readSlot volume.view slot) with
            | .error error => (journal, volume, .error error)
            | .ok .empty => (journal, volume, .ok (append none))
            | .ok (.preparing previous) =>
              if previous.ordinal = ordinal then (journal, volume, .ok (append none))
              else (journal, volume, .error eventCorruptionError)
            | .ok (.committed previous) =>
              if previous.ordinal = ordinal then
                match faultAt fault .settle with
                | some error => (journal, volume, .error error)
                | none =>
                  let volume := volume.sync
                  match journal.reconstruct volume.view fault with
                  | .error error => (journal, volume, .error error)
                  | .ok journal =>
                    if journal.nextOrdinal ≠ ordinal + 1 ∨
                        previous.identity ∉ journal.identities then
                      (journal, volume, .error eventCorruptionError)
                    else if previous.identity = identity then (journal, volume, .ok .replayed)
                    else journal.plan starts volume event fault
              else if previous.ordinal + journal.physicalCapacity = ordinal then
                (journal, volume, .ok (append (some previous.ordinal)))
              else (journal, volume, .error eventCorruptionError)

/-- One write of a publication and its synchronization. -/
def publishSlot (volume : Volume UInt8) (slot : ℕ) (data : Bytes watchdogEventRecordBytes)
    (publication : Publication) (fault : Option Fault) : Volume UInt8 × Except WatchdogError Unit :=
  let offset := slot * watchdogEventRecordBytes
  match fault with
  | some ⟨.write stopped count, error⟩ =>
    if stopped = publication then (volume.write offset (data.bytes.take count), .error error)
    else ((volume.write offset data.bytes).sync, .ok ())
  | some ⟨.sync failed, error⟩ =>
    if failed = publication then (volume.write offset data.bytes, .error error)
    else ((volume.write offset data.bytes).sync, .ok ())
  | _ => ((volume.write offset data.bytes).sync, .ok ())

def Append.data (append : Append) : Publication → Bytes watchdogEventRecordBytes
  | .clear => Bytes.zero watchdogEventRecordBytes
  | .preparing => encodeRecord append.ordinal append.identity watchdogEventPreparingMarker
  | .committed => encodeRecord append.ordinal append.identity watchdogEventCommittedMarker

def eraseOption (ordinal : Option ℕ) (records : List (ℕ × EventIdentity)) :
    List (ℕ × EventIdentity) :=
  match ordinal with
  | some ordinal => eraseKey ordinal records
  | none => records

def Journal.appended (journal : Journal) (append : Append) : Journal :=
  let records := insertKey append.ordinal append.identity
    (eraseOption append.previous (eraseOption append.overwritten journal.records))
  { journal with
    records
    identities := retainedIdentities records journal.logicalCapacity
    nextOrdinal := append.ordinal + 1
    publicationUncertain := false }

/-- The three writes of an append. -/
def Journal.publish (journal : Journal) (volume : Volume UInt8) (append : Append)
    (fault : Option Fault) : Journal × Volume UInt8 × Except WatchdogError Bool :=
  let slot := journal.slotOf append.ordinal
  match publishSlot volume slot (append.data .clear) .clear fault with
  | (volume, .error error) => (journal, volume, .error error)
  | (volume, .ok ()) =>
    match publishSlot volume slot (append.data .preparing) .preparing fault with
    | (volume, .error error) => (journal, volume, .error error)
    | (volume, .ok ()) =>
      match publishSlot volume slot (append.data .committed) .committed fault with
      | (volume, .error error) =>
        ({ journal with publicationUncertain := true }, volume, .error error)
      | (volume, .ok ()) => (journal.appended append, volume, .ok true)

def Journal.record (journal : Journal) (volume : Volume UInt8) (event : SafetyEvent)
    (fault : Option Fault) : Journal × Volume UInt8 × Except WatchdogError Bool :=
  match journal.plan 2 volume event fault with
  | (journal, volume, .error error) => (journal, volume, .error error)
  | (journal, volume, .ok .replayed) => (journal, volume, .ok false)
  | (journal, volume, .ok (.append append)) => journal.publish volume append fault

end LetsInfer.Watchdog
