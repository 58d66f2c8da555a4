import LetsInfer.Watchdog.Ring
import LetsInfer.Watchdog.Rollup
import LetsInfer.Watchdog.EventJournal

/-! @src core/watchdog/src/li_watchdog_storage.rs | name:Watchdog storage | scheme:store

    The storage keeps samples in three rings, one for each resolution, and safety events in a
    journal. A sample first completes the minute and the quarter hour before it, if it is the first
    of the next ones, and is then written to the raw ring, which commits it. The rollups of the
    minute and the quarter hour that are going on are only in memory and are rebuilt from the raw
    ring when the storage is opened. A call is given the fault it meets, if any. -/

namespace LetsInfer.Watchdog
open Schemes

def watchdogRawIntervalMilliseconds : ℕ := 1000

def watchdogMinuteIntervalMilliseconds : ℕ := 60000

def watchdogQuarterIntervalMilliseconds : ℕ := 900000

structure StorageLayout where
  raw : RingLayout
  minute : RingLayout
  quarter : RingLayout
  deriving DecidableEq

def StorageLayout.new (rawCapacity minuteCapacity quarterCapacity : ℕ) :
    Except WatchdogError StorageLayout := do
  let raw ← RingLayout.new watchdogRawIntervalMilliseconds rawCapacity
  let minute ← RingLayout.new watchdogMinuteIntervalMilliseconds minuteCapacity
  let quarter ← RingLayout.new watchdogQuarterIntervalMilliseconds quarterCapacity
  return ⟨raw, minute, quarter⟩

inductive Resolution where
  | raw
  | minute
  | quarterHour
  deriving DecidableEq

structure Storage where
  raw : Ring
  minute : Ring
  quarter : Ring
  events : Journal
  eventsFile : Volume UInt8
  minuteRollup : Rollup
  quarterRollup : Rollup
  latestSample : Option Sample
  acceptedNextSequence : ℕ
  rawDirty : Bool
  minuteDirty : Bool
  quarterDirty : Bool
  eventsDirty : Bool
  deriving DecidableEq

/-! ### Opening -/

def nextAfter : Option Sample → Except WatchdogError ℕ
  | some sample =>
    if u64Bound ≤ sample.sequence.toNat + 1 then
      .error (.invalidContract "Watchdog retained sequence cannot advance")
    else .ok (sample.sequence.toNat + 1)
  | none => .ok 1

/-- Pushes the retained samples of the bucket that is going on; none may complete it. -/
def pushRetained (rollup : Rollup) (sample : Sample) : Except WatchdogError Rollup :=
  match rollup.push sample with
  | (rollup, none) => .ok rollup
  | (_, some _) =>
    .error (.invalidContract "Watchdog retained raw bucket is internally inconsistent")

def rebuildRollup (raw : Ring) (intervalMilliseconds : ℕ) (latest : Option Sample) :
    Except WatchdogError Rollup := do
  let rollup ← Rollup.new intervalMilliseconds
  match latest with
  | none => return rollup
  | some latest =>
    let latestBucket := latest.unixMilliseconds.toNat / raw.layout.intervalMilliseconds
    let rollupStart := latest.unixMilliseconds.toNat / intervalMilliseconds * intervalMilliseconds
    let rollupFirstBucket := rollupStart / raw.layout.intervalMilliseconds
    let retainedFirstBucket := latestBucket - (raw.layout.capacity - 1)
    let firstBucket := max rollupFirstBucket retainedFirstBucket
    let history ← raw.query (firstBucket * raw.layout.intervalMilliseconds)
      latest.unixMilliseconds.toNat raw.layout.capacity
    history.samples.foldlM pushRetained rollup

/-- The journal's file brought to its extent. -/
def extendFile (file : Volume UInt8) (length : ℕ) : Volume UInt8 :=
  { file with durable := file.durable ++ List.replicate (length - file.durable.length) 0 }

def Storage.open (layout : StorageLayout) (raw minute quarter : List UInt8)
    (eventsFile : Volume UInt8) : Except WatchdogError Storage := do
  let raw ← Ring.withFile layout.raw raw
  let minute ← Ring.withFile layout.minute minute
  let quarter ← Ring.withFile layout.quarter quarter
  let (events, extended) ← Journal.withFile (max layout.raw.capacity 2) eventsFile.view
  let latest := raw.latest
  let acceptedNextSequence ← nextAfter latest
  let minuteRollup ← rebuildRollup raw watchdogMinuteIntervalMilliseconds latest
  let quarterRollup ← rebuildRollup raw watchdogQuarterIntervalMilliseconds latest
  return ⟨raw, minute, quarter, events, extendFile eventsFile extended.length, minuteRollup,
    quarterRollup, latest, acceptedNextSequence, false, false, false, false⟩

/-- A new process over the files of a storage. -/
def Storage.reopen (s : Storage) : Except WatchdogError Storage :=
  Storage.open ⟨s.raw.layout, s.minute.layout, s.quarter.layout⟩ s.raw.file s.minute.file
    s.quarter.file s.eventsFile

/-! ### Recording -/

/-- Where `record_sample` can fail: in the search for a replayed sample, or in a write to one of the
    rings after some of its bytes. -/
inductive SampleFaultPoint where
  | search
  | write (resolution : Resolution) (count : Fin watchdogRecordBytes)
  deriving DecidableEq

structure SampleFault where
  point : SampleFaultPoint
  error : WatchdogError
  deriving DecidableEq

/-- A write to a ring that stops after some bytes. -/
def Ring.writeStopped (ring : Ring) (sample : Sample) (count : ℕ) : Except WatchdogError Ring := do
  let record ← encodeWatchdogRecord sample
  let offset ← ring.bucketOffset (ring.bucket sample)
  return { ring with file := splice ring.file offset (record.take count) }

/-- A write to one of the rings: the ring after it, and the error if it failed. -/
def Ring.writeFaulty (ring : Ring) (resolution : Resolution) (sample : Sample)
    (fault : Option SampleFault) : Ring × Option WatchdogError :=
  match fault with
  | some ⟨.write failing count, error⟩ =>
    if failing = resolution then
      match ring.writeStopped sample count with
      | .ok ring => (ring, some error)
      | .error error => (ring, some error)
    else
      match ring.write sample with
      | .ok ring => (ring, none)
      | .error error => (ring, some error)
  | _ =>
    match ring.write sample with
    | .ok ring => (ring, none)
    | .error error => (ring, some error)

/-- A completed rollup is written, if there is one. -/
def Ring.writeCompleted (ring : Ring) (resolution : Resolution) (completed : Option Sample)
    (fault : Option SampleFault) : Ring × Option WatchdogError :=
  match completed with
  | some completed => ring.writeFaulty resolution completed fault
  | none => (ring, none)

def replayConflict : WatchdogError :=
  .invalidContract "Watchdog sample replay conflicts with retained storage"

/-- A sample that was accepted before: it has to be the one that is retained. -/
def Storage.replaySample (s : Storage) (sample : Sample) (fault : Option SampleFault) :
    Except WatchdogError Unit :=
  match fault with
  | some ⟨.search, error⟩ => .error error
  | _ => if s.raw.findSequence sample.sequence = some sample then .ok () else .error replayConflict

/-- The memory of the storage after its raw ring has the sample. -/
def Storage.accept (s : Storage) (sample : Sample) : Storage × Except WatchdogError Unit :=
  let accepted := { s with
    minuteRollup := (s.minuteRollup.push sample).1
    quarterRollup := (s.quarterRollup.push sample).1
    minuteDirty := s.minuteDirty || (s.minuteRollup.push sample).2.isSome
    quarterDirty := s.quarterDirty || (s.quarterRollup.push sample).2.isSome
    rawDirty := true
    latestSample := some sample }
  if u64Bound ≤ sample.sequence.toNat + 1 then
    (accepted, .error (.invalidContract "Watchdog storage sequence overflowed"))
  else ({ accepted with acceptedNextSequence := sample.sequence.toNat + 1 }, .ok ())

def Storage.recordSample (s : Storage) (sample : Sample) (fault : Option SampleFault) :
    Storage × Except WatchdogError Unit :=
  if sample.sequence.toNat < s.acceptedNextSequence then (s, s.replaySample sample fault)
  else if sample.sequence.toNat ≠ s.acceptedNextSequence then
    (s, .error (.invalidContract "Watchdog sample sequence is not the next storage head"))
  else
    match s.minute.writeCompleted .minute (s.minuteRollup.push sample).2 fault with
    | (minute, some error) => ({ s with minute }, .error error)
    | (minute, none) =>
      match s.quarter.writeCompleted .quarterHour (s.quarterRollup.push sample).2 fault with
      | (quarter, some error) => ({ s with minute, quarter }, .error error)
      | (quarter, none) =>
        match s.raw.writeFaulty .raw sample fault with
        | (raw, some error) => ({ s with minute, quarter, raw }, .error error)
        | (raw, none) => Storage.accept { s with minute, quarter, raw } sample

/-- Where `record_event` can fail: in the search for the sample, or in the journal. -/
inductive EventFault where
  | search (error : WatchdogError)
  | journal (fault : Fault)
  deriving DecidableEq

/-- The sample of an event is the latest, or is found in the raw ring. -/
def Storage.retainsSequence (s : Storage) (sequence : UInt64) : Bool :=
  (s.latestSample.any fun sample => sample.sequence = sequence) ||
    (s.raw.findSequence sequence).isSome

def Storage.recordEvent (s : Storage) (event : SafetyEvent) (fault : Option EventFault) :
    Storage × Except WatchdogError Unit :=
  let searches := !s.latestSample.any fun sample => sample.sequence = event.sequence
  let searchFault := match fault with
    | some (.search error) => if searches then some error else none
    | _ => none
  match searchFault with
  | some error => (s, .error error)
  | none =>
    if s.retainsSequence event.sequence then
      let journalFault := match fault with
        | some (.journal fault) => some fault
        | _ => none
      match s.events.record s.eventsFile event journalFault with
      | (events, eventsFile, .ok recorded) =>
        ({ s with events, eventsFile, eventsDirty := s.eventsDirty || recorded }, .ok ())
      | (events, eventsFile, .error error) => ({ s with events, eventsFile }, .error error)
    else (s, .error (.invalidContract "Watchdog event does not reference a retained sample"))

/-- The files of a flush, in its order. -/
inductive FlushPoint where
  | raw
  | minute
  | quarter
  | events
  deriving DecidableEq

structure FlushFault where
  point : FlushPoint
  error : WatchdogError
  deriving DecidableEq

def Storage.dirty (s : Storage) : FlushPoint → Bool
  | .raw => s.rawDirty
  | .minute => s.minuteDirty
  | .quarter => s.quarterDirty
  | .events => s.eventsDirty

def Storage.flush (s : Storage) (fault : Option FlushFault) : Storage × Except WatchdogError Unit :=
  let clean := { s with rawDirty := false, minuteDirty := false, quarterDirty := false
                        eventsDirty := false
                        eventsFile := if s.eventsDirty then s.eventsFile.sync else s.eventsFile }
  match fault with
  | some fault => if s.dirty fault.point then (s, .error fault.error) else (clean, .ok ())
  | none => (clean, .ok ())

end LetsInfer.Watchdog
