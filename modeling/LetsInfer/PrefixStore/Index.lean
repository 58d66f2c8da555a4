import LetsInfer.PrefixStore.RecordIo

/-! @src cache/letsinfer_prefix_store/src/store.rs | name:Index sections | scheme:store

    The index of a prefix store and what its operations do under the state lock. Byte counters are
    64-bit words and wrap as they do in a release build; `underflowed` notes that a subtraction went
    below zero and is read by no operation. A record is indexed under the key hash of its header,
    which is a chained FNV-1a hash of the fingerprint and the tokens. The counters a store reports
    in its statistics and never reads are left out. -/

namespace LetsInfer.PrefixStore
open Schemes

abbrev u64Bound : ℕ := 2 ^ 64

def fnvOffset : UInt64 := 0xcbf29ce484222325

def fnvPrime : UInt64 := 0x100000001b3

def fnv1a (seed : UInt64) (bytes : List UInt8) : UInt64 :=
  bytes.foldl (fun hash byte => (hash ^^^ byte.toUInt64) * fnvPrime) seed

/-- The chained hash over the fingerprint and every token. -/
def keyHash (fingerprint : Fingerprint) (tokens : List UInt32) : UInt64 :=
  tokens.foldl (fun hash token => fnv1a hash (leBytes 4 token.toNat))
    (fnv1a fnvOffset fingerprint.bytes)

structure StoreConfig where
  capacityBytes : ℕ
  ttlSeconds : ℕ
  minimumTokenCount : ℕ
  residentCapacityBytes : ℕ
  capacity_fits : capacityBytes < u64Bound

/-- One indexed record, with the number of the capture that made it. -/
structure RecordMeta where
  header : RecordHeader
  tokens : List UInt32
  path : Path
  fileBytes : ℕ
  lastUsed : ℕ
  activeReaders : ℕ
  capture : ℕ
  deriving DecidableEq

def RecordMeta.hash (record : RecordMeta) : UInt64 := record.header.keyHash

structure IndexState where
  records : List RecordMeta := []
  reservedHashes : Finset UInt64 := ∅
  committedBytes : ℕ := 0
  reservedBytes : ℕ := 0
  underflowed : Bool := false

/-! ### Word arithmetic -/

def addWord (a b : ℕ) : ℕ := (a + b) % u64Bound

def subWord (a b : ℕ) : ℕ := (a + (u64Bound - b % u64Bound)) % u64Bound

def IndexState.uncommit (index : IndexState) (bytes : ℕ) : IndexState :=
  { index with
    committedBytes := subWord index.committedBytes bytes
    underflowed := index.underflowed || index.committedBytes < bytes }

/-- Takes bytes off the committed counter, stopping at zero. -/
def IndexState.uncommitSaturating (index : IndexState) (bytes : ℕ) : IndexState :=
  { index with
    committedBytes := index.committedBytes - bytes
    underflowed := index.underflowed || index.committedBytes < bytes }

/-! ### Reservations -/

def IndexState.get (index : IndexState) (hash : UInt64) : Option RecordMeta :=
  index.records.find? fun record => record.hash = hash

/-- Whether `begin_capture` answers `AlreadyStored`. -/
def IndexState.isStored (index : IndexState) (hash : UInt64) (tokens : List UInt32) : Bool :=
  hash ∈ index.reservedHashes ∨ (index.get hash).any fun record => record.tokens = tokens

/-- The reservation section of `begin_capture`. -/
def IndexState.reserve (index : IndexState) (hash : UInt64) (fileBytes : ℕ) : IndexState :=
  { index with
    reservedBytes := addWord index.reservedBytes fileBytes
    reservedHashes := insert hash index.reservedHashes }

/-- Gives a reservation back: a failed `begin_capture`, `cancel` and the drop of a writer. -/
def IndexState.unreserve (index : IndexState) (hash : UInt64) (fileBytes : ℕ) : IndexState :=
  { index with
    reservedBytes := subWord index.reservedBytes fileBytes
    underflowed := index.underflowed || index.reservedBytes < fileBytes
    reservedHashes := index.reservedHashes.erase hash }

/-- `cancel_reservation`: the same, stopping at zero. -/
def IndexState.cancelReservation (index : IndexState) (hash : UInt64) (fileBytes : ℕ) :
    IndexState :=
  { index with
    reservedBytes := index.reservedBytes - fileBytes
    underflowed := index.underflowed || index.reservedBytes < fileBytes
    reservedHashes := index.reservedHashes.erase hash }

/-! ### Evictions -/

/-- Removes the record of a hash and its bytes. -/
def IndexState.remove (index : IndexState) (record : RecordMeta) : IndexState :=
  { index.uncommit record.fileBytes with
    records := index.records.filter fun other => other.hash ≠ record.hash }

/-- The order of capacity eviction. -/
def RecordMeta.before (left right : RecordMeta) : Bool :=
  left.lastUsed < right.lastUsed ∨ left.lastUsed = right.lastUsed ∧ left.hash < right.hash

/-- The least recently used record without readers. -/
def oldestInactive : List RecordMeta → Option RecordMeta
  | [] => none
  | record :: records =>
    match oldestInactive records with
    | none => if record.activeReaders = 0 then some record else none
    | some best =>
      if record.activeReaders = 0 ∧ ¬best.before record then some record else some best

/-- The loop of `enforce_capacity_for`: the state, the paths given up, and whether nothing more could
    be. Every round removes one record, so the fuel is the number of records. -/
def IndexState.enforce (capacity incoming : ℕ) : ℕ → IndexState →
    IndexState × List Path × Bool
  | fuel, index =>
    let used := addWord (addWord index.committedBytes index.reservedBytes) incoming
    if used ≤ capacity ∨ capacity = 0 then (index, [], false)
    else
      match fuel, oldestInactive index.records with
      | fuel + 1, some victim =>
        let (index, victims, exhausted) := IndexState.enforce capacity incoming fuel
          (index.remove victim)
        (index, victim.path :: victims, exhausted)
      | _, _ => (index, [], true)

def RecordMeta.isExpired (ttl now : ℕ) (record : RecordMeta) : Bool :=
  record.activeReaders = 0 ∧ min (record.lastUsed + ttl) (u64Bound - 1) < now

/-- The section of `reclaim_expired`. -/
def IndexState.reclaim (index : IndexState) (ttl now : ℕ) : IndexState × List Path :=
  let expired := index.records.filter (RecordMeta.isExpired ttl now)
  (expired.foldl IndexState.remove index, expired.map (·.path))

def IndexState.evictForIntegrity (index : IndexState) (hash : UInt64) :
    IndexState × Option Path :=
  match index.get hash with
  | none => (index, none)
  | some record => (index.remove record, some record.path)

/-! ### Publishing and readers -/

/-- The section of `commit_prepared` that indexes its record; also the record it replaced. -/
def IndexState.publish (index : IndexState) (record : RecordMeta) :
    IndexState × Option RecordMeta :=
  let index := { index with
    reservedBytes := index.reservedBytes - record.fileBytes
    underflowed := index.underflowed || index.reservedBytes < record.fileBytes
    reservedHashes := index.reservedHashes.erase record.hash }
  let prior := index.get record.hash
  let index :=
    match prior with
    | none => index
    | some prior =>
      { index.uncommitSaturating prior.fileBytes with
        records := index.records.filter fun other => other.hash ≠ record.hash }
  ({ index with
      committedBytes := addWord index.committedBytes record.fileBytes
      records := record :: index.records }, prior)

def IndexState.update (index : IndexState) (hash : UInt64) (f : RecordMeta → RecordMeta) :
    IndexState :=
  { index with
    records := index.records.map fun record => if record.hash = hash then f record else record }

/-- The candidates of a lookup, longest first. -/
def IndexState.candidates (index : IndexState) (fingerprint : Fingerprint) (tokens : List UInt32)
    (minimum : ℕ) : List (ℕ × UInt64) :=
  ((index.records.filter fun record =>
    record.header.fingerprint = fingerprint ∧ record.header.tokenCount ≤ tokens.length ∧
      minimum ≤ record.header.tokenCount).map fun record =>
        (record.header.tokenCount, record.hash)).insertionSort fun a b => b.1 ≤ a.1

/-- Whether a candidate is an exact prefix. -/
def IndexState.matchesPrefix (index : IndexState) (fingerprint : Fingerprint)
    (tokens : List UInt32) (candidate : ℕ × UInt64) : Bool :=
  keyHash fingerprint (tokens.take candidate.1) = candidate.2 ∧
    (index.get candidate.2).any fun record => record.tokens = tokens.take candidate.1

/-- The section of `longest_prefix`: the record found, pinned by one more reader. -/
def IndexState.longestPrefix (index : IndexState) (fingerprint : Fingerprint)
    (tokens : List UInt32) (minimum now : ℕ) : Option (RecordMeta × IndexState) :=
  match (index.candidates fingerprint tokens minimum).find?
      (index.matchesPrefix fingerprint tokens) with
  | none => none
  | some candidate =>
    match index.get candidate.2 with
    | none => none
    | some record =>
      some (record, index.update candidate.2 fun record =>
        { record with activeReaders := record.activeReaders + 1, lastUsed := now })

/-- The drop of a reader. -/
def IndexState.releaseReader (index : IndexState) (hash : UInt64) : IndexState :=
  index.update hash fun record => { record with activeReaders := record.activeReaders - 1 }

def IndexState.touch (index : IndexState) (hash : UInt64) (now : ℕ) : IndexState :=
  index.update hash fun record => { record with lastUsed := now }

end LetsInfer.PrefixStore
