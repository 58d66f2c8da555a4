import LetsInfer.Schemes.Tables
import LetsInfer.PrefixStore.RecordIo

/-! @src cache/letsinfer_prefix_store/src/ram_tier.rs | name:Resident tier | scheme:cache

    Complete records kept in memory, by path, within a byte budget; the least recently used go
    first. One caller at a time loads a path and the others wait for it. The functions are the
    sections under the tier's lock. -/

namespace LetsInfer.PrefixStore
open Schemes

structure TierState where
  entries : Table Path Blob := ∅
  lru : List Path := []
  loading : Finset Path := ∅
  usedBytes : ℕ := 0

def touchLru (lru : List Path) (key : Path) : List Path := lru.erase key ++ [key]

def TierState.invalidate (tier : TierState) (path : Path) : TierState :=
  match tier.entries.lookup path with
  | none => tier
  | some blob =>
    { tier with
      entries := tier.entries.erase path
      usedBytes := tier.usedBytes - blob.length
      lru := tier.lru.erase path }

/-- Drops the least recently used entries until `incoming` bytes fit. -/
def makeRoom (capacity incoming : ℕ) : List Path → Table Path Blob → ℕ →
    List Path × Table Path Blob × ℕ
  | [], entries, usedBytes => ([], entries, usedBytes)
  | victim :: lru, entries, usedBytes =>
    if usedBytes + incoming ≤ capacity then (victim :: lru, entries, usedBytes)
    else
      match entries.lookup victim with
      | none => makeRoom capacity incoming lru entries usedBytes
      | some removed =>
        makeRoom capacity incoming lru (entries.erase victim) (usedBytes - removed.length)

/-- `insert`: replaces the entry of the path and makes room for it. -/
def TierState.insert (tier : TierState) (capacity : ℕ) (path : Path) (blob : Blob) : TierState :=
  let tier := tier.invalidate path
  let (lru, entries, usedBytes) :=
    makeRoom capacity blob.length tier.lru tier.entries tier.usedBytes
  { tier with
    entries := entries.insert path blob
    lru := lru ++ [path]
    usedBytes := usedBytes + blob.length }

/-- `promote`. -/
def TierState.promote (tier : TierState) (capacity : ℕ) (path : Path) (blob : Blob) : TierState :=
  if capacity = 0 ∨ capacity < blob.length then tier else tier.insert capacity path blob

/-- What the first section of `load` finds. -/
inductive Election where
  | resident (blob : Blob)
  | elected
  | busy
  deriving DecidableEq

/-- The first section of `load`: a hit, the right to load, or a wait. -/
def TierState.elect (tier : TierState) (path : Path) : Election × TierState :=
  match tier.entries.lookup path with
  | some blob => (.resident blob, { tier with lru := touchLru tier.lru path })
  | none =>
    if path ∈ tier.loading then (.busy, tier)
    else (.elected, { tier with loading := Insert.insert path tier.loading })

/-- The last section of `load`, with what the loader brought. -/
def TierState.settle (tier : TierState) (capacity : ℕ) (path : Path) (loaded : Option Blob) :
    TierState :=
  let tier := { tier with loading := tier.loading.erase path }
  match loaded with
  | none => tier
  | some blob => tier.insert capacity path blob

/-! ### Which entries there are -/

variable {tier : TierState} {path other : Path} {blob : Blob}

theorem lookup_makeRoom {cap incoming : ℕ} {lru : List Path} {es : Table Path Blob} {usedBytes : ℕ}
    (h : (makeRoom cap incoming lru es usedBytes).2.1.lookup path = some blob) :
    es.lookup path = some blob := by
  induction lru generalizing es usedBytes with
  | nil => exact h
  | cons victim lru ih =>
    rw [makeRoom] at h
    split_ifs at h
    · exact h
    · split at h
      · exact ih h
      · have hkept := ih h
        exact Table.lookup_of_erase hkept

theorem lookup_invalidate (tier : TierState) (path other : Path) :
    (tier.invalidate path).entries.lookup other =
      if other = path then none else tier.entries.lookup other := by
  unfold TierState.invalidate
  split
  · rename_i hno
    split_ifs with hoth
    · rw [hoth, hno]
    · rfl
  · exact Table.lookup_erase_ite _ _ _

/-- An entry after an insertion is the new one or was there before. -/
theorem lookup_insert {cap : ℕ} {new : Blob}
    (h : (tier.insert cap path new).entries.lookup other = some blob) :
    other = path ∧ blob = new ∨ other ≠ path ∧ tier.entries.lookup other = some blob := by
  simp only [TierState.insert, Table.lookup_insert_ite] at h
  split_ifs at h with hoth
  · exact .inl ⟨hoth, (Option.some.inj h).symm⟩
  · have hkept := lookup_makeRoom h
    rw [lookup_invalidate, if_neg hoth] at hkept
    exact .inr ⟨hoth, hkept⟩

theorem lookup_promote {cap : ℕ} {new : Blob}
    (h : (tier.promote cap path new).entries.lookup other = some blob) :
    other = path ∧ blob = new ∨ tier.entries.lookup other = some blob := by
  unfold TierState.promote at h
  split_ifs at h
  · exact .inr h
  · exact (lookup_insert h).imp_right And.right

theorem lookup_settle {cap : ℕ} {loaded : Option Blob}
    (h : (tier.settle cap path loaded).entries.lookup other = some blob) :
    other = path ∧ loaded = some blob ∨ tier.entries.lookup other = some blob := by
  cases loaded with
  | none => exact .inr h
  | some new =>
    rcases lookup_insert h with ⟨hoth, rfl⟩ | ⟨-, hkept⟩
    · exact .inl ⟨hoth, rfl⟩
    · exact .inr hkept

end LetsInfer.PrefixStore
