import LetsInfer.Schemes.Ordered

/-! @scheme maps | name:Maps that carry their order | family:store

    A map whose entries stand in the order of their keys, the order being part of the map: whatever
    inserts or erases gives a map again. Two maps with the same lookups are the same map, so that an
    argument about a map is one about its lookups. -/

namespace Schemes

/-- Entries with strictly increasing keys. -/
structure SortedMap (κ β : Type*) [LinearOrder κ] where
  entries : List (κ × β)
  ordered : Ordered entries
  deriving DecidableEq

namespace SortedMap

variable {κ β : Type*} [LinearOrder κ]

def empty : SortedMap κ β := ⟨[], List.Pairwise.nil⟩

def lookup (m : SortedMap κ β) (k : κ) : Option β := lookupKey k m.entries

def insert (m : SortedMap κ β) (k : κ) (v : β) : SortedMap κ β :=
  ⟨insertKey k v m.entries, ordered_insertKey m.ordered⟩

def erase (m : SortedMap κ β) (k : κ) : SortedMap κ β :=
  ⟨eraseKey k m.entries, ordered_eraseKey m.ordered⟩

def retain (m : SortedMap κ β) (keep : β → Bool) : SortedMap κ β :=
  ⟨m.entries.filter fun e => keep e.2, m.ordered.filter _⟩

def values (m : SortedMap κ β) : List β := m.entries.map (·.2)

variable {m m' : SortedMap κ β} {k k' : κ} {v : β}

@[simp] theorem lookup_empty (k : κ) : (empty : SortedMap κ β).lookup k = none := rfl

theorem lookup_eq_some : m.lookup k = some v ↔ (k, v) ∈ m.entries := lookupKey_eq_some m.ordered

@[simp] theorem lookup_insert (m : SortedMap κ β) (k k' : κ) (v : β) :
    (m.insert k v).lookup k' = if k' = k then some v else m.lookup k' :=
  lookupKey_insertKey m.ordered k'

@[simp] theorem lookup_erase (m : SortedMap κ β) (k k' : κ) :
    (m.erase k).lookup k' = if k' = k then none else m.lookup k' := by
  refine Option.ext fun v => ?_
  rw [lookup_eq_some]
  split_ifs with hkey
  · simp [erase, mem_eraseKey, hkey]
  · simp [erase, mem_eraseKey, hkey, lookup_eq_some]

theorem lookup_retain {keep : β → Bool} :
    (m.retain keep).lookup k = some v ↔ m.lookup k = some v ∧ keep v = true := by
  rw [lookup_eq_some, lookup_eq_some, retain, List.mem_filter]

theorem mem_values : v ∈ m.values ↔ ∃ k, m.lookup k = some v := by
  simp only [values, List.mem_map, lookup_eq_some]
  exact ⟨fun ⟨e, he, hv⟩ => ⟨e.1, hv ▸ he⟩, fun ⟨k, hk⟩ => ⟨(k, v), hk, rfl⟩⟩

end SortedMap

end Schemes
