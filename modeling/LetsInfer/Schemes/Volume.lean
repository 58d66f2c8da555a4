import Mathlib

/-! @scheme volume | name:A file with unsynchronized writes | family:storage

    A volume is the bytes that survive a crash and the writes since the last synchronization, in
    order. A reader sees all of them; after a crash any of them may be missing, each as a whole. A
    volume is read in blocks of one width: a write inside a block changes that block and no other. -/

namespace Schemes
open List

variable {α : Type*}

def splice (bytes : List α) (offset : ℕ) (data : List α) : List α :=
  bytes.take offset ++ (data ++ bytes.drop (offset + data.length))

def block (width : ℕ) (bytes : List α) (index : ℕ) : List α :=
  (bytes.drop (index * width)).take width

@[simp] theorem splice_nil (bytes : List α) (offset : ℕ) : splice bytes offset [] = bytes := by
  simp [splice]

variable {bytes data : List α} {width index : ℕ}

theorem length_splice {offset : ℕ} (h : offset + data.length ≤ bytes.length) :
    (splice bytes offset data).length = bytes.length := by
  simp only [splice, length_append, length_take, length_drop]
  omega

section

variable (h : index * width + width ≤ bytes.length)
include h

theorem length_block : (block width bytes index).length = width := by
  simp only [block, length_take, length_drop]
  omega

theorem block_splice_self (hdata : data.length ≤ width) :
    block width (splice bytes (index * width) data) index =
      data ++ (block width bytes index).drop data.length := by
  have htake : (bytes.take (index * width)).length = index * width := by
    rw [length_take]
    omega
  have hdrop : (splice bytes (index * width) data).drop (index * width) =
      data ++ bytes.drop (index * width + data.length) := by
    rw [splice, drop_append, htake, drop_eq_nil_of_le (by omega), Nat.sub_self,
      nil_append, drop_zero]
  rw [block, hdrop, List.take_append, take_of_length_le hdata, block, drop_take, drop_drop]

theorem block_splice_ne {other : ℕ} (hdata : data.length ≤ width) (hne : other ≠ index) :
    block width (splice bytes (index * width) data) other = block width bytes other := by
  have htake : (bytes.take (index * width)).length = index * width := by
    rw [length_take]
    omega
  rcases Nat.lt_or_gt_of_ne hne with hlt | hgt
  · -- a block before the write is inside the part kept in front of it
    have hle : other * width + width ≤ index * width := by
      have := Nat.mul_le_mul_right width hlt
      rwa [Nat.succ_mul] at this
    rw [block, splice, drop_append_of_le_length (by omega),
      take_append_of_le_length (by rw [length_drop]; omega), drop_take, take_take,
      Nat.min_eq_left (by omega), block]
  · have hle : index * width + width ≤ other * width := by
      have := Nat.mul_le_mul_right width hgt
      rwa [Nat.succ_mul] at this
    have hskip : (splice bytes (index * width) data).drop (other * width) =
        bytes.drop (other * width) := by
      rw [splice, drop_append, drop_eq_nil_of_le (by omega), nil_append, htake,
        drop_append, drop_eq_nil_of_le (by omega), nil_append, drop_drop]
      congr 1
      omega
    rw [block, hskip, block]

end

/-! ### Volumes -/

structure Write (α : Type*) where
  offset : ℕ
  data : List α
  deriving DecidableEq

def applyWrites (bytes : List α) (writes : List (Write α)) : List α :=
  writes.foldl (fun bytes write => splice bytes write.offset write.data) bytes

structure Volume (α : Type*) where
  durable : List α
  pending : List (Write α)
  deriving DecidableEq

namespace Volume

def ofBytes (bytes : List α) : Volume α := ⟨bytes, []⟩

def view (volume : Volume α) : List α := applyWrites volume.durable volume.pending

def write (volume : Volume α) (offset : ℕ) (data : List α) : Volume α :=
  { volume with pending := volume.pending ++ [⟨offset, data⟩] }

def sync (volume : Volume α) : Volume α := ofBytes volume.view

/-- The bytes a crash can leave: each write since the last synchronization is there or is not. -/
def Image (volume : Volume α) (bytes : List α) : Prop :=
  ∃ kept, kept.Sublist volume.pending ∧ bytes = applyWrites volume.durable kept

/-- The bytes a crash leaves when exactly the marked writes are kept. -/
def crash (volume : Volume α) (kept : List Bool) : List α :=
  applyWrites volume.durable (((volume.pending.zip kept).filter (·.2)).map (·.1))

@[simp] theorem view_ofBytes (bytes : List α) : (ofBytes bytes).view = bytes := rfl

section

variable (volume : Volume α)
include volume

@[simp] theorem durable_write (offset : ℕ) (data : List α) :
    (volume.write offset data).durable = volume.durable := rfl

@[simp] theorem view_write (offset : ℕ) (data : List α) :
    (volume.write offset data).view = splice volume.view offset data := by
  simp [view, write, applyWrites]

@[simp] theorem durable_sync : volume.sync.durable = volume.view := rfl

@[simp] theorem view_sync : volume.sync.view = volume.view := rfl

@[simp] theorem pending_sync : volume.sync.pending = [] := rfl

end

theorem marked_sublist (writes : List (Write α)) (kept : List Bool) :
    (((writes.zip kept).filter (·.2)).map (·.1)).Sublist writes := by
  induction writes generalizing kept with
  | nil => simp
  | cons w writes ih =>
    cases kept with
    | nil => simp
    | cons mark kept =>
      cases mark with
      | true => simpa using ih kept
      | false => simpa using (ih kept).cons w

theorem image_crash (volume : Volume α) (kept : List Bool) : volume.Image (volume.crash kept) :=
  ⟨_, marked_sublist _ _, rfl⟩

theorem image_view (volume : Volume α) : volume.Image volume.view :=
  ⟨_, List.Sublist.refl _, rfl⟩

@[simp] theorem image_ofBytes {bytes image : List α} :
    (ofBytes bytes).Image image ↔ image = bytes := by
  constructor
  · rintro ⟨kept, hkept, rfl⟩
    obtain rfl := sublist_nil.mp hkept
    rfl
  · rintro rfl
    exact ⟨[], List.Sublist.refl _, rfl⟩

@[simp] theorem image_sync {volume : Volume α} {bytes : List α} :
    volume.sync.Image bytes ↔ bytes = volume.view := image_ofBytes

theorem image_write {volume : Volume α} {offset : ℕ} {data bytes : List α} :
    (volume.write offset data).Image bytes ↔
      volume.Image bytes ∨ ∃ image, volume.Image image ∧ bytes = splice image offset data := by
  constructor
  · rintro ⟨kept, hkept, rfl⟩
    obtain ⟨before, last, rfl, hbef, hlast⟩ := sublist_append_iff.mp hkept
    rcases sublist_singleton.mp hlast with rfl | rfl
    · exact .inl ⟨before, hbef, by rw [append_nil]; rfl⟩
    · exact .inr ⟨_, ⟨before, hbef, rfl⟩, by simp [applyWrites]⟩
  · rintro (⟨kept, hkept, rfl⟩ | ⟨image, ⟨kept, hkept, rfl⟩, rfl⟩)
    · exact ⟨kept, hkept.trans (sublist_append_left _ _), rfl⟩
    · exact ⟨kept ++ [⟨offset, data⟩], hkept.append (List.Sublist.refl _), by simp [applyWrites]⟩

end Volume

end Schemes
