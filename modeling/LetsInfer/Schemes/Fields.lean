import LetsInfer.Schemes.Words

/-! @scheme fields | name:Fields of a fixed layout | family:codec

    A record of a fixed layout is the concatenation of its fields, and a reader takes each field at
    its offset: it skips the fields in front of it, and finds it. -/

namespace Schemes

@[ext] structure Bytes (count : ℕ) where
  bytes : List UInt8
  length_eq : bytes.length = count
  deriving DecidableEq

def Bytes.zero (count : ℕ) : Bytes count := ⟨List.replicate count 0, List.length_replicate⟩

def fieldAt (bytes : List UInt8) (offset count : ℕ) : List UInt8 := (bytes.drop offset).take count

theorem fieldAt_skip {block rest : List UInt8} {offset count : ℕ} (h : block.length ≤ offset) :
    fieldAt (block ++ rest) offset count = fieldAt rest (offset - block.length) count := by
  rw [fieldAt, List.drop_append, List.drop_eq_nil_of_le h, List.nil_append, fieldAt]

theorem fieldAt_here {block rest : List UInt8} {count : ℕ} (h : block.length = count) :
    fieldAt (block ++ rest) 0 count = block := by
  subst h
  simp [fieldAt]

theorem leValue_inj {a b : List UInt8} (hlen : a.length = b.length)
    (h : leValue a = leValue b) : a = b := by
  induction a generalizing b with
  | nil => exact (List.length_eq_zero_iff.mp hlen.symm).symm
  | cons x a ih =>
    cases b with
    | nil => cases hlen
    | cons y b =>
      have hx := x.toNat_lt
      have hy := y.toNat_lt
      rw [leValue, leValue] at h
      rw [UInt8.toNat_inj.mp (by omega : x.toNat = y.toNat), ih (Nat.succ.inj hlen) (by omega)]

theorem leValue_lt (bytes : List UInt8) : leValue bytes < 256 ^ bytes.length := by
  induction bytes with
  | nil => simp [leValue]
  | cons byte bytes ih =>
    have hbyte := byte.toNat_lt
    rw [leValue, List.length_cons, Nat.pow_succ']
    omega

end Schemes
