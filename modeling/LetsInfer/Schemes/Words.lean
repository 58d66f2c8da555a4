import Mathlib

/-! @scheme words | name:Little-endian words in a byte stream | family:codec

    A word of a fixed width is written as its little-endian bytes, and a stream is read from its
    front. Reading back what was written is one lemma for a word and one for a block of bytes, in
    the form a decoder needs: the stream is what was written followed by anything. -/

namespace Schemes

/-- The `width` low bytes of a number, least significant first. -/
def leBytes : ℕ → ℕ → List UInt8
  | 0, _ => []
  | width + 1, n => UInt8.ofNat n :: leBytes width (n / 256)

def leValue : List UInt8 → ℕ
  | [] => 0
  | byte :: bytes => byte.toNat + 256 * leValue bytes

def takeBytes (count : ℕ) (stream : List UInt8) : Option (List UInt8 × List UInt8) :=
  if count ≤ stream.length then some (stream.take count, stream.drop count) else none

def takeWord (width : ℕ) (stream : List UInt8) : Option (ℕ × List UInt8) :=
  (takeBytes width stream).map fun r => (leValue r.1, r.2)

@[simp] theorem length_leBytes (width n : ℕ) : (leBytes width n).length = width := by
  induction width generalizing n with
  | zero => rfl
  | succ width ih => simp [leBytes, ih]

theorem leValue_leBytes (width n : ℕ) : leValue (leBytes width n) = n % 256 ^ width := by
  induction width generalizing n with
  | zero => simp [leBytes, leValue, Nat.mod_one]
  | succ width ih =>
    rw [leBytes, leValue, ih, Nat.pow_succ', Nat.mod_mul]
    simp

theorem takeBytes_append {count : ℕ} {block : List UInt8} (h : block.length = count)
    (rest : List UInt8) : takeBytes count (block ++ rest) = some (block, rest) := by
  subst h
  simp [takeBytes]

theorem takeWord_append {width n : ℕ} (h : n < 256 ^ width) (rest : List UInt8) :
    takeWord width (leBytes width n ++ rest) = some (n, rest) := by
  rw [takeWord, takeBytes_append (length_leBytes width n), Option.map_some, leValue_leBytes,
    Nat.mod_eq_of_lt h]

end Schemes
