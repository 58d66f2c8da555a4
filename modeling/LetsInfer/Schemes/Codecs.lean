import LetsInfer.Schemes.Words

/-! @scheme codecs | name:Codecs | family:codec

    A codec writes a value as bytes and reads it back from the front of a text, leaving the rest.
    Codecs are put together from those of the parts, so that a record of any shape has one. -/

namespace Schemes
open List Option

structure Codec (α : Type) where
  write : α → List UInt8
  read : List UInt8 → Option (α × List UInt8)
  read_write : ∀ a rest, read (write a ++ rest) = some (a, rest)

namespace Codec

variable {α β : Type}

def readAll (c : Codec α) (text : List UInt8) : Option α := (c.read text).map (·.1)

/-- ROUND TRIP: what was written is read back. -/
theorem readAll_write (c : Codec α) (a : α) : c.readAll (c.write a) = some a := by
  have h := c.read_write a []
  rw [append_nil] at h
  rw [readAll, h, map_some]

/-- A value that is determined by one with a codec. -/
def via (c : Codec β) (f : α → β) (g : β → Option α) (h : ∀ a, g (f a) = some a) : Codec α where
  write a := c.write (f a)
  read text := (c.read text).bind fun found => (g found.1).map fun a => (a, found.2)
  read_write a rest := by rw [c.read_write, bind_some, h, map_some]

def byte : Codec UInt8 where
  write b := [b]
  read
    | [] => none
    | b :: rest => some (b, rest)
  read_write _ _ := rfl

def pair (c : Codec α) (d : Codec β) : Codec (α × β) where
  write p := c.write p.1 ++ d.write p.2
  read text := (c.read text).bind fun first =>
    (d.read first.2).map fun second => ((first.1, second.1), second.2)
  read_write p rest := by
    rw [append_assoc, c.read_write, bind_some, d.read_write, map_some]

def option (c : Codec α) : Codec (Option α) where
  write
    | none => [0]
    | some a => 1 :: c.write a
  read
    | [] => none
    | 0 :: rest => some (none, rest)
    | _ :: rest => (c.read rest).map fun found => (some found.1, found.2)
  read_write a rest := by
    cases a with
    | none => rfl
    | some a =>
      show (c.read (c.write a ++ rest)).map _ = _
      rw [c.read_write, map_some]

/-- Elements behind a mark each; `fuel` bounds their number. -/
def readElements (c : Codec α) : ℕ → List UInt8 → Option (List α × List UInt8)
  | 0, _ => none
  | _ + 1, [] => none
  | _ + 1, 0 :: rest => some ([], rest)
  | fuel + 1, _ :: text => (c.read text).bind fun first =>
    (readElements c fuel first.2).map fun others => (first.1 :: others.1, others.2)

def writeElements (c : Codec α) : List α → List UInt8
  | [] => [0]
  | a :: as => 1 :: (c.write a ++ writeElements c as)

theorem length_lt_writeElements (c : Codec α) (as : List α) :
    as.length < (c.writeElements as).length := by
  induction as with
  | nil => exact Nat.zero_lt_one
  | cons a as ih =>
    rw [writeElements, length_cons, length_cons, length_append]
    omega

theorem readElements_write (c : Codec α) (as : List α) (rest : List UInt8) (fuel : ℕ)
    (h : as.length < fuel) : c.readElements fuel (c.writeElements as ++ rest) = some (as, rest) := by
  induction as generalizing fuel with
  | nil =>
    cases fuel with
    | zero => exact absurd h (Nat.not_lt_zero _)
    | succ fuel => rfl
  | cons a as ih =>
    cases fuel with
    | zero => exact absurd h (Nat.not_lt_zero _)
    | succ fuel =>
      rw [writeElements, cons_append, append_assoc]
      show (c.read (c.write a ++ (c.writeElements as ++ rest))).bind _ = _
      rw [c.read_write, bind_some, ih fuel (Nat.lt_of_succ_lt_succ h), map_some]

def list (c : Codec α) : Codec (List α) where
  write := c.writeElements
  read text := c.readElements text.length text
  read_write as rest := by
    refine c.readElements_write as rest _ ?_
    rw [length_append]
    have := c.length_lt_writeElements as
    omega

def natWidth (n : ℕ) : ℕ := n.log2 / 8 + 1

theorem lt_natWidth (n : ℕ) : n < 256 ^ natWidth n := by
  calc n < 2 ^ (n.log2 + 1) := Nat.lt_log2_self
    _ ≤ 2 ^ (8 * natWidth n) := Nat.pow_le_pow_right Nat.two_pos (by rw [natWidth]; omega)
    _ = 256 ^ natWidth n := by rw [Nat.pow_mul]

def nat : Codec ℕ :=
  (list byte).via (fun n => leBytes (natWidth n) n) (fun bytes => some (leValue bytes)) fun n => by
    rw [leValue_leBytes, Nat.mod_eq_of_lt (lt_natWidth n)]

/-- Values of a subtype, written as what they are. -/
def sub (c : Codec α) (p : α → Prop) [DecidablePred p] : Codec { a // p a } :=
  c.via Subtype.val (fun a => if h : p a then some ⟨a, h⟩ else none) fun a => dif_pos a.2

end Codec

end Schemes
