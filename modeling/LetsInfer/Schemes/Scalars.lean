import LetsInfer.Schemes.Texts

/-! @scheme scalars | name:Characters of a text | family:parsing

    The Unicode scalars that a valid UTF-8 text is made of, and the two classes of them that checks
    on names ask for: control characters and white space. -/

namespace Schemes
open List

/-- One byte after the scalars found so far, the last one first. -/
def scalarNext (found : List ℕ) (byte : UInt8) : List ℕ :=
  if byte < 0x80 then byte.toNat :: found
  else if byte < 0xC0 then
    match found with
    | [] => []
    | last :: rest => (last * 64 + (byte.toNat - 0x80)) :: rest
  else if byte < 0xE0 then (byte.toNat - 0xC0) :: found
  else if byte < 0xF0 then (byte.toNat - 0xE0) :: found
  else (byte.toNat - 0xF0) :: found

def scalars (text : List UInt8) : List ℕ := (text.foldl scalarNext []).reverse

/-- The general category Cc. -/
def isControl (scalar : ℕ) : Bool := scalar < 0x20 || (0x7F ≤ scalar && scalar < 0xA0)

/-- The property White_Space. -/
def isWhitespace (scalar : ℕ) : Bool :=
  (0x09 ≤ scalar && scalar ≤ 0x0D) || (0x2000 ≤ scalar && scalar ≤ 0x200A) ||
    [0x20, 0x85, 0xA0, 0x1680, 0x2028, 0x2029, 0x202F, 0x205F, 0x3000].contains scalar

def isTrimmed (text : List UInt8) : Bool :=
  !(scalars text).head?.any isWhitespace && !(scalars text).getLast?.any isWhitespace

/-- No continuation byte stands at the position. -/
def isCharBoundary (text : List UInt8) (position : ℕ) : Bool :=
  position == 0 || position == text.length ||
    (text[position]?).any fun byte => byte < 0x80 || 0xC0 ≤ byte

theorem foldl_scalarNext_of_ascii {text : List UInt8} (h : ∀ byte ∈ text, byte < 0x80)
    (found : List ℕ) : text.foldl scalarNext found = (text.map UInt8.toNat).reverse ++ found := by
  induction text generalizing found with
  | nil => rfl
  | cons byte text ih =>
    have hbyte : scalarNext found byte = byte.toNat :: found := if_pos (h byte mem_cons_self)
    rw [foldl_cons, hbyte, ih fun b hb => h b (mem_cons_of_mem _ hb), map_cons,
      reverse_cons, append_assoc, singleton_append]

theorem scalars_of_ascii {text : List UInt8} (h : ∀ byte ∈ text, byte < 0x80) :
    scalars text = text.map UInt8.toNat := by
  rw [scalars, foldl_scalarNext_of_ascii h, append_nil, reverse_reverse]

theorem plain_of_visible {text : List UInt8} (h : ∀ byte ∈ text, 0x21 ≤ byte ∧ byte < 0x7F) :
    isTrimmed text = true ∧ (scalars text).any isControl = false := by
  have hscl : scalars text = text.map UInt8.toNat :=
    scalars_of_ascii fun byte hbyte => UInt8.lt_trans (h byte hbyte).2 (by decide)
  have hvis : ∀ scalar ∈ scalars text, 0x21 ≤ scalar ∧ scalar < 0x7F := by
    intro scalar hsca
    rw [hscl] at hsca
    obtain ⟨byte, hbyte, rfl⟩ := mem_map.mp hsca
    exact ⟨UInt8.le_iff_toNat_le.mp (h byte hbyte).1, UInt8.lt_iff_toNat_lt.mp (h byte hbyte).2⟩
  have hspa : ∀ scalar ∈ scalars text, isWhitespace scalar = false := by
    intro scalar hsca
    have := hvis scalar hsca
    simp only [isWhitespace, Bool.or_eq_false_iff, Bool.and_eq_false_iff, decide_eq_false_iff_not,
      contains_cons, contains_nil, beq_eq_false_iff_ne, and_true]
    omega
  constructor
  · rw [isTrimmed, Bool.and_eq_true, Bool.not_eq_true', Bool.not_eq_true', Option.any_eq_false,
      Option.any_eq_false]
    exact ⟨fun scalar hhead => by simp [hspa scalar (mem_of_head? hhead)],
      fun scalar hlast => by simp [hspa scalar (mem_of_getLast? hlast)]⟩
  · rw [any_eq_false]
    intro scalar hsca
    have := hvis scalar hsca
    simp only [isControl, Bool.or_eq_true, decide_eq_true_eq, Bool.and_eq_true]
    omega

end Schemes
