import Mathlib

/-! @scheme texts | name:Texts of lines and numbers | family:codec

    Texts are lists of bytes. A text of lines is split at its separator, whose last occurrence ends
    the last line; a number is written in decimal digits without leading zeros and read back from any
    digits; bytes are written as pairs of hexadecimal digits. Each writer is followed by what the
    reader makes of its output. -/

namespace Schemes
open List

/-- Bytes in the order of their values, and so texts in the lexicographic order of their bytes. -/
instance linearOrderUInt8 : LinearOrder UInt8 where
  le_refl := UInt8.le_refl
  le_trans _ _ _ := UInt8.le_trans
  le_antisymm _ _ := UInt8.le_antisymm
  le_total := UInt8.le_total
  toDecidableLE := inferInstance
  lt_iff_le_not_ge a b := by
    rw [UInt8.not_le]
    exact ⟨fun h => ⟨UInt8.le_of_lt h, h⟩, fun h => h.2⟩

def utf8 (value : String) : List UInt8 := value.toUTF8.data.toList

/-! ### Lines -/

section Lines

variable {α : Type*} [DecidableEq α]

/-- The parts of a text, each ended by the separator; the last one may lack it. -/
def splitTerminator (sep : α) (value : List α) : List (List α) :=
  if (value.splitOn sep).getLast? = some [] then (value.splitOn sep).dropLast
  else value.splitOn sep

def splitOnce (sep : α) : List α → Option (List α × List α)
  | [] => none
  | a :: rest =>
    if a = sep then some ([], rest) else (splitOnce sep rest).map fun (before, after) =>
      (a :: before, after)

def joinTerminated (sep : α) (parts : List (List α)) : List α :=
  (parts.map (· ++ [sep])).flatten

variable {sep : α} {parts : List (List α)}

theorem splitOn_cons_append {part rest : List α} (h : sep ∉ part) :
    (part ++ sep :: rest).splitOn sep = part :: rest.splitOn sep := by
  refine splitOnP_append_cons_of_forall_mem (fun a ha => ?_) sep (by simp) rest
  simpa using fun heq : a = sep => h (heq ▸ ha)

theorem splitOn_joinTerminated (h : ∀ part ∈ parts, sep ∉ part) :
    (joinTerminated sep parts).splitOn sep = parts ++ [[]] := by
  induction parts with
  | nil => simp [joinTerminated]
  | cons part parts ih =>
    have hjoin : joinTerminated sep (part :: parts) = part ++ sep :: joinTerminated sep parts := by
      simp [joinTerminated]
    rw [hjoin, splitOn_cons_append (h part mem_cons_self),
      ih fun part hpart => h part (mem_cons_of_mem _ hpart), cons_append]

/-- READ BACK: lines that are written with their separators are split into themselves. -/
theorem splitTerminator_joinTerminated (h : ∀ part ∈ parts, sep ∉ part) :
    splitTerminator sep (joinTerminated sep parts) = parts := by
  rw [splitTerminator, splitOn_joinTerminated h]
  simp

omit [DecidableEq α] in
theorem length_joinTerminated_le {bound : ℕ} (h : ∀ part ∈ parts, part.length ≤ bound) :
    (joinTerminated sep parts).length ≤ parts.length * (bound + 1) := by
  induction parts with
  | nil => simp [joinTerminated]
  | cons part parts ih =>
    have hpart := h part mem_cons_self
    have hrest := ih fun part hpart => h part (mem_cons_of_mem _ hpart)
    simp only [joinTerminated, map_cons, flatten_cons, length_append,
      length_nil, length_cons, Nat.succ_mul] at hrest ⊢
    omega

def stripReturn (line : List UInt8) : List UInt8 :=
  if line.getLast? = some 13 then line.dropLast else line

/-- The lines of a text: ended by a line feed, or a carriage return and a line feed; a last one may
    have no end. -/
def textLines (value : List UInt8) : List (List UInt8) :=
  (value.splitOn 10).dropLast.map stripReturn ++
    (value.splitOn 10).getLast?.toList.filter (· ≠ [])

theorem stripReturn_of_not_mem {line : List UInt8} (h : (13 : UInt8) ∉ line) :
    stripReturn line = line :=
  if_neg fun hlast => h (mem_of_getLast? hlast)

theorem textLines_joinTerminated {parts : List (List UInt8)}
    (h : ∀ part ∈ parts, (10 : UInt8) ∉ part ∧ (13 : UInt8) ∉ part) :
    textLines (joinTerminated 10 parts) = parts := by
  have hstr : parts.map stripReturn = parts := by
    conv_rhs => rw [← map_id parts]
    exact map_congr_left fun part hpart => stripReturn_of_not_mem (h part hpart).2
  rw [textLines, splitOn_joinTerminated fun part hpart => (h part hpart).1, dropLast_concat, hstr]
  simp

theorem splitOnce_append {before after : List α} (h : sep ∉ before) :
    splitOnce sep (before ++ sep :: after) = some (before, after) := by
  induction before with
  | nil => simp [splitOnce]
  | cons a before ih =>
    have hne : a ≠ sep := fun heq => h (heq ▸ mem_cons_self)
    rw [cons_append, splitOnce, if_neg hne, ih fun hmem => h (mem_cons_of_mem _ hmem)]
    rfl

end Lines

/-! ### Decimal numbers -/

variable {digit n : ℕ} {byte : UInt8}

section Decimal

def digitByte (digit : ℕ) : UInt8 := UInt8.ofNat (48 + digit)

def isAsciiDigit (byte : UInt8) : Bool := 48 ≤ byte ∧ byte ≤ 57

def decimal (n : ℕ) : List UInt8 :=
  if n = 0 then [48] else ((Nat.digits 10 n).map digitByte).reverse

def decimalValue (digits : List UInt8) : ℕ :=
  digits.foldl (fun value byte => 10 * value + (byte.toNat - 48)) 0

theorem toNat_digitByte (h : digit < 10) : (digitByte digit).toNat = 48 + digit := by
  rw [digitByte, UInt8.toNat_ofNat']
  omega

theorem decimalValue_reverse {digits : List ℕ} (h : ∀ digit ∈ digits, digit < 10) :
    decimalValue ((digits.map digitByte).reverse) = Nat.ofDigits 10 digits := by
  rw [decimalValue, foldl_reverse]
  induction digits with
  | nil => rfl
  | cons digit digits ih =>
    have hbyte := toNat_digitByte (h digit mem_cons_self)
    rw [map_cons, foldr_cons, ih fun digit hd => h digit (mem_cons_of_mem _ hd), hbyte,
      Nat.ofDigits_cons]
    omega

/-- READ BACK: a number is read as itself. -/
theorem decimalValue_decimal (n : ℕ) : decimalValue (decimal n) = n := by
  rw [decimal]
  split_ifs with hzero
  · rw [hzero]
    rfl
  · rw [decimalValue_reverse fun digit hd => Nat.digits_lt_base (by decide) hd, Nat.ofDigits_digits]

theorem decimal_ne_nil (n : ℕ) : decimal n ≠ [] := by
  rw [decimal]
  split_ifs with hzero
  · simp
  · simpa using Nat.digits_ne_nil_iff_ne_zero.mpr hzero

theorem isAsciiDigit_digitByte (h : digit < 10) : isAsciiDigit (digitByte digit) := by
  have hbyte := toNat_digitByte h
  simp only [isAsciiDigit, UInt8.le_iff_toNat_le, hbyte, decide_eq_true_eq]
  exact ⟨Nat.le_add_right 48 digit, by change 48 + digit ≤ 57; omega⟩

theorem isAsciiDigit_of_mem_decimal (h : byte ∈ decimal n) : isAsciiDigit byte := by
  rw [decimal] at h
  split_ifs at h
  · obtain rfl := mem_singleton.mp h
    rfl
  · obtain ⟨digit, hdig, rfl⟩ := mem_map.mp (mem_reverse.mp h)
    exact isAsciiDigit_digitByte (Nat.digits_lt_base (by decide) hdig)

theorem head?_decimal_ne (h : n ≠ 0) : (decimal n).head? ≠ some 48 := by
  rw [decimal, if_neg h, head?_reverse, getLast?_map]
  have hne : Nat.digits 10 n ≠ [] := Nat.digits_ne_nil_iff_ne_zero.mpr h
  rw [getLast?_eq_some_getLast hne, Option.map_some]
  have hlt : (Nat.digits 10 n).getLast hne < 10 :=
    Nat.digits_lt_base (by decide) (getLast_mem hne)
  intro heq
  have hbyte := congrArg UInt8.toNat (Option.some.inj heq)
  rw [toNat_digitByte hlt] at hbyte
  have hzero : (48 : UInt8).toNat = 48 := rfl
  exact Nat.getLast_digit_ne_zero 10 h (by omega)

theorem length_decimal_le {k : ℕ} (hk : 0 < k) (h : n < 10 ^ k) : (decimal n).length ≤ k := by
  rw [decimal]
  split_ifs with hzero
  · exact hk
  · rw [length_reverse, length_map]
    exact (Nat.digits_length_le_iff (by decide) n).mpr h

end Decimal

/-! ### Hexadecimal -/

variable {bytes : List UInt8}

section Hexadecimal

def hexDigit (digit : ℕ) : UInt8 := UInt8.ofNat (if digit < 10 then 48 + digit else 87 + digit)

def hexDigitValue (byte : UInt8) : Option ℕ :=
  if 48 ≤ byte ∧ byte ≤ 57 then some (byte.toNat - 48)
  else if 97 ≤ byte ∧ byte ≤ 102 then some (byte.toNat - 87)
  else none

def hexEncode (bytes : List UInt8) : List UInt8 :=
  bytes.flatMap fun byte => [hexDigit (byte.toNat / 16), hexDigit (byte.toNat % 16)]

def hexDecode : List UInt8 → Option (List UInt8)
  | [] => some []
  | [_] => none
  | high :: low :: rest => do
    let high ← hexDigitValue high
    let low ← hexDigitValue low
    let rest ← hexDecode rest
    return UInt8.ofNat (16 * high + low) :: rest

/-- A number in a fixed count of digits, the highest first. -/
def hexWord : ℕ → ℕ → List UInt8
  | 0, _ => []
  | count + 1, n => hexWord count (n / 16) ++ [hexDigit (n % 16)]

/-- The number that hexadecimal digits write; what is no digit counts as zero. -/
def hexValue (digits : List UInt8) : ℕ :=
  digits.foldl (fun value byte => 16 * value + (hexDigitValue byte).getD 0) 0

theorem hexDigitValue_hexDigit (h : digit < 16) : hexDigitValue (hexDigit digit) = some digit := by
  interval_cases digit <;> rfl

theorem hexDecode_hexEncode (bytes : List UInt8) : hexDecode (hexEncode bytes) = some bytes := by
  induction bytes with
  | nil => rfl
  | cons byte bytes ih =>
    have hbd := byte.toNat_lt
    have hhigh := hexDigitValue_hexDigit (show byte.toNat / 16 < 16 by omega)
    have hlow := hexDigitValue_hexDigit (show byte.toNat % 16 < 16 by omega)
    have hjoin : 16 * (byte.toNat / 16) + byte.toNat % 16 = byte.toNat := Nat.div_add_mod _ _
    show hexDecode (_ :: _ :: hexEncode bytes) = _
    simp only [hexDecode, hhigh, hlow, ih, hjoin, Option.bind_eq_bind, Option.bind_some,
      Option.pure_def, UInt8.ofNat_toNat]

theorem length_hexWord (count n : ℕ) : (hexWord count n).length = count := by
  induction count generalizing n with
  | zero => rfl
  | succ count ih => rw [hexWord, length_append, ih, length_singleton]

theorem hexValue_hexWord {count : ℕ} (h : n < 16 ^ count) : hexValue (hexWord count n) = n := by
  induction count generalizing n with
  | zero =>
    have hzero : n = 0 := by simpa using h
    rw [hzero]
    rfl
  | succ count ih =>
    have hhigh : hexValue (hexWord count (n / 16)) = n / 16 :=
      ih (Nat.div_lt_of_lt_mul (by rwa [← pow_succ']))
    have hlow := hexDigitValue_hexDigit (Nat.mod_lt n (by decide : 0 < 16))
    rw [hexWord, hexValue, foldl_append]
    show 16 * hexValue (hexWord count (n / 16)) + _ = n
    rw [hhigh, hlow, Option.getD_some, Nat.div_add_mod]

theorem mem_hexEncode (h : byte ∈ hexEncode bytes) : ∃ digit < 16, byte = hexDigit digit := by
  obtain ⟨source, -, hdig⟩ := mem_flatMap.mp h
  have hbd := source.toNat_lt
  simp only [mem_cons, not_mem_nil, or_false] at hdig
  rcases hdig with rfl | rfl
  · exact ⟨_, by omega, rfl⟩
  · exact ⟨_, Nat.mod_lt _ (by decide), rfl⟩

theorem mem_hexWord {count : ℕ} (h : byte ∈ hexWord count n) :
    ∃ digit < 16, byte = hexDigit digit := by
  induction count generalizing n with
  | zero => cases h
  | succ count ih =>
    rcases mem_append.mp h with h | h
    · exact ih h
    · exact ⟨_, Nat.mod_lt _ (by decide), mem_singleton.mp h⟩

end Hexadecimal

/-! ### Searching -/

section Searching

variable {α : Type*} [DecidableEq α]

def rfind (pattern : List α) : List α → Option ℕ
  | [] => if pattern = [] then some 0 else none
  | a :: rest =>
    match rfind pattern rest with
    | some place => some (place + 1)
    | none => if pattern.isPrefixOf (a :: rest) then some 0 else none

/-- A pattern that stands at the head of a text and nowhere later is found there, whatever comes
    before it. -/
theorem rfind_append {pattern before : List α} {a : α} {rest : List α}
    (hhead : pattern.isPrefixOf (a :: rest)) (hlat : rfind pattern rest = none) :
    rfind pattern (before ++ a :: rest) = some before.length := by
  induction before with
  | nil => simp [rfind, hlat, hhead]
  | cons b before ih => simp [rfind, ih]

theorem rfind_eq_none {a : α} {pattern value : List α} (ha : a ∈ pattern) (h : a ∉ value) :
    rfind pattern value = none := by
  induction value with
  | nil => rw [rfind, if_neg (ne_nil_of_mem ha)]
  | cons b value ih =>
    have hnot : ¬pattern.isPrefixOf (b :: value) = true := fun hpat =>
      h ((List.isPrefixOf_iff_prefix.mp hpat).subset ha)
    rw [rfind, ih fun hmem => h (mem_cons_of_mem _ hmem)]
    simp [hnot]

def stripPrefix (start value : List α) : Option (List α) := start.isPrefixOf? value

theorem stripPrefix_append (start value : List α) :
    stripPrefix start (start ++ value) = some value := by
  simp [stripPrefix]

end Searching

/-! ### UTF-8 -/

section Utf8

/-- How far a decoder is in a character: between two, or before a byte in a range with some more
    bytes after it. -/
inductive Utf8State where
  | start
  | within (low high : UInt8) (more : ℕ)
  deriving DecidableEq

def Utf8State.next : Utf8State → UInt8 → Option Utf8State
  | .start, byte =>
    if byte ≤ 0x7F then some .start
    else if 0xC2 ≤ byte ∧ byte ≤ 0xDF then some (.within 0x80 0xBF 0)
    else if byte = 0xE0 then some (.within 0xA0 0xBF 1)
    else if byte = 0xED then some (.within 0x80 0x9F 1)
    else if 0xE1 ≤ byte ∧ byte ≤ 0xEF then some (.within 0x80 0xBF 1)
    else if byte = 0xF0 then some (.within 0x90 0xBF 2)
    else if 0xF1 ≤ byte ∧ byte ≤ 0xF3 then some (.within 0x80 0xBF 2)
    else if byte = 0xF4 then some (.within 0x80 0x8F 2)
    else none
  | .within low high more, byte =>
    if low ≤ byte ∧ byte ≤ high then
      match more with
      | 0 => some .start
      | more + 1 => some (.within 0x80 0xBF more)
    else none

def isUtf8 (bytes : List UInt8) : Bool := bytes.foldlM Utf8State.next .start = some .start

theorem isUtf8_of_ascii (h : ∀ byte ∈ bytes, byte ≤ 0x7F) : isUtf8 bytes = true := by
  suffices hrun : bytes.foldlM Utf8State.next .start = some .start by simp [isUtf8, hrun]
  induction bytes with
  | nil => rfl
  | cons byte bytes ih =>
    have hnx : Utf8State.start.next byte = some .start := if_pos (h byte mem_cons_self)
    rw [foldlM_cons, hnx]
    exact ih fun byte hbyte => h byte (mem_cons_of_mem _ hbyte)

end Utf8

end Schemes
