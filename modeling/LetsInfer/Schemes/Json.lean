import LetsInfer.Schemes.Texts

/-! @scheme json | name:Objects of scalars in JSON | family:codec

    A flat object written in JSON without blanks, its texts escaped as the usual serializer does it.
    Each piece says where it ends, so that a text determines the object it was written from. -/

namespace Schemes
open List

inductive JsonScalar where
  | null
  | string (value : List UInt8)
  | number (value : ℕ)
  deriving DecidableEq

/-- A byte inside a string: quotes, backslashes and control characters are escaped. -/
def escapeByte (byte : UInt8) : List UInt8 :=
  if byte = 34 then [92, 34]
  else if byte = 92 then [92, 92]
  else if byte = 8 then [92, 98]
  else if byte = 9 then [92, 116]
  else if byte = 10 then [92, 110]
  else if byte = 12 then [92, 102]
  else if byte = 13 then [92, 114]
  else if byte < 32 then
    [92, 117, 48, 48, hexDigit (byte.toNat / 16), hexDigit (byte.toNat % 16)]
  else [byte]

def jsonString (value : List UInt8) : List UInt8 := 34 :: (value.flatMap escapeByte ++ [34])

def JsonScalar.write : JsonScalar → List UInt8
  | null => utf8 "null"
  | string value => jsonString value
  | number value => decimal value

def jsonField (field : List UInt8 × JsonScalar) : List UInt8 :=
  jsonString field.1 ++ 58 :: field.2.write

def jsonFields : List (List UInt8 × JsonScalar) → List UInt8
  | [] => [125]
  | [field] => jsonField field ++ [125]
  | field :: next :: rest => jsonField field ++ 44 :: jsonFields (next :: rest)

def jsonObject (fields : List (List UInt8 × JsonScalar)) : List UInt8 := 123 :: jsonFields fields

/-! ### Reading -/

/-- The character that an escape stands for, after its backslash. -/
def unescapeMark : List UInt8 → Option (UInt8 × List UInt8)
  | 34 :: rest => some (34, rest)
  | 92 :: rest => some (92, rest)
  | 98 :: rest => some (8, rest)
  | 116 :: rest => some (9, rest)
  | 110 :: rest => some (10, rest)
  | 102 :: rest => some (12, rest)
  | 114 :: rest => some (13, rest)
  | 117 :: 48 :: 48 :: high :: low :: rest => some (UInt8.ofNat (hexValue [high, low]), rest)
  | _ => none

/-- The first character of the inside of a string. -/
def unescape : List UInt8 → Option (UInt8 × List UInt8)
  | [] => none
  | first :: rest =>
    if first = 34 then none
    else if first = 92 then unescapeMark rest
    else some (first, rest)

theorem unescape_escapeByte (byte : UInt8) (rest : List UInt8) :
    unescape (escapeByte byte ++ rest) = some (byte, rest) := by
  rw [escapeByte]
  split_ifs with h34 h92 h8 h9 h10 h12 h13 h32
  · rw [h34]; rfl
  · rw [h92]; rfl
  · rw [h8]; rfl
  · rw [h9]; rfl
  · rw [h10]; rfl
  · rw [h12]; rfl
  · rw [h13]; rfl
  · have hbd := byte.toNat_lt
    have hhigh := hexDigitValue_hexDigit (show byte.toNat / 16 < 16 by omega)
    have hlow := hexDigitValue_hexDigit (show byte.toNat % 16 < 16 by omega)
    have hvl : hexValue [hexDigit (byte.toNat / 16), hexDigit (byte.toNat % 16)] = byte.toNat := by
      simp only [hexValue, foldl_cons, foldl_nil, hhigh, hlow, Option.getD_some]
      omega
    show some (UInt8.ofNat (hexValue _), rest) = _
    rw [hvl, UInt8.ofNat_toNat]
  · rw [singleton_append, unescape, if_neg h34, if_neg h92]

variable {rest rest' : List UInt8}

/-- A string ends at the first quote that is not escaped. -/
theorem escaped_inj {value value' : List UInt8}
    (h : value.flatMap escapeByte ++ 34 :: rest = value'.flatMap escapeByte ++ 34 :: rest') :
    value = value' ∧ rest = rest' := by
  induction value generalizing value' with
  | nil =>
    cases value' with
    | nil => exact ⟨rfl, (List.cons.inj h).2⟩
    | cons byte value' =>
      have hread := congrArg unescape h
      rw [flatMap_cons, append_assoc, unescape_escapeByte] at hread
      cases hread
  | cons byte value ih =>
    cases value' with
    | nil =>
      have hread := congrArg unescape h
      rw [flatMap_cons, append_assoc, unescape_escapeByte] at hread
      cases hread
    | cons byte' value' =>
      have hread := congrArg unescape h
      rw [flatMap_cons, append_assoc, unescape_escapeByte, flatMap_cons,
        append_assoc, unescape_escapeByte] at hread
      obtain ⟨rfl, hrest⟩ := Prod.mk.inj (Option.some.inj hread)
      obtain ⟨rfl, rfl⟩ := ih hrest
      exact ⟨rfl, rfl⟩

theorem jsonString_inj {value value' : List UInt8}
    (h : jsonString value ++ rest = jsonString value' ++ rest') :
    value = value' ∧ rest = rest' := by
  simp only [jsonString, cons_append, append_assoc, nil_append] at h
  exact escaped_inj (List.cons.inj h).2

/-- A number ends where its digits end. -/
theorem decimal_append_inj {n n' : ℕ} (hrest : ∀ byte ∈ rest.head?, isAsciiDigit byte = false)
    (hrest' : ∀ byte ∈ rest'.head?, isAsciiDigit byte = false)
    (h : decimal n ++ rest = decimal n' ++ rest') : n = n' ∧ rest = rest' := by
  have htake : ∀ (m : ℕ) (tail : List UInt8), (∀ byte ∈ tail.head?, isAsciiDigit byte = false) →
      (decimal m ++ tail).takeWhile isAsciiDigit = decimal m := by
    intro m tail htail
    rw [takeWhile_append_of_pos fun byte hbyte => isAsciiDigit_of_mem_decimal hbyte]
    cases tail with
    | nil => simp
    | cons byte tail => simp [htail byte rfl]
  have hdig := congrArg (List.takeWhile isAsciiDigit) h
  rw [htake n rest hrest, htake n' rest' hrest'] at hdig
  have hn : n = n' := by rw [← decimalValue_decimal n, hdig, decimalValue_decimal]
  subst hn
  exact ⟨rfl, append_cancel_left h⟩

/-- What a scalar starts with tells its kind. -/
theorem JsonScalar.head_write (scalar : JsonScalar) : ∃ byte tail, scalar.write = byte :: tail ∧
    match scalar with
    | null => byte = 110
    | string _ => byte = 34
    | number _ => isAsciiDigit byte = true := by
  cases scalar with
  | null => exact ⟨110, _, rfl, rfl⟩
  | string value => exact ⟨34, _, rfl, rfl⟩
  | number value =>
    obtain ⟨byte, tail, hwri⟩ := exists_cons_of_ne_nil (decimal_ne_nil value)
    exact ⟨byte, tail, hwri, isAsciiDigit_of_mem_decimal (hwri ▸ mem_cons_self)⟩

section

variable (hrest : ∀ byte ∈ rest.head?, isAsciiDigit byte = false)
include hrest

theorem JsonScalar.write_inj {scalar scalar' : JsonScalar}
    (hrest' : ∀ byte ∈ rest'.head?, isAsciiDigit byte = false)
    (h : scalar.write ++ rest = scalar'.write ++ rest') : scalar = scalar' ∧ rest = rest' := by
  obtain ⟨byte, tail, hwri, hkind⟩ := scalar.head_write
  obtain ⟨byte', tail', hwri', hkind'⟩ := scalar'.head_write
  have hbyte : byte = byte' := by
    rw [hwri, hwri'] at h
    exact (List.cons.inj h).1
  subst hbyte
  cases scalar with
  | null =>
    cases scalar' with
    | null => exact ⟨rfl, append_cancel_left h⟩
    | string value' => exact absurd (hkind.symm.trans hkind') (by decide)
    | number value' =>
      subst hkind
      exact absurd (show isAsciiDigit 110 = true from hkind') (by decide)
  | string value =>
    cases scalar' with
    | null => exact absurd (hkind.symm.trans hkind') (by decide)
    | string value' =>
      obtain ⟨rfl, hrest⟩ := jsonString_inj h
      exact ⟨rfl, hrest⟩
    | number value' =>
      subst hkind
      exact absurd (show isAsciiDigit 34 = true from hkind') (by decide)
  | number value =>
    cases scalar' with
    | null =>
      subst hkind'
      exact absurd (show isAsciiDigit 110 = true from hkind) (by decide)
    | string value' =>
      subst hkind'
      exact absurd (show isAsciiDigit 34 = true from hkind) (by decide)
    | number value' =>
      obtain ⟨rfl, hrest⟩ := decimal_append_inj hrest hrest' h
      exact ⟨rfl, hrest⟩

theorem jsonField_inj {field field' : List UInt8 × JsonScalar}
    (hrest' : ∀ byte ∈ rest'.head?, isAsciiDigit byte = false)
    (h : jsonField field ++ rest = jsonField field' ++ rest') : field = field' ∧ rest = rest' := by
  simp only [jsonField, append_assoc, cons_append] at h
  obtain ⟨hkey, h⟩ := jsonString_inj h
  obtain ⟨hsca, hrest⟩ := JsonScalar.write_inj hrest hrest' (List.cons.inj h).2
  exact ⟨Prod.ext hkey hsca, hrest⟩

end

/-- What follows a field is a comma or the closing brace. -/
theorem jsonFields_cons (field : List UInt8 × JsonScalar)
    (fields : List (List UInt8 × JsonScalar)) : ∃ mark tail,
      jsonFields (field :: fields) = jsonField field ++ mark :: tail ∧
      ((mark = 125 ∧ tail = [] ∧ fields = []) ∨ (mark = 44 ∧ tail = jsonFields fields)) := by
  cases fields with
  | nil => exact ⟨125, [], rfl, .inl ⟨rfl, rfl, rfl⟩⟩
  | cons next rest => exact ⟨44, _, rfl, .inr ⟨rfl, rfl⟩⟩

/-- UNIQUE: an object is determined by its text. -/
theorem jsonObject_inj {fields fields' : List (List UInt8 × JsonScalar)}
    (h : jsonObject fields = jsonObject fields') (hlen : fields.length = fields'.length) :
    fields = fields' := by
  have hfds : jsonFields fields = jsonFields fields' := (List.cons.inj h).2
  clear h
  induction fields generalizing fields' with
  | nil =>
    cases fields' with
    | nil => rfl
    | cons field' fields' => cases hlen
  | cons field fields ih =>
    cases fields' with
    | nil => cases hlen
    | cons field' fields' =>
      obtain ⟨mark, tail, heq, hmark⟩ := jsonFields_cons field fields
      obtain ⟨mark', tail', heq', hmark'⟩ := jsonFields_cons field' fields'
      have hdig : ∀ (m : UInt8) (t : List UInt8), m = 125 ∨ m = 44 →
          ∀ byte ∈ (m :: t).head?, isAsciiDigit byte = false := by
        rintro m t (rfl | rfl) byte ⟨⟩ <;> rfl
      rw [heq, heq'] at hfds
      obtain ⟨rfl, hrest⟩ := jsonField_inj (hdig mark tail (hmark.imp And.left And.left))
        (hdig mark' tail' (hmark'.imp And.left And.left)) hfds
      obtain ⟨rfl, rfl⟩ := List.cons.inj hrest
      rcases hmark with ⟨rfl, rfl, rfl⟩ | ⟨rfl, rfl⟩
      · rcases hmark' with ⟨-, -, rfl⟩ | ⟨hcom, -⟩
        · rfl
        · exact absurd hcom (by decide)
      · rcases hmark' with ⟨hbra, -⟩ | ⟨-, htail⟩
        · exact absurd hbra (by decide)
        · rw [ih (Nat.succ.inj hlen) htail]

end Schemes
