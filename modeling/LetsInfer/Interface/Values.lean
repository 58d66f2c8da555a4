import LetsInfer.Schemes.Scalars

/-! @src core/interface/src/li_value.rs, li_identity.rs | name:Names and identities | scheme:parsing

    The validated texts that the parts of the node pass around. A text is its UTF-8 bytes; a value of
    one of these types is a text that its parser accepts. -/

namespace LetsInfer.Interface
open Schemes List

/-- The bytes of a text. -/
abbrev Octets := List UInt8

/-- The subject that was refused, and why. -/
structure InterfaceError where
  subject : String
  reason : String
  deriving DecidableEq

def maxDisplayNameBytes : ℕ := 128

def maxTechnicalNameBytes : ℕ := 64

def identityLength : ℕ := 32

def isLowerHexByte (byte : UInt8) : Bool := (48 ≤ byte && byte ≤ 57) || (97 ≤ byte && byte ≤ 102)

/-- `is_lower_hex`. -/
def isLowerHex (value : Octets) (length : ℕ) : Bool :=
  value.length == length && value.all isLowerHexByte

/-- `is_bounded_text`. -/
def isBoundedText (value : Octets) (maximumBytes : ℕ) (allowWhitespace : Bool) : Bool :=
  !value.isEmpty && value.length ≤ maximumBytes && isTrimmed value &&
    !(scalars value).any isControl && (allowWhitespace || !(scalars value).any isWhitespace)

def isNameStart (byte : UInt8) : Bool := (97 ≤ byte && byte ≤ 122) || (48 ≤ byte && byte ≤ 57)

/-- `is_technical_name`. -/
def isTechnicalName (value : Octets) : Bool :=
  value.head?.any isNameStart && value.length ≤ maxTechnicalNameBytes &&
    value.tail.all fun byte => isNameStart byte || byte == 46 || byte == 95 || byte == 45

/-- A text that a check accepts. -/
structure Checked (check : Octets → Bool) where
  asStr : Octets
  valid : check asStr = true
  deriving DecidableEq

/-- The parser of a checked text, with the error of its type. -/
def Checked.parse (check : Octets → Bool) (subject reason : String) (value : Octets) :
    Except InterfaceError (Checked check) :=
  if h : check value = true then .ok ⟨value, h⟩ else .error ⟨subject, reason⟩

variable {check : Octets → Bool}

@[ext]
theorem Checked.ext {a b : Checked check} (h : a.asStr = b.asStr) : a = b := by
  cases a
  cases b
  cases h
  rfl

@[simp] theorem Checked.parse_asStr (subject reason : String) (val : Checked check) :
    Checked.parse check subject reason val.asStr = .ok val :=
  dif_pos val.valid

theorem Checked.asStr_injective :
    Function.Injective (Checked.asStr : Checked check → Octets) := fun _ _ => Checked.ext

/-- Checked texts in the order of their bytes. -/
instance linearOrderChecked {check : Octets → Bool} : LinearOrder (Checked check) :=
  LinearOrder.lift' Checked.asStr Checked.asStr_injective

/-- An identity of 32 lowercase hexadecimal digits. -/
abbrev IdentityValue := Checked fun value => isLowerHex value identityLength

def IdentityValue.parse (subject : String) : Octets → Except InterfaceError IdentityValue :=
  Checked.parse _ subject "identity must be exactly 32 lowercase hexadecimal characters"

abbrev ApiKeyId := IdentityValue

def ApiKeyId.parse : Octets → Except InterfaceError ApiKeyId :=
  IdentityValue.parse "API key identity"

abbrev NodeId := IdentityValue

abbrev PlacementGroupId := IdentityValue

abbrev PlacementId := IdentityValue

abbrev InstallationId := Checked fun value => isLowerHex value 64

/-- A Linux boot identity: hexadecimal with dashes at fixed places. -/
def isBootId (value : Octets) : Bool :=
  isBoundedText value 128 false && !(scalars value).any isWhitespace

abbrev BootId := Checked isBootId

/-- A digest in 64 lowercase hexadecimal digits. -/
abbrev Sha256Digest := Checked fun value => isLowerHex value 64

abbrev TechnicalName := Checked isTechnicalName

def TechnicalName.parse : Octets → Except InterfaceError TechnicalName :=
  Checked.parse _ "technical name"
    "name must use 1 to 64 lowercase letters, numbers, dots, underscores, or hyphens"

abbrev LogicalModelName := TechnicalName

abbrev DisplayName := Checked fun value => isBoundedText value maxDisplayNameBytes true

def DisplayName.parse : Octets → Except InterfaceError DisplayName :=
  Checked.parse _ "display name" "name must be canonical, non-empty, and at most 128 bytes"

@[simp] theorem ApiKeyId.parse_asStr (val : ApiKeyId) : ApiKeyId.parse val.asStr = .ok val :=
  Checked.parse_asStr _ _ val

@[simp] theorem TechnicalName.parse_asStr (val : TechnicalName) :
    TechnicalName.parse val.asStr = .ok val := Checked.parse_asStr _ _ val

@[simp] theorem DisplayName.parse_asStr (val : DisplayName) :
    DisplayName.parse val.asStr = .ok val := Checked.parse_asStr _ _ val

/-! ### Lower-case hexadecimal texts -/

variable {val : Octets}

theorem isLowerHexByte_iff {byte : UInt8} : isLowerHexByte byte = true ↔
    (48 ≤ byte.toNat ∧ byte.toNat ≤ 57) ∨ (97 ≤ byte.toNat ∧ byte.toNat ≤ 102) := by
  simp [isLowerHexByte, UInt8.le_iff_toNat_le]

theorem visible_of_isLowerHex {length : ℕ} (h : isLowerHex val length = true) :
    ∀ byte ∈ val, 0x21 ≤ byte ∧ byte < 0x7F := by
  intro byte hbyte
  have hhex := isLowerHexByte_iff.mp (all_eq_true.mp (Bool.and_eq_true_iff.mp h).2 byte hbyte)
  rw [UInt8.le_iff_toNat_le, UInt8.lt_iff_toNat_lt]
  constructor
  · change 33 ≤ byte.toNat
    omega
  · change byte.toNat < 127
    omega

theorem length_of_isLowerHex {length : ℕ} (h : isLowerHex val length = true) :
    val.length = length := beq_iff_eq.mp (Bool.and_eq_true_iff.mp h).1

theorem isLowerHexByte_hexDigit {digit : ℕ} (h : digit < 16) :
    isLowerHexByte (hexDigit digit) = true := by
  interval_cases digit <;> decide

theorem isLowerHex_hexEncode (bs : Octets) : isLowerHex (hexEncode bs) (2 * bs.length) = true := by
  rw [isLowerHex, Bool.and_eq_true_iff, beq_iff_eq, all_eq_true]
  constructor
  · simp only [hexEncode, length_flatMap, length_cons, length_nil, map_const',
      sum_replicate, smul_eq_mul, Nat.zero_add, Nat.reduceAdd, mul_comm]
  · intro byte hbyte
    obtain ⟨digit, hdig, rfl⟩ := mem_hexEncode hbyte
    exact isLowerHexByte_hexDigit hdig

theorem hexDigitValue_of_isLowerHexByte {byte : UInt8} (h : isLowerHexByte byte = true) :
    ∃ digit, hexDigitValue byte = some digit ∧ digit < 16 ∧ hexDigit digit = byte := by
  rcases isLowerHexByte_iff.mp h with hdig | hlet
  · have hrg : 48 ≤ byte ∧ byte ≤ 57 := by
      rwa [UInt8.le_iff_toNat_le, UInt8.le_iff_toNat_le]
    refine ⟨byte.toNat - 48, by rw [hexDigitValue, if_pos hrg], by omega, ?_⟩
    rw [hexDigit, if_pos (by omega), Nat.add_sub_cancel' hdig.1, UInt8.ofNat_toNat]
  · have hrg : ¬ (48 ≤ byte ∧ byte ≤ 57) := by
      rw [UInt8.le_iff_toNat_le, UInt8.le_iff_toNat_le]
      exact fun hdig => absurd hlet.1 (not_le.mpr (hdig.2.trans_lt (by decide)))
    have hrg' : 97 ≤ byte ∧ byte ≤ 102 := by
      rwa [UInt8.le_iff_toNat_le, UInt8.le_iff_toNat_le]
    refine ⟨byte.toNat - 87, by rw [hexDigitValue, if_neg hrg, if_pos hrg'], by omega, ?_⟩
    have hback : 87 + (byte.toNat - 87) = byte.toNat := by omega
    rw [hexDigit, if_neg (by omega), hback, UInt8.ofNat_toNat]

/-- READ BACK: hexadecimal digits in pairs are those of some bytes. -/
theorem hexDecode_of_all {n : ℕ} (hlen : val.length = 2 * n)
    (hall : val.all isLowerHexByte = true) :
    ∃ bs, hexDecode val = some bs ∧ bs.length = n ∧ hexEncode bs = val := by
  induction n generalizing val with
  | zero =>
    obtain rfl := length_eq_zero_iff.mp hlen
    exact ⟨[], rfl, rfl, rfl⟩
  | succ n ih =>
    match val, hlen, hall with
    | high :: low :: rest, hlen, hall =>
      simp only [all_cons, Bool.and_eq_true] at hall
      obtain ⟨hhigh, hlow, hrest⟩ := hall
      obtain ⟨higt, hhig, hhit, hhgh⟩ := hexDigitValue_of_isLowerHexByte hhigh
      obtain ⟨lowDigit, hlwV, hlwL, hlwE⟩ := hexDigitValue_of_isLowerHexByte hlow
      have hres : rest.length = 2 * n := by
        simp only [length_cons] at hlen
        omega
      obtain ⟨bs, hdec, hbs, henc⟩ := ih hres hrest
      have hbyte : (UInt8.ofNat (16 * higt + lowDigit)).toNat = 16 * higt + lowDigit := by
        rw [UInt8.toNat_ofNat']
        omega
      refine ⟨UInt8.ofNat (16 * higt + lowDigit) :: bs, ?_, by simp [hbs], ?_⟩
      · simp only [hexDecode, hhig, hlwV, hdec, Option.bind_eq_bind, Option.bind_some,
          Option.pure_def]
      · have hdiv : (16 * higt + lowDigit) / 16 = higt := by omega
        have hmod : (16 * higt + lowDigit) % 16 = lowDigit := by omega
        show hexDigit (_ / 16) :: hexDigit (_ % 16) :: hexEncode bs = _
        rw [hbyte, hdiv, hmod, hhgh, hlwE, henc]

end LetsInfer.Interface
