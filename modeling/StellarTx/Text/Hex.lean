/-
# Hexadecimal text

Bytes are written as two lower-case hexadecimal digits each.  Reading takes digits of either case
and refuses an odd number of digits or any other character.  Main statement: `decode?_encode`.
-/

namespace StellarTx.Text.Hex

/-- The digit for a value below 16, in lower case. -/
def digit (n : Nat) : Char :=
  Nat.digitChar n

/-- The value of a hexadecimal digit of either case. -/
def digitValue? (c : Char) : Option Nat :=
  if '0' ≤ c ∧ c ≤ '9' then some (c.toNat - '0'.toNat)
  else if 'a' ≤ c ∧ c ≤ 'f' then some (c.toNat - 'a'.toNat + 10)
  else if 'A' ≤ c ∧ c ≤ 'F' then some (c.toNat - 'A'.toNat + 10)
  else none

/-- The two digits of a byte. -/
def byteDigits (byte : UInt8) : List Char :=
  [digit (byte.toNat / 16), digit (byte.toNat % 16)]

/-- The digits of a byte string. -/
def encodeChars (bytes : List UInt8) : List Char :=
  bytes.flatMap byteDigits

/-- Bytes as lower-case hexadecimal text. -/
def encode (bytes : List UInt8) : String :=
  String.ofList (encodeChars bytes)

/-- The bytes that pairs of digits spell. -/
def decodeChars? : List Char → Option (List UInt8)
  | [] => some []
  | [_] => none
  | a :: b :: rest =>
    match digitValue? a, digitValue? b, decodeChars? rest with
    | some hi, some lo, some bytes => some (UInt8.ofNat (hi * 16 + lo) :: bytes)
    | _, _, _ => none

/-- The bytes that hexadecimal text spells. -/
def decode? (text : String) : Option (List UInt8) :=
  decodeChars? text.toList

/-! ## Laws -/

theorem digitValue?_digit : ∀ n : Fin 16, digitValue? (digit n) = some n.val := by decide

theorem decodeChars?_encodeChars (bytes : List UInt8) :
    decodeChars? (encodeChars bytes) = some bytes := by
  induction bytes with
  | nil => rfl
  | cons byte bytes ih =>
    have h : byte.toNat < 256 := byte.toNat_lt
    have hi := digitValue?_digit ⟨byte.toNat / 16, by omega⟩
    have lo := digitValue?_digit ⟨byte.toNat % 16, by omega⟩
    have back : UInt8.ofNat (byte.toNat / 16 * 16 + byte.toNat % 16) = byte := by
      rw [Nat.div_add_mod']; simp
    simp only [encodeChars, List.flatMap_cons, byteDigits, List.cons_append, List.nil_append,
      decodeChars?] at ih ⊢
    rw [hi, lo, ih]
    simp [back]

/-- Reading what was written gives the bytes back. -/
theorem decode?_encode (bytes : List UInt8) : decode? (encode bytes) = some bytes := by
  simp [decode?, encode, decodeChars?_encodeChars]

end StellarTx.Text.Hex
