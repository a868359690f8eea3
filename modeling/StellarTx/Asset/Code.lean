/-
# Asset codes

A code is 4 or 12 bytes, filled up with zeros.  In text the zeros at the end are left out, but never
so many that the length would suggest the other size, and a byte that is no ASCII letter or digit is
written `\0` or `\xHH`.  Reading takes hexadecimal digits of either case.
-/
import StellarTx.Validation
import StellarTx.Format.Scalar
import StellarTx.Format.Union

namespace StellarTx

open Format (union arm field octets)

/-- The code of an asset. -/
inductive AssetCode where
  | alphaNum4 (code : Octets 4)
  | alphaNum12 (code : Octets 12)
  deriving DecidableEq

namespace AssetCode

/-! ## Writing -/

/-- Whether a byte is an ASCII letter or digit. -/
def isPlain (byte : UInt8) : Bool :=
  (48 ≤ byte && byte ≤ 57) || (65 ≤ byte && byte ≤ 90) || (97 ≤ byte && byte ≤ 122)

/-- Bytes without the zeros they end with, but never fewer than `least`. -/
def trimZeros (least : Nat) (bytes : List UInt8) : List UInt8 :=
  bytes.take (max least (bytes.reverse.dropWhile (· == 0)).length)

/-- One byte of a code in text. -/
def escapeByte (byte : UInt8) : List Char :=
  if isPlain byte then [Char.ofNat byte.toNat]
  else if byte = 0 then ['\\', '0']
  else '\\' :: 'x' :: Text.Hex.byteDigits byte

/-- The bytes that the text of a code shows. -/
def textBytes : AssetCode → List UInt8
  | alphaNum4 code => trimZeros 1 code.toList
  | alphaNum12 code => trimZeros 5 code.toList

/-- The text of a code. -/
def toText (c : AssetCode) : String :=
  String.ofList (c.textBytes.flatMap escapeByte)

/-! ## Reading -/

/-- At most `n` bytes, filled up with zeros. -/
def fill (n : Nat) (bytes : List UInt8) (h : bytes.length ≤ n) : Octets n :=
  ⟨bytes ++ List.replicate (n - bytes.length) 0, by simp; omega⟩

/-- The code with the given bytes: one to four make a short code, five to twelve a long one. -/
def ofBytes? (bytes : List UInt8) : Option AssetCode :=
  if bytes = [] then none
  else if h : bytes.length ≤ 4 then some (alphaNum4 (fill 4 bytes h))
  else if h : bytes.length ≤ 12 then some (alphaNum12 (fill 12 bytes h))
  else none

/-- The byte of an ASCII letter or digit. -/
def plainByte? (c : Char) : Option UInt8 :=
  if c.isAlphanum then some (UInt8.ofNat c.toNat) else none

/-- The bytes of a text with escapes. -/
def unescape? : List Char → Option (List UInt8)
  | [] => some []
  | '\\' :: '0' :: rest => (unescape? rest).map (0 :: ·)
  | '\\' :: 'x' :: a :: b :: rest =>
    match Text.Hex.digitValue? a, Text.Hex.digitValue? b with
    | some hi, some lo => (unescape? rest).map (UInt8.ofNat (hi * 16 + lo) :: ·)
    | _, _ => none
  | c :: rest =>
    match plainByte? c with
    | some byte => (unescape? rest).map (byte :: ·)
    | none => none

/-- The code that a text of letters, digits and escapes stands for. -/
def ofText (text : String) : Except ValidationError AssetCode :=
  match (unescape? text.toList).bind ofBytes? with
  | some code => .ok code
  | none => .error (.assetCode text)

/-- The code that a text of letters and digits alone stands for. -/
def ofPlainText (text : String) : Except ValidationError AssetCode :=
  match (text.toList.mapM plainByte?).bind ofBytes? with
  | some code => .ok code
  | none => .error (.assetCode text)

/-! ## Format -/

def format : Format AssetCode :=
  (union "AssetCode"
    [arm 1 "ASSET_TYPE_CREDIT_ALPHANUM4" (field "assetCode4" (octets 4))
        alphaNum4 fun | alphaNum4 code => some code | _ => none,
     arm 2 "ASSET_TYPE_CREDIT_ALPHANUM12" (field "assetCode12" (octets 12))
        alphaNum12 fun | alphaNum12 code => some code | _ => none]).token
    toText (ofText · |>.toOption)

end AssetCode

end StellarTx
