/-
# Why a text is no key

The causes, in the order in which they are looked for: a foreign character, too few bytes, a wrong
checksum, unused bits that are set, a version byte that is unknown or not the one asked for, and a
body whose length or padding does not fit its version.
-/
import StellarTx.Text.Hex
import StellarTx.Text.Shown

namespace StellarTx.StrKey

/-- Why a text is no key. -/
inductive Error where
  | length (bytes : Nat)
  | character (char : Char) (position : Nat)
  | encoding
  | checksum
  | version (byte : UInt8)
  deriving DecidableEq, Repr

/-- The wording of an error. -/
def Error.message : Error → String
  | .length bytes => s!"invalid strkey length: {bytes} bytes"
  | .character char position =>
    s!"invalid strkey character {Text.Shown.char char} at position {position}"
  | .encoding => "non-canonical base32 encoding"
  | .checksum => "strkey checksum mismatch"
  | .version byte => s!"invalid strkey version byte 0x{Text.Hex.encode [byte]}"

end StellarTx.StrKey
