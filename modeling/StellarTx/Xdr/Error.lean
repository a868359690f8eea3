/-
# Why bytes and values are no XDR

Writing can fail in one way only: a length is above the maximum that its type declares (`Excess`).
Reading can fail in that way too, and in others; an error says at which byte.
-/
import StellarTx.Text.Base64

namespace StellarTx.Xdr

/-- A length above its maximum, and the offset of the length word. -/
structure Excess where
  length : Nat
  max : Nat
  offset : Nat
  deriving DecidableEq, Repr

/-- The same excess, found `n` bytes later. -/
def Excess.shift (n : Nat) (e : Excess) : Excess :=
  { e with offset := n + e.offset }

/-- Why bytes cannot be read. -/
inductive Error where
  /-- Fewer bytes are left than the next item needs. -/
  | unexpectedEnd (offset needed available : Nat)
  /-- A byte of padding is not zero; the offset is that of the padding. -/
  | padding (offset : Nat)
  /-- A boolean is neither 0 nor 1. -/
  | boolean (offset : Nat) (value : Int32)
  /-- A union has no arm with this discriminant. -/
  | discriminant (union : String) (value : Int32) (offset : Nat)
  /-- A length is above its maximum. -/
  | excess (e : Excess)
  /-- A string is not UTF-8; the offset is that of its length word. -/
  | utf8 (offset : Nat)
  /-- Bytes are left over after the value. -/
  | trailing (offset remaining : Nat)
  /-- Values are nested too deep. -/
  | depth (max : Nat)
  /-- The base 64 text around the bytes is malformed. -/
  | base64 (e : Text.Base64.Error)
  deriving DecidableEq, Repr

/-- The wording of an error. -/
def Error.message : Error → String
  | .unexpectedEnd offset needed available =>
    s!"unexpected end of data at offset {offset}: needed {needed} bytes, {available} available"
  | .padding offset => s!"non-zero padding at offset {offset}"
  | .boolean offset value => s!"invalid boolean value {value.toInt} at offset {offset}"
  | .discriminant union value offset =>
    s!"unknown discriminant {value.toInt} for {union} at offset {offset}"
  | .excess e => s!"length {e.length} exceeds maximum {e.max} at offset {e.offset}"
  | .utf8 offset => s!"invalid utf-8 string at offset {offset}"
  | .trailing offset remaining => s!"{remaining} trailing bytes after offset {offset}"
  | .depth max => s!"nesting depth exceeds {max}"
  | .base64 e => s!"invalid base64: {e.message}"

end StellarTx.Xdr
