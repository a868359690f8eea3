/-
# Writing XDR

An `Encoding` is the bytes of a value, or the first length in it that is above its maximum, with the
offset counted from the value's first byte.  Encodings are joined with `++`, which moves the offset
of the second behind the bytes of the first.  Everything is written big end first and padded with
zeros to a multiple of four bytes.
-/
import StellarTx.Octets
import StellarTx.Xdr.Error

namespace StellarTx.Xdr

/-- The bytes of a value, or its first excessive length. -/
def Encoding := Except Excess (List UInt8)

namespace Encoding

/-- Bytes that are already right. -/
def ofBytes (bytes : List UInt8) : Encoding := .ok bytes

/-- Nothing. -/
def empty : Encoding := ofBytes []

/-- One encoding after the other. -/
def append (first second : Encoding) : Encoding :=
  match first with
  | .error e => .error e
  | .ok bytes =>
    match second with
    | .error e => .error (e.shift bytes.length)
    | .ok more => .ok (bytes ++ more)

instance : Append Encoding := ⟨append⟩

/-- Encodings one after another. -/
def concat (encodings : List Encoding) : Encoding :=
  encodings.foldr (· ++ ·) empty

def uint32 (v : UInt32) : Encoding := ofBytes (bigEndian 4 v.toNat)
def uint64 (v : UInt64) : Encoding := ofBytes (bigEndian 8 v.toNat)
def int32 (v : Int32) : Encoding := uint32 v.toUInt32
def int64 (v : Int64) : Encoding := uint64 v.toUInt64

/-- A boolean is the number 0 or 1. -/
def bool (v : Bool) : Encoding := int32 (if v then 1 else 0)

/-- Bytes whose number the type fixes. -/
def fixed (bytes : List UInt8) : Encoding := ofBytes (padded bytes)

/-- A length or an item count of at most `max`. -/
def count (length max : Nat) : Encoding :=
  if max < length then .error ⟨length, max, 0⟩ else uint32 (UInt32.ofNat length)

/-- At most `max` bytes after their number. -/
def bytes (max : Nat) (data : List UInt8) : Encoding :=
  count data.length max ++ fixed data

/-- A string of at most `max` bytes of UTF-8. -/
def string (max : Nat) (s : String) : Encoding :=
  bytes max s.toUTF8.data.toList

end Encoding

/-- The largest length that a length word can hold, for types that declare no maximum. -/
def unbounded : Nat := UInt32.size - 1

end StellarTx.Xdr
