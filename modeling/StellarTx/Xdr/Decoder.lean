/-
# Reading XDR

A `Decoder` takes a value from the front of the input and leaves the rest.  The input knows at which
offset it stands.  Reading is strict: padding is zero, booleans are 0 or 1, strings are UTF-8, and
lengths stay within their maximum, so that every value has one form.  `Limits` says how many levels
of nested values may still be entered, and whether an item count that the remaining bytes cannot
hold is refused before any item is read.
-/
import StellarTx.Xdr.Encoding

namespace StellarTx.Xdr

/-- Bytes not read yet, and how many came before them. -/
structure Input where
  offset : Nat
  rest : List UInt8
  deriving DecidableEq, Repr

/-- How far a reader may go. -/
structure Limits where
  /-- Levels of nested values that may still be entered. -/
  levels : Nat
  /-- Whether a count is compared with the bytes that are left; every item takes at least four. -/
  countAhead : Bool
  deriving DecidableEq, Repr

/-- The number of levels that a whole value may have. -/
def maxLevels : Nat := 256

/-- The limits at the start of a value. -/
def Limits.start : Limits := ⟨maxLevels, true⟩

/-- Takes a value from the front of the input. -/
def Decoder (α : Type) := Limits → Input → Except Error (α × Input)

namespace Decoder

variable {α β : Type}

instance : Monad Decoder where
  pure a := fun _ input => .ok (a, input)
  bind d f := fun limits input =>
    match d limits input with
    | .error e => .error e
    | .ok (a, input) => f a limits input

/-- Fails at the place that the input has reached. -/
def fail (error : Input → Error) : Decoder α :=
  fun _ input => .error (error input)

/-- The offset that the input has reached. -/
def offset : Decoder Nat :=
  fun _ input => .ok (input.offset, input)

/-- The next `n` bytes. -/
def take (n : Nat) : Decoder (Octets n) := fun _ input =>
  let bytes := input.rest.take n
  if h : bytes.length = n then .ok (⟨bytes, h⟩, ⟨input.offset + n, input.rest.drop n⟩)
  else .error (.unexpectedEnd input.offset n bytes.length)

/-- The number in the next `n` bytes. -/
def number (n : Nat) : Decoder Nat := (fun bytes => ofBigEndian bytes.toList) <$> take n

def uint32 : Decoder UInt32 := UInt32.ofNat <$> number 4
def uint64 : Decoder UInt64 := UInt64.ofNat <$> number 8
def int32 : Decoder Int32 := UInt32.toInt32 <$> uint32
def int64 : Decoder Int64 := UInt64.toInt64 <$> uint64

/-- The number 0 or 1. -/
def bool : Decoder Bool := do
  let start ← offset
  let value ← int32
  if value = 0 then return false
  else if value = 1 then return true
  else fail fun _ => .boolean start value

/-- The error for a discriminant that was just read and belongs to no arm. -/
def unknown (union : String) (value : Int32) : Decoder α :=
  fail fun input => .discriminant union value (input.offset - 4)

/-- The zeros after `n` bytes. -/
def padding (n : Nat) : Decoder Unit := do
  let start ← offset
  let zeros ← take (padLength n)
  if zeros.toList.any (· ≠ 0) then fail fun _ => .padding start

/-- `n` bytes and their padding. -/
def fixed (n : Nat) : Decoder (Octets n) := do
  let data ← take n
  padding n
  return data

/-- A length word of at most `max`. -/
def length (max : Nat) : Decoder Nat := do
  let start ← offset
  let length := (← uint32).toNat
  if max < length then fail fun _ => .excess ⟨length, max, start⟩
  return length

/-- At most `max` bytes after their number. -/
def bytes (max : Nat) : Decoder (List UInt8) := do
  let data ← fixed (← length max)
  return data.toList

/-- A string of at most `max` bytes of UTF-8. -/
def string (max : Nat) : Decoder String := do
  let start ← offset
  let data ← bytes max
  match String.fromUTF8? ⟨data.toArray⟩ with
  | some s => return s
  | none => fail fun _ => .utf8 start

/-- Refuses a count that the remaining bytes cannot hold, if the limits say so. -/
def checkCount (count : Nat) : Decoder Unit := fun limits input =>
  let held := (input.rest.take (4 * count)).length
  if limits.countAhead && held < 4 * count then
    .error (.unexpectedEnd input.offset (4 * count) held)
  else .ok ((), input)

/-- An item count of at most `max`. -/
def count (max : Nat) : Decoder Nat := do
  let count ← length max
  checkCount count
  return count

/-- `n` values one after another. -/
def replicate (n : Nat) (item : Decoder α) : Decoder (List α) :=
  match n with
  | 0 => return []
  | n + 1 => do
    let first ← item
    let rest ← replicate n item
    return first :: rest

/-- At most `max` items after their number. -/
def array (max : Nat) (item : Decoder α) : Decoder (List α) := do
  replicate (← count max) item

/-- A value one level deeper. -/
def deeper (d : Decoder α) : Decoder α := fun limits input =>
  match limits.levels with
  | 0 => .error (.depth maxLevels)
  | levels + 1 => d { limits with levels } input

/-- The end of the input. -/
def finish : Decoder Unit := fun _ input =>
  match input.rest with
  | [] => .ok ((), input)
  | rest => .error (.trailing input.offset rest.length)

/-- The value that a whole byte string holds. -/
def run (d : Decoder α) (limits : Limits) (bytes : List UInt8) : Except Error α := do
  let (value, input) ← d limits ⟨0, bytes⟩
  let _ ← finish limits input
  return value

end Decoder

end StellarTx.Xdr
