/-
# Base 64

The standard alphabet with padding, one written form for each byte string.  Reading works on the
bytes of the text and names what is wrong and where: everything before the last group of four is
checked first, then the last group from left to right, then its length, its padding and its unused
bits.
-/

namespace StellarTx.Text.Base64

/-- Why bytes are not base 64. -/
inductive Error where
  /-- A byte that cannot stand where it stands. -/
  | symbol (byte : UInt8) (offset : Nat)
  /-- The last group holds fewer than two symbols. -/
  | length (count : Nat)
  /-- The last symbol has bits set that no byte uses. -/
  | lastSymbol (byte : UInt8) (offset : Nat)
  /-- The padding does not complete the last group. -/
  | padding
  deriving DecidableEq, Repr

namespace Error

/-- The wording of an error. -/
def message : Error → String
  | .symbol byte offset => s!"Invalid symbol {byte.toNat}, offset {offset}."
  | .length count => s!"Invalid input length: {count}"
  | .lastSymbol byte offset => s!"Invalid last symbol {byte.toNat}, offset {offset}."
  | .padding => "Invalid padding"

end Error

/-- The symbol for a value below 64. -/
def symbol (n : Nat) : UInt8 :=
  if n < 26 then UInt8.ofNat (n + 65)
  else if n < 52 then UInt8.ofNat (n + 71)
  else if n < 62 then UInt8.ofNat (n - 4)
  else if n = 62 then 43
  else 47

/-- The value of a symbol. -/
def value? (byte : UInt8) : Option Nat :=
  if 65 ≤ byte ∧ byte ≤ 90 then some (byte.toNat - 65)
  else if 97 ≤ byte ∧ byte ≤ 122 then some (byte.toNat - 71)
  else if 48 ≤ byte ∧ byte ≤ 57 then some (byte.toNat + 4)
  else if byte = 43 then some 62
  else if byte = 47 then some 63
  else none

/-- The padding byte, an equals sign. -/
def pad : UInt8 := 61

/-! ## Writing -/

/-- Three bytes become four symbols; one or two bytes at the end are padded. -/
def encodeBytes : List UInt8 → List UInt8
  | [] => []
  | [a] => [symbol (a.toNat / 4), symbol (a.toNat % 4 * 16), pad, pad]
  | [a, b] =>
    [symbol (a.toNat / 4), symbol (a.toNat % 4 * 16 + b.toNat / 16),
     symbol (b.toNat % 16 * 4), pad]
  | a :: b :: c :: rest =>
    symbol (a.toNat / 4) :: symbol (a.toNat % 4 * 16 + b.toNat / 16) ::
    symbol (b.toNat % 16 * 4 + c.toNat / 64) :: symbol (c.toNat % 64) :: encodeBytes rest

/-- Bytes as base 64 text. -/
def encode (bytes : List UInt8) : String :=
  String.ofList ((encodeBytes bytes).map fun byte => Char.ofNat byte.toNat)

/-! ## Reading -/

/-- The values of symbols that start at `offset`. -/
def values (offset : Nat) : List UInt8 → Except Error (List Nat)
  | [] => .ok []
  | byte :: rest =>
    match value? byte with
    | none => .error (.symbol byte offset)
    | some v => (values (offset + 1) rest).map (v :: ·)

/-- The bytes that whole groups of four values spell. -/
def groups : List Nat → List UInt8
  | a :: b :: c :: d :: rest =>
    UInt8.ofNat (a * 4 + b / 16) :: UInt8.ofNat (b % 16 * 16 + c / 4) ::
    UInt8.ofNat (c % 4 * 64 + d) :: groups rest
  | _ => []

/-- What the last group holds: the values of its symbols, its last symbol, and its padding. -/
structure Tail where
  values : List Nat
  last : UInt8
  pads : Nat

/-- Reads the last group from left to right.  `start` is the offset of the group and `index` the
position in it; the first padding byte is blamed for a symbol that follows it. -/
def readTail (start index : Nat) (tail : Tail) : List UInt8 → Except Error Tail
  | [] => .ok tail
  | byte :: rest =>
    if byte = pad then
      if index < 2 then .error (.symbol pad (start + index))
      else readTail start (index + 1) { tail with pads := tail.pads + 1 } rest
    else if 0 < tail.pads then .error (.symbol pad (start + tail.values.length))
    else match value? byte with
      | none => .error (.symbol byte (start + index))
      | some v =>
        readTail start (index + 1) { tail with values := tail.values ++ [v], last := byte } rest

/-- The bytes of the last group, once its length and its padding are right. -/
def finishTail (start : Nat) (tail : Tail) : Except Error (List UInt8) :=
  let count := tail.values.length
  let unused := Error.lastSymbol tail.last (start + count - 1)
  if (count + tail.pads) % 4 ≠ 0 then .error .padding
  else match tail.values with
    | [a, b] => if b % 16 = 0 then .ok [UInt8.ofNat (a * 4 + b / 16)] else .error unused
    | [a, b, c] =>
      if c % 4 = 0 then .ok [UInt8.ofNat (a * 4 + b / 16), UInt8.ofNat (b % 16 * 16 + c / 4)]
      else .error unused
    | all => .ok (groups all)

/-- How many bytes come before the last group: all but the last one to four. -/
def headLength (n : Nat) : Nat :=
  (n - 1) / 4 * 4

/-- Reads base 64 bytes.  A stray last byte that is no symbol is blamed before anything else. -/
def decodeBytes (bytes : List UInt8) : Except Error (List UInt8) := do
  let n := bytes.length
  let start := headLength n
  match bytes.getLast? with
  | none => return []
  | some last =>
    if n % 4 = 1 ∧ last ≠ pad ∧ value? last = none then
      throw (.symbol last (n - 1))
    let head ← values 0 (bytes.take start)
    let tail ← readTail start 0 ⟨[], 0, 0⟩ (bytes.drop start)
    if tail.values.length < 2 then
      throw (.length (start + tail.values.length))
    let rest ← finishTail start tail
    return groups head ++ rest

/-- The bytes that base 64 text spells. -/
def decode (text : String) : Except Error (List UInt8) :=
  decodeBytes text.toUTF8.data.toList

end StellarTx.Text.Base64
