/-
# Base 32

The alphabet `A`-`Z`, `2`-`7` without padding.  Bits run through a small buffer: a byte enters it
whole and leaves it five bits at a time, or five bits enter and leave it eight at a time.  Reading
also reports whether the text is the one canonical spelling of its bytes, that is, whether no whole
symbol is unused and the unused bits of the last symbol are zero.
-/

namespace StellarTx.Text.Base32

/-- The symbol for a value below 32. -/
def symbol (n : Nat) : Char :=
  if n < 26 then Char.ofNat (n + 65) else Char.ofNat (n + 24)

/-- The value of a symbol. -/
def value? (c : Char) : Option Nat :=
  if 'A' ≤ c ∧ c ≤ 'Z' then some (c.toNat - 65)
  else if '2' ≤ c ∧ c ≤ '7' then some (c.toNat - 24)
  else none

theorem value?_symbol : ∀ n : Fin 32, value? (symbol n) = some n.val := by decide

/-- Bits on their way from one group size to another: the low `bits` bits of `value`. -/
structure Buffer where
  value : Nat
  bits : Nat
  deriving DecidableEq, Repr

namespace Buffer

/-- Nothing buffered. -/
def empty : Buffer := ⟨0, 0⟩

/-- Buffers one byte: the groups of five bits that are now complete, first bits first, and what
stays behind. -/
def pushByte (buffer : Buffer) (byte : UInt8) : List Nat × Buffer :=
  let value := buffer.value * 256 + byte.toNat
  let bits := buffer.bits + 8
  let left := bits % 5
  let groups := (List.range (bits / 5)).reverse.map fun i => value >>> (left + 5 * i) % 32
  (groups, ⟨value % 1 <<< left, left⟩)

/-- The last group, filled up with zero bits; none if nothing is buffered. -/
def lastGroup (buffer : Buffer) : List Nat :=
  if buffer.bits = 0 then [] else [buffer.value <<< (5 - buffer.bits) % 32]

/-- Buffers five bits: the byte that is now complete, if one is, and what stays behind. -/
def pushGroup (buffer : Buffer) (group : Nat) : Option UInt8 × Buffer :=
  let value := buffer.value * 32 + group
  let bits := buffer.bits + 5
  if bits < 8 then (none, ⟨value, bits⟩)
  else (some (UInt8.ofNat (value >>> (bits - 8))), ⟨value % 1 <<< (bits - 8), bits - 8⟩)

/-- Whether a text may end here: less than one symbol is left over, and all its bits are zero. -/
def isCanonicalEnd (buffer : Buffer) : Bool :=
  buffer.bits < 5 && buffer.value == 0

end Buffer

/-! ## Writing -/

/-- The groups of five bits that a buffer and the bytes after it make. -/
def groups (buffer : Buffer) : List UInt8 → List Nat
  | [] => buffer.lastGroup
  | byte :: rest =>
    let (complete, buffer) := buffer.pushByte byte
    complete ++ groups buffer rest

/-- The symbols of a byte string. -/
def encodeChars (bytes : List UInt8) : List Char :=
  (groups .empty bytes).map symbol

/-- Bytes as base 32 text. -/
def encode (bytes : List UInt8) : String :=
  String.ofList (encodeChars bytes)

/-! ## Reading -/

/-- What a text spells, and whether it is the canonical spelling. -/
structure Decoded where
  bytes : List UInt8
  canonical : Bool
  deriving DecidableEq, Repr

/-- A character outside the alphabet and where it stands. -/
structure Foreign where
  char : Char
  position : Nat
  deriving DecidableEq, Repr

/-- Reads the symbols from `position` on. -/
def decodeFrom (buffer : Buffer) (position : Nat) : List Char → Except Foreign Decoded
  | [] => .ok ⟨[], buffer.isCanonicalEnd⟩
  | c :: rest =>
    match value? c with
    | none => .error ⟨c, position⟩
    | some group =>
      let (byte?, buffer) := buffer.pushGroup group
      (decodeFrom buffer (position + 1) rest).map fun decoded =>
        { decoded with bytes := byte?.toList ++ decoded.bytes }

/-- The bytes that base 32 text spells. -/
def decode (text : String) : Except Foreign Decoded :=
  decodeFrom .empty 0 text.toList

end StellarTx.Text.Base32
