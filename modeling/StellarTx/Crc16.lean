/-
# The XMODEM checksum

A 16-bit cyclic redundancy check with the polynomial `x^16 + x^12 + x^5 + 1`, the initial value zero
and the most significant bit first.
-/

namespace StellarTx.Crc16

/-- The polynomial without its leading term. -/
def polynomial : BitVec 16 := 0x1021

/-- Shifts one zero bit in. -/
def shift (crc : BitVec 16) : BitVec 16 :=
  if crc.msb then (crc <<< 1) ^^^ polynomial else crc <<< 1

/-- Shifts `n` zero bits in. -/
def shifts : Nat → BitVec 16 → BitVec 16
  | 0, crc => crc
  | n + 1, crc => shifts n (shift crc)

/-- Shifts one byte in. -/
def push (crc : BitVec 16) (byte : UInt8) : BitVec 16 :=
  shifts 8 (crc ^^^ (BitVec.ofNat 16 byte.toNat <<< 8))

/-- The checksum of a byte string. -/
def checksum (bytes : List UInt8) : BitVec 16 :=
  bytes.foldl push 0

/-- The checksum as two bytes, low byte first. -/
def checksumBytes (bytes : List UInt8) : List UInt8 :=
  let crc := checksum bytes
  [UInt8.ofNat (crc.toNat % 256), UInt8.ofNat (crc.toNat / 256)]

@[simp] theorem length_checksumBytes (bytes : List UInt8) : (checksumBytes bytes).length = 2 := rfl

end StellarTx.Crc16
