/-
# Points of the twisted Edwards curve -x² + y² = 1 + d x² y²

A point is kept in extended coordinates: `x / z` and `y / z` are its affine coordinates and
`t = x y / z`.  One addition law serves all pairs of points.  A point is written as its `y` with the
parity of its `x` in the top bit; reading takes `y` modulo the prime and ignores the parity
bit where `x` is zero.
-/
import StellarTx.Octets
import StellarTx.Ed25519.Residue

namespace StellarTx.Ed25519

/-- A point in extended coordinates. -/
structure Point where
  x : Nat
  y : Nat
  z : Nat
  t : Nat

/-- The number that bytes spell, least significant first. -/
def ofLittleEndian (bytes : List UInt8) : Nat :=
  ofBigEndian bytes.reverse

/-- The low `k` bytes of a number, least significant first. -/
def littleEndian (k n : Nat) : List UInt8 :=
  (bigEndian k n).reverse

/-- A number as 32 bytes, least significant first. -/
def littleEndian32 (n : Nat) : Octets 32 :=
  ⟨littleEndian 32 n, by simp [littleEndian]⟩

/-- The coefficient of the curve, -121665 / 121666. -/
def coefficient : Nat :=
  Residue.mul (Residue.neg 121665) (Residue.inv 121666)

namespace Point

open Residue

/-- The neutral element. -/
def zero : Point := ⟨0, 1, 1, 0⟩

/-- The point with given affine coordinates. -/
def ofAffine (x y : Nat) : Point := ⟨x, y, 1, mul x y⟩

/-- The sum of two points, equal or not. -/
def add (p q : Point) : Point :=
  let a := mul (sub p.y p.x) (sub q.y q.x)
  let b := mul (Residue.add p.y p.x) (Residue.add q.y q.x)
  let c := mul (mul p.t (2 * coefficient)) q.t
  let d := mul (mul p.z 2) q.z
  let e := sub b a
  let f := sub d c
  let g := Residue.add d c
  let h := Residue.add b a
  ⟨mul e f, mul g h, mul f g, mul e h⟩

/-- The point across the y axis. -/
def neg (p : Point) : Point :=
  ⟨Residue.neg p.x, p.y, p.z, Residue.neg p.t⟩

/-- A multiple of a point, by doubling and adding along the bits of a scalar below `2 ^ 256`. -/
def smul (scalar : Nat) (p : Point) : Point :=
  (bits 256 scalar).foldl
    (fun acc bit => let twice := acc.add acc; if bit then twice.add p else twice) zero

/-- The 32-byte form of a point. -/
def compress (p : Point) : Octets 32 :=
  let invZ := inv p.z
  let x := mul p.x invZ
  let y := mul p.y invZ
  littleEndian32 (y + if isNegative x then 1 <<< 255 else 0)

/-- The point on the curve with a given `y` and parity of `x`, if there is one. -/
def ofY? (y : Nat) (negative : Bool) : Option Point :=
  let y := y % prime
  let y2 := mul y y
  (sqrtRatio? (sub y2 1) (Residue.add (mul coefficient y2) 1)).map fun root =>
    ofAffine (if isNegative root == negative then root else Residue.neg root) y

/-- The point that 32 bytes stand for, if any. -/
def decompress? (bytes : Octets 32) : Option Point :=
  let n := ofLittleEndian bytes.toList
  ofY? (n % 1 <<< 255) (n.testBit 255)

/-- The generator: the point with `y = 4 / 5` and even `x`. -/
def base : Point :=
  (ofY? (mul 4 (inv 5)) false).getD zero

end Point

end StellarTx.Ed25519
