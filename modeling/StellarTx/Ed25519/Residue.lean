/-
# Residues modulo 2^255 - 19

The coordinates of points are numbers below `prime`, added and multiplied modulo it.  Division is
multiplication by a power, and `sqrtRatio?` takes the square root of a quotient, if there is one.
-/

namespace StellarTx.Ed25519

/-- The modulus, a prime. -/
def prime : Nat := 1 <<< 255 - 19

namespace Residue

def add (a b : Nat) : Nat := (a + b) % prime

def sub (a b : Nat) : Nat := (a + (prime - b % prime)) % prime

def mul (a b : Nat) : Nat := a * b % prime

def neg (a : Nat) : Nat := sub 0 a

/-- The low `count` bits of a number, highest first. -/
def bits (count n : Nat) : List Bool :=
  (List.range count).reverse.map n.testBit

/-- A power with an exponent below `2 ^ 256`: square for every bit, and multiply where it is set. -/
def pow (a exponent : Nat) : Nat :=
  (bits 256 exponent).foldl (fun acc bit => if bit then mul (mul acc acc) a else mul acc acc) 1

/-- The inverse of a residue other than zero. -/
def inv (a : Nat) : Nat := pow a (prime - 2)

/-- A square root of minus one. -/
def sqrtMinusOne : Nat := pow 2 ((prime - 1) / 4)

/-- A square root of `u / v`, if it is a square.  The candidate is a root up to a factor that is a
fourth root of one. -/
def sqrtRatio? (u v : Nat) : Option Nat :=
  let v3 := mul (mul v v) v
  let v7 := mul (mul v3 v3) v
  let root := mul (mul u v3) (pow (mul u v7) ((prime - 5) / 8))
  let check := mul v (mul root root)
  if check = u % prime then some root
  else if check = neg u then some (mul root sqrtMinusOne)
  else none

/-- A residue that is odd is called negative. -/
def isNegative (a : Nat) : Bool := a % 2 == 1

end Residue

end StellarTx.Ed25519
