/-
# The SHA-2 hash functions

SHA-256 and SHA-512 are one construction over words of 32 and of 64 bits.  A `Variant` holds what
differs: the word, the four bit mixers, the round constants and the initial state.  A message is
padded to whole blocks, each block is spread into a schedule of words, and every word stirs the
state once.
-/
import StellarTx.Octets

namespace StellarTx.Hash

/-- The eight working words. -/
structure State (W : Type) where
  a : W
  b : W
  c : W
  d : W
  e : W
  f : W
  g : W
  h : W

namespace State

/-- The words in order. -/
def toList {W : Type} (s : State W) : List W :=
  [s.a, s.b, s.c, s.d, s.e, s.f, s.g, s.h]

/-- Wordwise addition. -/
def add {W : Type} [Add W] (s t : State W) : State W :=
  ⟨s.a + t.a, s.b + t.b, s.c + t.c, s.d + t.d, s.e + t.e, s.f + t.f, s.g + t.g, s.h + t.h⟩

end State

/-- What sets one member of the family apart. -/
structure Variant (W : Type) where
  /-- Bytes in a word; a block is sixteen words. -/
  wordBytes : Nat
  ofNat : Nat → W
  toNat : W → Nat
  bigSigma0 : W → W
  bigSigma1 : W → W
  smallSigma0 : W → W
  smallSigma1 : W → W
  constants : List W
  initial : State W

namespace Variant

variable {W : Type}

/-- Bytes in a block. -/
def blockBytes (v : Variant W) : Nat :=
  16 * v.wordBytes

/-- The message, a one bit, zeros up to a whole number of blocks, and the bit length in the last two
words. -/
def padded (v : Variant W) (message : List UInt8) : List UInt8 :=
  let length := message.length
  let used := length + 1 + 2 * v.wordBytes
  let zeros := (v.blockBytes - used % v.blockBytes) % v.blockBytes
  message ++ [0x80] ++ List.replicate zeros 0 ++ bigEndian (2 * v.wordBytes) (8 * length)

/-- The first `count` pieces of `size` bytes. -/
def pieces (size : Nat) : Nat → List UInt8 → List (List UInt8)
  | 0, _ => []
  | count + 1, bytes => bytes.take size :: pieces size count (bytes.drop size)

/-- The sixteen words of a block, last word first. -/
def blockWords (v : Variant W) (block : List UInt8) : List W :=
  ((pieces v.wordBytes 16 block).map fun word => v.ofNat (ofBigEndian word)).reverse

/-- The word that follows a schedule, which is kept last word first. -/
def nextWord [Add W] (v : Variant W) (schedule : List W) : W :=
  let back (n : Nat) : W := schedule.getD (n - 1) (v.ofNat 0)
  v.smallSigma1 (back 2) + back 7 + v.smallSigma0 (back 15) + back 16

/-- A schedule with `n` more words. -/
def extend [Add W] (v : Variant W) : Nat → List W → List W
  | 0, schedule => schedule
  | n + 1, schedule => extend v n (v.nextWord schedule :: schedule)

/-- Stirs one constant and one word of the schedule into the state. -/
def round [Add W] [AndOp W] [XorOp W] [Complement W] (v : Variant W) (s : State W)
    (input : W × W) : State W :=
  let choice := (s.e &&& s.f) ^^^ (~~~s.e &&& s.g)
  let majority := (s.a &&& s.b) ^^^ (s.a &&& s.c) ^^^ (s.b &&& s.c)
  let t1 := s.h + v.bigSigma1 s.e + choice + input.1 + input.2
  let t2 := v.bigSigma0 s.a + majority
  ⟨t1 + t2, s.a, s.b, s.c, s.d + t1, s.e, s.f, s.g⟩

/-- Stirs one block into the state. -/
def compress [Add W] [AndOp W] [XorOp W] [Complement W] (v : Variant W) (s : State W)
    (block : List UInt8) : State W :=
  let schedule := (v.extend (v.constants.length - 16) (v.blockWords block)).reverse
  s.add ((v.constants.zip schedule).foldl v.round s)

/-- The digest of a message. -/
def digest [Add W] [AndOp W] [XorOp W] [Complement W] (v : Variant W) (message : List UInt8) :
    List UInt8 :=
  let bytes := v.padded message
  let blocks := pieces v.blockBytes (bytes.length / v.blockBytes) bytes
  (blocks.foldl v.compress v.initial).toList.flatMap fun word =>
    bigEndian v.wordBytes (v.toNat word)

/-- A digest is eight words long. -/
theorem length_digest [Add W] [AndOp W] [XorOp W] [Complement W] (v : Variant W)
    (message : List UInt8) : (v.digest message).length = 8 * v.wordBytes := by
  simp [digest, State.toList]
  omega

end Variant

/-! ## SHA-256 -/

namespace Sha256

/-- Rotates a word to the right. -/
def rotate (w : UInt32) (n : UInt32) : UInt32 :=
  w >>> n ||| w <<< (32 - n)

/-- The fractional parts of the cube roots of the first sixty-four primes. -/
def constants : List UInt32 :=
  [0x428a2f98, 0x71374491, 0xb5c0fbcf, 0xe9b5dba5, 0x3956c25b, 0x59f111f1, 0x923f82a4, 0xab1c5ed5,
   0xd807aa98, 0x12835b01, 0x243185be, 0x550c7dc3, 0x72be5d74, 0x80deb1fe, 0x9bdc06a7, 0xc19bf174,
   0xe49b69c1, 0xefbe4786, 0x0fc19dc6, 0x240ca1cc, 0x2de92c6f, 0x4a7484aa, 0x5cb0a9dc, 0x76f988da,
   0x983e5152, 0xa831c66d, 0xb00327c8, 0xbf597fc7, 0xc6e00bf3, 0xd5a79147, 0x06ca6351, 0x14292967,
   0x27b70a85, 0x2e1b2138, 0x4d2c6dfc, 0x53380d13, 0x650a7354, 0x766a0abb, 0x81c2c92e, 0x92722c85,
   0xa2bfe8a1, 0xa81a664b, 0xc24b8b70, 0xc76c51a3, 0xd192e819, 0xd6990624, 0xf40e3585, 0x106aa070,
   0x19a4c116, 0x1e376c08, 0x2748774c, 0x34b0bcb5, 0x391c0cb3, 0x4ed8aa4a, 0x5b9cca4f, 0x682e6ff3,
   0x748f82ee, 0x78a5636f, 0x84c87814, 0x8cc70208, 0x90befffa, 0xa4506ceb, 0xbef9a3f7, 0xc67178f2]

/-- The fractional parts of the square roots of the first eight primes. -/
def initial : State UInt32 :=
  ⟨0x6a09e667, 0xbb67ae85, 0x3c6ef372, 0xa54ff53a,
   0x510e527f, 0x9b05688c, 0x1f83d9ab, 0x5be0cd19⟩

/-- SHA-2 over words of 32 bits. -/
def variant : Variant UInt32 where
  wordBytes := 4
  ofNat := UInt32.ofNat
  toNat := UInt32.toNat
  bigSigma0 w := rotate w 2 ^^^ rotate w 13 ^^^ rotate w 22
  bigSigma1 w := rotate w 6 ^^^ rotate w 11 ^^^ rotate w 25
  smallSigma0 w := rotate w 7 ^^^ rotate w 18 ^^^ w >>> 3
  smallSigma1 w := rotate w 17 ^^^ rotate w 19 ^^^ w >>> 10
  constants := constants
  initial := initial

end Sha256

/-- The SHA-256 digest of a message. -/
def sha256 (message : List UInt8) : Octets 32 :=
  ⟨Sha256.variant.digest message, Sha256.variant.length_digest message⟩

/-! ## SHA-512 -/

namespace Sha512

/-- Rotates a word to the right. -/
def rotate (w : UInt64) (n : UInt64) : UInt64 :=
  w >>> n ||| w <<< (64 - n)

/-- The fractional parts of the cube roots of the first eighty primes. -/
def constants : List UInt64 :=
  [0x428a2f98d728ae22, 0x7137449123ef65cd, 0xb5c0fbcfec4d3b2f, 0xe9b5dba58189dbbc,
   0x3956c25bf348b538, 0x59f111f1b605d019, 0x923f82a4af194f9b, 0xab1c5ed5da6d8118,
   0xd807aa98a3030242, 0x12835b0145706fbe, 0x243185be4ee4b28c, 0x550c7dc3d5ffb4e2,
   0x72be5d74f27b896f, 0x80deb1fe3b1696b1, 0x9bdc06a725c71235, 0xc19bf174cf692694,
   0xe49b69c19ef14ad2, 0xefbe4786384f25e3, 0x0fc19dc68b8cd5b5, 0x240ca1cc77ac9c65,
   0x2de92c6f592b0275, 0x4a7484aa6ea6e483, 0x5cb0a9dcbd41fbd4, 0x76f988da831153b5,
   0x983e5152ee66dfab, 0xa831c66d2db43210, 0xb00327c898fb213f, 0xbf597fc7beef0ee4,
   0xc6e00bf33da88fc2, 0xd5a79147930aa725, 0x06ca6351e003826f, 0x142929670a0e6e70,
   0x27b70a8546d22ffc, 0x2e1b21385c26c926, 0x4d2c6dfc5ac42aed, 0x53380d139d95b3df,
   0x650a73548baf63de, 0x766a0abb3c77b2a8, 0x81c2c92e47edaee6, 0x92722c851482353b,
   0xa2bfe8a14cf10364, 0xa81a664bbc423001, 0xc24b8b70d0f89791, 0xc76c51a30654be30,
   0xd192e819d6ef5218, 0xd69906245565a910, 0xf40e35855771202a, 0x106aa07032bbd1b8,
   0x19a4c116b8d2d0c8, 0x1e376c085141ab53, 0x2748774cdf8eeb99, 0x34b0bcb5e19b48a8,
   0x391c0cb3c5c95a63, 0x4ed8aa4ae3418acb, 0x5b9cca4f7763e373, 0x682e6ff3d6b2b8a3,
   0x748f82ee5defb2fc, 0x78a5636f43172f60, 0x84c87814a1f0ab72, 0x8cc702081a6439ec,
   0x90befffa23631e28, 0xa4506cebde82bde9, 0xbef9a3f7b2c67915, 0xc67178f2e372532b,
   0xca273eceea26619c, 0xd186b8c721c0c207, 0xeada7dd6cde0eb1e, 0xf57d4f7fee6ed178,
   0x06f067aa72176fba, 0x0a637dc5a2c898a6, 0x113f9804bef90dae, 0x1b710b35131c471b,
   0x28db77f523047d84, 0x32caab7b40c72493, 0x3c9ebe0a15c9bebc, 0x431d67c49c100d4c,
   0x4cc5d4becb3e42b6, 0x597f299cfc657e2a, 0x5fcb6fab3ad6faec, 0x6c44198c4a475817]

/-- The fractional parts of the square roots of the first eight primes. -/
def initial : State UInt64 :=
  ⟨0x6a09e667f3bcc908, 0xbb67ae8584caa73b, 0x3c6ef372fe94f82b, 0xa54ff53a5f1d36f1,
   0x510e527fade682d1, 0x9b05688c2b3e6c1f, 0x1f83d9abfb41bd6b, 0x5be0cd19137e2179⟩

/-- SHA-2 over words of 64 bits. -/
def variant : Variant UInt64 where
  wordBytes := 8
  ofNat := UInt64.ofNat
  toNat := UInt64.toNat
  bigSigma0 w := rotate w 28 ^^^ rotate w 34 ^^^ rotate w 39
  bigSigma1 w := rotate w 14 ^^^ rotate w 18 ^^^ rotate w 41
  smallSigma0 w := rotate w 1 ^^^ rotate w 8 ^^^ w >>> 7
  smallSigma1 w := rotate w 19 ^^^ rotate w 61 ^^^ w >>> 6
  constants := constants
  initial := initial

end Sha512

/-- The SHA-512 digest of a message. -/
def sha512 (message : List UInt8) : Octets 64 :=
  ⟨Sha512.variant.digest message, Sha512.variant.length_digest message⟩

end StellarTx.Hash
