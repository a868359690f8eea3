/-
# Ed25519 signatures

A seed is hashed into a secret scalar and a nonce seed.  Signing is deterministic.  Verification
accepts a signature `R ‖ S` with `S` below the group order whose `R` is, byte for byte, the
compressed form of `S · B - k · A`; the key bytes enter `k` as they were given.
-/
import StellarTx.Hash.Sha2
import StellarTx.Ed25519.Point

namespace StellarTx.Ed25519

/-- The order of the group that the generator spans. -/
def order : Nat := 1 <<< 252 + 27742317777372353535851937790883648493

/-- The secret scalar of a seed: the first half of its digest with the three low bits and the top
bit cleared and the bit below the top set. -/
def secretScalar (seed : Octets 32) : Nat :=
  let n := ofLittleEndian ((Hash.sha512 seed.toList).toList.take 32)
  1 <<< 254 + n % 1 <<< 254 / 8 * 8

/-- The part of a seed's digest that makes nonces. -/
def nonceSeed (seed : Octets 32) : List UInt8 :=
  (Hash.sha512 seed.toList).toList.drop 32

/-- A digest as a scalar modulo the group order. -/
def hashToScalar (bytes : List UInt8) : Nat :=
  ofLittleEndian (Hash.sha512 bytes).toList % order

/-- The public key of a seed. -/
def publicKey (seed : Octets 32) : Octets 32 :=
  (Point.smul (secretScalar seed) Point.base).compress

/-- The signature of a message under a seed. -/
def sign (seed : Octets 32) (message : List UInt8) : Octets 64 :=
  let key := publicKey seed
  let nonce := hashToScalar (nonceSeed seed ++ message)
  let r := (Point.smul nonce Point.base).compress
  let k := hashToScalar (r.toList ++ key.toList ++ message)
  let s := littleEndian32 ((nonce + k * secretScalar seed) % order)
  ⟨r.toList ++ s.toList, by simp [r.length_eq, s.length_eq]⟩

/-- Whether a byte string of any length is a signature of the message under the key. -/
def verify (key : Octets 32) (message signature : List UInt8) : Bool :=
  match Point.decompress? key with
  | none => false
  | some point =>
    let r := signature.take 32
    let s := ofLittleEndian (signature.drop 32)
    let k := hashToScalar (r ++ key.toList ++ message)
    signature.length == 64 && decide (s < order) &&
      ((Point.smul s Point.base).add (Point.smul k point).neg).compress.toList == r

end StellarTx.Ed25519
