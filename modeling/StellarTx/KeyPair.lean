/-
# Key pairs

A key pair is kept as its secret seed, from which the public key follows.
-/
import StellarTx.Account
import StellarTx.Ed25519.Signature

namespace StellarTx

/-- A secret seed and the public key that belongs to it. -/
structure KeyPair where
  seed : Octets 32
  deriving DecidableEq

/-- Why a text is no secret key.  The text is a secret, so the error does not repeat any of it. -/
inductive KeyError where
  | secretKey
  deriving DecidableEq, Repr

/-- The wording of an error. -/
def KeyError.message : KeyError → String
  | .secretKey => "invalid secret key: not a well-formed S... seed"

namespace KeyPair

/-- The key pair of an `S...` text, blanks around which do not count. -/
def ofSecret (text : String) : Except KeyError KeyPair :=
  match StrKey.decodeSecretSeed (String.ofList (Text.trim text.toList)) with
  | .ok seed => .ok ⟨seed⟩
  | .error _ => .error .secretKey

/-- The `S...` text of the seed. -/
def secret (pair : KeyPair) : String := (StrKey.secretSeed pair.seed).encode

def publicKey (pair : KeyPair) : Octets 32 := Ed25519.publicKey pair.seed

/-- The account that the key pair controls. -/
def accountId (pair : KeyPair) : AccountId := ⟨pair.publicKey⟩

/-- The public key as a signer. -/
def signerKey (pair : KeyPair) : SignerKey := .ed25519 pair.publicKey

/-- The last four bytes of the public key. -/
def hint (pair : KeyPair) : Octets 4 := pair.publicKey.lastFour

/-- The signature of a message. -/
def sign (pair : KeyPair) (message : List UInt8) : Octets 64 := Ed25519.sign pair.seed message

/-- Whether a byte string is a signature of a message by this key pair. -/
def verify (pair : KeyPair) (message signature : List UInt8) : Bool :=
  Ed25519.verify pair.publicKey message signature

/-- The key pair without its secret. -/
def shown (pair : KeyPair) : String := "KeyPair(pub=" ++ pair.accountId.toText ++ ")"

end KeyPair

end StellarTx
