/-
# Accounts and signers

An account is a public key.  A multiplexed account adds a number that only its owner uses.  A signer
is anything that can authorize a transaction: a public key, the hash of one transaction, the digest
of a secret, or a public key bound to a payload.  In text all of them are keys.
-/
import StellarTx.StrKey.Basic
import StellarTx.Format.Scalar
import StellarTx.Format.Union

namespace StellarTx

open Format (union arm field octets)

/-- The value that a text stands for, if the key it spells is of a suitable kind. -/
def StrKey.decodeAs {α : Type} (ofKey? : StrKey → Option α) (text : String) :
    Except StrKey.Error α := do
  let key ← decode text
  match ofKey? key with
  | some a => return a
  | none => throw (.version key.kind.version)

/-! ## Accounts -/

/-- An account: a public key. -/
structure AccountId where
  key : Octets 32
  deriving DecidableEq

namespace AccountId

/-- The `G...` text of an account. -/
def toText (a : AccountId) : String := (StrKey.accountId a.key).encode

/-- The account that a `G...` text stands for. -/
def ofText (text : String) : Except StrKey.Error AccountId :=
  AccountId.mk <$> StrKey.decodeAccountId text

def format : Format AccountId :=
  (union "PublicKeyType"
    [arm 0 "PUBLIC_KEY_TYPE_ED25519" (octets 32) AccountId.mk fun a => some a.key]).token
    toText (ofText · |>.toOption)

end AccountId

/-! ## Multiplexed accounts -/

/-- An account, plain or with a number of its owner's choice. -/
inductive MuxedAccount where
  | ed25519 (key : Octets 32)
  | muxed (id : UInt64) (key : Octets 32)
  deriving DecidableEq

namespace MuxedAccount

/-- The public key. -/
def key : MuxedAccount → Octets 32
  | ed25519 key => key
  | muxed _ key => key

/-- The account without its number. -/
def accountId (a : MuxedAccount) : AccountId := ⟨a.key⟩

/-- The number, if there is one. -/
def id? : MuxedAccount → Option UInt64
  | ed25519 _ => none
  | muxed id _ => some id

def toStrKey : MuxedAccount → StrKey
  | ed25519 key => .accountId key
  | muxed id key => .muxedAccount key id

def ofStrKey? : StrKey → Option MuxedAccount
  | .accountId key => some (ed25519 key)
  | .muxedAccount key id => some (muxed id key)
  | _ => none

/-- The `G...` or `M...` text of an account. -/
def toText (a : MuxedAccount) : String := a.toStrKey.encode

/-- The account that a `G...` or `M...` text stands for. -/
def ofText : String → Except StrKey.Error MuxedAccount := StrKey.decodeAs ofStrKey?

def format : Format MuxedAccount :=
  (union "MuxedAccount"
    [arm 0 "KEY_TYPE_ED25519" (octets 32)
        ed25519 fun | ed25519 key => some key | _ => none,
     arm 0x100 "KEY_TYPE_MUXED_ED25519" ((field "id" .uint64).and (field "ed25519" (octets 32)))
        (fun (id, key) => muxed id key) fun | muxed id key => some (id, key) | _ => none]).token
    toText (ofText · |>.toOption)

end MuxedAccount

/-- An account as a plain multiplexed account. -/
def AccountId.toMuxed (a : AccountId) : MuxedAccount := .ed25519 a.key

/-! ## Signers -/

/-- The longest payload that a signer can be bound to. -/
def maxSignedPayload : Nat := 64

/-- What can authorize a transaction. -/
inductive SignerKey where
  | ed25519 (key : Octets 32)
  | preAuthTx (hash : Octets 32)
  | hashX (hash : Octets 32)
  | signedPayload (key : Octets 32) (payload : List UInt8)
  deriving DecidableEq

namespace SignerKey

def toStrKey : SignerKey → StrKey
  | ed25519 key => .accountId key
  | preAuthTx hash => .preAuthTx hash
  | hashX hash => .hashX hash
  | signedPayload key payload => .signedPayload key payload

def ofStrKey? : StrKey → Option SignerKey
  | .accountId key => some (ed25519 key)
  | .preAuthTx hash => some (preAuthTx hash)
  | .hashX hash => some (hashX hash)
  | .signedPayload key payload => some (signedPayload key payload)
  | _ => none

/-- The `G...`, `T...`, `X...` or `P...` text of a signer. -/
def toText (k : SignerKey) : String := k.toStrKey.encode

/-- The signer that such a text stands for. -/
def ofText : String → Except StrKey.Error SignerKey := StrKey.decodeAs ofStrKey?

def format : Format SignerKey :=
  (union "SignerKey"
    [arm 0 "SIGNER_KEY_TYPE_ED25519" (octets 32)
        ed25519 fun | ed25519 key => some key | _ => none,
     arm 1 "SIGNER_KEY_TYPE_PRE_AUTH_TX" (octets 32)
        preAuthTx fun | preAuthTx hash => some hash | _ => none,
     arm 2 "SIGNER_KEY_TYPE_HASH_X" (octets 32)
        hashX fun | hashX hash => some hash | _ => none,
     arm 3 "SIGNER_KEY_TYPE_ED25519_SIGNED_PAYLOAD"
        ((field "ed25519" (octets 32)).and (field "payload" (.bytes maxSignedPayload)))
        (fun (key, payload) => signedPayload key payload)
        fun | signedPayload key payload => some (key, payload) | _ => none]).token
    toText (ofText · |>.toOption)

end SignerKey

/-- A signer of an account and its weight; the weight zero removes it. -/
structure Signer where
  key : SignerKey
  weight : UInt32
  deriving DecidableEq

def Signer.format : Format Signer :=
  ((field "key" SignerKey.format).and (field "weight" .uint32)).map
    (fun (key, weight) => ⟨key, weight⟩) fun s => (s.key, s.weight)

end StellarTx
