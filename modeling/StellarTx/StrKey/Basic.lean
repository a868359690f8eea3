/-
# Keys as text

Everything like a key has a text form: a version byte, a body and a checksum in base 32.  The
version byte is chosen so that the first character tells what the key is.  A body is 32 bytes for
most kinds; a multiplexed account adds its id, and a signed payload adds its length and its bytes,
padded with zeros to a multiple of four.
-/
import StellarTx.Octets
import StellarTx.Crc16
import StellarTx.Text.Base32
import StellarTx.StrKey.Error

namespace StellarTx

/-- What a key can be. -/
inductive StrKey where
  /-- `G...`: the public key of an account. -/
  | accountId (key : Octets 32)
  /-- `M...`: an account with a number of its owner's choice. -/
  | muxedAccount (key : Octets 32) (id : UInt64)
  /-- `S...`: the secret seed of an account. -/
  | secretSeed (seed : Octets 32)
  /-- `T...`: the hash of a transaction that is authorized in advance. -/
  | preAuthTx (hash : Octets 32)
  /-- `X...`: the digest of a secret. -/
  | hashX (hash : Octets 32)
  /-- `P...`: a public key together with the payload it has to sign. -/
  | signedPayload (key : Octets 32) (payload : List UInt8)
  /-- `C...`: a contract. -/
  | contract (id : Octets 32)
  deriving DecidableEq

namespace StrKey

/-- The kinds of keys. -/
inductive Kind where
  | accountId
  | muxedAccount
  | secretSeed
  | preAuthTx
  | hashX
  | signedPayload
  | contract
  deriving DecidableEq, Repr

namespace Kind

/-- All kinds. -/
def all : List Kind :=
  [accountId, muxedAccount, secretSeed, preAuthTx, hashX, signedPayload, contract]

/-- The version byte.  Its top five bits select the first character. -/
def version : Kind → UInt8
  | accountId => 0x30
  | muxedAccount => 0x60
  | secretSeed => 0x90
  | preAuthTx => 0x98
  | hashX => 0xb8
  | signedPayload => 0x78
  | contract => 0x10

/-- The kind with a version byte. -/
def ofVersion? (byte : UInt8) : Option Kind :=
  all.find? fun kind => kind.version == byte

/-- The character that every key of a kind starts with. -/
def letter (kind : Kind) : Char :=
  Text.Base32.symbol (kind.version.toNat / 8)

theorem ofVersion?_version (kind : Kind) : ofVersion? kind.version = some kind := by
  cases kind <;> rfl

end Kind

/-- The kind of a key. -/
def kind : StrKey → Kind
  | accountId _ => .accountId
  | muxedAccount _ _ => .muxedAccount
  | secretSeed _ => .secretSeed
  | preAuthTx _ => .preAuthTx
  | hashX _ => .hashX
  | signedPayload _ _ => .signedPayload
  | contract _ => .contract

/-- The longest payload that a signed payload can be read with. -/
def maxPayload : Nat := 64

/-! ## Writing -/

/-- The bytes between the version byte and the checksum. -/
def body : StrKey → List UInt8
  | accountId key | secretSeed key | preAuthTx key | hashX key | contract key => key.toList
  | muxedAccount key id => key.toList ++ bigEndian 8 id.toNat
  | signedPayload key payload =>
    key.toList ++ bigEndian 4 payload.length ++ padded payload

/-- A version byte and a body, followed by their checksum, in base 32. -/
def wrap (version : UInt8) (body : List UInt8) : String :=
  let bytes := version :: body
  Text.Base32.encode (bytes ++ Crc16.checksumBytes bytes)

/-- The text of a key. -/
def encode (key : StrKey) : String :=
  wrap key.kind.version key.body

/-! ## Reading -/

/-- The version byte and the body under a checksum.  The checksum is compared before the unused bits
and the version are looked at, so that a corrupted character shows as a wrong checksum. -/
def unwrap (text : String) : Except Error (UInt8 × List UInt8) :=
  match Text.Base32.decode text with
  | .error foreign => .error (.character foreign.char foreign.position)
  | .ok decoded =>
    let bytes := decoded.bytes
    if bytes.length < 3 then .error (.length bytes.length)
    else
      let covered := bytes.take (bytes.length - 2)
      if bytes.drop (bytes.length - 2) ≠ Crc16.checksumBytes covered then .error .checksum
      else if !decoded.canonical then .error .encoding
      else match covered with
        | version :: body => .ok (version, body)
        | [] => .error (.length bytes.length)

/-- A body of exactly 32 bytes. -/
def key32 (body : List UInt8) : Except Error (Octets 32) :=
  match Octets.ofList? 32 body with
  | some key => .ok key
  | none => .error (.length body.length)

/-- A public key and an id. -/
def readMuxed (body : List UInt8) : Except Error StrKey :=
  if body.length ≠ 40 then .error (.length body.length)
  else do
    let key ← key32 (body.take 32)
    return muxedAccount key (UInt64.ofNat (ofBigEndian (body.drop 32)))

/-- A public key, the length of the payload, the payload and its padding. -/
def readSignedPayload (body : List UInt8) : Except Error StrKey :=
  if body.length < 36 then .error (.length body.length)
  else do
    let key ← key32 (body.take 32)
    let length := ofBigEndian ((body.drop 32).take 4)
    let rest := body.drop 36
    if maxPayload < length then throw (.length body.length)
    if rest.length ≠ length + padLength length then throw (.length body.length)
    if (rest.drop length).any (· ≠ 0) then throw .encoding
    return signedPayload key (rest.take length)

/-- The key of a kind that a body holds. -/
def ofBody (kind : Kind) (body : List UInt8) : Except Error StrKey :=
  match kind with
  | .accountId => accountId <$> key32 body
  | .secretSeed => secretSeed <$> key32 body
  | .preAuthTx => preAuthTx <$> key32 body
  | .hashX => hashX <$> key32 body
  | .contract => contract <$> key32 body
  | .muxedAccount => readMuxed body
  | .signedPayload => readSignedPayload body

/-- The key of any kind that a text stands for. -/
def decode (text : String) : Except Error StrKey := do
  let (version, body) ← unwrap text
  match Kind.ofVersion? version with
  | none => throw (.version version)
  | some kind => ofBody kind body

/-- The 32 bytes of a text that must be of one kind. -/
def decode32 (kind : Kind) (text : String) : Except Error (Octets 32) := do
  let (version, body) ← unwrap text
  if version ≠ kind.version then throw (.version version)
  key32 body

/-- The public key that a `G...` text stands for. -/
def decodeAccountId : String → Except Error (Octets 32) := decode32 .accountId

/-- The seed that an `S...` text stands for. -/
def decodeSecretSeed : String → Except Error (Octets 32) := decode32 .secretSeed

/-- The contract that a `C...` text stands for. -/
def decodeContract : String → Except Error (Octets 32) := decode32 .contract

/-- The public key and the id that an `M...` text stands for. -/
def decodeMuxedAccount (text : String) : Except Error (Octets 32 × UInt64) := do
  match ← decode text with
  | muxedAccount key id => return (key, id)
  | other => throw (.version other.kind.version)

/-- The text of a key as a log may show it: seeds are hidden. -/
def shown : StrKey → String
  | secretSeed _ => "S..."
  | key => key.encode

end StrKey

end StellarTx
