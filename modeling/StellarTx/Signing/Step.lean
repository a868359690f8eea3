/-
# Signing

Signatures are made over a digest of the signature base: the id of the network and the tagged
transaction.  A signature is added at the end of the outer list, which holds at most twenty, and
nothing else of the envelope changes.  A call signs an envelope in place (`Signing`), and so it also
leaves one behind when it fails.  `SigningStep` is one way to add a signature, and
`Envelope.signAll` goes through a list of them.
-/
import StellarTx.KeyPair
import StellarTx.Network
import StellarTx.Signing.Hint
import StellarTx.Transaction.Envelope

namespace StellarTx

/-- Why an envelope is not signed. -/
inductive SigningError where
  | secretKey
  | tooManySignatures
  | preimageTooLong (length : Nat)
  | payloadTooLong (length : Nat)
  /-- The transaction cannot be written. -/
  | encoding (e : Xdr.Error)
  deriving DecidableEq, Repr

/-- The wording of an error. -/
def SigningError.message : SigningError → String
  | secretKey => "invalid secret key"
  | tooManySignatures => s!"envelope already has {maxSignatures} signatures"
  | preimageTooLong length => s!"preimage is {length} bytes, maximum is {maxSignature}"
  | payloadTooLong length => s!"signed payload is {length} bytes, maximum is {maxSignedPayload}"
  | encoding e => "failed to encode transaction: " ++ e.message

/-! ## What is signed -/

namespace Envelope

/-- The bytes whose digest is signed. -/
def signatureBase (env : Envelope) (network : Network) : Except SigningError (List UInt8) :=
  match SignaturePayload.format.toBytes ⟨network.id, env.tagged⟩ with
  | .ok bytes => .ok bytes
  | .error e => .error (.encoding e)

/-- The digest that is signed, which also names the transaction. -/
def hash (env : Envelope) (network : Network) : Except SigningError (Octets 32) :=
  Hash.sha256 <$> env.signatureBase network

/-- The signature of a key pair on the transaction. -/
def signature (env : Envelope) (pair : KeyPair) (network : Network) :
    Except SigningError DecoratedSignature := do
  let hash ← env.hash network
  return ⟨pair.hint, (pair.sign hash.toList).toList⟩

end Envelope

/-- The signature that reveals what a digest was made of. -/
def hashXSignature (preimage : List UInt8) : Except SigningError DecoratedSignature :=
  if maxSignature < preimage.length then .error (.preimageTooLong preimage.length)
  else .ok ⟨(Hash.sha256 preimage).lastFour, preimage⟩

/-- The signature of a key pair on a payload. -/
def payloadSignature (pair : KeyPair) (payload : List UInt8) :
    Except SigningError DecoratedSignature :=
  if maxSignedPayload < payload.length then .error (.payloadTooLong payload.length)
  else .ok ⟨signedPayloadHint pair.publicKey payload, (pair.sign payload).toList⟩

/-! ## Calls -/

/-- A call that signs an envelope in place.  It may fail, and leaves an envelope behind in either
case. -/
abbrev Signing := EStateM SigningError Envelope

namespace Signing

/-- Refuses an envelope that has no room for a signature. -/
def checkRoom : Signing Unit := do
  if maxSignatures ≤ (← get).signatures.length then throw .tooManySignatures

/-- Adds a signature, whoever made it. -/
def add (signature : DecoratedSignature) : Signing Unit := do
  checkRoom
  modify fun env => env.withSignatures (env.signatures ++ [signature])

/-- Goes on with a signature, or fails as making it did. -/
def made : Except SigningError DecoratedSignature → Signing DecoratedSignature
  | .ok signature => return signature
  | .error e => throw e

/-- Signs with a key pair. -/
def sign (pair : KeyPair) (network : Network) : Signing Unit := do
  checkRoom
  let signature ← made ((← get).signature pair network)
  add signature

/-- The envelope that a call leaves behind if it does not fail. -/
def after (call : Signing Unit) (env : Envelope) : Except SigningError Envelope :=
  match call.run env with
  | .ok _ env => .ok env
  | .error e _ => .error e

end Signing

/-- The envelope signed with a key pair. -/
def Envelope.sign (env : Envelope) (pair : KeyPair) (network : Network) :
    Except SigningError Envelope :=
  (Signing.sign pair network).after env

/-! ## Steps -/

/-- One way to add a signature. -/
inductive SigningStep where
  | keyPair (pair : KeyPair) (network : Network)
  | secret (text : String) (network : Network)
  | hashX (preimage : List UInt8)
  | payload (pair : KeyPair) (payload : List UInt8)
  | ready (signature : DecoratedSignature)
  deriving DecidableEq

/-- The call that a step makes. -/
def SigningStep.call : SigningStep → Signing Unit
  | .keyPair pair network => Signing.sign pair network
  | .secret text network =>
    match KeyPair.ofSecret text with
    | .ok pair => Signing.sign pair network
    | .error _ => throw .secretKey
  | .hashX preimage => do Signing.add (← Signing.made (hashXSignature preimage))
  | .payload pair message => do Signing.add (← Signing.made (payloadSignature pair message))
  | .ready signature => Signing.add signature

/-- The envelope after one step, if the step does not fail. -/
def Envelope.signStep (env : Envelope) (step : SigningStep) : Except SigningError Envelope :=
  step.call.after env

/-- The envelope after all steps, and how each of them ended.  The steps after one that failed go on
with the envelope that it left behind. -/
def Envelope.signAll (env : Envelope) :
    List SigningStep → Envelope × List (Except SigningError Unit)
  | [] => (env, [])
  | step :: rest =>
    match step.call.run env with
    | .ok () env =>
      let (last, results) := env.signAll rest
      (last, .ok () :: results)
    | .error e env =>
      let (last, results) := env.signAll rest
      (last, .error e :: results)

end StellarTx
