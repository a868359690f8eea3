/-
# Verification

Each outer signature of an envelope is matched with one of the candidate signers.  A hint narrows
the candidates down, and the first of them that the signature verifies against is its signer.
-/
import StellarTx.Signing.Step

namespace StellarTx

/-- Why the signatures of an envelope do not verify. -/
inductive VerificationError where
  | unsigned
  /-- No candidate has the hint of a signature. -/
  | unknownSigner (index : Nat) (hint : Octets 4)
  /-- The signature does not verify against any candidate with its hint, of which this is the
  first. -/
  | invalidSignature (index : Nat) (signer : SignerKey)
  /-- There is no digest to verify against. -/
  | signing (e : SigningError)
  deriving DecidableEq

/-- The wording of an error. -/
def VerificationError.message : VerificationError → String
  | unsigned => "envelope is unsigned"
  | unknownSigner index hint =>
    s!"signature {index} has hint {Text.Hex.encode hint.toList} matching no candidate signer"
  | invalidSignature index signer =>
    s!"signature {index} does not verify against {signer.toText}"
  | signing e => e.message

namespace SignerKey

/-- Whether a signer may have made a signature, by its hint. -/
def hasHint (signer : SignerKey) (signature : DecoratedSignature) : Bool :=
  signer.hint? == some signature.hint

/-- Whether a signer made a signature: on the digest of the transaction, by revealing what its own
digest was made of, or on its payload. -/
def verifies (signer : SignerKey) (hash : Octets 32) (signature : DecoratedSignature) : Bool :=
  signer.hasHint signature &&
    match signer with
    | ed25519 key => Ed25519.verify key hash.toList signature.signature
    | preAuthTx _ => false
    | hashX digest => Hash.sha256 signature.signature == digest
    | signedPayload key payload => Ed25519.verify key payload signature.signature

end SignerKey

/-- The candidate that made the signature with the given index. -/
def signerOf (hash : Octets 32) (candidates : List SignerKey) (index : Nat)
    (signature : DecoratedSignature) : Except VerificationError SignerKey :=
  match candidates.filter (·.hasHint signature) with
  | [] => .error (.unknownSigner index signature.hint)
  | first :: rest =>
    match (first :: rest).find? (·.verifies hash signature) with
    | some signer => .ok signer
    | none => .error (.invalidSignature index first)

/-- The candidates that made signatures, the first of which has index `i`. -/
def signersOf (hash : Octets 32) (candidates : List SignerKey) (i : Nat) :
    List DecoratedSignature → Except VerificationError (List SignerKey)
  | [] => .ok []
  | signature :: rest => do
    let signer ← signerOf hash candidates i signature
    let signers ← signersOf hash candidates (i + 1) rest
    return signer :: signers

/-- The signers of the outer signatures, in order. -/
def Envelope.verify (env : Envelope) (network : Network) (candidates : List SignerKey) :
    Except VerificationError (List SignerKey) :=
  if env.signatures = [] then .error .unsigned
  else match env.hash network with
    | .error e => .error (.signing e)
    | .ok hash => signersOf hash candidates 0 env.signatures

end StellarTx
