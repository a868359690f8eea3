/-
# Hints

A signature carries four bytes that tell which signer may have made it.
-/
import StellarTx.Account

namespace StellarTx

/-- The last four bytes of a payload, filled up with zeros on the right if there are fewer. -/
def payloadHint (payload : List UInt8) : Octets 4 :=
  if h : 4 ≤ payload.length then ⟨payload.drop (payload.length - 4), by simp; omega⟩
  else ⟨payload ++ List.replicate (4 - payload.length) 0, by simp; omega⟩

/-- The hint of a key that is bound to a payload. -/
def signedPayloadHint (key : Octets 32) (payload : List UInt8) : Octets 4 :=
  key.lastFour.xor (payloadHint payload)

/-- The hint of a signer.  The hash of a transaction authorizes without a signature and has none. -/
def SignerKey.hint? : SignerKey → Option (Octets 4)
  | ed25519 key => some key.lastFour
  | preAuthTx _ => none
  | hashX hash => some hash.lastFour
  | signedPayload key payload => some (signedPayloadHint key payload)

end StellarTx
