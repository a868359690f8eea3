/-
# Sponsorships

Operations with which one account pays the reserves of another, and stops doing so.
-/
import StellarTx.LedgerKey

namespace StellarTx.Operation

open Format (union arm field)

/-- Starts to pay the reserves of an account. -/
structure BeginSponsoringFutureReserves where
  sponsored : AccountId
  deriving DecidableEq

def BeginSponsoringFutureReserves.format : Format BeginSponsoringFutureReserves :=
  (field "sponsoredID" AccountId.format).map BeginSponsoringFutureReserves.mk (·.sponsored)

/-- Stops to pay the reserve of an entry or of a signer. -/
inductive RevokeSponsorship where
  | entry (key : LedgerKey)
  | signer (account : AccountId) (key : SignerKey)
  deriving DecidableEq

def RevokeSponsorship.format : Format RevokeSponsorship :=
  union "RevokeSponsorshipType"
    [arm 0 "REVOKE_SPONSORSHIP_LEDGER_ENTRY" (field "ledgerKey" LedgerKey.format)
        entry fun | entry key => some key | _ => none,
     arm 1 "REVOKE_SPONSORSHIP_SIGNER"
        (field "signer" ((field "accountID" AccountId.format).and <|
          field "signerKey" SignerKey.format))
        (fun (account, key) => signer account key)
        fun | signer account key => some (account, key) | _ => none]

end StellarTx.Operation
