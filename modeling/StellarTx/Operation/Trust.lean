/-
# Trust

Operations with which an account trusts an issuer, and those with which the issuer rules over the
trust lines of its asset.
-/
import StellarTx.Asset.Pool

namespace StellarTx.Operation

open Format (field)

/-- Sets how much of an asset the source account accepts; the limit zero ends the trust. -/
structure ChangeTrust where
  line : ChangeTrustAsset
  limit : Int64
  deriving DecidableEq

def ChangeTrust.format : Format ChangeTrust :=
  ((field "line" ChangeTrustAsset.format).and <| field "limit" .amount).map
    (fun (line, limit) => ⟨line, limit⟩) fun op => (op.line, op.limit)

/-- Authorizes a trust line in an asset that the source account issues. -/
structure AllowTrust where
  trustor : AccountId
  asset : AssetCode
  authorize : UInt32
  deriving DecidableEq

def AllowTrust.format : Format AllowTrust :=
  ((field "trustor" AccountId.format).and <| (field "asset" AssetCode.format).and <|
    field "authorize" .uint32).map
    (fun (trustor, asset, authorize) => ⟨trustor, asset, authorize⟩)
    fun op => (op.trustor, op.asset, op.authorize)

/-- Clears and sets flags of a trust line. -/
structure SetTrustLineFlags where
  trustor : AccountId
  asset : Asset
  clearFlags : UInt32
  setFlags : UInt32
  deriving DecidableEq

def SetTrustLineFlags.format : Format SetTrustLineFlags :=
  ((field "trustor" AccountId.format).and <| (field "asset" Asset.format).and <|
    (field "clearFlags" .uint32).and <| field "setFlags" .uint32).map
    (fun (trustor, asset, clear, set) => ⟨trustor, asset, clear, set⟩)
    fun op => (op.trustor, op.asset, op.clearFlags, op.setFlags)

/-- Takes an amount back from an account. -/
structure Clawback where
  asset : Asset
  holder : MuxedAccount
  amount : Int64
  deriving DecidableEq

def Clawback.format : Format Clawback :=
  ((field "asset" Asset.format).and <| (field "from" MuxedAccount.format).and <|
    field "amount" .amount).map
    (fun (asset, holder, amount) => ⟨asset, holder, amount⟩)
    fun op => (op.asset, op.holder, op.amount)

end StellarTx.Operation
