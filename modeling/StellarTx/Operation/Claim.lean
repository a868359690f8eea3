/-
# Claimable balances

Operations that set an amount aside for others to claim, that claim it, and that take it back.
-/
import StellarTx.Asset.Basic
import StellarTx.Claim.Basic

namespace StellarTx.Operation

open Format (field array)

/-- Sets an amount aside for claimants. -/
structure CreateClaimableBalance where
  asset : Asset
  amount : Int64
  claimants : List Claimant
  deriving DecidableEq

namespace CreateClaimableBalance

def format : Format CreateClaimableBalance :=
  ((field "asset" Asset.format).and <| (field "amount" .amount).and <|
    field "claimants" (array Claimant.maxCount Claimant.format)).map
    (fun (asset, amount, claimants) => ⟨asset, amount, claimants⟩)
    fun op => (op.asset, op.amount, op.claimants)

/-- Refuses too many claimants, then the first predicate that is not valid. -/
def validate (op : CreateClaimableBalance) : Except ValidationError Unit := do
  BoundedField.claimants.check op.claimants.length
  op.claimants.forM (·.predicate.validate)

end CreateClaimableBalance

/-- Claims a balance. -/
structure ClaimClaimableBalance where
  balance : ClaimableBalanceId
  deriving DecidableEq

def ClaimClaimableBalance.format : Format ClaimClaimableBalance :=
  (field "balanceID" ClaimableBalanceId.format).map ClaimClaimableBalance.mk (·.balance)

/-- Takes a balance of the source account's asset back. -/
structure ClawbackClaimableBalance where
  balance : ClaimableBalanceId
  deriving DecidableEq

def ClawbackClaimableBalance.format : Format ClawbackClaimableBalance :=
  (field "balanceID" ClaimableBalanceId.format).map ClawbackClaimableBalance.mk (·.balance)

end StellarTx.Operation
