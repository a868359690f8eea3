/-
# Claimants and claimable balances

A claimant is an account together with the condition under which it may claim a balance.
-/
import StellarTx.Account
import StellarTx.Claim.Predicate

namespace StellarTx

open Format (union arm field octets)

/-- An account that may claim a balance, and when. -/
structure Claimant where
  destination : AccountId
  predicate : ClaimPredicate
  deriving DecidableEq

namespace Claimant

/-- The greatest number of claimants of one balance. -/
def maxCount : Nat := BoundedField.claimants.max

/-- A claimant whose predicate is valid. -/
def make (destination : AccountId) (predicate : ClaimPredicate) :
    Except ValidationError Claimant := do
  predicate.validate
  return ⟨destination, predicate⟩

def format : Format Claimant :=
  union "ClaimantType"
    [arm 0 "CLAIMANT_TYPE_V0"
      (field "v0" ((field "destination" AccountId.format).and <|
        field "predicate" ClaimPredicate.format))
      (fun (destination, predicate) => ⟨destination, predicate⟩)
      fun c => some (c.destination, c.predicate)]

end Claimant

/-- The id of a claimable balance. -/
structure ClaimableBalanceId where
  hash : Octets 32
  deriving DecidableEq

def ClaimableBalanceId.format : Format ClaimableBalanceId :=
  union "ClaimableBalanceIDType"
    [arm 0 "CLAIMABLE_BALANCE_ID_TYPE_V0" (field "v0" (octets 32))
      ClaimableBalanceId.mk fun id => some id.hash]

end StellarTx
