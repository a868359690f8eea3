/-
# Why a transaction is not built
-/
import StellarTx.Transaction.Basic

namespace StellarTx

/-- Why a transaction, or a fee bump, is not built. -/
inductive BuildError where
  | noOperations
  | tooManyOperations (count : Nat)
  | feeOverflow (baseFee : UInt32) (operations : Nat)
  | invalidOperation (index : Nat) (e : ValidationError)
  | tooManyExtraSigners (count : Nat)
  | invalidTimeBounds (bounds : TimeBounds)
  | invalidLedgerBounds (bounds : LedgerBounds)
  /-- The fee per operation is below that of the inner transaction. -/
  | belowInner (baseFee : Int64) (inner : Nat)
  | nestedFeeBump
  deriving DecidableEq

/-- The wording of an error. -/
def BuildError.message : BuildError → String
  | noOperations => "transaction has no operations"
  | tooManyOperations count => s!"transaction has {count} operations, maximum is {maxOperations}"
  | feeOverflow baseFee operations =>
    s!"fee overflow: base fee {baseFee.toNat} x {operations} operations"
  | invalidOperation index e => s!"operation {index} is invalid: {e.message}"
  | tooManyExtraSigners count => s!"{count} extra signers, maximum is {maxExtraSigners}"
  | invalidTimeBounds bounds =>
    s!"invalid time bounds: min {bounds.minTime.toNat} is after max {bounds.maxTime.toNat}"
  | invalidLedgerBounds bounds =>
    s!"invalid ledger bounds: min {bounds.minLedger.toNat} is after max {bounds.maxLedger.toNat}"
  | belowInner baseFee inner =>
    s!"fee-bump base fee {baseFee.toInt} is below the inner transaction\x27s {inner}"
  | nestedFeeBump => "cannot fee-bump a fee-bump transaction"

end StellarTx
