/-
# Building fee bumps

A fee bump pays a base fee for each operation of the inner transaction and for itself.  The base fee
is at least that of the inner transaction, rounded down.
-/
import StellarTx.Build.Draft

namespace StellarTx

/-- The signed transaction that a fee bump carries, signatures included. -/
def Envelope.bumpable : Envelope → Except BuildError (Signed Transaction)
  | v0 env => .ok env.toV1
  | v1 env => .ok env
  | feeBump _ => .error .nestedFeeBump

namespace FeeBump

/-- The fee per operation of a transaction, rounded down. -/
def innerBaseFee (tx : Transaction) : Nat := tx.fee.toNat / tx.operations.length

/-- The fee of a bump over a number of operations, if it can be told. -/
def totalFee (baseFee : Int64) (operations : Nat) : Except BuildError Int64 :=
  let fee := baseFee.toInt * (operations + 1)
  if Int64.minValue.toInt ≤ fee ∧ fee ≤ Int64.maxValue.toInt then .ok (Int64.ofInt fee)
  else
    let shown := if 0 ≤ baseFee.toInt ∧ baseFee.toInt < UInt32.size then baseFee.toInt.toNat
      else UInt32.size - 1
    .error (.feeOverflow (UInt32.ofNat shown) (operations + 1))

/-- The fee bump of an envelope, without signatures of its own. -/
def build (feeSource : MuxedAccount) (baseFee : Int64) (inner : Envelope) :
    Except BuildError (Signed FeeBump) := do
  let inner ← inner.bumpable
  let operations := inner.tx.operations.length
  if operations = 0 then throw .noOperations
  if baseFee.toInt < innerBaseFee inner.tx then
    throw (.belowInner baseFee (innerBaseFee inner.tx))
  let fee ← totalFee baseFee operations
  return .unsigned { feeSource, fee, inner }

end FeeBump

end StellarTx
