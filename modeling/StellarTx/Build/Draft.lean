/-
# Drafts of transactions

A draft collects what a transaction is to hold, one request after another.  Nothing is checked until
it is built, and then the first condition that fails, in a fixed order, is the error.
-/
import StellarTx.Build.Error
import StellarTx.Transaction.Envelope

namespace StellarTx

/-- The fee per operation, unless another is asked for. -/
def defaultBaseFee : UInt32 := 100

/-- A transaction that is still being put together. -/
structure Draft where
  sourceAccount : MuxedAccount
  seqNum : Int64
  baseFee : UInt32 := defaultBaseFee
  memo : Memo := .none
  conditions : Conditions := {}
  operations : List Operation := []
  deriving DecidableEq

/-- What can be asked of a draft. -/
inductive Request where
  | baseFee (fee : UInt32)
  | memo (memo : Memo)
  | timeBounds (bounds : TimeBounds)
  /-- An end so many seconds from now. -/
  | timeout (now seconds : UInt64)
  | ledgerBounds (bounds : LedgerBounds)
  | minSeqNum (seqNum : Int64)
  | minSeqAge (seconds : UInt64)
  | minSeqLedgerGap (ledgers : UInt32)
  | extraSigner (signer : SignerKey)
  | operation (op : Operation)
  deriving DecidableEq

namespace Draft

/-- The end of a time that starts now, at most the last one that can be told. -/
def deadline (now seconds : UInt64) : UInt64 :=
  UInt64.ofNat (min (now.toNat + seconds.toNat) (UInt64.size - 1))

/-- The draft after a request. -/
def apply (d : Draft) : Request → Draft
  | .baseFee fee => { d with baseFee := fee }
  | .memo memo => { d with memo }
  | .timeBounds bounds => { d with conditions.timeBounds := bounds }
  | .timeout now seconds =>
    let minTime := (d.conditions.timeBounds.map (·.minTime)).getD 0
    { d with conditions.timeBounds := some ⟨minTime, deadline now seconds⟩ }
  | .ledgerBounds bounds => { d with conditions.ledgerBounds := bounds }
  | .minSeqNum seqNum => { d with conditions.minSeqNum := seqNum }
  | .minSeqAge seconds => { d with conditions.minSeqAge := seconds }
  | .minSeqLedgerGap ledgers => { d with conditions.minSeqLedgerGap := ledgers }
  | .extraSigner signer =>
    { d with conditions.extraSigners := d.conditions.extraSigners ++ [signer] }
  | .operation op => { d with operations := d.operations ++ [op] }

/-- The draft after requests, in order. -/
def applyAll (d : Draft) (requests : List Request) : Draft :=
  requests.foldl apply d

/-! ## Building -/

/-- Refuses the first operation that is not valid; the first of these has index `i`. -/
def checkOperations (i : Nat) : List Operation → Except BuildError Unit
  | [] => .ok ()
  | op :: rest =>
    match op.body.validate with
    | .error e => .error (.invalidOperation i e)
    | .ok () => checkOperations (i + 1) rest

/-- Refuses bounds that end before they start, and too many extra signers. -/
def checkConditions (c : Conditions) : Except BuildError Unit := do
  if let some bounds := c.timeBounds then
    if bounds.maxTime ≠ 0 ∧ bounds.maxTime < bounds.minTime then
      throw (.invalidTimeBounds bounds)
  if let some bounds := c.ledgerBounds then
    if bounds.maxLedger ≠ 0 ∧ bounds.maxLedger < bounds.minLedger then
      throw (.invalidLedgerBounds bounds)
  if maxExtraSigners < c.extraSigners.length then
    throw (.tooManyExtraSigners c.extraSigners.length)

/-- The fee of a number of operations, if it can be told. -/
def fee (baseFee : UInt32) (operations : Nat) : Except BuildError UInt32 :=
  if baseFee.toNat * operations < UInt32.size then .ok (UInt32.ofNat (baseFee.toNat * operations))
  else .error (.feeOverflow baseFee operations)

/-- The transaction that was asked for. -/
def build (d : Draft) : Except BuildError Transaction := do
  let count := d.operations.length
  if count = 0 then throw .noOperations
  if maxOperations < count then throw (.tooManyOperations count)
  checkOperations 0 d.operations
  checkConditions d.conditions
  let fee ← fee d.baseFee count
  return {
    sourceAccount := d.sourceAccount
    fee
    seqNum := d.seqNum
    cond := .minimal d.conditions
    memo := d.memo
    operations := d.operations }

/-- The transaction that was asked for, without signatures. -/
def buildEnvelope (d : Draft) : Except BuildError Envelope := do
  return .v1 (.unsigned (← d.build))

end Draft

end StellarTx
