/-
# Transactions

A transaction has a source account, a fee, a sequence number, preconditions, a memo and operations.
Version 0 differs in how it writes the source account and the time bounds, and `TransactionV0.toV1`
says what it means.  A fee bump pays the fee of another, signed transaction.
-/
import StellarTx.Memo
import StellarTx.Operation.Basic
import StellarTx.Preconditions

namespace StellarTx

open Format (union arm field option array octets)

/-! ## Signatures -/

/-- The greatest number of bytes in a signature. -/
def maxSignature : Nat := 64

/-- The greatest number of signatures on an envelope. -/
def maxSignatures : Nat := 20

/-- A signature and a hint at who made it. -/
structure DecoratedSignature where
  hint : Octets 4
  signature : List UInt8
  deriving DecidableEq

def DecoratedSignature.format : Format DecoratedSignature :=
  ((field "hint" (octets 4)).and <| field "signature" (.bytes maxSignature)).map
    (fun (hint, signature) => ⟨hint, signature⟩) fun s => (s.hint, s.signature)

/-- A transaction of some kind and the signatures on it. -/
structure Signed (τ : Type) where
  tx : τ
  signatures : List DecoratedSignature
  deriving DecidableEq

/-- A transaction without signatures. -/
def Signed.unsigned {τ : Type} (tx : τ) : Signed τ := ⟨tx, []⟩

def Signed.format {τ : Type} (f : Format τ) : Format (Signed τ) :=
  ((field "tx" f).and <|
    field "signatures" (array maxSignatures DecoratedSignature.format)).map
    (fun (tx, signatures) => ⟨tx, signatures⟩) fun s => (s.tx, s.signatures)

/-! ## Transactions -/

/-- The greatest number of operations in a transaction. -/
def maxOperations : Nat := 100

/-- A transaction. -/
structure Transaction where
  sourceAccount : MuxedAccount
  /-- The most that may be charged, in ten-millionths. -/
  fee : UInt32
  seqNum : Int64
  cond : Preconditions
  memo : Memo
  operations : List Operation
  deriving DecidableEq

def Transaction.format : Format Transaction :=
  ((field "sourceAccount" MuxedAccount.format).and <| (field "fee" .uint32).and <|
    (field "seqNum" .int64).and <| (field "cond" Preconditions.format).and <|
    (field "memo" Memo.format).and <|
    (field "operations" (array maxOperations Operation.format)).and <|
    field "ext" (.extension "TransactionExt")).map
    (fun (source, fee, seqNum, cond, memo, operations, ()) =>
      ⟨source, fee, seqNum, cond, memo, operations⟩)
    fun tx => (tx.sourceAccount, tx.fee, tx.seqNum, tx.cond, tx.memo, tx.operations, ())

/-- A transaction in the form before version 1. -/
structure TransactionV0 where
  sourceAccount : Octets 32
  fee : UInt32
  seqNum : Int64
  timeBounds : Option TimeBounds
  memo : Memo
  operations : List Operation
  deriving DecidableEq

namespace TransactionV0

/-- The key of a source account, in text the account. -/
def sourceFormat : Format (Octets 32) :=
  (octets 32).token (fun key => AccountId.toText ⟨key⟩)
    fun text => (AccountId.ofText text).toOption.map (·.key)

def format : Format TransactionV0 :=
  ((field "sourceAccountEd25519" sourceFormat).and <| (field "fee" .uint32).and <|
    (field "seqNum" .int64).and <| (field "timeBounds" (option TimeBounds.format)).and <|
    (field "memo" Memo.format).and <|
    (field "operations" (array maxOperations Operation.format)).and <|
    field "ext" (.extension "TransactionV0Ext")).map
    (fun (source, fee, seqNum, bounds, memo, operations, ()) =>
      ⟨source, fee, seqNum, bounds, memo, operations⟩)
    fun tx => (tx.sourceAccount, tx.fee, tx.seqNum, tx.timeBounds, tx.memo, tx.operations, ())

/-- The same transaction in the current form. -/
def toV1 (tx : TransactionV0) : Transaction where
  sourceAccount := .ed25519 tx.sourceAccount
  fee := tx.fee
  seqNum := tx.seqNum
  cond := match tx.timeBounds with
    | some bounds => .time bounds
    | none => .none
  memo := tx.memo
  operations := tx.operations

end TransactionV0

/-- A signed version 0 transaction in the current form, signatures included. -/
def Signed.toV1 (env : Signed TransactionV0) : Signed Transaction :=
  ⟨env.tx.toV1, env.signatures⟩

/-! ## Fee bumps -/

/-- The payment of a higher fee for a signed transaction. -/
structure FeeBump where
  feeSource : MuxedAccount
  fee : Int64
  inner : Signed Transaction
  deriving DecidableEq

def FeeBump.format : Format FeeBump :=
  ((field "feeSource" MuxedAccount.format).and <| (field "fee" .int64).and <|
    (field "innerTx" (union "FeeBumpInnerTx"
      [arm 2 "ENVELOPE_TYPE_TX" (Signed.format Transaction.format) id some
        (by intros; rfl) (by intro a p h; exact (Option.some.inj h).symm)])).and <|
    field "ext" (.extension "FeeBumpTransactionExt")).map
    (fun (source, fee, inner, ()) => ⟨source, fee, inner⟩)
    fun tx => (tx.feeSource, tx.fee, tx.inner, ())

end StellarTx
