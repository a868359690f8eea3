/-
# Envelopes

An envelope is a transaction of one of three kinds with its signatures.  What is signed is not the
envelope but a tagged transaction: its kind, up to the version, and its body, for one network.
-/
import StellarTx.Transaction.Basic

namespace StellarTx

open Format (union arm field octets)

/-- A signed transaction. -/
inductive Envelope where
  | v0 (env : Signed TransactionV0)
  | v1 (env : Signed Transaction)
  | feeBump (env : Signed FeeBump)
  deriving DecidableEq

namespace Envelope

def arms : List (Arm Envelope) :=
  [arm 0 "ENVELOPE_TYPE_TX_V0" (Signed.format TransactionV0.format)
      v0 fun | v0 env => some env | _ => none,
   arm 2 "ENVELOPE_TYPE_TX" (Signed.format Transaction.format)
      v1 fun | v1 env => some env | _ => none,
   arm 5 "ENVELOPE_TYPE_TX_FEE_BUMP" (field "feeBump" (Signed.format FeeBump.format))
      feeBump fun | feeBump env => some env | _ => none]

def format : Format Envelope := union "EnvelopeType" arms

/-- The number of the kind. -/
def code : Envelope → Int32
  | v0 _ => 0
  | v1 _ => 2
  | feeBump _ => 5

/-- The outer signatures. -/
def signatures : Envelope → List DecoratedSignature
  | v0 env => env.signatures
  | v1 env => env.signatures
  | feeBump env => env.signatures

/-- The same transaction with other outer signatures. -/
def withSignatures (signatures : List DecoratedSignature) : Envelope → Envelope
  | v0 env => v0 { env with signatures }
  | v1 env => v1 { env with signatures }
  | feeBump env => feeBump { env with signatures }

/-- The same transaction, in the current form if it is of version 0. -/
def toV1 : Envelope → Envelope
  | v0 env => v1 env.toV1
  | env => env

/-- The operations, for a fee bump those of the inner transaction. -/
def operations : Envelope → List Operation
  | v0 env => env.tx.operations
  | v1 env => env.tx.operations
  | feeBump env => env.tx.inner.tx.operations

/-! ## Text -/

/-- The text of an envelope. -/
def toText (env : Envelope) : String := format.toText env ""

/-- The envelope that a text stands for. -/
def ofText (text : String) : Except TxRep.Error Envelope := format.ofText text ""

end Envelope

/-! ## What is signed -/

/-- The part of an envelope that a signature covers. -/
inductive TaggedTransaction where
  | tx (tx : Transaction)
  | feeBump (tx : FeeBump)
  deriving DecidableEq

def TaggedTransaction.format : Format TaggedTransaction :=
  union "TaggedTransaction"
    [arm 2 "ENVELOPE_TYPE_TX" (field "tx" Transaction.format)
        tx fun | tx t => some t | _ => none,
     arm 5 "ENVELOPE_TYPE_TX_FEE_BUMP" (field "feeBump" FeeBump.format)
        feeBump fun | feeBump t => some t | _ => none]

/-- What the signatures on an envelope cover; version 0 counts as its current form. -/
def Envelope.tagged : Envelope → TaggedTransaction
  | v0 env => .tx env.tx.toV1
  | v1 env => .tx env.tx
  | feeBump env => .feeBump env.tx

/-- A tagged transaction for one network. -/
structure SignaturePayload where
  networkId : Octets 32
  tagged : TaggedTransaction
  deriving DecidableEq

def SignaturePayload.format : Format SignaturePayload :=
  ((field "networkId" (octets 32)).and <|
    field "taggedTransaction" TaggedTransaction.format).map
    (fun (id, tagged) => ⟨id, tagged⟩) fun p => (p.networkId, p.tagged)

end StellarTx
