/-
# Transactions and envelopes are regular
-/
import StellarTx.Proofs.Operation
import StellarTx.Transaction.Envelope

namespace StellarTx

open Format (Outlined)

variable {n : Nat}

/-! ## Memos and preconditions -/

/-- A memo of text is the only one in quotes. -/
theorem Memo.outlined :
    Outlined n (.fields ["text", "id", "hash", "retHash", "type"]) Memo.format :=
  .at (.union _ ⟨rfl, fun a => by cases a <;> rfl⟩ <| .void <| .cons (.field "text" .string) <|
    .cons (.field "id" (.scalar .uint64)) <| .cons (.field "hash" (.octets 32)) <|
    .cons (.field "retHash" (.octets 32)) .nil) rfl

/-- Both times have the date beside them as a comment. -/
theorem TimeBounds.outlined :
    Outlined n (.fields ["minTime", "maxTime"]) TimeBounds.format :=
  .at (.map <| .and (.field "minTime" (.scalar .timestamp))
    (.field "maxTime" (.scalar .timestamp))) rfl

theorem LedgerBounds.outlined :
    Outlined n (.fields ["minLedger", "maxLedger"]) LedgerBounds.format :=
  .at (.map <| .and (.field "minLedger" (.scalar .uint32))
    (.field "maxLedger" (.scalar .uint32))) rfl

/-- Three conditions may be absent; the others are zero, or no signers, where nothing is asked. -/
theorem Conditions.outlined :
    Outlined n (.fields ["timeBounds", "ledgerBounds", "minSeqNum", "minSeqAge", "minSeqLedgerGap",
      "extraSigners"]) Conditions.format :=
  .at (.map <| .and (.field "timeBounds" (.option TimeBounds.outlined)) <|
    .and (.field "ledgerBounds" (.option LedgerBounds.outlined)) <|
    .and (.field "minSeqNum" (.option (.scalar .int64))) <|
    .and (.field "minSeqAge" (.scalar .uint64)) <|
    .and (.field "minSeqLedgerGap" (.scalar .uint32))
    (.field "extraSigners" (.array SignerKey.outlined fun _ _ => ⟨_, rfl⟩))) rfl

/-- Without preconditions there is only the label. -/
theorem Preconditions.outlined :
    Outlined n (.fields ["timeBounds", "v2", "type"]) Preconditions.format :=
  .at (.union _ ⟨rfl, fun a => by cases a <;> rfl⟩ <| .void <|
    .cons (.field "timeBounds" TimeBounds.outlined) <|
    .cons (.field "v2" Conditions.outlined) .nil) rfl

/-! ## Signatures -/

/-- A hint has four bytes and a signature at most 64. -/
theorem DecoratedSignature.outlined :
    Outlined n (.fields ["hint", "signature"]) DecoratedSignature.format :=
  .at (.map <| .and (.field "hint" (.octets 4)) (.field "signature" .bytes)) rfl

/-- What is signed and the signatures stand in two fields. -/
theorem Signed.outlined {τ : Type} {f : Format τ} {names : List String}
    (h : Outlined n (.fields names) f) :
    Outlined n (.fields ["tx", "signatures"]) (Signed.format f) :=
  .at (.map <| .and (.field "tx" h)
    (.field "signatures" (.array DecoratedSignature.outlined fun _ _ => ⟨_, rfl⟩))) rfl

/-! ## Transactions -/

/-- The last field is an extension point without any extension. -/
theorem Transaction.outlined :
    Outlined n (.fields ["sourceAccount", "fee", "seqNum", "cond", "memo", "operations", "ext"])
      Transaction.format :=
  .at (.map <| .and (.field "sourceAccount" MuxedAccount.outlined) <|
    .and (.field "fee" (.scalar .uint32)) <| .and (.field "seqNum" (.scalar .int64)) <|
    .and (.field "cond" Preconditions.outlined) <| .and (.field "memo" Memo.outlined) <|
    .and (.field "operations" (.array Operation.outlined fun _ _ => ⟨_, rfl⟩))
    (.field "ext" (.extension "TransactionExt"))) rfl

namespace TransactionV0

/-- The source of a transaction of version 0 is a key of 32 bytes, in text the key of an account. -/
theorem outlined_source : Outlined n (.itself true) sourceFormat := by
  refine .token (.octets 32) rfl (.of_total (fun _ => rfl)
    (fun key => AccountId.isWord_toText ⟨key⟩) (fun key => ?_) fun _ => ⟨_, rfl⟩)
  rw [AccountId.ofText_toText]
  rfl

/-- There are bounds on time where the current form has preconditions. -/
theorem outlined :
    Outlined n (.fields ["sourceAccountEd25519", "fee", "seqNum", "timeBounds", "memo",
      "operations", "ext"]) format :=
  .at (.map <| .and (.field "sourceAccountEd25519" outlined_source) <|
    .and (.field "fee" (.scalar .uint32)) <| .and (.field "seqNum" (.scalar .int64)) <|
    .and (.field "timeBounds" (.option TimeBounds.outlined)) <|
    .and (.field "memo" Memo.outlined) <|
    .and (.field "operations" (.array Operation.outlined fun _ _ => ⟨_, rfl⟩))
    (.field "ext" (.extension "TransactionV0Ext"))) rfl

end TransactionV0

/-- The transaction inside is a union with one arm. -/
theorem FeeBump.outlined :
    Outlined n (.fields ["feeSource", "fee", "innerTx", "ext"]) FeeBump.format :=
  .at (.map <| .and (.field "feeSource" MuxedAccount.outlined) <|
    .and (.field "fee" (.scalar .int64)) <|
    .and (.field "innerTx" (.union _ ⟨rfl, fun _ => rfl⟩ <|
      .cons (Signed.outlined Transaction.outlined) .nil))
    (.field "ext" (.extension "FeeBumpTransactionExt"))) rfl

/-! ## Envelopes -/

/-- Of the three kinds, two have their fields at the root and a fee bump has them under its name. -/
theorem Envelope.outlined :
    Outlined n (.fields ["tx", "signatures", "tx", "signatures", "feeBump", "type"])
      Envelope.format :=
  .at (.union _ ⟨rfl, fun a => by cases a <;> rfl⟩ <|
    .cons (Signed.outlined TransactionV0.outlined) <|
    .cons (Signed.outlined Transaction.outlined) <|
    .cons (.field "feeBump" (Signed.outlined FeeBump.outlined)) .nil) rfl

/-- An envelope that sets one unit aside, to be claimed by one account on a condition: it nests as
deep as the condition does. -/
def Envelope.conditional (predicate : ClaimPredicate) : Envelope :=
  .v1 ⟨⟨.ed25519 (.replicate 32 0), 100, 1, .none, .none,
    [{ body := .createClaimableBalance ⟨.native, 1, [⟨⟨.replicate 32 1⟩, predicate⟩]⟩ }]⟩, []⟩

/-- What is signed of version 0 is tagged as a transaction of the current form. -/
theorem TaggedTransaction.outlined :
    Outlined n (.fields ["tx", "feeBump", "type"]) TaggedTransaction.format :=
  .at (.union _ ⟨rfl, fun a => by cases a <;> rfl⟩ <| .cons (.field "tx" Transaction.outlined) <|
    .cons (.field "feeBump" FeeBump.outlined) .nil) rfl

/-- The id of the network has no length in front of it. -/
theorem SignaturePayload.outlined :
    Outlined n (.fields ["networkId", "taggedTransaction"]) SignaturePayload.format :=
  .at (.map <| .and (.field "networkId" (.octets 32))
    (.field "taggedTransaction" TaggedTransaction.outlined)) rfl

end StellarTx
