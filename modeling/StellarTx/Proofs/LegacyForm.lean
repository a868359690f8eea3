/-
# A transaction of version 0 keeps its identity

Version 0 and the current form are written by two formats, but in the current form the same bytes
follow the number of plain accounts (`TransactionV0.encode_toV1`).  So the bytes, a length that is
too long, what is signed, the digest and the verification of the signatures are the same in both
forms, up to the four bytes in front: `TransactionV0.identity_toV1`.
-/
import StellarTx.Proofs.SignatureBase
import StellarTx.Signing.Verification

namespace StellarTx

open Xdr (Encoding Excess)

/-- Bytes in front of a value move its excess along. -/
theorem Format.toBytes_of_encode_append {α β : Type} {f : Format α} {g : Format β} {a : α} {b : β}
    {front : List UInt8} {n : Nat} (hn : front.length = n)
    (h : g.encode b = Encoding.ofBytes front ++ f.encode a) :
    (∀ bytes, f.toBytes a = .ok bytes → g.toBytes b = .ok (front ++ bytes)) ∧
    ∀ length max offset, f.toBytes a = .error (.excess ⟨length, max, offset⟩) →
      g.toBytes b = .error (.excess ⟨length, max, offset + n⟩) := by
  constructor
  · intro bytes hb
    rw [toBytes_eq_ok_iff] at hb ⊢
    rw [h, hb]
    rfl
  · intro length max offset he
    obtain ⟨found, hfound, heq⟩ := toBytes_eq_error_iff.1 he
    cases heq
    refine toBytes_eq_error_iff.2 ⟨_, ?_, rfl⟩
    rw [h, hfound, Nat.add_comm, ← hn]
    rfl

namespace Envelope

variable (env : Envelope) (network : Network)

theorem tagged_toV1 : env.toV1.tagged = env.tagged := by
  cases env <;> rfl

theorem signatures_toV1 : env.toV1.signatures = env.signatures := by
  cases env <;> rfl

theorem hash_toV1 : env.toV1.hash network = env.hash network := by
  unfold hash signatureBase
  rw [tagged_toV1]

theorem verify_toV1 (candidates : List SignerKey) :
    env.toV1.verify network candidates = env.verify network candidates := by
  unfold verify
  rw [hash_toV1, signatures_toV1]

theorem length_front : (network.id.toList ++ [0, 0, 0, 2] ++ [0, 0, 0, 0]).length = 40 := by
  rw [List.length_append, List.length_append, network.id.length_eq]
  rfl

/-- The signature base of version 0: the id of the network, the number of the current kind, the
number of plain accounts, and the transaction as it stands. -/
theorem encode_base_v0 (signed : Signed TransactionV0) :
    SignaturePayload.format.encode ⟨network.id, (v0 signed).tagged⟩ =
      Encoding.ofBytes (network.id.toList ++ [0, 0, 0, 2] ++ [0, 0, 0, 0]) ++
        TransactionV0.format.encode signed.tx := by
  have hid : Encoding.fixed network.id.toList = Encoding.ofBytes network.id.toList :=
    Encoding.fixed_of_length_mod (by rw [network.id.length_eq])
  calc SignaturePayload.format.encode ⟨network.id, (v0 signed).tagged⟩
      = Encoding.fixed network.id.toList ++
          (Encoding.int32 2 ++ Transaction.format.encode signed.tx.toV1) := rfl
    _ = Encoding.ofBytes network.id.toList ++
          (Encoding.int32 2 ++ (Encoding.int32 0 ++ TransactionV0.format.encode signed.tx)) := by
        rw [hid, TransactionV0.encode_toV1]
    _ = Encoding.ofBytes network.id.toList ++ Encoding.int32 2 ++ Encoding.int32 0 ++
          TransactionV0.format.encode signed.tx := by
        rw [Encoding.append_assoc, Encoding.append_assoc]
    _ = _ := rfl

end Envelope

/-- A transaction of version 0 keeps its identity in the current form.  Its bytes follow four zeros,
and a length that is too long is found four bytes later; there is no other reason for it to have no
bytes.  On every network the signature base is the id, the number of the current kind, the four
zeros and the bytes.  In the current form an envelope of version 0 holds the converted transaction
and the same signatures, and one of another kind is as it was; every envelope has the digest and the
signers that it has in the current form, or fails in both for the same cause. -/
theorem TransactionV0.identity_toV1 :
    (∀ (tx : TransactionV0) (b : List UInt8), TransactionV0.format.toBytes tx = .ok b →
      Transaction.format.toBytes tx.toV1 = .ok ([0, 0, 0, 0] ++ b) ∧
      ∀ signatures network, (Envelope.v0 ⟨tx, signatures⟩).signatureBase network =
        .ok (network.id.toList ++ [0, 0, 0, 2] ++ [0, 0, 0, 0] ++ b)) ∧
    (∀ (tx : TransactionV0) (length max offset : Nat),
      TransactionV0.format.toBytes tx = .error (.excess ⟨length, max, offset⟩) →
      Transaction.format.toBytes tx.toV1 = .error (.excess ⟨length, max, offset + 4⟩) ∧
      ∀ signatures network, (Envelope.v0 ⟨tx, signatures⟩).signatureBase network =
        .error (.encoding (.excess ⟨length, max, offset + 40⟩))) ∧
    (∀ (tx : TransactionV0) (e : Xdr.Error), TransactionV0.format.toBytes tx = .error e →
      ∃ excess, e = .excess excess) ∧
    (∀ (tx : TransactionV0) signatures,
      (Envelope.v0 ⟨tx, signatures⟩).toV1 = .v1 ⟨tx.toV1, signatures⟩) ∧
    (∀ env : Envelope, (∀ signed, env ≠ .v0 signed) → env.toV1 = env) ∧
    ∀ (env : Envelope) (network : Network) (candidates : List SignerKey),
      env.toV1.hash network = env.hash network ∧
        env.toV1.verify network candidates = env.verify network candidates := by
  have hbody (tx : TransactionV0) := Format.toBytes_of_encode_append rfl tx.encode_toV1
  have hbase (tx : TransactionV0) (signatures : List DecoratedSignature) (network : Network) :=
    Format.toBytes_of_encode_append (Envelope.length_front network)
      (Envelope.encode_base_v0 network ⟨tx, signatures⟩)
  refine ⟨fun tx b hb => ⟨(hbody tx).1 b hb, fun signatures network => ?_⟩,
    fun tx length max offset he => ⟨(hbody tx).2 _ _ _ he, fun signatures network => ?_⟩,
    fun tx e he => ?_, fun tx signatures => rfl, fun env hother => ?_,
    fun env network candidates => ⟨env.hash_toV1 network, env.verify_toV1 network candidates⟩⟩
  · unfold Envelope.signatureBase
    rw [(hbase tx signatures network).1 b hb]
  · unfold Envelope.signatureBase
    rw [(hbase tx signatures network).2 _ _ _ he]
  · obtain ⟨excess, _, rfl⟩ := Format.toBytes_eq_error_iff.1 he
    exact ⟨excess, rfl⟩
  · cases env with
    | v0 signed => exact absurd rfl (hother signed)
    | v1 signed => rfl
    | feeBump signed => rfl

/-- A transaction of version 0 that does nothing, with some memo. -/
def TransactionV0.noted (memo : Memo) : TransactionV0 :=
  ⟨.replicate 32 0, 100, 1, none, memo, []⟩

/-- A number as memo is written behind four zeros in the current form; a text of twenty-nine bytes
is too long by one at the fifty-second byte, or four bytes later. -/
theorem TransactionV0.identity_toV1_noted :
    let front := List.replicate 32 0 ++ [0, 0, 0, 100, 0, 0, 0, 0, 0, 0, 0, 1, 0, 0, 0, 0]
    let bytes := front ++ [0, 0, 0, 2, 0, 0, 0, 0, 0, 0, 0, 7, 0, 0, 0, 0, 0, 0, 0, 0]
    let long : Memo := .text "nothing but a note on nothing"
    TransactionV0.format.toBytes (noted (.id 7)) = .ok bytes ∧
      Transaction.format.toBytes (noted (.id 7)).toV1 = .ok ([0, 0, 0, 0] ++ bytes) ∧
      TransactionV0.format.toBytes (noted long) = .error (.excess ⟨29, 28, 52⟩) ∧
      Transaction.format.toBytes (noted long).toV1 = .error (.excess ⟨29, 28, 56⟩) := by
  intro front bytes long
  have hbytes : TransactionV0.format.toBytes (noted (.id 7)) = .ok bytes := by decide +kernel
  have hlong : TransactionV0.format.toBytes (noted long) = .error (.excess ⟨29, 28, 52⟩) := by
    decide +kernel
  exact ⟨hbytes, (identity_toV1.1 _ _ hbytes).1, hlong, (identity_toV1.2.1 _ _ _ _ hlong).1⟩

end StellarTx
