/-
# The signature base determines what is signed

The signature base is the id of the network and then the tagged transaction.  Neither says how long
it is, but the bytes of no value begin those of another one, so that the base tells the id and the
tagged transaction apart from all others: `signatureBase_eq_iff`.
-/
import StellarTx.Proofs.Envelope
import StellarTx.Proofs.Xdr.RoundTrip

namespace StellarTx

namespace Envelope

/-! ## What the base tells -/

/-- What is signed of an envelope is its transaction in the current form. -/
theorem tagged_eq_iff {e₁ e₂ : Envelope} :
    e₁.tagged = e₂.tagged ↔ e₁.toV1.SameTransaction e₂.toV1 := by
  cases e₁ <;> cases e₂ <;> simp [tagged, toV1, SameTransaction, Signed.toV1]

theorem SameTransaction.code_eq {e₁ e₂ : Envelope} (h : e₁.SameTransaction e₂) :
    e₁.code = e₂.code := by
  cases e₁ with
  | v0 _ => cases e₂ with
    | v0 _ => rfl
    | _ => exact h.elim
  | v1 _ => cases e₂ with
    | v1 _ => rfl
    | _ => exact h.elim
  | feeBump _ => cases e₂ with
    | feeBump _ => rfl
    | _ => exact h.elim

/-- Two envelopes with bases have the same one exactly if the ids of the networks are equal and so
are the tagged transactions, which is to say that in the current form the two are of one kind and
around one transaction, for a fee bump with the signatures inside.  It does not matter how deep
anything in them nests.  So two kinds never share a base, apart from version 0 and the current form.
-/
theorem signatureBase_eq_iff {e₁ e₂ : Envelope} {n₁ n₂ : Network} {x y : List UInt8}
    (hx : e₁.signatureBase n₁ = .ok x) (hy : e₂.signatureBase n₂ = .ok y) :
    (x = y ↔ n₁.id = n₂.id ∧ e₁.tagged = e₂.tagged) ∧
    (x = y ↔ n₁.id = n₂.id ∧ e₁.toV1.SameTransaction e₂.toV1) ∧
    (e₁.toV1.code ≠ e₂.toV1.code → x ≠ y) := by
  rw [signatureBase_eq_ok_iff] at hx hy
  have hbase : x = y ↔ n₁.id = n₂.id ∧ e₁.tagged = e₂.tagged := by
    constructor
    · rintro rfl
      have hpayload := WireType.encode_inj (t := .signaturePayload) hx hy
      injection hpayload with hid htagged
      exact ⟨hid, htagged⟩
    · rintro ⟨hid, htagged⟩
      rw [hid, htagged, hy] at hx
      exact (Except.ok.inj hx).symm
  refine ⟨hbase, ?_, ?_⟩
  · rw [hbase, tagged_eq_iff]
  · intro hcode h
    exact hcode (tagged_eq_iff.1 (hbase.1 h).2).code_eq

end Envelope

/-! ## Beyond the limit on levels -/

/-- Three hundred negations, more than a reader goes into, and one more have different bases, and so
have two networks. -/
theorem Envelope.signatureBase_eq_iff_negations :
    ∃ x y z, (conditional (.negations 300)).signatureBase .pubnet = .ok x ∧
      (conditional (.negations 301)).signatureBase .pubnet = .ok y ∧
      (conditional (.negations 300)).signatureBase .testnet = .ok z ∧
      256 < TaggedTransaction.format.level (conditional (.negations 300)).tagged ∧
      x ≠ y ∧ x ≠ z := by
  have deep : ((conditional (.negations 300)).signatureBase .pubnet).isOk = true := by
    decide +kernel
  have deeper : ((conditional (.negations 301)).signatureBase .pubnet).isOk = true := by
    decide +kernel
  have other : ((conditional (.negations 300)).signatureBase .testnet).isOk = true := by
    decide +kernel
  obtain ⟨x, hx⟩ := Except.exists_of_isOk deep
  obtain ⟨y, hy⟩ := Except.exists_of_isOk deeper
  obtain ⟨z, hz⟩ := Except.exists_of_isOk other
  refine ⟨x, y, z, hx, hy, hz, by decide +kernel, fun h => ?_, fun h => ?_⟩
  · have htagged := ((signatureBase_eq_iff hx hy).1.1 h).2
    revert htagged
    decide +kernel
  · have hid := ((signatureBase_eq_iff hx hz).1.1 h).1
    revert hid
    decide +kernel

end StellarTx
