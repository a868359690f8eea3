/-
# Which envelopes have bytes

An envelope has bytes exactly if what is signed of it has, and its signatures are few and short
(`Envelope.writable_iff`); so what is signed of an envelope with bytes has a digest, and a signature
more leaves an envelope with bytes as long as there is room for it.
-/
import StellarTx.Proofs.Format.Writable
import StellarTx.Proofs.Signing

namespace StellarTx

open Xdr (Encoding)

/-! ## Signatures -/

/-- No more signatures than an envelope holds, and none longer than a signature may be. -/
def SignaturesFit (signatures : List DecoratedSignature) : Prop :=
  signatures.length ≤ maxSignatures ∧ ∀ s ∈ signatures, s.signature.length ≤ maxSignature

theorem DecoratedSignature.writable_iff {s : DecoratedSignature} :
    DecoratedSignature.format.Writable s ↔ s.signature.length ≤ maxSignature := by
  rw [← Format.writable_bytes_iff (by decide)]
  refine Format.writable_and_iff.trans ?_
  exact and_iff_right ⟨_, rfl⟩

theorem Signed.writable_iff {τ : Type} {f : Format τ} {signed : Signed τ} :
    (Signed.format f).Writable signed ↔ f.Writable signed.tx ∧ SignaturesFit signed.signatures := by
  have harray : (Format.array maxSignatures DecoratedSignature.format).Writable signed.signatures ↔
      SignaturesFit signed.signatures := by
    rw [Format.writable_array_iff (by decide)]
    simp only [DecoratedSignature.writable_iff]
    exact Iff.rfl
  rw [← harray]
  exact Format.writable_and_iff

theorem Signed.level_eq {τ : Type} (f : Format τ) (signed : Signed τ) :
    (Signed.format f).level signed = f.level signed.tx := by
  have hzero : DecoratedSignature.format.maxLevel signed.signatures ≤ 0 :=
    Format.maxLevel_le_iff.2 fun _ _ => Nat.le_refl 0
  show max (f.level signed.tx) (DecoratedSignature.format.maxLevel signed.signatures) = _
  rw [Nat.le_zero.1 hzero, Nat.max_zero]

/-! ## Transactions -/

/-- In the current form a transaction of version 0 has the same bytes behind the number of plain
accounts: time bounds that may be absent and preconditions without anything else agree. -/
theorem TransactionV0.encode_toV1 (tx : TransactionV0) :
    Transaction.format.encode tx.toV1 = Encoding.int32 0 ++ TransactionV0.format.encode tx := by
  have hcond : Preconditions.format.encode tx.toV1.cond =
      (Format.option TimeBounds.format).encode tx.timeBounds := by
    unfold toV1
    cases tx.timeBounds <;> rfl
  have hsource : MuxedAccount.format.encode tx.toV1.sourceAccount =
      Encoding.int32 0 ++ sourceFormat.encode tx.sourceAccount := rfl
  show MuxedAccount.format.encode tx.toV1.sourceAccount ++ (_ ++ (_ ++
    (Preconditions.format.encode tx.toV1.cond ++ _))) = _
  rw [hcond, hsource, Encoding.append_assoc]
  rfl

/-- A transaction of version 0 has bytes exactly if it has them in the current form. -/
theorem TransactionV0.writable_toV1_iff {tx : TransactionV0} :
    Transaction.format.Writable tx.toV1 ↔ TransactionV0.format.Writable tx := by
  unfold Format.Writable
  rw [encode_toV1]
  exact Format.exists_arm_iff

theorem TransactionV0.level_toV1 (tx : TransactionV0) :
    Transaction.format.level tx.toV1 = TransactionV0.format.level tx := by
  obtain ⟨source, fee, seqNum, bounds, memo, operations⟩ := tx
  cases bounds <;> rfl

/-! ## Envelopes -/

namespace Envelope

variable {env : Envelope}

theorem writable_iff :
    format.Writable env ↔ TaggedTransaction.format.Writable env.tagged ∧
      SignaturesFit env.signatures := by
  cases env with
  | v0 signed =>
    have henv : format.Writable (v0 signed) ↔
        (Signed.format TransactionV0.format).Writable signed := Format.exists_arm_iff
    have htagged : TaggedTransaction.format.Writable (v0 signed).tagged ↔
        Transaction.format.Writable signed.tx.toV1 := Format.exists_arm_iff
    rw [henv, htagged, TransactionV0.writable_toV1_iff]
    exact Signed.writable_iff
  | v1 signed =>
    have henv : format.Writable (v1 signed) ↔ (Signed.format Transaction.format).Writable signed :=
      Format.exists_arm_iff
    have htagged : TaggedTransaction.format.Writable (v1 signed).tagged ↔
        Transaction.format.Writable signed.tx := Format.exists_arm_iff
    rw [henv, htagged]
    exact Signed.writable_iff
  | feeBump signed =>
    have henv : format.Writable (feeBump signed) ↔ (Signed.format FeeBump.format).Writable signed :=
      Format.exists_arm_iff
    have htagged : TaggedTransaction.format.Writable (feeBump signed).tagged ↔
        FeeBump.format.Writable signed.tx := Format.exists_arm_iff
    rw [henv, htagged]
    exact Signed.writable_iff

/-- All the levels of an envelope are in what is signed of it. -/
theorem level_eq (env : Envelope) :
    format.level env = TaggedTransaction.format.level env.tagged := by
  cases env with
  | v0 signed =>
    show (Signed.format TransactionV0.format).level signed = Transaction.format.level signed.tx.toV1
    rw [Signed.level_eq, TransactionV0.level_toV1]
  | v1 signed => exact Signed.level_eq Transaction.format signed
  | feeBump signed => exact Signed.level_eq FeeBump.format signed

/-! ## What is signed -/

variable {network : Network}

theorem signatureBase_eq_ok_iff {base : List UInt8} :
    env.signatureBase network = .ok base ↔
      SignaturePayload.format.encode ⟨network.id, env.tagged⟩ = .ok base := by
  rw [← Format.toBytes_eq_ok_iff, signatureBase]
  cases SignaturePayload.format.toBytes ⟨network.id, env.tagged⟩ with
  | ok bytes =>
    constructor <;> (intro h; cases h; rfl)
  | error e =>
    constructor <;> (intro h; cases h)

/-- There is a base exactly if the tagged transaction has bytes, and they follow the id. -/
theorem signatureBase_eq_ok_iff_tagged {base : List UInt8} :
    env.signatureBase network = .ok base ↔
      ∃ bytes, TaggedTransaction.format.encode env.tagged = .ok bytes ∧
        base = network.id.toList ++ bytes := by
  have hid : (Format.octets 32).encode network.id = .ok network.id.toList :=
    Xdr.Encoding.fixed_of_length_mod (by rw [network.id.length_eq])
  rw [signatureBase_eq_ok_iff]
  constructor
  · intro h
    obtain ⟨first, bytes, hfirst, hbytes, rfl⟩ := Xdr.Encoding.append_eq_ok_iff.1 h
    cases hfirst.symm.trans hid
    exact ⟨bytes, hbytes, rfl⟩
  · rintro ⟨bytes, hbytes, rfl⟩
    exact Xdr.Encoding.append_of_ok hid hbytes

/-- There is a digest, for every network, exactly if what is signed has bytes. -/
theorem exists_hash_iff :
    (∃ hash, env.hash network = .ok hash) ↔ TaggedTransaction.format.Writable env.tagged := by
  constructor
  · rintro ⟨_, h⟩
    obtain ⟨base, hbase, _⟩ := Except.map_eq_ok_iff.1 h
    obtain ⟨bytes, hbytes, _⟩ := signatureBase_eq_ok_iff_tagged.1 hbase
    exact ⟨bytes, hbytes⟩
  · rintro ⟨bytes, hbytes⟩
    have hbase : env.signatureBase network = .ok _ :=
      signatureBase_eq_ok_iff_tagged.2 ⟨bytes, hbytes, rfl⟩
    exact ⟨_, Except.map_eq_ok_iff.2 ⟨_, hbase, rfl⟩⟩

/-- What is signed of an envelope with bytes has a digest for every network. -/
theorem exists_hash (h : format.Writable env) (network : Network) :
    ∃ hash, env.hash network = .ok hash :=
  exists_hash_iff.2 (writable_iff.1 h).1

/-- With room for a signature, a key pair signs whatever has a digest. -/
theorem exists_sign_iff {pair : KeyPair} (room : env.signatures.length < maxSignatures) :
    (∃ signed, env.sign pair network = .ok signed) ↔ ∃ hash, env.hash network = .ok hash := by
  constructor
  · rintro ⟨_, h⟩
    obtain ⟨_, hsignature, _⟩ := sign_eq_ok_iff.1 h
    obtain ⟨hash, hhash, _⟩ := Except.bind_eq_ok_iff.1 hsignature
    exact ⟨hash, hhash⟩
  · rintro ⟨hash, hhash⟩
    have hsignature : env.signature pair network = .ok _ := Except.bind_of_ok hhash
    exact ⟨_, sign_eq_ok_iff.2 ⟨_, hsignature, room, rfl⟩⟩

/-! ## Signing -/

theorem level_withSignatures (env : Envelope) (signatures : List DecoratedSignature) :
    format.level (env.withSignatures signatures) = format.level env := by
  rw [level_eq, tagged_withSignatures, ← level_eq]

/-- The signature of a key pair is as long as a signature may be. -/
theorem length_signature {pair : KeyPair} {network : Network} {signature : DecoratedSignature}
    (h : env.signature pair network = .ok signature) :
    signature.signature.length ≤ maxSignature := by
  obtain ⟨hash, _, hs⟩ := Except.bind_eq_ok_iff.1 h
  rw [← Except.ok.inj hs]
  exact Nat.le_of_eq (pair.sign hash.toList).length_eq

theorem length_stepSignature_secret {text : String} {network : Network}
    {signature : DecoratedSignature}
    (h : env.stepSignature (.secret text network) = .ok signature) :
    signature.signature.length ≤ maxSignature := by
  simp only [stepSignature] at h
  cases hpair : KeyPair.ofSecret text with
  | ok pair =>
    rw [hpair] at h
    exact length_signature h
  | error e =>
    rw [hpair] at h
    cases h

/-- An envelope with bytes that is signed with a secret still has bytes, and no more levels. -/
theorem writable_of_signStep_secret {env' : Envelope} {text : String} {network : Network}
    (h : env.signStep (.secret text network) = .ok env') (hw : format.Writable env) :
    format.Writable env' ∧ format.level env' = format.level env := by
  obtain ⟨signature, hsig, hroom, rfl⟩ := signStep_eq_ok_iff.1 h
  obtain ⟨htagged, _, hshort⟩ := writable_iff.1 hw
  refine ⟨writable_iff.2 ?_, level_withSignatures env _⟩
  rw [tagged_withSignatures, signatures_withSignatures]
  refine ⟨htagged, ?_, ?_⟩
  · rw [List.length_append, List.length_singleton]
    exact hroom
  · intro s hs
    rcases List.mem_append.1 hs with hs | hs
    · exact hshort s hs
    · rw [List.mem_singleton.1 hs]
      exact length_stepSignature_secret hsig

end Envelope

end StellarTx
