/-
# What the builder lets through

A draft is built exactly if it has some operations but not too many, all of them valid, conditions
that make sense, and a fee that can be told (`Draft.build_eq_ok_iff`).  That is less than it takes
to have bytes: nobody looks at the text of the memo, at the payloads of signers, at the name in the
key of a data entry, or into a call of the contract host.  What is built has bytes, a digest and
signatures exactly if these fit: `Draft.writable_iff_of_buildEnvelope`.
-/
import StellarTx.Proofs.Build.Complaints
import StellarTx.Proofs.Envelope
import StellarTx.Proofs.Operation.Writable

namespace StellarTx

/-! ## Transactions with bytes -/

/-- A memo has bytes unless it is a text of more than 28. -/
theorem Memo.writable_iff {memo : Memo} :
    format.Writable memo ↔ ∀ text, memo = .text text → text.utf8ByteSize ≤ maxText := by
  cases memo with
  | text text =>
    refine (Format.exists_arm_iff.trans (Format.writable_string_iff (by decide))).trans ?_
    exact ⟨fun h _ ht => Memo.text.inj ht ▸ h, fun h => h text rfl⟩
  | none => exact iff_of_true ⟨_, rfl⟩ nofun
  | id i => exact iff_of_true ⟨_, rfl⟩ nofun
  | hash h => exact iff_of_true ⟨_, rfl⟩ nofun
  | returnHash h => exact iff_of_true ⟨_, rfl⟩ nofun

theorem TimeBounds.total : Format.Total TimeBounds.format := fun _ => ⟨_, rfl⟩

theorem LedgerBounds.total : Format.Total LedgerBounds.format := fun _ => ⟨_, rfl⟩

/-- Of general conditions, only the signers and their number can be too much. -/
theorem Conditions.writable_iff {c : Conditions} :
    format.Writable c ↔ c.extraSigners.length ≤ maxExtraSigners ∧
      ∀ signer ∈ c.extraSigners, signer.toStrKey.Fits := by
  have hsigners : (Format.array maxExtraSigners SignerKey.format).Writable c.extraSigners ↔
      c.extraSigners.length ≤ maxExtraSigners ∧
        ∀ signer ∈ c.extraSigners, signer.toStrKey.Fits := by
    rw [Format.writable_array_iff (by decide)]
    exact and_congr_right fun _ => forall₂_congr fun _ _ => SignerKey.writable_iff
  rw [← hsigners]
  exact Format.writable_map_iff.trans <|
    (Format.Total.writable_and_iff (.field (.option TimeBounds.total))).trans <|
    (Format.Total.writable_and_iff (.field (.option LedgerBounds.total))).trans <|
    (Format.Total.writable_and_iff (.field (.option (.scalar .int64)))).trans <|
    (Format.Total.writable_and_iff (.field (.scalar .uint64))).trans <|
    (Format.Total.writable_and_iff (.field (.scalar .uint32))).trans Format.writable_field_iff

/-- Bounds on time say nothing about signers. -/
theorem Conditions.extraSigners_of_isTimeOnly {c : Conditions} (h : c.isTimeOnly = true) :
    c.extraSigners = [] :=
  congrArg Conditions.extraSigners (eq_of_isTimeOnly h)

/-- The smallest form of conditions has bytes exactly if the general form has. -/
theorem Preconditions.writable_minimal_iff {c : Conditions} :
    format.Writable (minimal c) ↔ c.extraSigners.length ≤ maxExtraSigners ∧
      ∀ signer ∈ c.extraSigners, signer.toStrKey.Fits := by
  unfold minimal
  by_cases h : c.isTimeOnly = true
  · rw [if_pos h, Conditions.extraSigners_of_isTimeOnly h]
    refine iff_of_true ?_ ⟨Nat.zero_le _, nofun⟩
    cases c.timeBounds <;> exact ⟨_, rfl⟩
  · rw [if_neg h]
    exact Format.exists_arm_iff.trans Conditions.writable_iff

/-- The parts of a transaction can each be too much. -/
theorem Transaction.writable_iff {tx : Transaction} :
    format.Writable tx ↔ Preconditions.format.Writable tx.cond ∧ Memo.format.Writable tx.memo ∧
      tx.operations.length ≤ maxOperations ∧
        ∀ op ∈ tx.operations, Operation.format.Writable op := by
  rw [← Format.writable_array_iff (by decide)]
  refine Format.writable_map_iff.trans <|
    (Format.Total.writable_and_iff (.field MuxedAccount.total)).trans <|
    (Format.Total.writable_and_iff (.field (.scalar .uint32))).trans <|
    (Format.Total.writable_and_iff (.field (.scalar .int64))).trans <|
    Format.writable_and_iff.trans <| and_congr_right fun _ =>
    Format.writable_and_iff.trans <| and_congr_right fun _ => Format.writable_and_iff.trans ?_
  exact and_iff_left ⟨_, rfl⟩

/-! ## The checks of a draft -/

/-- Bounds that do not end before they start, and not too many extra signers. -/
structure Conditions.Sensible (c : Conditions) : Prop where
  time : ∀ bounds, c.timeBounds = some bounds →
    ¬ (bounds.maxTime ≠ 0 ∧ bounds.maxTime < bounds.minTime)
  ledger : ∀ bounds, c.ledgerBounds = some bounds →
    ¬ (bounds.maxLedger ≠ 0 ∧ bounds.maxLedger < bounds.minLedger)
  signers : c.extraSigners.length ≤ maxExtraSigners

namespace Draft

/-- All operations are valid if none of them is reported. -/
theorem checkOperations_eq_ok_iff {i : Nat} {operations : List Operation} :
    checkOperations i operations = .ok () ↔ ∀ op ∈ operations, op.body.validate = .ok () := by
  rw [checkOperations_eq_firstOr, firstOr_eq_ok_iff, operationComplaints_eq_nil_iff,
    and_iff_left rfl]

/-- The conditions pass if they are sensible. -/
theorem checkConditions_eq_ok_iff {c : Conditions} : checkConditions c = .ok () ↔ c.Sensible := by
  rw [checkConditions_eq_firstOr, firstOr_eq_ok_iff, conditionComplaints_eq_nil_iff,
    and_iff_left rfl]
  exact ⟨fun ⟨time, ledger, signers⟩ => ⟨time, ledger, signers⟩,
    fun h => ⟨h.time, h.ledger, h.signers⟩⟩

/-- What is built holds what was asked for, after all checks. -/
theorem build_eq_ok_iff {d : Draft} {tx : Transaction} :
    d.build = .ok tx ↔ d.operations.length ≠ 0 ∧ d.operations.length ≤ maxOperations ∧
      (∀ op ∈ d.operations, op.body.validate = .ok ()) ∧ d.conditions.Sensible ∧
      ∃ fee, Draft.fee d.baseFee d.operations.length = .ok fee ∧
        tx = { sourceAccount := d.sourceAccount, fee, seqNum := d.seqNum
               cond := .minimal d.conditions, memo := d.memo, operations := d.operations } := by
  rw [← Nat.not_lt, ← checkOperations_eq_ok_iff (i := 0), ← checkConditions_eq_ok_iff]
  unfold build
  refine Except.check_bind_eq_ok_iff.trans (and_congr_right fun _ =>
    Except.check_bind_eq_ok_iff.trans (and_congr_right fun _ => ?_))
  refine Except.seq_eq_ok_iff.trans (and_congr_right fun _ =>
    Except.seq_eq_ok_iff.trans (and_congr_right fun _ => Except.bind_eq_ok_iff.trans ?_))
  exact exists_congr fun fee => and_congr_right fun _ =>
    ⟨fun h => (Except.ok.inj h).symm, fun h => h ▸ rfl⟩

/-- No length is above its maximum that is not checked when the draft is built. -/
structure UncheckedFit (d : Draft) : Prop where
  memo : ∀ text, d.memo = .text text → text.utf8ByteSize ≤ Memo.maxText
  extraSigners : ∀ signer ∈ d.conditions.extraSigners, signer.toStrKey.Fits
  operations : ∀ op ∈ d.operations, op.body.UncheckedFit

variable {d : Draft} {env : Envelope}

/-- An envelope is built around the transaction, without signatures. -/
theorem buildEnvelope_eq_ok_iff :
    d.buildEnvelope = .ok env ↔ ∃ tx, d.build = .ok tx ∧ env = .v1 (.unsigned tx) := by
  refine Except.bind_eq_ok_iff.trans (exists_congr fun tx => and_congr_right fun _ => ?_)
  exact ⟨fun h => (Except.ok.inj h).symm, fun h => h ▸ rfl⟩

/-- The transaction that was built has bytes exactly if the lengths that are not checked fit. -/
theorem writable_iff_of_build {tx : Transaction} (h : d.build = .ok tx) :
    Transaction.format.Writable tx ↔ d.UncheckedFit := by
  obtain ⟨_, hcount, hvalid, hsensible, _, _, rfl⟩ := build_eq_ok_iff.1 h
  have hoperations : (∀ op ∈ d.operations, Operation.format.Writable op) ↔
      ∀ op ∈ d.operations, op.body.UncheckedFit :=
    forall₂_congr fun op hop =>
      Operation.writable_iff.trans (Operation.Body.writable_iff_of_validate (hvalid op hop))
  rw [Transaction.writable_iff, Preconditions.writable_minimal_iff, Memo.writable_iff, hoperations]
  exact ⟨fun ⟨⟨_, hsigners⟩, hmemo, _, hops⟩ => ⟨hmemo, hsigners, hops⟩,
    fun fit => ⟨⟨hsensible.signers, fit.extraSigners⟩, fit.memo, hcount, fit.operations⟩⟩

/-- What is built, from any source account and sequence number and after any requests, has bytes
exactly if the lengths that are not checked fit, and the same decides whether it has a digest for a
network, and whether a key pair signs it. -/
theorem writable_iff_of_buildEnvelope {source : MuxedAccount} {seqNum : Int64}
    {requests : List Request} {env : Envelope}
    (h : (applyAll { sourceAccount := source, seqNum } requests).buildEnvelope = .ok env) :
    let d := applyAll { sourceAccount := source, seqNum } requests
    ((∃ bytes, Envelope.format.toBytes env = .ok bytes) ↔ d.UncheckedFit) ∧
    (∀ network, (∃ hash, env.hash network = .ok hash) ↔ d.UncheckedFit) ∧
    ∀ network pair, (∃ signed, env.sign pair network = .ok signed) ↔ d.UncheckedFit := by
  intro d
  obtain ⟨tx, htx, rfl⟩ := buildEnvelope_eq_ok_iff.1 h
  have htagged : TaggedTransaction.format.Writable (Envelope.v1 (.unsigned tx)).tagged ↔
      d.UncheckedFit :=
    Format.exists_arm_iff.trans (writable_iff_of_build htx)
  have hhash (network : Network) : (∃ hash, (Envelope.v1 (.unsigned tx)).hash network = .ok hash) ↔
      d.UncheckedFit :=
    Envelope.exists_hash_iff.trans htagged
  refine ⟨?_, hhash, fun network pair => ?_⟩
  · simp only [Format.toBytes_eq_ok_iff]
    refine Envelope.writable_iff.trans (Iff.trans ?_ htagged)
    exact and_iff_left ⟨Nat.zero_le _, List.forall_mem_nil _⟩
  · have room : (Envelope.v1 (.unsigned tx)).signatures.length < maxSignatures := Nat.succ_pos 19
    exact (Envelope.exists_sign_iff room).trans (hhash network)

/-- Asks for a signer bound to a payload of some length, and for one operation. -/
def bound (length : Nat) : List Request :=
  [.extraSigner (.signedPayload (.replicate 32 1) (List.replicate length 0)),
   .operation { body := .bumpSequence ⟨10⟩ }]

/-- With a payload of sixty-four bytes, what is built has bytes.  With one byte more it is built as
well, but there is no digest for it. -/
theorem writable_iff_of_buildEnvelope_bound :
    let start : Draft := { sourceAccount := .ed25519 (.replicate 32 0), seqNum := 1 }
    (∃ env, (start.applyAll (bound 64)).buildEnvelope = .ok env ∧
      ∃ bytes, Envelope.format.toBytes env = .ok bytes) ∧
    ∃ env, (start.applyAll (bound 65)).buildEnvelope = .ok env ∧
      ∀ network, ¬ ∃ hash, env.hash network = .ok hash := by
  intro start
  have hshort : (start.applyAll (bound 64)).buildEnvelope.isOk = true := by decide +kernel
  have hlong : (start.applyAll (bound 65)).buildEnvelope.isOk = true := by decide +kernel
  obtain ⟨env, henv⟩ := Except.exists_of_isOk hshort
  obtain ⟨env', henv'⟩ := Except.exists_of_isOk hlong
  refine ⟨⟨env, henv, ?_⟩, env', henv', fun network h => ?_⟩
  · refine (writable_iff_of_buildEnvelope henv).1.2 ?_
    constructor
    · exact nofun
    · intro signer hs
      rw [List.mem_singleton.1 hs]
      exact Nat.le_refl 64
    · intro op hop
      rw [List.mem_singleton.1 hop]
      trivial
  · have hfits := (((writable_iff_of_buildEnvelope henv').2.1 network).1 h).extraSigners _
      (List.mem_singleton.2 rfl)
    exact Nat.not_succ_le_self 64 hfits

/-- What is built need not have bytes: a memo of twenty-nine bytes is one byte too long. -/
theorem exists_buildEnvelope_not_writable :
    let requests := [.memo (.text "nothing but a note on nothing"),
      .operation { body := .bumpSequence ⟨10⟩ }]
    ∃ env, (applyAll { sourceAccount := .ed25519 (.replicate 32 0), seqNum := 1 }
        requests).buildEnvelope = .ok env ∧
      Envelope.format.toBytes env = .error (.excess ⟨29, 28, 60⟩) := by
  refine ⟨_, rfl, ?_⟩
  decide +kernel

end Draft

end StellarTx
