/-
# The checks of a draft

The checks of a draft stop at the first that fails.  What all of them would say, each for itself and
in the same order, is a list of complaints: building gives the transaction if there are none, or
else the first of them (`Draft.build_eq_firstOr`).  So what is built from requests, and why it is
not, is read off what was asked for: `Draft.build_asked`.
-/
import StellarTx.Proofs.Build.Requests
import StellarTx.Proofs.Preconditions
import StellarTx.Proofs.Result

namespace StellarTx

namespace Draft

/-! ## Complaints -/

/-- What is wrong with an operation. -/
def operationComplaint (op : Operation) (index : Nat) : List BuildError :=
  match op.body.validate with
  | .ok () => []
  | .error e => [.invalidOperation index e]

/-- What is wrong with operations, the first of which has index `i`. -/
def operationComplaints (i : Nat) (operations : List Operation) : List BuildError :=
  (operations.zipIdx i).flatMap fun (op, index) => operationComplaint op index

/-- What is wrong with conditions. -/
def conditionComplaints (c : Conditions) : List BuildError :=
  (c.timeBounds.elim [] fun b =>
    errorIf (b.maxTime ≠ 0 ∧ b.maxTime < b.minTime) (.invalidTimeBounds b)) ++
  (c.ledgerBounds.elim [] fun b =>
    errorIf (b.maxLedger ≠ 0 ∧ b.maxLedger < b.minLedger) (.invalidLedgerBounds b)) ++
  errorIf (maxExtraSigners < c.extraSigners.length) (.tooManyExtraSigners c.extraSigners.length)

/-- Everything that is wrong with a draft: of its operations the number, then each of them from the
first to the last, its conditions, and its fee. -/
def complaints (d : Draft) : List BuildError :=
  let count := d.operations.length
  errorIf (count = 0) .noOperations ++
  errorIf (maxOperations < count) (.tooManyOperations count) ++
  operationComplaints 0 d.operations ++
  conditionComplaints d.conditions ++
  errorIf (UInt32.size ≤ d.baseFee.toNat * count) (.feeOverflow d.baseFee count)

/-- The transaction that holds what a draft holds. -/
def transaction (d : Draft) : Transaction where
  sourceAccount := d.sourceAccount
  fee := .ofNat (d.baseFee.toNat * d.operations.length)
  seqNum := d.seqNum
  cond := .minimal d.conditions
  memo := d.memo
  operations := d.operations

theorem checkOperations_eq_firstOr (i : Nat) (operations : List Operation) :
    checkOperations i operations = firstOr (operationComplaints i operations) (.ok ()) := by
  induction operations generalizing i with
  | nil => rfl
  | cons op rest ih =>
    show checkOperations i (op :: rest) =
      firstOr (operationComplaint op i ++ operationComplaints (i + 1) rest) (.ok ())
    rw [firstOr_append, ← ih, checkOperations, operationComplaint]
    cases op.body.validate <;> rfl

theorem checkConditions_eq_firstOr (c : Conditions) :
    checkConditions c = firstOr (conditionComplaints c) (.ok ()) := by
  obtain ⟨time, ledger, seqNum, age, gap, signers⟩ := c
  have hsigners : (if maxExtraSigners < signers.length
      then throw (.tooManyExtraSigners signers.length) else pure () : Except BuildError Unit) =
        firstOr (errorIf (maxExtraSigners < signers.length)
          (.tooManyExtraSigners signers.length)) (.ok ()) := by
    unfold errorIf
    split <;> rfl
  unfold checkConditions conditionComplaints
  simp only [firstOr_append]
  -- A check of bounds that are absent is left out.
  cases time with
  | none => cases ledger with
    | none => exact hsigners
    | some l => exact check_bind_eq.trans (congrArg _ hsigners)
  | some t => cases ledger with
    | none => exact check_bind_eq.trans (congrArg _ hsigners)
    | some l =>
      exact check_bind_eq.trans (congrArg _ (check_bind_eq.trans (congrArg _ hsigners)))

theorem fee_eq_firstOr (baseFee : UInt32) (count : Nat) :
    fee baseFee count =
      firstOr (errorIf (UInt32.size ≤ baseFee.toNat * count) (.feeOverflow baseFee count))
        (.ok (.ofNat (baseFee.toNat * count))) := by
  unfold fee errorIf
  by_cases h : baseFee.toNat * count < UInt32.size
  · rw [if_pos h, if_neg (Nat.not_le.2 h)]
    rfl
  · rw [if_neg h, if_pos (Nat.not_lt.1 h)]
    rfl

/-- Building gives the first complaint, or the transaction if there is none. -/
theorem build_eq_firstOr (d : Draft) : d.build = firstOr d.complaints (.ok d.transaction) := by
  unfold build complaints
  simp only [firstOr_append]
  refine check_bind_eq.trans (congrArg _ ?_)
  refine check_bind_eq.trans (congrArg _ ?_)
  rw [checkOperations_eq_firstOr, checkConditions_eq_firstOr, fee_eq_firstOr]
  refine bind_firstOr.trans (congrArg _ ?_)
  refine bind_firstOr.trans (congrArg _ ?_)
  exact bind_firstOr

/-! ## No complaints -/

theorem operationComplaints_eq_nil_iff {i : Nat} {operations : List Operation} :
    operationComplaints i operations = [] ↔ ∀ op ∈ operations, op.body.validate = .ok () := by
  induction operations generalizing i with
  | nil => exact iff_of_true rfl (List.forall_mem_nil _)
  | cons op rest ih =>
    show operationComplaint op i ++ operationComplaints (i + 1) rest = [] ↔ _
    rw [List.append_eq_nil_iff, ih, List.forall_mem_cons, operationComplaint]
    cases op.body.validate <;> simp

theorem conditionComplaints_eq_nil_iff {c : Conditions} :
    conditionComplaints c = [] ↔
      (∀ b, c.timeBounds = some b → ¬ (b.maxTime ≠ 0 ∧ b.maxTime < b.minTime)) ∧
      (∀ b, c.ledgerBounds = some b → ¬ (b.maxLedger ≠ 0 ∧ b.maxLedger < b.minLedger)) ∧
      c.extraSigners.length ≤ maxExtraSigners := by
  unfold conditionComplaints
  rw [List.append_eq_nil_iff, List.append_eq_nil_iff, elim_errorIf_eq_nil_iff,
    elim_errorIf_eq_nil_iff, errorIf_eq_nil_iff, Nat.not_lt, and_assoc]

theorem complaints_eq_nil_iff {d : Draft} :
    d.complaints = [] ↔
      1 ≤ d.operations.length ∧ d.operations.length ≤ maxOperations ∧
      (∀ op ∈ d.operations, op.body.validate = .ok ()) ∧
      ((∀ b, d.conditions.timeBounds = some b → b.maxTime = 0 ∨ b.minTime ≤ b.maxTime) ∧
        (∀ b, d.conditions.ledgerBounds = some b → b.maxLedger = 0 ∨ b.minLedger ≤ b.maxLedger) ∧
        d.conditions.extraSigners.length ≤ maxExtraSigners) ∧
      d.baseFee.toNat * d.operations.length < UInt32.size := by
  unfold complaints
  simp only [List.append_eq_nil_iff, errorIf_eq_nil_iff, operationComplaints_eq_nil_iff,
    conditionComplaints_eq_nil_iff, not_and_or, not_not, UInt64.not_lt, UInt32.not_lt, Nat.not_lt,
    Nat.not_le, and_assoc, Nat.one_le_iff_ne_zero, ne_eq]

/-! ## What is built from requests -/

open Request (all last?)

/-- What is built from requests in any order, none of which is for an end from now on.  A
transaction is built exactly if there are one to a hundred operations, all of them valid, the last
bounds of time and of ledgers do not end before they start, there are at most two extra signers, and
the fee of all operations is below `2 ^ 32`.  The error is the first complaint about what was asked
for.  The transaction holds all operations and extra signers in the order of the requests, the last
of everything else, the exact fee, and preconditions that mean what was asked for, in no more bytes
than any others that mean the same.  Requests of different kinds may be mixed in any way. -/
theorem build_asked (source : MuxedAccount) (seqNum : Int64) {requests : List Request}
    (plain : ∀ request ∈ requests, request.setter ≠ .timeout) :
    let start : Draft := { sourceAccount := source, seqNum }
    let d := asked source seqNum requests
    let count := d.operations.length
    let built := (start.applyAll requests).build
    ((∃ tx, built = .ok tx) ↔
      1 ≤ count ∧ count ≤ 100 ∧ (∀ op ∈ d.operations, op.body.validate = .ok ()) ∧
      ((∀ b, d.conditions.timeBounds = some b → b.maxTime = 0 ∨ b.minTime ≤ b.maxTime) ∧
        (∀ b, d.conditions.ledgerBounds = some b → b.maxLedger = 0 ∨ b.minLedger ≤ b.maxLedger) ∧
        d.conditions.extraSigners.length ≤ 2) ∧
      d.baseFee.toNat * count < UInt32.size) ∧
    (∀ e, built = .error e ↔ d.complaints.head? = some e) ∧
    (∀ tx, built = .ok tx →
      (tx.sourceAccount = source ∧ tx.seqNum = seqNum ∧ tx.operations = all .operation requests ∧
        tx.memo = (last? .memo requests).getD .none ∧
        tx.fee.toNat = ((last? .baseFee requests).getD 100).toNat * tx.operations.length) ∧
      tx.cond.conditions =
        { timeBounds := last? .timeBounds requests
          ledgerBounds := last? .ledgerBounds requests
          minSeqNum := last? .minSeqNum requests
          minSeqAge := (last? .minSeqAge requests).getD 0
          minSeqLedgerGap := (last? .minSeqLedgerGap requests).getD 0
          extraSigners := all .extraSigner requests } ∧
      ∀ (p : Preconditions) (bytes : List UInt8), p.conditions = tx.cond.conditions →
        Preconditions.format.toBytes p = .ok bytes →
        ∃ short, Preconditions.format.toBytes tx.cond = .ok short ∧
          short.length ≤ bytes.length) ∧
    ∀ others : List Request,
      (∀ s : Setter, requests.filter (·.setter = s) = others.filter (·.setter = s)) →
      (start.applyAll others).build = built := by
  intro start d count built
  have hbuilt : built = firstOr d.complaints (.ok d.transaction) :=
    (congrArg build (applyAll_eq_asked plain)).trans d.build_eq_firstOr
  refine ⟨?_, fun e => ?_, fun tx h => ?_, fun others h => ?_⟩
  · simp only [hbuilt, firstOr_eq_ok_iff, exists_and_left, exists_eq', and_true]
    exact complaints_eq_nil_iff
  · rw [hbuilt]
    exact firstOr_eq_error_iff
  · rw [hbuilt, firstOr_eq_ok_iff] at h
    obtain ⟨hnone, rfl⟩ := h
    obtain ⟨_, _, _, _, hfee⟩ := complaints_eq_nil_iff.1 hnone
    refine ⟨⟨rfl, rfl, rfl, rfl, ?_⟩, ?_, fun p bytes hp hbytes => ?_⟩
    · exact UInt32.toNat_ofNat_of_lt hfee
    · exact Preconditions.conditions_minimal d.conditions
    · have hmeans : p.conditions = d.conditions :=
        hp.trans (Preconditions.conditions_minimal d.conditions)
      show ∃ short, Preconditions.format.toBytes (.minimal d.conditions) = .ok short ∧ _
      rw [← hmeans]
      exact Preconditions.exists_toBytes_minimal hbytes
  · have hothers := plain_of_setters h plain
    show (start.applyAll others).build = (start.applyAll requests).build
    rw [applyAll_eq_asked plain, applyAll_eq_asked hothers, asked_eq_of_setters h]

/-- Two operations at a base fee that is asked for twice, as are the memo and the time. -/
def mixed : List Request :=
  [.memo (.id 1), .operation { body := .bumpSequence ⟨10⟩ }, .timeBounds ⟨20, 10⟩, .baseFee 7,
    .operation { body := .bumpSequence ⟨11⟩ }, .baseFee 250, .memo (.id 2), .timeBounds ⟨10, 20⟩]

/-- The same requests, one kind after the other. -/
def sorted : List Request :=
  [.baseFee 7, .baseFee 250, .memo (.id 1), .memo (.id 2), .timeBounds ⟨20, 10⟩,
    .timeBounds ⟨10, 20⟩, .operation { body := .bumpSequence ⟨10⟩ },
    .operation { body := .bumpSequence ⟨11⟩ }]

/-- Two complaints: too many extra signers, and a fee that cannot be told. -/
def excessive : List Request :=
  [.baseFee 0xffffffff, .extraSigner (.hashX (.replicate 32 1)),
    .extraSigner (.hashX (.replicate 32 2)), .extraSigner (.hashX (.replicate 32 3))]

/-- What is asked for last counts, in any mixture.  Of two complaints the first is the error. -/
theorem build_asked_mixed :
    let start : Draft := { sourceAccount := .ed25519 (.replicate 32 0), seqNum := 1 }
    (∀ request ∈ mixed ++ excessive, request.setter ≠ .timeout) ∧
      (∃ tx, (start.applyAll mixed).build = .ok tx ∧ tx.fee.toNat = 500 ∧ tx.memo = .id 2 ∧
        tx.cond.conditions = { timeBounds := some ⟨10, 20⟩ }) ∧
      (start.applyAll sorted).build = (start.applyAll mixed).build ∧
      (start.applyAll (mixed ++ excessive)).build = .error (.tooManyExtraSigners 3) := by
  intro start
  have hall : ∀ request ∈ mixed ++ excessive, request.setter ≠ .timeout := by decide
  have hmixed : ∀ request ∈ mixed, request.setter ≠ .timeout :=
    (List.forall_mem_append.1 hall).1
  have hok : (start.applyAll mixed).build.isOk = true := by decide
  obtain ⟨tx, htx⟩ := Except.exists_of_isOk hok
  obtain ⟨_, _, hholds, hkinds⟩ := build_asked start.sourceAccount start.seqNum hmixed
  obtain ⟨_, herror, _⟩ := build_asked start.sourceAccount start.seqNum hall
  obtain ⟨⟨_, _, hoperations, hmemo, hfee⟩, hconditions, _⟩ := hholds tx htx
  refine ⟨hall, ⟨tx, htx, ?_, hmemo, hconditions⟩, hkinds sorted ?_, (herror _).2 ?_⟩
  · rw [hfee, hoperations]
    rfl
  · intro s
    cases s <;> rfl
  · rfl

end Draft

end StellarTx
