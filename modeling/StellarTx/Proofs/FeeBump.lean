/-
# What a fee bump carries and pays

A fee bump is built from an inner transaction in the current form, or brought to it, and that
transaction stays as it is, so that its digest and its signers are those of the envelope it came in.
The fee is the base fee times the number of operations and one more, exactly, and no step of the
computation in words of 64 bits wraps: `FeeBump.build_carries`.

The base fee is compared with the rate of the inner transaction, its fee over its operations, after
that is rounded down.  So the one base fee just below a rate that is no whole number is let through,
and only that one: `FeeBump.pays_rate_iff`.
-/
import StellarTx.Build.FeeBump
import StellarTx.Proofs.LegacyForm
import StellarTx.Proofs.Result
import Mathlib.Tactic.Ring

namespace StellarTx

/-- What can be bumped is a transaction that is not a fee bump itself. -/
theorem Envelope.bumpable_eq_ok_iff {inner : Envelope} {signed : Signed Transaction} :
    inner.bumpable = .ok signed ↔ inner.toV1 = .v1 signed := by
  cases inner with
  | v0 env => simp [bumpable, toV1]
  | v1 env => simp [bumpable, toV1]
  | feeBump env => simp [bumpable, toV1]

namespace FeeBump

variable {feeSource : MuxedAccount} {baseFee : Int64} {inner : Envelope}
  {signed : Signed Transaction} {bump : Signed FeeBump} {operations : Nat}

/-! ## The total fee -/

/-- The greatest word. -/
theorem maxValue_toInt : Int64.maxValue.toInt = 2 ^ 63 - 1 := rfl

/-- The smallest one. -/
theorem minValue_toInt : Int64.minValue.toInt = -2 ^ 63 := rfl

/-- The base fee that an error about too large a total shows. -/
def shownFee (baseFee : Int64) : Nat :=
  if 0 ≤ baseFee.toInt ∧ baseFee.toInt < UInt32.size then baseFee.toInt.toNat
  else UInt32.size - 1

/-- The total is the product of numbers, if that is a word. -/
theorem totalFee_eq (baseFee : Int64) (operations : Nat) :
    totalFee baseFee operations =
      if Int64.minValue.toInt ≤ baseFee.toInt * (operations + 1) ∧
          baseFee.toInt * (operations + 1) ≤ Int64.maxValue.toInt then
        .ok (.ofInt (baseFee.toInt * (operations + 1)))
      else .error (.feeOverflow (.ofNat (shownFee baseFee)) (operations + 1)) := rfl

/-- There is a total fee exactly if the product fits into a word, and then it is the product. -/
theorem totalFee_eq_ok_iff {fee : Int64} :
    totalFee baseFee operations = .ok fee ↔ fee.toInt = baseFee.toInt * (operations + 1) := by
  rw [totalFee_eq, minValue_toInt, maxValue_toInt]
  split
  · next h =>
    rw [Except.ok.injEq, ← Int64.toInt_inj, Int64.toInt_ofInt_of_le h.1 (by omega)]
    exact eq_comm
  · next h =>
    have hle := fee.le_toInt
    have hlt := fee.toInt_lt
    constructor
    · nofun
    · intro heq
      omega

/-- Since the base fee is not negative, a total that does not fit is too great. -/
theorem totalFee_eq_error_iff (nonneg : 0 ≤ baseFee.toInt) {e : BuildError} :
    totalFee baseFee operations = .error e ↔
      Int64.maxValue.toInt < baseFee.toInt * (operations + 1) ∧
        e = .feeOverflow (.ofNat (shownFee baseFee)) (operations + 1) := by
  have hproduct : 0 ≤ baseFee.toInt * (operations + 1) := Int.mul_nonneg nonneg (by omega)
  rw [totalFee_eq, minValue_toInt]
  split
  · next h =>
    constructor
    · nofun
    · rintro ⟨hlt, _⟩
      omega
  · next h =>
    rw [Except.error.injEq]
    constructor
    · rintro rfl
      exact ⟨by omega, rfl⟩
    · rintro ⟨_, rfl⟩
      rfl

/-! ## How building ends -/

/-- A fee bump cannot be bumped again. -/
theorem build_feeBump (env : Signed FeeBump) :
    build feeSource baseFee (.feeBump env) = .error .nestedFeeBump := rfl

/-- Operations are looked for before the base fee is compared. -/
theorem build_of_no_operations (hinner : inner.toV1 = .v1 signed)
    (h : signed.tx.operations.length = 0) :
    build feeSource baseFee inner = .error .noOperations := by
  unfold build
  rw [Envelope.bumpable_eq_ok_iff.2 hinner]
  exact if_pos h

/-- The error shows both fees. -/
theorem build_of_below (hinner : inner.toV1 = .v1 signed)
    (nonempty : signed.tx.operations.length ≠ 0)
    (h : baseFee.toInt < innerBaseFee signed.tx) :
    build feeSource baseFee inner = .error (.belowInner baseFee (innerBaseFee signed.tx)) := by
  unfold build
  rw [Envelope.bumpable_eq_ok_iff.2 hinner]
  exact (if_neg nonempty).trans (if_pos h)

/-- After these checks only the total can fail. -/
theorem build_of_not_below (hinner : inner.toV1 = .v1 signed)
    (nonempty : signed.tx.operations.length ≠ 0)
    (h : (innerBaseFee signed.tx : Int) ≤ baseFee.toInt) :
    build feeSource baseFee inner =
      (totalFee baseFee signed.tx.operations.length >>= fun fee =>
        .ok (.unsigned { feeSource, fee, inner := signed })) := by
  unfold build
  rw [Envelope.bumpable_eq_ok_iff.2 hinner]
  exact (if_neg nonempty).trans (if_neg (Int.not_lt.2 h))

/-- A fee bump is built exactly if the inner transaction has operations, the base fee is not below
its rounded rate, and the total fits. -/
theorem build_eq_ok_iff (hinner : inner.toV1 = .v1 signed) :
    build feeSource baseFee inner = .ok bump ↔
      signed.tx.operations.length ≠ 0 ∧ (innerBaseFee signed.tx : Int) ≤ baseFee.toInt ∧
        ∃ fee : Int64, fee.toInt = baseFee.toInt * (signed.tx.operations.length + 1) ∧
          bump = .unsigned { feeSource, fee, inner := signed } := by
  by_cases hnone : signed.tx.operations.length = 0
  · rw [build_of_no_operations hinner hnone]
    exact ⟨nofun, fun h => absurd hnone h.1⟩
  by_cases hbelow : baseFee.toInt < innerBaseFee signed.tx
  · rw [build_of_below hinner hnone hbelow]
    exact ⟨nofun, fun h => absurd hbelow (Int.not_lt.2 h.2.1)⟩
  · have hrate := Int.not_lt.1 hbelow
    rw [build_of_not_below hinner hnone hrate, Except.bind_eq_ok_iff]
    simp only [totalFee_eq_ok_iff, Except.ok.injEq]
    constructor
    · rintro ⟨fee, hfee, rfl⟩
      exact ⟨hnone, hrate, fee, hfee, rfl⟩
    · rintro ⟨_, _, fee, hfee, rfl⟩
      exact ⟨fee, hfee, rfl⟩

/-- No rate is negative, so a base fee that is not below one is not either. -/
theorem nonneg_of_rate {tx : Transaction} (h : (innerBaseFee tx : Int) ≤ baseFee.toInt) :
    0 ≤ baseFee.toInt :=
  Int.le_trans (Int.natCast_nonneg _) h

/-- The total is excessive exactly if the base fee is not below the rounded rate and the product
is too large for a word. -/
theorem build_eq_feeOverflow_iff (hinner : inner.toV1 = .v1 signed)
    (nonempty : signed.tx.operations.length ≠ 0) {shown : UInt32} {count : Nat} :
    build feeSource baseFee inner = .error (.feeOverflow shown count) ↔
      ((innerBaseFee signed.tx : Int) ≤ baseFee.toInt ∧
        Int64.maxValue.toInt < baseFee.toInt * (signed.tx.operations.length + 1)) ∧
      shown = .ofNat (shownFee baseFee) ∧ count = signed.tx.operations.length + 1 := by
  by_cases hbelow : baseFee.toInt < innerBaseFee signed.tx
  · rw [build_of_below hinner nonempty hbelow]
    exact ⟨nofun, fun h => absurd hbelow (Int.not_lt.2 h.1.1)⟩
  · have hrate := Int.not_lt.1 hbelow
    rw [build_of_not_below hinner nonempty hrate]
    cases htotal : totalFee baseFee signed.tx.operations.length with
    | ok fee =>
      have hfee := totalFee_eq_ok_iff.1 htotal
      have hle := fee.toInt_le
      constructor
      · nofun
      · rintro ⟨⟨_, hlt⟩, _⟩
        omega
    | error e =>
      obtain ⟨hlt, rfl⟩ := (totalFee_eq_error_iff (nonneg_of_rate hrate)).1 htotal
      rw [Except.bind_of_error rfl, Except.error.injEq, BuildError.feeOverflow.injEq]
      constructor
      · rintro ⟨rfl, rfl⟩
        exact ⟨⟨hrate, hlt⟩, rfl, rfl⟩
      · rintro ⟨_, rfl, rfl⟩
        exact ⟨rfl, rfl⟩

/-- The base fee is refused exactly if it is below the rounded rate, which the error shows. -/
theorem build_eq_belowInner_iff (hinner : inner.toV1 = .v1 signed)
    (nonempty : signed.tx.operations.length ≠ 0) {shown : Nat} :
    build feeSource baseFee inner = .error (.belowInner baseFee shown) ↔
      baseFee.toInt < innerBaseFee signed.tx ∧ shown = innerBaseFee signed.tx := by
  by_cases hbelow : baseFee.toInt < innerBaseFee signed.tx
  · rw [build_of_below hinner nonempty hbelow, Except.error.injEq, BuildError.belowInner.injEq]
    constructor
    · rintro ⟨_, rfl⟩
      exact ⟨hbelow, rfl⟩
    · rintro ⟨_, rfl⟩
      exact ⟨rfl, rfl⟩
  · have hrate := Int.not_lt.1 hbelow
    rw [build_of_not_below hinner nonempty hrate]
    refine ⟨fun h => ?_, fun h => absurd h.1 hbelow⟩
    cases htotal : totalFee baseFee signed.tx.operations.length with
    | ok fee =>
      rw [htotal] at h
      cases h
    | error e =>
      obtain ⟨_, rfl⟩ := (totalFee_eq_error_iff (nonneg_of_rate hrate)).1 htotal
      rw [htotal] at h
      cases h

/-- A number that is not negative is a word if it is not above the greatest one. -/
theorem exists_toInt_eq_iff {value : Int} (nonneg : 0 ≤ value) :
    (∃ word : Int64, word.toInt = value) ↔ value ≤ Int64.maxValue.toInt := by
  constructor
  · rintro ⟨word, rfl⟩
    exact word.toInt_le
  · intro h
    rw [maxValue_toInt] at h
    exact ⟨.ofInt value, Int64.toInt_ofInt_of_le (by omega) (by omega)⟩

/-- A fee bump is built if the base fee is not below the rounded rate and the product fits. -/
theorem exists_build_iff (hinner : inner.toV1 = .v1 signed)
    (nonempty : signed.tx.operations.length ≠ 0) :
    (∃ bump, build feeSource baseFee inner = .ok bump) ↔
      (innerBaseFee signed.tx : Int) ≤ baseFee.toInt ∧
        baseFee.toInt * (signed.tx.operations.length + 1) ≤ Int64.maxValue.toInt := by
  simp only [build_eq_ok_iff hinner]
  constructor
  · rintro ⟨bump, _, hrate, fee, hfee, _⟩
    exact ⟨hrate, hfee ▸ fee.toInt_le⟩
  · rintro ⟨hrate, hle⟩
    have hproduct : 0 ≤ baseFee.toInt * (signed.tx.operations.length + 1 : Int) :=
      Int.mul_nonneg (nonneg_of_rate hrate) (by omega)
    obtain ⟨fee, hfee⟩ := (exists_toInt_eq_iff hproduct).2 hle
    exact ⟨_, nonempty, hrate, fee, hfee, rfl⟩

/-! ## The computation in words -/

/-- A word, if it is the number that it stands for. -/
def faithful? (word : Int64) (number : Int) : Option Int64 :=
  if word.toInt = number then some word else none

/-- The quotient of words, if there is one and it does not wrap. -/
def quotient? (a b : Int64) : Option Int64 :=
  if b = 0 then none else faithful? (a / b) (a.toInt.tdiv b.toInt)

/-- The fee bump of an envelope, computed in words of 64 bits.  It is nothing where a word is not
the number that it stands for or where a division is by zero.  Only the product with the base fee is
tested for that, and too large a product is an error. -/
def buildInWords (feeSource : MuxedAccount) (baseFee : Int64) (inner : Envelope) :
    Option (Except BuildError (Signed FeeBump)) :=
  match inner.bumpable with
  | .error e => some (.error e)
  | .ok inner =>
    let operations := inner.tx.operations.length
    if operations = 0 then some (.error .noOperations)
    else do
      let count ← faithful? (.ofNat operations) operations
      let fee ← faithful? (.ofNat inner.tx.fee.toNat) inner.tx.fee.toNat
      let rate ← quotient? fee count
      if baseFee < rate then some (.error (.belowInner baseFee rate.toInt.toNat))
      else do
        let payers ← faithful? (count + 1) (count.toInt + 1)
        match faithful? (baseFee * payers) (baseFee.toInt * payers.toInt) with
        | some fee => some (.ok (.unsigned { feeSource, fee, inner }))
        | none => some (.error (.feeOverflow (.ofNat (shownFee baseFee)) (operations + 1)))

/-- A word that stands for a number is kept. -/
theorem faithful?_of_eq {word : Int64} {number : Int} (h : word.toInt = number) :
    faithful? word number = some word :=
  if_pos h

/-- Small numbers are words. -/
theorem faithful?_ofNat {n : Nat} (h : n < 2 ^ 63) :
    faithful? (.ofNat n) n = some (.ofNat n) :=
  faithful?_of_eq (Int64.toInt_ofNat_of_lt h)

/-- A product of words is the product of the numbers if that is a word at all. -/
theorem faithful?_mul_eq_some_iff {a b word : Int64} :
    faithful? (a * b) (a.toInt * b.toInt) = some word ↔ word.toInt = a.toInt * b.toInt := by
  unfold faithful?
  split
  · next h => rw [Option.some.injEq, ← h, Int64.toInt_inj, eq_comm]
  · next h =>
    constructor
    · nofun
    · intro hword
      refine absurd ?_ h
      rw [Int64.toInt_mul, ← hword]
      exact word.toInt_bmod

/-- Words that stand for natural numbers are divided as these are. -/
theorem exists_quotient? {a b : Int64} {m n : Nat} (ha : a.toInt = m) (hb : b.toInt = n)
    (hn : n ≠ 0) : ∃ q, quotient? a b = some q ∧ q.toInt = (m / n : Nat) := by
  have hzero : b ≠ 0 := by
    rintro rfl
    rw [Int64.toInt_zero] at hb
    omega
  have hmin : a ≠ Int64.minValue := by
    rintro rfl
    rw [minValue_toInt] at ha
    omega
  have hdiv := Int64.toInt_div_of_ne_left a b hmin
  refine ⟨a / b, ?_, ?_⟩
  · rw [quotient?, if_neg hzero]
    exact faithful?_of_eq hdiv
  · rw [hdiv, ha, hb]
    exact Int.ofNat_tdiv m n

/-- To count one more does not wrap. -/
theorem toInt_ofNat_add_one {n : Nat} (h : n + 1 < 2 ^ 63) :
    (Int64.ofNat n + 1).toInt = n + 1 := by
  have hone : Int64.ofNat n + 1 = Int64.ofNat (n + 1) := (Int64.ofNat_add n 1).symm
  rw [hone]
  exact Int64.toInt_ofNat_of_lt h

/-- No step wraps or divides by zero, as long as the operations can be counted in a word. -/
theorem buildInWords_eq
    (countable : ∀ signed, inner.toV1 = .v1 signed → signed.tx.operations.length + 1 < 2 ^ 63) :
    buildInWords feeSource baseFee inner = some (build feeSource baseFee inner) := by
  unfold buildInWords
  cases hbumpable : inner.bumpable with
  | error e =>
    unfold build
    rw [hbumpable]
    rfl
  | ok signed =>
    have hinner := Envelope.bumpable_eq_ok_iff.1 hbumpable
    have hcountable := countable signed hinner
    by_cases hnone : signed.tx.operations.length = 0
    · rw [build_of_no_operations hinner hnone]
      exact if_pos hnone
    have hsmall : signed.tx.operations.length < 2 ^ 63 := by omega
    have hfee : signed.tx.fee.toNat < 2 ^ 63 := Nat.lt_trans signed.tx.fee.toNat_lt (by decide)
    obtain ⟨rate, hquotient, hrate⟩ := exists_quotient? (Int64.toInt_ofNat_of_lt hfee)
      (Int64.toInt_ofNat_of_lt hsmall) hnone
    have hpayers := toInt_ofNat_add_one hcountable
    have hsum : (Int64.ofNat signed.tx.operations.length + 1).toInt =
        (Int64.ofNat signed.tx.operations.length).toInt + 1 := by
      rw [hpayers, Int64.toInt_ofNat_of_lt hsmall]
    simp only [if_neg hnone, faithful?_ofNat hsmall, faithful?_ofNat hfee, hquotient,
      faithful?_of_eq hsum, Option.bind_eq_bind, Option.bind_some, Int64.lt_iff_toInt_lt, hrate]
    by_cases hbelow : baseFee.toInt < innerBaseFee signed.tx
    · rw [build_of_below hinner hnone hbelow]
      exact if_pos hbelow
    · have hle := Int.not_lt.1 hbelow
      rw [build_of_not_below hinner hnone hle]
      refine (if_neg hbelow).trans ?_
      -- Both ask for a word with the same value.
      have hproduct (fee : Int64) :
          faithful? (baseFee * (.ofNat signed.tx.operations.length + 1))
              (baseFee.toInt * (signed.tx.operations.length + 1)) = some fee ↔
            fee.toInt = baseFee.toInt * (signed.tx.operations.length + 1) :=
        hpayers ▸ faithful?_mul_eq_some_iff
      rw [hpayers]
      cases htotal : totalFee baseFee signed.tx.operations.length with
      | ok fee =>
        rw [(hproduct fee).2 (totalFee_eq_ok_iff.1 htotal)]
        rfl
      | error e =>
        obtain ⟨_, rfl⟩ := (totalFee_eq_error_iff (nonneg_of_rate hle)).1 htotal
        cases hword : faithful? (baseFee * (.ofNat signed.tx.operations.length + 1))
            (baseFee.toInt * (signed.tx.operations.length + 1)) with
        | none => rfl
        | some fee =>
          rw [totalFee_eq_ok_iff.2 ((hproduct fee).1 hword)] at htotal
          cases htotal

/-! ## What is carried over -/

/-- How a fee bump is built, from any fee source and base fee.  There is none of another fee bump or
of an inner transaction without operations.  Otherwise no step of the computation in words wraps or
divides by zero: a list that a machine can hold has fewer than `2 ^ 63 - 1` items.  The base fee is
at least the rounded rate, or the error says so; the total fits into a word, or the error says so;
and then the fee is the exact product, nobody has signed yet, and the inner transaction is that of
the envelope in the current form, with its signatures, its digest and its signers. -/
theorem build_carries (feeSource : MuxedAccount) (baseFee : Int64) :
    (∀ env, build feeSource baseFee (.feeBump env) = .error .nestedFeeBump) ∧
    ∀ (inner : Envelope) (signed : Signed Transaction), inner.toV1 = .v1 signed →
      let operations := signed.tx.operations.length
      let rate : Int := signed.tx.fee.toNat / operations
      (operations = 0 → build feeSource baseFee inner = .error .noOperations) ∧
      (operations ≠ 0 →
        (operations + 1 < 2 ^ 63 →
          buildInWords feeSource baseFee inner = some (build feeSource baseFee inner)) ∧
        ((∃ shown, build feeSource baseFee inner = .error (.belowInner baseFee shown)) ↔
          baseFee.toInt < rate) ∧
        ((∃ shown count, build feeSource baseFee inner = .error (.feeOverflow shown count)) ↔
          rate ≤ baseFee.toInt ∧ Int64.maxValue.toInt < baseFee.toInt * (operations + 1)) ∧
        ((∃ bump, build feeSource baseFee inner = .ok bump) ↔
          rate ≤ baseFee.toInt ∧ baseFee.toInt * (operations + 1) ≤ Int64.maxValue.toInt) ∧
        ∀ bump, build feeSource baseFee inner = .ok bump →
          0 ≤ baseFee.toInt ∧ bump.tx.feeSource = feeSource ∧
          bump.tx.fee.toInt = baseFee.toInt * (operations + 1) ∧ bump.signatures = [] ∧
          .v1 bump.tx.inner = inner.toV1 ∧ bump.tx.inner.signatures = inner.signatures ∧
          ∀ network, (Envelope.v1 bump.tx.inner).hash network = inner.hash network ∧
            ∀ candidates, (Envelope.v1 bump.tx.inner).verify network candidates =
              inner.verify network candidates) := by
  refine ⟨build_feeBump, fun inner signed hinner => ?_⟩
  intro operations rate
  refine ⟨build_of_no_operations hinner, fun hnone => ?_⟩
  have hrate : rate = innerBaseFee signed.tx := rfl
  refine ⟨fun hcountable => ?_, ?_, ?_, ?_, fun bump h => ?_⟩
  · refine buildInWords_eq fun other hother => ?_
    cases hinner.symm.trans hother
    exact hcountable
  · simp only [build_eq_belowInner_iff hinner hnone, exists_and_left, exists_eq, and_true, hrate]
  · simp only [build_eq_feeOverflow_iff hinner hnone, exists_and_left, exists_eq, and_true, hrate,
      operations]
  · exact exists_build_iff hinner hnone
  · obtain ⟨_, hle, fee, hfee, rfl⟩ := (build_eq_ok_iff hinner).1 h
    refine ⟨nonneg_of_rate hle, rfl, hfee, rfl, hinner.symm, ?_, fun network => ?_⟩
    · rw [← inner.signatures_toV1, hinner]
      rfl
    · rw [← inner.hash_toV1, hinner]
      refine ⟨rfl, fun candidates => ?_⟩
      rw [← inner.verify_toV1, hinner]
      rfl

/-- A transaction of version 0 with a fee, a number of operations and a signature. -/
def legacy (fee : UInt32) (operations : Nat) : Signed TransactionV0 where
  tx :=
    { sourceAccount := .replicate 32 0, fee, seqNum := 1, timeBounds := none, memo := .none
      operations := List.replicate operations { body := .bumpSequence ⟨10⟩ } }
  signatures := [⟨.replicate 4 9, [7]⟩]

/-- Two operations for 201 at a base fee of 100: the bump pays for three and keeps the signature.
At the greatest base fee the total is too large. -/
theorem build_carries_legacy :
    let inner : Envelope := .v0 (legacy 201 2)
    let source : MuxedAccount := .ed25519 (.replicate 32 3)
    inner.toV1 = .v1 (legacy 201 2).toV1 ∧
      buildInWords source 100 inner = some (build source 100 inner) ∧
      (∃ bump, build source 100 inner = .ok bump ∧ bump.tx.fee.toInt = 300 ∧
        bump.tx.inner.signatures = [⟨.replicate 4 9, [7]⟩] ∧
        ∀ network, (Envelope.v1 bump.tx.inner).hash network = inner.hash network) ∧
      ∃ shown count,
        build source Int64.maxValue inner = .error (.feeOverflow shown count) := by
  intro inner source
  have hinner : inner.toV1 = .v1 (legacy 201 2).toV1 := rfl
  obtain ⟨hwords, _, _, hok, hbump⟩ := ((build_carries source 100).2 inner _ hinner).2 (by decide)
  obtain ⟨bump, h⟩ := hok.2 (by decide)
  obtain ⟨_, _, hfee, _, _, hsignatures, hnetwork⟩ := hbump bump h
  have htop := ((build_carries source Int64.maxValue).2 inner _ hinner).2 (by decide)
  exact ⟨hinner, hwords (by decide), ⟨bump, h, hfee, hsignatures, fun n => (hnetwork n).1⟩,
    htop.2.2.1.2 (by decide)⟩

/-! ## The rate of the inner transaction -/

/-- One more than a rate rounded down is above the rate. -/
theorem lt_add_one_mul_of_rounded {fee base operations : Int} (pos : 0 < operations)
    (h : fee / operations ≤ base) : fee < (base + 1) * operations := by
  have hlt : fee < (fee / operations + 1) * operations := by
    have hmod := Int.emod_lt_of_pos fee pos
    have hdiv := Int.mul_ediv_add_emod fee operations
    rw [Int.add_mul, Int.one_mul, Int.mul_comm]
    omega
  have hle : (fee / operations + 1) * operations ≤ (base + 1) * operations :=
    Int.mul_le_mul_of_nonneg_right (by omega) (by omega)
  omega

/-- What is not below a rate rounded down is not below the rate, unless it is equal to the one and
the other is no whole number. -/
theorem le_mul_iff_of_rounded {fee base operations : Int} (pos : 0 < operations)
    (h : fee / operations ≤ base) :
    fee ≤ base * operations ↔ ¬ (base = fee / operations ∧ fee % operations ≠ 0) := by
  by_cases heq : base = fee / operations
  · have hmod := Int.emod_nonneg fee (Int.ne_of_gt pos)
    have hdiv := Int.mul_ediv_add_emod fee operations
    rw [heq, Int.mul_comm]
    omega
  · have hlt := lt_add_one_mul_of_rounded pos (Int.le_refl (fee / operations))
    have hle : (fee / operations + 1) * operations ≤ base * operations :=
      Int.mul_le_mul_of_nonneg_right (by omega) (by omega)
    constructor
    · exact fun _ hbase => heq hbase.1
    · intro _
      omega

/-- What a fee bump pays over the rate of its inner transaction.  It pays at least that rate
exactly if its base fee does, which then is no less than the fee of the inner transaction in all.
It does so but for one base fee, the rate rounded down when it is no whole number, and then the bump
is short by less than one for each operation.  That base fee is let through. -/
theorem pays_rate_iff (feeSource : MuxedAccount) (hinner : inner.toV1 = .v1 signed)
    (nonempty : signed.tx.operations.length ≠ 0) :
    let operations : Int := signed.tx.operations.length
    let fee : Int := signed.tx.fee.toNat
    (∀ baseFee bump, build feeSource baseFee inner = .ok bump →
      (fee * (operations + 1) ≤ bump.tx.fee.toInt * operations ↔
        fee ≤ baseFee.toInt * operations) ∧
      (fee ≤ baseFee.toInt * operations → fee ≤ bump.tx.fee.toInt) ∧
      (fee ≤ baseFee.toInt * operations ↔
        ¬ (baseFee.toInt = fee / operations ∧ fee % operations ≠ 0)) ∧
      fee * (operations + 1) < (bump.tx.fee.toInt + (operations + 1)) * operations) ∧
    ∃ bump, build feeSource (.ofInt (fee / operations)) inner = .ok bump := by
  intro operations fee
  have pos : 0 < operations := by omega
  refine ⟨fun baseFee bump h => ?_, ?_⟩
  · obtain ⟨_, hrate, total, htotal, rfl⟩ := (build_eq_ok_iff hinner).1 h
    have hrounded : fee / operations ≤ baseFee.toInt := hrate
    have hshort := lt_add_one_mul_of_rounded pos hrounded
    have hsum : 0 < operations + 1 := by omega
    refine ⟨?_, fun hpaid => ?_, le_mul_iff_of_rounded pos hrounded, ?_⟩
    · show fee * (operations + 1) ≤ total.toInt * operations ↔ _
      rw [htotal, Int.mul_right_comm]
      exact Int.mul_le_mul_right hsum
    · show fee ≤ total.toInt
      rw [htotal, Int.mul_add, Int.mul_one]
      exact Int.le_trans hpaid (Int.le_add_of_nonneg_right (nonneg_of_rate hrate))
    · show fee * (operations + 1) < (total.toInt + (operations + 1)) * operations
      calc fee * (operations + 1)
          < (baseFee.toInt + 1) * operations * (operations + 1) :=
            Int.mul_lt_mul_of_pos_right hshort hsum
        _ = (baseFee.toInt * (operations + 1) + (operations + 1)) * operations := by ring
        _ = (total.toInt + (operations + 1)) * operations := by rw [htotal]
  · have hnonneg : 0 ≤ fee / operations := Int.ediv_nonneg (by omega) (by omega)
    have hle : fee / operations ≤ fee := Int.ediv_le_self _ (by omega)
    have hmul : fee / operations * operations ≤ fee := Int.ediv_mul_le _ (by omega)
    have hfee : fee < 2 ^ 32 := Int.ofNat_lt.2 signed.tx.fee.toNat_lt
    have hword : (Int64.ofInt (fee / operations)).toInt = fee / operations :=
      Int64.toInt_ofInt_of_le (by omega) (by omega)
    refine (exists_build_iff hinner nonempty).2 ⟨?_, ?_⟩
    · rw [hword]
      exact Int.le_refl _
    · rw [hword, maxValue_toInt]
      show fee / operations * (operations + 1) ≤ _
      rw [Int.mul_add, Int.mul_one]
      omega

/-- Three operations for 5: a base fee of 2 pays the rate, and a base fee of 1 does not but is let
through. -/
theorem pays_rate_iff_legacy :
    let inner : Envelope := .v0 (legacy 5 3)
    let source : MuxedAccount := .ed25519 (.replicate 32 3)
    inner.toV1 = .v1 (legacy 5 3).toV1 ∧ (legacy 5 3).toV1.tx.operations.length ≠ 0 ∧
      (∃ bump, build source 2 inner = .ok bump ∧ 5 * 4 ≤ bump.tx.fee.toInt * 3) ∧
      ∃ bump, build source 1 inner = .ok bump ∧ ¬ 5 * 4 ≤ bump.tx.fee.toInt * 3 := by
  intro inner source
  have hinner : inner.toV1 = .v1 (legacy 5 3).toV1 := rfl
  have nonempty : (legacy 5 3).toV1.tx.operations.length ≠ 0 := by decide
  obtain ⟨hpays, _⟩ := pays_rate_iff source hinner nonempty
  refine ⟨hinner, nonempty, ⟨_, rfl, ?_⟩, _, rfl, ?_⟩
  · exact (hpays 2 _ rfl).1.2 (by decide)
  · exact fun h => absurd ((hpays 1 _ rfl).1.1 h) (by decide)

/-- The law that a fee bump pays at least the rate of its inner transaction fails: three operations
for 5 are bumped, with the bump four in all, for 4. -/
theorem exists_build_below_rate :
    ∃ bump, build (.ed25519 (.replicate 32 3)) 1 (.v0 (legacy 5 3)) = .ok bump ∧
      (legacy 5 3).toV1.tx.operations.length = 3 ∧ (legacy 5 3).toV1.tx.fee = 5 ∧
      ¬ 5 * (3 + 1) ≤ bump.tx.fee.toInt * 3 ∧ ¬ 5 ≤ bump.tx.fee.toInt := by
  refine ⟨_, rfl, rfl, rfl, ?_, ?_⟩
  · decide
  · decide

end FeeBump

end StellarTx
