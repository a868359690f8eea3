/-
# The checksum as a remainder

Bits are coefficients of a polynomial over the field of two elements, the highest first.  Shifting a
bit into the register multiplies by `X` and keeps the residue modulo the generator (`dvd_shift`).  So
the checksum is the remainder of the message, with sixteen zeros behind it, by the generator.  It is
linear, and two messages with a difference that is not wider than the register have different
checksums: `checksum_remainder`.
-/
import Mathlib.Algebra.CharP.Two
import Mathlib.Algebra.Field.ZMod
import Mathlib.Algebra.Polynomial.Div
import Mathlib.Data.Nat.Bitwise
import Mathlib.Tactic.ComputeDegree
import StellarTx.Proofs.Bits
import StellarTx.Proofs.Crc16

namespace StellarTx

namespace Crc16

open Polynomial

/-! ## Bits as coefficients -/

/-- The coefficient that a bit stands for. -/
noncomputable def coefficient (bit : Bool) : (ZMod 2)[X] :=
  if bit then 1 else 0

/-- The polynomial whose coefficients are some bits, that of the highest power first. -/
noncomputable def ofCoefficients : List Bool → (ZMod 2)[X]
  | [] => 0
  | bit :: rest => coefficient bit * X ^ rest.length + ofCoefficients rest

/-- The polynomial by which the remainder is taken. -/
noncomputable def generator : (ZMod 2)[X] :=
  X ^ 16 + X ^ 12 + X ^ 5 + 1

theorem coefficient_xor (a b : Bool) :
    coefficient (a ^^ b) = coefficient a + coefficient b := by
  have htwo : (1 : (ZMod 2)[X]) + 1 = 0 := CharTwo.add_self_eq_zero 1
  cases a <;> cases b <;> simp [coefficient, htwo]

theorem ofCoefficients_append (first second : List Bool) :
    ofCoefficients (first ++ second) =
      ofCoefficients first * X ^ second.length + ofCoefficients second := by
  induction first with
  | nil => simp [ofCoefficients]
  | cons bit first ih =>
    rw [List.cons_append, ofCoefficients, ofCoefficients, ih, List.length_append, pow_add]
    ring

theorem ofCoefficients_concat (bits : List Bool) (bit : Bool) :
    ofCoefficients (bits ++ [bit]) = ofCoefficients bits * X + coefficient bit := by
  rw [ofCoefficients_append]
  simp [ofCoefficients]

theorem degree_ofCoefficients_lt (bits : List Bool) :
    (ofCoefficients bits).degree < bits.length := by
  induction bits with
  | nil =>
    rw [ofCoefficients, degree_zero]
    exact WithBot.bot_lt_coe 0
  | cons bit bits ih =>
    have hlength : ((bits.length : Nat) : WithBot Nat) < (bits.length + 1 : Nat) :=
      WithBot.coe_lt_coe.2 (Nat.lt_succ_self _)
    have hfirst : (coefficient bit * X ^ bits.length).degree ≤ (bits.length : WithBot Nat) := by
      cases bit with
      | false => simp [coefficient]
      | true => simp [coefficient]
    exact (degree_add_le _ _).trans_lt
      (max_lt (hfirst.trans_lt hlength) (ih.trans hlength))

/-- Exclusive or adds coefficients. -/
theorem ofCoefficients_xor (k m n : Nat) :
    ofCoefficients (bitsOf k (m ^^^ n)) =
      ofCoefficients (bitsOf k m) + ofCoefficients (bitsOf k n) := by
  induction k generalizing m n with
  | zero => exact (add_zero 0).symm
  | succ k ih =>
    rw [bitsOf_succ, bitsOf_succ, bitsOf_succ, ofCoefficients_concat, ofCoefficients_concat,
      ofCoefficients_concat, Nat.shiftRight_xor_distrib, ih, Nat.testBit_xor, coefficient_xor]
    ring

/-! ## The register -/

/-- The polynomial that the register holds. -/
noncomputable def residue (crc : BitVec 16) : (ZMod 2)[X] :=
  ofCoefficients (bitsOf 16 crc.toNat)

theorem residue_zero : residue 0#16 = 0 := by
  have hbits : bitsOf 16 (0#16).toNat = List.replicate 16 false := by decide
  rw [residue, hbits]
  simp [List.replicate_succ, ofCoefficients, coefficient]

theorem residue_xor (a b : BitVec 16) : residue (a ^^^ b) = residue a + residue b := by
  rw [residue, BitVec.toNat_xor, ofCoefficients_xor]
  rfl

theorem residue_polynomial : residue polynomial = X ^ 12 + X ^ 5 + 1 := by
  have hbits : bitsOf 16 polynomial.toNat = [false, false, false, true, false, false, false, false,
      false, false, true, false, false, false, false, true] := by decide
  rw [residue, hbits]
  simp [ofCoefficients, coefficient]
  ring

theorem residue_top (bit : Bool) : residue (top bit) = coefficient bit * X ^ 15 := by
  cases bit with
  | false =>
    rw [top, if_neg Bool.false_ne_true, residue_zero]
    simp [coefficient]
  | true =>
    have hbits : bitsOf 16 (top true).toNat = true :: List.replicate 15 false := by decide
    rw [residue, hbits]
    simp [List.replicate_succ, ofCoefficients, coefficient]

/-- Of the bits that are moved up, the highest leaves the register. -/
theorem residue_shiftLeft (crc : BitVec 16) :
    residue crc * X = coefficient crc.msb * X ^ 16 + residue (crc <<< 1) := by
  have hout : (crc.toNat <<< 1) >>> 16 = crc.msb.toNat := by
    have hlt : crc.toNat < 65536 := crc.isLt
    rw [Nat.shiftLeft_eq, Nat.shiftRight_eq_div_pow, BitVec.msb_eq_decide]
    by_cases h : 32768 ≤ crc.toNat
    · rw [decide_eq_true h, Bool.toNat_true]
      omega
    · rw [decide_eq_false h, Bool.toNat_false]
      omega
  have hin : bitsOf 16 (crc <<< 1).toNat = bitsOf 16 (crc.toNat <<< 1) := by
    rw [BitVec.toNat_shiftLeft]
    exact bitsOf_mod 16 (crc.toNat <<< 1)
  have hbits : bitsOf 16 crc.toNat ++ [false] =
      bitsOf 1 crc.msb.toNat ++ bitsOf 16 (crc <<< 1).toNat := by
    have h := bitsOf_append_zeros 16 1 crc.toNat
    rw [Nat.add_comm 16, bitsOf_add, hout, ← hin] at h
    exact h
  have hhigh : bitsOf 1 crc.msb.toNat = [crc.msb] := by
    cases crc.msb <;> decide
  have hpolynomial := congrArg ofCoefficients hbits
  rw [ofCoefficients_concat, hhigh, ofCoefficients_append, length_bitsOf] at hpolynomial
  simpa [residue, ofCoefficients, coefficient] using hpolynomial

/-- A shift multiplies by `X`, and takes the generator off where a bit has left the register. -/
theorem dvd_shift (crc : BitVec 16) : generator ∣ residue crc * X - residue (shift crc) := by
  rw [residue_shiftLeft, shift]
  cases crc.msb with
  | false =>
    rw [if_neg Bool.false_ne_true]
    simp [coefficient]
  | true =>
    -- The bit that has left the register and the polynomial that is added make up the generator.
    have hcancel : ∀ p q r : (ZMod 2)[X], p + q - (q + r) = p + r := by
      intro p q r
      rw [CharTwo.sub_eq_add, ← add_assoc, add_assoc p, CharTwo.add_self_eq_zero, add_zero]
    have hdifference : coefficient true * X ^ 16 + residue (crc <<< 1) -
        residue (crc <<< 1 ^^^ polynomial) = generator := by
      rw [residue_xor, residue_polynomial, hcancel, coefficient, if_pos rfl, generator]
      ring
    rw [if_pos rfl, hdifference]

/-- Shifting in a message with sixteen zeros behind it keeps its residue. -/
theorem dvd_ofBits (k n : Nat) :
    generator ∣ ofCoefficients (bitsOf k n) * X ^ 16 - residue (ofBits k n) := by
  induction k generalizing n with
  | zero =>
    rw [ofBits, residue_zero]
    simp [bitsOf, ofCoefficients]
  | succ k ih =>
    -- One more bit doubles the message, and the register takes the bit in before it is shifted.
    have hstep := dvd_shift (ofBits k (n >>> 1) ^^^ top (n.testBit 0))
    rw [residue_xor, residue_top] at hstep
    have hsplit : ofCoefficients (bitsOf (k + 1) n) * X ^ 16 - residue (ofBits (k + 1) n) =
        (ofCoefficients (bitsOf k (n >>> 1)) * X ^ 16 - residue (ofBits k (n >>> 1))) * X +
          ((residue (ofBits k (n >>> 1)) + coefficient (n.testBit 0) * X ^ 15) * X -
            residue (ofBits (k + 1) n)) := by
      rw [bitsOf_succ, ofCoefficients_concat]
      ring
    rw [hsplit]
    exact dvd_add (Dvd.dvd.mul_right (ih _) X) hstep

theorem generator_monic : generator.Monic := by
  unfold generator
  monicity!

theorem degree_generator : generator.degree = 16 := by
  unfold generator
  compute_degree!

/-- A residue of the message in the register is its remainder, because the register is not longer
than the generator. -/
theorem modByMonic_generator {message : (ZMod 2)[X]} {crc : BitVec 16}
    (h : generator ∣ message - residue crc) : message %ₘ generator = residue crc := by
  obtain ⟨quotient, hquotient⟩ := h
  have hdegree : (residue crc).degree < generator.degree := by
    rw [degree_generator]
    exact degree_ofCoefficients_lt (bitsOf 16 crc.toNat)
  have hsum : residue crc + generator * quotient = message := by
    rw [← hquotient]
    ring
  exact (div_modByMonic_unique quotient _ generator_monic ⟨hsum, hdegree⟩).2

/-! ## Differences of messages -/

/-- Bytes spell a number with eight bits for each of them. -/
theorem ofBigEndian_lt_two_pow (bytes : List UInt8) :
    ofBigEndian bytes < 2 ^ (8 * bytes.length) := by
  rw [Nat.pow_mul]
  exact ofBigEndian_lt bytes

/-- Byte strings of one length are added as the numbers that they spell. -/
theorem ofBigEndian_xor {a b : List UInt8} (h : a.length = b.length) :
    ofBigEndian (List.zipWith (· ^^^ ·) a b) = ofBigEndian a ^^^ ofBigEndian b := by
  induction a generalizing b with
  | nil =>
    rw [List.length_eq_zero_iff.1 h.symm]
    rfl
  | cons x a ih =>
    cases b with
    | nil => cases h
    | cons y b =>
      have htail : a.length = b.length := Nat.succ.inj h
      have hpow : ∀ n, Nat.pow 256 n = Nat.pow 2 (8 * n) := fun n => (Nat.pow_mul 2 8 n).symm
      have ha : ofBigEndian a < Nat.pow 2 (8 * b.length) := htail ▸ ofBigEndian_lt_two_pow a
      rw [List.zipWith_cons_cons, ofBigEndian_cons, ofBigEndian_cons, ofBigEndian_cons, ih htail,
        List.length_zipWith, htail, Nat.min_self, UInt8.toNat_xor, hpow, Nat.mul_comm,
        Nat.mul_comm _ x.toNat, Nat.mul_comm _ y.toNat,
        xor_split _ _ _ _ ha (ofBigEndian_lt_two_pow b)]

theorem checksum_xor {a b : List UInt8} (h : a.length = b.length) :
    checksum (List.zipWith (· ^^^ ·) a b) = checksum a ^^^ checksum b := by
  rw [checksum_eq_ofBits, checksum_eq_ofBits, checksum_eq_ofBits, ofBigEndian_xor h,
    List.length_zipWith, ← h, Nat.min_self, ofBits_xor]

/-- Numbers that agree but for sixteen bits in a row differ by a burst of sixteen bits. -/
theorem exists_burst_of_window {m n s : Nat}
    (h : ∀ t, t < s ∨ s + 16 ≤ t → m.testBit t = n.testBit t) :
    ∃ w, w < 65536 ∧ m ^^^ n = w <<< s := by
  have hzero : ∀ t, t < s ∨ s + 16 ≤ t → (m ^^^ n).testBit t = false := by
    intro t ht
    rw [Nat.testBit_xor, h t ht, Bool.xor_self]
  refine ⟨(m ^^^ n) >>> s, ?_, ?_⟩
  · apply Nat.lt_pow_two_of_testBit (n := 16)
    intro t ht
    rw [Nat.testBit_shiftRight]
    exact hzero _ (.inr (by omega))
  · apply Nat.eq_of_testBit_eq
    intro t
    rw [Nat.testBit_shiftLeft, Nat.testBit_shiftRight]
    by_cases ht : s ≤ t
    · rw [decide_eq_true ht, Bool.true_and, Nat.add_sub_cancel' ht]
    · rw [decide_eq_false ht, Bool.false_and]
      exact hzero t (.inl (Nat.lt_of_not_le ht))

/-- Bits from the left as bits of the number. -/
theorem testBit_eq_of_bits {a b : List UInt8} (hlen : a.length = b.length) {i : Nat}
    (h : ∀ j, j < i ∨ i + 16 ≤ j → (bits a)[j]? = (bits b)[j]?) {t : Nat}
    (ht : t < 8 * a.length - (i + 16) ∨ 8 * a.length - (i + 16) + 16 ≤ t) :
    (ofBigEndian a).testBit t = (ofBigEndian b).testBit t := by
  by_cases hin : t < 8 * a.length
  · have hj : 8 * a.length - 1 - t < 8 * a.length := by omega
    have hback : 8 * a.length - 1 - (8 * a.length - 1 - t) = t := by omega
    have hbit := h (8 * a.length - 1 - t) (by omega)
    rw [bits_eq_bitsOf, bits_eq_bitsOf, ← hlen, getElem?_bitsOf hj, getElem?_bitsOf hj,
      hback] at hbit
    exact Option.some.inj hbit
  · -- No message has bits as high as these.
    have hle : 8 * a.length ≤ t := Nat.le_of_not_lt hin
    rw [Nat.testBit_lt_two_pow
        ((ofBigEndian_lt_two_pow a).trans_le (Nat.pow_le_pow_right (by decide) hle)),
      Nat.testBit_lt_two_pow
        ((ofBigEndian_lt_two_pow b).trans_le (Nat.pow_le_pow_right (by decide) (hlen ▸ hle)))]

/-- A difference that is not wider than sixteen bits does not go unnoticed. -/
theorem checksum_ne_of_window {a b : List UInt8} (hlen : a.length = b.length) (hne : a ≠ b)
    {i : Nat} (h : ∀ j, j < i ∨ i + 16 ≤ j → (bits a)[j]? = (bits b)[j]?) : checksum a ≠ checksum b := by
  intro heq
  obtain ⟨w, few, hburst⟩ := exists_burst_of_window fun t => testBit_eq_of_bits hlen h (t := t)
  have hw : w ≠ 0 := by
    rintro rfl
    rw [Nat.zero_shiftLeft, Nat.xor_eq_zero_iff] at hburst
    exact hne (ofBigEndian_inj hlen hburst)
  have fits : w <<< (8 * a.length - (i + 16)) >>> (8 * a.length) = 0 := by
    have hb := ofBigEndian_lt_two_pow b
    rw [← hlen] at hb
    rw [← hburst, Nat.shiftRight_eq_div_pow]
    exact Nat.div_eq_of_lt (Nat.xor_lt_two_pow (ofBigEndian_lt_two_pow a) hb)
  have hzero : ofBits (8 * a.length) (w <<< (8 * a.length - (i + 16))) = 0#16 := by
    have hb := checksum_eq_ofBits b
    rw [← hlen, ← heq, checksum_eq_ofBits] at hb
    rw [← hburst, ofBits_xor, hb, BitVec.xor_self]
  exact ofBits_burst_ne_zero hw few fits hzero

/-! ## The checksum -/

/-- The checksum is the remainder of the message, with sixteen zeros behind it, by the generator.
For messages of one length it is linear, and those that differ, but in sixteen bits in a row at
most, have different checksums. -/
theorem checksum_remainder :
    (∀ bytes, residue (checksum bytes) = (ofCoefficients (bits bytes) * X ^ 16) %ₘ generator) ∧
    (∀ a b : List UInt8, a.length = b.length →
      checksum (List.zipWith (· ^^^ ·) a b) = checksum a ^^^ checksum b) ∧
    (∀ (a b : List UInt8) (i : Nat), a.length = b.length → a ≠ b →
      (∀ j, j < i ∨ i + 16 ≤ j → (bits a)[j]? = (bits b)[j]?) → checksum a ≠ checksum b) := by
  refine ⟨fun bytes => ?_, fun a b hlen => checksum_xor hlen, fun a b i hlen hne h =>
    checksum_ne_of_window hlen hne h⟩
  have hdvd := dvd_ofBits (8 * bytes.length) (ofBigEndian bytes)
  rw [← bits_eq_bitsOf, ← checksum_eq_ofBits] at hdvd
  exact (modByMonic_generator hdvd).symm

/-- Sixteen bits that lie across three bytes, the first and the last of them changed. -/
theorem checksum_remainder_burst :
    checksum [0x31, 0x32, 0x33, 0x34] ≠ checksum [0x31, 0x22, 0x33, 0x14] ∧
      checksum [0x00, 0x10, 0x00, 0x20] =
        checksum [0x31, 0x32, 0x33, 0x34] ^^^ checksum [0x31, 0x22, 0x33, 0x14] := by
  have hbits : ∀ j : Fin 32, j < 11 ∨ 11 + 16 ≤ j.val →
      (bits [0x31, 0x32, 0x33, 0x34])[j]? = (bits [0x31, 0x22, 0x33, 0x14])[j]? := by decide
  refine ⟨checksum_remainder.2.2 _ _ 11 rfl (by decide) fun j hj => ?_,
    checksum_remainder.2.1 [0x31, 0x32, 0x33, 0x34] [0x31, 0x22, 0x33, 0x14] rfl⟩
  by_cases hin : j < 32
  · exact hbits ⟨j, hin⟩ hj
  · rw [List.getElem?_eq_none (Nat.le_of_not_lt hin), List.getElem?_eq_none (Nat.le_of_not_lt hin)]

end Crc16

end StellarTx
