/-
# Bits, the highest first

`bitsOf k n` are the low `k` bits of a number and `bits` are those of a byte string, both in the
order in which they are written.  The bits of a byte string are those of the number that it spells
(`bits_eq_bitsOf`).
-/
import StellarTx.Octets

namespace StellarTx

/-- The low `k` bits of a number, the highest first. -/
def bitsOf (k n : Nat) : List Bool :=
  (List.range k).reverse.map n.testBit

/-- The bits of a byte string, those of the first byte first. -/
def bits (bytes : List UInt8) : List Bool :=
  bytes.flatMap fun byte => bitsOf 8 byte.toNat

/-- The number that bits spell. -/
def numberOfBits (bits : List Bool) : Nat :=
  bits.foldl (fun n bit => 2 * n + bit.toNat) 0

/-! ## Bits of a number -/

theorem length_bitsOf (k n : Nat) : (bitsOf k n).length = k := by
  rw [bitsOf, List.length_map, List.length_reverse, List.length_range]

/-- The last bit may be taken off. -/
theorem bitsOf_succ (k n : Nat) : bitsOf (k + 1) n = bitsOf k (n >>> 1) ++ [n.testBit 0] := by
  have hshift : n.testBit ∘ Nat.succ = (n >>> 1).testBit := by
    funext i
    rw [Nat.testBit_shiftRight, Nat.add_comm]
    rfl
  rw [bitsOf, List.range_succ_eq_map, List.reverse_cons, List.map_append, ← List.map_reverse,
    List.map_map, hshift]
  rfl

theorem bitsOf_add (j k n : Nat) : bitsOf (j + k) n = bitsOf j (n >>> k) ++ bitsOf k n := by
  induction k generalizing n with
  | zero => exact (List.append_nil _).symm
  | succ k ih =>
    rw [← Nat.add_assoc, bitsOf_succ, ih, ← Nat.shiftRight_add, Nat.add_comm 1, bitsOf_succ k,
      List.append_assoc]

theorem getElem?_bitsOf {k n i : Nat} (h : i < k) :
    (bitsOf k n)[i]? = some (n.testBit (k - 1 - i)) := by
  rw [bitsOf, List.getElem?_map, List.getElem?_reverse (by rwa [List.length_range]),
    List.length_range, List.getElem?_range (by omega)]
  rfl

/-- Bits higher than those that are listed do not matter. -/
theorem bitsOf_congr {k m n : Nat} (h : ∀ i < k, m.testBit i = n.testBit i) :
    bitsOf k m = bitsOf k n := by
  apply List.map_congr_left
  intro i hi
  exact h i (List.mem_range.1 (List.mem_reverse.1 hi))

theorem bitsOf_mod (k n : Nat) : bitsOf k (n % Nat.pow 2 k) = bitsOf k n := by
  apply bitsOf_congr
  intro i hi
  have hmod : (n % 2 ^ k).testBit i = (decide (i < k) && n.testBit i) :=
    Nat.testBit_mod_two_pow n k i
  rw [decide_eq_true hi, Bool.true_and] at hmod
  exact hmod

/-- Zeros behind the bits of a number shift it. -/
theorem bitsOf_append_zeros (k j n : Nat) :
    bitsOf k n ++ List.replicate j false = bitsOf (k + j) (n <<< j) := by
  have hzeros : bitsOf j (n <<< j) = List.replicate j false := by
    apply List.eq_replicate_iff.2 ⟨length_bitsOf j _, ?_⟩
    intro bit hbit
    obtain ⟨i, hi, rfl⟩ := List.mem_map.1 hbit
    have hlt : i < j := List.mem_range.1 (List.mem_reverse.1 hi)
    rw [Nat.testBit_shiftLeft, decide_eq_false (Nat.not_le_of_lt hlt)]
    rfl
  rw [bitsOf_add, Nat.shiftLeft_shiftRight, hzeros]

theorem numberOfBits_bitsOf (k n : Nat) : numberOfBits (bitsOf k n) = n % Nat.pow 2 k := by
  induction k generalizing n with
  | zero => exact (Nat.mod_one n).symm
  | succ k ih =>
    have hpow : Nat.pow 2 (k + 1) = 2 * Nat.pow 2 k := Nat.mul_comm _ _
    have hbit : (n.testBit 0).toNat = n % 2 := by
      rw [Nat.testBit_zero]
      rcases Nat.mod_two_eq_zero_or_one n with h | h <;> rw [h] <;> rfl
    have hhalf : n >>> 1 = n / 2 := rfl
    have hconcat : numberOfBits (bitsOf k (n >>> 1) ++ [n.testBit 0]) =
        2 * numberOfBits (bitsOf k (n >>> 1)) + (n.testBit 0).toNat := List.foldl_append
    rw [bitsOf_succ, hconcat, ih, hbit, hhalf, hpow, Nat.mod_mul, Nat.add_comm]

/-! ## Bits of a byte string -/

/-- One more byte is eight more bits. -/
theorem bitsOf_push (k n : Nat) (byte : UInt8) :
    bitsOf (k + 8) (n * 256 + byte.toNat) = bitsOf k n ++ bitsOf 8 byte.toNat := by
  have hbyte : byte.toNat < 256 := byte.toNat_lt
  have hfront : (n * 256 + byte.toNat) >>> 8 = n := by
    rw [Nat.shiftRight_eq_div_pow]
    omega
  have hback : (n * 256 + byte.toNat) % Nat.pow 2 8 = byte.toNat := by
    show _ % 256 = _
    omega
  rw [bitsOf_add, hfront, ← bitsOf_mod 8 (n * 256 + byte.toNat), hback]

/-- The bits of a byte string are those of the number that it spells. -/
theorem bits_eq_bitsOf (bytes : List UInt8) :
    bits bytes = bitsOf (8 * bytes.length) (ofBigEndian bytes) := by
  suffices ∀ l : List UInt8, bits l.reverse = bitsOf (8 * l.length) (ofBigEndian l.reverse) by
    simpa using this bytes.reverse
  intro l
  induction l with
  | nil => rfl
  | cons byte l ih =>
    have hconcat : bits (l.reverse ++ [byte]) = bits l.reverse ++ bitsOf 8 byte.toNat := by
      simp [bits, List.flatMap_append]
    rw [List.reverse_cons, hconcat, ih, ofBigEndian_concat, List.length_cons]
    exact (bitsOf_push _ _ _).symm

end StellarTx
