/-
# Checksums of numbers

The checksum depends on the number that the bytes spell and on nothing else: `ofBits k n` runs the
low `k` bits of `n` through the register.  It is linear over exclusive or (`ofBits_xor`), and
shifting zeros in loses nothing (`shifts_eq_zero`), so that two messages that differ within sixteen
consecutive bits have different checksums (`ofBits_burst_ne_zero`).  A checksum is stored with its
bytes swapped, and a change of up to ten bits does not go unnoticed even where it goes on in the
stored checksum (`not_intact_burst`).
-/
import StellarTx.Crc16
import StellarTx.Octets

namespace StellarTx.Crc16

/-! ## Shifts are linear -/

theorem shift_zero : shift 0#16 = 0#16 := by decide

theorem shift_xor (a b : BitVec 16) : shift (a ^^^ b) = shift a ^^^ shift b := by
  have hcancel : ∀ x y p : BitVec 16, x ^^^ p ^^^ (y ^^^ p) = x ^^^ y := by
    intro x y p
    rw [BitVec.xor_assoc, BitVec.xor_comm p, BitVec.xor_assoc y, BitVec.xor_self, BitVec.xor_zero]
  unfold shift
  rw [BitVec.msb_xor, BitVec.shiftLeft_xor_distrib]
  cases a.msb <;> cases b.msb
  · rfl
  · exact BitVec.xor_assoc _ _ _
  · show a <<< 1 ^^^ b <<< 1 ^^^ polynomial = a <<< 1 ^^^ polynomial ^^^ b <<< 1
    rw [BitVec.xor_assoc, BitVec.xor_comm (b <<< 1), ← BitVec.xor_assoc]
  · exact (hcancel _ _ _).symm

theorem shifts_zero (n : Nat) : shifts n 0#16 = 0#16 := by
  induction n with
  | zero => rfl
  | succ n ih => rw [shifts, shift_zero, ih]

theorem shifts_xor (n : Nat) (a b : BitVec 16) :
    shifts n (a ^^^ b) = shifts n a ^^^ shifts n b := by
  induction n generalizing a b with
  | zero => rfl
  | succ n ih => rw [shifts, shift_xor, ih]; rfl

/-- The last shift may be taken apart instead of the first. -/
theorem shifts_succ (n : Nat) (crc : BitVec 16) : shifts (n + 1) crc = shift (shifts n crc) := by
  induction n generalizing crc with
  | zero => rfl
  | succ n ih => rw [shifts, ih]; rfl

/-- Shifting a zero in loses nothing, because the polynomial is odd. -/
theorem shift_eq_zero {crc : BitVec 16} (h : shift crc = 0#16) : crc = 0#16 := by
  unfold shift at h
  by_cases hmsb : crc.msb = true
  · rw [if_pos hmsb] at h
    -- The lowest bit after the shift is that of the polynomial.
    have hbit := congrArg (BitVec.getLsbD · 0) h
    simp [polynomial] at hbit
  · rw [if_neg hmsb] at h
    have hnat : crc.toNat <<< 1 % 65536 = 0 := congrArg BitVec.toNat h
    have hlow : ¬ 32768 ≤ crc.toNat := by
      rw [BitVec.msb_eq_decide, decide_eq_true_eq] at hmsb
      exact hmsb
    rw [Nat.shiftLeft_eq] at hnat
    apply BitVec.eq_of_toNat_eq
    show crc.toNat = 0
    omega

theorem shifts_eq_zero {n : Nat} {crc : BitVec 16} (h : shifts n crc = 0#16) : crc = 0#16 := by
  induction n generalizing crc with
  | zero => exact h
  | succ n ih => exact shift_eq_zero (ih h)

/-! ## Bits of a number -/

/-- A bit where the register takes it in. -/
def top (bit : Bool) : BitVec 16 := if bit then 0x8000#16 else 0#16

theorem top_xor (a b : Bool) : top (a ^^ b) = top a ^^^ top b := by
  cases a <;> cases b <;> rfl

/-- The checksum of the low `k` bits of a number, the highest of them first. -/
def ofBits : Nat → Nat → BitVec 16
  | 0, _ => 0#16
  | k + 1, n => shift (ofBits k (n >>> 1) ^^^ top (n.testBit 0))

theorem ofBits_zero (k : Nat) : ofBits k 0 = 0#16 := by
  induction k with
  | zero => rfl
  | succ k ih =>
    have htop : top (Nat.testBit 0 0) = 0#16 := by decide
    rw [ofBits, Nat.zero_shiftRight, ih, htop]
    exact shift_zero

theorem ofBits_xor (k m n : Nat) : ofBits k (m ^^^ n) = ofBits k m ^^^ ofBits k n := by
  induction k generalizing m n with
  | zero => rw [ofBits, ofBits, ofBits, BitVec.xor_self]
  | succ k ih =>
    have hswap : ∀ a b c d : BitVec 16, a ^^^ b ^^^ (c ^^^ d) = a ^^^ c ^^^ (b ^^^ d) := by
      intro a b c d
      rw [BitVec.xor_assoc, BitVec.xor_assoc, ← BitVec.xor_assoc b, BitVec.xor_comm b,
        BitVec.xor_assoc c]
    rw [ofBits, ofBits, ofBits, Nat.shiftRight_xor_distrib, ih, Nat.testBit_xor, top_xor, hswap,
      shift_xor]

/-- The first bits go through the register before the others. -/
theorem ofBits_add (k j n : Nat) :
    ofBits (k + j) n = shifts j (ofBits k (n >>> j)) ^^^ ofBits j n := by
  induction j generalizing n with
  | zero => rw [Nat.add_zero, Nat.shiftRight_zero, shifts, ofBits, BitVec.xor_zero]
  | succ j ih =>
    have hshift : n >>> 1 >>> j = n >>> (j + 1) := by
      rw [← Nat.shiftRight_add, Nat.add_comm]
    rw [← Nat.add_assoc, ofBits, ih, hshift, BitVec.xor_assoc, shift_xor, shifts_succ]
    rfl

/-- Zeros in front do not count. -/
theorem ofBits_of_shiftRight_eq_zero {k n : Nat} (h : n >>> k = 0) (j : Nat) :
    ofBits (j + k) n = ofBits k n := by
  rw [ofBits_add, h, ofBits_zero, shifts_zero, BitVec.zero_xor]

/-- Zeros behind are shifted in. -/
theorem ofBits_shiftLeft (k s n : Nat) : ofBits (k + s) (n <<< s) = shifts s (ofBits k n) := by
  have hzeros : ofBits s (n <<< s) = 0#16 := by
    induction s with
    | zero => rfl
    | succ s ih =>
      have hhalf : n <<< (s + 1) >>> 1 = n <<< s := by
        rw [Nat.shiftLeft_add, Nat.shiftLeft_shiftRight]
      have hbit : (n <<< (s + 1)).testBit 0 = false := by
        rw [Nat.testBit_shiftLeft]
        rfl
      rw [ofBits, hhalf, ih, hbit]
      exact shift_zero
  rw [ofBits_add, Nat.shiftLeft_shiftRight, hzeros, BitVec.xor_zero]

theorem ofNat_shiftLeft_one (n : Nat) : BitVec.ofNat 16 (n <<< 1) = BitVec.ofNat 16 n <<< 1 := by
  apply BitVec.eq_of_toNat_eq
  rw [BitVec.toNat_shiftLeft, BitVec.toNat_ofNat, BitVec.toNat_ofNat, Nat.shiftLeft_eq,
    Nat.shiftLeft_eq]
  omega

theorem shiftRight_xor_testBit (n : Nat) : n >>> 1 <<< 1 ^^^ (n.testBit 0).toNat = n := by
  apply Nat.eq_of_testBit_eq
  intro i
  rw [Nat.testBit_xor, Nat.testBit_shiftLeft, Nat.testBit_shiftRight]
  cases i with
  | zero => cases n.testBit 0 <;> rfl
  | succ i =>
    have hhigh : (n.testBit 0).toNat.testBit (i + 1) = false := by
      cases n.testBit 0 <;> simp [Nat.testBit_succ]
    rw [hhigh, Bool.xor_false, Nat.add_sub_cancel, Nat.add_comm 1]
    simp

/-- Up to sixteen bits may be put into the register at once. -/
theorem ofBits_eq_shifts {k : Nat} (h : k ≤ 16) (n : Nat) :
    ofBits k n = shifts k (BitVec.ofNat 16 n <<< (16 - k)) := by
  induction k generalizing n with
  | zero =>
    have hnone : BitVec.ofNat 16 n <<< 16 = 0#16 := by simp
    rw [Nat.sub_zero, hnone]
    rfl
  | succ k ih =>
    -- The last bit has passed `k` places when the others are in.
    have hlast : ∀ (k : Fin 16) (bit : Bool),
        shifts k (BitVec.ofNat 16 bit.toNat <<< (15 - k.val)) = top bit := by decide +kernel
    have hsplit : BitVec.ofNat 16 n <<< (15 - k) =
        BitVec.ofNat 16 (n >>> 1) <<< (16 - k) ^^^
          BitVec.ofNat 16 (n.testBit 0).toNat <<< (15 - k) := by
      have hk : 16 - k = 1 + (15 - k) := by omega
      have hn : BitVec.ofNat 16 n =
          BitVec.ofNat 16 (n >>> 1) <<< 1 ^^^ BitVec.ofNat 16 (n.testBit 0).toNat := by
        rw [← ofNat_shiftLeft_one, ← BitVec.ofNat_xor, shiftRight_xor_testBit]
      rw [hk, BitVec.shiftLeft_add, ← BitVec.shiftLeft_xor_distrib, ← hn]
    have hk : 16 - (k + 1) = 15 - k := by omega
    rw [ofBits, ih (by omega), shifts_succ, hk, hsplit, shifts_xor, hlast ⟨k, by omega⟩]

/-! ## Bytes -/

/-- A byte in the register is eight more bits of the number. -/
theorem push_ofBits (k n : Nat) (byte : UInt8) :
    push (ofBits k n) byte = ofBits (k + 8) (n * 256 + byte.toNat) := by
  have hbyte : byte.toNat < 256 := byte.toNat_lt
  have hfront : (n * 256 + byte.toNat) >>> 8 = n := by
    rw [Nat.shiftRight_eq_div_pow]
    omega
  have hback : BitVec.ofNat 16 (n * 256 + byte.toNat) <<< 8 = BitVec.ofNat 16 byte.toNat <<< 8 := by
    apply BitVec.eq_of_toNat_eq
    rw [BitVec.toNat_shiftLeft, BitVec.toNat_shiftLeft, BitVec.toNat_ofNat, BitVec.toNat_ofNat,
      Nat.shiftLeft_eq, Nat.shiftLeft_eq]
    omega
  rw [push, shifts_xor, ofBits_add, hfront, ofBits_eq_shifts (k := 8) (by decide), hback]

/-- The checksum of bytes is that of the number that they spell. -/
theorem checksum_eq_ofBits (bytes : List UInt8) :
    checksum bytes = ofBits (8 * bytes.length) (ofBigEndian bytes) := by
  suffices ∀ l : List UInt8,
      checksum l.reverse = ofBits (8 * l.length) (ofBigEndian l.reverse) by
    simpa using this bytes.reverse
  intro l
  induction l with
  | nil => rfl
  | cons byte l ih =>
    have hpush : checksum (l.reverse ++ [byte]) = push (checksum l.reverse) byte := by
      rw [checksum, List.foldl_append]
      rfl
    rw [List.reverse_cons, hpush, ih, push_ofBits, ofBigEndian_concat, List.length_cons]
    rfl

/-! ## Bursts -/

/-- A change of at most sixteen consecutive bits changes the checksum. -/
theorem ofBits_burst_ne_zero {k w s : Nat} (hw : w ≠ 0) (few : w < 65536)
    (fits : w <<< s >>> k = 0) : ofBits k (w <<< s) ≠ 0#16 := by
  intro hzero
  -- With zeros in front, the burst is all that goes through the register before it is shifted.
  have hfront : ofBits (16 + k + s) (w <<< s) = 0#16 := by
    have h := ofBits_of_shiftRight_eq_zero fits (16 + s)
    have hsum : 16 + s + k = 16 + k + s := by omega
    rwa [hsum, hzero] at h
  have hshort : w >>> 16 = 0 := by
    rw [Nat.shiftRight_eq_div_pow]
    omega
  have hregister : ofBits (16 + k) w = shifts 16 (BitVec.ofNat 16 w) := by
    rw [Nat.add_comm, ofBits_of_shiftRight_eq_zero hshort, ofBits_eq_shifts (Nat.le_refl 16),
      Nat.sub_self, BitVec.shiftLeft_zero]
  rw [ofBits_shiftLeft, hregister] at hfront
  have hnat : w % 65536 = 0 := congrArg BitVec.toNat (shifts_eq_zero (shifts_eq_zero hfront))
  omega

/-! ## Stored checksums -/

/-- The register as it is stored, low byte first. -/
def stored (crc : BitVec 16) : BitVec 16 := crc <<< 8 ^^^ crc >>> 8

theorem stored_xor (a b : BitVec 16) : stored (a ^^^ b) = stored a ^^^ stored b := by
  unfold stored
  rw [BitVec.shiftLeft_xor_distrib, BitVec.ushiftRight_xor_distrib, BitVec.xor_assoc,
    BitVec.xor_assoc, ← BitVec.xor_assoc (b <<< 8), BitVec.xor_comm (b <<< 8), BitVec.xor_assoc]

/-- Exclusive or works on the bits above a place and on those below it. -/
theorem xor_split (a b c d : Nat) {k : Nat} (hb : b < Nat.pow 2 k) (hd : d < Nat.pow 2 k) :
    (a * Nat.pow 2 k + b) ^^^ (c * Nat.pow 2 k + d) = (a ^^^ c) * Nat.pow 2 k + (b ^^^ d) := by
  have hpos : 0 < Nat.pow 2 k := Nat.pow_pos (by decide)
  have hdiv : ((a * Nat.pow 2 k + b) ^^^ (c * Nat.pow 2 k + d)) / Nat.pow 2 k = a ^^^ c := by
    refine Nat.xor_div_two_pow.trans ?_
    show (a * Nat.pow 2 k + b) / Nat.pow 2 k ^^^ (c * Nat.pow 2 k + d) / Nat.pow 2 k = _
    rw [Nat.mul_comm a, Nat.mul_comm c, Nat.mul_add_div hpos, Nat.mul_add_div hpos,
      Nat.div_eq_of_lt hb, Nat.div_eq_of_lt hd, Nat.add_zero, Nat.add_zero]
  have hmod : ((a * Nat.pow 2 k + b) ^^^ (c * Nat.pow 2 k + d)) % Nat.pow 2 k = b ^^^ d := by
    refine Nat.xor_mod_two_pow.trans ?_
    show (a * Nat.pow 2 k + b) % Nat.pow 2 k ^^^ (c * Nat.pow 2 k + d) % Nat.pow 2 k = _
    rw [Nat.mul_comm a, Nat.mul_comm c, Nat.mul_add_mod, Nat.mul_add_mod, Nat.mod_eq_of_lt hb,
      Nat.mod_eq_of_lt hd]
  rw [← hdiv, ← hmod, Nat.div_add_mod']

theorem toNat_stored (crc : BitVec 16) :
    (stored crc).toNat = crc.toNat % 256 * 256 + crc.toNat / 256 := by
  have hlt : crc.toNat < 65536 := crc.isLt
  have hlow : crc.toNat <<< 8 % 65536 = crc.toNat % 256 * Nat.pow 2 8 + 0 := by
    rw [Nat.shiftLeft_eq]
    show crc.toNat * 256 % 65536 = crc.toNat % 256 * 256 + 0
    omega
  have hhigh : crc.toNat >>> 8 = 0 * Nat.pow 2 8 + crc.toNat / 256 := by
    rw [Nat.shiftRight_eq_div_pow]
    omega
  have hsmall : crc.toNat / 256 < Nat.pow 2 8 := by
    show _ < 256
    omega
  show crc.toNat <<< 8 % 65536 ^^^ crc.toNat >>> 8 = _
  rw [hlow, hhigh, xor_split _ _ _ _ (by decide) hsmall, Nat.xor_zero, Nat.zero_xor]

theorem ofBigEndian_checksumBytes (bytes : List UInt8) :
    ofBigEndian (checksumBytes bytes) = (stored (checksum bytes)).toNat := by
  have hlt : (checksum bytes).toNat < 65536 := (checksum bytes).isLt
  have hlow : (UInt8.ofNat ((checksum bytes).toNat % 256)).toNat = (checksum bytes).toNat % 256 :=
    UInt8.toNat_ofNat_of_lt' (by show _ < 256; omega)
  have hhigh : (UInt8.ofNat ((checksum bytes).toNat / 256)).toNat = (checksum bytes).toNat / 256 :=
    UInt8.toNat_ofNat_of_lt' (by show _ < 256; omega)
  rw [toNat_stored]
  show (0 * 256 + _) * 256 + _ = _
  rw [hlow, hhigh]
  omega

/-- A message of `k` bits and the checksum stored behind it, as one number. -/
def Intact (k n : Nat) : Prop :=
  n % 65536 = (stored (ofBits k (n >>> 16))).toNat

/-- Two bytes are the checksum of the bytes before them exactly if the number is intact. -/
theorem intact_append_iff {covered sum : List UInt8} (h : sum.length = 2) :
    Intact (8 * covered.length) (ofBigEndian (covered ++ sum)) ↔ sum = checksumBytes covered := by
  have hnumber : ofBigEndian (covered ++ sum) = ofBigEndian covered * 65536 + ofBigEndian sum := by
    rw [ofBigEndian_append, h]
  have hlt : ofBigEndian sum < 65536 := by
    have hpow := ofBigEndian_lt sum
    rw [h] at hpow
    exact hpow
  have hlow : ofBigEndian (covered ++ sum) % 65536 = ofBigEndian sum := by omega
  have hhigh : ofBigEndian (covered ++ sum) >>> 16 = ofBigEndian covered := by
    rw [Nat.shiftRight_eq_div_pow]
    omega
  unfold Intact
  rw [hlow, hhigh, ← checksum_eq_ofBits, ← ofBigEndian_checksumBytes]
  constructor
  · exact ofBigEndian_inj h
  · intro hsum
    rw [hsum]

/-- What turns one intact message into another is intact. -/
theorem Intact.xor {k m n : Nat} (hm : Intact k m) (hn : Intact k n) : Intact k (m ^^^ n) := by
  unfold Intact at hm hn ⊢
  have hmod : (m ^^^ n) % 65536 = m % 65536 ^^^ n % 65536 := Nat.xor_mod_two_pow (n := 16)
  rw [hmod, hm, hn, Nat.shiftRight_xor_distrib, ofBits_xor, stored_xor, BitVec.toNat_xor]

/-- Where a burst of ten bits ends a message and goes on in the checksum, at most nine bits of it
belong to the message.  The stored checksum of such bits has a bit where the burst has ended. -/
theorem stored_straddling : ∀ v : Fin 512, v.val ≠ 0 →
    (stored (ofBits 9 v)).toNat % Nat.pow 2 (v.val.log2 + 7) ≠ 0 := by decide +kernel

/-- A burst of ten bits that goes on in the checksum does not go unnoticed. -/
theorem not_intact_straddling {k w s : Nat} (few : w < 1024) (hs : s < 16)
    (hmessage : w <<< s >>> 16 ≠ 0) (fits : w <<< s >>> 16 >>> k = 0) : ¬ Intact k (w <<< s) := by
  intro h
  unfold Intact at h
  rw [Nat.shiftLeft_eq] at h hmessage fits
  have hdiv : (w * 2 ^ s) >>> 16 = w * 2 ^ s / 65536 := Nat.shiftRight_eq_div_pow (w * 2 ^ s) 16
  -- A burst that starts lower ends before it reaches the message.
  have hlow : 6 ≤ s := by
    apply Nat.le_of_not_lt
    intro hlt
    have hpow : 2 ^ s ≤ 2 ^ 6 := Nat.pow_le_pow_right (by decide) (Nat.le_of_lt hlt)
    have hle := Nat.mul_le_mul_left w hpow
    rw [hdiv] at hmessage
    omega
  obtain ⟨t, rfl⟩ := Nat.exists_eq_add_of_le' hlow
  have hpart : (w * 2 ^ (t + 6)) >>> 16 < 2 ^ t := by
    have hpow : 2 ^ (t + 6) = 64 * 2 ^ t := Nat.pow_add' 2 t 6
    have hle := Nat.mul_lt_mul_of_pos_right few (Nat.two_pow_pos t)
    rw [hdiv, hpow]
    apply Nat.div_lt_of_lt_mul
    rw [Nat.mul_left_comm]
    omega
  generalize (w * 2 ^ (t + 6)) >>> 16 = v at h hmessage fits hpart
  have hnine : v < 512 := by
    have hpow : 2 ^ t ≤ 2 ^ 9 := Nat.pow_le_pow_right (by decide) (by omega)
    omega
  have hbits : ofBits k v = ofBits 9 v := by
    have h9 : v >>> 9 = 0 := by
      rw [Nat.shiftRight_eq_div_pow]
      omega
    rw [← ofBits_of_shiftRight_eq_zero fits 9, Nat.add_comm, ofBits_of_shiftRight_eq_zero h9]
  have hlog : v.log2 + 7 ≤ t + 6 := by
    have := (Nat.log2_lt hmessage).2 hpart
    omega
  apply stored_straddling ⟨v, hnine⟩ hmessage
  show (stored (ofBits 9 v)).toNat % 2 ^ (v.log2 + 7) = 0
  have hsixteen : 2 ^ (v.log2 + 7) ∣ 65536 := Nat.pow_dvd_pow 2 (n := 16) (by omega)
  rw [← hbits, ← h, Nat.mod_mod_of_dvd _ hsixteen]
  exact Nat.mod_eq_zero_of_dvd (Nat.dvd_mul_left_of_dvd (Nat.pow_dvd_pow 2 hlog) w)

/-- A change of at most ten consecutive bits, anywhere in the message, in the checksum or across
both, does not go unnoticed. -/
theorem not_intact_burst {k w s : Nat} (hw : w ≠ 0) (few : w < 1024)
    (fits : w <<< s >>> (k + 16) = 0) : ¬ Intact k (w <<< s) := by
  intro h
  rw [Nat.add_comm k, Nat.shiftRight_add] at fits
  by_cases hs : 16 ≤ s
  · -- The message alone is changed.
    unfold Intact at h
    obtain ⟨t, rfl⟩ := Nat.exists_eq_add_of_le' hs
    have hshift : w <<< (t + 16) = w <<< t * 65536 := by
      rw [Nat.shiftLeft_add, Nat.shiftLeft_eq (w <<< t)]
    have hmessage : w <<< (t + 16) >>> 16 = w <<< t := by
      rw [Nat.shiftLeft_add, Nat.shiftLeft_shiftRight]
    rw [hmessage] at fits h
    rw [hshift, Nat.mul_mod_left, toNat_stored] at h
    apply ofBits_burst_ne_zero hw (by omega) fits
    apply BitVec.eq_of_toNat_eq
    show _ = 0
    omega
  · by_cases hmessage : w <<< s >>> 16 = 0
    · -- The checksum alone is changed.
      unfold Intact at h
      have hzero : (stored 0#16).toNat = 0 := by decide
      rw [hmessage, ofBits_zero, hzero] at h
      rw [Nat.shiftRight_eq_div_pow] at hmessage
      rw [Nat.shiftLeft_eq] at h hmessage
      have hpos : 0 < w * 2 ^ s := Nat.mul_pos (Nat.pos_of_ne_zero hw) (Nat.pow_pos (by decide))
      omega
    · exact not_intact_straddling few (Nat.lt_of_not_le hs) hmessage fits h

end StellarTx.Crc16
