/-
# Base 32 in words

Writing and reading, computed in a register of 32 bits.  Whatever is put in is tested first: the
computation has no result if the register would then hold more than twelve bits.  It always has one,
and that of the buffers (`encodeInWords_eq`, `decodeInWords_eq`), as the register never holds other
bits than those of the buffer.
-/
import StellarTx.Proofs.Text.Base32.Number

namespace StellarTx.Text.Base32

/-- A register. -/
abbrev Word := BitVec 32

namespace Word

/-- Makes room for `k` bits and puts them in; nothing if that are more than twelve bits in all. -/
def push? (word : Word) (k : Nat) (bits : Word) : Option Word :=
  if word.toNat <<< k ||| bits.toNat < 4096 then some (word <<< k ||| bits) else none

/-- The low `k` bits. -/
def keep (word : Word) (k : Nat) : Word :=
  word &&& (1#32 <<< k) - 1#32

/-- Five bits, above the low `k` of them. -/
def group (word : Word) (k : Nat) : Nat :=
  (word >>> k &&& 0x1f#32).toNat

/-- Gives out groups as long as there are five bits: the groups, and how many bits stay behind. -/
def drain (word : Word) : Nat → List Nat × Nat
  | bits + 5 => (word.group bits :: (word.drain bits).1, (word.drain bits).2)
  | bits => ([], bits)

end Word

/-! ## The computations -/

/-- The groups that a register and the bytes behind it make; nothing if a shift loses bits. -/
def groupsInWord? (word : Word) (bits : Nat) : List UInt8 → Option (List Nat)
  | [] =>
    if bits = 0 then some []
    else (word.push? (5 - bits) 0#32).map fun last => [last.group 0]
  | byte :: rest => do
    let pushed ← word.push? 8 (BitVec.ofNat 32 byte.toNat)
    let drained := pushed.drain (bits + 8)
    let later ← groupsInWord? (pushed.keep drained.2) drained.2 rest
    some (drained.1 ++ later)

/-- Bytes as base 32 text, computed in a register. -/
def encodeInWords (bytes : List UInt8) : Option String :=
  (groupsInWord? 0#32 0 bytes).map fun groups => String.ofList (groups.map symbol)

/-- Reads the symbols from `position` on; nothing if a shift loses bits. -/
def decodeInWord? (word : Word) (bits position : Nat) :
    List Char → Option (Except Foreign Decoded)
  | [] => some (.ok ⟨[], bits < 5 && word == 0#32⟩)
  | c :: rest =>
    match value? c with
    | none => some (.error ⟨c, position⟩)
    | some group => do
      let pushed ← word.push? 5 (BitVec.ofNat 32 group)
      if bits + 5 < 8 then decodeInWord? pushed (bits + 5) (position + 1) rest
      else
        let later ← decodeInWord? (pushed.keep (bits - 3)) (bits - 3) (position + 1) rest
        some (later.map (Decoded.prepend [UInt8.ofNat (pushed >>> (bits - 3)).toNat]))

/-- The bytes that base 32 text spells, computed in a register. -/
def decodeInWords (text : String) : Option (Except Foreign Decoded) :=
  decodeInWord? 0#32 0 0 text.toList

/-! ## Registers as numbers -/

namespace Word

theorem toNat_ofNat_of_lt {n : Nat} (h : n < 4096) : (BitVec.ofNat 32 n).toNat = n :=
  BitVec.toNat_ofNat n 32 ▸ Nat.mod_eq_of_lt (Nat.lt_trans h (by decide))

/-- Up to twelve bits are put in without loss. -/
theorem push?_ofNat {n k m : Nat} (hm : m < Nat.pow 2 k) (h : n * Nat.pow 2 k + m < 4096) :
    push? (BitVec.ofNat 32 n) k (BitVec.ofNat 32 m) =
      some (BitVec.ofNat 32 (n * Nat.pow 2 k + m)) := by
  have hn : n ≤ n * Nat.pow 2 k := Nat.le_mul_of_pos_right n (pow_pos k)
  have hshift : n <<< k = n * Nat.pow 2 k := Nat.shiftLeft_eq n k
  have hfits : n <<< k < 2 ^ 32 := by omega
  have hor : n <<< k ||| m = n * Nat.pow 2 k + m := by
    rw [← Nat.shiftLeft_add_eq_or_of_lt hm, hshift]
  have hword : BitVec.ofNat 32 n <<< k ||| BitVec.ofNat 32 m =
      BitVec.ofNat 32 (n * Nat.pow 2 k + m) := by
    apply BitVec.eq_of_toNat_eq
    rw [BitVec.toNat_or, BitVec.toNat_shiftLeft, toNat_ofNat_of_lt (by omega),
      toNat_ofNat_of_lt (by omega), toNat_ofNat_of_lt h, Nat.mod_eq_of_lt hfits, hor]
  rw [push?, toNat_ofNat_of_lt (by omega), toNat_ofNat_of_lt (by omega), hor, if_pos h, hword]

theorem keep_ofNat {n k : Nat} (hn : n < 4096) (hk : k < 8) :
    keep (BitVec.ofNat 32 n) k = BitVec.ofNat 32 (n % 1 <<< k) := by
  have hmask : ∀ k : Fin 8, ((1#32 <<< k.val) - 1#32).toNat = 2 ^ k.val - 1 := by decide
  have hle : n % Nat.pow 2 k ≤ n := Nat.mod_le n _
  apply BitVec.eq_of_toNat_eq
  rw [one_shiftLeft, keep, BitVec.toNat_and, hmask ⟨k, hk⟩, toNat_ofNat_of_lt hn,
    toNat_ofNat_of_lt (by omega)]
  exact Nat.and_two_pow_sub_one_eq_mod n k

theorem toNat_shiftRight_ofNat {n : Nat} (h : n < 4096) (k : Nat) :
    (BitVec.ofNat 32 n >>> k).toNat = n >>> k := by
  rw [BitVec.toNat_ushiftRight, toNat_ofNat_of_lt h]

theorem group_ofNat {n : Nat} (h : n < 4096) (k : Nat) :
    group (BitVec.ofNat 32 n) k = n >>> k % 32 := by
  rw [group, BitVec.toNat_and, toNat_shiftRight_ofNat h]
  exact Nat.and_two_pow_sub_one_eq_mod (n >>> k) 5

theorem beq_zero_ofNat {n : Nat} (h : n < 4096) : (BitVec.ofNat 32 n == 0#32) = (n == 0) := by
  rw [Bool.eq_iff_iff, beq_iff_eq, beq_iff_eq, ← BitVec.toNat_inj, toNat_ofNat_of_lt h]
  rfl

theorem drain_ofNat {n left : Nat} (h : n < 4096) (hleft : left < 5) (k : Nat) :
    drain (BitVec.ofNat 32 n) (left + 5 * k) =
      ((List.range k).reverse.map fun i => n >>> (left + 5 * i) % 32, left) := by
  induction k with
  | zero =>
    rw [drain]
    · rfl
    · omega
  | succ k ih =>
    have hsucc : left + 5 * (k + 1) = left + 5 * k + 5 := rfl
    rw [hsucc, drain, ih, group_ofNat h, List.range_succ, List.reverse_append,
      List.reverse_singleton, List.singleton_append, List.map_cons]

end Word

/-! ## No bit is lost -/

namespace Buffer

variable {buffer : Buffer} {group : Nat}

theorem value_lt {k : Nat} (few : buffer.bits ≤ k) (fits : buffer.value < Nat.pow 2 buffer.bits) :
    buffer.value < Nat.pow 2 k :=
  Nat.lt_of_lt_of_le fits (Nat.pow_le_pow_right (by decide) few)

/-- What a writer keeps fits into the bits that it keeps. -/
theorem value_pushByte_lt (buffer : Buffer) (byte : UInt8) :
    (buffer.pushByte byte).2.value < Nat.pow 2 (buffer.pushByte byte).2.bits := by
  show _ % 1 <<< _ < _
  rw [one_shiftLeft]
  exact Nat.mod_lt _ (pow_pos _)

/-- Fewer than eight bits wait. -/
theorem pushGroup_of_lt (h : buffer.bits + 5 < 8) :
    buffer.pushGroup group = (none, ⟨buffer.value * 32 + group, buffer.bits + 5⟩) :=
  if_pos h

/-- Eight bits are a byte, and the others stay behind. -/
theorem pushGroup_of_not_lt (h : ¬ buffer.bits + 5 < 8) :
    buffer.pushGroup group =
      (some (UInt8.ofNat ((buffer.value * 32 + group) >>> (buffer.bits - 3))),
        ⟨(buffer.value * 32 + group) % 1 <<< (buffer.bits - 3), buffer.bits - 3⟩) := by
  have hsub : buffer.bits - 3 = buffer.bits + 5 - 8 := by omega
  rw [hsub]
  exact if_neg h

end Buffer

/-- The last group, out of a register. -/
theorem lastGroup_eq {buffer : Buffer} (short : buffer.bits < 5)
    (fits : buffer.value < Nat.pow 2 buffer.bits) :
    groupsInWord? (BitVec.ofNat 32 buffer.value) buffer.bits [] = some buffer.lastGroup := by
  rw [groupsInWord?, Buffer.lastGroup]
  by_cases hnone : buffer.bits = 0
  · rw [if_pos hnone, if_pos hnone]
  · have hpow : Nat.pow 2 buffer.bits * Nat.pow 2 (5 - buffer.bits) = 32 := by
      rw [← pow_add, Nat.add_sub_cancel' (Nat.le_of_lt short)]
    have hlt := Nat.mul_lt_mul_of_pos_right fits (pow_pos (5 - buffer.bits))
    have hpush := Word.push?_ofNat (n := buffer.value) (m := 0) (pow_pos (5 - buffer.bits))
      (by omega)
    have hshift : buffer.value <<< (5 - buffer.bits) = buffer.value * Nat.pow 2 (5 - buffer.bits) :=
      Nat.shiftLeft_eq _ _
    rw [if_neg hnone, if_neg hnone, hpush, Option.map_some, Word.group_ofNat (by omega), hshift]
    rfl

/-- A writer keeps four bits at most, and twelve with the next byte. -/
theorem groupsInWord?_eq (buffer : Buffer) (short : buffer.bits < 5)
    (fits : buffer.value < Nat.pow 2 buffer.bits) (bytes : List UInt8) :
    groupsInWord? (BitVec.ofNat 32 buffer.value) buffer.bits bytes =
      some (groups buffer bytes) := by
  induction bytes generalizing buffer with
  | nil => exact lastGroup_eq short fits
  | cons byte bytes ih =>
    have hbyte : byte.toNat < 256 := byte.toNat_lt
    -- The bits that are left over from before are four at most, and the byte makes them twelve.
    have hfour : buffer.value < 16 := Buffer.value_lt (Nat.le_of_lt_succ short) fits
    have htwelve : buffer.value * 256 + byte.toNat < 4096 := by omega
    have hleft : (buffer.bits + 8) % 5 < 5 := Nat.mod_lt _ (by decide)
    have hpush : Word.push? (BitVec.ofNat 32 buffer.value) 8 (BitVec.ofNat 32 byte.toNat) =
        some (BitVec.ofNat 32 (buffer.value * 256 + byte.toNat)) := Word.push?_ofNat hbyte htwelve
    have hdrain : Word.drain (BitVec.ofNat 32 (buffer.value * 256 + byte.toNat)) (buffer.bits + 8) =
        ((buffer.pushByte byte).1, (buffer.pushByte byte).2.bits) := by
      rw [← Nat.mod_add_div (buffer.bits + 8) 5]
      exact Word.drain_ofNat htwelve hleft _
    have hkeep : Word.keep (BitVec.ofNat 32 (buffer.value * 256 + byte.toNat))
        (buffer.pushByte byte).2.bits = BitVec.ofNat 32 (buffer.pushByte byte).2.value :=
      Word.keep_ofNat htwelve (Nat.lt_trans hleft (by decide))
    have hrest := ih (buffer.pushByte byte).2 hleft (buffer.value_pushByte_lt byte)
    simp only [groupsInWord?, hpush, hdrain, hkeep, hrest, Option.bind_eq_bind, Option.bind_some]
    rfl

theorem encodeInWords_eq (bytes : List UInt8) : encodeInWords bytes = some (encode bytes) := by
  have hgroups := groupsInWord?_eq .empty (by decide) (by decide) bytes
  exact congrArg (Option.map fun groups : List Nat => String.ofList (groups.map symbol)) hgroups

theorem map_prepend_nil (result : Except Foreign Decoded) :
    result.map (Decoded.prepend []) = result := by
  cases result <;> rfl

/-- A reader keeps seven bits at most, and twelve with the next symbol. -/
theorem decodeInWord?_eq (buffer : Buffer) (short : buffer.bits < 8)
    (fits : buffer.value < Nat.pow 2 buffer.bits) (position : Nat) (text : List Char) :
    decodeInWord? (BitVec.ofNat 32 buffer.value) buffer.bits position text =
      some (decodeFrom buffer position text) := by
  induction text generalizing buffer position with
  | nil =>
    have hseven : buffer.value < 128 := Buffer.value_lt (Nat.le_of_lt_succ short) fits
    rw [decodeInWord?, Word.beq_zero_ofNat (by omega)]
    rfl
  | cons c rest ih =>
    cases hc : value? c with
    | none => rw [decodeInWord?, decodeFrom, hc]
    | some group =>
      obtain ⟨hgroup, rfl⟩ := symbol_of_value? hc
      have hseven : buffer.value < 128 := Buffer.value_lt (Nat.le_of_lt_succ short) fits
      have htwelve : buffer.value * 32 + group < 4096 := by omega
      have hpush : Word.push? (BitVec.ofNat 32 buffer.value) 5 (BitVec.ofNat 32 group) =
          some (BitVec.ofNat 32 (buffer.value * 32 + group)) := Word.push?_ofNat hgroup htwelve
      simp only [decodeInWord?, decodeFrom_symbol hgroup, hc, hpush, Option.bind_eq_bind,
        Option.bind_some]
      by_cases hwait : buffer.bits + 5 < 8
      · -- The bits only wait.
        have hfits : buffer.value * 32 + group < Nat.pow 2 (buffer.bits + 5) := by
          have hpow : Nat.pow 2 (buffer.bits + 5) = Nat.pow 2 buffer.bits * 32 := pow_add _ 5
          omega
        rw [if_pos hwait, Buffer.pushGroup_of_lt hwait, Option.toList_none, map_prepend_nil]
        exact ih ⟨_, _⟩ hwait hfits (position + 1)
      · -- Eight bits leave the register as a byte, and the mask keeps those that stay behind.
        have hleft : buffer.bits - 3 < 8 := by omega
        have hfits : (buffer.value * 32 + group) % 1 <<< (buffer.bits - 3) <
            Nat.pow 2 (buffer.bits - 3) := by
          rw [one_shiftLeft]
          exact Nat.mod_lt _ (pow_pos _)
        have hrest := ih ⟨_, _⟩ hleft hfits (position + 1)
        rw [if_neg hwait, Buffer.pushGroup_of_not_lt hwait, Word.keep_ofNat htwelve hleft, hrest,
          Word.toNat_shiftRight_ofNat htwelve, Option.bind_some]
        rfl

theorem decodeInWords_eq (text : String) : decodeInWords text = some (decode text) :=
  decodeInWord?_eq .empty (by decide) (by decide) 0 text.toList

end StellarTx.Text.Base32
