/-
# Base 32 reads back

While bytes go through both buffers, the one of the writer and the one of the reader, some are under
way: their last bits are still with the writer, their first bits already with the reader.  This is
what every group of five bits keeps (`Between.takeGroup`), and so every byte (`Between.step`), and
the round trip follows: `decode_encode`.
-/
import StellarTx.Octets
import StellarTx.Text.Base32

namespace StellarTx.Text.Base32

/-! ## Symbols -/

theorem value?_symbol_of_lt {n : Nat} (h : n < 32) : value? (symbol n) = some n :=
  value?_symbol ⟨n, h⟩

/-- What symbols add to the bytes that come after them. -/
def Decoded.prepend (bytes : List UInt8) (decoded : Decoded) : Decoded :=
  { decoded with bytes := bytes ++ decoded.bytes }

/-- A symbol hands its five bits to the buffer. -/
theorem decodeFrom_symbol {group : Nat} (h : group < 32) (buffer : Buffer) (position : Nat)
    (rest : List Char) :
    decodeFrom buffer position (symbol group :: rest) =
      (decodeFrom (buffer.pushGroup group).2 (position + 1) rest).map
        (Decoded.prepend (buffer.pushGroup group).1.toList) := by
  rw [decodeFrom, value?_symbol_of_lt h]
  rfl

theorem map_prepend_prepend (result : Except Foreign Decoded) (first second : List UInt8) :
    (result.map (Decoded.prepend second)).map (Decoded.prepend first) =
      result.map (Decoded.prepend (first ++ second)) := by
  cases result with
  | error e => rfl
  | ok decoded => simp only [Except.map, Decoded.prepend, List.append_assoc]

/-! ## Powers of two -/

theorem shiftRight_eq_div (n k : Nat) : n >>> k = n / Nat.pow 2 k :=
  Nat.shiftRight_eq_div_pow n k

theorem one_shiftLeft (k : Nat) : 1 <<< k = Nat.pow 2 k :=
  Nat.one_shiftLeft k

theorem pow_add (j k : Nat) : Nat.pow 2 (j + k) = Nat.pow 2 j * Nat.pow 2 k :=
  Nat.pow_add 2 j k

theorem pow_pos (k : Nat) : 0 < Nat.pow 2 k :=
  Nat.pow_pos (by decide)

theorem pow_bytes (k : Nat) : Nat.pow 256 k = Nat.pow 2 (8 * k) :=
  (Nat.pow_mul 2 8 k).symm

/-- The five bits above the last `k` of a number do not change if bits from `j` on are cut off. -/
theorem mod_shiftRight_mod (n : Nat) {j k : Nat} (h : k + 5 ≤ j) :
    (n % Nat.pow 2 j) >>> k % 32 = n >>> k % 32 := by
  obtain ⟨i, rfl⟩ := Nat.exists_eq_add_of_le h
  have hpow : Nat.pow 2 (k + 5 + i) = Nat.pow 2 k * (32 * Nat.pow 2 i) := by
    rw [pow_add, pow_add, Nat.mul_assoc]
  rw [shiftRight_eq_div, shiftRight_eq_div, hpow, Nat.mod_mul_right_div_self, Nat.mod_mul_right_mod]

/-- The first of several bytes stands above the bits of the others. -/
theorem ofBigEndian_cons_split (first : UInt8) {rest : List UInt8} {bits left : Nat}
    (h : 8 * rest.length = bits + left) :
    ofBigEndian (first :: rest) / Nat.pow 2 bits / Nat.pow 2 left = first.toNat ∧
      ofBigEndian (first :: rest) % (Nat.pow 2 bits * Nat.pow 2 left) = ofBigEndian rest := by
  have hlow : ofBigEndian rest < Nat.pow 2 bits * Nat.pow 2 left := by
    rw [← pow_add, ← h, ← pow_bytes]
    exact ofBigEndian_lt rest
  have hnumber : ofBigEndian (first :: rest) =
      Nat.pow 2 bits * Nat.pow 2 left * first.toNat + ofBigEndian rest := by
    rw [ofBigEndian_cons, pow_bytes, h, pow_add]
  rw [hnumber]
  constructor
  · rw [Nat.div_div_eq_div_mul, Nat.mul_add_div (Nat.mul_pos (pow_pos _) (pow_pos _)),
      Nat.div_eq_of_lt hlow, Nat.add_zero]
  · rw [Nat.mul_add_mod, Nat.mod_eq_of_lt hlow]

/-! ## Bits under way -/

/-- The buffers of the writer and of the reader, and the bytes whose bits are divided between them:
the reader holds the first bits of the bytes that it has not completed yet, the writer the
others. -/
structure Between (e d : Buffer) (pending : List UInt8) : Prop where
  bits : d.bits + e.bits = 8 * pending.length
  lt : d.bits < 8
  reader : d.value = ofBigEndian pending / Nat.pow 2 e.bits
  writer : e.value = ofBigEndian pending % Nat.pow 2 e.bits

namespace Between

variable {d : Buffer} {pending : List UInt8}

theorem empty : Between .empty .empty [] :=
  ⟨rfl, by decide, rfl, rfl⟩

/-- The writer takes a byte. -/
theorem takeByte {value bits : Nat} (h : Between ⟨value, bits⟩ d pending) (byte : UInt8) :
    Between ⟨value * 256 + byte.toNat, bits + 8⟩ d (pending ++ [byte]) := by
  have hpow : Nat.pow 2 (bits + 8) = 256 * Nat.pow 2 bits := by
    rw [Nat.add_comm, pow_add]
  have hbyte : byte.toNat < 256 := byte.toNat_lt
  have hdiv : (ofBigEndian pending * 256 + byte.toNat) / 256 = ofBigEndian pending := by omega
  refine ⟨?_, h.lt, ?_, ?_⟩
  · have hbits : d.bits + bits = 8 * pending.length := h.bits
    show d.bits + (bits + 8) = _
    rw [List.length_append, List.length_singleton]
    omega
  · show d.value = _ / Nat.pow 2 (bits + 8)
    rw [ofBigEndian_concat, hpow, ← Nat.div_div_eq_div_mul, hdiv]
    exact h.reader
  · have hwriter : value = ofBigEndian pending % Nat.pow 2 bits := h.writer
    show value * 256 + byte.toNat = _ % Nat.pow 2 (bits + 8)
    rw [ofBigEndian_concat, hpow, Nat.mod_mul, hdiv, ← hwriter]
    omega

/-- The reader takes five bits, and completes a byte if it then has eight. -/
theorem takeGroup {value bits : Nat} (h : Between ⟨value, bits + 5⟩ d pending) :
    ∃ complete pending', complete ++ pending' = pending ∧
      (d.pushGroup (value >>> bits % 32)).1.toList = complete ∧
      Between ⟨value % 1 <<< bits, bits⟩ (d.pushGroup (value >>> bits % 32)).2 pending' := by
  obtain ⟨hbits, hlt, hreader, hwriter⟩ := h
  have hbits : d.bits + (bits + 5) = 8 * pending.length := hbits
  have hpow : Nat.pow 2 (bits + 5) = Nat.pow 2 bits * 32 := pow_add bits 5
  have hreader : d.value = ofBigEndian pending / Nat.pow 2 bits / 32 := by
    rw [Nat.div_div_eq_div_mul, ← hpow]
    exact hreader
  have hwriter : value = ofBigEndian pending % (Nat.pow 2 bits * 32) := by
    rw [← hpow]
    exact hwriter
  have hrest : value % 1 <<< bits = ofBigEndian pending % Nat.pow 2 bits := by
    rw [one_shiftLeft, hwriter, Nat.mod_mul_right_mod]
  have hsum : d.value * 32 + value >>> bits % 32 = ofBigEndian pending / Nat.pow 2 bits := by
    rw [shiftRight_eq_div, hreader, hwriter, Nat.mod_mul_right_div_self]
    omega
  unfold Buffer.pushGroup
  simp only [hsum, hrest]
  by_cases hshort : d.bits + 5 < 8
  · -- The bits only wait, and no byte changes hands.
    rw [if_pos hshort]
    exact ⟨[], pending, rfl, rfl, by show d.bits + 5 + bits = _; omega, hshort, rfl, rfl⟩
  · rw [if_neg hshort]
    cases pending with
    | nil => simp only [List.length_nil] at hbits; omega
    | cons first pending' =>
      -- The first byte is complete: all bits above those of the others are with the reader.
      obtain ⟨left, hleft⟩ := Nat.exists_eq_add_of_le (Nat.le_of_not_lt hshort)
      have hlength : 8 * pending'.length = bits + left := by
        rw [List.length_cons] at hbits
        omega
      obtain ⟨hcomplete, hmod⟩ := ofBigEndian_cons_split first hlength
      have hsub : d.bits + 5 - 8 = left := by omega
      rw [hsub, shiftRight_eq_div, one_shiftLeft, hcomplete, UInt8.ofNat_toNat]
      refine ⟨[first], pending', rfl, rfl, ?_, ?_, ?_, ?_⟩
      · show left + bits = _
        omega
      · show left < 8
        omega
      · show _ = ofBigEndian pending' / Nat.pow 2 bits
        rw [← hmod, Nat.mod_mul_right_div_self]
      · show _ = ofBigEndian pending' % Nat.pow 2 bits
        rw [← hmod, Nat.mod_mul_right_mod]

/-- The reader takes what the writer gives out at once. -/
theorem takeGroups {left : Nat} (k : Nat) {value : Nat}
    (h : Between ⟨value, left + 5 * k⟩ d pending) :
    ∃ d' complete pending', complete ++ pending' = pending ∧
      Between ⟨value % 1 <<< left, left⟩ d' pending' ∧
      ∀ position rest, decodeFrom d position
          (((List.range k).reverse.map fun i => value >>> (left + 5 * i) % 32).map symbol ++ rest) =
        (decodeFrom d' (position + k) rest).map (Decoded.prepend complete) := by
  induction k generalizing d pending value with
  | zero =>
    have hvalue : value % 1 <<< left = value := by
      have hwriter : value = ofBigEndian pending % Nat.pow 2 left := h.writer
      rw [one_shiftLeft, hwriter, Nat.mod_mod]
    rw [hvalue]
    refine ⟨d, [], pending, rfl, h, fun position rest => ?_⟩
    show decodeFrom d position rest = (decodeFrom d position rest).map (Decoded.prepend [])
    cases decodeFrom d position rest <;> rfl
  | succ k ih =>
    have h : Between ⟨value, left + 5 * k + 5⟩ d pending := h
    obtain ⟨first, pending', hfirst, htaken, h'⟩ := h.takeGroup
    obtain ⟨d', complete, pending'', hcomplete, hd', hread⟩ := ih h'
    have hlow : value % 1 <<< (left + 5 * k) % 1 <<< left = value % 1 <<< left := by
      rw [one_shiftLeft, one_shiftLeft, pow_add, Nat.mod_mul_right_mod]
    have hgroups : ((List.range k).reverse.map fun i =>
        (value % 1 <<< (left + 5 * k)) >>> (left + 5 * i) % 32) =
        (List.range k).reverse.map fun i => value >>> (left + 5 * i) % 32 := by
      apply List.map_congr_left
      intro i hi
      have hi : i < k := by simpa using hi
      rw [one_shiftLeft]
      exact mod_shiftRight_mod value (by omega)
    rw [hgroups] at hread
    rw [hlow] at hd'
    refine ⟨d', first ++ complete, pending'', ?_, hd', fun position rest => ?_⟩
    · rw [List.append_assoc, hcomplete, hfirst]
    · have hlt : value >>> (left + 5 * k) % 32 < 32 := Nat.mod_lt _ (by decide)
      rw [List.range_succ, List.reverse_append, List.reverse_singleton, List.singleton_append,
        List.map_cons, List.map_cons, List.cons_append, decodeFrom_symbol hlt, hread, htaken,
        map_prepend_prepend, Nat.add_right_comm]
      rfl

/-- The groups of one more byte. -/
theorem step {e : Buffer} (h : Between e d pending) (byte : UInt8) :
    ∃ d' complete pending', complete ++ pending' = pending ++ [byte] ∧
      Between (e.pushByte byte).2 d' pending' ∧
      ∀ position rest, decodeFrom d position ((e.pushByte byte).1.map symbol ++ rest) =
        (decodeFrom d' (position + (e.bits + 8) / 5) rest).map (Decoded.prepend complete) := by
  have hbits : e.bits + 8 = (e.bits + 8) % 5 + 5 * ((e.bits + 8) / 5) :=
    (Nat.mod_add_div _ 5).symm
  -- With the byte, the writer holds a number of groups and fewer than five bits besides.
  have hb := h.takeByte byte
  rw [hbits] at hb
  exact hb.takeGroups

/-- The last group completes the byte that is under way and leaves only zero bits. -/
theorem finish {e : Buffer} (h : Between e d pending) (short : e.bits < 5) (position : Nat) :
    decodeFrom d position (e.lastGroup.map symbol) = .ok ⟨pending, true⟩ := by
  obtain ⟨hbits, hlt, hreader, hwriter⟩ := h
  unfold Buffer.lastGroup
  by_cases hnone : e.bits = 0
  · obtain rfl : pending = [] := List.length_eq_zero_iff.1 (by omega)
    have hd : d = ⟨0, 0⟩ := by
      have hvalue : d.value = 0 := by rw [hreader, hnone]; rfl
      have hzero : d.bits = 0 := by
        rw [List.length_nil] at hbits
        omega
      cases d
      cases hvalue
      cases hzero
      rfl
    rw [if_pos hnone, hd]
    rfl
  · -- Fewer than thirteen bits are under way, so that they are those of one byte.
    obtain ⟨last, rfl⟩ : ∃ last, pending = [last] := List.length_eq_one_iff.1 (by omega)
    have hlast : ofBigEndian [last] = last.toNat := by simp [ofBigEndian]
    have hbits : d.bits + e.bits = 8 := hbits
    rw [hlast] at hreader hwriter
    obtain ⟨left, hleft⟩ := Nat.exists_eq_add_of_le (Nat.le_of_lt short)
    have hpow : Nat.pow 2 e.bits * Nat.pow 2 left = 32 := by
      rw [← pow_add, ← hleft]
    have hgroup : e.value <<< (5 - e.bits) % 32 =
        last.toNat % Nat.pow 2 e.bits * Nat.pow 2 left := by
      have hsub : 5 - e.bits = left := by omega
      rw [hsub, Nat.shiftLeft_eq, hwriter, ← hpow]
      exact Nat.mod_eq_of_lt (Nat.mul_lt_mul_of_pos_right (Nat.mod_lt _ (pow_pos _)) (pow_pos _))
    have hlt : e.value <<< (5 - e.bits) % 32 < 32 := Nat.mod_lt _ (by decide)
    have hsum : d.value * 32 + e.value <<< (5 - e.bits) % 32 = last.toNat * Nat.pow 2 left := by
      rw [hgroup, hreader, ← hpow, ← Nat.mul_assoc, ← Nat.add_mul, Nat.div_add_mod']
    have hpush : d.pushGroup (e.value <<< (5 - e.bits) % 32) = (some last, ⟨0, left⟩) := by
      have hlong : ¬ d.bits + 5 < 8 := by omega
      have hsub : d.bits + 5 - 8 = left := by omega
      unfold Buffer.pushGroup
      simp only [if_neg hlong, hsub, hsum]
      rw [shiftRight_eq_div, one_shiftLeft, Nat.mul_div_cancel _ (pow_pos _), Nat.mul_mod_left,
        UInt8.ofNat_toNat]
    have hend : decide (left < 5) = true := decide_eq_true (by omega)
    rw [if_neg hnone, List.map_cons, List.map_nil, decodeFrom_symbol hlt, hpush]
    simp only [decodeFrom, Buffer.isCanonicalEnd, hend]
    rfl

/-- The writer keeps fewer than five bits. -/
theorem bits_pushByte_lt (buffer : Buffer) (byte : UInt8) : (buffer.pushByte byte).2.bits < 5 :=
  Nat.mod_lt _ (by decide)

/-- Bytes that go through both buffers come out behind those that were under way. -/
theorem run {e : Buffer} (h : Between e d pending) (short : e.bits < 5) (bytes : List UInt8)
    (position : Nat) :
    decodeFrom d position ((groups e bytes).map symbol) = .ok ⟨pending ++ bytes, true⟩ := by
  induction bytes generalizing e d pending position with
  | nil =>
    rw [List.append_nil]
    exact h.finish short position
  | cons byte bytes ih =>
    obtain ⟨d', complete, pending', hsum, h', hread⟩ := h.step byte
    have hgroups : (groups e (byte :: bytes)).map symbol =
        (e.pushByte byte).1.map symbol ++ (groups (e.pushByte byte).2 bytes).map symbol :=
      List.map_append
    rw [hgroups, hread, ih h' (bits_pushByte_lt e byte)]
    simp only [Except.map, Decoded.prepend, ← List.append_assoc, hsum]
    simp only [List.append_assoc, List.singleton_append]

end Between

/-! ## The round trip -/

/-- Written bytes read back, and their text is canonical. -/
theorem decode_encode (bytes : List UInt8) : decode (encode bytes) = .ok ⟨bytes, true⟩ := by
  rw [decode, encode, String.toList_ofList]
  exact Between.empty.run (by decide) bytes 0

/-! ## The alphabet of written text -/

theorem group_lt {buffer : Buffer} {byte : UInt8} {group : Nat}
    (h : group ∈ (buffer.pushByte byte).1) : group < 32 := by
  obtain ⟨i, _, rfl⟩ := List.mem_map.1 h
  exact Nat.mod_lt _ (by decide)

/-- Every group fits into a symbol. -/
theorem groups_lt {buffer : Buffer} {bytes : List UInt8} {group : Nat}
    (h : group ∈ groups buffer bytes) : group < 32 := by
  induction bytes generalizing buffer with
  | nil =>
    rw [groups, Buffer.lastGroup] at h
    split at h
    · cases h
    · rw [List.mem_singleton] at h
      rw [h]
      exact Nat.mod_lt _ (by decide)
  | cons byte bytes ih =>
    rcases List.mem_append.1 h with h | h
    · exact group_lt h
    · exact ih h

/-- Written text consists of symbols. -/
theorem exists_of_mem_encode {bytes : List UInt8} {c : Char} (h : c ∈ (encode bytes).toList) :
    ∃ n : Fin 32, c = symbol n := by
  rw [encode, String.toList_ofList, encodeChars] at h
  obtain ⟨group, hg, rfl⟩ := List.mem_map.1 h
  exact ⟨⟨group, groups_lt hg⟩, rfl⟩

end StellarTx.Text.Base32
