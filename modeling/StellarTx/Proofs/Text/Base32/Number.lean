/-
# Base 32 text as a number

Symbols are the digits of a number to the base 32, and reading cuts the bits of that number into
bytes from the left: `decode_groups` says which bytes come out and when the text is canonical.  As
the number determines its digits, canonical text is the text of its bytes: `encode_of_decode`.
-/
import StellarTx.Proofs.Result
import StellarTx.Proofs.Text.Base32

namespace StellarTx.Text.Base32

/-! ## The alphabet -/

/-- A character with a value is the symbol for it. -/
theorem symbol_of_value? {c : Char} {n : Nat} (h : value? c = some n) : n < 32 ∧ symbol n = c := by
  unfold value? at h
  by_cases hletter : 'A' ≤ c ∧ c ≤ 'Z'
  · rw [if_pos hletter] at h
    cases h
    have hlo : 65 ≤ c.toNat := hletter.1
    have hhi : c.toNat ≤ 90 := hletter.2
    refine ⟨by omega, ?_⟩
    rw [symbol, if_pos (by omega), Nat.sub_add_cancel hlo, Char.ofNat_toNat]
  · rw [if_neg hletter] at h
    by_cases hdigit : '2' ≤ c ∧ c ≤ '7'
    · rw [if_pos hdigit] at h
      cases h
      have hlo : 50 ≤ c.toNat := hdigit.1
      have hhi : c.toNat ≤ 55 := hdigit.2
      refine ⟨by omega, ?_⟩
      rw [symbol, if_neg (by omega), Nat.sub_add_cancel (by omega), Char.ofNat_toNat]
    · rw [if_neg hdigit] at h
      cases h

/-- Text over the alphabet is the text of some groups. -/
theorem exists_groups {text : List Char} (h : ∀ c ∈ text, (value? c).isSome) :
    ∃ groups : List Nat, (∀ group ∈ groups, group < 32) ∧ text = groups.map symbol := by
  induction text with
  | nil => exact ⟨[], by simp, rfl⟩
  | cons c rest ih =>
    obtain ⟨n, hn⟩ := Option.isSome_iff_exists.1 (h c List.mem_cons_self)
    obtain ⟨groups, hlt, rfl⟩ := ih fun c' hc' => h c' (List.mem_cons_of_mem c hc')
    obtain ⟨hn32, rfl⟩ := symbol_of_value? hn
    refine ⟨n :: groups, ?_, rfl⟩
    intro group hg
    rcases List.mem_cons.1 hg with rfl | hg
    · exact hn32
    · exact hlt group hg

/-- The first foreign character is the one that is blamed. -/
theorem decodeFrom_foreign {before : List Char} (h : ∀ c ∈ before, (value? c).isSome) {c : Char}
    (hc : value? c = none) (buffer : Buffer) (position : Nat) (after : List Char) :
    decodeFrom buffer position (before ++ c :: after) = .error ⟨c, position + before.length⟩ := by
  induction before generalizing buffer position with
  | nil =>
    rw [List.nil_append, decodeFrom, hc]
    rfl
  | cons b before ih =>
    obtain ⟨n, hn⟩ := Option.isSome_iff_exists.1 (h b List.mem_cons_self)
    have hrest := ih fun b' hb' => h b' (List.mem_cons_of_mem b hb')
    rw [List.cons_append, decodeFrom, hn]
    simp only [hrest, Except.map, List.length_cons, Nat.add_assoc, Nat.add_comm 1]

/-- What can be read is over the alphabet. -/
theorem isSome_value?_of_decodeFrom {text : List Char} {buffer : Buffer} {position : Nat}
    {decoded : Decoded} (h : decodeFrom buffer position text = .ok decoded) :
    ∀ c ∈ text, (value? c).isSome := by
  induction text generalizing buffer position decoded with
  | nil => simp
  | cons c rest ih =>
    rw [decodeFrom] at h
    cases hc : value? c with
    | none =>
      rw [hc] at h
      cases h
    | some n =>
      rw [hc] at h
      obtain ⟨decoded', hrest, _⟩ := Except.map_eq_ok_iff.1 h
      intro c' hc'
      rcases List.mem_cons.1 hc' with rfl | hc'
      · rw [hc]; rfl
      · exact ih hrest c' hc'

/-! ## Groups as digits -/

/-- The number whose digits to the base 32 are some groups, first digit first. -/
def ofGroups (groups : List Nat) : Nat :=
  groups.foldl (fun n group => n * 32 + group) 0

theorem ofGroups_concat (groups : List Nat) (group : Nat) :
    ofGroups (groups ++ [group]) = ofGroups groups * 32 + group := by
  simp [ofGroups, List.foldl_append]

theorem pow_groups (k : Nat) : Nat.pow 32 k = Nat.pow 2 (5 * k) :=
  (Nat.pow_mul 2 5 k).symm

/-- The groups in front count once for every number that the ones behind can spell. -/
theorem ofGroups_append (first second : List Nat) :
    ofGroups (first ++ second) =
      ofGroups first * Nat.pow 32 second.length + ofGroups second := by
  suffices ∀ l : List Nat, ofGroups (first ++ l.reverse) =
      ofGroups first * Nat.pow 32 l.length + ofGroups l.reverse by
    simpa using this second.reverse
  intro l
  induction l with
  | nil => simp [ofGroups]
  | cons group l ih =>
    have hpow : Nat.pow 32 (l.length + 1) = Nat.pow 32 l.length * 32 := rfl
    rw [List.reverse_cons, ← List.append_assoc, ofGroups_concat, ofGroups_concat, ih,
      List.length_cons, hpow, ← Nat.mul_assoc]
    omega

theorem ofGroups_cons (group : Nat) (groups : List Nat) :
    ofGroups (group :: groups) = group * Nat.pow 32 groups.length + ofGroups groups := by
  have h := ofGroups_append [group] groups
  simpa [ofGroups] using h

theorem ofGroups_lt {groups : List Nat} (h : ∀ group ∈ groups, group < 32) :
    ofGroups groups < Nat.pow 32 groups.length := by
  induction groups with
  | nil => decide
  | cons group groups ih =>
    have hgroup : group + 1 ≤ 32 := h group List.mem_cons_self
    have hrest := ih fun g hg => h g (List.mem_cons_of_mem group hg)
    have hpow : Nat.pow 32 (groups.length + 1) = 32 * Nat.pow 32 groups.length := Nat.mul_comm _ _
    have hle := Nat.mul_le_mul_right (Nat.pow 32 groups.length) hgroup
    rw [ofGroups_cons, List.length_cons, hpow]
    rw [Nat.add_mul, Nat.one_mul] at hle
    omega

/-- A group is five bits. -/
theorem ofGroups_lt_two_pow {groups : List Nat} (h : ∀ group ∈ groups, group < 32) :
    ofGroups groups < Nat.pow 2 (5 * groups.length) := by
  rw [← pow_groups]
  exact ofGroups_lt h

/-- Two numbers with the same digits above and below a power are the same. -/
theorem mul_add_inj {a b c d m : Nat} (hb : b < m) (hd : d < m) :
    a * m + b = c * m + d ↔ a = c ∧ b = d := by
  have hpos : 0 < m := Nat.lt_of_le_of_lt (Nat.zero_le b) hb
  constructor
  · intro h
    have hdiv := congrArg (· / m) h
    have hmod := congrArg (· % m) h
    simp only [Nat.mul_comm _ m, Nat.mul_add_div hpos, Nat.mul_add_mod, Nat.div_eq_of_lt hb,
      Nat.div_eq_of_lt hd, Nat.mod_eq_of_lt hb, Nat.mod_eq_of_lt hd, Nat.add_zero] at hdiv hmod
    exact ⟨hdiv, hmod⟩
  · rintro ⟨rfl, rfl⟩
    rfl

/-- A number has its digits only. -/
theorem ofGroups_inj {a b : List Nat} (hlen : a.length = b.length) (ha : ∀ group ∈ a, group < 32)
    (hb : ∀ group ∈ b, group < 32) (h : ofGroups a = ofGroups b) : a = b := by
  induction a generalizing b with
  | nil => exact (List.length_eq_zero_iff.1 hlen.symm).symm
  | cons x a ih =>
    cases b with
    | nil => cases hlen
    | cons y b =>
      have htail : a.length = b.length := Nat.succ.inj hlen
      have ha' : ∀ group ∈ a, group < 32 := fun g hg => ha g (List.mem_cons_of_mem x hg)
      have hb' : ∀ group ∈ b, group < 32 := fun g hg => hb g (List.mem_cons_of_mem y hg)
      rw [ofGroups_cons, ofGroups_cons, htail] at h
      obtain ⟨rfl, hrest⟩ := (mul_add_inj (htail ▸ ofGroups_lt ha') (ofGroups_lt hb')).1 h
      rw [ih htail ha' hb' hrest]

/-! ## Reading as cutting -/

/-- What comes of a number of so many bits: whole bytes from the left, and the text is canonical if
less than one symbol and only zeros are left over. -/
structure Decoded.Cuts (decoded : Decoded) (bits number : Nat) : Prop where
  length : decoded.bytes.length = bits / 8
  bytes : ofBigEndian decoded.bytes = number / Nat.pow 2 (bits % 8)
  canonical : decoded.canonical = (decide (bits % 8 < 5) && number % Nat.pow 2 (bits % 8) == 0)

/-- A byte in front takes eight bits from the left. -/
theorem Decoded.Cuts.cons {decoded : Decoded} {bits number : Nat} {byte : UInt8}
    (h : decoded.Cuts bits number) :
    (decoded.prepend [byte]).Cuts (8 + bits) (byte.toNat * Nat.pow 2 bits + number) := by
  obtain ⟨hlength, hbytes, hcanonical⟩ := h
  have hbits : bits = 8 * decoded.bytes.length + bits % 8 := by
    rw [hlength]
    omega
  have hmod : (8 + bits) % 8 = bits % 8 := by omega
  have hsplit : byte.toNat * Nat.pow 2 bits =
      Nat.pow 2 (bits % 8) * (Nat.pow 256 decoded.bytes.length * byte.toNat) := by
    rw [pow_bytes, ← Nat.mul_assoc, ← pow_add, Nat.add_comm, ← hbits, Nat.mul_comm]
  refine ⟨?_, ?_, ?_⟩
  · show decoded.bytes.length + 1 = (8 + bits) / 8
    omega
  · show ofBigEndian (byte :: decoded.bytes) = _
    rw [ofBigEndian_cons, hbytes, hmod, hsplit, Nat.mul_add_div (pow_pos _)]
  · show decoded.canonical = _
    rw [hcanonical, hmod, hsplit, Nat.mul_add_mod]

/-- What a buffer and the symbols behind it read as. -/
theorem decodeFrom_groups {groups : List Nat} (h : ∀ group ∈ groups, group < 32) (buffer : Buffer)
    (short : buffer.bits < 8) (fits : buffer.value < Nat.pow 2 buffer.bits) (position : Nat) :
    ∃ decoded, decodeFrom buffer position (groups.map symbol) = .ok decoded ∧
      decoded.Cuts (buffer.bits + 5 * groups.length)
        (buffer.value * Nat.pow 32 groups.length + ofGroups groups) := by
  induction groups generalizing buffer position with
  | nil =>
    refine ⟨_, rfl, ?_, ?_, ?_⟩
    · show 0 = (buffer.bits + 0) / 8
      omega
    · show 0 = (buffer.value * 1 + 0) / _
      rw [Nat.mul_one, Nat.add_zero, List.length_nil, Nat.mul_zero, Nat.add_zero,
        Nat.mod_eq_of_lt short, Nat.div_eq_of_lt fits]
    · show buffer.isCanonicalEnd = (_ && (buffer.value * 1 + 0) % _ == 0)
      rw [Nat.mul_one, Nat.add_zero, List.length_nil, Nat.mul_zero, Nat.add_zero,
        Nat.mod_eq_of_lt short, Nat.mod_eq_of_lt fits]
      rfl
  | cons group groups ih =>
    have hgroup : group < 32 := h group List.mem_cons_self
    have ih := ih fun g hg => h g (List.mem_cons_of_mem group hg)
    have hpow : Nat.pow 32 (groups.length + 1) = 32 * Nat.pow 32 groups.length := Nat.mul_comm _ _
    have hnumber : buffer.value * Nat.pow 32 (groups.length + 1) + ofGroups (group :: groups) =
        (buffer.value * 32 + group) * Nat.pow 32 groups.length + ofGroups groups := by
      rw [ofGroups_cons, hpow, Nat.add_mul, Nat.mul_assoc, Nat.add_assoc]
    have hfits : buffer.value * 32 + group < Nat.pow 2 (buffer.bits + 5) := by
      have h32 : Nat.pow 2 (buffer.bits + 5) = Nat.pow 2 buffer.bits * 32 := pow_add buffer.bits 5
      rw [h32]
      omega
    rw [List.map_cons, decodeFrom_symbol hgroup, List.length_cons, hnumber]
    unfold Buffer.pushGroup
    by_cases hwait : buffer.bits + 5 < 8
    · -- The bits only wait.
      simp only [if_pos hwait]
      obtain ⟨decoded, hread, hcuts⟩ := ih ⟨_, buffer.bits + 5⟩ hwait hfits (position + 1)
      have hbits : buffer.bits + 5 * (groups.length + 1) =
          buffer.bits + 5 + 5 * groups.length := by omega
      rw [hread, hbits]
      exact ⟨decoded, rfl, hcuts⟩
    · -- A byte is complete: the bits above those that stay behind.
      simp only [if_neg hwait]
      obtain ⟨left, hleft⟩ := Nat.exists_eq_add_of_le (Nat.le_of_not_lt hwait)
      have hsub : buffer.bits + 5 - 8 = left := by omega
      have hbits : buffer.bits + 5 * (groups.length + 1) = 8 + (left + 5 * groups.length) := by
        omega
      rw [hsub, hbits, shiftRight_eq_div, one_shiftLeft]
      rw [hleft, pow_add] at hfits
      generalize buffer.value * 32 + group = value at hfits ⊢
      have hbyte : value / Nat.pow 2 left < 256 :=
        Nat.div_lt_of_lt_mul (Nat.mul_comm (Nat.pow 2 8) _ ▸ hfits)
      obtain ⟨decoded, hread, hcuts⟩ :=
        ih ⟨value % Nat.pow 2 left, left⟩ (by show left < 8; omega) (Nat.mod_lt _ (pow_pos left))
          (position + 1)
      have htop : value * Nat.pow 32 groups.length + ofGroups groups =
          (UInt8.ofNat (value / Nat.pow 2 left)).toNat * Nat.pow 2 (left + 5 * groups.length) +
            (value % Nat.pow 2 left * Nat.pow 32 groups.length + ofGroups groups) := by
        rw [UInt8.toNat_ofNat_of_lt' hbyte, pow_add, ← pow_groups, ← Nat.mul_assoc, ← Nat.add_assoc,
          ← Nat.add_mul, Nat.div_add_mod']
      rw [hread, htop]
      exact ⟨_, rfl, hcuts.cons⟩

/-- Reading the text of groups cuts their number into bytes. -/
theorem decode_groups {groups : List Nat} (h : ∀ group ∈ groups, group < 32) :
    ∃ decoded, decode (String.ofList (groups.map symbol)) = .ok decoded ∧
      decoded.Cuts (5 * groups.length) (ofGroups groups) := by
  obtain ⟨decoded, hread, hcuts⟩ :=
    decodeFrom_groups h .empty (by decide) (by decide) 0
  have hempty : Buffer.empty = ⟨0, 0⟩ := rfl
  rw [hempty, Nat.zero_add, Nat.zero_mul, Nat.zero_add] at hcuts
  rw [decode, String.toList_ofList]
  exact ⟨decoded, hread, hcuts⟩

/-- What can be read is the text of some groups, and their number is cut. -/
theorem exists_groups_of_decode {text : String} {decoded : Decoded}
    (h : decode text = .ok decoded) :
    ∃ groups : List Nat, (∀ group ∈ groups, group < 32) ∧
      text = String.ofList (groups.map symbol) ∧
      decoded.Cuts (5 * groups.length) (ofGroups groups) := by
  obtain ⟨groups, hlt, hmap⟩ := exists_groups (isSome_value?_of_decodeFrom h)
  have htext : text = String.ofList (groups.map symbol) := by
    rw [← hmap, String.ofList_toList]
  obtain ⟨decoded', hread, hcuts⟩ := decode_groups hlt
  rw [← htext, h] at hread
  cases hread
  exact ⟨groups, hlt, htext, hcuts⟩

/-- A canonical number is its bytes, with zeros behind them. -/
theorem Decoded.Cuts.number_eq {decoded : Decoded} {bits number : Nat}
    (h : decoded.Cuts bits number) (canonical : decoded.canonical = true) :
    bits % 8 < 5 ∧ number = ofBigEndian decoded.bytes * Nat.pow 2 (bits % 8) := by
  have hc := h.canonical
  rw [canonical, eq_comm, Bool.and_eq_true, decide_eq_true_eq, beq_iff_eq] at hc
  refine ⟨hc.1, ?_⟩
  rw [h.bytes, Nat.div_mul_cancel (Nat.dvd_of_mod_eq_zero hc.2)]

/-- Canonical text is the text of the bytes that it spells. -/
theorem encode_of_decode {text : String} {bytes : List UInt8}
    (h : decode text = .ok ⟨bytes, true⟩) : encode bytes = text := by
  obtain ⟨a, ha, htext, hcuts⟩ := exists_groups_of_decode h
  obtain ⟨b, hb, hencode, hcuts'⟩ := exists_groups_of_decode (decode_encode bytes)
  obtain ⟨hfew, hnumber⟩ := hcuts.number_eq rfl
  obtain ⟨hfew', hnumber'⟩ := hcuts'.number_eq rfl
  have hbytes : bytes.length = 5 * a.length / 8 := hcuts.length
  have hbytes' : bytes.length = 5 * b.length / 8 := hcuts'.length
  -- Fewer than five bits are left over, so that the bytes tell how many symbols there are.
  have hlen : b.length = a.length := by omega
  rw [hlen, ← hnumber] at hnumber'
  rw [hencode, htext, ofGroups_inj hlen hb ha hnumber']

end StellarTx.Text.Base32
