/-
# Canonical base 32 text

Written text is what RFC 4648 says without padding: the bits of the bytes, first bit first, are
taken five at a time, the last group is filled up with zeros, and every group is a place in the
alphabet (`encodeChars_eq`).  With this and the round trips, `decode_exact` says what every text
reads as.
-/
import StellarTx.Proofs.Bits
import StellarTx.Proofs.Text.Base32.Number
import StellarTx.Proofs.Text.Base32.Words

namespace StellarTx.Text.Base32

/-! ## Groups of bits -/

/-- The alphabet, in the order of the values. -/
def alphabet : List Char :=
  "ABCDEFGHIJKLMNOPQRSTUVWXYZ234567".toList

/-- The character for five bits. -/
def letter (group : List Bool) : Char :=
  alphabet.getD (numberOfBits group) 'A'

/-- The characters for bits, five bits at a time.  Zeros fill the last group up. -/
def letters : List Bool → List Char
  | [] => []
  | a :: b :: c :: d :: e :: rest => letter [a, b, c, d, e] :: letters rest
  | few => [letter (few ++ List.replicate (5 - few.length) false)]

theorem mem_alphabet_iff {c : Char} : c ∈ alphabet ↔ (value? c).isSome := by
  have hvalue : ∀ c ∈ alphabet, (value? c).isSome := List.all_eq_true.1 (by decide)
  have hsymbol : ∀ n : Fin 32, symbol n ∈ alphabet := by decide
  refine ⟨hvalue c, fun h => ?_⟩
  obtain ⟨n, hn⟩ := Option.isSome_iff_exists.1 h
  obtain ⟨hlt, rfl⟩ := symbol_of_value? hn
  exact hsymbol ⟨n, hlt⟩

theorem not_mem_alphabet_iff {c : Char} : c ∉ alphabet ↔ value? c = none := by
  rw [mem_alphabet_iff, Option.not_isSome_iff_eq_none]

theorem letter_bitsOf (n : Nat) : letter (bitsOf 5 n) = symbol (n % 32) := by
  have hsymbol : ∀ n : Fin 32, alphabet.getD n 'A' = symbol n := by decide
  rw [letter, numberOfBits_bitsOf]
  exact hsymbol ⟨n % 32, Nat.mod_lt _ (by decide)⟩

theorem letters_bitsOf (n : Nat) (rest : List Bool) :
    letters (bitsOf 5 n ++ rest) = symbol (n % 32) :: letters rest := by
  rw [← letter_bitsOf]
  rfl

/-- Fewer than five bits are filled up. -/
theorem letters_few {b n : Nat} (hpos : b ≠ 0) (short : b < 5) :
    letters (bitsOf b n) = [symbol (n <<< (5 - b) % 32)] := by
  have hfive : b + (5 - b) = 5 := Nat.add_sub_cancel' (Nat.le_of_lt short)
  have hfilled : letters (bitsOf b n) =
      [letter (bitsOf b n ++ List.replicate (5 - (bitsOf b n).length) false)] := by
    obtain rfl | rfl | rfl | rfl : b = 1 ∨ b = 2 ∨ b = 3 ∨ b = 4 := by omega
    all_goals rfl
  rw [hfilled, length_bitsOf, bitsOf_append_zeros, hfive, letter_bitsOf]

/-- Groups are given out from the left. -/
theorem letters_groups (left n k : Nat) (rest : List Bool) :
    letters (bitsOf (left + 5 * k) n ++ rest) =
      ((List.range k).reverse.map fun i => n >>> (left + 5 * i) % 32).map symbol ++
        letters (bitsOf left n ++ rest) := by
  induction k with
  | zero => rfl
  | succ k ih =>
    have hsucc : left + 5 * (k + 1) = 5 + (left + 5 * k) := by omega
    rw [hsucc, bitsOf_add, List.append_assoc, letters_bitsOf, ih, List.range_succ,
      List.reverse_append, List.reverse_singleton, List.singleton_append, List.map_cons,
      List.map_cons, List.cons_append]

/-- What a buffer and the bytes behind it are written as. -/
theorem letters_bits (buffer : Buffer) (short : buffer.bits < 5) (bytes : List UInt8) :
    letters (bitsOf buffer.bits buffer.value ++ bits bytes) = (groups buffer bytes).map symbol := by
  induction bytes generalizing buffer with
  | nil =>
    have hbits : bitsOf buffer.bits buffer.value ++ bits [] = bitsOf buffer.bits buffer.value :=
      List.append_nil _
    rw [hbits, groups, Buffer.lastGroup]
    by_cases hnone : buffer.bits = 0
    · rw [if_pos hnone, hnone]
      rfl
    · rw [if_neg hnone, letters_few hnone short]
      rfl
  | cons byte bytes ih =>
    have hleft : (buffer.bits + 8) % 5 < 5 := Nat.mod_lt _ (by decide)
    have hbits : bits (byte :: bytes) = bitsOf 8 byte.toNat ++ bits bytes := rfl
    have hrest := ih (buffer.pushByte byte).2 hleft
    -- The mask only takes off bits that have been given out.
    have hkeep : bitsOf (buffer.pushByte byte).2.bits (buffer.pushByte byte).2.value =
        bitsOf ((buffer.bits + 8) % 5) (buffer.value * 256 + byte.toNat) := by
      show bitsOf _ (_ % 1 <<< _) = _
      rw [one_shiftLeft]
      exact bitsOf_mod _ _
    rw [hkeep] at hrest
    rw [hbits, ← List.append_assoc, ← bitsOf_push, ← Nat.mod_add_div (buffer.bits + 8) 5,
      letters_groups, hrest]
    exact List.map_append.symm

/-- Written text is the bits of the bytes, five at a time. -/
theorem encodeChars_eq (bytes : List UInt8) : encodeChars bytes = letters (bits bytes) :=
  (letters_bits .empty (by decide) bytes).symm

/-! ## Canonical text -/

/-- Text over the alphabet can be read, and it is canonical exactly if it is the text of the bytes
that it spells. -/
theorem decode_of_alphabet {text : String} (h : ∀ c ∈ text.toList, c ∈ alphabet) :
    ∃ decoded, decode text = .ok decoded ∧
      (decoded.canonical = true ↔ encode decoded.bytes = text) ∧
      decoded.bytes.length = 5 * text.length / 8 := by
  obtain ⟨groups, hlt, hmap⟩ := exists_groups fun c hc => mem_alphabet_iff.1 (h c hc)
  have htext : text = String.ofList (groups.map symbol) := by
    rw [← hmap, String.ofList_toList]
  have hlength : text.length = groups.length := by
    rw [← String.length_toList, hmap, List.length_map]
  obtain ⟨decoded, hread, hcuts⟩ := decode_groups hlt
  rw [← htext] at hread
  refine ⟨decoded, hread, ⟨fun hcanonical => ?_, fun hencode => ?_⟩, ?_⟩
  · apply encode_of_decode
    rw [hread, ← hcanonical]
  · -- Written text reads as canonical, and this is written text.
    have hback := decode_encode decoded.bytes
    rw [hencode, hread] at hback
    exact congrArg Decoded.canonical (Except.ok.inj hback)
  · rw [hlength]
    exact hcuts.length

/-- A text has a first foreign character if it has one. -/
theorem decode_of_foreign {text : String} (h : ∃ c ∈ text.toList, c ∉ alphabet) :
    ∃ before c after, text.toList = before ++ c :: after ∧ (∀ b ∈ before, b ∈ alphabet) ∧
      c ∉ alphabet ∧ decode text = .error ⟨c, before.length⟩ := by
  obtain ⟨c, hc⟩ := Option.isSome_iff_exists.1
    (List.find?_isSome (p := (· ∉ alphabet)).2 (by simpa using h))
  obtain ⟨hforeign, before, after, htext, hbefore⟩ := List.find?_eq_some_iff_append.1 hc
  have hbefore : ∀ b ∈ before, b ∈ alphabet := by simpa using hbefore
  have hforeign : c ∉ alphabet := of_decide_eq_true hforeign
  have hread := decodeFrom_foreign (fun b hb => mem_alphabet_iff.1 (hbefore b hb))
    (not_mem_alphabet_iff.1 hforeign) .empty 0 after
  rw [← htext, Nat.zero_add] at hread
  exact ⟨before, c, after, htext, hbefore, hforeign, hread⟩

/-- Bytes are written as RFC 4648 says, and their text reads back as canonical.  Every text over the
alphabet reads as so many bytes as there are in its bits, and it is canonical exactly if it is what
these bytes are written as.  Every other text is refused for its first foreign character.  A
register of 32 bits is enough for the computation, with at most twelve of them in use. -/
theorem decode_exact :
    (∀ bytes, decode (encode bytes) = .ok ⟨bytes, true⟩ ∧
      (encode bytes).toList = letters (bits bytes)) ∧
    (∀ text : String, (∀ c ∈ text.toList, c ∈ alphabet) →
      ∃ decoded, decode text = .ok decoded ∧
        (decoded.canonical = true ↔ encode decoded.bytes = text) ∧
        decoded.bytes.length = 5 * text.length / 8) ∧
    (∀ text : String, (∃ c ∈ text.toList, c ∉ alphabet) →
      ∃ before c after, text.toList = before ++ c :: after ∧ (∀ b ∈ before, b ∈ alphabet) ∧
        c ∉ alphabet ∧ decode text = .error ⟨c, before.length⟩) ∧
    (∀ bytes, encodeInWords bytes = some (encode bytes)) ∧
    (∀ text, decodeInWords text = some (decode text)) := by
  refine ⟨fun bytes => ⟨decode_encode bytes, ?_⟩, fun text => decode_of_alphabet,
    fun text => decode_of_foreign, encodeInWords_eq, decodeInWords_eq⟩
  rw [encode, String.toList_ofList, encodeChars_eq]

/-- Text with a symbol that holds nothing, and text that is not all symbols. -/
theorem decode_exact_foreign :
    (∃ decoded, decode "MYA" = .ok decoded ∧
      (decoded.canonical = true ↔ encode decoded.bytes = "MYA") ∧ decoded.bytes.length = 1) ∧
    ∃ before c after, "MY1A".toList = before ++ c :: after ∧ (∀ b ∈ before, b ∈ alphabet) ∧
      c ∉ alphabet ∧ decode "MY1A" = .error ⟨c, before.length⟩ := by
  have hsymbols : "MYA".toList.all (fun c => (value? c).isSome) = true := by decide
  refine ⟨decode_exact.2.1 "MYA" fun c hc => mem_alphabet_iff.2 (List.all_eq_true.1 hsymbols c hc),
    decode_exact.2.2.1 "MY1A" ⟨'1', by simp, not_mem_alphabet_iff.2 (by decide)⟩⟩

end StellarTx.Text.Base32
