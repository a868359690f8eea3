/-
# Typing errors in keys

A key that was mistyped within two neighbouring characters is refused: for its checksum if a byte is
another one, and otherwise for the unused bits of its last character, which only a canonical text
leaves zero.  The bytes of the text and their checksum are taken as one number, in which such an
error is a burst of at most ten bits.
-/
import StellarTx.Proofs.Crc16
import StellarTx.Proofs.StrKey.Inverse

namespace StellarTx

namespace Text.Base32

/-! ## Errors as bursts -/

theorem take_eq_take {a b : List Nat} {i : Nat} (h : ∀ j < i, a[j]? = b[j]?) :
    a.take i = b.take i := by
  apply List.ext_getElem?
  intro j
  rw [List.getElem?_take, List.getElem?_take]
  by_cases hj : j < i
  · rw [if_pos hj, if_pos hj, h j hj]
  · rw [if_neg hj, if_neg hj]

theorem drop_eq_drop {a b : List Nat} {i : Nat} (h : ∀ j, i ≤ j → a[j]? = b[j]?) :
    a.drop i = b.drop i := by
  apply List.ext_getElem?
  intro j
  rw [List.getElem?_drop, List.getElem?_drop, h (i + j) (Nat.le_add_right i j)]

/-- A number in three parts: the groups in front of a place, the two there and those behind. -/
theorem ofGroups_parts (l : List Nat) (i : Nat) :
    ofGroups l =
      (ofGroups (l.take i) * Nat.pow 2 (5 * ((l.drop i).take 2).length) +
        ofGroups ((l.drop i).take 2)) * Nat.pow 2 (5 * (l.drop (i + 2)).length) +
      ofGroups (l.drop (i + 2)) := by
  rw [← pow_groups, ← ofGroups_append, ← pow_groups, ← ofGroups_append, List.append_assoc,
    ← List.drop_drop, List.take_append_drop, List.take_append_drop]

/-- Two groups that are other ones make a burst of ten bits in the number. -/
theorem exists_burst {a b : List Nat} (hlen : a.length = b.length) (ha : ∀ group ∈ a, group < 32)
    (hb : ∀ group ∈ b, group < 32) (i : Nat) (h : ∀ j, j ≠ i → j ≠ i + 1 → a[j]? = b[j]?) :
    ∃ w s, w < 1024 ∧ ofGroups a ^^^ ofGroups b = w <<< (5 * s) := by
  have htake : a.take i = b.take i := take_eq_take fun j hj => h j (by omega) (by omega)
  have hdrop : a.drop (i + 2) = b.drop (i + 2) := drop_eq_drop fun j hj => h j (by omega) (by omega)
  have hmid : ((a.drop i).take 2).length = ((b.drop i).take 2).length := by
    rw [List.length_take, List.length_take, List.length_drop, List.length_drop, hlen]
  have hpart : ∀ {l : List Nat}, (∀ group ∈ l, group < 32) →
      ∀ group ∈ (l.drop i).take 2, group < 32 := by
    intro l hl group hg
    exact hl group (List.mem_of_mem_drop (List.mem_of_mem_take hg))
  have hshort : ∀ {l : List Nat}, (∀ group ∈ l, group < 32) →
      ofGroups ((l.drop i).take 2) < 1024 := by
    intro l hl
    have hle : ((l.drop i).take 2).length ≤ 2 := by
      rw [List.length_take]
      omega
    exact Nat.lt_of_lt_of_le (ofGroups_lt (hpart hl)) (Nat.pow_le_pow_right (by decide) hle)
  have hrest : ofGroups (b.drop (i + 2)) < Nat.pow 2 (5 * (b.drop (i + 2)).length) :=
    ofGroups_lt_two_pow fun group hg => hb group (List.mem_of_mem_drop hg)
  refine ⟨ofGroups ((a.drop i).take 2) ^^^ ofGroups ((b.drop i).take 2), (b.drop (i + 2)).length,
    Nat.xor_lt_two_pow (n := 10) (hshort ha) (hshort hb), ?_⟩
  -- The parts in front and behind are equal, so that nothing of them is left over.
  rw [ofGroups_parts a i, ofGroups_parts b i, htake, hdrop, hmid,
    Crc16.xor_split _ _ _ _ hrest hrest,
    Crc16.xor_split _ _ _ _ (hmid ▸ ofGroups_lt_two_pow (hpart ha))
      (ofGroups_lt_two_pow (hpart hb)), Nat.xor_self, Nat.zero_mul, Nat.zero_add, Nat.xor_self, Nat.add_zero]
  exact (Nat.shiftLeft_eq _ _).symm

/-- Bits that are cut off at the right leave a burst a burst. -/
theorem exists_burst_shiftRight {w : Nat} (few : w < 1024) (s : Nat) {r : Nat} (hr : r < 5) :
    ∃ w' s', w' < 1024 ∧ w <<< (5 * s) >>> r = w' <<< s' := by
  cases s with
  | zero =>
    refine ⟨w >>> r, 0, ?_, rfl⟩
    rw [Nat.shiftRight_eq_div_pow]
    exact Nat.lt_of_le_of_lt (Nat.div_le_self _ _) few
  | succ s =>
    refine ⟨w, 5 * (s + 1) - r, few, ?_⟩
    have hsum : 5 * (s + 1) = 5 * (s + 1) - r + r := by omega
    rw [hsum, Nat.shiftLeft_add, Nat.shiftLeft_shiftRight, Nat.add_sub_cancel]

/-- Where the number of some groups, without its last bits, is intact, that of groups of which at
most two neighbours are other ones is not, unless only the last bits are. -/
theorem not_intact_typo {a b : List Nat} (hlen : b.length = a.length)
    (ha : ∀ group ∈ a, group < 32) (hb : ∀ group ∈ b, group < 32) (i : Nat)
    (hdiff : ∀ j, j ≠ i → j ≠ i + 1 → a[j]? = b[j]?) {k r : Nat} (hr : r < 5)
    (hbits : 5 * a.length = k + 16 + r) (hintact : Crc16.Intact k (ofGroups a >>> r))
    (hne : ofGroups b >>> r ≠ ofGroups a >>> r) : ¬ Crc16.Intact k (ofGroups b >>> r) := by
  intro hintact'
  obtain ⟨w, s, few, hburst⟩ := exists_burst hlen.symm ha hb i hdiff
  obtain ⟨w', s', few', hcut⟩ := exists_burst_shiftRight few s hr
  have hxor : ofGroups a >>> r ^^^ ofGroups b >>> r = w' <<< s' := by
    rw [← Nat.shiftRight_xor_distrib, hburst, hcut]
  have hchanged : w' ≠ 0 := by
    rintro rfl
    rw [Nat.zero_shiftLeft] at hxor
    have hcancel := Nat.xor_assoc (ofGroups a >>> r) (ofGroups b >>> r) (ofGroups b >>> r)
    rw [hxor, Nat.xor_self, Nat.xor_zero, Nat.zero_xor] at hcancel
    exact hne hcancel
  have hlow : ∀ {l : List Nat}, l.length = a.length → (∀ group ∈ l, group < 32) →
      ofGroups l >>> r < Nat.pow 2 (k + 16) := by
    intro l hl hgroups
    have hlt := ofGroups_lt_two_pow hgroups
    rw [hl, hbits, pow_add (k + 16), Nat.mul_comm] at hlt
    rw [shiftRight_eq_div]
    exact Nat.div_lt_of_lt_mul hlt
  have hfits : w' <<< s' >>> (k + 16) = 0 := by
    rw [← hxor, shiftRight_eq_div]
    exact Nat.div_eq_of_lt (Nat.xor_lt_two_pow (hlow rfl ha) (hlow hlen hb))
  apply Crc16.not_intact_burst hchanged few' hfits
  rw [← hxor]
  exact hintact.xor hintact'

/-! ## Unused bits -/

/-- Two texts of one length that differ at most in the low bits of their last symbols, which belong
to no byte. -/
def SameUsedBits (text typed : List Char) : Prop :=
  typed.dropLast = text.dropLast ∧
    (typed.getLast?.bind value?).map (· >>> (5 * text.length % 8)) =
      (text.getLast?.bind value?).map (· >>> (5 * text.length % 8))

instance (text typed : List Char) : Decidable (SameUsedBits text typed) :=
  inferInstanceAs (Decidable (_ ∧ _))

theorem getElem?_of_map_symbol {a b : List Nat} (ha : ∀ group ∈ a, group < 32)
    (hb : ∀ group ∈ b, group < 32) {j : Nat} (h : (a.map symbol)[j]? = (b.map symbol)[j]?) :
    a[j]? = b[j]? := by
  have hvalue : ∀ l : List Nat, (∀ group ∈ l, group < 32) →
      (l.map symbol)[j]?.bind value? = l[j]? := by
    intro l hl
    rw [List.getElem?_map]
    cases hj : l[j]? with
    | none => rfl
    | some group => exact value?_symbol_of_lt (hl group (List.mem_of_getElem? hj))
  rw [← hvalue a ha, ← hvalue b hb, h]

theorem map_symbol_inj {a b : List Nat} (ha : ∀ group ∈ a, group < 32)
    (hb : ∀ group ∈ b, group < 32) (h : a.map symbol = b.map symbol) : a = b := by
  apply List.ext_getElem?
  intro j
  exact getElem?_of_map_symbol ha hb (by rw [h])

/-- The last group stands below the others, and its unused bits lowest of all. -/
theorem ofGroups_concat_shiftRight {init : List Nat} {last r : Nat} (hr : r ≤ 5) :
    ofGroups (init ++ [last]) >>> r = ofGroups init * Nat.pow 2 (5 - r) + last >>> r := by
  have hpow : 32 = Nat.pow 2 r * Nat.pow 2 (5 - r) := by
    rw [← pow_add, Nat.add_sub_cancel' hr]
  rw [ofGroups_concat, shiftRight_eq_div, shiftRight_eq_div, hpow, Nat.mul_left_comm,
    Nat.mul_add_div (pow_pos r)]

/-- Texts with the same used bits are those whose numbers agree above the unused ones. -/
theorem sameUsedBits_iff {a b : List Nat} (hlen : b.length = a.length)
    (ha : ∀ group ∈ a, group < 32) (hb : ∀ group ∈ b, group < 32) (hr : 5 * a.length % 8 < 5) :
    SameUsedBits (a.map symbol) (b.map symbol) ↔
      ofGroups b >>> (5 * a.length % 8) = ofGroups a >>> (5 * a.length % 8) := by
  unfold SameUsedBits
  rw [List.length_map]
  generalize 5 * a.length % 8 = r at hr
  rcases List.eq_nil_or_concat a with rfl | ⟨init, last, rfl⟩
  · obtain rfl := List.length_eq_zero_iff.1 hlen
    constructor
    · intro _; rfl
    · intro _; exact ⟨rfl, rfl⟩
  · rcases List.eq_nil_or_concat b with rfl | ⟨init', last', rfl⟩
    · rw [List.concat_eq_append, List.length_append] at hlen
      cases hlen
    · rw [List.concat_eq_append, List.concat_eq_append] at *
      rw [List.length_append, List.length_append] at hlen
      have hinit : init'.length = init.length := Nat.add_right_cancel hlen
      have hlast : last < 32 := ha last (List.mem_append_right init List.mem_cons_self)
      have hlast' : last' < 32 := hb last' (List.mem_append_right init' List.mem_cons_self)
      have ha : ∀ group ∈ init, group < 32 := fun g hg => ha g (List.mem_append_left [last] hg)
      have hb : ∀ group ∈ init', group < 32 := fun g hg => hb g (List.mem_append_left [last'] hg)
      have hlow : ∀ {n : Nat}, n < 32 → n >>> r < Nat.pow 2 (5 - r) := by
        intro n hn
        rw [shiftRight_eq_div]
        apply Nat.div_lt_of_lt_mul
        rw [← pow_add, Nat.add_sub_cancel' (Nat.le_of_lt hr)]
        exact hn
      rw [ofGroups_concat_shiftRight (Nat.le_of_lt hr),
        ofGroups_concat_shiftRight (Nat.le_of_lt hr), mul_add_inj (hlow hlast') (hlow hlast)]
      simp only [List.map_append, List.map_cons, List.map_nil, List.dropLast_concat,
        List.getLast?_concat, Option.bind_some, value?_symbol_of_lt hlast,
        value?_symbol_of_lt hlast', Option.map_some, Option.some.injEq]
      constructor
      · rintro ⟨hmap, hused⟩
        exact ⟨congrArg ofGroups (map_symbol_inj hb ha hmap), hused⟩
      · rintro ⟨hnumber, hused⟩
        exact ⟨congrArg (List.map symbol) (ofGroups_inj hinit hb ha hnumber), hused⟩

end Text.Base32

namespace StrKey

/-! ## Checksums -/

/-- Bytes whose number is not intact are refused for their checksum, and intact bytes in a text that
is not canonical for that. -/
theorem unwrap_of_decode {text : String} {decoded : Text.Base32.Decoded}
    (hread : Text.Base32.decode text = .ok decoded) (hlen : 3 ≤ decoded.bytes.length) :
    (¬ Crc16.Intact (8 * (decoded.bytes.length - 2)) (ofBigEndian decoded.bytes) →
      unwrap text = .error .checksum) ∧
    (Crc16.Intact (8 * (decoded.bytes.length - 2)) (ofBigEndian decoded.bytes) →
      decoded.canonical = false → unwrap text = .error .encoding) := by
  have hdrop : (decoded.bytes.drop (decoded.bytes.length - 2)).length = 2 := by
    rw [List.length_drop]
    omega
  have htake : (decoded.bytes.take (decoded.bytes.length - 2)).length =
      decoded.bytes.length - 2 := by
    rw [List.length_take]
    omega
  have hintact : Crc16.Intact _ (ofBigEndian (decoded.bytes.take (decoded.bytes.length - 2) ++
      decoded.bytes.drop (decoded.bytes.length - 2))) ↔ _ := Crc16.intact_append_iff hdrop
  rw [List.take_append_drop, htake] at hintact
  rw [hintact]
  simp only [unwrap, hread, if_neg (Nat.not_lt.2 hlen)]
  constructor
  · intro h
    rw [if_pos h]
  · intro h hcanonical
    rw [if_neg (fun hne => hne h), hcanonical]
    rfl

/-- The text of a version and a body is that of groups whose number ends in unused bits, all of them
zero, and is intact without them. -/
theorem exists_groups_wrap (version : UInt8) (body : List UInt8) :
    ∃ a : List Nat, (∀ group ∈ a, group < 32) ∧
      wrap version body = String.ofList (a.map Text.Base32.symbol) ∧ 5 * a.length % 8 < 5 ∧
      5 * a.length = 8 * (body.length + 1) + 16 + 5 * a.length % 8 ∧
      Text.Base32.ofGroups a =
        Text.Base32.ofGroups a >>> (5 * a.length % 8) * Nat.pow 2 (5 * a.length % 8) ∧
      Crc16.Intact (8 * (body.length + 1)) (Text.Base32.ofGroups a >>> (5 * a.length % 8)) := by
  obtain ⟨a, ha, htext, hcuts⟩ := Text.Base32.exists_groups_of_decode
    (Text.Base32.decode_encode (version :: body ++ Crc16.checksumBytes (version :: body)))
  obtain ⟨hfew, hnumber⟩ := hcuts.number_eq rfl
  have hbytes := hcuts.bytes
  rw [← Text.Base32.shiftRight_eq_div] at hbytes
  have hsize := hcuts.length
  simp only [List.length_append, List.length_cons, Crc16.length_checksumBytes] at hsize
  refine ⟨a, ha, htext, hfew, by omega, ?_, ?_⟩
  · rw [← hbytes]
    exact hnumber
  · rw [← hbytes]
    exact (Crc16.intact_append_iff (Crc16.length_checksumBytes (version :: body))).2 rfl

/-! ## Typing errors -/

/-- A text of the same length and over the alphabet that is another one at a place or the one next
to it, and nowhere else. -/
structure IsTypo (text typed : String) (place : Nat) : Prop where
  ne : typed ≠ text
  length : typed.length = text.length
  alphabet : ∀ c ∈ typed.toList, (Text.Base32.value? c).isSome
  elsewhere : ∀ j, j ≠ place → j ≠ place + 1 → typed.toList[j]? = text.toList[j]?

theorem isSome_value?_of_mem_wrap {version : UInt8} {body : List UInt8} :
    ∀ c ∈ (wrap version body).toList, (Text.Base32.value? c).isSome := by
  intro c hc
  obtain ⟨n, rfl⟩ := Text.Base32.exists_of_mem_encode hc
  rw [Text.Base32.value?_symbol]
  rfl

/-- Other symbols at a place and the one next to it make a typing error, unless they are the same
ones again.  So a symbol in place of another and two symbols that are swapped are such errors. -/
theorem isTypo_set_set {version : UInt8} {body : List UInt8} {c d : Char} {place : Nat}
    (hc : (Text.Base32.value? c).isSome) (hd : (Text.Base32.value? d).isSome)
    (hne : String.ofList (((wrap version body).toList.set place c).set (place + 1) d) ≠
      wrap version body) :
    IsTypo (wrap version body)
      (String.ofList (((wrap version body).toList.set place c).set (place + 1) d)) place where
  ne := hne
  length := by
    rw [String.length_ofList, List.length_set, List.length_set, String.length_toList]
  alphabet := by
    intro b hb
    rw [String.toList_ofList] at hb
    rcases List.mem_or_eq_of_mem_set hb with hb | rfl
    · rcases List.mem_or_eq_of_mem_set hb with hb | rfl
      · exact isSome_value?_of_mem_wrap b hb
      · exact hc
    · exact hd
  elsewhere := by
    intro j hj hj'
    rw [String.toList_ofList, List.getElem?_set_ne (Ne.symm hj'), List.getElem?_set_ne (Ne.symm hj)]

/-- What becomes of a text with a version and a body when it is mistyped. -/
theorem unwrap_of_isTypo {version : UInt8} {body : List UInt8} {typed : String} {place : Nat}
    (h : IsTypo (wrap version body) typed place) :
    (Text.Base32.SameUsedBits (wrap version body).toList typed.toList →
      unwrap typed = .error .encoding) ∧
    (¬ Text.Base32.SameUsedBits (wrap version body).toList typed.toList →
      unwrap typed = .error .checksum) := by
  obtain ⟨hne, hlen, halphabet, hdiff⟩ := h
  obtain ⟨a, ha, htext, hfew, hbits, hnumber, hintact⟩ := exists_groups_wrap version body
  obtain ⟨b, hb, hsymbols⟩ := Text.Base32.exists_groups halphabet
  have htyped : typed = String.ofList (b.map Text.Base32.symbol) := by
    rw [← hsymbols, String.ofList_toList]
  subst htyped
  rw [htext] at hne hlen hdiff ⊢
  rw [String.length_ofList, String.length_ofList, List.length_map, List.length_map] at hlen
  rw [String.toList_ofList, String.toList_ofList] at *
  obtain ⟨decoded, hread, hcuts⟩ := Text.Base32.decode_groups hb
  have hlength : decoded.bytes.length = body.length + 3 := by
    rw [hcuts.length, hlen]
    omega
  have hbytes : ofBigEndian decoded.bytes = Text.Base32.ofGroups b >>> (5 * a.length % 8) := by
    rw [Text.Base32.shiftRight_eq_div, ← hlen]
    exact hcuts.bytes
  have hread := unwrap_of_decode hread (by omega)
  rw [hlength, hbytes] at hread
  rw [Text.Base32.sameUsedBits_iff hlen ha hb hfew]
  constructor
  · intro heq
    rw [heq] at hread hbytes
    apply hread.2 hintact
    cases hcanonical : decoded.canonical with
    | false => rfl
    | true =>
      -- Canonical texts of the same bytes are the same.
      obtain ⟨_, hnumber'⟩ := hcuts.number_eq hcanonical
      rw [hlen, hbytes, ← hnumber] at hnumber'
      rw [Text.Base32.ofGroups_inj hlen hb ha hnumber'] at hne
      exact absurd rfl hne
  · intro hother
    apply hread.1
    apply Text.Base32.not_intact_typo hlen ha hb place _ hfew hbits hintact hother
    intro j hj hj'
    exact Text.Base32.getElem?_of_map_symbol ha hb (hdiff j hj hj').symm

theorem decode_of_unwrap_error {text : String} {error : Error} (h : unwrap text = .error error) :
    decode text = .error error := by
  rw [decode, h]
  rfl

/-- A foreign character in the text of a key is blamed at its place. -/
theorem unwrap_foreign {version : UInt8} {body : List UInt8} {place : Nat} {c : Char}
    (hplace : place < (wrap version body).length) (hc : Text.Base32.value? c = none) :
    unwrap (String.ofList ((wrap version body).toList.set place c)) =
      .error (.character c place) := by
  have hlt : place < (wrap version body).toList.length := by
    rw [String.length_toList]
    exact hplace
  have hbefore : ∀ b ∈ (wrap version body).toList.take place, (Text.Base32.value? b).isSome :=
    fun b hb => isSome_value?_of_mem_wrap b (List.mem_of_mem_take hb)
  have hread := Text.Base32.decodeFrom_foreign hbefore hc .empty 0
    ((wrap version body).toList.drop (place + 1))
  rw [List.length_take, Nat.min_eq_left (Nat.le_of_lt hlt), Nat.zero_add] at hread
  rw [unwrap, Text.Base32.decode, String.toList_ofList, List.set_eq_take_append_cons_drop,
    if_pos hlt, hread]

/-- What becomes of the text of a key when it is mistyped at one place or at two neighbouring ones:
its checksum is wrong, or, if none but unused bits of its last character are other ones, it is not
canonical.  A foreign character is reported with its place. -/
theorem decode_typo (key : StrKey) :
    (∀ (typed : String) (place : Nat), IsTypo key.encode typed place →
      (Text.Base32.SameUsedBits key.encode.toList typed.toList →
        decode typed = .error .encoding) ∧
      (¬ Text.Base32.SameUsedBits key.encode.toList typed.toList →
        decode typed = .error .checksum)) ∧
    (∀ (place : Nat) (c : Char), place < key.encode.length → Text.Base32.value? c = none →
      decode (String.ofList (key.encode.toList.set place c)) = .error (.character c place)) := by
  constructor
  · intro typed place h
    obtain ⟨hsame, hother⟩ := unwrap_of_isTypo h
    exact ⟨fun hs => decode_of_unwrap_error (hsame hs),
      fun ho => decode_of_unwrap_error (hother ho)⟩
  · intro place c hplace hc
    exact decode_of_unwrap_error (unwrap_foreign hplace hc)

/-- Two characters swapped in the checksum, the unused bit set in the last character of a
multiplexed account, and a character that is no symbol. -/
theorem decode_typo_zeros :
    decode (String.ofList ((zeroAccountText.toList.set 53 'H').set 54 'W')) = .error .checksum ∧
    decode (String.ofList
      (((muxedAccount (.replicate 32 0) 0).encode.toList.set 67 'I').set 68 'H')) =
        .error .encoding ∧
    decode (String.ofList (zeroAccountText.toList.set 2 '1')) = .error (.character '1' 2) := by
  have htext : (accountId (.replicate 32 0)).encode = zeroAccountText := by decide +kernel
  obtain ⟨htypo, hforeign⟩ := decode_typo (accountId (.replicate 32 0))
  obtain ⟨htypo', _⟩ := decode_typo (muxedAccount (.replicate 32 0) 0)
  refine ⟨?_, ?_, ?_⟩
  · rw [← htext]
    apply (htypo _ 53 (isTypo_set_set ?_ ?_ ?_)).2
    · decide +kernel
    · decide
    · decide
    · decide +kernel
  · apply (htypo' _ 67 (isTypo_set_set ?_ ?_ ?_)).1
    · decide +kernel
    · decide
    · decide
    · decide +kernel
  · rw [← htext]
    exact hforeign 2 '1' (by decide +kernel) (by decide)

end StrKey

end StellarTx
