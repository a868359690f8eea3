/-
# Base 64 has one text for each byte string

Text that is accepted is the text of the bytes that it spells (`encode_of_decode`): the symbols of
whole groups carry all bits, and of the last group the padding and the unused bits are checked.
-/
import StellarTx.Proofs.Result
import StellarTx.Text.Base64

namespace StellarTx.Text.Base64

/-! ## The alphabet -/

theorem symbol_of_value?_ofNat : ∀ n : Fin 256, ∀ v ∈ value? (UInt8.ofNat n),
    v < 64 ∧ symbol v = UInt8.ofNat n := by decide +kernel

/-- A byte with a value is the symbol for it. -/
theorem symbol_of_value? {byte : UInt8} {v : Nat} (h : value? byte = some v) :
    v < 64 ∧ symbol v = byte := by
  have hbyte := symbol_of_value?_ofNat ⟨byte.toNat, byte.toNat_lt⟩ v
  rw [UInt8.ofNat_toNat] at hbyte
  exact hbyte h

theorem symbol_lt : ∀ n : Fin 64, (symbol n).toNat < 128 := by decide

/-! ## Whole groups -/

theorem toNat_first {a b : Nat} (ha : a < 64) (hb : b < 64) :
    (UInt8.ofNat (a * 4 + b / 16)).toNat = a * 4 + b / 16 :=
  UInt8.toNat_ofNat_of_lt' (by show _ < 256; omega)

theorem toNat_second (b : Nat) {c : Nat} (hc : c < 64) :
    (UInt8.ofNat (b % 16 * 16 + c / 4)).toNat = b % 16 * 16 + c / 4 :=
  UInt8.toNat_ofNat_of_lt' (by show _ < 256; omega)

/-- Four values are the symbols of the three bytes that they spell. -/
theorem encodeBytes_group {a b c d : Nat} (ha : a < 64) (hb : b < 64) (hc : c < 64) (hd : d < 64)
    (rest : List UInt8) :
    encodeBytes (UInt8.ofNat (a * 4 + b / 16) :: UInt8.ofNat (b % 16 * 16 + c / 4) ::
        UInt8.ofNat (c % 4 * 64 + d) :: rest) =
      symbol a :: symbol b :: symbol c :: symbol d :: encodeBytes rest := by
  have hthird : (UInt8.ofNat (c % 4 * 64 + d)).toNat = c % 4 * 64 + d :=
    UInt8.toNat_ofNat_of_lt' (by show _ < 256; omega)
  have e1 : (a * 4 + b / 16) / 4 = a := by omega
  have e2 : (a * 4 + b / 16) % 4 * 16 + (b % 16 * 16 + c / 4) / 16 = b := by omega
  have e3 : (b % 16 * 16 + c / 4) % 16 * 4 + (c % 4 * 64 + d) / 64 = c := by omega
  have e4 : (c % 4 * 64 + d) % 64 = d := by omega
  rw [encodeBytes, toNat_first ha hb, toNat_second b hc, hthird, e1, e2, e3, e4]

theorem encodeBytes_groups {vs : List Nat} (h : ∀ v ∈ vs, v < 64) (hlen : vs.length % 4 = 0)
    (rest : List UInt8) : encodeBytes (groups vs ++ rest) = vs.map symbol ++ encodeBytes rest := by
  fun_induction groups vs with
  | case1 a b c d vs ih =>
    simp only [List.mem_cons, forall_eq_or_imp] at h
    obtain ⟨ha, hb, hc, hd, hvs⟩ := h
    simp only [List.length_cons] at hlen
    rw [List.cons_append, List.cons_append, List.cons_append, encodeBytes_group ha hb hc hd,
      ih hvs (by omega)]
    rfl
  | case2 vs hnot =>
    match vs with
    | [] => rfl
    | [_] | [_, _] | [_, _, _] => cases hlen
    | a :: b :: c :: d :: vs => exact absurd rfl (hnot a b c d vs)

/-- What is read as symbols is the symbols of the values. -/
theorem eq_map_symbol_of_values {offset : Nat} {bytes : List UInt8} {vs : List Nat}
    (h : values offset bytes = .ok vs) : (∀ v ∈ vs, v < 64) ∧ bytes = vs.map symbol := by
  induction bytes generalizing offset vs with
  | nil =>
    cases h
    exact ⟨nofun, rfl⟩
  | cons byte rest ih =>
    rw [values] at h
    cases hv : value? byte with
    | none =>
      rw [hv] at h
      cases h
    | some v =>
      rw [hv] at h
      obtain ⟨vs', hrest, rfl⟩ := Except.map_eq_ok_iff.1 h
      obtain ⟨hlt, rfl⟩ := ih hrest
      obtain ⟨hv64, rfl⟩ := symbol_of_value? hv
      refine ⟨?_, rfl⟩
      intro v' hv'
      rcases List.mem_cons.1 hv' with rfl | hv'
      · exact hv64
      · exact hlt v' hv'

/-! ## The last group -/

/-- The last group is symbols and then padding. -/
theorem eq_append_of_readTail {start index : Nat} {tail tail' : Tail} {bytes : List UInt8}
    (h : readTail start index tail bytes = .ok tail') :
    ∃ vs pads, (∀ v ∈ vs, v < 64) ∧ bytes = vs.map symbol ++ List.replicate pads pad ∧
      tail'.values = tail.values ++ vs ∧ tail'.pads = tail.pads + pads ∧
      (0 < tail.pads → vs = []) := by
  induction bytes generalizing index tail with
  | nil =>
    cases h
    exact ⟨[], 0, nofun, rfl, (List.append_nil _).symm, rfl, fun _ => rfl⟩
  | cons byte rest ih =>
    rw [readTail] at h
    by_cases hpad : byte = pad
    · rw [if_pos hpad] at h
      by_cases hearly : index < 2
      · rw [if_pos hearly] at h
        cases h
      · rw [if_neg hearly] at h
        obtain ⟨vs, pads, _, hrest, hvalues, hpads, hnone⟩ := ih h
        obtain rfl := hnone (Nat.succ_pos _)
        refine ⟨[], pads + 1, nofun, ?_, hvalues, ?_, fun _ => rfl⟩
        · rw [hpad, hrest]
          rfl
        · rw [hpads, Nat.add_right_comm, Nat.add_assoc]
    · rw [if_neg hpad] at h
      by_cases hlate : 0 < tail.pads
      · rw [if_pos hlate] at h
        cases h
      · rw [if_neg hlate] at h
        cases hv : value? byte with
        | none =>
          rw [hv] at h
          cases h
        | some v =>
          rw [hv] at h
          obtain ⟨vs, pads, hlt, hrest, hvalues, hpads, _⟩ := ih h
          obtain ⟨hv64, rfl⟩ := symbol_of_value? hv
          refine ⟨v :: vs, pads, ?_, ?_, ?_, hpads, fun hpos => absurd hpos hlate⟩
          · intro v' hv'
            rcases List.mem_cons.1 hv' with rfl | hv'
            · exact hv64
            · exact hlt v' hv'
          · rw [hrest]
            rfl
          · rw [hvalues, List.append_assoc]
            rfl

/-- The last group is that of the bytes that it spells: what no byte uses is zero. -/
theorem encodeBytes_of_finishTail {start : Nat} {tail : Tail} {rest : List UInt8}
    (h : finishTail start tail = .ok rest) (hlt : ∀ v ∈ tail.values, v < 64)
    (hmin : 2 ≤ tail.values.length) (hmax : tail.values.length + tail.pads ≤ 4) :
    encodeBytes rest = tail.values.map symbol ++ List.replicate tail.pads pad := by
  obtain ⟨vs, last, pads⟩ := tail
  simp only [finishTail] at h hlt hmin hmax ⊢
  by_cases hfour : (vs.length + pads) % 4 = 0
  · rw [if_neg (fun hne => hne hfour)] at h
    have hsum : vs.length + pads = 4 := by omega
    match vs with
    | [] | [_] =>
      simp only [List.length_cons, List.length_nil] at hmin
      omega
    | [a, b] =>
      obtain rfl : pads = 2 := Nat.add_left_cancel hsum
      simp only [List.mem_cons, forall_eq_or_imp] at hlt
      obtain ⟨ha, hb, _⟩ := hlt
      by_cases hzero : b % 16 = 0
      · simp only [if_pos hzero] at h
        cases h
        have e1 : (a * 4 + b / 16) / 4 = a := by omega
        have e2 : (a * 4 + b / 16) % 4 * 16 = b := by omega
        rw [encodeBytes, toNat_first ha hb, e1, e2]
        rfl
      · simp only [if_neg hzero] at h
        cases h
    | [a, b, c] =>
      obtain rfl : pads = 1 := Nat.add_left_cancel hsum
      simp only [List.mem_cons, forall_eq_or_imp] at hlt
      obtain ⟨ha, hb, hc, _⟩ := hlt
      by_cases hzero : c % 4 = 0
      · simp only [if_pos hzero] at h
        cases h
        have e1 : (a * 4 + b / 16) / 4 = a := by omega
        have e2 : (a * 4 + b / 16) % 4 * 16 + (b % 16 * 16 + c / 4) / 16 = b := by omega
        have e3 : (b % 16 * 16 + c / 4) % 16 * 4 = c := by omega
        rw [encodeBytes, toNat_first ha hb, toNat_second b hc, e1, e2, e3]
        rfl
      · simp only [if_neg hzero] at h
        cases h
    | [a, b, c, d] =>
      obtain rfl : pads = 0 := Nat.add_left_cancel hsum
      cases h
      have hgroups := encodeBytes_groups hlt (Nat.mod_self 4) []
      rw [List.append_nil] at hgroups
      exact hgroups
    | _ :: _ :: _ :: _ :: _ :: vs =>
      simp only [List.length_cons] at hsum
      omega
  · rw [if_pos hfour] at h
    cases h

/-! ## Text -/

/-- Bytes that are accepted are those of the bytes that they spell. -/
theorem encodeBytes_of_decodeBytes {bytes data : List UInt8} (h : decodeBytes bytes = .ok data) :
    encodeBytes data = bytes := by
  unfold decodeBytes at h
  cases hlast : bytes.getLast? with
  | none =>
    simp only [hlast] at h
    cases h
    rw [List.getLast?_eq_none_iff.1 hlast]
    rfl
  | some last =>
    simp only [hlast] at h
    by_cases hstray : bytes.length % 4 = 1 ∧ last ≠ pad ∧ value? last = none
    · rw [if_pos hstray] at h
      cases h
    · rw [if_neg hstray] at h
      obtain ⟨head, hhead, h⟩ := Except.bind_eq_ok_iff.1 h
      obtain ⟨tail, htail, h⟩ := Except.bind_eq_ok_iff.1 h
      by_cases hshort : tail.values.length < 2
      · rw [if_pos hshort] at h
        cases h
      · rw [if_neg hshort] at h
        obtain ⟨rest, hrest, h⟩ := Except.bind_eq_ok_iff.1 h
        cases h
        obtain ⟨hhead64, hfirst⟩ := eq_map_symbol_of_values hhead
        obtain ⟨vs, pads, hvs64, hlatter, hvalues, hpads, _⟩ := eq_append_of_readTail htail
        rw [List.nil_append] at hvalues
        rw [Nat.zero_add] at hpads
        have hcount := congrArg List.length hfirst
        have hcount' := congrArg List.length hlatter
        rw [List.length_take, List.length_map] at hcount
        rw [List.length_drop, List.length_append, List.length_map, List.length_replicate] at hcount'
        unfold headLength at hcount hcount'
        rw [hvalues] at hshort
        have hlast := encodeBytes_of_finishTail hrest (hvalues ▸ hvs64) (by rw [hvalues]; omega)
          (by rw [hvalues, hpads]; omega)
        rw [hvalues, hpads, ← hlatter] at hlast
        rw [encodeBytes_groups hhead64 (by omega), hlast, ← hfirst, List.take_append_drop]

/-- Every byte of base 64 text is one of ASCII. -/
theorem encodeBytes_lt (data : List UInt8) : ∀ byte ∈ encodeBytes data, byte.toNat < 128 := by
  have hsymbol : ∀ {n : Nat}, n < 64 → (symbol n).toNat < 128 := fun {n} hn => symbol_lt ⟨n, hn⟩
  have hpad : pad.toNat < 128 := by decide
  fun_induction encodeBytes data with
  | case1 => nofun
  | case2 a =>
    have ha := a.toNat_lt
    simp only [List.mem_cons, forall_eq_or_imp]
    exact ⟨hsymbol (by omega), hsymbol (by omega), hpad, hpad, nofun⟩
  | case3 a b =>
    have ha := a.toNat_lt
    have hb := b.toNat_lt
    simp only [List.mem_cons, forall_eq_or_imp]
    exact ⟨hsymbol (by omega), hsymbol (by omega), hsymbol (by omega), hpad, nofun⟩
  | case4 a b c rest ih =>
    have ha := a.toNat_lt
    have hb := b.toNat_lt
    have hc := c.toNat_lt
    simp only [List.mem_cons, forall_eq_or_imp]
    exact ⟨hsymbol (by omega), hsymbol (by omega), hsymbol (by omega), hsymbol (by omega), ih⟩

theorem utf8EncodeChar_ofNat : ∀ n : Fin 128,
    String.utf8EncodeChar (Char.ofNat n) = [UInt8.ofNat n] := by decide

/-- Bytes of ASCII are the text of their characters. -/
theorem flatMap_utf8EncodeChar {bytes : List UInt8} (h : ∀ byte ∈ bytes, byte.toNat < 128) :
    (bytes.map fun byte => Char.ofNat byte.toNat).flatMap String.utf8EncodeChar = bytes := by
  induction bytes with
  | nil => rfl
  | cons byte rest ih =>
    have hbyte := utf8EncodeChar_ofNat ⟨byte.toNat, h byte List.mem_cons_self⟩
    rw [UInt8.ofNat_toNat] at hbyte
    rw [List.map_cons, List.flatMap_cons, hbyte, ih fun b hb => h b (List.mem_cons_of_mem byte hb)]
    rfl

/-- Text that is accepted is the text of the bytes that it spells. -/
theorem encode_of_decode {text : String} {data : List UInt8} (h : decode text = .ok data) :
    encode data = text := by
  have hbytes : encodeBytes data = text.toByteArray.data.toList := encodeBytes_of_decodeBytes h
  apply String.toByteArray_inj.1
  apply ByteArray.ext
  apply Array.toList_inj.1
  rw [encode, String.toByteArray_ofList, List.utf8Encode, List.data_toByteArray,
    flatMap_utf8EncodeChar (encodeBytes_lt data), hbytes]

end StellarTx.Text.Base64
