/-
# Decoders step by step

What it means for a sequence of decoders to succeed or to fail: how `>>=` and `<$>` run, and what a
successful run tells about the steps.  A decoder of numbers or bytes succeeds exactly if certain
bytes stand at the front of the input (`Input.Passes`), and every such decoder has an equivalence
that names them.
-/
import StellarTx.Xdr.Decoder

namespace StellarTx.Xdr

/-! ## Bytes at the front of the input -/

/-- The bytes stand at the front of `input`, and `after` is what is left behind them. -/
def Input.Passes (input : Input) (bytes : List UInt8) (after : Input) : Prop :=
  input.rest = bytes ++ after.rest ∧ after.offset = input.offset + bytes.length

namespace Input

/-- To pass nothing is to stay. -/
theorem passes_nil_iff {input after : Input} : input.Passes [] after ↔ input = after := by
  obtain ⟨offset, rest⟩ := input
  obtain ⟨offset', rest'⟩ := after
  simp only [Passes, List.nil_append, List.length_nil, Nat.add_zero, mk.injEq]
  constructor
  · rintro ⟨h1, h2⟩
    exact ⟨h2.symm, h1⟩
  · rintro ⟨h1, h2⟩
    exact ⟨h2, h1.symm⟩

/-- Bytes in two parts are passed one part after the other. -/
theorem passes_append_iff {input after : Input} {bytes more : List UInt8} :
    input.Passes (bytes ++ more) after ↔
      ∃ mid, input.Passes bytes mid ∧ mid.Passes more after := by
  constructor
  · rintro ⟨h1, h2⟩
    refine ⟨⟨input.offset + bytes.length, more ++ after.rest⟩, ⟨?_, rfl⟩, rfl, ?_⟩
    · rw [h1, List.append_assoc]
    · rw [h2, List.length_append, Nat.add_assoc]
  · rintro ⟨mid, ⟨h1, h2⟩, h3, h4⟩
    refine ⟨?_, ?_⟩
    · rw [h1, h3, List.append_assoc]
    · rw [h4, h2, List.length_append, Nat.add_assoc]

/-- What stands behind passed bytes is determined by them. -/
theorem passes_mk (offset : Nat) (bytes rest : List UInt8) :
    Input.Passes ⟨offset, bytes ++ rest⟩ bytes ⟨offset + bytes.length, rest⟩ :=
  ⟨rfl, rfl⟩

end Input

namespace Decoder

variable {α β : Type} {limits : Limits} {input input' : Input}

/-! ## Sequences of steps -/

/-- How a sequence of two steps runs. -/
theorem bind_apply (d : Decoder α) (k : α → Decoder β) (limits : Limits) (input : Input) :
    (d >>= k) limits input =
      match d limits input with
      | Except.error e => Except.error e
      | Except.ok (a, mid) => k a limits mid := rfl

/-- A value that is there already takes nothing from the input. -/
theorem pure_apply (a : α) (limits : Limits) (input : Input) :
    (pure a : Decoder α) limits input = Except.ok (a, input) := rfl

/-- What follows a step that succeeds runs where the step stopped. -/
theorem bind_of_ok {d : Decoder α} {k : α → Decoder β} {a : α}
    (h : d limits input = Except.ok (a, input')) :
    (d >>= k) limits input = k a limits input' := by
  rw [bind_apply, h]

/-- After an error nothing is read. -/
theorem bind_of_error {d : Decoder α} {k : α → Decoder β} {e : Error}
    (h : d limits input = Except.error e) : (d >>= k) limits input = Except.error e := by
  rw [bind_apply, h]

/-- What would be made of the value does not change the error. -/
theorem map_of_error {d : Decoder α} {g : α → β} {e : Error}
    (h : d limits input = Except.error e) : (g <$> d) limits input = Except.error e :=
  bind_of_error h

/-- Two steps succeed if the first does, and the second where the first stopped. -/
theorem bind_eq_ok_iff {d : Decoder α} {k : α → Decoder β} {b : β} :
    (d >>= k) limits input = Except.ok (b, input') ↔
      ∃ a mid, d limits input = Except.ok (a, mid) ∧ k a limits mid = Except.ok (b, input') := by
  rw [bind_apply]
  constructor
  · intro h
    cases hd : d limits input with
    | error e => rw [hd] at h; cases h
    | ok r => rw [hd] at h; exact ⟨r.1, r.2, rfl, h⟩
  · rintro ⟨a, mid, hd, hk⟩
    rw [hd]
    exact hk

/-- Two steps fail if the first does, or the second where the first stopped. -/
theorem bind_eq_error_iff {d : Decoder α} {k : α → Decoder β} {e : Error} :
    (d >>= k) limits input = Except.error e ↔
      d limits input = Except.error e ∨
        ∃ a mid, d limits input = Except.ok (a, mid) ∧ k a limits mid = Except.error e := by
  rw [bind_apply]
  constructor
  · intro h
    cases hd : d limits input with
    | error e' =>
      rw [hd] at h
      cases h
      exact .inl rfl
    | ok r =>
      rw [hd] at h
      exact .inr ⟨r.1, r.2, rfl, h⟩
  · rintro (hd | ⟨a, mid, hd, hk⟩)
    · rw [hd]
    · rw [hd]
      exact hk

/-- Nothing is read for a value that is there already. -/
theorem pure_eq_ok_iff {a b : α} :
    (pure a : Decoder α) limits input = Except.ok (b, input') ↔ a = b ∧ input = input' := by
  rw [pure_apply]
  constructor
  · intro h; cases h; exact ⟨rfl, rfl⟩
  · rintro ⟨rfl, rfl⟩; rfl

/-- What is made of a value is made behind it. -/
theorem map_eq_ok_iff {d : Decoder α} {g : α → β} {b : β} :
    (g <$> d) limits input = Except.ok (b, input') ↔
      ∃ a, d limits input = Except.ok (a, input') ∧ g a = b := by
  show (d >>= fun a => pure (g a)) limits input = _ ↔ _
  rw [bind_eq_ok_iff]
  constructor
  · rintro ⟨a, mid, hd, hk⟩
    obtain ⟨rfl, rfl⟩ := pure_eq_ok_iff.1 hk
    exact ⟨a, hd, rfl⟩
  · rintro ⟨a, hd, rfl⟩
    exact ⟨a, input', hd, rfl⟩

/-- An error comes from the decoder, and not from what is made of its value. -/
theorem map_eq_error_iff {d : Decoder α} {g : α → β} {e : Error} :
    (g <$> d) limits input = Except.error e ↔ d limits input = Except.error e := by
  show (d >>= fun a => pure (g a)) limits input = _ ↔ _
  rw [bind_eq_error_iff]
  constructor
  · rintro (hd | ⟨a, mid, _, hk⟩)
    · exact hd
    · cases hk
  · exact .inl

/-- A step whose result is only written in another way. -/
theorem map_eq_ok_iff_of_inverse {d : Decoder α} {g : α → β} {back : β → α}
    (h₁ : ∀ b, g (back b) = b)
    (h₂ : ∀ a mid, d limits input = Except.ok (a, mid) → back (g a) = a) {b : β} :
    (g <$> d) limits input = Except.ok (b, input') ↔
      d limits input = Except.ok (back b, input') := by
  rw [map_eq_ok_iff]
  constructor
  · rintro ⟨a, ha, rfl⟩
    rw [h₂ a input' ha]
    exact ha
  · intro h
    exact ⟨back b, h, h₁ b⟩

/-- A failure is no success. -/
theorem fail_ne_ok {error : Input → Error} {a : α} :
    (fail error : Decoder α) limits input ≠ Except.ok (a, input') := nofun

/-- The offset is known without reading. -/
theorem offset_bind (k : Nat → Decoder β) (limits : Limits) (input : Input) :
    (offset >>= k) limits input = k input.offset limits input := rfl

/-! ## Bytes and numbers -/

/-- The bytes that are taken are those at the front. -/
theorem take_eq_ok_iff {n : Nat} {a : Octets n} :
    take n limits input = Except.ok (a, input') ↔ input.Passes a.toList input' := by
  obtain ⟨offset, rest⟩ := input
  obtain ⟨offset', rest'⟩ := input'
  obtain ⟨bytes, hlen⟩ := a
  simp only [take, Input.Passes]
  constructor
  · intro h
    split at h
    · cases h
      exact ⟨(List.take_append_drop n rest).symm, by rw [hlen]⟩
    · cases h
  · rintro ⟨rfl, rfl⟩
    have htake : (bytes ++ rest').take n = bytes := by rw [← hlen, List.take_left]
    have hdrop : (bytes ++ rest').drop n = rest' := by rw [← hlen, List.drop_left]
    simp only [htake, hdrop, hlen, dif_pos]

/-- Fewer bytes than asked for are the end of the data. -/
theorem take_of_length_lt {n : Nat} (h : input.rest.length < n) :
    take n limits input = Except.error (.unexpectedEnd input.offset n input.rest.length) := by
  have hheld : (input.rest.take n).length = input.rest.length := by
    rw [List.length_take]
    omega
  rw [take]
  simp only [hheld]
  exact dif_neg (Nat.ne_of_lt h)

/-- Too few bytes are the only thing that stops `take`, and it says how many were left. -/
theorem take_eq_error_iff {n : Nat} {e : Error} :
    take n limits input = Except.error e ↔
      input.rest.length < n ∧ e = .unexpectedEnd input.offset n input.rest.length := by
  constructor
  · intro h
    by_cases hlt : input.rest.length < n
    · rw [take_of_length_lt hlt] at h
      exact ⟨hlt, (Except.error.inj h).symm⟩
    · have hheld : (input.rest.take n).length = n := by
        rw [List.length_take]
        omega
      rw [take] at h
      simp only [dif_pos hheld] at h
      cases h
  · rintro ⟨hlt, rfl⟩
    exact take_of_length_lt hlt

/-- A number of `n` bytes is read from its bytes, and only from them: there is one way to write it.
-/
theorem number_eq_ok_iff {n m : Nat} :
    number n limits input = Except.ok (m, input') ↔
      m < Nat.pow 256 n ∧ input.Passes (bigEndian n m) input' := by
  rw [number, map_eq_ok_iff]
  constructor
  · rintro ⟨a, ha, rfl⟩
    have hlt := ofBigEndian_lt a.toList
    have hback := bigEndian_ofBigEndian a.toList
    rw [a.length_eq] at hlt hback
    rw [hback]
    exact ⟨hlt, take_eq_ok_iff.1 ha⟩
  · rintro ⟨hlt, hp⟩
    refine ⟨⟨bigEndian n m, length_bigEndian n m⟩, take_eq_ok_iff.2 hp, ?_⟩
    rw [ofBigEndian_bigEndian, Nat.mod_eq_of_lt hlt]

/-- A word is read from its four bytes, from the high one to the low. -/
theorem uint32_eq_ok_iff {v : UInt32} :
    uint32 limits input = Except.ok (v, input') ↔ input.Passes (bigEndian 4 v.toNat) input' := by
  have hback : ∀ m mid, number 4 limits input = Except.ok (m, mid) → (UInt32.ofNat m).toNat = m :=
    fun m mid hm => UInt32.toNat_ofNat_of_lt' (number_eq_ok_iff.1 hm).1
  rw [uint32, map_eq_ok_iff_of_inverse (fun _ => UInt32.ofNat_toNat) hback, number_eq_ok_iff]
  exact and_iff_right v.toNat_lt

/-- A long word is read from its eight bytes. -/
theorem uint64_eq_ok_iff {v : UInt64} :
    uint64 limits input = Except.ok (v, input') ↔ input.Passes (bigEndian 8 v.toNat) input' := by
  have hback : ∀ m mid, number 8 limits input = Except.ok (m, mid) → (UInt64.ofNat m).toNat = m :=
    fun m mid hm => UInt64.toNat_ofNat_of_lt' (number_eq_ok_iff.1 hm).1
  rw [uint64, map_eq_ok_iff_of_inverse (fun _ => UInt64.ofNat_toNat) hback, number_eq_ok_iff]
  exact and_iff_right v.toNat_lt

/-- The sign of a number is in its highest bit, so that its bytes are those without a sign. -/
theorem int32_eq_ok_iff {v : Int32} :
    int32 limits input = Except.ok (v, input') ↔
      input.Passes (bigEndian 4 v.toUInt32.toNat) input' := by
  rw [int32, map_eq_ok_iff_of_inverse Int32.toInt32_toUInt32 fun u _ _ => UInt32.toUInt32_toInt32 u]
  exact uint32_eq_ok_iff

/-- The same for eight bytes. -/
theorem int64_eq_ok_iff {v : Int64} :
    int64 limits input = Except.ok (v, input') ↔
      input.Passes (bigEndian 8 v.toUInt64.toNat) input' := by
  rw [int64, map_eq_ok_iff_of_inverse Int64.toInt64_toUInt64 fun u _ _ => UInt64.toUInt64_toInt64 u]
  exact uint64_eq_ok_iff

/-- A flag is read from a word that is exactly 0 or 1. -/
theorem bool_eq_ok_iff {v : Bool} :
    bool limits input = Except.ok (v, input') ↔
      input.Passes (bigEndian 4 (if v then (1 : Int32) else 0).toUInt32.toNat) input' := by
  rw [bool, offset_bind, bind_eq_ok_iff]
  constructor
  · rintro ⟨code, mid, hc, hk⟩
    have hp := int32_eq_ok_iff.1 hc
    -- The discriminant is zero, one, or neither.
    split at hk
    · next h =>
      obtain ⟨rfl, rfl⟩ := pure_eq_ok_iff.1 hk
      rwa [h] at hp
    · split at hk
      · next h =>
        obtain ⟨rfl, rfl⟩ := pure_eq_ok_iff.1 hk
        rwa [h] at hp
      · exact absurd hk fail_ne_ok
  · intro hp
    refine ⟨_, input', int32_eq_ok_iff.2 hp, ?_⟩
    cases v <;> rfl

/-! ## Padded bytes -/

/-- Padding is read only if it is zeros. -/
theorem padding_eq_ok_iff {n : Nat} {u : Unit} :
    padding n limits input = Except.ok (u, input') ↔
      input.Passes (List.replicate (padLength n) 0) input' := by
  rw [padding, offset_bind, bind_eq_ok_iff]
  constructor
  · rintro ⟨a, mid, ha, hk⟩
    have hp := take_eq_ok_iff.1 ha
    split at hk
    · exact absurd hk fail_ne_ok
    · next h =>
      obtain ⟨_, rfl⟩ := pure_eq_ok_iff.1 hk
      have hzero : a.toList = List.replicate (padLength n) 0 := by
        refine List.eq_replicate_iff.2 ⟨a.length_eq, fun b hb => ?_⟩
        simp only [List.any_eq_true, decide_eq_true_eq, not_exists, not_and, ne_eq,
          Decidable.not_not] at h
        exact h b hb
      rwa [hzero] at hp
  · intro hp
    refine ⟨⟨List.replicate (padLength n) 0, List.length_replicate⟩, input',
      take_eq_ok_iff.2 hp, ?_⟩
    have h : (List.replicate (padLength n) (0 : UInt8)).any (· ≠ 0) = false := by
      simp
    rw [h]
    rfl

/-- Data of a fixed length is read with the zeros behind it. -/
theorem fixed_eq_ok_iff {n : Nat} {a : Octets n} :
    fixed n limits input = Except.ok (a, input') ↔ input.Passes (padded a.toList) input' := by
  rw [fixed, bind_eq_ok_iff, padded, Input.passes_append_iff, a.length_eq]
  constructor
  · rintro ⟨b, mid, hb, hk⟩
    obtain ⟨_, after, hz, hr⟩ := bind_eq_ok_iff.1 hk
    obtain ⟨rfl, rfl⟩ := pure_eq_ok_iff.1 hr
    exact ⟨mid, take_eq_ok_iff.1 hb, padding_eq_ok_iff.1 hz⟩
  · rintro ⟨mid, hb, hz⟩
    exact ⟨a, mid, take_eq_ok_iff.2 hb,
      bind_eq_ok_iff.2 ⟨(), input', padding_eq_ok_iff.2 hz, rfl⟩⟩

/-! ## Lengths and counts -/

/-- A length is read if it is within its maximum; no word is greater than 2 ^ 32 - 1. -/
theorem length_eq_ok_iff {max m : Nat} (hmax : max < UInt32.size) :
    length max limits input = Except.ok (m, input') ↔
      m ≤ max ∧ input.Passes (bigEndian 4 m) input' := by
  rw [length, offset_bind, bind_eq_ok_iff]
  constructor
  · rintro ⟨v, mid, hv, hk⟩
    have hp := uint32_eq_ok_iff.1 hv
    split at hk
    · obtain ⟨_, _, hfail, _⟩ := bind_eq_ok_iff.1 hk
      exact absurd hfail fail_ne_ok
    · next h =>
      obtain ⟨rfl, rfl⟩ := pure_eq_ok_iff.1 hk
      exact ⟨Nat.le_of_not_lt h, hp⟩
  · rintro ⟨hle, hp⟩
    have hm : (UInt32.ofNat m).toNat = m := UInt32.toNat_ofNat_of_lt' (by
      show m < UInt32.size
      omega)
    refine ⟨UInt32.ofNat m, input', uint32_eq_ok_iff.2 (by rwa [hm]), ?_⟩
    rw [hm, if_neg (by omega)]
    rfl

/-- A byte string is read behind its length, with its padding, as it was written. -/
theorem bytes_eq_ok_iff {max : Nat} {data : List UInt8} (hmax : max < UInt32.size) :
    bytes max limits input = Except.ok (data, input') ↔
      data.length ≤ max ∧ input.Passes (bigEndian 4 data.length ++ padded data) input' := by
  rw [bytes, bind_eq_ok_iff, Input.passes_append_iff]
  constructor
  · rintro ⟨n, mid, hn, hk⟩
    obtain ⟨hle, hp⟩ := (length_eq_ok_iff hmax).1 hn
    obtain ⟨a, after, ha, hr⟩ := bind_eq_ok_iff.1 hk
    obtain ⟨rfl, rfl⟩ := pure_eq_ok_iff.1 hr
    rw [a.length_eq]
    exact ⟨hle, mid, hp, fixed_eq_ok_iff.1 ha⟩
  · rintro ⟨hle, mid, hp, hd⟩
    refine ⟨data.length, mid, (length_eq_ok_iff hmax).2 ⟨hle, hp⟩, bind_eq_ok_iff.2 ?_⟩
    exact ⟨⟨data, rfl⟩, input', fixed_eq_ok_iff.2 hd, rfl⟩

/-- Bytes are the UTF-8 of a string exactly if they decode to it. -/
theorem fromUTF8?_eq_some_iff {data : List UInt8} {s : String} :
    String.fromUTF8? ⟨data.toArray⟩ = some s ↔ s.toUTF8.data.toList = data := by
  unfold String.fromUTF8?
  constructor
  · intro h
    split at h
    · cases h
      rfl
    · cases h
  · intro h
    have hs : (⟨data.toArray⟩ : ByteArray) = s.toByteArray := by rw [← h]; rfl
    rw [hs, dif_pos s.isValidUTF8]
    rfl

/-- A text is read if its bytes are UTF-8; a text has one form in UTF-8, so that they are its own.
-/
theorem string_eq_ok_iff {max : Nat} {s : String} (hmax : max < UInt32.size) :
    string max limits input = Except.ok (s, input') ↔
      s.toUTF8.data.toList.length ≤ max ∧
        input.Passes (bigEndian 4 s.toUTF8.data.toList.length ++ padded s.toUTF8.data.toList)
          input' := by
  rw [string, offset_bind, bind_eq_ok_iff]
  constructor
  · rintro ⟨data, mid, hd, hk⟩
    cases ht : String.fromUTF8? ⟨data.toArray⟩ with
    | none =>
      rw [ht] at hk
      exact absurd hk fail_ne_ok
    | some t =>
      rw [ht] at hk
      obtain ⟨rfl, rfl⟩ := pure_eq_ok_iff.1 hk
      rw [fromUTF8?_eq_some_iff.1 ht]
      exact (bytes_eq_ok_iff hmax).1 hd
  · intro hd
    refine ⟨_, input', (bytes_eq_ok_iff hmax).2 hd, ?_⟩
    rw [fromUTF8?_eq_some_iff.2 rfl]
    rfl

/-- The count that is read ahead moves nothing. -/
theorem checkCount_eq_ok_iff {n : Nat} {u : Unit} :
    checkCount n limits input = Except.ok (u, input') ↔
      input = input' ∧ (limits.countAhead = true → 4 * n ≤ input.rest.length) := by
  simp only [checkCount, List.length_take]
  constructor
  · intro h
    split at h
    · cases h
    · next hc =>
      cases h
      refine ⟨rfl, fun ha => ?_⟩
      simp only [ha, Bool.true_and, decide_eq_true_eq] at hc
      omega
  · rintro ⟨rfl, h⟩
    rw [if_neg]
    intro hc
    simp only [Bool.and_eq_true, decide_eq_true_eq] at hc
    have := h hc.1
    omega

/-- A count that the bytes cannot hold is the end of the data, if counts are compared. -/
theorem checkCount_of_length_lt {n : Nat} (ahead : limits.countAhead = true)
    (h : input.rest.length < 4 * n) :
    checkCount n limits input =
      Except.error (.unexpectedEnd input.offset (4 * n) input.rest.length) := by
  have hheld : (input.rest.take (4 * n)).length = input.rest.length := by
    rw [List.length_take]
    omega
  simp only [checkCount, hheld, ahead, Bool.true_and]
  exact if_pos (decide_eq_true h)

/-- A count is read like a length, and compared with what is left behind it. -/
theorem count_eq_ok_iff {max m : Nat} (hmax : max < UInt32.size) :
    count max limits input = Except.ok (m, input') ↔
      m ≤ max ∧ input.Passes (bigEndian 4 m) input' ∧
        (limits.countAhead = true → 4 * m ≤ input'.rest.length) := by
  rw [count, bind_eq_ok_iff]
  constructor
  · rintro ⟨n, mid, hn, hk⟩
    obtain ⟨hle, hp⟩ := (length_eq_ok_iff hmax).1 hn
    obtain ⟨_, after, hc, hr⟩ := bind_eq_ok_iff.1 hk
    obtain ⟨rfl, rfl⟩ := pure_eq_ok_iff.1 hr
    obtain ⟨rfl, hroom⟩ := checkCount_eq_ok_iff.1 hc
    exact ⟨hle, hp, hroom⟩
  · rintro ⟨hle, hp, hroom⟩
    exact ⟨m, input', (length_eq_ok_iff hmax).2 ⟨hle, hp⟩,
      bind_eq_ok_iff.2 ⟨(), input', checkCount_eq_ok_iff.2 ⟨rfl, hroom⟩, rfl⟩⟩

/-- A count that is refused ahead is four times too great for what is left. -/
theorem checkCount_eq_error_imp {n : Nat} {e : Error}
    (h : checkCount n limits input = Except.error e) :
    input.rest.length < 4 * n ∧ e = .unexpectedEnd input.offset (4 * n) input.rest.length := by
  by_cases hroom : limits.countAhead = true → 4 * n ≤ input.rest.length
  · rw [(checkCount_eq_ok_iff (u := ())).2 ⟨rfl, hroom⟩] at h
    cases h
  · obtain ⟨ahead, hlt⟩ := Classical.not_imp.1 hroom
    have hlt := Nat.lt_of_not_le hlt
    rw [checkCount_of_length_lt ahead hlt] at h
    exact ⟨hlt, (Except.error.inj h).symm⟩

/-- A count that was compared is one that the bytes can hold. -/
theorem room_of_count {max m : Nat} (ahead : limits.countAhead = true)
    (h : count max limits input = Except.ok (m, input')) : 4 * m ≤ input'.rest.length := by
  obtain ⟨n, mid, _, hk⟩ := bind_eq_ok_iff.1 h
  obtain ⟨_, after, hc, hr⟩ := bind_eq_ok_iff.1 hk
  obtain ⟨rfl, rfl⟩ := pure_eq_ok_iff.1 hr
  obtain ⟨rfl, hroom⟩ := checkCount_eq_ok_iff.1 hc
  exact hroom ahead

/-! ## Whole byte strings -/

/-- At the end there is nothing to finish. -/
theorem finish_of_nil (h : input.rest = []) : finish limits input = Except.ok ((), input) := by
  rw [finish, h]

/-- What is left behind a value is counted. -/
theorem finish_of_ne_nil (h : input.rest ≠ []) :
    finish limits input = Except.error (.trailing input.offset input.rest.length) := by
  unfold finish
  cases hrest : input.rest with
  | nil => exact absurd hrest h
  | cons byte rest => rfl

/-- A whole byte string is read like the front of one, up to the end. -/
theorem run_eq_map (d : Decoder α) (bytes : List UInt8) :
    d.run limits bytes =
      ((d >>= fun a => finish >>= fun _ => pure a) limits ⟨0, bytes⟩).map Prod.fst := by
  rw [run, bind_apply]
  cases d limits ⟨0, bytes⟩ with
  | error e => rfl
  | ok r =>
    obtain ⟨a, input⟩ := r
    show (finish limits input).bind (fun _ => .ok a) =
      Except.map Prod.fst ((finish >>= fun _ => pure a : Decoder α) limits input)
    rw [bind_apply]
    cases finish limits input <;> rfl

/-- A whole byte string is read if the value is read and nothing is left. -/
theorem run_eq_ok_iff {d : Decoder α} {bytes : List UInt8} {a : α} :
    d.run limits bytes = .ok a ↔ ∃ offset, d limits ⟨0, bytes⟩ = .ok (a, ⟨offset, []⟩) := by
  rw [run]
  cases hd : d limits ⟨0, bytes⟩ with
  | error e =>
    constructor
    · intro h; cases h
    · rintro ⟨_, h⟩; cases h
  | ok r =>
    obtain ⟨b, offset, rest⟩ := r
    cases rest with
    | nil =>
      constructor
      · intro h
        cases h
        exact ⟨offset, rfl⟩
      · rintro ⟨_, h⟩
        cases h
        rfl
    | cons x rest =>
      constructor
      · intro h; cases h
      · rintro ⟨_, h⟩; cases h

/-- An error of the value is the error of the whole. -/
theorem run_of_error {d : Decoder α} {bytes : List UInt8} {e : Error}
    (h : d limits ⟨0, bytes⟩ = .error e) : d.run limits bytes = .error e := by
  rw [run, h]
  rfl

/-- Bytes that are left over are counted. -/
theorem run_of_rest {d : Decoder α} {bytes rest : List UInt8} {a : α} {offset : Nat}
    (h : d limits ⟨0, bytes⟩ = .ok (a, ⟨offset, rest⟩)) (hne : rest ≠ []) :
    d.run limits bytes = .error (.trailing offset rest.length) := by
  rw [run, h]
  cases rest with
  | nil => exact absurd rfl hne
  | cons x rest => rfl

end Decoder

end StellarTx.Xdr
