/-
# Errors point at their cause

An error that a decoder reports says something about the bytes at the offset it names, and that is
true of them: `Error.Describes`.  The offsets come about in several ways, before a word is read,
behind it, or counted back from the cursor, so this is shown for each operation; from one step to
the next it is enough that reading stands inside the bytes, at a multiple of four.
-/
import StellarTx.Proofs.Xdr.Reader
import StellarTx.Proofs.Xdr.RoundTrip

namespace StellarTx.Xdr

/-! ## What errors say -/

/-- The number in the four bytes at an offset, if they are there. -/
def wordAt? (bytes : List UInt8) (offset : Nat) : Option UInt32 :=
  if offset + 4 ≤ bytes.length then
    some (UInt32.ofNat (ofBigEndian ((bytes.drop offset).take 4)))
  else none

namespace Error

/-- The offset that an error names. -/
def offset? : Error → Option Nat
  | unexpectedEnd offset _ _ => some offset
  | padding offset => some offset
  | boolean offset _ => some offset
  | discriminant _ _ offset => some offset
  | excess e => some e.offset
  | utf8 offset => some offset
  | trailing offset _ => some offset
  | depth _ => none
  | base64 _ => none

/-- What the error says is true of the bytes.  Bytes are left over only behind a value, so those in
front are some that are accepted; and no error of a decoder is about text in base 64. -/
def Describes (accepted : List UInt8 → Prop) (bytes : List UInt8) : Error → Prop
  | unexpectedEnd offset needed available =>
    offset + available = bytes.length ∧ available < needed
  | padding offset =>
    ∃ i byte, offset ≤ i ∧ i < offset + padLength offset ∧ bytes[i]? = some byte ∧ byte ≠ 0
  | boolean offset value =>
    wordAt? bytes offset = some value.toUInt32 ∧ value ≠ 0 ∧ value ≠ 1
  | discriminant _ value offset => wordAt? bytes offset = some value.toUInt32
  | excess e => (wordAt? bytes e.offset).map UInt32.toNat = some e.length ∧ e.max < e.length
  | utf8 offset =>
    ∃ length, wordAt? bytes offset = some length ∧
      offset + 4 + length.toNat ≤ bytes.length ∧
      ∀ s : String, s.toUTF8.data.toList ≠ (bytes.drop (offset + 4)).take length.toNat
  | trailing offset remaining =>
    offset + remaining = bytes.length ∧ 0 < remaining ∧ accepted (bytes.take offset)
  | depth max => max = maxLevels
  | base64 _ => False

end Error

/-- A word that is there takes four bytes. -/
theorem add_four_le_of_wordAt? {bytes : List UInt8} {offset : Nat} {word : UInt32}
    (h : wordAt? bytes offset = some word) : offset + 4 ≤ bytes.length := by
  rw [wordAt?] at h
  split at h
  · assumption
  · cases h

/-- An offset that an error names is inside the bytes, or at their end. -/
theorem Error.Describes.offset_le {accepted : List UInt8 → Prop} {bytes : List UInt8} {e : Error}
    (h : e.Describes accepted bytes) {offset : Nat} (ho : e.offset? = some offset) :
    offset ≤ bytes.length := by
  cases e with
  | unexpectedEnd o needed available =>
    cases ho
    obtain ⟨hend, _⟩ := h
    omega
  | padding o =>
    cases ho
    obtain ⟨i, byte, hle, _, hbyte, _⟩ := h
    obtain ⟨hlt, _⟩ := List.getElem?_eq_some_iff.1 hbyte
    omega
  | boolean o value =>
    cases ho
    have := add_four_le_of_wordAt? h.1
    omega
  | discriminant union value o =>
    cases ho
    have := add_four_le_of_wordAt? h
    omega
  | excess e =>
    cases ho
    obtain ⟨word, hword, _⟩ := Option.map_eq_some_iff.1 h.1
    have := add_four_le_of_wordAt? hword
    omega
  | utf8 o =>
    cases ho
    obtain ⟨length, _, hle, _⟩ := h
    omega
  | trailing o remaining =>
    cases ho
    obtain ⟨hend, _⟩ := h
    omega
  | depth max => cases ho
  | base64 e => cases ho

/-! ## Places in bytes -/

/-- The input is what is left of the bytes from some place on. -/
structure Input.At (bytes : List UInt8) (input : Input) : Prop where
  inside : input.offset ≤ bytes.length
  rest : input.rest = bytes.drop input.offset

namespace Input.At

variable {bytes data : List UInt8} {input after : Input}

/-- Before anything is read, all of the bytes are left. -/
theorem start (bytes : List UInt8) : Input.At bytes ⟨0, bytes⟩ := ⟨Nat.zero_le _, rfl⟩

/-- What is left reaches up to the end. -/
theorem length_rest (h : input.At bytes) : input.offset + input.rest.length = bytes.length := by
  have hinside := h.inside
  rw [h.rest, List.length_drop]
  omega

/-- Bytes that are passed are those at the place. -/
theorem take_eq (h : input.At bytes) (hp : input.Passes data after) :
    (bytes.drop input.offset).take data.length = data := by
  rw [← h.rest, hp.1, List.take_left]

/-- Behind bytes that are passed reading still is inside. -/
theorem passes (h : input.At bytes) (hp : input.Passes data after) : after.At bytes := by
  obtain ⟨hrest, hoffset⟩ := hp
  have hlength := h.length_rest
  rw [hrest, List.length_append] at hlength
  refine ⟨by omega, ?_⟩
  rw [hoffset, ← List.drop_drop, ← h.rest, hrest, List.drop_left]

/-- A word that is passed is the one at the place. -/
theorem wordAt?_eq (h : input.At bytes) {word : UInt32}
    (hp : input.Passes (bigEndian 4 word.toNat) after) :
    wordAt? bytes input.offset = some word := by
  have htake := h.take_eq hp
  have hlength := (h.passes hp).inside
  rw [hp.2] at hlength
  rw [length_bigEndian] at htake hlength
  have hword : word.toNat % Nat.pow 256 4 = word.toNat := Nat.mod_eq_of_lt word.toNat_lt
  rw [wordAt?, if_pos hlength, htake, ofBigEndian_bigEndian, hword, UInt32.ofNat_toNat]

end Input.At

/-! ## Steps -/

namespace Decoder

variable {α β : Type} {accepted : List UInt8 → Prop} {whole : List UInt8} {limits : Limits}
  {input after : Input}

/-- At a multiple of four, the errors of the decoder describe the bytes, and where it succeeds it
stops at a multiple of four. -/
def Faithful (accepted : List UInt8 → Prop) (whole : List UInt8) (d : Decoder α) : Prop :=
  ∀ limits input, input.At whole → 4 ∣ input.offset →
    (∀ e, d limits input = .error e → e.Describes accepted whole) ∧
      ∀ a after, d limits input = .ok (a, after) → after.At whole ∧ 4 ∣ after.offset

/-- Bytes that are missing are missing at the end. -/
theorem describes_of_take {n : Nat} {e : Error} (h : input.At whole)
    (he : take n limits input = .error e) : e.Describes accepted whole := by
  obtain ⟨hlt, rfl⟩ := take_eq_error_iff.1 he
  exact ⟨h.length_rest, hlt⟩

/-- A number is short only when its bytes are. -/
theorem describes_of_number {n : Nat} {e : Error} (h : input.At whole)
    (he : number n limits input = .error e) : e.Describes accepted whole :=
  describes_of_take h (map_eq_error_iff.1 he)

/-- The same for a word. -/
theorem describes_of_uint32 {e : Error} (h : input.At whole)
    (he : uint32 limits input = .error e) : e.Describes accepted whole :=
  describes_of_number h (map_eq_error_iff.1 he)

/-- The same for a number with a sign. -/
theorem describes_of_int32 {e : Error} (h : input.At whole)
    (he : int32 limits input = .error e) : e.Describes accepted whole :=
  describes_of_uint32 h (map_eq_error_iff.1 he)

/-- A word is read from the place, and reading goes on four bytes behind it. -/
theorem at_of_uint32 {word : UInt32} (h : input.At whole)
    (hw : uint32 limits input = .ok (word, after)) :
    wordAt? whole input.offset = some word ∧ after.At whole ∧ after.offset = input.offset + 4 := by
  have hp := uint32_eq_ok_iff.1 hw
  exact ⟨h.wordAt?_eq hp, h.passes hp, hp.2.trans (by rw [length_bigEndian])⟩

/-- A number with a sign is read from the same word. -/
theorem at_of_int32 {value : Int32} (h : input.At whole)
    (hv : int32 limits input = .ok (value, after)) :
    wordAt? whole input.offset = some value.toUInt32 ∧ after.At whole ∧
      after.offset = input.offset + 4 := by
  have hp := int32_eq_ok_iff.1 hv
  exact ⟨h.wordAt?_eq hp, h.passes hp, hp.2.trans (by rw [length_bigEndian])⟩

namespace Faithful

/-- A value that is there already reports nothing. -/
theorem pure (a : α) : Faithful accepted whole (Pure.pure a) := by
  intro limits input h hfour
  refine ⟨nofun, fun b after hb => ?_⟩
  obtain ⟨_, rfl⟩ := pure_eq_ok_iff.1 hb
  exact ⟨h, hfour⟩

/-- An error of the first step is true by itself; an error of the second one is, because the first
one has stopped at a multiple of four. -/
theorem bind {d : Decoder α} {k : α → Decoder β} (hd : Faithful accepted whole d)
    (hk : ∀ a, Faithful accepted whole (k a)) : Faithful accepted whole (d >>= k) := by
  intro limits input h hfour
  obtain ⟨herror, hok⟩ := hd limits input h hfour
  refine ⟨fun e he => ?_, fun b after hb => ?_⟩
  · rcases bind_eq_error_iff.1 he with he | ⟨a, mid, ha, he⟩
    · exact herror e he
    · obtain ⟨hmid, hfour'⟩ := hok a mid ha
      exact (hk a limits mid hmid hfour').1 e he
  · obtain ⟨a, mid, ha, hb⟩ := bind_eq_ok_iff.1 hb
    obtain ⟨hmid, hfour'⟩ := hok a mid ha
    exact (hk a limits mid hmid hfour').2 b after hb

/-! ## Operations -/

/-- A word keeps reading at multiples of four. -/
theorem uint32 : Faithful accepted whole uint32 := by
  intro limits input h hfour
  refine ⟨fun e he => describes_of_uint32 h he, fun word after hw => ?_⟩
  obtain ⟨_, hafter, hoffset⟩ := at_of_uint32 h hw
  exact ⟨hafter, by omega⟩

/-- So does a long word. -/
theorem uint64 : Faithful accepted whole uint64 := by
  intro limits input h hfour
  refine ⟨fun e he => describes_of_number h (map_eq_error_iff.1 he), fun word after hw => ?_⟩
  have hp := uint64_eq_ok_iff.1 hw
  have hoffset := hp.2
  rw [length_bigEndian] at hoffset
  exact ⟨h.passes hp, by omega⟩

/-- The offset is that in front of the word, and the word is neither 0 nor 1. -/
theorem bool : Faithful accepted whole bool := by
  intro limits input h hfour
  refine ⟨fun e he => ?_, fun flag after hf => ?_⟩
  · rw [Decoder.bool, offset_bind] at he
    rcases bind_eq_error_iff.1 he with he | ⟨value, mid, hv, he⟩
    · exact describes_of_int32 h he
    · obtain ⟨hword, _⟩ := at_of_int32 h hv
      split at he
      · cases he
      · split at he
        · cases he
        · cases he
          exact ⟨hword, by assumption, by assumption⟩
  · have hp := bool_eq_ok_iff.1 hf
    have hoffset := hp.2
    rw [length_bigEndian] at hoffset
    exact ⟨h.passes hp, by omega⟩

end Faithful

/-- Padding that is not zero starts where the data ends, so it ends at the next multiple of four. -/
theorem describes_of_padding {n : Nat} {e : Error} (h : input.At whole)
    (hfour : 4 ∣ input.offset + padLength n) (he : padding n limits input = .error e) :
    e.Describes accepted whole := by
  rw [padding, offset_bind] at he
  rcases bind_eq_error_iff.1 he with he | ⟨zeros, mid, hz, he⟩
  · exact describes_of_take h he
  · have hp := take_eq_ok_iff.1 hz
    split at he
    · next hany =>
      cases he
      obtain ⟨byte, hbyte, hne⟩ := List.any_eq_true.1 hany
      obtain ⟨k, hk, rfl⟩ := List.getElem_of_mem hbyte
      have hlength := zeros.length_eq
      have hpad : padLength input.offset = padLength n := by
        have := padLength_lt n
        unfold padLength at *
        omega
      refine ⟨input.offset + k, zeros.toList[k], Nat.le_add_right _ _, by omega, ?_, ?_⟩
      · have hrest : (zeros.toList ++ mid.rest)[k]? = zeros.toList[k]? :=
          List.getElem?_append_left hk
        rw [← hp.1, h.rest, List.getElem?_drop, List.getElem?_eq_getElem hk] at hrest
        exact hrest
      · exact of_decide_eq_true hne
    · cases he

namespace Faithful

/-- Data and its padding end at a multiple of four again. -/
theorem fixed (n : Nat) : Faithful accepted whole (fixed n) := by
  intro limits input h hfour
  refine ⟨fun e he => ?_, fun data after hd => ?_⟩
  · rcases bind_eq_error_iff.1 he with he | ⟨data, mid, hd, he⟩
    · exact describes_of_take h he
    · have hp := take_eq_ok_iff.1 hd
      rcases bind_eq_error_iff.1 he with he | ⟨_, after, _, he⟩
      · have hoffset := hp.2
        rw [data.length_eq] at hoffset
        have hpad := add_padLength_mod n
        exact describes_of_padding (h.passes hp) (by omega) he
      · cases he
  · have hp := fixed_eq_ok_iff.1 hd
    have hoffset := hp.2
    have hmod := Encoding.length_padded_mod data.toList
    exact ⟨h.passes hp, by omega⟩

end Faithful

/-- A length that is read is the word at the place. -/
theorem at_of_length {max n : Nat} (h : input.At whole)
    (hn : length max limits input = .ok (n, after)) :
    (wordAt? whole input.offset).map UInt32.toNat = some n ∧ after.At whole ∧
      after.offset = input.offset + 4 := by
  rw [length, offset_bind] at hn
  obtain ⟨word, mid, hw, hk⟩ := bind_eq_ok_iff.1 hn
  obtain ⟨hword, hmid, hoffset⟩ := at_of_uint32 h hw
  split at hk
  · obtain ⟨_, _, hfail, _⟩ := bind_eq_ok_iff.1 hk
    exact absurd hfail fail_ne_ok
  · obtain ⟨rfl, rfl⟩ := pure_eq_ok_iff.1 hk
    exact ⟨congrArg (Option.map UInt32.toNat) hword, hmid, hoffset⟩

/-- Data that is read stands behind its length. -/
theorem at_of_bytes {max : Nat} {data : List UInt8} (h : input.At whole)
    (hd : Decoder.bytes max limits input = .ok (data, after)) :
    (wordAt? whole input.offset).map UInt32.toNat = some data.length ∧
      input.offset + 4 + data.length ≤ whole.length ∧
      (whole.drop (input.offset + 4)).take data.length = data := by
  obtain ⟨n, mid, hn, hk⟩ := bind_eq_ok_iff.1 hd
  obtain ⟨octets, _, ho, hr⟩ := bind_eq_ok_iff.1 hk
  obtain ⟨rfl, rfl⟩ := pure_eq_ok_iff.1 hr
  obtain ⟨hword, hmid, hoffset⟩ := at_of_length h hn
  obtain ⟨next, hp, _⟩ := Input.passes_append_iff.1 (fixed_eq_ok_iff.1 ho)
  have hinside := (hmid.passes hp).inside
  rw [hp.2] at hinside
  rw [octets.length_eq]
  refine ⟨hword, ?_, ?_⟩
  · have := octets.length_eq
    omega
  · have htake := hmid.take_eq hp
    rwa [octets.length_eq, hoffset] at htake

namespace Faithful

/-- The offset is that in front of the length, which is above its maximum. -/
theorem length (max : Nat) : Faithful accepted whole (length max) := by
  intro limits input h hfour
  refine ⟨fun e he => ?_, fun n after hn => ?_⟩
  · rw [Decoder.length, offset_bind] at he
    rcases bind_eq_error_iff.1 he with he | ⟨word, mid, hw, he⟩
    · exact describes_of_uint32 h he
    · obtain ⟨hword, _⟩ := at_of_uint32 h hw
      split at he
      · next hlt =>
        rcases bind_eq_error_iff.1 he with he | ⟨_, _, hfail, _⟩
        · cases he
          exact ⟨congrArg (Option.map UInt32.toNat) hword, hlt⟩
        · exact absurd hfail fail_ne_ok
      · cases he
  · obtain ⟨_, hafter, hoffset⟩ := at_of_length h hn
    exact ⟨hafter, by omega⟩

/-- A byte string reports its length or its padding. -/
theorem bytes (max : Nat) : Faithful accepted whole (Decoder.bytes max) :=
  (length max).bind fun n => (fixed n).bind fun data => pure data.toList

/-- Data that is the UTF-8 of a string would have been read as that string. -/
theorem string (max : Nat) : Faithful accepted whole (string max) := by
  intro limits input h hfour
  have hbytes : Faithful accepted whole (Decoder.bytes max) := bytes max
  obtain ⟨herror, hok⟩ := hbytes limits input h hfour
  refine ⟨fun e he => ?_, fun s after hs => ?_⟩
  · rw [Decoder.string, offset_bind] at he
    rcases bind_eq_error_iff.1 he with he | ⟨data, mid, hd, he⟩
    · exact herror e he
    · obtain ⟨hword, hinside, htake⟩ := at_of_bytes h hd
      obtain ⟨word, hword, hlength⟩ := Option.map_eq_some_iff.1 hword
      cases ht : String.fromUTF8? ⟨data.toArray⟩ with
      | some s =>
        rw [ht] at he
        cases he
      | none =>
        rw [ht] at he
        cases he
        refine ⟨word, hword, by omega, fun s hs => ?_⟩
        rw [hlength, htake] at hs
        rw [fromUTF8?_eq_some_iff.2 hs] at ht
        cases ht
  · rw [Decoder.string, offset_bind] at hs
    obtain ⟨data, mid, hd, hk⟩ := bind_eq_ok_iff.1 hs
    cases ht : String.fromUTF8? ⟨data.toArray⟩ with
    | none =>
      rw [ht] at hk
      exact absurd hk fail_ne_ok
    | some t =>
      rw [ht] at hk
      obtain ⟨_, rfl⟩ := pure_eq_ok_iff.1 hk
      exact hok data mid hd

/-- The check says how many bytes were needed, and how many are left. -/
theorem checkCount (n : Nat) : Faithful accepted whole (checkCount n) := by
  intro limits input h hfour
  refine ⟨fun e he => ?_, fun _ after hc => ?_⟩
  · obtain ⟨hlt, rfl⟩ := checkCount_eq_error_imp he
    exact ⟨h.length_rest, hlt⟩
  · obtain ⟨rfl, _⟩ := checkCount_eq_ok_iff.1 hc
    exact ⟨h, hfour⟩

/-- A count reports like a length, or for what is left. -/
theorem count (max : Nat) : Faithful accepted whole (count max) :=
  (length max).bind fun n => (checkCount n).bind fun _ => pure n

/-- Each item starts at a multiple of four, where the one before it stopped. -/
theorem replicate {item : Decoder α} (h : Faithful accepted whole item) (n : Nat) :
    Faithful accepted whole (replicate n item) := by
  induction n with
  | zero => exact pure []
  | succ n ih => exact h.bind fun a => ih.bind fun rest => pure (a :: rest)

/-- An array reports its number of items or one of the items. -/
theorem array {item : Decoder α} (h : Faithful accepted whole item) (max : Nat) :
    Faithful accepted whole (array max item) :=
  (count max).bind h.replicate

/-- The discriminant of no arm was read from the four bytes before the cursor. -/
theorem select {union : String} {known : Int32 → Bool} {next : Int32 → Decoder α}
    (h : ∀ code, Faithful accepted whole (next code)) :
    Faithful accepted whole
      (int32 >>= fun code => if known code then next code else unknown union code) := by
  intro limits input hat hfour
  refine ⟨fun e he => ?_, fun a after ha => ?_⟩
  · rcases bind_eq_error_iff.1 he with he | ⟨code, mid, hcode, he⟩
    · exact describes_of_int32 hat he
    · obtain ⟨hword, hmid, hoffset⟩ := at_of_int32 hat hcode
      split at he
      · exact (h code limits mid hmid (by omega)).1 e he
      · cases he
        show wordAt? whole (mid.offset - 4) = _
        rwa [hoffset, Nat.add_sub_cancel]
  · obtain ⟨code, mid, hcode, hk⟩ := bind_eq_ok_iff.1 ha
    obtain ⟨_, hmid, hoffset⟩ := at_of_int32 hat hcode
    split at hk
    · exact (h code limits mid hmid (by omega)).2 a after hk
    · exact absurd hk fail_ne_ok

/-- The error for the depth names no place, only the limit. -/
theorem tooDeep : Faithful accepted whole (fail fun _ => .depth maxLevels : Decoder α) := by
  intro limits input _ _
  refine ⟨fun e he => ?_, fun a after ha => absurd ha fail_ne_ok⟩
  cases he
  rfl

/-- To go deeper reports the depth, or what is reported inside. -/
theorem deeper {d : Decoder α} (h : Faithful accepted whole d) :
    Faithful accepted whole d.deeper := by
  rintro ⟨levels, ahead⟩ input hat hfour
  cases levels with
  | zero => exact tooDeep ⟨0, ahead⟩ input hat hfour
  | succ levels => exact h ⟨levels, ahead⟩ input hat hfour

end Faithful

end Decoder

/-- The errors of every program describe the bytes. -/
theorem Program.faithful {α : Type} (p : Program α) (accepted : List UInt8 → Prop)
    (bytes : List UInt8) : p.decode.Faithful accepted bytes := by
  induction p with
  | pure a => exact .pure a
  | bind _ _ ih ih' => exact .bind ih ih'
  | uint32 => exact .uint32
  | uint64 => exact .uint64
  | bool => exact .bool
  | fixed n => exact .fixed n
  | bytes max => exact .bytes max
  | string max => exact .string max
  | array max _ ih => exact .array ih max
  | select _ _ _ ih => exact .select ih
  | nested _ ih => exact .deeper ih
  | tooDeep => exact .tooDeep

end StellarTx.Xdr

namespace StellarTx.WireType

open Xdr (Decoder Input Program)

/-- Bytes that are read as a whole. -/
def Accepts (t : WireType) (bytes : List UInt8) : Prop := ∃ v, t.format.ofBytes bytes = .ok v

/-- A byte string as a whole is described by the error of its value, or by what is left behind a
value that is accepted. -/
theorem describes_of_ofBytes {t : WireType} {bytes : List UInt8} {e : Xdr.Error}
    (h : t.format.ofBytes bytes = .error e) : e.Describes t.Accepts bytes := by
  obtain ⟨p, hp⟩ := t.exists_reads
  obtain ⟨herror, hok⟩ := p.faithful t.Accepts bytes .start ⟨0, bytes⟩ (.start bytes) ⟨0, rfl⟩
  rw [hp .start ⟨0, bytes⟩ (Nat.le_refl _)] at herror hok
  cases hd : t.format.decode .start ⟨0, bytes⟩ with
  | error _ =>
    rw [Format.ofBytes, Decoder.run_of_error hd] at h
    cases h
    exact herror e hd
  | ok r =>
    obtain ⟨v, offset, rest⟩ := r
    have hat := (hok v _ hd).1
    cases rest with
    | nil =>
      rw [Format.ofBytes, Decoder.run_eq_ok_iff.2 ⟨offset, hd⟩] at h
      cases h
    | cons byte rest =>
      rw [Format.ofBytes, Decoder.run_of_rest hd (List.cons_ne_nil _ _)] at h
      cases h
      refine ⟨hat.length_rest, Nat.succ_pos _, v, ?_⟩
      -- The bytes in front of the rest are those of the value.
      obtain ⟨hl, data, hdata, hp⟩ := (t.exact .start v _ _).1 hd
      have hfront : bytes.take offset = data := by
        have hoffset : offset = 0 + data.length := hp.2
        rw [hoffset, Nat.zero_add]
        exact (Input.At.start bytes).take_eq hp
      rw [hfront]
      exact ofBytes_of_encode hl hdata

/-- What is wrong with bytes is what the error says, at an offset inside them; and a reader that
reads a wire type with a cursor, whatever its program, never slices outside the bytes or goes below
zero, and comes to the same result. -/
theorem ofBytes_error_describes (t : WireType) :
    (∀ bytes e, t.format.ofBytes bytes = .error e →
      e.Describes t.Accepts bytes ∧ ∀ offset, e.offset? = some offset → offset ≤ bytes.length) ∧
    (∃ p : Program t.Carrier, p.Reads t.format) ∧
    ∀ p : Program t.Carrier, p.Reads t.format →
      ∀ bytes, ∃ c, p.run bytes = some (t.format.ofBytes bytes, c) := by
  refine ⟨fun bytes e h => ?_, t.exists_reads, fun p hp bytes => ?_⟩
  · have hdescribes := describes_of_ofBytes h
    exact ⟨hdescribes, fun offset ho => hdescribes.offset_le ho⟩
  · obtain ⟨c, hrun, _⟩ := p.run_eq bytes
    rw [hp.run_eq] at hrun
    exact ⟨c, hrun⟩

/-- The number 2 is no flag. -/
theorem ofBytes_error_describes_flag :
    bool.format.ofBytes [0, 0, 0, 2] = .error (.boolean 0 2) ∧
      (Xdr.wordAt? [0, 0, 0, 2] 0 = some (2 : Int32).toUInt32 ∧ (2 : Int32) ≠ 0 ∧ (2 : Int32) ≠ 1) ∧
      0 ≤ [0, 0, 0, 2].length ∧
      ∃ c, Program.bool.run [0, 0, 0, 2] = some (.error (.boolean 0 2), c) := by
  have h : bool.format.ofBytes [0, 0, 0, 2] = .error (.boolean 0 2) := rfl
  obtain ⟨hdescribes, _, hrun⟩ := ofBytes_error_describes bool
  obtain ⟨hpoint, hinside⟩ := hdescribes _ _ h
  have hreads : Program.bool.Reads bool.format := .refl _
  exact ⟨h, hpoint, hinside 0 rfl, hrun .bool hreads [0, 0, 0, 2]⟩

end StellarTx.WireType
