/-
# Bytes that are cut off

A decoder that succeeds does the same on fewer bytes, or it runs into their end and says so: with
what it needed, what was left, and where.  This holds of every step and is kept from step to step,
so a value whose bytes are cut anywhere is refused for the end of the data and for nothing else.
-/
import StellarTx.Proofs.Xdr.Canonical
import StellarTx.Proofs.Xdr.Program

namespace StellarTx

namespace Xdr.Decoder

variable {α β : Type}

/-- The decoder fails for the end of the data, and what it found left reaches up to that end. -/
def RunsOut (d : Decoder α) (limits : Limits) (input : Input) : Prop :=
  ∃ offset needed available,
    d limits input = .error (.unexpectedEnd offset needed available) ∧
      offset + available = input.offset + input.rest.length ∧ available < needed

/-- The decoder does the same before the cut. -/
def ReadsBefore (d : Decoder α) (limits : Limits) (offset : Nat) (front back : List UInt8) (a : α)
    (after : Input) : Prop :=
  ∃ rest, after.rest = rest ++ back ∧ after.offset + rest.length = offset + front.length ∧
    d limits ⟨offset, front⟩ = .ok (a, ⟨after.offset, rest⟩)

/-- On the front of bytes from which it reads a value, the decoder reads the same, or runs out. -/
def Cuttable (d : Decoder α) : Prop :=
  ∀ limits offset front back a after, d limits ⟨offset, front ++ back⟩ = .ok (a, after) →
    d.ReadsBefore limits offset front back a after ∨ d.RunsOut limits ⟨offset, front⟩

namespace Cuttable

/-! ## Steps -/

/-- A value that is there already is not cut off. -/
theorem pure (a : α) : Cuttable (Pure.pure a) := by
  intro limits offset front back b after h
  obtain ⟨rfl, rfl⟩ := pure_eq_ok_iff.1 h
  exact .inl ⟨front, rfl, rfl, rfl⟩

/-- The first step either ends before the cut, which then is a cut of the second one, or runs out,
and then so does the whole. -/
theorem bind {d : Decoder α} {k : α → Decoder β} (hd : Cuttable d) (hk : ∀ a, Cuttable (k a)) :
    Cuttable (d >>= k) := by
  intro limits offset front back b after h
  obtain ⟨a, ⟨middle, left⟩, ha, hb⟩ := bind_eq_ok_iff.1 h
  rcases hd limits offset front back a _ ha with ⟨rest, rfl, hmiddle, hread⟩ | hout
  · -- The first step ends before the cut, and the next one starts there.
    have hmiddle : middle + rest.length = offset + front.length := hmiddle
    rcases hk a limits middle rest back b after hb with ⟨rest', hrest', hlength, hread'⟩ | hout
    · refine .inl ⟨rest', hrest', by omega, ?_⟩
      rw [bind_of_ok hread]
      exact hread'
    · obtain ⟨o, needed, available, herror, hend, hlt⟩ := hout
      have hend : o + available = middle + rest.length := hend
      refine .inr ⟨o, needed, available, ?_, ?_, hlt⟩
      · rw [bind_of_ok hread]
        exact herror
      · show o + available = offset + front.length
        omega
  · obtain ⟨o, needed, available, herror, hend⟩ := hout
    exact .inr ⟨o, needed, available, bind_of_error herror, hend⟩

/-- What is made of a value does not matter. -/
theorem map {d : Decoder α} (g : α → β) (h : Cuttable d) : Cuttable (g <$> d) :=
  h.bind fun a => pure (g a)

/-- A decoder that always fails reads no value that could be cut off. -/
theorem fail (error : Input → Error) : Cuttable (fail error : Decoder α) := by
  intro limits offset front back a after h
  exact absurd h fail_ne_ok

/-- The offset does not depend on what is left. -/
theorem offset : Cuttable offset := by
  rintro limits o front back a after ⟨⟩
  exact .inl ⟨front, rfl, rfl, rfl⟩

/-- Either all bytes stand before the cut, or too few of them do. -/
theorem take (n : Nat) : Cuttable (take n) := by
  intro limits o front back a after h
  obtain ⟨hrest, hoffset⟩ := take_eq_ok_iff.1 h
  have ha := a.length_eq
  by_cases hn : n ≤ front.length
  · -- The bytes are all before the cut.
    have hfront : front = a.toList ++ front.drop n := by
      have htake : (front ++ back).take n = a.toList := by
        rw [show front ++ back = a.toList ++ after.rest from hrest]
        exact List.take_left' ha
      rw [List.take_append_of_le_length hn] at htake
      rw [← htake, List.take_append_drop]
    have hrest' : after.rest = front.drop n ++ back := by
      rw [hfront, List.append_assoc] at hrest
      exact (List.append_cancel_left hrest).symm
    have hlength := congrArg List.length hfront
    rw [List.length_append] at hlength
    refine .inl ⟨front.drop n, hrest', ?_, take_eq_ok_iff.2 ⟨hfront, hoffset⟩⟩
    have hoffset : after.offset = o + a.toList.length := hoffset
    omega
  · exact .inr ⟨o, n, front.length, take_of_length_lt (Nat.lt_of_not_le hn), rfl,
      Nat.lt_of_not_le hn⟩

/-- A count that is too great for what is left before the cut runs out there. -/
theorem checkCount (n : Nat) : Cuttable (checkCount n) := by
  intro limits o front back a after h
  obtain ⟨rfl, _⟩ := checkCount_eq_ok_iff.1 h
  by_cases hn : limits.countAhead = true → 4 * n ≤ front.length
  · exact .inl ⟨front, rfl, rfl, checkCount_eq_ok_iff.2 ⟨rfl, hn⟩⟩
  · obtain ⟨hahead, hlt⟩ := Classical.not_imp.1 hn
    have hlt := Nat.lt_of_not_le hlt
    exact .inr ⟨o, 4 * n, front.length, checkCount_of_length_lt hahead hlt, rfl, hlt⟩

/-- A test whose outcome does not depend on what is left. -/
theorem ite {c : Prop} [Decidable c] {d e : Decoder α} (hd : Cuttable d) (he : Cuttable e) :
    Cuttable (if c then d else e) := by
  split
  · exact hd
  · exact he

/-! ## Operations -/

theorem number (n : Nat) : Cuttable (number n) := (take n).map _

theorem uint32 : Cuttable uint32 := (number 4).map _

theorem uint64 : Cuttable uint64 := (number 8).map _

theorem int32 : Cuttable int32 := uint32.map _

theorem bool : Cuttable bool :=
  offset.bind fun _ => int32.bind fun _ => (pure false).ite ((pure true).ite (fail _))

theorem padding (n : Nat) : Cuttable (padding n) :=
  offset.bind fun _ => (take _).bind fun _ => (fail _).ite (pure ())

theorem fixed (n : Nat) : Cuttable (fixed n) :=
  (take n).bind fun data => (padding n).bind fun _ => pure data

/-- What is refused for its length would not have been read from the whole bytes either. -/
theorem length (max : Nat) : Cuttable (length max) :=
  offset.bind fun _ => uint32.bind fun n => ((fail _).bind fun _ => pure n.toNat).ite (pure n.toNat)

theorem bytes (max : Nat) : Cuttable (bytes max) :=
  (length max).bind fun n => (fixed n).bind fun data => pure data.toList

/-- A text that is cut off fails as a byte string, so that it is never looked at as UTF-8. -/
theorem string (max : Nat) : Cuttable (string max) := by
  refine offset.bind fun _ => (bytes max).bind fun data => ?_
  cases String.fromUTF8? ⟨data.toArray⟩ with
  | some s => exact pure s
  | none => exact fail _

/-- With fewer bytes the check of the count can fail where it passed before, and then runs out. -/
theorem count (max : Nat) : Cuttable (count max) :=
  (length max).bind fun n => (checkCount n).bind fun _ => pure n

/-- The induction is on the number of items. -/
theorem replicate {item : Decoder α} (h : Cuttable item) (n : Nat) :
    Cuttable (replicate n item) := by
  induction n with
  | zero => exact pure []
  | succ n ih => exact h.bind fun a => ih.bind fun rest => pure (a :: rest)

theorem array {item : Decoder α} (h : Cuttable item) (max : Nat) : Cuttable (array max item) :=
  (count max).bind fun n => h.replicate n

/-- The cut does not change how many levels are left. -/
theorem deeper {d : Decoder α} (h : Cuttable d) : Cuttable d.deeper := by
  rintro ⟨levels, ahead⟩ o front back a after hd
  cases levels with
  | zero => cases hd
  | succ levels => exact h ⟨levels, ahead⟩ o front back a after hd

end Cuttable

end Xdr.Decoder

/-- Every program reads the same from fewer bytes, or runs out of them. -/
theorem Xdr.Program.cuttable {α : Type} (p : Program α) : p.decode.Cuttable := by
  induction p with
  | pure a => exact .pure a
  | bind _ _ ih ih' => exact .bind ih ih'
  | uint32 => exact .uint32
  | uint64 => exact .uint64
  | bool => exact .bool
  | fixed n => exact .fixed n
  | bytes max => exact .bytes max
  | string max => exact .string max
  | array max _ ih => exact .array ih max
  | select union known next ih => exact .bind .int32 fun code => .ite (ih code) (.fail _)
  | nested _ ih => exact .deeper ih
  | tooDeep => exact .fail _

namespace WireType

open Xdr (Decoder Program)

/-- The bytes of a value that was read, cut off anywhere before their end, are refused for the end
of the data: with the bytes that are left there, which are fewer than those needed. -/
theorem ofBytes_of_cut (t : WireType) {input : List UInt8} {v : t.Carrier}
    (h : t.format.ofBytes input = .ok v) :
    ∃ bytes, t.format.toBytes v = .ok bytes ∧
      ∀ front, front <+: bytes → front ≠ bytes →
        ∃ offset needed available,
          t.format.ofBytes front = .error (.unexpectedEnd offset needed available) ∧
            offset + available = front.length ∧ available < needed := by
  refine ⟨input, toBytes_of_ofBytes h, ?_⟩
  rintro front ⟨back, rfl⟩ hne
  obtain ⟨p, hp⟩ := t.exists_reads
  rw [← hp.run_eq] at h
  obtain ⟨stop, hread⟩ := Decoder.run_eq_ok_iff.1 h
  rcases p.cuttable .start 0 front back v _ hread with ⟨rest, hrest, _⟩ | hout
  · -- All bytes are needed, so nothing was cut off.
    obtain ⟨_, rfl⟩ := List.append_eq_nil_iff.1 hrest.symm
    exact absurd (List.append_nil front).symm hne
  · obtain ⟨offset, needed, available, herror, hend, hlt⟩ := hout
    refine ⟨offset, needed, available, ?_, hend.trans (Nat.zero_add _), hlt⟩
    rw [← hp.run_eq]
    exact Decoder.run_of_error herror

/-- A memo of three letters, without the padding behind them. -/
theorem ofBytes_of_cut_memo :
    memo.format.ofBytes [0, 0, 0, 1, 0, 0, 0, 3, 97, 98, 99, 0] = .ok (Memo.text "abc") ∧
      ∃ offset needed available,
        memo.format.ofBytes [0, 0, 0, 1, 0, 0, 0, 3, 97, 98, 99] =
            .error (.unexpectedEnd offset needed available) ∧
          offset + available = 11 ∧ available < needed := by
  have h : memo.format.ofBytes [0, 0, 0, 1, 0, 0, 0, 3, 97, 98, 99, 0] =
      .ok (Memo.text "abc") := by rfl
  have hb : memo.format.toBytes (Memo.text "abc") =
      .ok [0, 0, 0, 1, 0, 0, 0, 3, 97, 98, 99, 0] := by rfl
  obtain ⟨bytes, hbytes, hcut⟩ := ofBytes_of_cut memo h
  obtain rfl := Except.ok.inj (hb.symm.trans hbytes)
  exact ⟨h, hcut [0, 0, 0, 1, 0, 0, 0, 3, 97, 98, 99] ⟨[0], rfl⟩ (by decide)⟩

end WireType

end StellarTx
