/-
# What is read from text has bytes

Whatever the reader of text accepts, from any source, keeps within every maximum of the format and
within the levels that the reader was given: `Regular.checked`.  An envelope from a text therefore
has bytes, and both its bytes and its text read back.
-/
import StellarTx.Proofs.Format.Parts
import StellarTx.Proofs.Format.Writable
import StellarTx.Proofs.TxRep.Fields
import StellarTx.Proofs.TxRep.RoundTrip
import StellarTx.Proofs.Xdr.RoundTrip

namespace StellarTx

open Xdr (Encoding)
open TxRep (Source)

namespace Format

variable {α β : Type} {n : Nat} {F : Places} {f : Format α} {g : Format β}

/-- What is read with at most `n` levels has bytes, and no more levels than were given. -/
def Checked (n : Nat) (f : Format α) : Prop :=
  ∀ source levels path a, levels ≤ n → f.read source levels path = .ok a →
    (∃ bytes, f.encode a = .ok bytes) ∧ f.level a ≤ levels

namespace Checked

/-- Values without levels need only have bytes. -/
theorem of_flat (hl : ∀ a, f.level a = 0)
    (h : ∀ source levels path a, f.read source levels path = .ok a →
      ∃ bytes, f.encode a = .ok bytes) : Checked n f := by
  intro source levels path a _ hr
  refine ⟨h source levels path a hr, ?_⟩
  rw [hl a]
  exact Nat.zero_le levels

/-- What is read as a byte string is within the maximum that bytes have. -/
theorem bytes {max : Nat} (small : max < UInt32.size) : Checked n (bytes max) := by
  refine .of_flat (fun _ => rfl) fun source levels path data hr => ?_
  obtain ⟨text, _, ht⟩ := Source.value_eq_ok_iff.1 hr
  have hle := of_decide_eq_true (Option.filter_eq_some_iff.1 ht).2
  exact ⟨_, (Encoding.bytes_eq_ok_iff small).2 ⟨hle, rfl⟩⟩

/-- The maximum of a text is one of bytes in UTF-8, in both forms. -/
theorem string {max : Nat} (small : max < UInt32.size) : Checked n (string max) := by
  refine .of_flat (fun _ => rfl) fun source levels path s hr => ?_
  obtain ⟨text, _, ht⟩ := Source.value_eq_ok_iff.1 hr
  have hle := of_decide_eq_true (Option.filter_eq_some_iff.1 ht).2
  exact ⟨_, (Encoding.bytes_eq_ok_iff small).2 ⟨hle, rfl⟩⟩

/-- Both parts were read with the levels given, so neither has more. -/
theorem and (h : Checked n f) (k : Checked n g) : Checked n (f.and g) := by
  rintro source levels path ⟨a, b⟩ hn hr
  obtain ⟨ha, hb⟩ := read_and_eq_ok_iff.1 hr
  obtain ⟨⟨first, h1⟩, hl1⟩ := h source levels path a hn ha
  obtain ⟨⟨second, h2⟩, hl2⟩ := k source levels path b hn hb
  exact ⟨⟨_, Encoding.append_of_ok h1 h2⟩, Nat.max_le.2 ⟨hl1, hl2⟩⟩

/-- A value that is absent has bytes and no levels. -/
theorem option (h : Checked n f) : Checked n (option f) := by
  rintro source levels path (_ | a) hn hr
  · exact ⟨⟨_, rfl⟩, Nat.zero_le levels⟩
  · have ha := (read_option_eq_ok_iff.1 hr).2 a rfl
    obtain ⟨⟨bytes, hb⟩, hl⟩ := h source levels path a hn ha
    exact ⟨⟨_, Encoding.append_of_ok rfl hb⟩, hl⟩

/-- The length and each item were checked by the reader. -/
theorem array {max : Nat} (h : Checked n f) (small : max < UInt32.size) :
    Checked n (array max f) := by
  intro source levels path items hn hr
  obtain ⟨hlength, hitems⟩ := read_array_eq_ok_iff.1 hr
  have hitem (a : α) (ha : a ∈ items) : f.Writable a ∧ f.level a ≤ levels := by
    obtain ⟨j, hj⟩ := List.mem_iff_getElem?.1 ha
    exact h source levels _ a hn (hitems j a hj)
  -- The reader of text has checked the number of items against the same maximum.
  have hle := (Source.length_eq_ok_iff.1 hlength).2
  exact ⟨(writable_array_iff small).2 ⟨hle, fun a ha => (hitem a ha).1⟩,
    maxLevel_le_iff.2 fun a ha => (hitem a ha).2⟩

/-- The label names an arm, whose value was read. -/
theorem union {arms : List (Arm α)} (sound : Arm.Sound arms)
    (h : ∀ arm ∈ arms, Checked n arm.format) (name : String) : Checked n (union name arms) := by
  intro source levels path a hn hr
  obtain ⟨arm, hf, _, p, hp, rfl⟩ := read_union_eq_ok_iff.1 hr
  have ha := List.mem_of_find?_eq_some hf
  obtain ⟨⟨bytes, hb⟩, hl⟩ := h arm ha source levels path p hn hp
  rw [sound.encode_make ha, sound.level_make ha]
  exact ⟨⟨_, Encoding.append_of_ok rfl hb⟩, hl⟩

/-- Shares were read with their pool; assets have no levels and always bytes. -/
theorem assetOrShare {π : Type} {pool : Format π} (h : Checked n pool) (name : String) :
    Checked n (AssetOrShare.format name pool) := by
  intro source levels path a hn hr
  rcases AssetOrShare.read_eq_ok_iff.1 hr with ⟨_, _, s, hs, rfl⟩ | ⟨_, asset, _, rfl⟩
  · obtain ⟨⟨bytes, hb⟩, hl⟩ := h source levels path s hn hs
    exact ⟨⟨_, Encoding.append_of_ok rfl hb⟩, hl⟩
  · rw [AssetOrShare.level_asset]
    exact ⟨AssetOrShare.total_asset name pool asset, Nat.zero_le levels⟩

end Checked

/-- Whatever is read from text has bytes and is not too deep. -/
theorem Regular.checked (h : Regular n F f) : Checked n f := by
  induction h with
  | unit => exact .of_flat (fun _ => rfl) fun _ _ _ _ _ => ⟨_, rfl⟩
  | scalar h =>
    exact .of_flat (fun a => (h.exists_line a).2.1) fun _ _ _ a _ => (h.exists_line a).1
  | octets k => exact .of_flat (fun _ => rfl) fun _ _ _ _ _ => ⟨_, rfl⟩
  | bytes small => exact .bytes small
  | string small => exact .string small
  | extension name => exact .of_flat (fun _ => rfl) fun _ _ _ _ _ => ⟨_, rfl⟩
  | field name _ _ ih => exact fun source levels path => ih source levels _
  | and _ _ _ ih ih' => exact ih.and ih'
  | map _ ih =>
    exact fun source levels path b hn hr => ih source levels path _ hn (read_map_eq_ok_iff.1 hr)
  | option _ _ ih => exact ih.option
  | array _ _ small ih => exact ih.array small
  | @deeper n F α f _ ih =>
    intro source levels path a hn hr
    obtain ⟨m, rfl, hr⟩ := read_deeper_eq_ok_iff.1 hr
    obtain ⟨hb, hl⟩ := ih (n - 1) (by omega) source m path a (by omega) hr
    exact ⟨hb, Nat.succ_le_succ hl⟩
  | token _ fits _ _ =>
    refine .of_flat fits.level fun source levels path a hr => ?_
    obtain ⟨text, _, ht⟩ := Source.value_eq_ok_iff.1 hr
    exact fits.valid text a ht
  | union name sound _ _ _ ih => exact .union sound ih name
  | assetOrShare name _ _ _ _ _ _ _ _ ih => exact ih.assetOrShare name
  | widen _ _ ih => exact ih

end Format

namespace Envelope

/-- What a text stands for is a valid envelope: it has bytes, these are read as the same envelope,
and so is the text that is written for it.  Every maximum of the format in bytes is thus one of the
text as well, and the limit on levels is stricter in text. -/
theorem ofText_valid (text : String) (env : Envelope) (h : ofText text = .ok env) :
    ∃ bytes, format.toBytes env = .ok bytes ∧ format.ofBytes bytes = .ok env ∧
      ofText env.toText = .ok env := by
  obtain ⟨source, _, hread⟩ := Except.bind_eq_ok_iff.1 h
  obtain ⟨⟨bytes, hb⟩, hl⟩ :=
    Format.Regular.checked (Envelope.outlined rfl) source _ "" env (Nat.le_refl 64) hread
  have hbytes := Format.toBytes_eq_ok_iff.2 hb
  have hl : format.level env ≤ 64 := hl
  refine ⟨bytes, hbytes, ?_, ?_⟩
  · have hlevel : WireType.envelope.format.level env ≤ 256 := Nat.le_trans hl (by decide)
    exact WireType.ofBytes_of_encode hlevel hb
  · have hspec := Format.Regular.toText_spec (fun n => Envelope.outlined rfl) cleanAt_root env
    exact hspec.1 bytes hbytes hl

/-- A text of `idle` in another order than it would be written, with a blank line, an indented line
and a comment. -/
def idleText : String :=
  "signatures.len: 0\ntype: ENVELOPE_TYPE_TX_V0\n\n  tx.fee: 100 (the least)\n" ++
  "tx.sourceAccountEd25519: GAAAAAAAAAAAAAAAAAAAAAAAAAAAAAAAAAAAAAAAAAAAAAAAAAAAAWHF\n" ++
  "tx.seqNum: 1\ntx.timeBounds._present: false\ntx.memo.type: MEMO_NONE\n" ++
  "tx.operations.len: 0\ntx.ext.v: 0\n"

/-- An edited text, and what follows from its being read. -/
theorem ofText_valid_idle :
    ofText idleText = .ok idle ∧
    ∃ bytes, format.toBytes idle = .ok bytes ∧ format.ofBytes bytes = .ok idle ∧
      ofText idle.toText = .ok idle := by
  have hread : (ofText idleText).toOption = some idle := by decide +kernel
  have h := Except.toOption_eq_some_iff.1 hread
  exact ⟨h, ofText_valid idleText idle h⟩

end Envelope

end StellarTx
