/-
# The texts of assets

The text of a code spells the bytes of the code, letter by letter and escape by escape, and a text
is read exactly if it spells one to twelve bytes (`AssetCode.ofText_eq_ok_iff`).  Nothing is lost on
the way from an asset to its text, which is one word without quotes: `Asset.text_lossless`.
-/
import StellarTx.Proofs.Asset

namespace StellarTx

namespace AssetCode

/-! ## Spelling -/

/-- The texts that spell bytes: an ASCII letter or digit spells its own byte, `\0` a zero, and `\x`
with two hexadecimal digits the byte with this value. -/
inductive Spells : List Char → List UInt8 → Prop where
  | nil : Spells [] []
  | plain {c : Char} {text : List Char} {bytes : List UInt8} (h : c.isAlphanum = true) :
      Spells text bytes → Spells (c :: text) (UInt8.ofNat c.toNat :: bytes)
  | zero {text : List Char} {bytes : List UInt8} :
      Spells text bytes → Spells ('\\' :: '0' :: text) (0 :: bytes)
  | hex {a b : Char} {high low : Nat} {text : List Char} {bytes : List UInt8}
      (ha : Text.Hex.digitValue? a = some high) (hb : Text.Hex.digitValue? b = some low) :
      Spells text bytes →
      Spells ('\\' :: 'x' :: a :: b :: text) (UInt8.ofNat (high * 16 + low) :: bytes)

theorem plainByte?_eq_some_iff {c : Char} {byte : UInt8} :
    plainByte? c = some byte ↔ c.isAlphanum = true ∧ UInt8.ofNat c.toNat = byte := by
  unfold plainByte?
  split
  · next h => exact Option.some_inj.trans (and_iff_right h).symm
  · next h => exact iff_of_false nofun fun hc => h hc.1

/-- The bytes of a spelling are read from it. -/
theorem unescape?_of_spells {text : List Char} {bytes : List UInt8} (h : Spells text bytes) :
    unescape? text = some bytes := by
  induction h with
  | nil => rfl
  | @plain c _ _ hc _ ih =>
    have hne : c ≠ '\\' := by
      rintro rfl
      cases hc
    rw [unescape?_plain hne, plainByte?_eq_some_iff.2 ⟨hc, rfl⟩, ih]
    rfl
  | zero _ ih =>
    rw [unescape?, ih]
    rfl
  | hex ha hb _ ih =>
    rw [unescape?, ha, hb, ih]
    rfl

/-- What is read from a text is what it spells. -/
theorem spells_of_unescape? {text : List Char} {bytes : List UInt8}
    (h : unescape? text = some bytes) : Spells text bytes := by
  induction text using unescape?.induct generalizing bytes with
  | case1 =>
    cases h
    exact .nil
  | case2 rest ih =>
    rw [unescape?] at h
    obtain ⟨more, hmore, rfl⟩ := Option.map_eq_some_iff.1 h
    exact .zero (ih hmore)
  | case3 a b rest high low hb ha ih =>
    rw [unescape?, ha, hb] at h
    obtain ⟨more, hmore, rfl⟩ := Option.map_eq_some_iff.1 h
    exact .hex ha hb (ih hmore)
  | case4 a b rest hnone =>
    -- One of the two is no digit, and nothing is read.
    rw [unescape?] at h
    split at h
    · next high low ha hb => exact absurd hb (hnone high low ha)
    · cases h
  | case5 c rest hzero hhex byte hc ih =>
    rw [unescape?, hc] at h
    · obtain ⟨more, hmore, rfl⟩ := Option.map_eq_some_iff.1 h
      obtain ⟨hal, rfl⟩ := plainByte?_eq_some_iff.1 hc
      exact .plain hal (ih hmore)
    · exact hzero
    · exact hhex
  | case6 c rest hzero hhex hc =>
    rw [unescape?, hc] at h
    · cases h
    · exact hzero
    · exact hhex

theorem unescape?_eq_some_iff {text : List Char} {bytes : List UInt8} :
    unescape? text = some bytes ↔ Spells text bytes :=
  ⟨spells_of_unescape?, unescape?_of_spells⟩

/-- Without a backslash, a text is read like one of letters and digits alone. -/
theorem unescape?_of_no_backslash {text : List Char} (h : '\\' ∉ text) :
    unescape? text = text.mapM plainByte? := by
  induction text with
  | nil => rfl
  | cons c rest ih =>
    rw [List.mem_cons, not_or] at h
    rw [unescape?_plain (Ne.symm h.1), ih h.2, List.mapM_cons]
    cases plainByte? c with
    | none => rfl
    | some byte => cases rest.mapM plainByte? <;> rfl

/-! ## The code of some bytes -/

/-- The code is these bytes with zeros behind them: one to four bytes fill a short code, and five to
twelve a long one. -/
def Pads (bytes : List UInt8) : AssetCode → Prop
  | alphaNum4 code => 1 ≤ bytes.length ∧ bytes.length ≤ 4 ∧
      code.toList = bytes ++ List.replicate (4 - bytes.length) 0
  | alphaNum12 code => 5 ≤ bytes.length ∧ bytes.length ≤ 12 ∧
      code.toList = bytes ++ List.replicate (12 - bytes.length) 0

theorem fill_eq_iff {n : Nat} {bytes : List UInt8} (h : bytes.length ≤ n) {code : Octets n} :
    fill n bytes h = code ↔ code.toList = bytes ++ List.replicate (n - bytes.length) 0 := by
  rw [← Octets.toList_inj]
  exact eq_comm

theorem ofBytes?_eq_some_iff {bytes : List UInt8} {c : AssetCode} :
    ofBytes? bytes = some c ↔ c.Pads bytes := by
  have hempty : bytes = [] ↔ bytes.length = 0 := List.length_eq_zero_iff.symm
  unfold ofBytes?
  split
  · next h =>
    rw [hempty] at h
    refine iff_of_false nofun fun hp => ?_
    cases c <;> (obtain ⟨hlow, _⟩ := hp; omega)
  · next hne =>
    rw [hempty] at hne
    split
    · next h4 =>
      cases c with
      | alphaNum4 code =>
        rw [Option.some_inj, alphaNum4.injEq, fill_eq_iff]
        exact ⟨fun h => ⟨by omega, h4, h⟩, fun h => h.2.2⟩
      | alphaNum12 code => exact iff_of_false nofun fun ⟨hlow, _⟩ => by omega
    · next h4 =>
      split
      · next h12 =>
        cases c with
        | alphaNum4 code => exact iff_of_false nofun fun ⟨_, hhigh, _⟩ => h4 hhigh
        | alphaNum12 code =>
          rw [Option.some_inj, alphaNum12.injEq, fill_eq_iff]
          exact ⟨fun h => ⟨by omega, h12, h⟩, fun h => h.2.2⟩
      · next h12 =>
        refine iff_of_false nofun fun hp => ?_
        cases c <;> (obtain ⟨_, hhigh, _⟩ := hp; omega)

/-- There is a code for one to twelve bytes. -/
theorem exists_pads_iff {bytes : List UInt8} :
    (∃ c : AssetCode, c.Pads bytes) ↔ 1 ≤ bytes.length ∧ bytes.length ≤ 12 := by
  constructor
  · rintro ⟨c, h⟩
    cases c <;> (obtain ⟨hlow, hhigh, _⟩ := h; omega)
  · rintro ⟨hlow, hhigh⟩
    by_cases h4 : bytes.length ≤ 4
    · exact ⟨.alphaNum4 (fill 4 bytes h4), hlow, h4, rfl⟩
    · exact ⟨.alphaNum12 (fill 12 bytes hhigh), by omega, hhigh, rfl⟩

theorem ofText_eq_ok_iff {text : String} {c : AssetCode} :
    ofText text = .ok c ↔ ∃ bytes, Spells text.toList bytes ∧ c.Pads bytes := by
  have hread : ofText text = .ok c ↔ (unescape? text.toList).bind ofBytes? = some c := by
    unfold ofText
    split
    · next code h => rw [h, Except.ok.injEq, Option.some_inj]
    · next h => exact iff_of_false nofun (by rw [h]; exact nofun)
  rw [hread, Option.bind_eq_some_iff]
  simp only [unescape?_eq_some_iff, ofBytes?_eq_some_iff]

/-- Of a text that spells bytes, these are read. -/
theorem ofText_eq_ok_iff_of_spells {text : String} {bytes : List UInt8}
    (h : Spells text.toList bytes) {c : AssetCode} : ofText text = .ok c ↔ c.Pads bytes := by
  rw [ofText_eq_ok_iff]
  constructor
  · rintro ⟨more, hmore, hc⟩
    have hsame := unescape?_of_spells h
    rw [unescape?_of_spells hmore] at hsame
    exact Option.some.inj hsame ▸ hc
  · exact fun hc => ⟨bytes, h, hc⟩

theorem exists_ofText_iff {text : String} :
    (∃ c, ofText text = .ok c) ↔
      ∃ bytes, Spells text.toList bytes ∧ 1 ≤ bytes.length ∧ bytes.length ≤ 12 := by
  simp only [ofText_eq_ok_iff, ← exists_pads_iff]
  exact ⟨fun ⟨c, bytes, h, hc⟩ => ⟨bytes, h, c, hc⟩, fun ⟨bytes, h, c, hc⟩ => ⟨c, bytes, h, hc⟩⟩

theorem ofText_of_no_backslash {text : String} (h : '\\' ∉ text.toList) :
    ofText text = ofPlainText text := by
  rw [ofText, ofPlainText, unescape?_of_no_backslash h]

end AssetCode

namespace Asset

/-! ## Assets -/

/-- The text of an asset has neither blanks nor quotes. -/
theorem mem_toText {a : Asset} {x : Char} (h : x ∈ a.toText.toList) :
    Text.isBlank x = false ∧ x ≠ '"' := by
  cases a with
  | native =>
    have hall : native.toText.toList.all (fun x => !Text.isBlank x && x != '"') = true := by decide
    simpa using List.all_eq_true.1 hall x h
  | credit code issuer =>
    rw [toList_toText_credit] at h
    rcases List.mem_append.1 h with h | h
    · exact (AssetCode.mem_toText h).imp_right And.left
    · rcases List.mem_cons.1 h with rfl | h
      · decide
      · exact StrKey.mem_wrap h

/-- Codes and assets read back from their texts, so that no two share one, and the texts have
neither blanks, line feeds nor quotes.  As a code is read exactly what spells one to twelve bytes,
and the code is these bytes filled up with zeros, a short one for up to four bytes.  A text without
a backslash is read as one of letters and digits alone. -/
theorem text_lossless :
    (∀ c : AssetCode, AssetCode.ofText c.toText = .ok c) ∧
    (∀ a : Asset, ofText a.toText = .ok a) ∧
    Function.Injective AssetCode.toText ∧ Function.Injective toText ∧
    (∀ c : AssetCode, ∀ x ∈ c.toText.toList, Text.isBlank x = false ∧ x ≠ '\n' ∧ x ≠ '"') ∧
    (∀ a : Asset, ∀ x ∈ a.toText.toList, Text.isBlank x = false ∧ x ≠ '\n' ∧ x ≠ '"') ∧
    (∀ text, (∃ c, AssetCode.ofText text = .ok c) ↔
      ∃ bytes, AssetCode.Spells text.toList bytes ∧ 1 ≤ bytes.length ∧ bytes.length ≤ 12) ∧
    (∀ text bytes, AssetCode.Spells text.toList bytes →
      ∀ c, AssetCode.ofText text = .ok c ↔ c.Pads bytes) ∧
    (∀ text, '\\' ∉ text.toList → AssetCode.ofText text = AssetCode.ofPlainText text) := by
  -- A line feed is a blank.
  have hline {x : Char} (h : Text.isBlank x = false) : x ≠ '\n' := by
    rintro rfl
    cases h
  refine ⟨AssetCode.ofText_toText, ofText_toText, Except.injective_of_ok AssetCode.ofText_toText,
    Except.injective_of_ok ofText_toText, fun c x hx => ?_, fun a x hx => ?_,
    fun text => AssetCode.exists_ofText_iff,
    fun text bytes h c => AssetCode.ofText_eq_ok_iff_of_spells h,
    fun text => AssetCode.ofText_of_no_backslash⟩
  · obtain ⟨hblank, hquote, _⟩ := AssetCode.mem_toText hx
    exact ⟨hblank, hline hblank, hquote⟩
  · obtain ⟨hblank, hquote⟩ := mem_toText hx
    exact ⟨hblank, hline hblank, hquote⟩

/-- A code of three letters that is a long one all the same. -/
def longUsd : AssetCode :=
  .alphaNum12 ⟨[85, 83, 68, 0, 0, 0, 0, 0, 0, 0, 0, 0], rfl⟩

/-- The text of this code, and one with a letter less and an escape more. -/
theorem text_lossless_longUsd :
    longUsd.toText = "USD\\0\\0" ∧ AssetCode.ofText "USD\\0\\0" = .ok longUsd ∧
    (AssetCode.Spells "U\\x53D\\0\\0".toList [85, 83, 68, 0, 0] ∧
      AssetCode.ofText "U\\x53D\\0\\0" = .ok longUsd) ∧
    ('\\' ∉ "USD".toList ∧ AssetCode.ofText "USD" = AssetCode.ofPlainText "USD") := by
  obtain ⟨hcode, _, _, _, _, _, _, hspells, hplain⟩ := text_lossless
  have htext : longUsd.toText = "USD\\0\\0" := by decide
  have hback := hcode longUsd
  rw [htext] at hback
  have hs : AssetCode.Spells "U\\x53D\\0\\0".toList [85, 83, 68, 0, 0] :=
    AssetCode.unescape?_eq_some_iff.1 (by decide)
  have hpads : longUsd.Pads [85, 83, 68, 0, 0] := ⟨by decide, by decide, rfl⟩
  have hno : '\\' ∉ "USD".toList := by decide
  exact ⟨htext, hback, ⟨hs, (hspells _ _ hs longUsd).2 hpads⟩, hno, hplain "USD" hno⟩

end Asset

end StellarTx
