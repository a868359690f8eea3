/-
# The lines of regular formats are clean

At a path without blanks and colons, every line that a regular format writes reads back: its path is
again such a path, its value is a word or a quoted string, and its comment stands on one line.
-/
import StellarTx.Proofs.Amount
import StellarTx.Proofs.Asset
import StellarTx.Proofs.TxRep.Lines
import StellarTx.Proofs.TxRep.Source

namespace StellarTx

open Text (isBlank)

/-! ## Words and comments -/

namespace Text

/-- A digit is neither blank nor a quote nor a line feed. -/
theorem isDigit_spec {c : Char} (h : c.isDigit = true) :
    isBlank c = false ∧ c ≠ '"' ∧ c ≠ '\n' := by
  simp only [Char.isDigit, Bool.and_eq_true, decide_eq_true_eq] at h
  have hlo : 48 ≤ c.toNat := h.1
  have hhi : c.toNat ≤ 57 := h.2
  refine ⟨isBlank_eq_false (by omega) (by omega), ?_, ?_⟩
  · rintro rfl
    exact absurd hlo (by decide)
  · rintro rfl
    exact absurd hlo (by decide)

/-- Text on one line. -/
def OneLine (text : List Char) : Prop :=
  '\n' ∉ text

/-- Two texts on one line make one line. -/
theorem OneLine.append {text more : List Char} (h : OneLine text) (k : OneLine more) :
    OneLine (text ++ more) := fun hm =>
  (List.mem_append.1 hm).elim h k

/-- A character in front must not be the line feed itself. -/
theorem OneLine.cons {c : Char} {text : List Char} (hc : '\n' ≠ c) (h : OneLine text) :
    OneLine (c :: text) := fun hm =>
  (List.mem_cons.1 hm).elim hc h

/-- A number is written on one line. -/
theorem oneLine_digits (n : Nat) : OneLine (Decimal.digits n) := fun hm =>
  (isDigit_spec (Decimal.isDigit_of_mem_digits hm)).2.2 rfl

/-- Digits with zeros in front. -/
theorem oneLine_zeros (k n : Nat) : OneLine (List.replicate k '0' ++ Decimal.digits n) := by
  refine .append (fun hm => ?_) (oneLine_digits n)
  have := (List.mem_replicate.1 hm).2
  revert this
  decide

end Text

/-- The amount in a comment, with a sign, a dot or neither, is on one line. -/
theorem Amount.oneLine_format (v : Int64) : Text.OneLine (Amount.format v).toList := by
  have hfraction (n : Nat) : Text.OneLine (fractionDigits n) := fun hm =>
    (Text.isDigit_spec (mem_fractionDigits hm)).2.2 rfl
  have hmagnitude (n : Nat) : Text.OneLine (magnitudeChars n) := by
    unfold magnitudeChars
    split
    · exact Text.oneLine_digits _
    · exact (Text.oneLine_digits _).append ((hfraction _).cons (by decide))
  rw [format, String.toList_ofList]
  split
  · exact (hmagnitude _).cons (by decide)
  · exact hmagnitude _

/-- So is a date with a time; years have at least four digits. -/
theorem Calendar.oneLine_timestampText (seconds : Nat) :
    Text.OneLine (timestampText seconds).toList := by
  have hwidth (k n : Nat) : '\n' ∉ (fixedWidth k n).toList := by
    rw [fixedWidth, String.toList_ofList]
    exact Text.oneLine_zeros _ _
  have hyear (n : Nat) : '\n' ∉ (yearText n).toList := by
    unfold yearText
    split
    · exact hwidth 4 n
    · simp [hwidth]
  have hday (date : Date) : '\n' ∉ date.text.toList := by simp [Date.text, hwidth, hyear]
  have hclock (time : Nat) : '\n' ∉ (clockText time).toList := by simp [clockText, hwidth]
  simp [Text.OneLine, timestampText, hday, hclock]

/-! ## Values -/

/-- A number is a word, so that it needs no quotes. -/
theorem Text.Decimal.isWord_ofNat (n : Nat) : IsWord (ofNat n) := by
  rw [IsWord, ofNat, String.toList_ofList]
  refine ⟨fun hq => ?_, fun c hc => (isDigit_spec (isDigit_of_mem_digits hc)).1⟩
  exact (isDigit_spec (isDigit_of_mem_digits (List.mem_of_mem_head? hq))).2.1 rfl

/-- A sign in front does not make it less of one. -/
theorem Text.Decimal.isWord_ofInt (v : Int) : IsWord (ofInt v) := by
  cases v with
  | ofNat n => exact isWord_ofNat n
  | negSucc n =>
    rw [IsWord, ofInt, String.toList_ofList]
    refine ⟨by simp, fun c hc => ?_⟩
    rcases List.mem_cons.1 hc with rfl | hc
    · rfl
    · exact (isDigit_spec (isDigit_of_mem_digits hc)).1

/-- A number has at least one digit. -/
theorem Text.Decimal.ofNat_ne_empty (n : Nat) : ofNat n ≠ "" := by
  intro e
  have := String.toList_eq_nil_iff.2 e
  rw [ofNat, String.toList_ofList] at this
  exact digits_ne_nil n this

/-- What is not negative has a digit, and everything else a sign. -/
theorem Text.Decimal.ofInt_ne_empty (v : Int) : ofInt v ≠ "" := by
  cases v with
  | ofNat n => exact ofNat_ne_empty n
  | negSucc n =>
    intro e
    have := String.toList_eq_nil_iff.2 e
    rw [ofInt, String.toList_ofList] at this
    cases this

/-- Bytes are a word of hexadecimal digits, and the empty word if there are none. -/
theorem Text.Hex.isWord_encode (bytes : List UInt8) : IsWord (encode bytes) := by
  have hdigit : ∀ n : Fin 16, isBlank (digit n) = false ∧ digit n ≠ '"' := by decide
  have hchar : ∀ c ∈ encodeChars bytes, isBlank c = false ∧ c ≠ '"' := by
    intro c hc
    obtain ⟨byte, _, hc⟩ := List.mem_flatMap.1 hc
    have hlt : byte.toNat < 256 := byte.toNat_lt
    simp only [byteDigits, List.mem_cons, List.not_mem_nil, or_false] at hc
    rcases hc with rfl | rfl
    · exact hdigit ⟨byte.toNat / 16, by omega⟩
    · exact hdigit ⟨byte.toNat % 16, by omega⟩
  rw [IsWord, encode, String.toList_ofList]
  exact ⟨fun hq => (hchar _ (List.mem_of_mem_head? hq)).2 rfl, fun c hc => (hchar c hc).1⟩

/-! ## Paths -/

namespace TxRep

/-- A dot between two clean parts keeps a path clean. -/
theorem IsClean.join {path name : String} (h : IsClean path) (plain : IsPlain name) :
    IsClean (join path name) := by
  intro c hc
  rw [toList_join] at hc
  rcases List.mem_append.1 hc with hc | hc
  · unfold stem at hc
    split at hc
    · cases hc
    · rcases List.mem_append.1 hc with hc | hc
      · exact h c hc
      · rw [List.mem_singleton.1 hc]
        decide
  · exact ⟨(plain.2 c hc).2.2.1, (plain.2 c hc).2.2.2⟩

/-- So do brackets around a number. -/
theorem IsClean.item {path : String} (h : IsClean path) (i : Nat) : IsClean (item path i) := by
  intro c hc
  rw [toList_item] at hc
  simp only [List.mem_append, List.mem_cons, List.not_mem_nil, or_false] at hc
  -- A character of the path, a bracket, a digit, or the other bracket.
  rcases hc with hc | rfl | hc | rfl
  · exact h c hc
  · decide
  · have hd := Text.Decimal.isDigit_of_mem_digits hc
    refine ⟨?_, (Text.isDigit_spec hd).1⟩
    rintro rfl
    cases hd
  · decide

/-- A word without a comment. -/
theorem Line.clean_field {path value : String} (hne : path ≠ "") (hp : IsClean path)
    (hw : IsWord value) : (Line.field path value).Clean :=
  ⟨hne, hp, Or.inl hw, nofun⟩

/-- A string in quotes. -/
theorem Line.clean_quoted {path : String} (hne : path ≠ "") (hp : IsClean path) (text : String) :
    (Line.quoted path text).Clean :=
  ⟨hne, hp, Or.inr ⟨text, rfl⟩, nofun⟩

/-- A word with a comment. -/
theorem Line.clean_comment {path value : String} {comment : Option String} (hne : path ≠ "")
    (hp : IsClean path) (hw : IsWord value) (hv : value ≠ "")
    (hc : ∀ c ∈ comment, Text.OneLine c.toList) : (Line.mk path value comment).Clean :=
  ⟨hne, hp, Or.inl hw, fun c hm => ⟨hw, hv, hc c hm⟩⟩

/-- The comment on an amount follows a number, which is never empty. -/
theorem Line.clean_amount {path : String} (hne : path ≠ "") (hp : IsClean path) (v : Int64) :
    (Line.amount path v).Clean := by
  apply clean_comment hne hp (Text.Decimal.isWord_ofInt _) (Text.Decimal.ofInt_ne_empty _)
  intro c hc
  cases hc
  rw [String.toList_append]
  have he : '\n' ∉ "e7".toList := by decide
  exact (Amount.oneLine_format v).append he

/-- A time that is too late for a date has no comment. -/
theorem Line.clean_timestamp {path : String} (hne : path ≠ "") (hp : IsClean path)
    (seconds : UInt64) : (Line.timestamp path seconds).Clean := by
  apply clean_comment hne hp (Text.Decimal.isWord_ofNat _) (Text.Decimal.ofNat_ne_empty _)
  intro c hc
  unfold Calendar.timestampText? at hc
  split at hc
  · cases hc
  · cases hc
    exact Calendar.oneLine_timestampText _

end TxRep

/-! ## Lines -/

namespace Format

open TxRep (Line IsClean join item)

variable {α β : Type} {n : Nat} {F G : Places} {f : Format α} {g : Format β}

/-- Lines at the places of a path can be read: the path is clean, and not the root if a line stands
at the path itself. -/
structure CleanAt (F : Places) (path : String) : Prop where
  clean : IsClean path
  ne_empty : F.here = true → path ≠ ""

/-- The path of a field is never the root, wherever the lines of its value stand. -/
theorem CleanAt.field {path name : String} (h : IsClean path) (plain : IsPlain name)
    (F : Places) : CleanAt F (join path name) :=
  ⟨h.join plain, fun _ => TxRep.join_ne_empty path plain⟩

/-- The lines of values down to `n` levels are clean. -/
def Neat (n : Nat) (F : Places) (f : Format α) : Prop :=
  ∀ a path line, f.level a ≤ n → CleanAt F path → line ∈ f.print a path → line.Clean

/-- A flag is a word. -/
theorem isWord_flag (b : Bool) : IsWord (if b then "true" else "false") := by
  cases b <;> decide

/-- Every scalar has one line with a word; for a time before 1970 it has no comment. -/
theorem Scalar.clean (h : Scalar f) {a : α} {path : String} {line : Line} (hne : path ≠ "")
    (hp : IsClean path) (hl : line ∈ f.print a path) : line.Clean := by
  cases h with
  | uint32 =>
    rw [List.mem_singleton.1 hl]
    exact Line.clean_field hne hp (Text.Decimal.isWord_ofNat _)
  | int32 =>
    rw [List.mem_singleton.1 hl]
    exact Line.clean_field hne hp (Text.Decimal.isWord_ofInt _)
  | uint64 =>
    rw [List.mem_singleton.1 hl]
    exact Line.clean_field hne hp (Text.Decimal.isWord_ofNat _)
  | int64 =>
    rw [List.mem_singleton.1 hl]
    exact Line.clean_field hne hp (Text.Decimal.isWord_ofInt _)
  | bool =>
    rw [List.mem_singleton.1 hl]
    exact Line.clean_field hne hp (isWord_flag a)
  | amount =>
    rw [List.mem_singleton.1 hl]
    exact Line.clean_amount hne hp a
  | timestamp =>
    rw [List.mem_singleton.1 hl]
    exact Line.clean_timestamp hne hp a
  | signedTimestamp =>
    rw [List.mem_singleton.1 hl]
    show (if a.toInt < 0 then _ else _ : Line).Clean
    split
    · exact Line.clean_field hne hp (Text.Decimal.isWord_ofInt _)
    · exact Line.clean_timestamp hne hp _

namespace Neat

/-- A single line at the path itself. -/
theorem of_itself (h : ∀ a path line, path ≠ "" → IsClean path → line ∈ f.print a path →
    line.Clean) : Neat n .itself f :=
  fun a path line _ hp hl => h a path line (hp.ne_empty rfl) hp.clean hl

/-- Lines of the first value are clean and so are those of the second. -/
theorem and (h : Neat n F f) (k : Neat n G g) : Neat n (F.union G) (f.and g) := by
  rintro ⟨a, b⟩ path line hn ⟨hp, hne⟩ hl
  obtain ⟨hn1, hn2⟩ := Nat.max_le.1 hn
  rcases List.mem_append.1 hl with hl | hl
  · exact h a path line hn1 ⟨hp, fun e => hne (by simp [Places.union, e])⟩ hl
  · exact k b path line hn2 ⟨hp, fun e => hne (by simp [Places.union, e])⟩ hl

/-- The line of the flag stands in a field, and is clean even at the root. -/
theorem option (h : Neat n F f) : Neat n (F.union (.under "_present")) (option f) := by
  have hplain : IsPlain "_present" := by decide
  rintro (_ | a) path line hn ⟨hp, hne⟩ hl
  · rw [List.mem_singleton.1 hl]
    exact Line.clean_field (TxRep.join_ne_empty path hplain) (hp.join hplain) (isWord_flag _)
  · rcases List.mem_cons.1 hl with rfl | hl
    · exact Line.clean_field (TxRep.join_ne_empty path hplain) (hp.join hplain) (isWord_flag _)
    · exact h a path line hn ⟨hp, fun e => hne (by simp [Places.union, e])⟩ hl

/-- The number of items stands in a field, and every item at a path that is not empty. -/
theorem array (h : Neat n F f) (max : Nat) : Neat n .listed (array max f) := by
  have hplain : IsPlain "len" := by decide
  rintro items path line hn ⟨hp, _⟩ hl
  rcases List.mem_cons.1 hl with rfl | hl
  · exact Line.clean_field (TxRep.join_ne_empty path hplain) (hp.join hplain)
      (Text.Decimal.isWord_ofNat _)
  · obtain ⟨j, a, ha, hl⟩ := mem_printItems_iff.1 hl
    exact h a _ line (maxLevel_le_iff.1 hn a (List.mem_of_getElem? ha))
      ⟨hp.item _, fun _ => TxRep.item_ne_empty path _⟩ hl

/-- The line of the arm holds its label, which is a word. -/
theorem union {arms : List (Arm α)} (sound : Arm.Sound arms)
    (h : ∀ arm ∈ arms, Neat n F arm.format) (name : String) :
    Neat n (F.union (.under "type")) (union name arms) := by
  have hplain : IsPlain "type" := by decide
  rintro a path line hn ⟨hp, hne⟩ hl
  obtain ⟨arm, ha, p, rfl⟩ := sound.exists_make a
  rw [sound.level_make ha] at hn
  rw [sound.print_make ha] at hl
  rcases List.mem_cons.1 hl with rfl | hl
  · exact Line.clean_field (TxRep.join_ne_empty path hplain) (hp.join hplain)
      (sound.isWord_label ha)
  · exact h arm ha p path line hn ⟨hp, fun e => hne (by simp [Places.union, e])⟩ hl

/-- An asset is one word at the path itself, and a share a label with the lines of its pool. -/
theorem assetOrShare {π : Type} {pool : Format π} (h : Neat n .itself Asset.format)
    (k : Neat n F pool) (name : String) :
    Neat n (AssetOrShare.places F) (AssetOrShare.format name pool) := by
  have hplain : IsPlain "type" := by decide
  rintro (a | s) path line hn ⟨hp, hne⟩ hl
  · have hlevel : Asset.format.level a ≤ n := by
      rw [Asset.level_eq]
      exact Nat.zero_le n
    exact h a path line hlevel ⟨hp, fun _ => hne rfl⟩ hl
  · rcases List.mem_cons.1 hl with rfl | hl
    · have hw : IsWord "ASSET_TYPE_POOL_SHARE" := by decide
      exact Line.clean_field (TxRep.join_ne_empty path hplain) (hp.join hplain) hw
    · exact k s path line hn ⟨hp, fun _ => hne rfl⟩ hl

end Neat

/-- Every line of a regular format is clean, by induction on how the format is put together. -/
theorem Regular.neat (h : Regular n F f) : Neat n F f := by
  induction h with
  | unit => exact fun a path line _ _ hl => by cases hl
  | scalar h => exact .of_itself fun a path line hne hp hl => h.clean hne hp hl
  | octets k =>
    refine .of_itself fun a path line hne hp hl => ?_
    rw [List.mem_singleton.1 hl]
    exact Line.clean_field hne hp (Text.Hex.isWord_encode _)
  | bytes small =>
    refine .of_itself fun a path line hne hp hl => ?_
    rw [List.mem_singleton.1 hl]
    exact Line.clean_field hne hp (Text.Hex.isWord_encode _)
  | string small =>
    refine .of_itself fun a path line hne hp hl => ?_
    rw [List.mem_singleton.1 hl]
    exact Line.clean_quoted hne hp a
  | extension union =>
    rintro a path line _ ⟨hp, _⟩ hl
    rw [List.mem_singleton.1 hl]
    exact Line.clean_field (TxRep.join_ne_empty path (by decide)) (hp.join (by decide)) (by decide)
  | field name _ plain ih =>
    exact fun a path line hn hp hl => ih a _ line hn (.field hp.clean plain _) hl
  | and _ _ _ ih ih' => exact ih.and ih'
  | map _ ih => exact fun b path line hn hp hl => ih _ path line hn hp hl
  | option _ _ ih => exact ih.option
  | array _ _ _ ih => exact ih.array _
  | @deeper n F α f h ih =>
    intro a path line hn hp hl
    have hn : f.level a + 1 ≤ n := hn
    exact ih (n - 1) (by omega) a path line (by omega) hp hl
  | token _ fits _ _ =>
    refine .of_itself fun a path line hne hp hl => ?_
    rw [List.mem_singleton.1 hl]
    exact Line.clean_field hne hp (fits.word a)
  | union name sound _ _ _ ih => exact .union sound ih name
  | assetOrShare name _ _ _ _ _ _ ih _ ih' => exact ih.assetOrShare ih' name
  | widen sub _ ih =>
    intro a path line hn hp hl
    exact ih a path line hn ⟨hp.clean, fun e => hp.ne_empty (sub.1 e)⟩ hl

end Format

end StellarTx
