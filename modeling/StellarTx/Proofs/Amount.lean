/-
# Amounts read back

A decimal number is perhaps a minus sign, an integer part, and perhaps a point and decimal places:
`Numeral`.  Reading one compares the number of its places and its value with what an amount can have
(`parse_numeral`).  Writing produces the numeral of an amount, which has the amount for its value
and no superfluous zeros: `format_canonical`.
-/
import StellarTx.Amount
import StellarTx.Proofs.Result
import StellarTx.Proofs.Text.Zeros

namespace StellarTx

namespace Amount

open Text.Decimal (digits)

/-! ## Numerals -/

/-- A decimal number as a text spells it: perhaps a minus sign, the digits of an integer part, and
perhaps a point and the digits behind it. -/
structure Numeral where
  negative : Bool
  whole : List Char
  fraction? : Option (List Char)
  whole_digits : ∀ c ∈ whole, c.isDigit = true
  fraction_digits : ∀ fraction ∈ fraction?, ∀ c ∈ fraction, c.isDigit = true

namespace Numeral

/-- The decimal places, none if there is no point. -/
def fraction (n : Numeral) : List Char :=
  n.fraction?.getD []

/-- The number without its sign. -/
def unsigned (n : Numeral) : List Char :=
  n.whole ++ n.fraction?.elim [] ('.' :: ·)

/-- The characters of a number. -/
def chars (n : Numeral) : List Char :=
  if n.negative then '-' :: n.unsigned else n.unsigned

/-- The number of ten-millionths, if there are at most seven decimal places. -/
def value (n : Numeral) : Int :=
  if n.negative then -(magnitude n.whole n.fraction : Int) else magnitude n.whole n.fraction

/-- Every decimal place is a digit, also where there is no point. -/
theorem isDigit_fraction (n : Numeral) {c : Char} (h : c ∈ n.fraction) : c.isDigit = true := by
  unfold fraction at h
  cases hf : n.fraction? with
  | none =>
    rw [hf] at h
    cases h
  | some fraction =>
    rw [hf] at h
    exact n.fraction_digits fraction hf c h

/-- No number starts with a second sign. -/
theorem head?_unsigned_ne (n : Numeral) : n.unsigned.head? ≠ some '-' := by
  intro h
  rw [unsigned, List.head?_append] at h
  cases hw : n.whole with
  | cons c rest =>
    rw [hw] at h
    obtain rfl := Option.some.inj h
    have := n.whole_digits '-' (by simp [hw])
    cases this
  | nil =>
    rw [hw] at h
    cases hf : n.fraction? <;> (rw [hf] at h; cases h)

/-- The sign is split off, and what is left has none. -/
theorem splitSign_chars (n : Numeral) : splitSign n.chars = (n.negative, n.unsigned) := by
  unfold chars
  cases n.negative with
  | true => rfl
  | false =>
    show splitSign n.unsigned = (false, n.unsigned)
    unfold splitSign
    split
    · next rest h => exact absurd (by rw [h]; rfl) n.head?_unsigned_ne
    · rfl

/-- The only point is the one in front of the decimal places. -/
theorem splitPoint_unsigned (n : Numeral) : splitPoint n.unsigned = (n.whole, n.fraction) := by
  have hpoint : '.' ∉ n.whole := fun hm => by
    have := n.whole_digits '.' hm
    cases this
  unfold splitPoint unsigned fraction
  cases n.fraction? with
  | none =>
    show (Text.splitOnce '.' (n.whole ++ [])).getD (n.whole ++ [], []) = _
    rw [List.append_nil, Text.splitOnce_eq_none_iff.2 hpoint]
    rfl
  | some fraction =>
    show (Text.splitOnce '.' (n.whole ++ '.' :: fraction)).getD _ = _
    rw [Text.splitOnce_eq_some_iff.2 ⟨rfl, hpoint⟩]
    rfl

end Numeral

/-- What reading makes of a numeral: it needs a digit, at most seven decimal places, and a value
that fits into 64 bits. -/
theorem parse_numeral (n : Numeral) :
    parse (String.ofList n.chars) =
      if n.whole = [] ∧ n.fraction = [] then .error (.invalid (String.ofList n.chars))
      else if places < n.fraction.length then .error (.tooManyDecimals (String.ofList n.chars))
      else if Int64.minValue.toInt ≤ n.value ∧ n.value ≤ Int64.maxValue.toInt then
        .ok (Int64.ofInt n.value)
      else .error (.overflow (String.ofList n.chars)) := by
  have hdigits : (n.whole.all Char.isDigit && n.fraction.all Char.isDigit) = true :=
    Bool.and_eq_true_iff.2 ⟨List.all_eq_true.2 n.whole_digits,
      List.all_eq_true.2 fun c hc => n.isDigit_fraction hc⟩
  unfold parse
  rw [String.toList_ofList, n.splitSign_chars]
  dsimp only
  rw [n.splitPoint_unsigned]
  dsimp only
  rw [hdigits]
  rfl

/-! ## The numeral of an amount -/

/-- A fraction of a unit in seven digits. -/
def paddedDigits (fraction : Nat) : List Char :=
  List.replicate (places - (digits fraction).length) '0' ++ digits fraction

/-- The decimal places are the seven digits without the zeros at the end. -/
theorem fractionDigits_eq (fraction : Nat) :
    fractionDigits fraction = (paddedDigits fraction).rdropWhile (· = '0') := rfl

/-- The zeros in front are digits as well. -/
theorem isDigit_of_mem_paddedDigits {fraction : Nat} {c : Char} (h : c ∈ paddedDigits fraction) :
    c.isDigit = true := by
  rcases List.mem_append.1 h with h | h
  · rw [(List.mem_replicate.1 h).2]
    rfl
  · exact Text.Decimal.isDigit_of_mem_digits h

/-- A fraction of a unit has at most seven digits, and is filled up to them. -/
theorem length_paddedDigits {fraction : Nat} (h : fraction < scale) :
    (paddedDigits fraction).length = places := by
  have hle : (digits fraction).length ≤ places :=
    (Nat.length_toDigits_le_iff (by decide) (by decide)).2 h
  rw [paddedDigits, List.length_append, List.length_replicate]
  omega

/-- Zeros have no value, however many there are. -/
theorem digitsValue_replicate_zero (k : Nat) : digitsValue (List.replicate k '0') = 0 :=
  Nat.ofDigitChars_replicate_zero

/-- The zeros in front do not change the value. -/
theorem digitsValue_paddedDigits (fraction : Nat) :
    digitsValue (paddedDigits fraction) = fraction := by
  rw [digitsValue, paddedDigits, Nat.ofDigitChars_append, Nat.ofDigitChars_replicate_zero,
    Nat.mul_zero]
  exact Nat.ofDigitChars_ten_toDigits

/-- With the zeros that were left out, the decimal places are seven digits. -/
theorem fractionDigits_append {fraction : Nat} (h : fraction < scale) :
    fractionDigits fraction ++ List.replicate (places - (fractionDigits fraction).length) '0' =
      paddedDigits fraction := by
  have hsplit := rdropWhile_append_replicate '0' (paddedDigits fraction)
  rwa [length_paddedDigits h] at hsplit

/-- To leave zeros out leaves digits. -/
theorem mem_fractionDigits {fraction : Nat} {c : Char} (h : c ∈ fractionDigits fraction) :
    c.isDigit = true :=
  isDigit_of_mem_paddedDigits ((List.rdropWhile_prefix _ _).mem h)

/-- To leave zeros out leaves at most seven places. -/
theorem length_fractionDigits_le {fraction : Nat} (h : fraction < scale) :
    (fractionDigits fraction).length ≤ places :=
  length_paddedDigits h ▸ (List.rdropWhile_prefix _ _).length_le

/-- A fraction that is not zero has a digit that is not zero. -/
theorem fractionDigits_ne_nil {fraction : Nat} (h : fraction ≠ 0) :
    fractionDigits fraction ≠ [] := by
  rw [fractionDigits_eq, Ne, List.rdropWhile_eq_nil_iff]
  intro hall
  have hzeros : paddedDigits fraction = List.replicate (paddedDigits fraction).length '0' :=
    List.eq_replicate_iff.2 ⟨rfl, fun c hc => of_decide_eq_true (hall c hc)⟩
  have hvalue := digitsValue_paddedDigits fraction
  rw [hzeros, digitsValue_replicate_zero] at hvalue
  exact h hvalue.symm

/-- No zero is left at the end. -/
theorem getLast?_fractionDigits_ne (fraction : Nat) :
    (fractionDigits fraction).getLast? ≠ some '0' := by
  intro h
  have hne : fractionDigits fraction ≠ [] := by
    intro e
    rw [e] at h
    cases h
  rw [List.getLast?_eq_some_getLast hne] at h
  exact List.rdropWhile_last_not _ _ hne (decide_eq_true (Option.some.inj h))

/-- The numeral that an amount is written as. -/
def numeral (amount : Int64) : Numeral where
  negative := amount.toInt < 0
  whole := digits (amount.toInt.natAbs / scale)
  fraction? :=
    if amount.toInt.natAbs % scale = 0 then none
    else some (fractionDigits (amount.toInt.natAbs % scale))
  whole_digits _ := Text.Decimal.isDigit_of_mem_digits
  fraction_digits := by
    intro fraction hf c hc
    split at hf
    · cases hf
    · cases hf
      exact mem_fractionDigits hc

/-- What is left of a division by the scale is a fraction of a unit. -/
theorem mod_scale_lt (n : Nat) : n % scale < scale :=
  Nat.mod_lt n (by decide)

/-- The absolute value is written as the numeral without its sign. -/
theorem unsigned_numeral (v : Int64) : (numeral v).unsigned = magnitudeChars v.toInt.natAbs := by
  simp only [Numeral.unsigned, numeral, magnitudeChars]
  split
  · exact List.append_nil _
  · rfl

/-- An amount is written as its numeral. -/
theorem format_eq (v : Int64) : format v = String.ofList (numeral v).chars := by
  rw [format, Numeral.chars, unsigned_numeral]
  simp only [numeral, decide_eq_true_eq]
  split <;> rfl

/-- Nothing of the amount is lost: the integer part and the decimal places make it up. -/
theorem magnitude_numeral (v : Int64) :
    magnitude (numeral v).whole (numeral v).fraction = v.toInt.natAbs := by
  have hwhole : digitsValue (digits (v.toInt.natAbs / scale)) = v.toInt.natAbs / scale :=
    Nat.ofDigitChars_ten_toDigits
  have hfraction : digitsValue ((numeral v).fraction ++
      List.replicate (places - (numeral v).fraction.length) '0') = v.toInt.natAbs % scale := by
    simp only [Numeral.fraction, numeral]
    split
    · next hzero =>
      rw [hzero]
      exact digitsValue_replicate_zero places
    · rw [Option.getD_some, fractionDigits_append (mod_scale_lt _), digitsValue_paddedDigits]
  rw [magnitude, hfraction]
  show digitsValue (digits (v.toInt.natAbs / scale)) * scale + _ = _
  rw [hwhole, Nat.div_add_mod']

/-- The smallest amount, whose absolute value is no amount, has its value too. -/
theorem value_numeral (v : Int64) : (numeral v).value = v.toInt := by
  rw [Numeral.value, magnitude_numeral]
  simp only [numeral, decide_eq_true_eq]
  split <;> omega

/-- A number without superfluous zeros: none in front of another digit, none at the end of the
decimal places, and no point without them. -/
structure Numeral.Plain (n : Numeral) : Prop where
  whole_ne_nil : n.whole ≠ []
  leading : n.whole.head? = some '0' → n.whole = ['0']
  fraction_ne_nil : ∀ fraction ∈ n.fraction?, fraction ≠ []
  fraction_length : ∀ fraction ∈ n.fraction?, fraction.length ≤ 7
  trailing : ∀ fraction ∈ n.fraction?, fraction.getLast? ≠ some '0'

/-- The integer part is written without zeros in front, and the fraction without zeros behind. -/
theorem plain_numeral (v : Int64) : (numeral v).Plain := by
  have hplaces : ∀ fraction ∈ (numeral v).fraction?, ∃ rest, rest ≠ 0 ∧ rest < scale ∧
      fraction = fractionDigits rest := by
    intro fraction hf
    simp only [numeral] at hf
    split at hf
    · cases hf
    · next hne =>
      cases hf
      exact ⟨_, hne, mod_scale_lt _, rfl⟩
  refine ⟨Text.Decimal.digits_ne_nil _, fun h => ?_, fun f hf => ?_, fun f hf => ?_, fun f hf => ?_⟩
  · show digits (v.toInt.natAbs / scale) = _
    rw [Text.Decimal.eq_zero_of_head?_digits h]
    rfl
  · obtain ⟨rest, hne, _, rfl⟩ := hplaces f hf
    exact fractionDigits_ne_nil hne
  · obtain ⟨rest, _, hlt, rfl⟩ := hplaces f hf
    exact length_fractionDigits_le hlt
  · obtain ⟨rest, _, _, rfl⟩ := hplaces f hf
    exact getLast?_fractionDigits_ne rest

/-- There is no point exactly if the amount is a number of whole units. -/
theorem fraction?_numeral_eq_none_iff (v : Int64) :
    (numeral v).fraction? = none ↔ (10000000 : Int) ∣ v.toInt := by
  have hscale : (10000000 : Int) = (scale : Int) := rfl
  rw [hscale, Int.ofNat_dvd_left, Nat.dvd_iff_mod_eq_zero]
  simp only [numeral]
  split
  · next h => exact iff_of_true rfl h
  · next h => exact iff_of_false nofun h

/-- Reading what was written: the numeral is plain, and its value fits because the amount does. -/
theorem parse_format (v : Int64) : parse (format v) = .ok v := by
  have hplain := plain_numeral v
  have hlength : ¬ places < (numeral v).fraction.length := by
    unfold Numeral.fraction
    cases hf : (numeral v).fraction? with
    | none => exact Nat.not_lt_zero places
    | some fraction => exact Nat.not_lt_of_le (hplain.fraction_length fraction hf)
  rw [format_eq, parse_numeral, if_neg fun h => hplain.whole_ne_nil h.1, if_neg hlength,
    value_numeral, if_pos ⟨v.minValue_le_toInt, v.toInt_le⟩, Int64.ofInt_toInt]

/-! ## Writing is exact and canonical -/

/-- The text of an amount is read as this amount, so no other amount is written alike.  It is a
decimal number without superfluous zeros, with a minus sign exactly if the amount is negative, and
with a point, and one to seven digits behind it, exactly if the amount is no number of whole
units. -/
theorem format_canonical :
    Function.Injective format ∧
    ∀ v : Int64, parse (format v) = .ok v ∧
      ∃ n : Numeral, (format v).toList = n.chars ∧ n.Plain ∧
        (n.negative = true ↔ v.toInt < 0) ∧ (n.fraction? = none ↔ (10000000 : Int) ∣ v.toInt) := by
  refine ⟨Except.injective_of_ok parse_format,
    fun v => ⟨parse_format v, numeral v, ?_, plain_numeral v, ?_, ?_⟩⟩
  · rw [format_eq, String.toList_ofList]
  · exact decide_eq_true_iff
  · exact fraction?_numeral_eq_none_iff v

/-- The least amount, whose magnitude no amount has. -/
example : format Int64.minValue = "-922337203685.4775808" := by decide

end Amount

end StellarTx
