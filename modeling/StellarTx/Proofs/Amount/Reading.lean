/-
# Amounts read exactly

A text is read as an amount exactly if it is a numeral with a digit, at most seven decimal places
and a number of ten-millionths that fits into 64 bits; the amount is then the rational number that
the numeral denotes.  Every other text is refused with the one cause that applies to it:
`parse_exact`.  Reading may be computed in words of 128 bits, which never wrap: `parseInWords_eq`.
-/
import Mathlib.Data.Nat.Digits.Defs
import Mathlib.Data.Rat.Defs
import Mathlib.Tactic.NormNum
import Mathlib.Tactic.Ring
import StellarTx.Proofs.Amount

namespace StellarTx

namespace Amount

/-! ## What a numeral denotes -/

/-- The value of a digit. -/
def digit (c : Char) : Nat :=
  c.toNat - '0'.toNat

namespace Numeral

/-- Whether a numeral has a digit at all. -/
def HasDigit (n : Numeral) : Prop :=
  n.whole ≠ [] ∨ n.fraction ≠ []

/-- The number that a numeral denotes.  In front of the point the digits count powers of ten, the
last of them units; behind it they count powers of a tenth, the first of them tenths. -/
def rational (n : Numeral) : Rat :=
  let magnitude := Nat.ofDigits (10 : Rat) (n.whole.reverse.map digit) +
    Nat.ofDigits (10⁻¹ : Rat) (0 :: n.fraction.map digit)
  if n.negative then -magnitude else magnitude

end Numeral

theorem digitsValue_cons (c : Char) (digits : List Char) :
    digitsValue (c :: digits) = 10 ^ digits.length * digit c + digitsValue digits := by
  rw [digitsValue, Nat.ofDigitChars_cons, Nat.ofDigitChars_eq_ofDigitChars_zero, Nat.mul_zero,
    Nat.zero_add]
  rfl

/-- Digits as powers of ten. -/
theorem cast_digitsValue (digits : List Char) :
    (digitsValue digits : Rat) = Nat.ofDigits (10 : Rat) (digits.reverse.map digit) := by
  suffices h : digitsValue digits = Nat.ofDigits 10 (digits.reverse.map digit) by
    rw [h, Nat.coe_ofDigits]
    rfl
  induction digits with
  | nil => rfl
  | cons c digits ih =>
    rw [digitsValue_cons, List.map_reverse, List.map_cons, Nat.ofDigits_reverse_cons,
      ← List.map_reverse, ← ih, List.length_map, Nat.add_comm]

/-- Digits as powers of a tenth, of which the first is one. -/
theorem ofDigits_tenth (digits : List Char) :
    (10 : Rat) ^ digits.length * Nat.ofDigits (10⁻¹ : Rat) (digits.map digit) =
      10 * digitsValue digits := by
  induction digits with
  | nil => simp [Nat.ofDigits, digitsValue]
  | cons c digits ih =>
    have hcons : Nat.ofDigits (10⁻¹ : Rat) ((c :: digits).map digit) =
        digit c + 10⁻¹ * Nat.ofDigits (10⁻¹ : Rat) (digits.map digit) := rfl
    have hhead : (10 : Rat) * 10⁻¹ = 1 := by norm_num
    calc (10 : Rat) ^ (digits.length + 1) * Nat.ofDigits (10⁻¹ : Rat) ((c :: digits).map digit)
        = 10 * (10 ^ digits.length * digit c) + 10 * 10⁻¹ *
            (10 ^ digits.length * Nat.ofDigits (10⁻¹ : Rat) (digits.map digit)) := by
          rw [hcons]
          ring
      _ = 10 * digitsValue (c :: digits) := by
          rw [hhead, one_mul, ih, digitsValue_cons]
          push_cast
          ring

/-- Zeros behind a digit move it up by their number. -/
theorem digitsValue_append_zeros (digits : List Char) (k : Nat) :
    digitsValue (digits ++ List.replicate k '0') = 10 ^ k * digitsValue digits := by
  rw [digitsValue, Nat.ofDigitChars_append, Nat.ofDigitChars_replicate_zero]
  rfl

/-- Up to seven decimal places become a whole number of ten-millionths. -/
theorem cast_magnitude {whole fraction : List Char} (h : fraction.length ≤ places) :
    (magnitude whole fraction : Rat) = 10 ^ 7 *
      (Nat.ofDigits (10 : Rat) (whole.reverse.map digit) +
        Nat.ofDigits (10⁻¹ : Rat) (0 :: fraction.map digit)) := by
  obtain ⟨k, hk⟩ := Nat.exists_eq_add_of_le h
  have hzeros : places - fraction.length = k := by omega
  have hseven : 7 = k + fraction.length := hk.trans (Nat.add_comm _ _)
  have hpow : (10 : Rat) ^ 7 = 10 ^ k * 10 ^ fraction.length := by
    rw [hseven, pow_add]
  have hhead : (10⁻¹ : Rat) * 10 = 1 := by norm_num
  have hshift : Nat.ofDigits (10⁻¹ : Rat) (0 :: fraction.map digit) =
      10⁻¹ * Nat.ofDigits (10⁻¹ : Rat) (fraction.map digit) := by
    rw [Nat.ofDigits, Nat.cast_zero, zero_add]
  have hplaces : (10 : Rat) ^ 7 * Nat.ofDigits (10⁻¹ : Rat) (0 :: fraction.map digit) =
      10 ^ k * digitsValue fraction := by
    calc (10 : Rat) ^ 7 * Nat.ofDigits (10⁻¹ : Rat) (0 :: fraction.map digit)
        = 10 ^ k * 10⁻¹ * (10 ^ fraction.length *
            Nat.ofDigits (10⁻¹ : Rat) (fraction.map digit)) := by
          rw [hshift, hpow]
          ring
      _ = 10 ^ k * (10⁻¹ * 10) * digitsValue fraction := by
          rw [ofDigits_tenth]
          ring
      _ = 10 ^ k * digitsValue fraction := by
          rw [hhead, mul_one]
  have hscale : (scale : Rat) = 10 ^ 7 := by norm_num [scale, places]
  rw [magnitude, hzeros, digitsValue_append_zeros, mul_add, hplaces, ← cast_digitsValue, ← hscale]
  push_cast
  ring

/-- Reading shifts the point by seven places. -/
theorem cast_value {n : Numeral} (h : n.fraction.length ≤ places) :
    (n.value : Rat) = 10 ^ 7 * n.rational := by
  unfold Numeral.value Numeral.rational
  cases n.negative with
  | true =>
    rw [if_pos rfl, if_pos rfl, Int.cast_neg, Int.cast_natCast, cast_magnitude h, mul_neg]
  | false =>
    rw [if_neg Bool.false_ne_true, if_neg Bool.false_ne_true, Int.cast_natCast, cast_magnitude h]

/-! ## Texts that are no numerals -/

theorem splitSign_eq (text : List Char) :
    text = if (splitSign text).1 then '-' :: (splitSign text).2 else (splitSign text).2 := by
  unfold splitSign
  split <;> rfl

/-- A text of digits and perhaps a point among them is a numeral. -/
theorem exists_numeral {text : List Char}
    (hwhole : (splitPoint (splitSign text).2).1.all Char.isDigit = true)
    (hfraction : (splitPoint (splitSign text).2).2.all Char.isDigit = true) :
    ∃ n : Numeral, text = n.chars ∧ n.whole = (splitPoint (splitSign text).2).1 ∧
      n.fraction = (splitPoint (splitSign text).2).2 := by
  have htext := splitSign_eq text
  rw [List.all_eq_true] at hwhole hfraction
  generalize (splitSign text).1 = negative at htext
  generalize (splitSign text).2 = number at htext hwhole hfraction ⊢
  unfold splitPoint at hwhole hfraction ⊢
  cases hcut : Text.splitOnce '.' number with
  | none =>
    rw [hcut] at hwhole
    refine ⟨⟨negative, number, none, hwhole, nofun⟩, ?_, rfl, rfl⟩
    simpa [Numeral.chars, Numeral.unsigned] using htext
  | some parts =>
    rw [hcut] at hwhole hfraction
    obtain ⟨hnumber, _⟩ := Text.splitOnce_eq_some_iff.1 hcut
    refine ⟨⟨negative, parts.1, some parts.2, hwhole, fun f hf => ?_⟩, ?_, rfl, rfl⟩
    · cases hf
      exact hfraction
    · simpa [Numeral.chars, Numeral.unsigned, ← hnumber] using htext

theorem parse_of_no_numeral {text : String}
    (h : ¬ ∃ n : Numeral, text.toList = n.chars ∧ n.HasDigit) :
    parse text = .error (.invalid text) := by
  unfold parse
  dsimp only
  split
  · rfl
  · next hdigit =>
    split
    · rfl
    · next hall =>
      rw [Bool.not_eq_true', Bool.not_eq_false, Bool.and_eq_true] at hall
      obtain ⟨n, hchars, hwhole, hfraction⟩ := exists_numeral hall.1 hall.2
      rw [← hwhole, ← hfraction] at hdigit
      exact absurd ⟨n, hchars, not_and_or.1 hdigit⟩ h

/-! ## Words -/

/-- A number that a word of 128 bits holds. -/
def word? (n : Int) : Option Int :=
  if -2 ^ 127 ≤ n ∧ n < 2 ^ 127 then some n else none

/-- The number that digits spell, read into a word digit by digit; nothing if a product or a sum
does not fit. -/
def digitsInWord? (start : Int) : List Char → Option Int
  | [] => some start
  | c :: rest => do
    let tens ← word? (start * 10)
    let next ← word? (tens + digit c)
    digitsInWord? next rest

/-- The ten-millionths of a number of units and a fraction of one; nothing if they do not fit. -/
def magnitudeInWord? (whole fraction : Int) : Option Int := do
  let units ← word? (whole * scale)
  word? (units + fraction)

/-- A word, or an error if there is none. -/
def wordOr (error : Error) : Option Int → Except Error Int
  | none => .error error
  | some word => .ok word

/-- The ten-millionths that an integer part and at most seven decimal places spell, with every
product and every sum tested. -/
def magnitudeInWords (text : String) (whole fraction : List Char) : Except Error Int := do
  let whole ← wordOr (.overflow text) (digitsInWord? 0 whole)
  let fraction ← wordOr (.invalid text)
    (digitsInWord? 0 (fraction ++ List.replicate (places - fraction.length) '0'))
  wordOr (.overflow text) (magnitudeInWord? whole fraction)

/-- A magnitude with a sign; nothing if that wraps. -/
def signedInWord? (negative : Bool) (magnitude : Int) : Option Int :=
  if negative then word? (-magnitude) else some magnitude

/-- The amount that a decimal number stands for, computed in words of 128 bits.  Only the sign is
not tested, and the result is nothing where it does not fit. -/
def parseInWords (text : String) : Option (Except Error Int64) :=
  let (negative, number) := splitSign text.toList
  let (whole, fraction) := splitPoint number
  if whole = [] ∧ fraction = [] then some (.error (.invalid text))
  else if !(whole.all Char.isDigit && fraction.all Char.isDigit) then some (.error (.invalid text))
  else if places < fraction.length then some (.error (.tooManyDecimals text))
  else match magnitudeInWords text whole fraction with
    | .error error => some (.error error)
    | .ok magnitude => (signedInWord? negative magnitude).map fun value =>
      if Int64.minValue.toInt ≤ value ∧ value ≤ Int64.maxValue.toInt then .ok (Int64.ofInt value)
      else .error (.overflow text)

theorem word?_of_lt {n : Nat} (h : n < 2 ^ 127) : word? n = some (n : Int) :=
  if_pos (by omega)

theorem word?_of_le {n : Nat} (h : 2 ^ 127 ≤ n) : word? n = none :=
  if_neg (by omega)

theorem le_ofDigitChars (digits : List Char) (start : Nat) :
    start ≤ Nat.ofDigitChars 10 digits start := by
  rw [Nat.ofDigitChars_eq_ofDigitChars_zero]
  exact Nat.le_add_right_of_le (Nat.le_mul_of_pos_left start (Nat.pow_pos (by decide)))

/-- Digits are read into a word exactly if their number fits: no number on the way is greater. -/
theorem digitsInWord?_eq {start : Nat} (h : start < 2 ^ 127) (digits : List Char) :
    digitsInWord? start digits = word? (Nat.ofDigitChars 10 digits start) := by
  induction digits generalizing start with
  | nil => exact (word?_of_lt h).symm
  | cons c digits ih =>
    have hnext : (start : Int) * 10 = ((10 * start : Nat) : Int) := by omega
    have hsum : ((10 * start : Nat) : Int) + digit c = ((10 * start + digit c : Nat) : Int) := by
      omega
    have hle := le_ofDigitChars digits (10 * start + digit c)
    rw [digitsInWord?, Nat.ofDigitChars_cons, hnext]
    show _ = word? (Nat.ofDigitChars 10 digits (10 * start + digit c))
    by_cases htens : 10 * start < 2 ^ 127
    · rw [word?_of_lt htens, Option.bind_eq_bind, Option.bind_some, hsum]
      by_cases hfits : 10 * start + digit c < 2 ^ 127
      · rw [word?_of_lt hfits]
        exact ih hfits
      · rw [word?_of_le (Nat.le_of_not_lt hfits), word?_of_le (by omega)]
        rfl
    · rw [word?_of_le (Nat.le_of_not_lt htens), word?_of_le (by omega)]
      rfl

theorem digitsInWord?_zero (digits : List Char) :
    digitsInWord? 0 digits = word? (digitsValue digits) :=
  @digitsInWord?_eq 0 (by decide) digits

theorem magnitudeInWord?_eq (whole fraction : Nat) :
    magnitudeInWord? whole fraction = word? ((whole * scale + fraction : Nat) : Int) := by
  have hunits : (whole : Int) * scale = ((whole * scale : Nat) : Int) := (Int.natCast_mul _ _).symm
  rw [magnitudeInWord?, hunits]
  by_cases h : whole * scale < 2 ^ 127
  · rw [word?_of_lt h, Int.natCast_add, Option.bind_eq_bind, Option.bind_some]
  · rw [word?_of_le (Nat.le_of_not_lt h), word?_of_le (by omega)]
    rfl

theorem digit_lt {c : Char} (h : c.isDigit = true) : digit c < 10 := by
  have hle : c.toNat ≤ 57 := (Char.isDigit_iff_toNat.1 h).2
  show c.toNat - 48 < 10
  omega

theorem digitsValue_lt {digits : List Char} (h : ∀ c ∈ digits, c.isDigit = true) :
    digitsValue digits < 10 ^ digits.length := by
  induction digits with
  | nil => exact Nat.one_pos
  | cons c digits ih =>
    have hrest := ih fun d hd => h d (List.mem_cons_of_mem c hd)
    have hfirst : digit c + 1 ≤ 10 := digit_lt (h c List.mem_cons_self)
    have hle := Nat.mul_le_mul_left (10 ^ digits.length) hfirst
    rw [digitsValue_cons, List.length_cons, Nat.pow_succ]
    rw [Nat.mul_add, Nat.mul_one] at hle
    omega

theorem digitsValue_append_zeros_lt {fraction : List Char}
    (h : ∀ c ∈ fraction, c.isDigit = true) (few : fraction.length ≤ places) :
    digitsValue (fraction ++ List.replicate (places - fraction.length) '0') < 2 ^ 127 := by
  have hdigits : ∀ c ∈ fraction ++ List.replicate (places - fraction.length) '0',
      c.isDigit = true := by
    intro c hc
    rcases List.mem_append.1 hc with hc | hc
    · exact h c hc
    · rw [(List.mem_replicate.1 hc).2]
      rfl
  have hlength : (fraction ++ List.replicate (places - fraction.length) '0').length = places := by
    rw [List.length_append, List.length_replicate, Nat.add_sub_cancel' few]
  have hlt := digitsValue_lt hdigits
  rw [hlength] at hlt
  exact Nat.lt_trans hlt (by decide)

/-- Nothing but too large a magnitude makes a numeral overflow. -/
theorem magnitudeInWords_eq (text : String) (whole : List Char) {fraction : List Char}
    (h : ∀ c ∈ fraction, c.isDigit = true) (few : fraction.length ≤ places) :
    magnitudeInWords text whole fraction =
      wordOr (.overflow text) (word? (magnitude whole fraction)) := by
  have hle : digitsValue whole ≤ digitsValue whole * scale :=
    Nat.le_mul_of_pos_right _ (by decide)
  rw [magnitudeInWords, digitsInWord?_zero, digitsInWord?_zero,
    word?_of_lt (digitsValue_append_zeros_lt h few)]
  by_cases hwhole : digitsValue whole < 2 ^ 127
  · rw [word?_of_lt hwhole]
    refine (Except.bind_of_ok rfl).trans ((Except.bind_of_ok rfl).trans ?_)
    rw [magnitudeInWord?_eq, magnitude]
  · have hmagnitude : 2 ^ 127 ≤ magnitude whole fraction := by
      rw [magnitude]
      omega
    rw [word?_of_le (Nat.le_of_not_lt hwhole), word?_of_le hmagnitude]
    exact Except.bind_of_error rfl

/-- A magnitude in a word also fits with a sign. -/
theorem signedInWord?_eq {n : Nat} (h : n < 2 ^ 127) (negative : Bool) :
    signedInWord? negative n = some (if negative then -(n : Int) else n) := by
  unfold signedInWord?
  cases negative with
  | true =>
    rw [if_pos rfl, if_pos rfl]
    exact if_pos (by omega)
  | false => rfl

/-- A magnitude that does not fit into a word is that of no amount. -/
theorem not_amount_of_le {n : Nat} (h : 2 ^ 127 ≤ n) (negative : Bool) :
    ¬ (Int64.minValue.toInt ≤ (if negative then -(n : Int) else n) ∧
      (if negative then -(n : Int) else n) ≤ Int64.maxValue.toInt) := by
  have hmin : Int64.minValue.toInt = -2 ^ 63 := rfl
  have hmax : Int64.maxValue.toInt = 2 ^ 63 - 1 := rfl
  rw [hmin, hmax]
  split <;> omega

/-- Reading never wraps in words of 128 bits. -/
theorem parseInWords_eq (text : String) : parseInWords text = some (parse text) := by
  unfold parseInWords parse
  dsimp only
  generalize (splitSign text.toList).1 = negative
  generalize splitPoint (splitSign text.toList).2 = parts
  by_cases hnone : parts.1 = [] ∧ parts.2 = []
  · rw [if_pos hnone, if_pos hnone]
  rw [if_neg hnone, if_neg hnone]
  by_cases hdigits : (!(parts.1.all Char.isDigit && parts.2.all Char.isDigit)) = true
  · rw [if_pos hdigits, if_pos hdigits]
  rw [if_neg hdigits, if_neg hdigits]
  by_cases hlong : places < parts.2.length
  · rw [if_pos hlong, if_pos hlong]
  rw [if_neg hlong, if_neg hlong]
  rw [Bool.not_eq_true', Bool.not_eq_false, Bool.and_eq_true] at hdigits
  rw [magnitudeInWords_eq text parts.1 (List.all_eq_true.1 hdigits.2) (Nat.le_of_not_lt hlong)]
  by_cases hfits : magnitude parts.1 parts.2 < 2 ^ 127
  · rw [word?_of_lt hfits]
    show (signedInWord? negative _).map _ = _
    rw [signedInWord?_eq hfits]
    rfl
  · rw [word?_of_le (Nat.le_of_not_lt hfits),
      if_neg (not_amount_of_le (Nat.le_of_not_lt hfits) negative)]
    rfl

/-! ## Reading is exact -/

/-- A numeral with a digit and at most seven decimal places reads as its value if 64 bits hold its
ten-millionths, and overflows otherwise. -/
theorem parse_of_few {text : String} {n : Numeral} (htext : text.toList = n.chars)
    (hdigit : n.HasDigit) (few : n.fraction.length ≤ 7) :
    parse text = if -2 ^ 63 ≤ n.value ∧ n.value ≤ 2 ^ 63 - 1 then .ok (Int64.ofInt n.value)
      else .error (.overflow text) := by
  have hparse := parse_numeral n
  rw [← htext, String.ofList_toList, if_neg (not_and_or.2 hdigit)] at hparse
  exact hparse.trans (if_neg (Nat.not_lt_of_le few))

theorem parse_of_many {text : String} {n : Numeral} (htext : text.toList = n.chars)
    (hdigit : n.HasDigit) (many : 7 < n.fraction.length) :
    parse text = .error (.tooManyDecimals text) := by
  have hparse := parse_numeral n
  rw [← htext, String.ofList_toList, if_neg (not_and_or.2 hdigit)] at hparse
  exact hparse.trans (if_pos many)

/-- Reading takes the numerals and no other texts.  A numeral has a digit, and if it has at most
seven decimal places, it is read as the ten-millionths of the rational number that it denotes; where
these do not fit into 64 bits, it overflows.  Every error has the text as it was, and words of 128
bits are enough for the computation. -/
theorem parse_exact (text : String) :
    (∀ n : Numeral, text.toList = n.chars → n.HasDigit →
      (7 < n.fraction.length → parse text = .error (.tooManyDecimals text)) ∧
      (n.fraction.length ≤ 7 → ∃ units : Int, (units : Rat) = 10 ^ 7 * n.rational ∧
        parse text = if -2 ^ 63 ≤ units ∧ units ≤ 2 ^ 63 - 1 then .ok (Int64.ofInt units)
          else .error (.overflow text))) ∧
    ((¬ ∃ n : Numeral, text.toList = n.chars ∧ n.HasDigit) →
      parse text = .error (.invalid text)) ∧
    parseInWords text = some (parse text) := by
  refine ⟨fun n htext hdigit => ⟨parse_of_many htext hdigit, fun few => ?_⟩, parse_of_no_numeral,
    parseInWords_eq text⟩
  exact ⟨n.value, cast_value few, parse_of_few htext hdigit few⟩

theorem mem_chars {n : Numeral} {c : Char} (h : c ∈ n.chars) :
    c = '-' ∨ c = '.' ∨ c.isDigit = true := by
  have hunsigned : ∀ d ∈ n.unsigned, d = '.' ∨ d.isDigit = true := by
    intro d hd
    rcases List.mem_append.1 hd with hd | hd
    · exact .inr (n.whole_digits d hd)
    · cases hf : n.fraction? with
      | none =>
        rw [hf] at hd
        cases hd
      | some fraction =>
        rw [hf] at hd
        rcases List.mem_cons.1 hd with rfl | hd
        · exact .inl rfl
        · exact .inr (n.fraction_digits fraction hf d hd)
  unfold Numeral.chars at h
  split at h
  · rcases List.mem_cons.1 h with rfl | h
    · exact .inl rfl
    · exact .inr (hunsigned c h)
  · exact .inr (hunsigned c h)

/-- Minus a half, without an integer part. -/
def minusHalf : Numeral := ⟨true, [], some ['5'], by simp, by simp⟩

theorem rational_minusHalf : minusHalf.rational = -1 / 2 := by
  have hdigit : digit '5' = 5 := rfl
  norm_num [minusHalf, Numeral.rational, Numeral.fraction, Nat.ofDigits, hdigit]

/-- Minus a half, a half with too many zeros, and a power of ten. -/
theorem parse_exact_half :
    parse "-.5" = .ok (-5000000) ∧
    parse "0.50000000" = .error (.tooManyDecimals "0.50000000") ∧
    parse "1e7" = .error (.invalid "1e7") := by
  refine ⟨?_, ?_, ?_⟩
  · obtain ⟨units, hunits, hparse⟩ :=
      ((parse_exact "-.5").1 minusHalf (by decide) (.inr (by decide))).2 (by decide)
    have hvalue : units = -5000000 := by
      rw [rational_minusHalf] at hunits
      norm_num at hunits
      exact_mod_cast hunits
    rw [hparse, hvalue]
    rfl
  · exact ((parse_exact "0.50000000").1 ⟨false, ['0'], some "50000000".toList, by simp, by simp⟩
      (by decide) (.inr (by decide))).1 (by decide)
  · refine (parse_exact "1e7").2.1 ?_
    rintro ⟨n, hchars, _⟩
    have he : 'e' ∈ n.chars := by
      rw [← hchars]
      decide
    have hno : ¬ ('e' = '-' ∨ 'e' = '.' ∨ 'e'.isDigit = true) := by decide
    exact hno (mem_chars he)

end Amount

end StellarTx
