/-
# Decimal integers

Integers are written without superfluous zeros or a plus sign.  Reading takes an optional plus
sign (for a signed range also a minus sign) and one or more ASCII digits, leading zeros included,
and refuses what lies outside the range.  Main statements: what was written reads back
(`natural?_ofNat`, `integer?_ofInt`).
-/

namespace StellarTx.Text.Decimal

/-- The digits of a number, most significant first. -/
def digits (n : Nat) : List Char :=
  Nat.toDigits 10 n

/-- The number that one or more ASCII digits spell. -/
def ofDigits? (text : List Char) : Option Nat :=
  if text ≠ [] ∧ text.all Char.isDigit then some (Nat.ofDigitChars 10 text 0) else none

/-- A number in decimal. -/
def ofNat (n : Nat) : String :=
  String.ofList (digits n)

/-- An integer in decimal, with a minus sign when it is negative. -/
def ofInt : Int → String
  | .ofNat n => ofNat n
  | .negSucc n => String.ofList ('-' :: digits (n + 1))

/-- The number below `bound` that the text spells, after an optional plus sign. -/
def natural? (bound : Nat) (text : String) : Option Nat :=
  let magnitude? := match text.toList with
    | '+' :: rest => ofDigits? rest
    | rest => ofDigits? rest
  magnitude?.filter (· < bound)

/-- The integer from `-bound` to `bound - 1` that the text spells, after an optional sign. -/
def integer? (bound : Nat) (text : String) : Option Int :=
  let value? : Option Int := match text.toList with
    | '+' :: rest => (ofDigits? rest).map Int.ofNat
    | '-' :: rest => (ofDigits? rest).map fun n => -Int.ofNat n
    | rest => (ofDigits? rest).map Int.ofNat
  value?.filter fun v => decide (-(bound : Int) ≤ v ∧ v < bound)

/-! ## Machine integers -/

def ofUInt32 (v : UInt32) : String := ofNat v.toNat
def ofUInt64 (v : UInt64) : String := ofNat v.toNat
def ofInt32 (v : Int32) : String := ofInt v.toInt
def ofInt64 (v : Int64) : String := ofInt v.toInt

def uint32? (text : String) : Option UInt32 := (natural? UInt32.size text).map UInt32.ofNat
def uint64? (text : String) : Option UInt64 := (natural? UInt64.size text).map UInt64.ofNat
def int32? (text : String) : Option Int32 := (integer? (UInt32.size / 2) text).map Int32.ofInt
def int64? (text : String) : Option Int64 := (integer? (UInt64.size / 2) text).map Int64.ofInt

/-! ## Laws -/

theorem isDigit_of_mem_digits {n : Nat} {c : Char} (h : c ∈ digits n) : c.isDigit = true :=
  Nat.isDigit_of_mem_toDigits (by decide) (by decide) h

theorem digits_ne_nil (n : Nat) : digits n ≠ [] :=
  Nat.toDigits_ne_nil

theorem ofDigits?_digits (n : Nat) : ofDigits? (digits n) = some n := by
  have h : ∀ c ∈ digits n, c.isDigit = true := fun c hc => isDigit_of_mem_digits hc
  simp only [ofDigits?, digits_ne_nil, ne_eq, not_false_eq_true, true_and, List.all_eq_true]
  rw [if_pos h]
  simp [digits]

/-- The first digit is neither sign. -/
theorem digits_ne_sign_cons {n : Nat} {c : Char} (h : c.isDigit = false) (rest : List Char) :
    digits n ≠ c :: rest := by
  intro e
  have : c.isDigit = true := isDigit_of_mem_digits (n := n) (by simp [e])
  simp [h] at this

theorem natural?_ofNat {bound n : Nat} (h : n < bound) : natural? bound (ofNat n) = some n := by
  unfold natural? ofNat
  simp only [String.toList_ofList]
  split
  · next rest e => exact absurd e (digits_ne_sign_cons (by decide) rest)
  · simp [ofDigits?_digits, h]

theorem integer?_ofInt {bound : Nat} {v : Int} (lo : -(bound : Int) ≤ v) (hi : v < bound) :
    integer? bound (ofInt v) = some v := by
  unfold integer?
  cases v with
  | ofNat n =>
    simp only [ofInt, ofNat, String.toList_ofList]
    split
    · next rest e => exact absurd e (digits_ne_sign_cons (by decide) rest)
    · next rest e => exact absurd e (digits_ne_sign_cons (by decide) rest)
    · simp [ofDigits?_digits] at lo hi ⊢; omega
  | negSucc n =>
    simp only [ofInt, String.toList_ofList, ofDigits?_digits, Option.map_some]
    have e : -Int.ofNat (n + 1) = Int.negSucc n := rfl
    rw [e]
    simp only [Option.filter_some, lo, hi, and_self, decide_true, if_true]

end StellarTx.Text.Decimal
