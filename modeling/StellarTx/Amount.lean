/-
# Amounts

Amounts are 64-bit counts of a unit's ten-millionths.  As text they are decimal numbers: an optional
minus sign, an integer part and up to seven decimal places, written without superfluous zeros.
Reading takes any number of leading zeros and lets either part be empty, but not both.
-/
import StellarTx.Text.Blank
import StellarTx.Text.Decimal
import StellarTx.Text.Shown

namespace StellarTx.Amount

/-- Decimal places of an amount. -/
def places : Nat := 7

/-- Ten-millionths in a unit. -/
def scale : Nat := Nat.pow 10 places

/-! ## Writing -/

/-- The decimal places of a fraction of a unit, without zeros at the end. -/
def fractionDigits (fraction : Nat) : List Char :=
  let digits := Text.Decimal.digits fraction
  let all := List.replicate (places - digits.length) '0' ++ digits
  (all.reverse.dropWhile (· = '0')).reverse

/-- A non-negative amount. -/
def magnitudeChars (n : Nat) : List Char :=
  let whole := Text.Decimal.digits (n / scale)
  if n % scale = 0 then whole else whole ++ '.' :: fractionDigits (n % scale)

/-- An amount as a decimal number. -/
def format (amount : Int64) : String :=
  let sign := if amount.toInt < 0 then ['-'] else []
  String.ofList (sign ++ magnitudeChars amount.toInt.natAbs)

/-! ## Reading -/

/-- Why a text is no amount; each cause carries the text. -/
inductive Error where
  | invalid (text : String)
  | tooManyDecimals (text : String)
  | overflow (text : String)
  deriving DecidableEq, Repr

/-- The wording of an error. -/
def Error.message : Error → String
  | .invalid text => s!"amount {Text.Shown.text text} is not a decimal number"
  | .tooManyDecimals text => s!"amount {Text.Shown.text text} has more than 7 decimal places"
  | .overflow text => s!"amount {Text.Shown.text text} does not fit in 64 bits of stroops"

/-- The number that digits spell; none is zero. -/
def digitsValue (digits : List Char) : Nat :=
  Nat.ofDigitChars 10 digits 0

/-- The ten-millionths that an integer part and at most seven decimal places spell. -/
def magnitude (whole fraction : List Char) : Nat :=
  digitsValue whole * scale +
    digitsValue (fraction ++ List.replicate (places - fraction.length) '0')

/-- The sign of a number and what follows it. -/
def splitSign : List Char → Bool × List Char
  | '-' :: rest => (true, rest)
  | rest => (false, rest)

/-- The integer part and the decimal places. -/
def splitPoint (text : List Char) : List Char × List Char :=
  (Text.splitOnce '.' text).getD (text, [])

/-- The amount that a decimal number stands for. -/
def parse (text : String) : Except Error Int64 :=
  let (negative, number) := splitSign text.toList
  let (whole, fraction) := splitPoint number
  if whole = [] ∧ fraction = [] then .error (.invalid text)
  else if !(whole.all Char.isDigit && fraction.all Char.isDigit) then .error (.invalid text)
  else if places < fraction.length then .error (.tooManyDecimals text)
  else
    let magnitude : Int := magnitude whole fraction
    let value := if negative then -magnitude else magnitude
    if Int64.minValue.toInt ≤ value ∧ value ≤ Int64.maxValue.toInt then .ok (Int64.ofInt value)
    else .error (.overflow text)

end StellarTx.Amount
