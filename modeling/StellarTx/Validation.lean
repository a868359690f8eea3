/-
# Why a value is refused before it is written

Constructors that check their input, and the check of a whole operation, refuse a value for one of
these causes.
-/
import StellarTx.StrKey.Error

namespace StellarTx

/-- The parts of a transaction whose length is checked, with the maximum of each. -/
inductive BoundedField where
  | memoText
  | homeDomain
  | dataName
  | dataValue
  | paymentPath
  | claimants
  deriving DecidableEq, Repr

namespace BoundedField

/-- The name that a message uses. -/
def label : BoundedField → String
  | memoText => "memo text"
  | homeDomain => "home domain"
  | dataName => "data name"
  | dataValue => "data value"
  | paymentPath => "payment path"
  | claimants => "claimants"

/-- The greatest length: bytes of text and data, items of lists. -/
def max : BoundedField → Nat
  | memoText => 28
  | homeDomain => 32
  | dataName => 64
  | dataValue => 64
  | paymentPath => 5
  | claimants => 10

end BoundedField

/-- The two ways to join conditions. -/
inductive Connective where
  | and
  | or
  deriving DecidableEq, Repr

/-- The name of a connective. -/
def Connective.label : Connective → String
  | .and => "AND"
  | .or => "OR"

/-- Why a value is refused. -/
inductive ValidationError where
  /-- Not one to twelve letters or digits. -/
  | assetCode (text : String)
  /-- Neither the native asset nor a code and an issuer. -/
  | asset (text : String)
  | zeroDenominator
  | negativePrice (n d : Int32)
  | tooLong (field : BoundedField) (length : Nat)
  /-- A connective takes exactly two conditions. -/
  | arity (connective : Connective) (count : Nat)
  /-- A negation without a condition. -/
  | emptyNot
  /-- The issuer of an asset is no account. -/
  | key (e : StrKey.Error)
  deriving DecidableEq, Repr

namespace ValidationError

/-- The wording of an error. -/
def message : ValidationError → String
  | assetCode text => s!"invalid asset code {Text.Shown.text text}"
  | asset text => s!"invalid asset {Text.Shown.text text}"
  | zeroDenominator => "price denominator must not be zero"
  | negativePrice n d => s!"price must be positive, got {n.toInt}/{d.toInt}"
  | tooLong field length => s!"{field.label} is {length} bytes, maximum is {field.max}"
  | arity connective count =>
    s!"{connective.label} predicate needs exactly 2 children, got {count}"
  | emptyNot => "NOT predicate without a child"
  | key e => e.message

end ValidationError

/-- Refuses a field that is too long. -/
def BoundedField.check (field : BoundedField) (length : Nat) : Except ValidationError Unit :=
  if field.max < length then .error (.tooLong field length) else .ok ()

end StellarTx
