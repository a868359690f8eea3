/-
# Text inside messages

A message shows a piece of the user's text between double quotes and a single character between
single quotes.  A null, tab, line feed, carriage return, backslash or the enclosing quote is written
with a backslash, and a character that leaves no visible mark by its code point.
-/
import StellarTx.Text.Hidden

namespace StellarTx.Text.Shown

/-- The lower-case hexadecimal digits of a code point, without leading zeros. -/
def codePoint (c : Char) : List Char :=
  Nat.toDigits 16 c.toNat

/-- One character as a message shows it between two `quote`s. -/
def escapeChar (quote c : Char) : List Char :=
  if c = '\x00' then ['\\', '0']
  else if c = '\t' then ['\\', 't']
  else if c = '\n' then ['\\', 'n']
  else if c = '\r' then ['\\', 'r']
  else if c = '\\' || c = quote then ['\\', c]
  else if isHidden c then ['\\', 'u', '\x7b'] ++ codePoint c ++ ['\x7d']
  else [c]

/-- The single quote. -/
def singleQuote : Char := '\x27'

/-- Text between double quotes. -/
def text (s : String) : String :=
  String.ofList ('"' :: (s.toList.flatMap (escapeChar '"') ++ ['"']))

/-- A character between single quotes. -/
def char (c : Char) : String :=
  String.ofList (singleQuote :: (escapeChar singleQuote c ++ [singleQuote]))

end StellarTx.Text.Shown
