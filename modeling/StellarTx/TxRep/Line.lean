/-
# The lines of the text form

The text form of a transaction is a list of lines `path: value`, one for each leaf, some with a
comment in parentheses.  A path leads from the whole to a part: `.name` for a field, `[i]` for an
item.
-/
import StellarTx.Amount
import StellarTx.Calendar
import StellarTx.Text.Hex
import StellarTx.Text.Quoted

namespace StellarTx.TxRep

/-- The path of the field `name` of the value at `path`; at the root it is the name alone. -/
def join (path name : String) : String :=
  if path.isEmpty then name else path ++ "." ++ name

/-- The path of item `i` of the array at `path`. -/
def item (path : String) (i : Nat) : String :=
  path ++ "[" ++ Text.Decimal.ofNat i ++ "]"

/-- One line: a path, a value, and a comment for the human reader. -/
structure Line where
  path : String
  value : String
  comment : Option String
  deriving DecidableEq, Repr

namespace Line

/-- The text of a line, with its line feed. -/
def render (line : Line) : String :=
  match line.comment with
  | none => line.path ++ ": " ++ line.value ++ "\n"
  | some comment => line.path ++ ": " ++ line.value ++ " (" ++ comment ++ ")\n"

/-- A value that stands as it is. -/
def field (path value : String) : Line := ⟨path, value, none⟩

/-- A string in quotes. -/
def quoted (path value : String) : Line := field path (Text.Quoted.quote value)

/-- Bytes in hexadecimal. -/
def hex (path : String) (bytes : List UInt8) : Line := field path (Text.Hex.encode bytes)

/-- A count of ten-millionths, with the amount as a comment. -/
def amount (path : String) (v : Int64) : Line :=
  ⟨path, Text.Decimal.ofInt64 v, some (Amount.format v ++ "e7")⟩

/-- Seconds since 1970, with the date as a comment. -/
def timestamp (path : String) (seconds : UInt64) : Line :=
  ⟨path, Text.Decimal.ofUInt64 seconds, Calendar.timestampText? seconds.toNat⟩

/-- The name of the arm of the union at `path`. -/
def arm (path name : String) : Line := field (join path "type") name

/-- The only arm of the extension point of the value at `path`. -/
def extension (path : String) : Line := field (join path "ext.v") "0"

end Line

/-- The text of lines. -/
def render (lines : List Line) : String :=
  String.join (lines.map Line.render)

end StellarTx.TxRep
