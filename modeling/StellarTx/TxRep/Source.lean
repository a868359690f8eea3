/-
# Text taken apart into fields

A `Source` maps paths to values.  Blank lines are skipped; every other line is `path: value`,
optionally with a comment in parentheses, and no path is given twice.  Fields are looked up by path,
so neither the order of the lines nor their layout matters.  A `Reader` looks up a value at a path;
it may enter nested values as often as it has levels left.
-/
import StellarTx.Octets
import StellarTx.Text.Blank
import StellarTx.TxRep.Error
import StellarTx.TxRep.Line

namespace StellarTx.TxRep

/-- Paths and their values, last line first. -/
structure Source where
  fields : List (String × String)
  deriving DecidableEq, Repr

namespace Source

/-! ## Lines -/

/-- The end of a quoted string: the characters through the closing quote, and what follows. -/
def splitQuoted : List Char → Option (List Char × List Char)
  | [] => none
  | '"' :: rest => some (['"'], rest)
  | '\\' :: c :: rest => (splitQuoted rest).map fun (quoted, after) => ('\\' :: c :: quoted, after)
  | c :: rest => (splitQuoted rest).map fun (quoted, after) => (c :: quoted, after)

/-- A value and what follows it.  A value in quotes ends with its closing quote, any other at the
first blank. -/
def splitValue : List Char → Option (List Char × List Char)
  | '"' :: rest => (splitQuoted rest).map fun (quoted, after) => ('"' :: quoted, after)
  | text => some (text.takeWhile (!Text.isBlank ·), text.dropWhile (!Text.isBlank ·))

/-- Whether nothing or a comment follows a value. -/
def isComment (after : List Char) : Bool :=
  match Text.trimStart after with
  | [] => true
  | c :: _ => c == '('

/-- The value at the front of a text, if nothing but a comment follows it. -/
def valueToken? (text : List Char) : Option (List Char) := do
  let (value, after) ← splitValue text
  if isComment after then some value else none

/-- The path and the value on a line that is not blank. -/
def fieldOfLine? (line : List Char) : Option (String × String) := do
  let (path, rest) ← Text.splitOnce ':' line
  let path := Text.trim path
  if path = [] ∨ path.any Text.isBlank then none
  let value ← valueToken? (Text.trim rest)
  return (String.ofList path, String.ofList value)

/-- The value at a path. -/
def get? (source : Source) (path : String) : Option String :=
  source.fields.lookup path

/-- Whether there is a field at a path. -/
def contains (source : Source) (path : String) : Bool :=
  (source.get? path).isSome

/-- Adds the fields of lines, the first of which has the given number. -/
def addLines (source : Source) (number : Nat) : List (List Char) → Except Error Source
  | [] => .ok source
  | line :: rest =>
    let line := Text.trim line
    if line = [] then addLines source (number + 1) rest
    else match fieldOfLine? line with
      | none => .error (.line number)
      | some (path, value) =>
        if source.contains path then .error (.duplicate path)
        else addLines ⟨(path, value) :: source.fields⟩ (number + 1) rest

/-- The fields of a text. -/
def parse (text : String) : Except Error Source :=
  addLines ⟨[]⟩ 1 (Text.pieces '\n' text.toList)

end Source

/-! ## Looking values up -/

/-- Looks up a value at a path, with a number of levels that may still be entered. -/
def Reader (α : Type) := Source → Nat → String → Except Error α

/-- The number of levels that a whole text may have. -/
def maxLevels : Nat := 64

namespace Source

/-- The value at a path, as it stands. -/
def get (source : Source) (path : String) : Except Error String :=
  match source.get? path with
  | some value => .ok value
  | none => .error (.missing path)

/-- The value at a path, as one of a type. -/
def value {α : Type} (ofText? : String → Option α) (source : Source) (path : String) :
    Except Error α := do
  let text ← source.get path
  match ofText? text with
  | some a => return a
  | none => throw (.malformed path text)

/-- The word `true` or `false`. -/
def bool? (text : String) : Option Bool :=
  if text = "true" then some true else if text = "false" then some false else none

def bool (source : Source) (path : String) : Except Error Bool :=
  source.value bool? path

/-- A quoted string of at most `max` bytes. -/
def string (max : Nat) (source : Source) (path : String) : Except Error String :=
  source.value (fun text => (Text.Quoted.unquote? text).filter (·.utf8ByteSize ≤ max)) path

/-- At most `max` bytes in hexadecimal. -/
def hex (max : Nat) (source : Source) (path : String) : Except Error (List UInt8) :=
  source.value (fun text => (Text.Hex.decode? text).filter (·.length ≤ max)) path

/-- Exactly `n` bytes in hexadecimal. -/
def octets (n : Nat) (source : Source) (path : String) : Except Error (Octets n) :=
  source.value (fun text => (Text.Hex.decode? text).bind (Octets.ofList? n)) path

/-- The number of items of the array at a path, at most `max`. -/
def length (max : Nat) (source : Source) (path : String) : Except Error Nat := do
  let length ← source.value (Text.Decimal.natural? UInt64.size) (join path "len")
  if max < length then throw (.arrayLength path length max)
  return length

/-- Whether the optional value at a path is there. -/
def present (source : Source) (path : String) : Except Error Bool :=
  source.bool (join path "_present")

/-- The name of the arm of the union at a path. -/
def arm (source : Source) (path : String) : Except Error String :=
  source.get (join path "type")

end Source

namespace Reader

/-- A value one level deeper. -/
def deeper {α : Type} (reader : Reader α) : Reader α := fun source levels path =>
  match levels with
  | 0 => .error (.depth path)
  | levels + 1 => reader source levels path

end Reader

end StellarTx.TxRep
