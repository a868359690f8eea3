/-
# One description, two notations

A `Format α` describes the values of a type in both notations at once: as XDR bytes and as lines of
text.  Formats are put together from scalars with the operations of this module and of
`Format.Union` and `Format.Recursive`, so that a type is described once and its two notations cannot
drift apart.  Beside the four directions a format knows two measures of a value: how many levels of
nesting it takes to read it back, and the sequence of the lengths in its bytes.
-/
import StellarTx.Xdr.Decoder
import StellarTx.TxRep.Source

namespace StellarTx

open Xdr (Encoding Decoder)
open TxRep (Line Reader Source join item)

/-- What stands in the bytes of a value, as far as lengths go. -/
inductive Part where
  /-- A number of bytes that the type fixes. -/
  | fixed (size : Nat)
  /-- Bytes after their number, which has a maximum. -/
  | bytes (length max : Nat)
  /-- The number of items of an array, which has a maximum.  The items are parts of their own. -/
  | items (count max : Nat)
  deriving DecidableEq, Repr

/-- The values of a type in both notations. -/
structure Format (α : Type) where
  /-- The bytes of a value. -/
  encode : α → Encoding
  /-- Takes a value from the front of bytes. -/
  decode : Decoder α
  /-- The lines of a value at a path. -/
  print : α → String → List Line
  /-- Looks a value up at a path. -/
  read : Reader α
  /-- Levels of nesting in a value. -/
  level : α → Nat
  /-- The lengths in the bytes of a value, in order. -/
  layout : α → List Part

namespace Format

variable {α β : Type}

/-! ## Whole values -/

/-- The bytes of a value. -/
def toBytes (f : Format α) (a : α) : Except Xdr.Error (List UInt8) :=
  match f.encode a with
  | .ok bytes => .ok bytes
  | .error e => .error (.excess e)

/-- The value that a whole byte string holds. -/
def ofBytes (f : Format α) (bytes : List UInt8) : Except Xdr.Error α :=
  f.decode.run .start bytes

/-- The bytes of a value in base 64. -/
def toBase64 (f : Format α) (a : α) : Except Xdr.Error String :=
  Text.Base64.encode <$> f.toBytes a

/-- The value that base 64 text holds; blanks around the text do not count. -/
def ofBase64 (f : Format α) (text : String) : Except Xdr.Error α :=
  match Text.Base64.decode (String.ofList (Text.trim text.toList)) with
  | .ok bytes => f.ofBytes bytes
  | .error e => .error (.base64 e)

/-- The text of a value at a path. -/
def toText (f : Format α) (a : α) (path : String) : String :=
  TxRep.render (f.print a path)

/-- The value at a path of fields. -/
def ofSource (f : Format α) (source : Source) (path : String) : Except TxRep.Error α :=
  f.read source TxRep.maxLevels path

/-- The value at a path of a text. -/
def ofText (f : Format α) (text : String) (path : String) : Except TxRep.Error α := do
  f.ofSource (← Source.parse text) path

/-! ## Sequences -/

/-- No value at all. -/
def unit : Format Unit where
  encode _ := .empty
  decode := return ()
  print _ _ := []
  read _ _ _ := .ok ()
  level _ := 0
  layout _ := []

/-- A value at the path of a field. -/
def field (name : String) (f : Format α) : Format α where
  encode := f.encode
  decode := f.decode
  print a path := f.print a (join path name)
  read source levels path := f.read source levels (join path name)
  level := f.level
  layout := f.layout

/-- One value after another, at the same path. -/
def and (f : Format α) (g : Format β) : Format (α × β) where
  encode p := f.encode p.1 ++ g.encode p.2
  decode := do
    let a ← f.decode
    let b ← g.decode
    return (a, b)
  print p path := f.print p.1 path ++ g.print p.2 path
  read source levels path := do
    let a ← f.read source levels path
    let b ← g.read source levels path
    return (a, b)
  level p := max (f.level p.1) (g.level p.2)
  layout p := f.layout p.1 ++ g.layout p.2

/-- The same values under other names, which a pair of functions that undo each other relates. -/
def map (f : Format α) (make : α → β) (parts : β → α)
    (_parts_make : ∀ a, parts (make a) = a := by intro a; cases a; rfl)
    (_make_parts : ∀ b, make (parts b) = b := by intro b; cases b; rfl) : Format β where
  encode b := f.encode (parts b)
  decode := make <$> f.decode
  print b path := f.print (parts b) path
  read source levels path := make <$> f.read source levels path
  level b := f.level (parts b)
  layout b := f.layout (parts b)

/-! ## Optional values and arrays -/

/-- A value that may be absent: a flag, then the value. -/
def option (f : Format α) : Format (Option α) where
  encode
    | none => .bool false
    | some a => .bool true ++ f.encode a
  decode := do
    if ← Decoder.bool then some <$> f.decode else return none
  print o path :=
    let flag := Line.field (join path "_present") (if o.isSome then "true" else "false")
    match o with
    | none => [flag]
    | some a => flag :: f.print a path
  read source levels path := do
    if ← source.present path then some <$> f.read source levels path else return none
  level
    | none => 0
    | some a => f.level a
  layout
    | none => [.fixed 4]
    | some a => .fixed 4 :: f.layout a

/-- The lines of items, the first of which has index `i`. -/
def printItems (f : Format α) (path : String) (i : Nat) : List α → List Line
  | [] => []
  | a :: rest => f.print a (item path i) ++ printItems f path (i + 1) rest

/-- Looks up items, the first of which has index `i`. -/
def readItems (f : Format α) (source : Source) (levels : Nat) (path : String) (i : Nat) :
    Nat → Except TxRep.Error (List α)
  | 0 => .ok []
  | n + 1 => do
    let a ← f.read source levels (item path i)
    let rest ← readItems f source levels path (i + 1) n
    return a :: rest

/-- The greatest level of items, zero if there are none. -/
def maxLevel (f : Format α) (items : List α) : Nat :=
  items.foldr (fun a n => max (f.level a) n) 0

/-- At most `max` items after their number. -/
def array (max : Nat) (f : Format α) : Format (List α) where
  encode items := .count items.length max ++ .concat (items.map f.encode)
  decode := .array max f.decode
  print items path :=
    Line.field (join path "len") (Text.Decimal.ofNat items.length) :: f.printItems path 0 items
  read source levels path := do
    f.readItems source levels path 0 (← source.length max path)
  level := f.maxLevel
  layout items := .items items.length max :: items.flatMap f.layout

/-- A value that costs one level of nesting. -/
def deeper (f : Format α) : Format α where
  encode := f.encode
  decode := f.decode.deeper
  print := f.print
  read := f.read.deeper
  level a := f.level a + 1
  layout := f.layout

/-! ## Another text form -/

/-- The same bytes, but in text a single word. -/
def token (f : Format α) (text : α → String) (ofText? : String → Option α) : Format α where
  encode := f.encode
  decode := f.decode
  print a path := [Line.field path (text a)]
  read source _ path := source.value ofText? path
  level := f.level
  layout := f.layout

end Format

end StellarTx
