/-
# Formats of nested values

A type whose values hold values of the same type is described by one layer, given a format for the
values inside, which stand only under `Format.deeper`.  Unrolled `n` times the layer describes the
values of level `n` and below.  `Format.fix` unrolls it as far as the value at hand, or the limits
of a reader, call for.
-/
import StellarTx.Format.Basic

namespace StellarTx.Format

variable {α : Type}

/-- The format with no values that can be read. -/
def stuck : Format α where
  encode _ := .empty
  decode := Xdr.Decoder.fail fun _ => .depth Xdr.maxLevels
  print _ _ := []
  read _ _ path := .error (.depth path)
  level _ := 0
  layout _ := []

/-- The same format, put together only when it is used. -/
def delayed (f : Unit → Format α) : Format α where
  encode a := (f ()).encode a
  decode limits input := (f ()).decode limits input
  print a path := (f ()).print a path
  read source levels path := (f ()).read source levels path
  level a := (f ()).level a
  layout a := (f ()).layout a

/-- The values that nest at most `n` levels deep, described layer by layer. -/
def unroll (layer : Format α → Format α) : Nat → Format α
  | 0 => layer stuck
  | n + 1 => layer (delayed fun _ => unroll layer n)

/-- The format of a nested type from one layer of it and the level of its values. -/
def fix (layer : Format α → Format α) (level : α → Nat) : Format α where
  encode a := (unroll layer (level a)).encode a
  decode limits input := (unroll layer limits.levels).decode limits input
  print a path := (unroll layer (level a)).print a path
  read source levels path := (unroll layer levels).read source levels path
  level := level
  layout a := (unroll layer (level a)).layout a

end StellarTx.Format
