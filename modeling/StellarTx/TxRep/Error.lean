/-
# Why text is no transaction

Every cause names the path or the line at fault.
-/
import StellarTx.Text.Shown

namespace StellarTx.TxRep

/-- Why text cannot be read. -/
inductive Error where
  /-- A field is absent. -/
  | missing (path : String)
  /-- A value is not of the field's type. -/
  | malformed (path value : String)
  /-- A union has no arm of this name. -/
  | unknownArm (path arm : String)
  /-- An array has more items than it may. -/
  | arrayLength (path : String) (length max : Nat)
  /-- A line is not a path and a value; lines count from one. -/
  | line (number : Nat)
  /-- A path is given twice. -/
  | duplicate (path : String)
  /-- Values are nested too deep. -/
  | depth (path : String)
  deriving DecidableEq, Repr

/-- The wording of an error. -/
def Error.message : Error → String
  | .missing path => s!"missing field {path}"
  | .malformed path value => s!"malformed value {Text.Shown.text value} for {path}"
  | .unknownArm path arm => s!"unknown arm {Text.Shown.text arm} for {path}"
  | .arrayLength path length max => s!"{path} has length {length}, maximum is {max}"
  | .line number => s!"line {number} is not of the form `path: value`"
  | .duplicate path => s!"duplicate field {path}"
  | .depth path => s!"nesting too deep at {path}"

end StellarTx.TxRep
