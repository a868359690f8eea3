/-
# Formats of scalars

Numbers are decimal in text, booleans words, bytes hexadecimal and strings quoted.  Amounts and
times are numbers with a comment.
-/
import StellarTx.Format.Basic

namespace StellarTx.Format

open Xdr (Encoding Decoder)
open TxRep (Line Source)

/-- A scalar of `size` bytes whose text is one line. -/
def scalar {α : Type} (size : Nat) (encode : α → Encoding) (decode : Decoder α)
    (line : α → String → Line) (ofText? : String → Option α) : Format α where
  encode
  decode
  print a path := [line a path]
  read source _ path := source.value ofText? path
  level _ := 0
  layout _ := [.fixed size]

def uint32 : Format UInt32 :=
  scalar 4 .uint32 .uint32 (fun v path => .field path (Text.Decimal.ofUInt32 v))
    Text.Decimal.uint32?

def int32 : Format Int32 :=
  scalar 4 .int32 .int32 (fun v path => .field path (Text.Decimal.ofInt32 v)) Text.Decimal.int32?

def uint64 : Format UInt64 :=
  scalar 8 .uint64 .uint64 (fun v path => .field path (Text.Decimal.ofUInt64 v))
    Text.Decimal.uint64?

def int64 : Format Int64 :=
  scalar 8 .int64 .int64 (fun v path => .field path (Text.Decimal.ofInt64 v)) Text.Decimal.int64?

/-- The words `true` and `false`. -/
def bool : Format Bool :=
  scalar 4 .bool .bool (fun v path => .field path (if v then "true" else "false")) Source.bool?

/-- A count of ten-millionths, with the amount as a comment. -/
def amount : Format Int64 :=
  scalar 8 .int64 .int64 (fun v path => .amount path v) Text.Decimal.int64?

/-- Seconds since 1970, with the date as a comment. -/
def timestamp : Format UInt64 :=
  scalar 8 .uint64 .uint64 (fun v path => .timestamp path v) Text.Decimal.uint64?

/-- Seconds before or after 1970; those after it have the date as a comment. -/
def signedTimestamp : Format Int64 :=
  scalar 8 .int64 .int64
    (fun v path =>
      if v.toInt < 0 then .field path (Text.Decimal.ofInt64 v) else .timestamp path v.toUInt64)
    Text.Decimal.int64?

/-- Exactly `n` bytes. -/
def octets (n : Nat) : Format (Octets n) where
  encode a := .fixed a.toList
  decode := .fixed n
  print a path := [.hex path a.toList]
  read source _ path := source.octets n path
  level _ := 0
  layout _ := [.fixed (n + padLength n)]

/-- At most `max` bytes. -/
def bytes (max : Nat) : Format (List UInt8) where
  encode := .bytes max
  decode := .bytes max
  print data path := [.hex path data]
  read source _ path := source.hex max path
  level _ := 0
  layout data := [.bytes data.length max]

/-- A string of at most `max` bytes. -/
def string (max : Nat) : Format String where
  encode := .string max
  decode := .string max
  print s path := [.quoted path s]
  read source _ path := source.string max path
  level _ := 0
  layout s := [.bytes s.utf8ByteSize max]

/-- An extension point, a union with one empty arm. -/
def extension (union : String) : Format Unit where
  encode _ := .int32 0
  decode := do
    let code ← Decoder.int32
    if code = 0 then return () else Decoder.unknown union code
  print _ path := [.field (TxRep.join path "v") "0"]
  read source _ path := do
    let path := TxRep.join path "v"
    let version ← source.get path
    if version = "0" then return () else throw (.unknownArm path version)
  level _ := 0
  layout _ := [.fixed 4]

end StellarTx.Format
