/-
# Formats of unions

A value of a union is in one of its arms.  In bytes an arm is a discriminant followed by what the
arm holds, in text the line `type` with the name of the arm followed by the same.
-/
import StellarTx.Format.Basic

namespace StellarTx

open Xdr (Encoding Decoder)
open TxRep (Line Source join)

/-- One arm of a union: its discriminant, its name, and what it holds. -/
structure Arm (α : Type) where
  code : Int32
  label : String
  {Payload : Type}
  format : Format Payload
  /-- The value that holds a payload in this arm. -/
  make : Payload → α
  /-- What a value holds, if it is in this arm. -/
  get? : α → Option Payload
  get?_make : ∀ p, get? (make p) = some p
  make_of_get? : ∀ a p, get? a = some p → make p = a

namespace Arm

variable {α β : Type}

/-- The bytes of a value that is in this arm. -/
def encode? (arm : Arm α) (a : α) : Option Encoding :=
  (arm.get? a).map fun p => .int32 arm.code ++ arm.format.encode p

/-- The lines of a value that is in this arm. -/
def print? (arm : Arm α) (path : String) (a : α) : Option (List Line) :=
  (arm.get? a).map fun p => .arm path arm.label :: arm.format.print p path

/-- The levels of a value that is in this arm. -/
def level? (arm : Arm α) (a : α) : Option Nat :=
  (arm.get? a).map arm.format.level

/-- The lengths in the bytes of a value that is in this arm. -/
def layout? (arm : Arm α) (a : α) : Option (List Part) :=
  (arm.get? a).map fun p => .fixed 4 :: arm.format.layout p

/-- The same arm in a larger type that the values are embedded in. -/
def lift (arm : Arm α) (embed : α → β) (restrict? : β → Option α)
    (restrict?_embed : ∀ a, restrict? (embed a) = some a)
    (embed_of_restrict? : ∀ b a, restrict? b = some a → embed a = b) : Arm β where
  code := arm.code
  label := arm.label
  format := arm.format
  make p := embed (arm.make p)
  get? b := (restrict? b).bind arm.get?
  get?_make p := by simp [restrict?_embed, arm.get?_make]
  make_of_get? b p h := by
    obtain ⟨a, ha, hp⟩ := Option.bind_eq_some_iff.1 h
    rw [arm.make_of_get? a p hp, embed_of_restrict? b a ha]

end Arm

namespace Format

variable {α β : Type}

/-- An arm from its discriminant, its name, what it holds, and the two functions between a payload
and a value. -/
def arm (code : Int32) (label : String) (format : Format β) (make : β → α) (get? : α → Option β)
    (get?_make : ∀ p, get? (make p) = some p := by intros; rfl)
    (make_of_get? : ∀ a p, get? a = some p → make p = a := by
      intro a p h; cases a <;> cases h <;> rfl) : Arm α :=
  { code, label, format, make, get?, get?_make, make_of_get? }

/-- An arm that holds nothing, for the values that a test picks out. -/
def void (code : Int32) (label : String) (value : α) (get? : α → Option Unit)
    (get?_make : ∀ p : Unit, get? value = some p := by intros; rfl)
    (make_of_get? : ∀ a, ∀ p : Unit, get? a = some p → value = a := by
      intro a p h; cases a <;> cases h <;> rfl) : Arm α :=
  arm code label unit (fun _ => value) get? get?_make make_of_get?

/-- A union with the given arms.  Its name is the one that errors use. -/
def union (name : String) (arms : List (Arm α)) : Format α where
  encode a := (arms.findSome? (·.encode? a)).getD .empty
  decode := do
    let code ← Decoder.int32
    match arms.find? (·.code == code) with
    | some arm => arm.make <$> arm.format.decode
    | none => Decoder.unknown name code
  print a path := (arms.findSome? (·.print? path a)).getD []
  read source levels path := do
    let label ← source.arm path
    match arms.find? (·.label == label) with
    | some arm => arm.make <$> arm.format.read source levels path
    | none => throw (.unknownArm (join path "type") label)
  level a := (arms.findSome? (·.level? a)).getD 0
  layout a := (arms.findSome? (·.layout? a)).getD []

/-- The discriminant selects the arm to read. -/
theorem decode_union (name : String) (arms : List (Arm α)) :
    (union name arms).decode = Decoder.int32 >>= fun code =>
      (arms.find? (·.code == code)).elim (Decoder.unknown name code)
        fun arm => arm.make <$> arm.format.decode := by
  show (Decoder.int32 >>= _) = _
  congr 1
  funext code
  cases arms.find? (·.code == code) <;> rfl

/-- The name selects the arm to read. -/
theorem read_union (name : String) (arms : List (Arm α)) (source : Source) (levels : Nat)
    (path : String) :
    (union name arms).read source levels path = source.arm path >>= fun label =>
      (arms.find? (·.label == label)).elim (Except.error (.unknownArm (join path "type") label))
        fun arm => arm.make <$> arm.format.read source levels path := by
  show (source.arm path >>= _) = _
  congr 1
  funext label
  cases arms.find? (·.label == label) <;> rfl

end Format

end StellarTx
