/-
# Decoders as programs

A program is a sequence of the operations that a reader of XDR offers, each of which may depend on
what the ones before it have read.  `Program.decode` runs it as a decoder, and the decoder of every
wire type is that of some program: `WireType.exists_reads`.  What holds of every operation, and is
kept when one follows another, therefore holds of every wire type.
-/
import StellarTx.Proofs.WireType

namespace StellarTx

namespace Xdr

/-- What a reader is asked to do. -/
inductive Program : Type → Type 1 where
  /-- Nothing but to return a value. -/
  | pure {α : Type} (a : α) : Program α
  | bind {α β : Type} (p : Program α) (next : α → Program β) : Program β
  | uint32 : Program UInt32
  | uint64 : Program UInt64
  | bool : Program Bool
  | fixed (n : Nat) : Program (Octets n)
  | bytes (max : Nat) : Program (List UInt8)
  | string (max : Nat) : Program String
  | array {α : Type} (max : Nat) (item : Program α) : Program (List α)
  /-- What a discriminant selects, if it is a known one. -/
  | select {α : Type} (union : String) (known : Int32 → Bool) (next : Int32 → Program α) : Program α
  /-- One level deeper. -/
  | nested {α : Type} (p : Program α) : Program α
  /-- To give up for the depth. -/
  | tooDeep {α : Type} : Program α

namespace Program

variable {α β : Type} {n : Nat}

/-- The decoder that a program describes. -/
def decode {α : Type} : Program α → Decoder α
  | pure a => Pure.pure a
  | bind p next => p.decode >>= fun a => (next a).decode
  | uint32 => .uint32
  | uint64 => .uint64
  | bool => .bool
  | fixed n => .fixed n
  | bytes max => .bytes max
  | string max => .string max
  | array max item => .array max item.decode
  | select union known next => Decoder.int32 >>= fun code =>
    if known code then (next code).decode else .unknown union code
  | nested p => p.decode.deeper
  | tooDeep => .fail fun _ => .depth maxLevels

/-- What was read, under another name. -/
def map (g : α → β) (p : Program α) : Program β := bind p fun a => pure (g a)

/-- A number with a sign is the same four bytes read in another way. -/
def int32 : Program Int32 := map UInt32.toInt32 uint32

/-- The same for eight bytes. -/
def int64 : Program Int64 := map UInt64.toInt64 uint64

/-- The program reads what the format reads. -/
def Reads (p : Program α) (f : Format α) : Prop := Decoder.Agree maxLevels p.decode f.decode

end Program

end Xdr

namespace Format

open Xdr (Decoder Program)

variable {α β : Type} {n : Nat} {f : Format α} {g : Format β}

/-- The format reads, within `n` levels, as a program does. -/
def Programmed (n : Nat) (f : Format α) : Prop :=
  ∃ p : Program α, Decoder.Agree n p.decode f.decode

namespace Programmed

/-- Every scalar is read by an instruction of its own, or as a number with another name. -/
theorem scalar (h : Scalar f) : Programmed n f := by
  cases h with
  | uint32 => exact ⟨.uint32, .refl _⟩
  | int32 => exact ⟨.int32, .refl _⟩
  | uint64 => exact ⟨.uint64, .refl _⟩
  | int64 => exact ⟨.int64, .refl _⟩
  | bool => exact ⟨.bool, .refl _⟩
  | amount => exact ⟨.int64, .refl _⟩
  | timestamp => exact ⟨.uint64, .refl _⟩
  | signedTimestamp => exact ⟨.int64, .refl _⟩

/-- An extension point is a union without arms but for the version zero. -/
theorem extension (union : String) : Programmed n (extension union) := by
  refine ⟨.select union (· == 0) fun _ => .pure (), Decoder.Agree.bind (.refl _) fun code => ?_⟩
  intro limits input _
  by_cases h : code = 0
  · rw [if_pos h, if_pos (beq_iff_eq.2 h)]
    rfl
  · rw [if_neg h, if_neg (mt beq_iff_eq.1 h)]

/-- Two values are read by two programs, one after the other. -/
theorem and (h : Programmed n f) (k : Programmed n g) : Programmed n (f.and g) := by
  obtain ⟨p, hp⟩ := h
  obtain ⟨q, hq⟩ := k
  refine ⟨.bind p fun a => .bind q fun b => .pure (a, b), hp.bind fun a => hq.bind fun b => ?_⟩
  exact .refl _

/-- Another form of a value is made after it was read. -/
theorem map {make : α → β} {parts : β → α} {h₁ : ∀ a, parts (make a) = a}
    {h₂ : ∀ b, make (parts b) = b} (h : Programmed n f) :
    Programmed n (map f make parts h₁ h₂) := by
  obtain ⟨p, hp⟩ := h
  exact ⟨p.map make, hp.map make⟩

/-- A flag is read, and the value only if the flag says so. -/
theorem option (h : Programmed n f) : Programmed n (option f) := by
  obtain ⟨p, hp⟩ := h
  refine ⟨.bind .bool fun flag => if flag then p.map some else .pure none,
    Decoder.Agree.bind (.refl _) fun flag => ?_⟩
  cases flag with
  | false => exact .refl _
  | true => exact hp.map some

/-- An array runs one program for every item. -/
theorem array {max : Nat} (h : Programmed n f) : Programmed n (array max f) := by
  obtain ⟨p, hp⟩ := h
  exact ⟨.array max p, hp.array max⟩

/-- At level zero the program fails, which is why it depends on the level. -/
theorem deeper (h : ∀ m, n = m + 1 → Programmed m f) : Programmed n (deeper f) := by
  cases n with
  | zero => exact ⟨.nested .tooDeep, .deeper fun m hm => by omega⟩
  | succ n =>
    obtain ⟨p, hp⟩ := h n rfl
    refine ⟨.nested p, .deeper fun m hm => ?_⟩
    obtain rfl : n = m := Nat.succ.inj hm
    exact hp

/-- The arms that are known are those of the format; an unknown one is reported with its code. -/
theorem union {arms : List (Arm α)} (h : ∀ arm ∈ arms, Programmed n arm.format) (name : String) :
    Programmed n (union name arms) := by
  -- What follows a discriminant is the program of its arm; for the others any will do.
  have hnext : ∀ code, ∃ p : Program α, ∀ arm, arms.find? (·.code == code) = some arm →
      Decoder.Agree n p.decode (arm.make <$> arm.format.decode) := by
    intro code
    cases hf : arms.find? (·.code == code) with
    | none => exact ⟨.tooDeep, nofun⟩
    | some arm =>
      obtain ⟨p, hp⟩ := h arm (List.mem_of_find?_eq_some hf)
      refine ⟨p.map arm.make, ?_⟩
      rintro _ ⟨⟩
      exact hp.map arm.make
  obtain ⟨next, hnext⟩ := Classical.axiomOfChoice hnext
  refine ⟨.select name (fun code => (arms.find? (·.code == code)).isSome) next, ?_⟩
  rw [decode_union]
  refine .bind (.refl _) fun code => ?_
  show Decoder.Agree n (if (arms.find? (·.code == code)).isSome then (next code).decode
    else Decoder.unknown name code) _
  cases hf : arms.find? (·.code == code) with
  | none => exact .refl _
  | some arm => exact hnext code arm hf

end Programmed

/-- Every regular format reads as a program does. -/
theorem Regular.programmed {n : Nat} {F : Places} {f : Format α} (h : Regular n F f) :
    Programmed n f := by
  induction h with
  | unit => exact ⟨.pure (), .refl _⟩
  | scalar h => exact .scalar h
  | octets k => exact ⟨.fixed k, .refl _⟩
  | @bytes _ max _ => exact ⟨.bytes max, .refl _⟩
  | @string _ max _ => exact ⟨.string max, .refl _⟩
  | extension union => exact .extension union
  | field _ _ _ ih => exact ih
  | and _ _ _ ih ih' => exact ih.and ih'
  | map _ ih => exact ih.map
  | option _ _ ih => exact ih.option
  | array _ _ _ ih => exact ih.array
  | deeper _ ih => exact .deeper ih
  | token _ _ _ ih => exact ih
  | union name _ _ _ _ ih => exact .union ih name
  | assetOrShare name _ _ _ _ _ _ _ ih => exact Programmed.union ih name
  | widen _ _ ih => exact ih

end Format

namespace WireType

open Format (Programmed)
open Xdr (Program)

/-- By induction on how the type is made, as programs are found level by level. -/
theorem programmed (t : WireType) (n : Nat) : Programmed n t.format := by
  induction t using induct generalizing n with
  | option t ih => exact (ih n).option
  | boxed t ih => exact .deeper fun m _ => ih m
  | named t ht =>
    obtain ⟨F, hF, _⟩ := free_of_isNamed t ht
    exact (hF n).programmed

/-- Some program reads what the wire type reads. -/
theorem exists_reads (t : WireType) : ∃ p : Program t.Carrier, p.Reads t.format :=
  t.programmed Xdr.maxLevels

end WireType

namespace Xdr.Program

/-- A program that reads what a format reads gives the value of a whole byte string, or the error. -/
theorem Reads.run_eq {α : Type} {p : Program α} {f : Format α} (h : p.Reads f)
    (bytes : List UInt8) : p.decode.run .start bytes = f.ofBytes bytes := by
  rw [Format.ofBytes, Decoder.run, Decoder.run, h .start ⟨0, bytes⟩ (Nat.le_refl _)]

end Xdr.Program

end StellarTx
