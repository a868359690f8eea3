/-
# Bytes part by part

A format writes the parts of a value's layout one after another.  Either every part fits, and the
bytes spell the parts; or writing stops at the first part that does not fit, and the error names its
length, its maximum and the number of bytes before it.  `Encoding.Follows` says both at once, and
`Regular.follows` shows it for every regular format.
-/
import StellarTx.Proofs.Format.Bytes

namespace StellarTx

/-! ## Parts -/

namespace Part

/-- The length of a part is not above its maximum, if it has one. -/
def Fits : Part → Prop
  | fixed _ => True
  | bytes length max => length ≤ max
  | items count max => count ≤ max

/-- Whether a part fits is a comparison of two numbers. -/
instance : (part : Part) → Decidable part.Fits
  | .fixed _ => .isTrue trivial
  | .bytes length max => inferInstanceAs (Decidable (length ≤ max))
  | .items count max => inferInstanceAs (Decidable (count ≤ max))

/-- The length of a part and its maximum, if it has one. -/
def limit? : Part → Option (Nat × Nat)
  | fixed _ => none
  | bytes length max => some (length, max)
  | items count max => some (count, max)

/-- How many bytes a part takes: bytes are padded, and a length or a number of items is a word. -/
def size : Part → Nat
  | fixed size => size
  | bytes length _ => 4 + (length + padLength length)
  | items _ _ => 4

/-- The bytes are those of the part. -/
def Spells : Part → List UInt8 → Prop
  | fixed size, piece => piece.length = size
  | bytes length _, piece =>
    ∃ data : List UInt8, data.length = length ∧ piece = bigEndian 4 length ++ padded data
  | items count _, piece => piece = bigEndian 4 count

/-- A part fits if its length, where it has one, is within the maximum. -/
theorem fits_iff {part : Part} : part.Fits ↔ ∀ length max, part.limit? = some (length, max) →
    length ≤ max := by
  cases part with
  | fixed size => exact iff_of_true trivial nofun
  | bytes length max =>
    constructor
    · rintro h _ _ ⟨⟩
      exact h
    · exact fun h => h length max rfl
  | items count max =>
    constructor
    · rintro h _ _ ⟨⟩
      exact h
    · exact fun h => h count max rfl

/-- The bytes of a part are as many as the part says. -/
theorem Spells.length_eq {part : Part} {piece : List UInt8} (h : part.Spells piece) :
    piece.length = part.size := by
  cases part with
  | fixed size => exact h
  | bytes length max =>
    obtain ⟨data, rfl, rfl⟩ := h
    rw [List.length_append, length_bigEndian, length_padded]
    rfl
  | items count max =>
    subst h
    exact length_bigEndian 4 count

end Part

/-! ## Layouts -/

namespace Layout

/-- The number of bytes that parts take. -/
def size : List Part → Nat
  | [] => 0
  | part :: parts => part.size + size parts

/-- The bytes are those of the parts, one after another. -/
def Spells : List Part → List UInt8 → Prop
  | [], bytes => bytes = []
  | part :: parts, bytes =>
    ∃ piece rest, part.Spells piece ∧ Spells parts rest ∧ bytes = piece ++ rest

/-- The first part that does not fit has this length and this maximum, and stands behind so many
bytes. -/
def FirstExcess (parts : List Part) (e : Xdr.Excess) : Prop :=
  ∃ before part after, parts = before ++ part :: after ∧ (∀ p ∈ before, p.Fits) ∧
    part.limit? = some (e.length, e.max) ∧ e.max < e.length ∧ e.offset = size before

/-- Sizes of layouts add up. -/
theorem size_append (parts more : List Part) : size (parts ++ more) = size parts + size more := by
  induction parts with
  | nil => exact (Nat.zero_add _).symm
  | cons part parts ih => exact (congrArg (part.size + ·) ih).trans (Nat.add_assoc _ _ _).symm

/-- What follows two layouts one after another follows both together. -/
theorem Spells.append {parts more : List Part} {bytes rest : List UInt8} (h : Spells parts bytes)
    (k : Spells more rest) : Spells (parts ++ more) (bytes ++ rest) := by
  induction parts generalizing bytes with
  | nil =>
    obtain rfl : bytes = [] := h
    exact k
  | cons part parts ih =>
    obtain ⟨piece, tail, hpiece, htail, rfl⟩ := h
    exact ⟨piece, tail ++ rest, hpiece, ih htail, List.append_assoc _ _ _⟩

/-- A single part is a layout. -/
theorem spells_singleton {part : Part} {piece : List UInt8} (h : part.Spells piece) :
    Spells [part] piece :=
  ⟨piece, [], h, rfl, (List.append_nil piece).symm⟩

/-- Bytes that spell parts are as many as the parts take. -/
theorem Spells.length_eq {parts : List Part} {bytes : List UInt8} (h : Spells parts bytes) :
    bytes.length = size parts := by
  induction parts generalizing bytes with
  | nil =>
    obtain rfl : bytes = [] := h
    rfl
  | cons part parts ih =>
    obtain ⟨piece, rest, hpiece, hrest, rfl⟩ := h
    rw [List.length_append, hpiece.length_eq, ih hrest]
    rfl

/-- Where a part does not fit, not all do. -/
theorem FirstExcess.not_forall_fits {parts : List Part} {e : Xdr.Excess} (h : FirstExcess parts e) :
    ¬∀ p ∈ parts, p.Fits := by
  obtain ⟨before, part, after, rfl, _, hlimit, hlt, _⟩ := h
  intro hall
  have hfits : part.Fits := hall part (List.mem_append_right _ List.mem_cons_self)
  have := Part.fits_iff.1 hfits _ _ hlimit
  omega

end Layout

/-! ## Encodings that follow a layout -/

namespace Xdr.Encoding

variable {parts more : List Part} {x y : Encoding}

/-- The encoding writes the parts one after another, up to the first that does not fit. -/
def Follows (parts : List Part) : Encoding → Prop
  | .ok bytes => (∀ p ∈ parts, p.Fits) ∧ Layout.Spells parts bytes
  | .error e => Layout.FirstExcess parts e

/-- The encodings of two layouts, one after another.  The first excess of the second one stands as
far behind as the first one takes bytes. -/
theorem Follows.append (h : Follows parts x) (k : Follows more y) :
    Follows (parts ++ more) (x ++ y) := by
  cases x with
  | error e =>
    -- The first encoding stops, and so do both.
    obtain ⟨before, part, after, rfl, hfits, hpart⟩ := h
    exact ⟨before, part, after ++ more, by simp, hfits, hpart⟩
  | ok bytes =>
    obtain ⟨hfits, hspells⟩ := h
    cases y with
    | ok rest =>
      obtain ⟨hfits', hspells'⟩ := k
      exact ⟨List.forall_mem_append.2 ⟨hfits, hfits'⟩, hspells.append hspells'⟩
    | error e =>
      -- The bytes of the first encoding come before what stops the second.
      obtain ⟨before, part, after, rfl, hfits', hlimit, hlt, hoffset⟩ := k
      refine ⟨parts ++ before, part, after, (List.append_assoc _ _ _).symm,
        List.forall_mem_append.2 ⟨hfits, hfits'⟩, hlimit, hlt, ?_⟩
      rw [Layout.size_append, ← hspells.length_eq, ← hoffset]
      rfl

/-- The empty encoding follows the layout without parts. -/
theorem Follows.empty : Follows [] empty := ⟨List.forall_mem_nil _, rfl⟩

/-- Bytes whose number the type fixes. -/
theorem Follows.fixed {size : Nat} {bytes : List UInt8} (h : bytes.length = size) :
    Follows [.fixed size] (ofBytes bytes) :=
  ⟨List.forall_mem_singleton.2 trivial, Layout.spells_singleton h⟩

/-- A number of items is refused above its maximum, like a length. -/
theorem Follows.count {n max : Nat} (small : max < UInt32.size) :
    Follows [.items n max] (count n max) := by
  by_cases h : max < n
  · rw [count_of_lt h]
    exact ⟨[], .items n max, [], rfl, List.forall_mem_nil _, rfl, h, rfl⟩
  · rw [count_of_le small (Nat.le_of_not_lt h)]
    exact ⟨List.forall_mem_singleton.2 (Nat.le_of_not_lt h), Layout.spells_singleton rfl⟩

/-- A byte string is refused for its length alone. -/
theorem Follows.bytes {data : List UInt8} {max : Nat} (small : max < UInt32.size) :
    Follows [.bytes data.length max] (bytes max data) := by
  by_cases h : max < data.length
  · rw [Encoding.bytes, count_of_lt h]
    exact ⟨[], .bytes data.length max, [], rfl, List.forall_mem_nil _, rfl, h, rfl⟩
  · have hle : data.length ≤ max := Nat.le_of_not_lt h
    rw [(bytes_eq_ok_iff small).2 ⟨hle, rfl⟩]
    exact ⟨List.forall_mem_singleton.2 hle, Layout.spells_singleton ⟨data, rfl, rfl⟩⟩

/-- An encoding has bytes exactly if all parts fit. -/
theorem Follows.exists_ok_iff (h : Follows parts x) :
    (∃ bytes, x = Except.ok bytes) ↔ ∀ p ∈ parts, p.Fits := by
  cases x with
  | ok bytes => exact iff_of_true ⟨bytes, rfl⟩ h.1
  | error e =>
    refine iff_of_false ?_ (Layout.FirstExcess.not_forall_fits h)
    rintro ⟨bytes, hb⟩
    cases hb

end Xdr.Encoding

/-! ## Regular formats -/

namespace Format

open Xdr (Encoding)

variable {α : Type}

/-- Scalars follow a layout of one fixed part. -/
theorem Scalar.follows {f : Format α} (h : Scalar f) (a : α) :
    Encoding.Follows (f.layout a) (f.encode a) := by
  cases h <;> exact .fixed (length_bigEndian _ _)

/-- Items follow the layouts of the items. -/
theorem follows_concat {f : Format α} {items : List α}
    (h : ∀ a ∈ items, Encoding.Follows (f.layout a) (f.encode a)) :
    Encoding.Follows (items.flatMap f.layout) (Encoding.concat (items.map f.encode)) := by
  induction items with
  | nil => exact .empty
  | cons a items ih =>
    rw [List.flatMap_cons, List.map_cons, Encoding.concat_cons]
    obtain ⟨hfirst, hrest⟩ := List.forall_mem_cons.1 h
    exact hfirst.append (ih hrest)

/-- A flag, and the value if there is one. -/
theorem follows_option {f : Format α} {o : Option α}
    (h : ∀ a, o = some a → Encoding.Follows (f.layout a) (f.encode a)) :
    Encoding.Follows (f.option.layout o) (f.option.encode o) := by
  have flag (b : Bool) : Encoding.Follows [.fixed 4] (.bool b) := .fixed (length_bigEndian _ _)
  cases o with
  | none => exact flag false
  | some a => exact (flag true).append (h a rfl)

/-- A discriminant, and what the arm holds. -/
theorem follows_union {n : Nat} {arms : List (Arm α)} (sound : Arm.Sound arms)
    (h : ∀ arm ∈ arms, ∀ p, arm.format.level p ≤ n →
      Encoding.Follows (arm.format.layout p) (arm.format.encode p))
    (name : String) {a : α} (hl : (union name arms).level a ≤ n) :
    Encoding.Follows ((union name arms).layout a) ((union name arms).encode a) := by
  obtain ⟨arm, ha, p, rfl⟩ := sound.exists_make a
  rw [sound.level_make ha] at hl
  rw [sound.encode_make ha, sound.layout_make ha]
  have code : Encoding.Follows [.fixed 4] (.int32 arm.code) := .fixed (length_bigEndian _ _)
  exact code.append (h arm ha p hl)

/-- A regular format writes what the layout says, part by part. -/
theorem Regular.follows {n : Nat} {F : Places} {f : Format α} (h : Regular n F f) {a : α}
    (hl : f.level a ≤ n) : Encoding.Follows (f.layout a) (f.encode a) := by
  induction h with
  | unit => exact .empty
  | scalar h => exact h.follows a
  | octets k =>
    refine .fixed ?_
    rw [length_padded, a.length_eq]
  | bytes small => exact .bytes small
  | string small => exact .bytes small
  | extension name => exact .fixed (length_bigEndian _ _)
  | field name _ _ ih => exact ih hl
  | and _ _ _ ih ih' =>
    obtain ⟨hl1, hl2⟩ := Nat.max_le.1 hl
    exact (ih hl1).append (ih' hl2)
  | map _ ih => exact ih hl
  | option _ _ ih =>
    refine follows_option fun b hb => ?_
    subst hb
    exact ih hl
  | array _ _ small ih =>
    refine Encoding.Follows.append (.count small) (follows_concat fun b hb => ?_)
    exact ih (maxLevel_le_iff.1 hl b hb)
  | @deeper n F α f _ ih =>
    have hl : f.level a + 1 ≤ n := hl
    exact ih (n - 1) (by omega) (by omega)
  | token _ _ _ ih => exact ih hl
  | union name sound _ _ _ ih => exact follows_union sound (fun arm ha p => ih arm ha) name hl
  | assetOrShare name _ sound _ _ _ _ _ ih =>
    exact follows_union sound (fun arm ha p => ih arm ha) name hl
  | widen _ _ ih => exact ih hl

end Format

end StellarTx
