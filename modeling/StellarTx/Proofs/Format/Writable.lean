/-
# Which values have bytes

A value has bytes (`Writable`) if none of its lengths is above its maximum.  Every operation on
formats says so of its own part, and a regular format has the bytes of a value exactly if all the
parts of its layout fit: `Regular.writable_iff_fits`.
-/
import StellarTx.Proofs.Format.Layout

namespace StellarTx

namespace Format

open Xdr (Encoding)

variable {α β : Type} {f : Format α} {g : Format β} {max : Nat}

/-! ## Values that have bytes -/

/-- The value has bytes. -/
def Writable (f : Format α) (a : α) : Prop :=
  ∃ bytes, f.encode a = .ok bytes

/-- Two encodings one after another have bytes if both have. -/
theorem exists_append_iff {x y : Encoding} :
    (∃ bytes, x ++ y = Except.ok bytes) ↔
      (∃ bytes, x = Except.ok bytes) ∧ ∃ bytes, y = Except.ok bytes := by
  constructor
  · rintro ⟨_, h⟩
    obtain ⟨first, second, hx, hy, _⟩ := Encoding.append_eq_ok_iff.1 h
    exact ⟨⟨first, hx⟩, second, hy⟩
  · rintro ⟨⟨first, hx⟩, second, hy⟩
    exact ⟨_, Encoding.append_of_ok hx hy⟩

/-- A pair has bytes if both values have. -/
theorem writable_and_iff {p : α × β} : (f.and g).Writable p ↔ f.Writable p.1 ∧ g.Writable p.2 :=
  exists_append_iff

/-- The name of a field is not written in bytes. -/
theorem writable_field_iff {name : String} {a : α} :
    (field name f).Writable a ↔ f.Writable a := Iff.rfl

/-- Another form of a value has bytes if the value has. -/
theorem writable_map_iff {make : α → β} {parts : β → α} {h₁ : ∀ a, parts (make a) = a}
    {h₂ : ∀ b, make (parts b) = b} {b : β} :
    (f.map make parts h₁ h₂).Writable b ↔ f.Writable (parts b) := Iff.rfl

/-- A byte string has bytes up to the maximum of its format, which must be below 2 ^ 32. -/
theorem writable_bytes_iff (small : max < UInt32.size) {data : List UInt8} :
    (bytes max).Writable data ↔ data.length ≤ max := by
  constructor
  · rintro ⟨_, h⟩
    exact ((Encoding.bytes_eq_ok_iff small).1 h).1
  · intro hle
    exact ⟨_, (Encoding.bytes_eq_ok_iff small).2 ⟨hle, rfl⟩⟩

/-- A text is measured in bytes, and not in characters. -/
theorem writable_string_iff (small : max < UInt32.size) {s : String} :
    (string max).Writable s ↔ s.utf8ByteSize ≤ max :=
  writable_bytes_iff small

/-- Encodings one after another have bytes if each of them has. -/
theorem exists_concat_iff {items : List α} :
    (∃ bytes, Encoding.concat (items.map f.encode) = .ok bytes) ↔ ∀ a ∈ items, f.Writable a := by
  induction items with
  | nil =>
    constructor
    · intro _; exact nofun
    · intro _; exact ⟨[], rfl⟩
  | cons a items ih =>
    rw [List.map_cons, Encoding.concat_cons, exists_append_iff, ih, List.forall_mem_cons]
    exact Iff.rfl

/-- A list has bytes if it is short enough and every item has. -/
theorem writable_array_iff (small : max < UInt32.size) {items : List α} :
    (array max f).Writable items ↔ items.length ≤ max ∧ ∀ a ∈ items, f.Writable a := by
  have hcount : (∃ bytes, Encoding.count items.length max = .ok bytes) ↔ items.length ≤ max := by
    constructor
    · rintro ⟨_, h⟩
      exact ((Encoding.count_eq_ok_iff small).1 h).1
    · intro hle
      exact ⟨_, Encoding.count_of_le small hle⟩
  rw [← exists_concat_iff, ← hcount]
  exact exists_append_iff

/-- A value that is absent always has bytes. -/
theorem writable_option_iff {o : Option α} :
    (option f).Writable o ↔ ∀ a, o = some a → f.Writable a := by
  cases o with
  | none => exact ⟨fun _ => nofun, fun _ => ⟨_, rfl⟩⟩
  | some a =>
    constructor
    · rintro h _ ⟨⟩
      exact (exists_append_iff.1 h).2
    · exact fun h => exists_append_iff.2 ⟨⟨_, rfl⟩, h a rfl⟩

/-- What an arm holds decides whether it has bytes. -/
theorem exists_arm_iff {code : Int32} {e : Encoding} :
    (∃ bytes, Encoding.int32 code ++ e = Except.ok bytes) ↔ ∃ bytes, e = Except.ok bytes := by
  rw [exists_append_iff]
  exact and_iff_right ⟨_, rfl⟩

/-- An arm has bytes whatever its code is; `P` is any fact known of its value. -/
theorem Writable.arm_iff {a : α} (h : f.Writable a) {code : Int32} {P : Prop} (hP : P) :
    (∃ bytes, Encoding.int32 code ++ f.encode a = Except.ok bytes) ↔ P :=
  iff_of_true (exists_arm_iff.2 h) hP

/-- A number of fixed size always has bytes. -/
theorem Scalar.writable (h : Scalar f) (a : α) : f.Writable a := by
  cases h <;> exact ⟨_, rfl⟩

/-! ## Formats without a maximum -/

/-- All values have bytes. -/
def Total (f : Format α) : Prop :=
  ∀ a, f.Writable a

namespace Total

/-- Numbers have no maximum. -/
theorem scalar (h : Scalar f) : Total f := h.writable

/-- Neither have byte strings of fixed length. -/
theorem octets (n : Nat) : Total (octets n) := fun _ => ⟨_, rfl⟩

theorem field {name : String} (h : Total f) : Total (field name f) := h

/-- A pair without maxima, in either order, has none. -/
theorem and (h : Total f) (k : Total g) : Total (f.and g) :=
  fun p => writable_and_iff.2 ⟨h p.1, k p.2⟩

/-- No maximum comes from another form of a value. -/
theorem map {make : α → β} {parts : β → α} {h₁ : ∀ a, parts (make a) = a}
    {h₂ : ∀ b, make (parts b) = b} (h : Total f) : Total (f.map make parts h₁ h₂) :=
  fun b => h (parts b)

/-- No maximum comes from a flag for presence. -/
theorem option (h : Total f) : Total (option f) :=
  fun _ => writable_option_iff.2 fun a _ => h a

/-- What comes second decides. -/
theorem writable_and_iff (h : Total f) {p : α × β} : (f.and g).Writable p ↔ g.Writable p.2 :=
  Format.writable_and_iff.trans (and_iff_right (h p.1))

end Total

/-! ## Layouts decide -/

/-- A regular format has the bytes of a value exactly if no length in them is above its maximum. -/
theorem Regular.writable_iff_fits {n : Nat} {F : Places} (h : Regular n F f) {a : α}
    (hl : f.level a ≤ n) : f.Writable a ↔ ∀ part ∈ f.layout a, part.Fits :=
  (h.follows hl).exists_ok_iff

end Format

end StellarTx
