/-
# Lengths with a maximum

The maxima that the types of a transaction declare (`Bound`), and the lengths in a value that they
are for (`Extent`), in the order of the bytes.  A format measures these lengths if they are the ones
that its layout checks, each against its own maximum: `Format.Measures`.
-/
import StellarTx.Proofs.Format.Layout

namespace StellarTx

/-- What a length counts. -/
inductive Bound where
  | operations
  | signatures
  | signature
  | signedPayload
  | extraSigners
  | memoText
  | paymentPath
  | claimants
  | conditions
  | dataName
  | dataValue
  | homeDomain
  /-- A symbol, or the name of a function. -/
  | symbol
  /-- No maximum but that of a length word. -/
  | word
  deriving DecidableEq, Repr

/-- The greatest length: items of lists, bytes of all else. -/
def Bound.max : Bound → Nat
  | operations => 100
  | signatures => 20
  | signature => 64
  | signedPayload => 64
  | extraSigners => 2
  | memoText => 28
  | paymentPath => 5
  | claimants => 10
  | conditions => 2
  | dataName => 64
  | dataValue => 64
  | homeDomain => 32
  | symbol => 32
  | word => 0xFFFFFFFF

/-- A length in a value. -/
structure Extent where
  bound : Bound
  length : Nat
  deriving DecidableEq, Repr

namespace Extent

/-- The length is not above its maximum. -/
def Fits (e : Extent) : Prop := e.length ≤ e.bound.max

/-- Whether a length fits can be computed from its bound. -/
instance (e : Extent) : Decidable e.Fits := inferInstanceAs (Decidable (_ ≤ _))

/-- The length and its maximum. -/
def limit (e : Extent) : Nat × Nat := (e.length, e.bound.max)

/-- A list, and what is in its items. -/
def ofList {α : Type} (bound : Bound) (inside : α → List Extent) (items : List α) : List Extent :=
  ⟨bound, items.length⟩ :: items.flatMap inside

end Extent

/-- The lengths of a layout with their maxima. -/
def Layout.limits (parts : List Part) : List (Nat × Nat) := parts.filterMap Part.limit?

/-- The lengths of two layouts follow one another as the layouts do. -/
theorem Layout.limits_append (parts more : List Part) :
    limits (parts ++ more) = limits parts ++ limits more :=
  List.filterMap_append

/-- The lengths of two layouts, one after the other. -/
theorem Layout.limits_append_eq {parts more : List Part} {extents extents' : List Extent}
    (h : limits parts = extents.map Extent.limit) (k : limits more = extents'.map Extent.limit) :
    limits (parts ++ more) = (extents ++ extents').map Extent.limit := by
  rw [limits_append, h, k, List.map_append]

/-- All parts fit exactly if no length is above its maximum. -/
theorem Layout.forall_fits_iff {parts : List Part} {extents : List Extent}
    (h : limits parts = extents.map Extent.limit) :
    (∀ p ∈ parts, p.Fits) ↔ ∀ e ∈ extents, e.Fits := by
  have hlimits : (∀ p ∈ parts, p.Fits) ↔ ∀ l ∈ limits parts, l.1 ≤ l.2 := by
    simp only [limits, List.forall_mem_filterMap, Part.fits_iff, Prod.forall]
  rw [hlimits, h, List.forall_mem_map]
  exact Iff.rfl

/-- The first part that does not fit has the first length above its maximum. -/
theorem Layout.FirstExcess.exists_extent {parts : List Part} {extents : List Extent}
    {e : Xdr.Excess} (h : FirstExcess parts e) (k : limits parts = extents.map Extent.limit) :
    ∃ before culprit after, extents = before ++ culprit :: after ∧ (∀ x ∈ before, x.Fits) ∧
      ¬culprit.Fits ∧ ∃ front part back, parts = front ++ part :: back ∧
        limits front = before.map Extent.limit ∧ part.limit? = some culprit.limit ∧
        e = ⟨culprit.length, culprit.bound.max, size front⟩ := by
  obtain ⟨front, part, back, rfl, hfits, hpart, hlt, hoffset⟩ := h
  -- The lengths are cut where the layout is: before the part, at it, and after it.
  have hlimits : limits (part :: back) = (e.length, e.max) :: limits back := by
    rw [limits, List.filterMap_cons, hpart]
    rfl
  rw [limits_append, hlimits] at k
  obtain ⟨before, tail, rfl, hbefore, htail⟩ := List.map_eq_append_iff.1 k.symm
  obtain ⟨culprit, after, rfl, hculprit, _⟩ := List.map_eq_cons_iff.1 htail
  obtain ⟨hlength, hmax⟩ := Prod.mk.inj hculprit
  refine ⟨before, culprit, after, rfl, (forall_fits_iff hbefore.symm).1 hfits, ?_, front, part,
    back, rfl, hbefore.symm, hpart.trans (congrArg some hculprit.symm), ?_⟩
  · show ¬culprit.length ≤ culprit.bound.max
    omega
  · obtain ⟨length, max, offset⟩ := e
    rw [hlength, hmax, ← hoffset]

namespace Format

variable {α β : Type} {f : Format α} {g : Format β} {name : String} {max : Nat}
  {inside : α → List Extent} {inside' : β → List Extent}

/-! ## Formats without lengths -/

/-- The layout has no lengths to check. -/
def Lengthless (f : Format α) : Prop := ∀ a, Layout.limits (f.layout a) = []

namespace Lengthless

/-- A number has a fixed size. -/
theorem scalar (h : Scalar f) : Lengthless f := by
  intro a
  cases h <;> rfl

theorem octets (n : Nat) : Lengthless (octets n) := fun _ => rfl

theorem extension (name : String) : Lengthless (extension name) := fun _ => rfl

/-- The name of a field has no part in the bytes. -/
theorem field (h : Lengthless f) : Lengthless (field name f) := h

/-- Two values without lengths have none together. -/
theorem and (h : Lengthless f) (k : Lengthless g) :
    Lengthless ((Format.field name f).and g) := by
  intro p
  show Layout.limits (f.layout p.1 ++ g.layout p.2) = _
  rw [Layout.limits_append, h, k, List.append_nil]

/-- Another form of the same value has the same bytes. -/
theorem map {make : α → β} {parts : β → α} {h₁ : ∀ a, parts (make a) = a}
    {h₂ : ∀ b, make (parts b) = b} (h : Lengthless f) : Lengthless (map f make parts h₁ h₂) :=
  fun b => h (parts b)

/-- The flag for presence has a fixed size. -/
theorem option (h : Lengthless f) : Lengthless (option f) := by
  intro o
  cases o with
  | none => rfl
  | some a => exact h a

end Lengthless

/-! ## Formats that measure -/

/-- The lengths that the layout checks are the given ones, in order, each with its own maximum. -/
def Measures (f : Format α) (extents : α → List Extent) : Prop :=
  ∀ a, Layout.limits (f.layout a) = (extents a).map Extent.limit

namespace Measures

/-- A format without lengths measures nothing. -/
theorem of_lengthless (h : Lengthless f) : Measures f fun _ => [] := h

/-- The length of a byte string stands in front of it. -/
theorem bytes (bound : Bound) (h : bound.max = max) :
    Measures (bytes max) fun data => [⟨bound, data.length⟩] := by
  subst h
  exact fun _ => rfl

/-- What counts of a text is its length in UTF-8. -/
theorem string (bound : Bound) (h : bound.max = max) :
    Measures (string max) fun s => [⟨bound, s.utf8ByteSize⟩] := by
  subst h
  exact fun _ => rfl

theorem field (h : Measures f inside) : Measures (field name f) inside := h

/-- The lengths of the first value stand in front of those of the second. -/
theorem and (h : Measures f inside) (k : Measures g inside') :
    Measures ((Format.field name f).and g) fun p => inside p.1 ++ inside' p.2 :=
  fun p => Layout.limits_append_eq (h p.1) (k p.2)

/-- Nothing to measure in the first of two values. -/
theorem skip (h : Lengthless f) (k : Measures g inside') :
    Measures ((Format.field name f).and g) fun p => inside' p.2 :=
  and (of_lengthless h) k

/-- Nothing to measure in the second of two values. -/
theorem stop (h : Measures f inside) (k : Lengthless g) :
    Measures ((Format.field name f).and g) fun p => inside p.1 := by
  intro p
  exact (and h (of_lengthless k) p).trans (congrArg _ (List.append_nil (inside p.1)))

/-- What is measured of a value in another form is measured of its parts. -/
theorem map {make : α → β} {parts : β → α} {h₁ : ∀ a, parts (make a) = a}
    {h₂ : ∀ b, make (parts b) = b} (h : Measures f inside) :
    Measures (map f make parts h₁ h₂) fun b => inside (parts b) :=
  fun b => h (parts b)

/-- Nothing is measured of a value that is absent. -/
theorem option (h : Measures f inside) :
    Measures (option f) fun o => o.elim [] inside := by
  intro o
  cases o with
  | none => rfl
  | some a => exact h a

/-- The items of a list, of which each measures what is in it. -/
theorem flatMap (h : Measures f inside) (items : List α) :
    Layout.limits (items.flatMap f.layout) = (items.flatMap inside).map Extent.limit := by
  induction items with
  | nil => rfl
  | cons a items ih => exact Layout.limits_append_eq (h a) ih

/-- The number of items stands in front of what is measured of each. -/
theorem array (bound : Bound) (h : Measures f inside) (hb : bound.max = max) :
    Measures (array max f) (Extent.ofList bound inside) := by
  subst hb
  exact fun items => congrArg (_ :: ·) (h.flatMap items)

/-- A list with nothing to measure in its items. -/
theorem items (bound : Bound) (h : Lengthless f) (hb : bound.max = max) :
    Measures (Format.array max f) fun items => [⟨bound, items.length⟩] := by
  intro items
  rw [array bound (of_lengthless h) hb items, Extent.ofList, List.flatMap_eq_nil_iff.2 fun _ _ => rfl]

end Measures

end Format

end StellarTx
