/-
# Items and their lines

How many items the lists of a value hold, at every depth: `Format.Counts` says that a count misses
none of those that the layout of a format announces.  No text can be shorter than that: every item
has a line of its own, so that a value has more lines than items (`Format.Ample`).
-/
import StellarTx.Proofs.Format.Extent

namespace StellarTx

open TxRep (item)

/-- The number of items, together with those inside each of them. -/
def countItems {α : Type} (inside : α → Nat) : List α → Nat
  | [] => 0
  | a :: rest => 1 + inside a + countItems inside rest

/-- Items that hold no others are counted by their number. -/
theorem countItems_zero {α : Type} (items : List α) :
    countItems (fun _ => 0) items = items.length := by
  induction items with
  | nil => rfl
  | cons a rest ih => rw [countItems, ih, List.length_cons, Nat.add_zero, Nat.add_comm]

namespace Layout

/-- The number of items that a layout announces. -/
def itemCount : List Part → Nat
  | [] => 0
  | .items count _ :: parts => count + itemCount parts
  | _ :: parts => itemCount parts

/-- Layouts one after another announce their items separately. -/
theorem itemCount_append (parts more : List Part) :
    itemCount (parts ++ more) = itemCount parts + itemCount more := by
  induction parts with
  | nil => exact (Nat.zero_add _).symm
  | cons part parts ih =>
    cases part with
    | items count max => exact (congrArg (count + ·) ih).trans (Nat.add_assoc _ _ _).symm
    | _ => exact ih

/-- A layout without lengths announces no items. -/
theorem itemCount_of_limits {parts : List Part} (h : limits parts = []) : itemCount parts = 0 := by
  induction parts with
  | nil => rfl
  | cons part parts ih =>
    cases part with
    | fixed size => exact ih h
    | _ => cases h

end Layout

namespace Format

variable {α β : Type} {f : Format α} {g : Format β} {name : String} {max : Nat}
  {count : α → Nat} {count' : β → Nat}

/-! ## Formats without lists -/

/-- The layout announces no items. -/
def Itemless (f : Format α) : Prop := ∀ a, Layout.itemCount (f.layout a) = 0

namespace Itemless

/-- Only a length can announce items. -/
theorem of_lengthless (h : Lengthless f) : Itemless f := fun a => Layout.itemCount_of_limits (h a)

theorem scalar (h : Scalar f) : Itemless f := of_lengthless (.scalar h)

/-- A byte string is counted as a whole, and not by its bytes. -/
theorem bytes : Itemless (bytes max) := fun _ => rfl

theorem string : Itemless (string max) := fun _ => rfl

theorem field (h : Itemless f) : Itemless (field name f) := h

/-- Two values without items have none together. -/
theorem and (h : Itemless f) (k : Itemless g) : Itemless ((Format.field name f).and g) := by
  intro p
  show Layout.itemCount (f.layout p.1 ++ g.layout p.2) = 0
  rw [Layout.itemCount_append, h, k]

theorem map {make : α → β} {parts : β → α} {h₁ : ∀ a, parts (make a) = a}
    {h₂ : ∀ b, make (parts b) = b} (h : Itemless f) : Itemless (map f make parts h₁ h₂) :=
  fun b => h (parts b)

/-- Whether a value is there or not, it has no items. -/
theorem option (h : Itemless f) : Itemless (option f) := by
  intro o
  cases o with
  | none => rfl
  | some a => exact h a

end Itemless

/-! ## Items that are counted -/

/-- The count misses no items that the layout announces. -/
def Counts (f : Format α) (count : α → Nat) : Prop :=
  ∀ a, Layout.itemCount (f.layout a) ≤ count a

namespace Counts

/-- To count none is enough where none are announced. -/
theorem of_itemless (h : Itemless f) : Counts f fun _ => 0 := fun a => Nat.le_of_eq (h a)

theorem field (h : Counts f count) : Counts (field name f) count := h

/-- The items of two values add up. -/
theorem and (h : Counts f count) (k : Counts g count') :
    Counts ((Format.field name f).and g) fun p => count p.1 + count' p.2 := by
  intro p
  show Layout.itemCount (f.layout p.1 ++ g.layout p.2) ≤ _
  rw [Layout.itemCount_append]
  exact Nat.add_le_add (h p.1) (k p.2)

/-- No items in the first of two values. -/
theorem skip (h : Itemless f) (k : Counts g count') :
    Counts ((Format.field name f).and g) fun p => count' p.2 := by
  intro p
  show Layout.itemCount (f.layout p.1 ++ g.layout p.2) ≤ _
  rw [Layout.itemCount_append, h, Nat.zero_add]
  exact k p.2

/-- No items in the second of two values. -/
theorem stop (h : Counts f count) (k : Itemless g) :
    Counts ((Format.field name f).and g) fun p => count p.1 := by
  intro p
  show Layout.itemCount (f.layout p.1 ++ g.layout p.2) ≤ _
  rw [Layout.itemCount_append, k, Nat.add_zero]
  exact h p.1

/-- The items of a value in another form are those of its parts. -/
theorem map {make : α → β} {parts : β → α} {h₁ : ∀ a, parts (make a) = a}
    {h₂ : ∀ b, make (parts b) = b} (h : Counts f count) :
    Counts (map f make parts h₁ h₂) fun b => count (parts b) :=
  fun b => h (parts b)

/-- An item and the items behind it, whose number is announced in front of all of them. -/
theorem cons {a : α} {rest : List α} {m k : Nat} (h : Layout.itemCount (f.layout a) ≤ m)
    (hs : rest.length + Layout.itemCount (rest.flatMap f.layout) ≤ k) :
    (a :: rest).length + Layout.itemCount ((a :: rest).flatMap f.layout) ≤ 1 + m + k := by
  rw [List.length_cons, List.flatMap_cons, Layout.itemCount_append]
  omega

/-- Each item counts for itself and for what it holds; the induction is on the items. -/
theorem array (h : Counts f count) : Counts (array max f) (countItems count) := by
  intro items
  show items.length + Layout.itemCount (items.flatMap f.layout) ≤ _
  induction items with
  | nil => exact Nat.le_refl 0
  | cons a rest ih => exact cons (h a) ih

/-- A list whose items hold no others. -/
theorem items (h : Itemless f) : Counts (Format.array max f) List.length := by
  intro items
  rw [← countItems_zero]
  exact array (of_itemless h) items

end Counts

/-! ## More lines than items -/

/-- A value has more lines than items. -/
def Ample (f : Format α) (count : α → Nat) : Prop :=
  ∀ a path, count a < (f.print a path).length

/-- An item and the items behind it have a line for each item in them. -/
theorem le_length_printItems_cons {a : α} {rest : List α} {path : String} {i m k : Nat}
    (h : m < (f.print a (item path i)).length)
    (hs : k ≤ (f.printItems path (i + 1) rest).length) :
    1 + m + k ≤ (f.printItems path i (a :: rest)).length := by
  rw [printItems, List.length_append]
  omega

namespace Ample

theorem field (h : Ample f count) : Ample (field name f) count := fun a _ => h a _

/-- Of two strict inequalities one is more than needed, so that fields of a record never lack a
line. -/
theorem and (h : Ample f count) (k : Ample g count') :
    Ample ((Format.field name f).and g) fun p => count p.1 + count' p.2 := by
  intro p path
  show _ < (f.print p.1 _ ++ g.print p.2 path).length
  rw [List.length_append]
  exact Nat.add_lt_add (h p.1 _) (k p.2 path)

/-- No items in the first of two values. -/
theorem skip (k : Ample g count') : Ample ((Format.field name f).and g) fun p => count' p.2 := by
  intro p path
  show _ < (f.print p.1 _ ++ g.print p.2 path).length
  rw [List.length_append]
  exact Nat.lt_add_left _ (k p.2 path)

/-- No items in the second of two values. -/
theorem stop (h : Ample f count) : Ample ((Format.field name f).and g) fun p => count p.1 := by
  intro p path
  show _ < (f.print p.1 _ ++ g.print p.2 path).length
  rw [List.length_append]
  exact Nat.lt_add_right _ (h p.1 _)

theorem map {make : α → β} {parts : β → α} {h₁ : ∀ a, parts (make a) = a}
    {h₂ : ∀ b, make (parts b) = b} (h : Ample f count) :
    Ample (map f make parts h₁ h₂) fun b => count (parts b) :=
  fun b => h (parts b)

/-- Items one after another have a line for each item in them, wherever their numbers start. -/
theorem printItems (h : Ample f count) (items : List α) (path : String) (i : Nat) :
    countItems count items ≤ (f.printItems path i items).length := by
  induction items generalizing i with
  | nil => exact Nat.zero_le _
  | cons a rest ih => exact le_length_printItems_cons (h a _) (ih (i + 1))

/-- A list has one more line, for the number of its items. -/
theorem array (h : Ample f count) : Ample (array max f) (countItems count) :=
  fun items path => Nat.lt_succ_of_le (h.printItems items path 0)

/-- A list whose items hold no others. -/
theorem items (h : Ample f fun _ => 0) : Ample (Format.array max f) List.length := by
  intro items path
  rw [← countItems_zero]
  exact h.array items path

end Ample

end Format

end StellarTx
