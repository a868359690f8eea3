/-
# Unions with sound arms

In a union whose arms fit, every value is made by exactly one arm, writing finds that arm, and
reading finds it again by its discriminant and by its name.
-/
import StellarTx.Proofs.Format.Regular
import StellarTx.Proofs.Result

namespace StellarTx

open Xdr (Encoding)
open TxRep (Line)

/-- Of keys without duplicates, each finds its owner. -/
theorem find?_key.{u} {α : Type u} {κ : Type} [BEq κ] [LawfulBEq κ] {key : α → κ} {items : List α}
    (hn : (items.map key).Nodup) {a : α} (ha : a ∈ items) :
    items.find? (fun x => key x == key a) = some a := by
  induction items with
  | nil => cases ha
  | cons b items ih =>
    rw [List.map_cons, List.nodup_cons] at hn
    rw [List.find?_cons]
    rcases List.mem_cons.1 ha with rfl | ha
    · rw [beq_self_eq_true]
    · have hne : (key b == key a) = false := by
        apply beq_eq_false_iff_ne.2
        intro e
        apply hn.1
        rw [e]
        exact List.mem_map_of_mem ha
      rw [hne]
      exact ih hn.2 ha

namespace Arm

variable {α : Type} {arms : List (Arm α)} {arm : Arm α}

/-- The arm that a value is in. -/
def of? (arms : List (Arm α)) (a : α) : Option (Arm α) :=
  arms.find? fun arm => (arm.get? a).isSome

/-- What all four ways of writing a union come down to. -/
theorem findSome?_of? {β : Type} (g : (x : Arm α) → x.Payload → β) {a : α} {p : arm.Payload}
    (h : of? arms a = some arm) (hp : arm.get? a = some p) :
    arms.findSome? (fun x => (x.get? a).map (g x)) = some (g arm p) := by
  induction arms with
  | nil => cases h
  | cons first arms ih =>
    rw [of?, List.find?_cons] at h
    rw [List.findSome?_cons]
    -- Both searches pass over the first arm, or both stop there.
    cases hg : first.get? a with
    | none =>
      rw [hg] at h
      exact ih h
    | some q =>
      rw [hg] at h
      cases h
      rw [hg] at hp
      cases hp
      rfl

namespace Sound

/-- No two arms share a code, since they are told apart. -/
theorem codes (h : Sound arms) : (arms.map (·.code)).Nodup := by
  have happart := h.apart
  rw [toldApart, Bool.and_eq_true, Bool.and_eq_true] at happart
  exact of_decide_eq_true happart.1.1

/-- No two arms share a label either. -/
theorem labels (h : Sound arms) : (arms.map (·.label)).Nodup := by
  have happart := h.apart
  rw [toldApart, Bool.and_eq_true, Bool.and_eq_true] at happart
  exact of_decide_eq_true happart.1.2

/-- The code of an arm finds this arm, and not one in front of it. -/
theorem find?_code (h : Sound arms) (ha : arm ∈ arms) :
    arms.find? (·.code == arm.code) = some arm :=
  find?_key h.codes ha

/-- So does its label. -/
theorem find?_label (h : Sound arms) (ha : arm ∈ arms) :
    arms.find? (·.label == arm.label) = some arm :=
  find?_key h.labels ha

/-- A value is in exactly one arm. -/
theorem exists_filter_eq (h : Sound arms) (a : α) :
    ∃ arm, (arms.filter fun arm => (arm.get? a).isSome) = [arm] :=
  List.length_eq_one_iff.1 (h.single a)

/-- A value is in the arm that made it. -/
theorem of?_make (h : Sound arms) (ha : arm ∈ arms) (p : arm.Payload) :
    of? arms (arm.make p) = some arm := by
  obtain ⟨only, honly⟩ := h.exists_filter_eq (arm.make p)
  have hmem : arm ∈ arms.filter fun x => (x.get? (arm.make p)).isSome :=
    List.mem_filter.2 ⟨ha, by rw [arm.get?_make]; rfl⟩
  rw [honly, List.mem_singleton] at hmem
  rw [of?, ← List.head?_filter, honly, hmem]
  rfl

/-- Every value was made by an arm. -/
theorem exists_make (h : Sound arms) (a : α) : ∃ arm ∈ arms, ∃ p, arm.make p = a := by
  obtain ⟨arm, hone⟩ := h.exists_filter_eq a
  have hmem : arm ∈ arms.filter fun x => (x.get? a).isSome := by
    rw [hone]
    exact List.mem_singleton.2 rfl
  obtain ⟨ha, hg⟩ := List.mem_filter.1 hmem
  obtain ⟨p, hp⟩ := Option.isSome_iff_exists.1 hg
  exact ⟨arm, ha, p, arm.make_of_get? a p hp⟩

/-- A label is a word, so that text shows it without quotes. -/
theorem isWord_label (h : Sound arms) (ha : arm ∈ arms) : IsWord arm.label := by
  have happart := h.apart
  rw [toldApart, Bool.and_eq_true] at happart
  exact isWord_iff.1 (List.all_eq_true.1 happart.2 _ (List.mem_map_of_mem ha))

variable (h : Sound arms) (ha : arm ∈ arms) (p : arm.Payload) (name : String)

include h ha

/-- Bytes of a union are the code of its arm and the bytes of what the arm holds. -/
theorem encode_make :
    (Format.union name arms).encode (arm.make p) = .int32 arm.code ++ arm.format.encode p :=
  congrArg (·.getD Encoding.empty) <|
    findSome?_of? (fun x q => Encoding.int32 x.code ++ x.format.encode q) (h.of?_make ha p)
      (arm.get?_make p)

/-- Lines of a union are the label of its arm and the lines of what the arm holds. -/
theorem print_make (path : String) :
    (Format.union name arms).print (arm.make p) path =
      Line.arm path arm.label :: arm.format.print p path :=
  congrArg (·.getD []) <|
    findSome?_of? (fun x q => Line.arm path x.label :: x.format.print q path)
      (h.of?_make ha p) (arm.get?_make p)

/-- An arm charges no level of its own. -/
theorem level_make : (Format.union name arms).level (arm.make p) = arm.format.level p :=
  congrArg (·.getD 0) <|
    findSome?_of? (fun x q => x.format.level q) (h.of?_make ha p) (arm.get?_make p)

/-- The code of an arm takes four bytes. -/
theorem layout_make :
    (Format.union name arms).layout (arm.make p) = .fixed 4 :: arm.format.layout p :=
  congrArg (·.getD []) <|
    findSome?_of? (fun x q => Part.fixed 4 :: x.format.layout q) (h.of?_make ha p)
      (arm.get?_make p)

end Sound

end Arm

/-- A union is read if the arm that is named is read. -/
theorem Format.read_union_eq_ok_iff {α : Type} {arms : List (Arm α)} {name : String}
    {source : TxRep.Source} {levels : Nat} {path : String} {a : α} :
    (union name arms).read source levels path = .ok a ↔
      ∃ arm, arms.find? (·.label == arm.label) = some arm ∧ source.arm path = .ok arm.label ∧
        ∃ p, arm.format.read source levels path = .ok p ∧ arm.make p = a := by
  rw [read_union, Except.bind_eq_ok_iff]
  constructor
  · rintro ⟨label, hl, hr⟩
    cases hf : arms.find? (·.label == label) with
    | none =>
      rw [hf] at hr
      cases hr
    | some arm =>
      rw [hf] at hr
      obtain rfl : arm.label = label := by simpa using List.find?_some hf
      exact ⟨arm, hf, hl, Except.map_eq_ok_iff.1 hr⟩
  · rintro ⟨arm, hf, hl, hr⟩
    refine ⟨arm.label, hl, ?_⟩
    rw [hf]
    exact Except.map_eq_ok_iff.2 hr

end StellarTx
