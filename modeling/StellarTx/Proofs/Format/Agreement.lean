/-
# Formats that agree up to a level

Two formats agree up to level `n` if they write every value of level `n` and below alike and read
alike with `n` levels to enter.  Every operation on formats keeps agreement, and `deeper` adds one
level to it.  A layer that uses the format it is given only under `deeper` is therefore determined,
on values of level `n`, by what it is given for lower levels, and `fix` is a fixed point of it.
Main statement: `fix_eq`.
-/
import StellarTx.Format.Recursive
import StellarTx.Format.Scalar
import StellarTx.Format.Union
import StellarTx.Proofs.Xdr.Decoder

namespace StellarTx

open Xdr (Decoder Limits Input)
open TxRep (Reader Source)

/-! ## Readers that agree -/

/-- Two decoders that do the same with at most `n` levels. -/
def Xdr.Decoder.Agree {α : Type} (n : Nat) (d e : Decoder α) : Prop :=
  ∀ limits input, limits.levels ≤ n → d limits input = e limits input

/-- Two readers of text that do the same with at most `n` levels. -/
def TxRep.Reader.Agree {α : Type} (n : Nat) (r s : Reader α) : Prop :=
  ∀ source levels path, levels ≤ n → r source levels path = s source levels path

namespace Xdr.Decoder.Agree

variable {α β : Type} {n : Nat}

/-- Every decoder agrees with itself at any level. -/
theorem refl (d : Decoder α) : Agree n d d := fun _ _ _ => rfl

/-- Two steps agree if the first ones do and, whatever is read, the second ones. -/
theorem bind {d e : Decoder α} {k l : α → Decoder β} (h : Agree n d e)
    (hk : ∀ a, Agree n (k a) (l a)) : Agree n (d >>= k) (e >>= l) := by
  intro limits input hn
  rw [bind_apply, bind_apply, h limits input hn]
  cases e limits input with
  | error _ => rfl
  | ok r => exact hk r.1 limits r.2 hn

/-- What is made of a value does not matter. -/
theorem map {d e : Decoder α} (g : α → β) (h : Agree n d e) : Agree n (g <$> d) (g <$> e) :=
  h.bind fun a => refl (pure (g a))

/-- As many times as one decoder runs, so does the other; the induction is on that number. -/
theorem replicate {d e : Decoder α} (h : Agree n d e) (k : Nat) :
    Agree n (Decoder.replicate k d) (Decoder.replicate k e) := by
  induction k with
  | zero => exact refl _
  | succ k ih => exact h.bind fun a => ih.bind fun _ => refl _

/-- The length is read alike, and then every item. -/
theorem array {d e : Decoder α} (h : Agree n d e) (max : Nat) :
    Agree n (Decoder.array max d) (Decoder.array max e) :=
  (refl (count max)).bind h.replicate

/-- The one place where agreement is asked for a level less: at level zero neither goes deeper. -/
theorem deeper {d e : Decoder α} (h : ∀ m, n = m + 1 → Agree m d e) :
    Agree n d.deeper e.deeper := by
  intro limits input hn
  obtain ⟨levels, ahead⟩ := limits
  cases levels with
  | zero => rfl
  | succ k =>
    obtain ⟨m, rfl⟩ : ∃ m, n = m + 1 := ⟨n - 1, by simp only at hn; omega⟩
    exact h m rfl ⟨k, ahead⟩ input (Nat.le_of_succ_le_succ hn)

end Xdr.Decoder.Agree

namespace Format

variable {α β : Type} {n : Nat}

/-! ## Formats that agree -/

/-- Two formats that write a value alike. -/
structure SameAt (f g : Format α) (a : α) : Prop where
  level : f.level a = g.level a
  encode : f.encode a = g.encode a
  print : f.print a = g.print a
  layout : f.layout a = g.layout a

/-- Two formats that do the same up to level `n`. -/
structure Agree (n : Nat) (f g : Format α) : Prop where
  write : ∀ a, f.level a ≤ n ∨ g.level a ≤ n → SameAt f g a
  decode : Decoder.Agree n f.decode g.decode
  read : Reader.Agree n f.read g.read

/-- Two arms that differ in nothing but formats that agree. -/
inductive ArmsAgree (n : Nat) : List (Arm α) → List (Arm α) → Prop where
  | nil : ArmsAgree n [] []
  | cons {code : Int32} {label : String} {Payload : Type} {f g : Format Payload}
      {make : Payload → α} {get? : α → Option Payload} {h₁ : ∀ p, get? (make p) = some p}
      {h₂ : ∀ a p, get? a = some p → make p = a} {arms brms : List (Arm α)} :
      Agree n f g → ArmsAgree n arms brms →
      ArmsAgree n (⟨code, label, f, make, get?, h₁, h₂⟩ :: arms)
        (⟨code, label, g, make, get?, h₁, h₂⟩ :: brms)

namespace SameAt

variable {f g : Format α} {a : α}

theorem refl (f : Format α) (a : α) : SameAt f f a := ⟨rfl, rfl, rfl, rfl⟩

/-- To write alike goes both ways. -/
theorem symm (h : SameAt f g a) : SameAt g f a :=
  ⟨h.level.symm, h.encode.symm, h.print.symm, h.layout.symm⟩

theorem trans {e : Format α} (h : SameAt f g a) (k : SameAt g e a) : SameAt f e a :=
  ⟨h.level.trans k.level, h.encode.trans k.encode, h.print.trans k.print,
    h.layout.trans k.layout⟩

/-- Items that two formats write alike make the same array. -/
theorem printItems {items : List α} (h : ∀ a ∈ items, SameAt f g a) (path : String) (i : Nat) :
    f.printItems path i items = g.printItems path i items := by
  induction items generalizing i with
  | nil => rfl
  | cons a items ih =>
    have h1 := (h a (by simp)).print
    have h2 := ih (fun b hb => h b (by simp [hb])) (i + 1)
    simp only [Format.printItems, h1, h2]

/-- The level of a list is that of its items. -/
theorem maxLevel {items : List α} (h : ∀ a ∈ items, SameAt f g a) :
    f.maxLevel items = g.maxLevel items := by
  induction items with
  | nil => rfl
  | cons a items ih =>
    have h1 := (h a (by simp)).level
    have h2 := ih fun b hb => h b (by simp [hb])
    simp only [Format.maxLevel, List.foldr_cons, h1] at h2 ⊢
    rw [h2]

/-- A list is written alike if each item is. -/
theorem array {items : List α} (max : Nat) (h : ∀ a ∈ items, SameAt f g a) :
    SameAt (array max f) (array max g) items := by
  have he : items.map f.encode = items.map g.encode :=
    List.map_congr_left fun a ha => (h a ha).encode
  have hl : items.flatMap f.layout = items.flatMap g.layout := by
    rw [List.flatMap_def, List.flatMap_def, List.map_congr_left fun a ha => (h a ha).layout]
  constructor
  · exact maxLevel h
  · simp only [Format.array, he]
  · funext path
    simp only [Format.array, printItems h]
  · simp only [Format.array, hl]

end SameAt

/-- The items of an array of level `n` and below have level `n` and below. -/
theorem maxLevel_le_iff {f : Format α} {items : List α} {n : Nat} :
    f.maxLevel items ≤ n ↔ ∀ a ∈ items, f.level a ≤ n := by
  induction items with
  | nil => simp [maxLevel]
  | cons a items ih =>
    simp only [maxLevel, List.foldr_cons, List.forall_mem_cons] at ih ⊢
    rw [← ih]
    omega

namespace Agree

variable {f g : Format α}

/-- Every format agrees with itself. -/
theorem refl (n : Nat) (f : Format α) : Agree n f f :=
  ⟨fun a _ => .refl f a, .refl _, fun _ _ _ _ => rfl⟩

/-- To agree goes both ways, although `write` asks about either level. -/
theorem symm (h : Agree n f g) : Agree n g f where
  write a ha := (h.write a ha.symm).symm
  decode limits input hn := (h.decode limits input hn).symm
  read source levels path hn := (h.read source levels path hn).symm

/-- Formats that agree with a third one agree with each other. -/
theorem trans {e : Format α} (h : Agree n f g) (k : Agree n g e) : Agree n f e where
  write a ha := by
    rcases ha with ha | ha
    · have h1 := h.write a (Or.inl ha)
      exact h1.trans (k.write a (Or.inl (by rwa [← h1.level])))
    · have h1 := k.write a (Or.inr ha)
      exact (h.write a (Or.inr (by rwa [h1.level]))).trans h1
  decode limits input hn := (h.decode limits input hn).trans (k.decode limits input hn)
  read source levels path hn :=
    (h.read source levels path hn).trans (k.read source levels path hn)

/-- The name of a field is the same on both sides. -/
theorem field (name : String) (h : Agree n f g) : Agree n (field name f) (field name g) where
  write a ha := by
    have h1 := h.write a ha
    exact ⟨h1.level, h1.encode, funext fun path => congrFun h1.print _, h1.layout⟩
  decode := h.decode
  read source levels path hn := h.read source levels _ hn

/-- Pairs agree part by part; what is too deep in one part is too deep in the pair. -/
theorem and {f' g' : Format β} (h : Agree n f g) (h' : Agree n f' g') :
    Agree n (f.and f') (g.and g') where
  write p hp := by
    obtain ⟨a, b⟩ := p
    simp only [Format.and] at hp
    have h1 := h.write a (by omega)
    have h2 := h'.write b (by omega)
    exact ⟨by simp only [Format.and, h1.level, h2.level],
      by simp only [Format.and, h1.encode, h2.encode],
      funext fun path => by simp only [Format.and, h1.print, h2.print],
      by simp only [Format.and, h1.layout, h2.layout]⟩
  decode := h.decode.bind fun _ => h'.decode.bind fun _ => .refl _
  read source levels path hn := by
    simp only [Format.and]
    rw [h.read source levels path hn, h'.read source levels path hn]

/-- Another form of a value is written and read through its parts. -/
theorem map (h : Agree n f g) (make : α → β) (parts : β → α)
    (h₁ : ∀ a, parts (make a) = a) (h₂ : ∀ b, make (parts b) = b) :
    Agree n (map f make parts h₁ h₂) (map g make parts h₁ h₂) where
  write b hb := by
    have h1 := h.write (parts b) hb
    exact ⟨h1.level, h1.encode, h1.print, h1.layout⟩
  decode := h.decode.map make
  read source levels path hn := by
    simp only [Format.map, h.read source levels path hn]

/-- Both formats have the same flag. -/
theorem option (h : Agree n f g) : Agree n (option f) (option g) where
  write o ho := by
    cases o with
    | none => exact ⟨rfl, rfl, rfl, rfl⟩
    | some a =>
      have h1 := h.write a ho
      exact ⟨h1.level, by simp only [Format.option, h1.encode],
        funext fun path => by simp only [Format.option, h1.print],
        by simp only [Format.option, h1.layout]⟩
  decode := (Decoder.Agree.refl Decoder.bool).bind fun flag => by
    cases flag with
    | false => exact .refl _
    | true => exact h.decode.map some
  read source levels path hn := by
    simp only [Format.option, h.read source levels path hn]

/-- Lists agree item by item; no item is deeper than the list. -/
theorem array (max : Nat) (h : Agree n f g) : Agree n (array max f) (array max g) where
  write items hi := .array max fun a ha => by
    refine h.write a (hi.imp ?_ ?_)
    · exact fun hl => maxLevel_le_iff.1 hl a ha
    · exact fun hl => maxLevel_le_iff.1 hl a ha
  decode := h.decode.array max
  read source levels path hn := by
    have items : ∀ k i,
        f.readItems source levels path i k = g.readItems source levels path i k := by
      intro k
      induction k with
      | zero => intro i; rfl
      | succ k ih =>
        intro i
        simp only [readItems, ih, h.read source levels _ hn]
    simp only [Format.array, items]

/-- One level of nesting is one level of agreement. -/
theorem deeper (h : ∀ m, n = m + 1 → Agree m f g) : Agree n (deeper f) (deeper g) where
  write a ha := by
    simp only [Format.deeper] at ha
    obtain ⟨m, rfl⟩ : ∃ m, n = m + 1 := ⟨n - 1, by omega⟩
    have h1 := (h m rfl).write a (by omega)
    exact ⟨by simp only [Format.deeper, h1.level], h1.encode, h1.print, h1.layout⟩
  decode := .deeper fun m hm => (h m hm).decode
  read source levels path hn := by
    cases levels with
    | zero => rfl
    | succ k =>
      obtain ⟨m, rfl⟩ : ∃ m, n = m + 1 := ⟨n - 1, by omega⟩
      exact (h m rfl).read source k path (by omega)

end Agree

/-- Formats that agree up to every level are the same. -/
theorem eq_of_agree {f g : Format α} (h : ∀ n, Agree n f g) : f = g := by
  have hw : ∀ a, SameAt f g a := fun a => (h (f.level a)).write a (Or.inl (Nat.le_refl _))
  have hd : f.decode = g.decode := by
    funext limits input
    exact (h limits.levels).decode limits input (Nat.le_refl _)
  have hr : f.read = g.read := by
    funext source levels path
    exact (h levels).read source levels path (Nat.le_refl _)
  have he : f.encode = g.encode := funext fun a => (hw a).encode
  have hp : f.print = g.print := funext fun a => (hw a).print
  have hl : f.level = g.level := funext fun a => (hw a).level
  have hy : f.layout = g.layout := funext fun a => (hw a).layout
  cases f
  cases g
  simp only at hd hr he hp hl hy
  subst hd hr he hp hl hy
  rfl

/-! ## Unions that agree -/

namespace ArmsAgree

variable {arms brms : List (Arm α)}

/-- Arms agree with themselves. -/
theorem refl (n : Nat) (arms : List (Arm α)) : ArmsAgree n arms arms := by
  induction arms with
  | nil => exact .nil
  | cons arm arms ih => exact .cons (.refl n arm.format) ih

/-- The first arm of a value is the same on both sides, and the two formats of it write alike. -/
theorem sameAt (h : ArmsAgree n arms brms) (name : String) (a : α)
    (ha : (union name arms).level a ≤ n ∨ (union name brms).level a ≤ n) :
    SameAt (union name arms) (union name brms) a := by
  induction h with
  | nil => exact .refl _ a
  | @cons code label Payload f g make get? h₁ h₂ arms brms hf _ ih =>
    cases hg : get? a with
    | none =>
      -- The value is in a later arm.
      simp only [union, List.findSome?_cons, Arm.level?, hg, Option.map_none] at ha
      have h1 := ih ha
      have hl := h1.level
      have he := h1.encode
      have hp := h1.print
      have hy := h1.layout
      constructor
      · simpa only [union, List.findSome?_cons, Arm.level?, hg, Option.map_none] using hl
      · simpa only [union, List.findSome?_cons, Arm.encode?, hg, Option.map_none] using he
      · simpa only [union, List.findSome?_cons, Arm.print?, hg, Option.map_none] using hp
      · simpa only [union, List.findSome?_cons, Arm.layout?, hg, Option.map_none] using hy
    | some p =>
      simp only [union, List.findSome?_cons, Arm.level?, hg, Option.map_some,
        Option.getD_some] at ha
      have h1 := hf.write p ha
      constructor
      · simp only [union, List.findSome?_cons, Arm.level?, hg, Option.map_some, h1.level]
      · simp only [union, List.findSome?_cons, Arm.encode?, hg, Option.map_some, h1.encode]
      · funext path
        simp only [union, List.findSome?_cons, Arm.print?, hg, Option.map_some, h1.print]
      · simp only [union, List.findSome?_cons, Arm.layout?, hg, Option.map_some, h1.layout]

/-- The arm that a discriminant selects reads alike. -/
theorem decode (h : ArmsAgree n arms brms) (name : String) (code : Int32) :
    Decoder.Agree n
      ((arms.find? (·.code == code)).elim (Decoder.unknown name code)
        fun arm => arm.make <$> arm.format.decode)
      ((brms.find? (·.code == code)).elim (Decoder.unknown name code)
        fun arm => arm.make <$> arm.format.decode) := by
  induction h with
  | nil => exact .refl _
  | @cons code' label Payload f g make get? h₁ h₂ arms brms hf _ ih =>
    simp only [List.find?_cons]
    -- Both arms are selected, or neither.
    cases code' == code with
    | true => exact hf.decode.map make
    | false => exact ih

/-- The arm that a name selects reads alike. -/
theorem read (h : ArmsAgree n arms brms) (source : Source) (levels : Nat) (path : String)
    (hn : levels ≤ n) (label : String) (e : TxRep.Error) :
    ((arms.find? (·.label == label)).elim (Except.error e)
      fun arm => arm.make <$> arm.format.read source levels path) =
    ((brms.find? (·.label == label)).elim (Except.error e)
      fun arm => arm.make <$> arm.format.read source levels path) := by
  induction h with
  | nil => rfl
  | @cons code label' Payload f g make get? h₁ h₂ arms brms hf _ ih =>
    simp only [List.find?_cons]
    cases label' == label with
    | true => exact congrArg (make <$> ·) (hf.read source levels path hn)
    | false => exact ih

end ArmsAgree

/-- The arm that a value is in has the same code and the same label on both sides. -/
theorem Agree.union {arms brms : List (Arm α)} (name : String) (h : ArmsAgree n arms brms) :
    Agree n (union name arms) (union name brms) where
  write a ha := h.sameAt name a ha
  decode := by
    rw [decode_union, decode_union]
    exact (Decoder.Agree.refl Decoder.int32).bind fun code => h.decode name code
  read source levels path hn := by
    rw [read_union, read_union]
    congr 1
    funext label
    exact h.read source levels path hn label _

/-! ## The format of a nested type -/

/-- A layer that enters the values inside one level deeper each time. -/
structure Guarded (layer : Format α → Format α) (level : α → Nat) : Prop where
  /-- Up to level `n` a layer depends on the values inside up to level `n - 1` only. -/
  agree : ∀ n f g, (∀ m, n = m + 1 → Agree m f g) → Agree n (layer f) (layer g)
  /-- The level of a value is one more than that of the values inside. -/
  level : ∀ f : Format α, f.level = level → (layer f).level = level

namespace Guarded

variable {layer : Format α → Format α} {level : α → Nat}

/-- If unrolling is right up to level `n`, then the layer over `fix` is `fix` up to level `n`. -/
private theorem fix_agree (h : Guarded layer level)
    (hn : ∀ m, m ≤ n → Agree m (unroll layer m) (layer (fix layer level))) :
    Agree n (fix layer level) (layer (fix layer level)) where
  write a ha := by
    have hl : (layer (fix layer level)).level = level := h.level _ rfl
    have hle : level a ≤ n := by
      rcases ha with ha | ha
      · exact ha
      · rwa [hl] at ha
    -- `fix` unrolls as often as the value at hand is deep.
    have h1 := (hn (level a) hle).write a (Or.inr (Nat.le_of_eq (congrFun hl a)))
    exact ⟨by rw [hl]; rfl, h1.encode, h1.print, h1.layout⟩
  decode limits input hle := (hn limits.levels hle).decode limits input (Nat.le_refl _)
  read source levels path hle := (hn levels hle).read source levels path (Nat.le_refl _)

/-- Unrolling `n` times is right up to level `n`. -/
theorem unroll_agree (h : Guarded layer level) (n : Nat) :
    Agree n (unroll layer n) (layer (fix layer level)) := by
  induction n using Nat.strongRecOn with
  | ind n ih =>
    cases n with
    | zero => exact h.agree 0 _ _ fun m hm => by omega
    | succ n =>
      -- The layer looks inside one level less deep, where unrolling and `fix` agree.
      apply h.agree (n + 1) (unroll layer n) (fix layer level)
      intro m hm
      obtain rfl : n = m := by omega
      have h1 := ih n (by omega)
      have h2 := h.fix_agree (n := n) fun k hk => ih k (by omega)
      exact h1.trans h2.symm

/-- A nested type is one layer of itself. -/
theorem fix_eq (h : Guarded layer level) :
    fix layer level = layer (fix layer level) :=
  eq_of_agree fun n => h.fix_agree (n := n) fun m _ => h.unroll_agree m

end Guarded

end Format

end StellarTx
