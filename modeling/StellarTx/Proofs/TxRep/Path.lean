/-
# Paths that keep apart

A path leads to everything below it (`Within`).  What is below two fields of one value, below two
items of one array, or below a field and an item, is different, and none of it is the value itself.
Two formats that keep to different places therefore never write to the same path:
`Places.Apart.not_mem`.
-/
import StellarTx.Proofs.Format.Regular

namespace StellarTx

open Text (isBlank)

namespace TxRep

/-! ## The characters of a path -/

/-- What stands before the name of a field in its path. -/
def stem (path : String) : List Char :=
  if path = "" then [] else path.toList ++ ['.']

/-- A path is what stands in front of a name, and the name; at the root nothing does. -/
theorem toList_join (path name : String) : (join path name).toList = stem path ++ name.toList := by
  unfold join stem
  by_cases h : path = ""
  · rw [if_pos h, h]
    rfl
  · have he : path.isEmpty = false := by
      rw [Bool.eq_false_iff]
      exact fun e => h (String.isEmpty_iff.1 e)
    rw [if_neg h, he]
    simp

/-- What stands in front of a name determines the path, the root too, since no other path gives
nothing. -/
theorem stem_inj {path path' : String} (h : stem path = stem path') : path = path' := by
  unfold stem at h
  split at h <;> split at h
  · next h1 h2 => rw [h1, h2]
  · exact absurd (congrArg List.length h) (by simp)
  · exact absurd (congrArg List.length h) (by simp)
  · exact String.toList_inj.1 (List.append_cancel_right h)

/-- The path of a field tells whose field it is. -/
theorem join_left_inj {path path' name : String} (h : join path name = join path' name) :
    path = path' := by
  have hl := congrArg String.toList h
  rw [toList_join, toList_join] at hl
  exact stem_inj (List.append_cancel_right hl)

/-- The index of an item stands between brackets, in decimal digits. -/
theorem toList_item (path : String) (i : Nat) :
    (item path i).toList = path.toList ++ '[' :: (Text.Decimal.digits i ++ [']']) := by
  simp [item, Text.Decimal.ofNat]

/-- No field is at the root. -/
theorem join_ne_empty (path : String) {name : String} (h : IsPlain name) : join path name ≠ "" := by
  intro e
  have hl := toList_join path name
  rw [e] at hl
  exact h.1 (List.append_eq_nil_iff.1 hl.symm).2

/-- No item is at the root. -/
theorem item_ne_empty (path : String) (i : Nat) : item path i ≠ "" := by
  intro e
  have hl := toList_item path i
  rw [e] at hl
  simp at hl

/-! ## Below a path -/

/-- The path is `root` or leads on from there. -/
def Within (root path : String) : Prop :=
  ∃ suffix, path.toList = root.toList ++ suffix ∧ ∀ c ∈ suffix.head?, c = '.' ∨ c = '['

/-- A path is below itself. -/
theorem within_refl (path : String) : Within path path :=
  ⟨[], by simp, by simp⟩

/-- What leads on from a path that leads on from the root does so too. -/
theorem Within.trans {root mid path : String} (h : Within root mid) (k : Within mid path) :
    Within root path := by
  obtain ⟨s, hs, hd⟩ := h
  obtain ⟨t, ht, he⟩ := k
  refine ⟨s ++ t, by rw [ht, hs, List.append_assoc], ?_⟩
  cases s with
  | nil => exact he
  | cons c s => exact hd

/-- A field is below a value that is not the root. -/
theorem within_join {path : String} (h : path ≠ "") (name : String) :
    Within path (join path name) := by
  refine ⟨'.' :: name.toList, ?_, by simp⟩
  rw [toList_join, stem, if_neg h, List.append_assoc]
  rfl

/-- An item is below its array, at the root as well. -/
theorem within_item (path : String) (i : Nat) : Within path (item path i) :=
  ⟨_, toList_item path i, by simp⟩

/-- The name of a field is what comes before the next dot or bracket. -/
theorem takeWhile_plain {name : String} (h : IsPlain name) {suffix : List Char}
    (hs : ∀ c ∈ suffix.head?, c = '.' ∨ c = '[') :
    (name.toList ++ suffix).takeWhile (fun c => c ≠ '.' && c ≠ '[') = name.toList := by
  have hn : ∀ c ∈ name.toList, (decide (c ≠ '.') && decide (c ≠ '[')) = true := by
    intro c hc
    have := h.2 c hc
    simp [this.1, this.2.1]
  rw [List.takeWhile_append_of_pos hn]
  cases suffix with
  | nil => simp
  | cons c suffix =>
    rcases hs c rfl with rfl | rfl <;> simp

/-- What is below two fields tells them apart. -/
theorem Within.join_inj {path name name' q : String} (hn : IsPlain name) (hn' : IsPlain name')
    (h : Within (join path name) q) (h' : Within (join path name') q) : name = name' := by
  obtain ⟨s, hs, hd⟩ := h
  obtain ⟨s', hs', hd'⟩ := h'
  rw [toList_join, List.append_assoc] at hs hs'
  have he : name.toList ++ s = name'.toList ++ s' := List.append_cancel_left (hs ▸ hs')
  -- Both names are what comes before the next dot or bracket.
  have h1 := takeWhile_plain hn hd
  have h2 := takeWhile_plain hn' hd'
  rw [he, h2] at h1
  exact String.toList_inj.1 h1.symm

/-- What is below two items tells them apart. -/
theorem Within.item_inj {path q : String} {i j : Nat} (h : Within (item path i) q)
    (h' : Within (item path j) q) : i = j := by
  obtain ⟨s, hs, _⟩ := h
  obtain ⟨s', hs', _⟩ := h'
  rw [toList_item, List.append_assoc] at hs hs'
  have he : '[' :: (Text.Decimal.digits i ++ [']']) ++ s =
      '[' :: (Text.Decimal.digits j ++ [']']) ++ s' := List.append_cancel_left (hs ▸ hs')
  rw [List.cons_append, List.cons_append, List.append_assoc, List.append_assoc] at he
  -- Both indices are what the digits after the bracket spell.
  have hdigits : ∀ (k : Nat) (rest : List Char),
      (Text.Decimal.digits k ++ ([']'] ++ rest)).takeWhile Char.isDigit =
        Text.Decimal.digits k := by
    intro k rest
    rw [List.takeWhile_append_of_pos fun c hc => Text.Decimal.isDigit_of_mem_digits hc]
    simp
  have h1 := hdigits i s
  rw [(List.cons.inj he).2, hdigits j s'] at h1
  have h2 := Text.Decimal.ofDigits?_digits i
  rw [← h1, Text.Decimal.ofDigits?_digits] at h2
  exact (Option.some.inj h2).symm

/-- Nothing is both below a field and below an item. -/
theorem Within.join_item {path name q : String} {i : Nat} (hn : IsPlain name)
    (h : Within (join path name) q) (h' : Within (item path i) q) : False := by
  obtain ⟨s, hs, _⟩ := h
  obtain ⟨s', hs', _⟩ := h'
  rw [toList_join, hs', toList_item, List.append_assoc, List.append_assoc] at hs
  unfold stem at hs
  by_cases hp : path = ""
  · -- At the root the name would have to begin with a bracket.
    rw [if_pos hp, hp] at hs
    cases hl : name.toList with
    | nil => exact hn.1 hl
    | cons c rest =>
      have hc := (hn.2 c (by simp [hl])).2.1
      rw [hl] at hs
      exact hc (List.cons.inj hs).1.symm
  · -- Anywhere else the dot before the name would have to be a bracket.
    rw [if_neg hp, List.append_assoc] at hs
    have he := List.append_cancel_left hs
    have := (List.cons.inj he).1
    revert this
    decide

/-- No value is below one of its fields. -/
theorem Within.join_self {path name : String} (hn : IsPlain name)
    (h : Within (join path name) path) : False := by
  obtain ⟨s, hs, _⟩ := h
  rw [toList_join] at hs
  -- The path of the field is longer than the path.
  have hl := congrArg List.length hs
  have hpos := List.length_pos_iff.2 hn.1
  have hstem : path.toList.length ≤ (stem path).length := by
    unfold stem
    by_cases hp : path = ""
    · rw [hp]
      simp
    · rw [if_neg hp]
      simp
  simp only [List.length_append] at hl
  omega

/-- A field is not the value it is a field of. -/
theorem ne_join (path : String) {name : String} (hn : IsPlain name) : path ≠ join path name := by
  intro e
  have hself : Within (join path name) path := by
    rw [← e]
    exact within_refl path
  exact hself.join_self hn

/-- No value is below one of its items. -/
theorem Within.item_self {path : String} {i : Nat} (h : Within (item path i) path) : False := by
  obtain ⟨s, hs, _⟩ := h
  have hl := congrArg List.length hs
  rw [toList_item] at hl
  simp only [List.length_append, List.length_cons] at hl
  omega

end TxRep

/-! ## Places under a path -/

open TxRep (Within join item)

namespace Places

/-- A path is one of the places of a value. -/
def Mem (F : Places) (path q : String) : Prop :=
  (F.here = true ∧ q = path) ∨
  (∃ name ∈ F.names, IsPlain name ∧ Within (join path name) q) ∨
  (F.items = true ∧ ∃ i, Within (item path i) q)

variable {F G : Places} {path q : String}

/-- The path itself is a place of a value that stands there. -/
theorem mem_itself (path : String) : itself.Mem path path := Or.inl ⟨rfl, rfl⟩

/-- What is below a field is a place of a value with this field. -/
theorem mem_under {name : String} (hn : IsPlain name) (h : Within (join path name) q) :
    (under name).Mem path q :=
  Or.inr (Or.inl ⟨name, List.mem_singleton.2 rfl, hn, h⟩)

/-- So is the number of its items for an array. -/
theorem mem_len (path : String) : listed.Mem path (join path "len") :=
  Or.inr (Or.inl ⟨"len", List.mem_singleton.2 rfl, by decide, TxRep.within_refl _⟩)

/-- So is what is below an item. -/
theorem mem_item {i : Nat} (h : Within (item path i) q) : listed.Mem path q :=
  Or.inr (Or.inr ⟨rfl, i, h⟩)

/-- Fewer places hold no more paths. -/
theorem Sub.mem (h : F.Sub G) (hq : F.Mem path q) : G.Mem path q := by
  rcases hq with ⟨h1, h2⟩ | ⟨name, h1, h2⟩ | ⟨h1, h2⟩
  · exact Or.inl ⟨h.1 h1, h2⟩
  · exact Or.inr (Or.inl ⟨name, h.2.1 h1, h2⟩)
  · exact Or.inr (Or.inr ⟨h.2.2 h1, h2⟩)

/-- The places of a value that is not the root are below it. -/
theorem Mem.within (hp : path ≠ "") (hq : F.Mem path q) : Within path q := by
  rcases hq with ⟨_, rfl⟩ | ⟨name, _, _, h⟩ | ⟨_, i, h⟩
  · exact TxRep.within_refl q
  · exact (TxRep.within_join hp name).trans h
  · exact (TxRep.within_item path i).trans h

/-- A field is apart from all places that are not below it. -/
theorem apart_under {name : String} (h : name ∉ F.names) : F.Apart (under name) := by
  refine ⟨Bool.and_false _, fun n hn => ?_, Bool.and_false _⟩
  intro hm
  rw [List.mem_singleton.1 hm] at hn
  exact h hn

/-- A place is not one of places that are apart from it. -/
theorem Apart.not_mem (h : F.Apart G) (hF : F.Mem path q) : ¬ G.Mem path q := by
  obtain ⟨hhere, hnames, hitems⟩ := h
  intro hG
  -- Of the nine pairs of kinds of places, three are of one kind and told apart by `h`.
  rcases hF with ⟨h1, rfl⟩ | ⟨name, h1, hn, h2⟩ | ⟨h1, i, h2⟩
  · rcases hG with ⟨k1, _⟩ | ⟨name', _, hn', k2⟩ | ⟨_, j, k2⟩
    · rw [h1, k1] at hhere
      cases hhere
    · exact k2.join_self hn'
    · exact k2.item_self
  · rcases hG with ⟨_, rfl⟩ | ⟨name', k1, hn', k2⟩ | ⟨_, j, k2⟩
    · exact h2.join_self hn
    · obtain rfl := h2.join_inj hn hn' k2
      exact hnames name h1 k1
    · exact h2.join_item hn k2
  · rcases hG with ⟨_, rfl⟩ | ⟨name', _, hn', k2⟩ | ⟨k1, _⟩
    · exact h2.item_self
    · exact k2.join_item hn' h2
    · rw [h1, k1] at hitems
      cases hitems

/-- A value that is not among its own places has none at its path. -/
theorem not_mem_self (h : F.here = false) : ¬ F.Mem path path := by
  rintro (⟨h1, _⟩ | ⟨name, _, hn, h1⟩ | ⟨_, i, h1⟩)
  · rw [h] at h1
    cases h1
  · exact h1.join_self hn
  · exact h1.item_self

end Places

/-! ## Assets and shares -/

namespace AssetOrShare

/-- An asset stands at the path itself, which is one of the places. -/
theorem sub_itself (F : Places) : Places.itself.Sub (places F) :=
  ⟨fun _ => rfl, nofun, nofun⟩

/-- A pool share has its places, in another order. -/
theorem sub_share (F : Places) : (F.union (.under "type")).Sub (places F) := by
  refine ⟨fun _ => rfl, fun name h => ?_, fun h => ?_⟩
  · rcases List.mem_append.1 h with h | h
    · exact List.mem_append_right _ h
    · exact List.mem_append_left _ h
  · have h : (F.items || false) = true := h
    show (false || F.items) = true
    rw [Bool.or_comm]
    exact h

/-- The label of a share is at one of the places, so that its absence tells an asset. -/
theorem mem_arm (F : Places) (path : String) : (places F).Mem path (join path "type") :=
  (sub_share F).mem ((Places.sub_union_right _ _).mem
    (Places.mem_under (by decide) (TxRep.within_refl _)))

end AssetOrShare

end StellarTx
