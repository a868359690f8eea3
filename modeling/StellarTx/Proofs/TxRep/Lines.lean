/-
# The lines of regular formats

Every line of a value stands at one of the places of its format, and no two lines have the same
path.
-/
import StellarTx.Proofs.Format.Agreement
import StellarTx.Proofs.Format.Union
import StellarTx.Proofs.TxRep.Path

namespace StellarTx.Format

open TxRep (Line join item)

variable {α β : Type} {n : Nat} {F G : Places} {f : Format α} {g : Format β}

/-! ## Where lines stand -/

/-- The lines of values down to `n` levels stand at the given places. -/
def Placed (n : Nat) (F : Places) (f : Format α) : Prop :=
  ∀ a path line, f.level a ≤ n → line ∈ f.print a path → F.Mem path line.path

/-- The lines of items are those of each item. -/
theorem mem_printItems_iff {line : Line} {path : String} {i : Nat} {items : List α} :
    line ∈ f.printItems path i items ↔
      ∃ j a, items[j]? = some a ∧ line ∈ f.print a (item path (i + j)) := by
  induction items generalizing i with
  | nil =>
    constructor
    · intro h; cases h
    · rintro ⟨j, a, h, _⟩; cases h
  | cons a items ih =>
    rw [printItems, List.mem_append, ih]
    constructor
    · rintro (h | ⟨j, b, hb, h⟩)
      · exact ⟨0, a, rfl, h⟩
      · refine ⟨j + 1, b, hb, ?_⟩
        rwa [Nat.add_right_comm] at h
    · rintro ⟨_ | j, b, hb, h⟩
      · cases hb
        exact Or.inl h
      · refine Or.inr ⟨j, b, hb, ?_⟩
        rwa [Nat.add_right_comm]

/-- A scalar stands at its own path, with or without a comment. -/
theorem Scalar.path_eq (h : Scalar f) {a : α} {path : String} {line : Line}
    (hl : line ∈ f.print a path) : line.path = path := by
  cases h with
  | signedTimestamp =>
    rw [List.mem_singleton.1 hl]
    show (if a.toInt < 0 then _ else _ : Line).path = path
    split <;> rfl
  | _ =>
    rw [List.mem_singleton.1 hl]
    rfl

namespace Placed

/-- A single line at the path itself. -/
theorem of_itself (h : ∀ a path line, line ∈ f.print a path → line.path = path) :
    Placed n .itself f := by
  intro a path line _ hl
  rw [h a path line hl]
  exact Places.mem_itself path

/-- What stands in a field stands under its name. -/
theorem field (h : Placed n F f) {name : String} (plain : IsPlain name) :
    Placed n (.under name) (field name f) := by
  intro a path line hn hl
  exact Places.mem_under plain ((h a _ line hn hl).within (TxRep.join_ne_empty path plain))

/-- The lines of both values, each at its places. -/
theorem and (h : Placed n F f) (k : Placed n G g) : Placed n (F.union G) (f.and g) := by
  rintro ⟨a, b⟩ path line hn hl
  obtain ⟨hn1, hn2⟩ := Nat.max_le.1 hn
  rcases List.mem_append.1 hl with hl | hl
  · exact (Places.sub_union_left F G).mem (h a path line hn1 hl)
  · exact (Places.sub_union_right F G).mem (k b path line hn2 hl)

/-- The flag, and the lines of the value if it is there. -/
theorem option (h : Placed n F f) : Placed n (F.union (.under "_present")) (option f) := by
  have flag (path : String) : (F.union (.under "_present")).Mem path (join path "_present") :=
    (Places.sub_union_right _ _).mem (Places.mem_under (by decide) (TxRep.within_refl _))
  rintro (_ | a) path line hn hl
  · rw [List.mem_singleton.1 hl]
    exact flag path
  · rcases List.mem_cons.1 hl with rfl | hl
    · exact flag path
    · exact (Places.sub_union_left _ _).mem (h a path line hn hl)

/-- The lines of an item are below it. -/
theorem within_item (h : Placed n F f) {items : List α} (hn : f.maxLevel items ≤ n) {a : α}
    (ha : a ∈ items) {path : String} {i : Nat} {line : Line} (hl : line ∈ f.print a (item path i)) :
    TxRep.Within (item path i) line.path :=
  (h a _ line (maxLevel_le_iff.1 hn a ha) hl).within (TxRep.item_ne_empty path i)

/-- A line of items is below one of them. -/
theorem exists_within_item (h : Placed n F f) {items : List α} (hn : f.maxLevel items ≤ n)
    {path : String} {i : Nat} {line : Line} (hl : line ∈ f.printItems path i items) :
    ∃ j, TxRep.Within (item path (i + j)) line.path := by
  obtain ⟨j, a, ha, hl⟩ := mem_printItems_iff.1 hl
  exact ⟨j, h.within_item hn (List.mem_of_getElem? ha) hl⟩

/-- The number of items, and the lines below the items. -/
theorem array (h : Placed n F f) (max : Nat) : Placed n .listed (array max f) := by
  intro items path line hn hl
  rcases List.mem_cons.1 hl with rfl | hl
  · exact Places.mem_len path
  · obtain ⟨j, hj⟩ := h.exists_within_item hn hl
    exact Places.mem_item hj

/-- A level does not move a line. -/
theorem deeper (h : ∀ m, n = m + 1 → Placed m F f) : Placed n F (deeper f) := by
  intro a path line hn hl
  have hn : f.level a + 1 ≤ n := hn
  exact h (n - 1) (by omega) a path line (by omega) hl

/-- The line of the arm, and the lines of what the arm holds. -/
theorem union {arms : List (Arm α)} (sound : Arm.Sound arms)
    (h : ∀ arm ∈ arms, Placed n F arm.format) (name : String) :
    Placed n (F.union (.under "type")) (union name arms) := by
  intro a path line hn hl
  obtain ⟨arm, ha, p, rfl⟩ := sound.exists_make a
  rw [sound.level_make ha] at hn
  rw [sound.print_make ha] at hl
  rcases List.mem_cons.1 hl with rfl | hl
  · exact (Places.sub_union_right _ _).mem (Places.mem_under (by decide) (TxRep.within_refl _))
  · exact (Places.sub_union_left _ _).mem (h arm ha p path line hn hl)

/-- An asset stands at the path itself, a share at a field and at the places of its pool. -/
theorem assetOrShare {π : Type} {pool : Format π} (h : Placed n F pool) (name : String) :
    Placed n (AssetOrShare.places F) (AssetOrShare.format name pool) := by
  rintro (a | s) path line hn hl
  · rw [List.mem_singleton.1 hl]
    exact Or.inl ⟨rfl, rfl⟩
  · rcases List.mem_cons.1 hl with rfl | hl
    · exact AssetOrShare.mem_arm F path
    · exact (Places.sub_union_right _ _).mem (h s path line hn hl)

end Placed

/-- Every regular format keeps to the places that come with it. -/
theorem Regular.placed (h : Regular n F f) : Placed n F f := by
  induction h with
  | unit => exact fun a path line _ hl => by cases hl
  | scalar h => exact .of_itself fun a path line hl => h.path_eq hl
  | octets k => exact .of_itself fun a path line hl => by rw [List.mem_singleton.1 hl]; rfl
  | bytes small => exact .of_itself fun a path line hl => by rw [List.mem_singleton.1 hl]; rfl
  | string small => exact .of_itself fun a path line hl => by rw [List.mem_singleton.1 hl]; rfl
  | extension union =>
    intro a path line _ hl
    rw [List.mem_singleton.1 hl]
    exact Places.mem_under (by decide) (TxRep.within_refl _)
  | field name _ plain ih => exact ih.field plain
  | and _ _ _ ih ih' => exact ih.and ih'
  | map _ ih => exact fun b path line hn hl => ih _ path line hn hl
  | option _ _ ih => exact ih.option
  | array _ _ _ ih => exact ih.array _
  | deeper _ ih => exact .deeper ih
  | token _ _ _ _ => exact .of_itself fun a path line hl => by rw [List.mem_singleton.1 hl]; rfl
  | union name sound _ _ _ ih => exact .union sound ih name
  | assetOrShare name _ _ _ _ _ _ _ _ ih => exact ih.assetOrShare name
  | widen sub _ ih => exact fun a path line hn hl => sub.mem (ih a path line hn hl)

/-! ## No path twice -/

/-- The lines of values down to `n` levels have different paths. -/
def Distinct (n : Nat) (f : Format α) : Prop :=
  ∀ a path, f.level a ≤ n → ((f.print a path).map (·.path)).Nodup

namespace Distinct

/-- A single line has no other one to share its path with. -/
theorem of_single (h : ∀ a path, ∃ line, f.print a path = [line]) : Distinct n f := by
  intro a path _
  obtain ⟨line, hl⟩ := h a path
  rw [hl]
  exact List.pairwise_singleton _ _

/-- Lines at different places have different paths. -/
theorem append {lines more : List Line} {path : String} (hF : ∀ line ∈ lines, F.Mem path line.path)
    (hG : ∀ line ∈ more, G.Mem path line.path) (apart : F.Apart G)
    (h : (lines.map (·.path)).Nodup) (k : (more.map (·.path)).Nodup) :
    ((lines ++ more).map (·.path)).Nodup := by
  rw [List.map_append, List.nodup_append]
  refine ⟨h, k, fun q hq q' hq' => ?_⟩
  obtain ⟨line, hl, rfl⟩ := List.mem_map.1 hq
  obtain ⟨line', hl', rfl⟩ := List.mem_map.1 hq'
  intro e
  exact apart.not_mem (hF line hl) (e ▸ hG line' hl')

/-- A line for a field beside lines at other places. -/
theorem cons {lines : List Line} {path name : String} {line : Line}
    (hF : ∀ line ∈ lines, F.Mem path line.path) (plain : IsPlain name) (apart : name ∉ F.names)
    (hline : line.path = join path name) (h : (lines.map (·.path)).Nodup) :
    ((line :: lines).map (·.path)).Nodup := by
  rw [List.map_cons, List.nodup_cons]
  refine ⟨fun hm => ?_, h⟩
  obtain ⟨line', hl', e⟩ := List.mem_map.1 hm
  rw [hline] at e
  refine (Places.apart_under apart).not_mem (hF line' hl') ?_
  rw [e]
  exact Places.mem_under plain (TxRep.within_refl _)

/-- The two values keep to places that are apart. -/
theorem and (h : Distinct n f) (k : Distinct n g) (hF : Placed n F f) (hG : Placed n G g)
    (apart : F.Apart G) : Distinct n (f.and g) := by
  rintro ⟨a, b⟩ path hn
  obtain ⟨hn1, hn2⟩ := Nat.max_le.1 hn
  exact append (fun line hl => hF a path line hn1 hl) (fun line hl => hG b path line hn2 hl) apart
    (h a path hn1) (k b path hn2)

/-- No field is named like the flag. -/
theorem option (h : Distinct n f) (hF : Placed n F f) (apart : "_present" ∉ F.names) :
    Distinct n (option f) := by
  rintro (_ | a) path hn
  · exact List.pairwise_singleton _ _
  · exact cons (fun line hl => hF a path line hn hl) (by decide) apart rfl (h a path hn)

/-- Lines below one item are not below another, by induction on the items. -/
theorem printItems (h : Distinct n f) (hF : Placed n F f) {items : List α}
    (hn : f.maxLevel items ≤ n) (path : String) (i : Nat) :
    ((f.printItems path i items).map (·.path)).Nodup := by
  induction items generalizing i with
  | nil => exact List.nodup_nil
  | cons a items ih =>
    obtain ⟨hn1, hn2⟩ := Nat.max_le.1 hn
    rw [Format.printItems, List.map_append, List.nodup_append]
    refine ⟨h a _ hn1, ih hn2 (i + 1), fun q hq q' hq' => ?_⟩
    obtain ⟨line, hl, rfl⟩ := List.mem_map.1 hq
    obtain ⟨line', hl', rfl⟩ := List.mem_map.1 hq'
    obtain ⟨j, h2⟩ := hF.exists_within_item hn2 hl'
    intro e
    -- Both lines are below one item, whose index would be both `i` and greater.
    have h1 := (hF a _ line hn1 hl).within (TxRep.item_ne_empty path i)
    rw [e] at h1
    have := h1.item_inj h2
    omega

/-- Nor is the number of items below any of them. -/
theorem array (h : Distinct n f) (hF : Placed n F f) (max : Nat) :
    Distinct n (array max f) := by
  intro items path hn
  show ((_ :: f.printItems path 0 items).map (·.path)).Nodup
  rw [List.map_cons, List.nodup_cons]
  -- The number of items stands in a field, below which no item is.
  refine ⟨fun hm => ?_, h.printItems hF hn path 0⟩
  obtain ⟨line, hl, e⟩ := List.mem_map.1 hm
  obtain ⟨j, h1⟩ := hF.exists_within_item hn hl
  rw [e] at h1
  exact TxRep.Within.join_item (by decide) (TxRep.within_refl (join path "len")) h1

/-- No field of an arm is named like the line of the arm. -/
theorem union {arms : List (Arm α)} (sound : Arm.Sound arms)
    (h : ∀ arm ∈ arms, Distinct n arm.format) (hF : ∀ arm ∈ arms, Placed n F arm.format)
    (apart : "type" ∉ F.names) (name : String) : Distinct n (union name arms) := by
  intro a path hn
  obtain ⟨arm, ha, p, rfl⟩ := sound.exists_make a
  rw [sound.level_make ha] at hn
  rw [sound.print_make ha]
  exact cons (fun line hl => hF arm ha p path line hn hl) (by decide) apart rfl (h arm ha p path hn)

end Distinct

/-- No two lines of a value have the same path. -/
theorem Regular.distinct (h : Regular n F f) : Distinct n f := by
  induction h with
  | unit => exact fun a path _ => List.nodup_nil
  | scalar h => cases h <;> exact .of_single fun a path => ⟨_, rfl⟩
  | octets k => exact .of_single fun a path => ⟨_, rfl⟩
  | bytes small => exact .of_single fun a path => ⟨_, rfl⟩
  | string small => exact .of_single fun a path => ⟨_, rfl⟩
  | extension union => exact .of_single fun a path => ⟨_, rfl⟩
  | field name _ _ ih => exact fun a path hn => ih a _ hn
  | and h k apart ih ih' => exact ih.and ih' h.placed k.placed apart
  | map _ ih => exact fun b path hn => ih _ path hn
  | option h apart ih => exact ih.option h.placed apart
  | array h _ _ ih => exact ih.array h.placed _
  | @deeper n F α f h ih =>
    intro a path hn
    have hn : f.level a + 1 ≤ n := hn
    exact ih (n - 1) (by omega) a path (by omega)
  | token _ _ _ _ => exact .of_single fun a path => ⟨_, rfl⟩
  | union name sound _ h apart ih =>
    exact .union sound ih (fun arm ha => (h arm ha).placed) apart name
  | assetOrShare name _ _ _ share apart _ _ _ ih =>
    rintro (a | s) path hn
    · exact List.pairwise_singleton _ _
    · exact Distinct.cons (fun line hl => share.placed s path line hn hl) (by decide) apart rfl
        (ih s path hn)
  | widen _ _ ih => exact ih

end StellarTx.Format
