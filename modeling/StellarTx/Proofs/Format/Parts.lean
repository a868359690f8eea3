/-
# What is read, part by part

A value is looked up at a path exactly if its parts are, each at its own place.  A law about what
is read is shown from these equivalences, one for each operation on formats; those for unions and
for assets are `Format.read_union_eq_ok_iff` and `AssetOrShare.read_eq_ok_iff`.
-/
import StellarTx.Format.Basic
import StellarTx.Proofs.Result

namespace StellarTx.Format

open TxRep (Source item)

variable {α β : Type} {f : Format α} {g : Format β} {source : Source} {levels : Nat}
  {path : String}

/-- Two values are read at one path, each by its own lines. -/
theorem read_and_eq_ok_iff {p : α × β} :
    (f.and g).read source levels path = .ok p ↔
      f.read source levels path = .ok p.1 ∧ g.read source levels path = .ok p.2 := by
  show (f.read source levels path >>= fun a => g.read source levels path >>= fun b =>
    pure (a, b)) = _ ↔ _
  rw [Except.bind_eq_ok_iff]
  constructor
  · rintro ⟨a, ha, h⟩
    obtain ⟨b, hb, h⟩ := Except.bind_eq_ok_iff.1 h
    cases h
    exact ⟨ha, hb⟩
  · rintro ⟨ha, hb⟩
    exact ⟨_, ha, Except.bind_eq_ok_iff.2 ⟨_, hb, rfl⟩⟩

/-- A value in another form is read as its parts. -/
theorem read_map_eq_ok_iff {make : α → β} {parts : β → α} {h₁ : ∀ a, parts (make a) = a}
    {h₂ : ∀ b, make (parts b) = b} {b : β} :
    (map f make parts h₁ h₂).read source levels path = .ok b ↔
      f.read source levels path = .ok (parts b) := by
  show make <$> f.read source levels path = .ok b ↔ _
  rw [Except.map_eq_ok_iff]
  constructor
  · rintro ⟨a, ha, rfl⟩
    rw [ha, h₁]
  · exact fun h => ⟨_, h, h₂ b⟩

/-- A value that may be absent is read if its flag says that it is there. -/
theorem read_option_eq_ok_iff {o : Option α} :
    (option f).read source levels path = .ok o ↔
      source.present path = .ok o.isSome ∧ ∀ a ∈ o, f.read source levels path = .ok a := by
  show (source.present path >>= fun present =>
    if present then some <$> f.read source levels path else pure none) = _ ↔ _
  rw [Except.bind_eq_ok_iff]
  constructor
  · rintro ⟨_ | _, hp, h⟩
    · cases h
      exact ⟨hp, nofun⟩
    · obtain ⟨a, ha, rfl⟩ := Except.map_eq_ok_iff.1 h
      refine ⟨hp, ?_⟩
      rintro _ ⟨⟩
      exact ha
  · rintro ⟨hp, h⟩
    refine ⟨_, hp, ?_⟩
    cases o with
    | none => rfl
    | some a => exact Except.map_eq_ok_iff.2 ⟨a, h a rfl, rfl⟩

/-! ## Items -/

/-- As many items are read as asked for, each at its own index. -/
theorem readItems_eq_ok_iff {i k : Nat} {items : List α} :
    f.readItems source levels path i k = .ok items ↔
      items.length = k ∧
        ∀ j a, items[j]? = some a → f.read source levels (item path (i + j)) = .ok a := by
  induction k generalizing i items with
  | zero =>
    constructor
    · rintro ⟨⟩
      exact ⟨rfl, nofun⟩
    · rintro ⟨h, _⟩
      rw [List.length_eq_zero_iff.1 h]
      rfl
  | succ k ih =>
    have hnext (j : Nat) : i + 1 + j = i + (j + 1) := by omega
    rw [readItems, Except.bind_eq_ok_iff]
    constructor
    · rintro ⟨a, ha, h⟩
      obtain ⟨rest, hrest, h⟩ := Except.bind_eq_ok_iff.1 h
      cases h
      obtain ⟨hk, hrest⟩ := ih.1 hrest
      refine ⟨congrArg (· + 1) hk, fun j b hj => ?_⟩
      cases j with
      | zero =>
        cases hj
        exact ha
      | succ j =>
        rw [← hnext]
        exact hrest j b hj
    · rintro ⟨hk, h⟩
      obtain ⟨a, rest, rfl⟩ := List.exists_cons_of_length_eq_add_one hk
      refine ⟨a, h 0 a rfl, Except.bind_eq_ok_iff.2 ⟨rest, ih.2 ⟨Nat.succ.inj hk, ?_⟩, rfl⟩⟩
      intro j b hj
      rw [hnext]
      exact h (j + 1) b hj

/-- A list is read if its length is, and every item at the path of its index. -/
theorem read_array_eq_ok_iff {max : Nat} {items : List α} :
    (array max f).read source levels path = .ok items ↔
      source.length max path = .ok items.length ∧
        ∀ j a, items[j]? = some a → f.read source levels (item path j) = .ok a := by
  show (source.length max path >>= fun k => f.readItems source levels path 0 k) = _ ↔ _
  simp only [Except.bind_eq_ok_iff, readItems_eq_ok_iff, Nat.zero_add]
  constructor
  · rintro ⟨k, hk, rfl, h⟩
    exact ⟨hk, h⟩
  · exact fun ⟨hk, h⟩ => ⟨_, hk, rfl, h⟩

/-- The first item that cannot be read stops the reading of items. -/
theorem readItems_of_error {e : TxRep.Error} {i m k : Nat} (hm : m < k)
    (hok : ∀ j, j < m → ∃ a, f.read source levels (item path (i + j)) = .ok a)
    (he : f.read source levels (item path (i + m)) = .error e) :
    f.readItems source levels path i k = .error e := by
  induction k generalizing i m with
  | zero => exact absurd hm (Nat.not_lt_zero m)
  | succ k ih =>
    cases m with
    | zero => exact Except.bind_of_error he
    | succ m =>
      obtain ⟨a, ha⟩ := hok 0 (Nat.succ_pos m)
      refine (Except.bind_of_ok ha).trans (Except.bind_of_error ?_)
      have hnext (j : Nat) : i + 1 + j = i + (j + 1) := by omega
      refine ih (Nat.lt_of_succ_lt_succ hm) (fun j hj => ?_) ?_
      · rw [hnext]
        exact hok (j + 1) (Nat.succ_lt_succ hj)
      · rw [hnext]
        exact he

/-! ## Levels -/

/-- To go deeper takes one of the levels that are left. -/
theorem read_deeper_eq_ok_iff {a : α} :
    (deeper f).read source levels path = .ok a ↔
      ∃ m, levels = m + 1 ∧ f.read source m path = .ok a := by
  cases levels with
  | zero =>
    -- Without a level left nothing is read.
    exact iff_of_false nofun fun ⟨_, h, _⟩ => Nat.succ_ne_zero _ h.symm
  | succ m =>
    constructor
    · exact fun h => ⟨m, rfl, h⟩
    · rintro ⟨_, h, hr⟩
      rwa [← Nat.succ.inj h] at hr

end StellarTx.Format
