/-
# The three nested types

Predicates, contract values and invocations are each described by one layer.  Every layer is
guarded, so that the format of the type is that layer of itself: `ClaimPredicate.format_eq`,
`Contract.Value.format_eq` and `Contract.Invocation.format_eq`.
-/
import StellarTx.Claim.Predicate
import StellarTx.Contract.Authorization
import StellarTx.Proofs.Format.Agreement

namespace StellarTx

open Format (Agree ArmsAgree Guarded)

/-! ## Predicates -/

namespace ClaimPredicate

/-- The levels of conditions are the same for every format that agrees on one condition. -/
theorem maxLevel_eq {f : Format ClaimPredicate} (h : f.level = level)
    (conditions : List ClaimPredicate) : f.maxLevel conditions = maxLevel conditions := by
  induction conditions with
  | nil => rfl
  | cons p rest ih =>
    simp only [Format.maxLevel, List.foldr_cons, maxLevel, h] at ih ⊢
    rw [ih]

/-- A layer asks for the format inside only below one level, so that its fixed point unfolds. -/
theorem guarded : Guarded layer level where
  agree n f g h := by
    -- The conditions inside are guarded in each of the three arms that have some.
    have inside (name : String) : Agree n (Format.deeper (.field name (.array maxConditions f)))
        (Format.deeper (.field name (.array maxConditions g))) :=
      .deeper fun m hm => ((h m hm).array maxConditions).field name
    refine .union _ (.cons (.refl n _) (.cons (inside _) (.cons (inside _) (.cons ?_ ?_))))
    · exact (Agree.deeper h).option.field _
    · exact .refl n _
  level f h := by
    funext p
    cases p with
    | and conditions => exact congrArg (· + 1) (maxLevel_eq h conditions)
    | or conditions => exact congrArg (· + 1) (maxLevel_eq h conditions)
    | not condition =>
      cases condition with
      | none => rfl
      | some p => exact congrArg (· + 1) (congrFun h p)
    | _ => rfl

/-- The format of predicates is one layer of itself. -/
theorem format_eq : format = layer format := guarded.fix_eq

end ClaimPredicate

namespace Contract

/-! ## Values -/

namespace Value

/-- The levels of items are the same for every format that agrees on one value. -/
theorem maxLevel_eq {f : Format Value} (h : f.level = level) (items : List Value) :
    f.maxLevel items = maxLevel items := by
  induction items with
  | nil => rfl
  | cons v rest ih =>
    simp only [Format.maxLevel, List.foldr_cons, maxLevel, h] at ih ⊢
    rw [ih]

/-- An entry is as deep as the deeper of its key and its value. -/
theorem maxLevelEntries_eq {f : Format Value} (h : f.level = level)
    (entries : List (Value × Value)) :
    (entryFormat f).maxLevel entries = maxLevelEntries entries := by
  induction entries with
  | nil => rfl
  | cons e rest ih =>
    have h1 : (entryFormat f).level e = max (level e.1) (level e.2) := by
      rw [← h]
      rfl
    simp only [Format.maxLevel, List.foldr_cons, maxLevelEntries, h1] at ih ⊢
    rw [ih]

/-- Of three kinds of values the layer opens two; both charge a level before the values inside. -/
theorem guarded : Guarded layer level where
  agree n f g h := by
    have items : Agree n (Format.deeper (.array Xdr.unbounded f))
        (Format.deeper (.array Xdr.unbounded g)) :=
      .deeper fun m hm => (h m hm).array Xdr.unbounded
    have entries : Agree n (Format.deeper (.array Xdr.unbounded (entryFormat f)))
        (Format.deeper (.array Xdr.unbounded (entryFormat g))) :=
      .deeper fun m hm => (((h m hm).field _).and ((h m hm).field _)).array Xdr.unbounded
    exact .union _ (.cons (items.option.field _) (.cons (entries.option.field _) (.refl n _)))
  level f h := by
    funext v
    -- Of what a value may hold, only vectors and maps have levels.
    cases v with
    | vector items =>
      cases items with
      | none => rfl
      | some items => exact congrArg (· + 1) (maxLevel_eq h items)
    | map entries =>
      cases entries with
      | none => rfl
      | some entries => exact congrArg (· + 1) (maxLevelEntries_eq h entries)
    | atom a =>
      cases a with
      | address a => cases a <;> rfl
      | _ => rfl

/-- The format of values is one layer of itself. -/
theorem format_eq : format = layer format := guarded.fix_eq

end Value

/-! ## Invocations -/

namespace Invocation

/-- The levels of calls inside are the same for every format that agrees on one call. -/
theorem maxLevel_eq {f : Format Invocation} (h : f.level = level) (is : List Invocation) :
    f.maxLevel is = maxLevel is := by
  induction is with
  | nil => rfl
  | cons i rest ih =>
    simp only [Format.maxLevel, List.foldr_cons, maxLevel, h] at ih ⊢
    rw [ih]

/-- The list of calls inside is what charges a level. -/
theorem guarded : Guarded layer level where
  agree n f g h := by
    refine Agree.map (.and (.refl n _) (.field _ ?_)) _ _ _ _
    exact .deeper fun m hm => (h m hm).array Xdr.unbounded
  level f h := by
    funext i
    obtain ⟨function, is⟩ := i
    exact congrArg (fun k => max (AuthorizedFunction.format.level function) (k + 1))
      (maxLevel_eq h is)

/-- The format of invocations is one layer of itself. -/
theorem format_eq : format = layer format := guarded.fix_eq

end Invocation

end Contract

end StellarTx
