/-
# Predicates, claimants and ledger keys are regular

The format of predicates is one layer of itself, so that what holds of it down to `n` levels follows
from what holds down to `n - 1`.
-/
import StellarTx.LedgerKey
import StellarTx.Proofs.Asset
import StellarTx.Proofs.Format.Nested

namespace StellarTx

open Format (Outline Outlined OutlinedArms Hungry)

/-! ## Predicates -/

namespace ClaimPredicate

/-- The outline of a predicate. -/
def outline : Outline :=
  .fields ["andPredicates", "orPredicates", "notPredicate", "absBefore", "relBefore", "type"]

/-- The labels are told apart, and each predicate is in the arm of its constructor. -/
theorem sound (self : Format ClaimPredicate) : Arm.Sound (arms self) where
  apart := by
    show Arm.toldApart ((arms .stuck).map (·.code)) ((arms .stuck).map (·.label)) = true
    rfl
  single a := by cases a <;> rfl

/-- A predicate takes at least the four bytes of its code. -/
theorem hungry : Hungry format := by
  intro limits offset
  rw [format_eq]
  exact ⟨_, rfl⟩

/-- Connectives are one level deeper than their conditions, and so is a negation if there is one. -/
theorem outlined_layer {n : Nat} (h : ∀ m, n = m + 1 → Outlined m outline format) :
    Outlined n outline (layer format) := by
  have inside (name : String) : Outlined n (.under name (.listed maxConditions outline))
      (.deeper (.field name (.array maxConditions format))) :=
    .deeper fun m hm => .field name (.array (h m hm) hungry)
  exact .at (.union _ (sound format) <| .void <| .cons (inside _) <| .cons (inside _) <|
    .cons (.field "notPredicate" (.option (.deeper h))) <|
    .cons (.field "absBefore" (.scalar .signedTimestamp)) <|
    .cons (.field "relBefore" (.scalar .int64)) .nil) rfl

/-- By induction on the levels, one layer at a time. -/
theorem outlined {n : Nat} : Outlined n outline format :=
  .of_layer format_eq outlined_layer

/-! ### Negations -/

/-- `n` negations around one condition: the valid predicate of each level that says least. -/
def negations : Nat → ClaimPredicate
  | 0 => .unconditional
  | n + 1 => .not (some (negations n))

/-- Negations nest exactly as deep as there are. -/
theorem level_negations (n : Nat) : format.level (negations n) = n := by
  show level (negations n) = n
  induction n with
  | zero => rfl
  | succ n ih => rw [negations, level, ih]

/-- The condition inside counts as a level of its own here. -/
theorem depth_negations (n : Nat) : (negations n).depth = n + 1 := by
  induction n with
  | zero => rfl
  | succ n ih => rw [negations, depth, ih, Nat.add_comm]

/-- A negation of a valid predicate is valid. -/
theorem validate_negations (n : Nat) : (negations n).validate = .ok () := by
  induction n with
  | zero => rfl
  | succ n ih => rw [negations, validate, ih]

end ClaimPredicate

/-! ## Claimants -/

theorem Claimant.outlined {n : Nat} : Outlined n (.fields ["v0", "type"]) Claimant.format :=
  .at (.union _ ⟨rfl, fun _ => rfl⟩ <| .cons (.field "v0" <|
    .and (.field "destination" AccountId.outlined)
      (.field "predicate" ClaimPredicate.outlined)) .nil) rfl

theorem ClaimableBalanceId.outlined {n : Nat} :
    Outlined n (.fields ["v0", "type"]) ClaimableBalanceId.format :=
  .at (.union _ ⟨rfl, fun _ => rfl⟩ <| .cons (.field "v0" (.octets 32)) .nil) rfl

/-! ## Ledger keys -/

theorem LedgerKey.outlined {n : Nat} :
    Outlined n (.fields ["account", "trustLine", "offer", "data", "claimableBalance",
      "liquidityPool", "type"]) LedgerKey.format :=
  .at (.union _ ⟨rfl, fun a => by cases a <;> rfl⟩ <|
    .cons (.field "account" (.field "accountID" AccountId.outlined)) <|
    .cons (.field "trustLine" <| .and (.field "accountID" AccountId.outlined)
      (.field "asset" TrustLineAsset.outlined)) <|
    .cons (.field "offer" <| .and (.field "sellerID" AccountId.outlined)
      (.field "offerID" (.scalar .int64))) <|
    .cons (.field "data" <| .and (.field "accountID" AccountId.outlined)
      (.field "dataName" .string)) <|
    .cons (.field "claimableBalance" (.field "balanceID" ClaimableBalanceId.outlined)) <|
    .cons (.field "liquidityPool" (.field "liquidityPoolID" (.octets 32))) .nil) rfl

end StellarTx
