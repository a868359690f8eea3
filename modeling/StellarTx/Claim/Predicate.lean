/-
# Conditions on a claim

A predicate says when a claimable balance may be claimed.  The network takes connectives with
exactly two conditions and negations with one, but the wire can also hold fewer, so that a predicate
read from it may be one that `validate` refuses.
-/
import StellarTx.Format.Recursive
import StellarTx.Format.Scalar
import StellarTx.Format.Union
import StellarTx.Validation

namespace StellarTx

open Format (union arm void field array option deeper)

/-- A condition on the time of a claim. -/
inductive ClaimPredicate where
  | unconditional
  | and (conditions : List ClaimPredicate)
  | or (conditions : List ClaimPredicate)
  | not (condition : Option ClaimPredicate)
  /-- Until this time, in seconds since 1970. -/
  | beforeAbsolute (time : Int64)
  /-- For so many seconds from the creation of the balance. -/
  | beforeRelative (seconds : Int64)

namespace ClaimPredicate

/-! ## Equality -/

mutual

/-- Decides whether two predicates are the same. -/
def decEq (p q : ClaimPredicate) : Decidable (p = q) :=
  match p with
  | unconditional => by
    cases q with
    | unconditional => exact isTrue rfl
    | _ => exact isFalse nofun
  | and ps => by
    cases q with
    | and qs =>
      exact match decEqList ps qs with
        | isTrue h => isTrue (h ▸ rfl)
        | isFalse h => isFalse fun e => h (and.inj e)
    | _ => exact isFalse nofun
  | or ps => by
    cases q with
    | or qs =>
      exact match decEqList ps qs with
        | isTrue h => isTrue (h ▸ rfl)
        | isFalse h => isFalse fun e => h (or.inj e)
    | _ => exact isFalse nofun
  | not none => by
    cases q with
    | not q =>
      cases q with
      | none => exact isTrue rfl
      | some q => exact isFalse nofun
    | _ => exact isFalse nofun
  | not (some p) => by
    cases q with
    | not q =>
      cases q with
      | none => exact isFalse nofun
      | some q =>
        exact match decEq p q with
          | isTrue h => isTrue (h ▸ rfl)
          | isFalse h => isFalse fun e => h (Option.some.inj (not.inj e))
    | _ => exact isFalse nofun
  | beforeAbsolute s => by
    cases q with
    | beforeAbsolute t => exact decidable_of_decidable_of_iff (p := s = t) (by simp)
    | _ => exact isFalse nofun
  | beforeRelative s => by
    cases q with
    | beforeRelative t => exact decidable_of_decidable_of_iff (p := s = t) (by simp)
    | _ => exact isFalse nofun

/-- Decides whether two lists of predicates are the same. -/
def decEqList (ps qs : List ClaimPredicate) : Decidable (ps = qs) :=
  match ps, qs with
  | [], [] => isTrue rfl
  | [], _ :: _ => isFalse nofun
  | _ :: _, [] => isFalse nofun
  | p :: ps, q :: qs =>
    match decEq p q, decEqList ps qs with
    | isTrue h, isTrue hs => isTrue (h ▸ hs ▸ rfl)
    | isFalse h, _ => isFalse fun e => h (List.cons.inj e).1
    | _, isFalse hs => isFalse fun e => hs (List.cons.inj e).2

end

instance : DecidableEq ClaimPredicate := decEq

/-! ## Measures -/

mutual

/-- Levels of predicates within predicates, a single condition being one. -/
def depth : ClaimPredicate → Nat
  | and conditions => 1 + maxDepth conditions
  | or conditions => 1 + maxDepth conditions
  | not (some condition) => 1 + depth condition
  | _ => 1

/-- The greatest depth among conditions, zero if there are none. -/
def maxDepth : List ClaimPredicate → Nat
  | [] => 0
  | p :: rest => max (depth p) (maxDepth rest)

end

mutual

/-- Levels of nesting that a reader enters: one for each list of conditions, even an empty one, and
one for each condition under a negation. -/
def level : ClaimPredicate → Nat
  | and conditions => maxLevel conditions + 1
  | or conditions => maxLevel conditions + 1
  | not (some condition) => level condition + 1
  | _ => 0

/-- The greatest level among conditions, zero if there are none. -/
def maxLevel : List ClaimPredicate → Nat
  | [] => 0
  | p :: rest => max (level p) (maxLevel rest)

end

/-! ## Validity -/

mutual

/-- Refuses a predicate that the network does not take, for the first cause from the root down and
from left to right. -/
def validate : ClaimPredicate → Except ValidationError Unit
  | and conditions => do
    if conditions.length ≠ 2 then throw (.arity .and conditions.length)
    validateAll conditions
  | or conditions => do
    if conditions.length ≠ 2 then throw (.arity .or conditions.length)
    validateAll conditions
  | not none => throw .emptyNot
  | not (some condition) => validate condition
  | _ => return ()

/-- Validates conditions from left to right. -/
def validateAll : List ClaimPredicate → Except ValidationError Unit
  | [] => return ()
  | p :: rest => do
    validate p
    validateAll rest

end

/-! ## Format -/

/-- The greatest number of conditions under a connective. -/
def maxConditions : Nat := 2

/-- The arms of a predicate, given the format of the predicates inside. -/
def arms (self : Format ClaimPredicate) : List (Arm ClaimPredicate) :=
  [void 0 "CLAIM_PREDICATE_UNCONDITIONAL" unconditional
      fun | unconditional => some () | _ => none,
   arm 1 "CLAIM_PREDICATE_AND" (deeper (field "andPredicates" (array maxConditions self)))
      and fun | and conditions => some conditions | _ => none,
   arm 2 "CLAIM_PREDICATE_OR" (deeper (field "orPredicates" (array maxConditions self)))
      or fun | or conditions => some conditions | _ => none,
   arm 3 "CLAIM_PREDICATE_NOT" (field "notPredicate" (option (deeper self)))
      not fun | not condition => some condition | _ => none,
   arm 4 "CLAIM_PREDICATE_BEFORE_ABSOLUTE_TIME" (field "absBefore" .signedTimestamp)
      beforeAbsolute fun | beforeAbsolute time => some time | _ => none,
   arm 5 "CLAIM_PREDICATE_BEFORE_RELATIVE_TIME" (field "relBefore" .int64)
      beforeRelative fun | beforeRelative seconds => some seconds | _ => none]

/-- One layer of the format, given the format of the predicates inside. -/
def layer (self : Format ClaimPredicate) : Format ClaimPredicate :=
  union "ClaimPredicateType" (arms self)

def format : Format ClaimPredicate := .fix layer level

end ClaimPredicate

end StellarTx
