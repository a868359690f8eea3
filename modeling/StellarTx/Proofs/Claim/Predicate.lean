/-
# Valid predicates and the limits on nesting

Validation reports the first incomplete condition of a predicate, from the root down and from left
to right (`validate_eq_firstOr`).  A valid predicate has one level less than its depth, since every
condition that costs a level then has one below it (`depth_eq_of_validate`); so what the readers of
bytes and of text take is a bound on the depth.  Main statement: `validate_fits_limits`.
-/
import StellarTx.Proofs.Operation.Writable
import StellarTx.Proofs.TxRep.RoundTrip
import StellarTx.Proofs.Xdr.RoundTrip

namespace StellarTx.ClaimPredicate

open TxRep (IsClean)

/-! ## The conditions of a predicate -/

mutual

/-- A predicate and all conditions inside it, each in front of those inside it, from left to
right. -/
def nodes : ClaimPredicate → List ClaimPredicate
  | and conditions => and conditions :: nodesAll conditions
  | or conditions => or conditions :: nodesAll conditions
  | not (some condition) => not (some condition) :: nodes condition
  | p => [p]

/-- The nodes of conditions one after another. -/
def nodesAll : List ClaimPredicate → List ClaimPredicate
  | [] => []
  | p :: rest => nodes p ++ nodesAll rest

end

/-- Whether a condition joins or negates as many conditions as it must, whatever holds of these. -/
def IsComplete : ClaimPredicate → Prop
  | and conditions => conditions.length = 2
  | or conditions => conditions.length = 2
  | not condition => condition ≠ none
  | _ => True

/-- What is wrong with a condition itself. -/
def fault? : ClaimPredicate → Option ValidationError
  | and conditions =>
    if conditions.length ≠ 2 then some (.arity .and conditions.length) else none
  | or conditions =>
    if conditions.length ≠ 2 then some (.arity .or conditions.length) else none
  | not none => some .emptyNot
  | _ => none

theorem fault?_eq_none_iff {p : ClaimPredicate} : p.fault? = none ↔ p.IsComplete := by
  have harity {k : Nat} {e : ValidationError} :
      (if k ≠ 2 then some e else none) = none ↔ k = 2 := by
    split
    · next h => exact iff_of_false nofun h
    · next h => exact iff_of_true rfl (Decidable.not_not.1 h)
  cases p with
  | and conditions => exact harity
  | or conditions => exact harity
  | not condition =>
    cases condition with
    | none => exact iff_of_false nofun fun h => h rfl
    | some p => exact iff_of_true rfl nofun
  | _ => exact iff_of_true rfl trivial

/-! ## What validation reports -/

/-- The faults of conditions, in their order. -/
def faults (conditions : List ClaimPredicate) : List ValidationError :=
  conditions.filterMap fault?

theorem faults_cons (p : ClaimPredicate) (rest : List ClaimPredicate) :
    faults (p :: rest) = p.fault?.toList ++ faults rest := by
  unfold faults
  rw [List.filterMap_cons]
  cases p.fault? <;> rfl

theorem faults_append (conditions rest : List ClaimPredicate) :
    faults (conditions ++ rest) = faults conditions ++ faults rest :=
  List.filterMap_append

mutual

/-- Validation reports the first fault. -/
theorem validate_eq_firstOr : (p : ClaimPredicate) → p.validate = firstOr (faults p.nodes) (.ok ())
  | .unconditional => rfl
  | .and conditions => by
    rw [validate, nodes, faults_cons, firstOr_append, ← validateAll_eq_firstOr conditions, fault?,
      ← errorIf_eq_toList]
    exact check_bind_eq
  | .or conditions => by
    rw [validate, nodes, faults_cons, firstOr_append, ← validateAll_eq_firstOr conditions, fault?,
      ← errorIf_eq_toList]
    exact check_bind_eq
  | .not none => rfl
  | .not (some p) => by
    rw [validate, nodes, faults_cons, validate_eq_firstOr p]
    rfl
  | .beforeAbsolute _ => rfl
  | .beforeRelative _ => rfl

theorem validateAll_eq_firstOr : (conditions : List ClaimPredicate) →
    validateAll conditions = firstOr (faults (nodesAll conditions)) (.ok ())
  | [] => rfl
  | p :: rest => by
    rw [validateAll, nodesAll, faults_append, firstOr_append, validate_eq_firstOr p,
      validateAll_eq_firstOr rest]
    exact bind_firstOr

end

theorem validate_eq_ok_iff {p : ClaimPredicate} :
    p.validate = .ok () ↔ ∀ q ∈ p.nodes, q.IsComplete := by
  rw [validate_eq_firstOr, firstOr_eq_ok_iff, and_iff_left rfl, faults,
    List.filterMap_eq_nil_iff]
  exact forall₂_congr fun _ _ => fault?_eq_none_iff

theorem validate_eq_error_iff {p : ClaimPredicate} {e : ValidationError} :
    p.validate = .error e ↔
      ∃ front q back, p.nodes = front ++ q :: back ∧ q.fault? = some e ∧
        ∀ r ∈ front, r.IsComplete := by
  rw [validate_eq_firstOr, firstOr_eq_error_iff, faults, List.head?_filterMap,
    List.findSome?_eq_some_iff]
  simp only [fault?_eq_none_iff]

/-! ## Depth and levels -/

mutual

/-- A valid predicate has one level less than its depth. -/
theorem depth_eq_of_validate : (p : ClaimPredicate) → p.validate = .ok () → p.depth = p.level + 1
  | .unconditional, _ => rfl
  | .and conditions, h => by
    obtain ⟨hlength, hall⟩ := (validate_join_eq_ok_iff (.inl rfl)).1 h
    rw [depth, level, maxDepth_eq_of_validateAll conditions (by omega) hall]
    omega
  | .or conditions, h => by
    obtain ⟨hlength, hall⟩ := (validate_join_eq_ok_iff (.inr rfl)).1 h
    rw [depth, level, maxDepth_eq_of_validateAll conditions (by omega) hall]
    omega
  | .not none, h => nomatch h
  | .not (some p), h => by
    rw [depth, level, depth_eq_of_validate p h]
    omega
  | .beforeAbsolute _, _ => rfl
  | .beforeRelative _, _ => rfl

/-- This holds of conditions too, of which there must be one. -/
theorem maxDepth_eq_of_validateAll : (conditions : List ClaimPredicate) → 0 < conditions.length →
    validateAll conditions = .ok () → maxDepth conditions = maxLevel conditions + 1
  | [], hne, _ => nomatch hne
  | [p], _, h => by
    obtain ⟨hp, _⟩ := Except.seq_eq_ok_iff.1 h
    rw [maxDepth, maxLevel, depth_eq_of_validate p hp, maxDepth, maxLevel]
    omega
  | p :: q :: rest, _, h => by
    obtain ⟨hp, hrest⟩ := Except.seq_eq_ok_iff.1 h
    rw [maxDepth, maxLevel, depth_eq_of_validate p hp,
      maxDepth_eq_of_validateAll (q :: rest) (Nat.succ_pos _) hrest]
    omega

end

/-! ## Limits -/

/-- Validation finds the first condition, from the root down and from left to right, that joins not
exactly two conditions or negates none, and describes it; otherwise the predicate is valid.  A valid
predicate has bytes, which are the predicate down to a depth of 257 and too deep below it; its text
at a path that is not empty and has no blank and no colon is the predicate down to a depth of 65 and
too deep below it. -/
theorem validate_fits_limits (p : ClaimPredicate) :
    (p.validate = .ok () ↔ ∀ q ∈ p.nodes, q.IsComplete) ∧
    (∀ e, p.validate = .error e ↔
      ∃ front q back, p.nodes = front ++ q :: back ∧ q.fault? = some e ∧
        ∀ r ∈ front, r.IsComplete) ∧
    (p.validate = .ok () → ∃ bytes, format.toBytes p = .ok bytes ∧
      (p.depth ≤ 257 → format.ofBytes bytes = .ok p) ∧
      (257 < p.depth → format.ofBytes bytes = .error (.depth 256)) ∧
      ∀ path, path ≠ "" → IsClean path →
        (p.depth ≤ 65 → format.ofText (format.toText p path) path = .ok p) ∧
        (65 < p.depth →
          ∃ path', format.ofText (format.toText p path) path = .error (.depth path'))) := by
  refine ⟨validate_eq_ok_iff, fun e => validate_eq_error_iff, fun hvalid => ?_⟩
  have hdepth := depth_eq_of_validate p hvalid
  obtain ⟨bytes, hb⟩ := writable_of_validate p hvalid
  have hbytes := Format.toBytes_eq_ok_iff.2 hb
  refine ⟨bytes, hbytes, fun hle => ?_, fun hlt => ?_, fun path hne hp => ?_⟩
  · have hl : format.level p ≤ 256 := by
      show p.level ≤ 256
      omega
    exact WireType.ofBytes_of_encode (t := .claimPredicate) hl hb
  · have hl : Xdr.Limits.start.levels < format.level p := by
      show 256 < p.level
      omega
    have hd := WireType.decode_of_encode_of_deep (t := .claimPredicate) .start hl hb 0 []
    rw [List.append_nil] at hd
    exact Xdr.Decoder.run_of_error hd
  · obtain ⟨hfine, hdeep, _⟩ := Format.Regular.toText_spec
      (fun _ => outlined rfl) ⟨hp, fun _ => hne⟩ p
    exact ⟨fun hle => hfine bytes hbytes (by show p.level ≤ 64; omega),
      fun hlt => hdeep bytes hbytes (by show 64 < p.level; omega)⟩

/-- Neither before a time nor within a minute. -/
def outside : ClaimPredicate :=
  .not (some (.or [.beforeAbsolute 1535756672, .beforeRelative 60]))

/-- A predicate of depth 3, one with a fault in front of another one, and negations on both sides of
both limits on depth. -/
theorem validate_fits_limits_outside :
    (outside.validate = .ok () ∧ outside.depth = 3 ∧
      (∃ bytes, format.toBytes outside = .ok bytes ∧ format.ofBytes bytes = .ok outside) ∧
      ("tx.predicate" ≠ "" ∧ IsClean "tx.predicate" ∧
        format.ofText (format.toText outside "tx.predicate") "tx.predicate" = .ok outside)) ∧
    (or [unconditional, not (some (and [])), not none]).validate = .error (.arity .or 3) ∧
    (or [not (some (and [])), not none]).validate = .error (.arity .and 0) ∧
    (((negations 256).validate = .ok () ∧ (negations 256).depth = 257 ∧
        ∃ bytes, format.toBytes (negations 256) = .ok bytes ∧
          format.ofBytes bytes = .ok (negations 256)) ∧
      ((negations 257).validate = .ok () ∧ (negations 257).depth = 258 ∧
        ∃ bytes, format.toBytes (negations 257) = .ok bytes ∧
          format.ofBytes bytes = .error (.depth 256)) ∧
      format.ofText (format.toText (negations 64) "tx.predicate") "tx.predicate" =
        .ok (negations 64) ∧
      ∃ path, format.ofText (format.toText (negations 65) "tx.predicate") "tx.predicate" =
        .error (.depth path)) := by
  have hvalid : outside.validate = .ok () := rfl
  have hne : "tx.predicate" ≠ "" := by decide
  have hp : IsClean "tx.predicate" := by decide
  have hdepth {m n : Nat} (h : m + 1 = n) : (negations m).depth = n := (depth_negations m).trans h
  have limits (n : Nat) := (validate_fits_limits (negations n)).2.2 (validate_negations n)
  refine ⟨?_, ?_, ?_, ?_, ?_, ?_, ?_⟩
  · obtain ⟨bytes, hbytes, hback, _, htext⟩ := (validate_fits_limits outside).2.2 hvalid
    exact ⟨hvalid, rfl, ⟨bytes, hbytes, hback (by decide)⟩, hne, hp,
      (htext "tx.predicate" hne hp).1 (by decide)⟩
  · exact ((validate_fits_limits _).2.1 _).2 ⟨[], _, _, rfl, rfl, List.forall_mem_nil _⟩
  · refine ((validate_fits_limits _).2.1 _).2 ⟨[or _, not _], and [], _, rfl, rfl, ?_⟩
    simp [IsComplete]
  · obtain ⟨bytes, hbytes, hback, _⟩ := limits 256
    exact ⟨validate_negations 256, hdepth rfl, bytes, hbytes, hback (hdepth rfl).le⟩
  · obtain ⟨bytes, hbytes, _, hdeep, _⟩ := limits 257
    exact ⟨validate_negations 257, hdepth rfl, bytes, hbytes, hdeep (hdepth rfl).ge⟩
  · obtain ⟨_, _, _, _, htext⟩ := limits 64
    exact (htext "tx.predicate" hne hp).1 (hdepth rfl).le
  · obtain ⟨_, _, _, _, htext⟩ := limits 65
    exact (htext "tx.predicate" hne hp).2 (hdepth rfl).ge

end StellarTx.ClaimPredicate
