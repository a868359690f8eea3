/-
# The smallest form of preconditions

Preconditions have three forms, and what they mean is the conditions that they hold.  The smallest
form means what was asked for, and no form that means the same has fewer bytes:
`Preconditions.exists_toBytes_minimal`.
-/
import StellarTx.Preconditions

namespace StellarTx

/-- Where nothing but the time is asked for, all the rest is absent. -/
theorem Conditions.eq_of_isTimeOnly {c : Conditions} (h : c.isTimeOnly = true) :
    c = { timeBounds := c.timeBounds } := by
  obtain ⟨time, ledger, seqNum, age, gap, signers⟩ := c
  simp only [isTimeOnly, Bool.and_eq_true, Option.isNone_iff_eq_none, beq_iff_eq,
    List.isEmpty_iff] at h
  obtain ⟨⟨⟨⟨rfl, rfl⟩, rfl⟩, rfl⟩, rfl⟩ := h
  rfl

open Format (option)
open Xdr (Encoding)

namespace Preconditions

/-- The smallest form means what was asked for. -/
theorem conditions_minimal (c : Conditions) : (minimal c).conditions = c := by
  unfold minimal
  by_cases h : c.isTimeOnly = true
  · rw [if_pos h, Conditions.eq_of_isTimeOnly h]
    cases c.timeBounds <;> rfl
  · rw [if_neg h]
    rfl

/-! ## Sizes -/

/-- The general form writes down everything that is absent, in twenty-four bytes after the time. -/
theorem encode_general_time (time : Option TimeBounds) :
    format.encode (general { timeBounds := time }) =
      .int32 2 ++ ((option TimeBounds.format).encode time ++ .ofBytes (List.replicate 24 0)) := by
  show Encoding.int32 2 ++ ((option TimeBounds.format).encode time ++ _) = _
  congr 2
  -- What is left is closed.
  show Format.encode _ (Option.none, Option.none, 0, 0, []) = _
  rfl

/-- Bounds on time take twenty bytes. -/
theorem toBytes_time (b : TimeBounds) :
    format.toBytes (time b) =
      .ok (bigEndian 4 1 ++ (bigEndian 8 b.minTime.toNat ++ bigEndian 8 b.maxTime.toNat)) := rfl

/-- The same bounds as general conditions take 48. -/
theorem toBytes_general_time (b : TimeBounds) :
    format.toBytes (general { timeBounds := some b }) =
      .ok (bigEndian 4 2 ++ ((bigEndian 4 1 ++
        (bigEndian 8 b.minTime.toNat ++ bigEndian 8 b.maxTime.toNat)) ++ List.replicate 24 0)) := by
  rw [Format.toBytes, encode_general_time]
  rfl

/-- Preconditions that have bytes have them in the smallest form with the same meaning, and there
no more than in theirs. -/
theorem exists_toBytes_minimal {p : Preconditions} {bytes : List UInt8}
    (h : format.toBytes p = .ok bytes) :
    ∃ short, format.toBytes (minimal p.conditions) = .ok short ∧
      short.length ≤ bytes.length := by
  cases p with
  | none => exact ⟨bytes, h, Nat.le_refl _⟩
  | time b => exact ⟨bytes, h, Nat.le_refl _⟩
  | general c =>
    show ∃ short, format.toBytes (minimal c) = .ok short ∧ _
    unfold minimal
    by_cases htime : c.isTimeOnly = true
    · rw [if_pos htime]
      rw [Conditions.eq_of_isTimeOnly htime] at h
      cases hbounds : c.timeBounds with
      | none =>
        rw [hbounds, Format.toBytes, encode_general_time] at h
        cases h
        exact ⟨_, rfl, by decide⟩
      | some b =>
        rw [hbounds, toBytes_general_time] at h
        cases h
        refine ⟨_, toBytes_time b, ?_⟩
        simp
    · rw [if_neg htime]
      exact ⟨bytes, h, Nat.le_refl _⟩

end Preconditions

end StellarTx
