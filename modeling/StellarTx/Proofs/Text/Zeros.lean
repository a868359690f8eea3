/-
# Zeros at either end

Zeros are left out at the end of a text, where they fill it up to a length, and none stands in front
of a number.
-/
import Mathlib.Data.List.DropRight
import StellarTx.Text.Decimal

namespace StellarTx

/-- A list is what stands before the run of an element at its end, and that run. -/
theorem rdropWhile_append_replicate {α : Type} [DecidableEq α] (a : α) (items : List α) :
    items.rdropWhile (· = a) ++
      List.replicate (items.length - (items.rdropWhile (· = a)).length) a = items := by
  have hsplit : items.rdropWhile (· = a) ++ items.rtakeWhile (· = a) = items :=
    List.rdropWhile_append_rtakeWhile
  have hlength := congrArg List.length hsplit
  rw [List.length_append] at hlength
  have hrun : items.rtakeWhile (· = a) =
      List.replicate (items.length - (items.rdropWhile (· = a)).length) a := by
    rw [List.eq_replicate_iff]
    refine ⟨by omega, fun b hb => ?_⟩
    have hb := List.mem_rtakeWhile_imp hb
    exact of_decide_eq_true hb
  rw [← hrun, hsplit]

namespace Text.Decimal

/-- Of all numbers, only zero is written with a zero in front. -/
theorem eq_zero_of_head?_digits {n : Nat} (h : (digits n).head? = some '0') : n = 0 := by
  induction n using Nat.strongRecOn with
  | ind n ih =>
    rw [digits, Nat.toDigits_eq_if (by decide)] at h
    split at h
    · exact Nat.digitChar_eq_zero.1 (Option.some.inj h)
    · next hlarge =>
      -- The digits of a tenth of the number stand in front.
      rw [List.head?_append_of_ne_nil _ Nat.toDigits_ne_nil] at h
      have htenth := ih (n / 10) (by omega) h
      omega

end Text.Decimal

end StellarTx
