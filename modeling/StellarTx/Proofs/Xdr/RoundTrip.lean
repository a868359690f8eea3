/-
# Bytes that were written read back

For every wire type and every value with bytes: reading the bytes gives the value and stops behind
them, whatever follows, as long as the value nests at most 256 levels deep; a deeper value is
refused for its depth.
-/
import StellarTx.Proofs.WireType

namespace StellarTx.WireType

open Xdr (Input Limits)

/-- The bytes of a value that is not too deep read back, and reading stops behind them. -/
theorem decode_of_encode {t : WireType} {v : t.Carrier} {bytes : List UInt8} (limits : Limits)
    (hl : t.format.level v ≤ limits.levels) (hb : t.format.encode v = .ok bytes) (offset : Nat)
    (rest : List UInt8) :
    t.format.decode limits ⟨offset, bytes ++ rest⟩ = .ok (v, ⟨offset + bytes.length, rest⟩) :=
  (t.exact limits v _ _).2 ⟨hl, bytes, hb, Input.passes_mk offset bytes rest⟩

/-- The bytes of no value begin those of another one, however deep the two nest: which value stands
in front of other bytes, and where it ends, is seen from all of them. -/
theorem encode_append_inj {t : WireType} {v w : t.Carrier} {x y r s : List UInt8}
    (hx : t.format.encode v = .ok x) (hy : t.format.encode w = .ok y) (h : x ++ r = y ++ s) :
    v = w ∧ r = s := by
  -- Both values read back within a limit that neither of them passes.
  let limits : Limits := ⟨max (t.format.level v) (t.format.level w), true⟩
  have hv := decode_of_encode limits (Nat.le_max_left _ _) hx 0 r
  have hw := decode_of_encode limits (Nat.le_max_right _ _) hy 0 s
  rw [h, hw] at hv
  injection hv with hread
  injection hread with hvalue hcursor
  injection hcursor with _ hrest
  exact ⟨hvalue.symm, hrest.symm⟩

theorem encode_inj {t : WireType} {v w : t.Carrier} {x : List UInt8}
    (hv : t.format.encode v = .ok x) (hw : t.format.encode w = .ok x) : v = w :=
  (encode_append_inj hv hw (Eq.refl (x ++ []))).1

/-- The bytes of a value that is too deep do not. -/
theorem decode_of_encode_of_deep {t : WireType} {v : t.Carrier} {bytes : List UInt8}
    (limits : Limits) (hl : limits.levels < t.format.level v)
    (hb : t.format.encode v = .ok bytes) (offset : Nat) (rest : List UInt8) :
    t.format.decode limits ⟨offset, bytes ++ rest⟩ = .error (.depth Xdr.maxLevels) :=
  t.capped (t.format.level v) (Nat.le_of_lt hl) v bytes _ _ (Nat.le_refl _) hb
    (Input.passes_mk offset bytes rest) hl

/-- The bytes of a value that is not too deep are the value. -/
theorem ofBytes_of_encode {t : WireType} {v : t.Carrier} {bytes : List UInt8}
    (hl : t.format.level v ≤ 256) (hb : t.format.encode v = .ok bytes) :
    t.format.ofBytes bytes = .ok v := by
  have hd := decode_of_encode .start hl hb 0 []
  rw [List.append_nil] at hd
  exact Xdr.Decoder.run_eq_ok_iff.2 ⟨_, hd⟩

/-- Encoding and then decoding is the identity, with the exact bound on nesting: with anything
behind the bytes the value comes back and the cursor stands at their end if the value has at most
256 levels, and otherwise the depth is refused.  As a whole, the bytes are the value, and with anything
behind them the number of trailing bytes is reported. -/
theorem decode_toBytes (t : WireType) (v : t.Carrier) (bytes : List UInt8)
    (h : t.format.toBytes v = .ok bytes) :
    (∀ rest, t.format.decode .start ⟨0, bytes ++ rest⟩ =
      if t.format.level v ≤ 256 then .ok (v, ⟨bytes.length, rest⟩) else .error (.depth 256)) ∧
    (t.format.level v ≤ 256 →
      t.format.ofBytes bytes = .ok v ∧
      ∀ rest, rest ≠ [] →
        t.format.ofBytes (bytes ++ rest) = .error (.trailing bytes.length rest.length)) := by
  have hb := Format.toBytes_eq_ok_iff.1 h
  have hread : ∀ rest, t.format.level v ≤ 256 →
      t.format.decode .start ⟨0, bytes ++ rest⟩ = .ok (v, ⟨bytes.length, rest⟩) := by
    intro rest hl
    have := decode_of_encode .start hl hb 0 rest
    rwa [Nat.zero_add] at this
  refine ⟨fun rest => ?_, fun hl => ⟨?_, fun rest hne => ?_⟩⟩
  · by_cases hl : t.format.level v ≤ 256
    · rw [if_pos hl]
      exact hread rest hl
    · rw [if_neg hl]
      exact decode_of_encode_of_deep .start (Nat.lt_of_not_le hl) hb 0 rest
  · exact ofBytes_of_encode hl hb
  · exact Xdr.Decoder.run_of_rest (hread rest hl) hne

/-- The empty list of conditions, in bytes, as many negations as are read, and one more. -/
theorem decode_toBytes_negations :
    (claimPredicate.format.toBytes (ClaimPredicate.and []) = .ok [0, 0, 0, 1, 0, 0, 0, 0] ∧
      claimPredicate.format.level (ClaimPredicate.and []) ≤ 256 ∧
      claimPredicate.format.ofBytes [0, 0, 0, 1, 0, 0, 0, 0] = .ok (ClaimPredicate.and []) ∧
      claimPredicate.format.ofBytes [0, 0, 0, 1, 0, 0, 0, 0, 7] = .error (.trailing 8 1)) ∧
    (∃ bytes, claimPredicate.format.toBytes (ClaimPredicate.negations 256) = .ok bytes ∧
      claimPredicate.format.ofBytes bytes = .ok (ClaimPredicate.negations 256)) ∧
    ∃ bytes, claimPredicate.format.toBytes (ClaimPredicate.negations 257) = .ok bytes ∧
      claimPredicate.format.decode .start ⟨0, bytes ++ [7]⟩ = .error (.depth 256) := by
  refine ⟨?_, ?_, ?_⟩
  · have hb : claimPredicate.format.toBytes (ClaimPredicate.and []) =
        .ok [0, 0, 0, 1, 0, 0, 0, 0] := rfl
    have hl : claimPredicate.format.level (ClaimPredicate.and []) ≤ 256 := by decide
    obtain ⟨hok, htrail⟩ := (decode_toBytes claimPredicate (.and []) _ hb).2 hl
    exact ⟨hb, hl, hok, htrail [7] (by decide)⟩
  · have hfine : (claimPredicate.format.toBytes (ClaimPredicate.negations 256)).isOk = true := by
      decide +kernel
    obtain ⟨bytes, hb⟩ := Except.exists_of_isOk hfine
    have hl : claimPredicate.format.level (ClaimPredicate.negations 256) ≤ 256 :=
      Nat.le_of_eq (ClaimPredicate.level_negations 256)
    exact ⟨bytes, hb, ((decode_toBytes claimPredicate _ bytes hb).2 hl).1⟩
  · have hfine : (claimPredicate.format.toBytes (ClaimPredicate.negations 257)).isOk = true := by
      decide +kernel
    obtain ⟨bytes, hb⟩ := Except.exists_of_isOk hfine
    have hl : ¬claimPredicate.format.level (ClaimPredicate.negations 257) ≤ 256 :=
      Nat.not_le_of_gt (Nat.lt_of_lt_of_eq (Nat.lt_succ_self 256)
        (ClaimPredicate.level_negations 257).symm)
    have hread := (decode_toBytes claimPredicate _ bytes hb).1 [7]
    rw [if_neg hl] at hread
    exact ⟨bytes, hb, hread⟩

end StellarTx.WireType
