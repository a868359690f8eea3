/-
# Counts that are compared with what is left

Comparing the count of an array with the bytes that are left refuses nothing that could be read:
every item takes at least four bytes.  What it saves is room, which is made before the items are
read, and never for more of them than those bytes can be.
-/
import StellarTx.Proofs.Xdr.Reader

namespace StellarTx.WireType

open Xdr (Decoder Limits Program)

/-- Bytes are read alike whether or not counts are compared. -/
theorem decode_eq_ok_iff_of_levels {t : WireType} {limits limits' : Limits}
    (h : limits.levels = limits'.levels) {input after : Xdr.Input} {v : t.Carrier} :
    t.format.decode limits input = .ok (v, after) ↔
      t.format.decode limits' input = .ok (v, after) := by
  rw [t.exact limits, t.exact limits', h]

/-- The values that are read are those that are read without comparing counts; and a reader that
reads a wire type with a cursor, whatever its program, makes room for at most as many items as a
quarter of the bytes that it has not read. -/
theorem ofBytes_iff_plain_and_room (t : WireType) :
    (∀ bytes v, t.format.ofBytes bytes = .ok v ↔
      t.format.decode.run ⟨Xdr.maxLevels, false⟩ bytes = .ok v) ∧
    (∃ p : Program t.Carrier, p.Reads t.format) ∧
    ∀ p : Program t.Carrier, p.Reads t.format →
      ∀ bytes, ∃ c, p.run bytes = some (t.format.ofBytes bytes, c) ∧
        ∀ r ∈ c.reserved, 4 * r.items ≤ r.unread := by
  refine ⟨fun bytes v => ?_, t.exists_reads, fun p hp bytes => ?_⟩
  · have hlevels : Limits.start.levels = (⟨Xdr.maxLevels, false⟩ : Limits).levels := rfl
    rw [Format.ofBytes, Decoder.run_eq_ok_iff, Decoder.run_eq_ok_iff]
    exact exists_congr fun offset => decode_eq_ok_iff_of_levels hlevels
  · obtain ⟨c, hrun, hvalid⟩ := p.run_eq bytes
    rw [hp.run_eq] at hrun
    exact ⟨c, hrun, hvalid.held⟩

/-- Two conditions, of four bytes each. -/
theorem ofBytes_iff_plain_and_room_conditions :
    claimPredicate.format.decode.run ⟨Xdr.maxLevels, false⟩
        [0, 0, 0, 1, 0, 0, 0, 2, 0, 0, 0, 0, 0, 0, 0, 0] =
      .ok (ClaimPredicate.and [.unconditional, .unconditional]) ∧
    ∃ p : Program ClaimPredicate, p.Reads claimPredicate.format ∧
      ∃ c, p.run [0, 0, 0, 1, 0, 0, 0, 2, 0, 0, 0, 0, 0, 0, 0, 0] =
          some (.ok (.and [.unconditional, .unconditional]), c) ∧
        ∀ r ∈ c.reserved, 4 * r.items ≤ r.unread := by
  have h : claimPredicate.format.ofBytes [0, 0, 0, 1, 0, 0, 0, 2, 0, 0, 0, 0, 0, 0, 0, 0] =
      .ok (ClaimPredicate.and [.unconditional, .unconditional]) := rfl
  obtain ⟨hplain, ⟨p, hp⟩, hroom⟩ := ofBytes_iff_plain_and_room claimPredicate
  exact ⟨(hplain _ _).1 h, p, hp, hroom p hp _⟩

/-- The room for two numbers, and the eight bytes that they are read from. -/
example : (Program.array 5 .uint32).run [0, 0, 0, 2, 0, 0, 0, 7, 0, 0, 0, 9] =
    some (.ok [7, 9], ⟨12, 0, [⟨2, 8⟩]⟩) := by rfl

end StellarTx.WireType
