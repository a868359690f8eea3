/-
# Bytes that are read are the bytes that are written

Whatever the decoder accepts, at any place in any input, is what the encoder writes for the value:
every value has one form in bytes.
-/
import StellarTx.Proofs.WireType

namespace StellarTx.WireType

open Format (Hungry)
open Xdr (Input Limits)

/-- Whether values take no bytes: an array of no bytes, in any number of boxes. -/
def isEmptyArray : WireType → Bool
  | octets 0 => true
  | boxed t => t.isEmptyArray
  | _ => false

/-- Every other type takes at least one byte to read. -/
theorem hungry {t : WireType} (h : t.isEmptyArray = false) : Hungry t.format := by
  induction t using induct with
  | option t ih => exact fun limits offset => ⟨_, rfl⟩
  | boxed t ih =>
    rintro ⟨levels, ahead⟩ offset
    cases levels with
    | zero => exact ⟨_, rfl⟩
    | succ levels => exact ih h ⟨levels, ahead⟩ offset
  | named t ht =>
    cases t with
    | option t => cases ht
    | boxed t => cases ht
    | octets k =>
      cases k with
      | zero => cases h
      | succ k => exact fun limits offset => ⟨_, rfl⟩
    | claimPredicate => exact ClaimPredicate.hungry
    | value => exact Contract.Value.hungry
    | mapEntry => exact Contract.Value.hungry_entry
    | invocation => exact Contract.Invocation.hungry
    | _ => exact fun limits offset => ⟨_, rfl⟩

/-- What is read at any place of an input takes a multiple of four bytes, at least one unless the
type has none, and these are the bytes of the value. -/
theorem decode_eq_ok_imp {t : WireType} {limits : Limits} {input after : Input} {v : t.Carrier}
    (h : t.format.decode limits input = .ok (v, after)) :
    ∃ bytes, t.format.toBytes v = .ok bytes ∧ input.Passes bytes after ∧
      bytes.length % 4 = 0 ∧ (t.isEmptyArray = false → 0 < bytes.length) := by
  obtain ⟨hl, bytes, hb, hp⟩ := (t.exact limits v input after).1 h
  refine ⟨bytes, Format.toBytes_eq_ok_iff.2 hb, hp, t.aligned limits.levels v bytes hl hb, ?_⟩
  exact fun hne => (t.exact limits).length_pos (hungry hne) hl hb

/-- A byte string that is read as a whole is that of the value. -/
theorem toBytes_of_ofBytes {t : WireType} {bytes : List UInt8} {v : t.Carrier}
    (h : t.format.ofBytes bytes = .ok v) : t.format.toBytes v = .ok bytes := by
  obtain ⟨offset, hd⟩ := Xdr.Decoder.run_eq_ok_iff.1 h
  obtain ⟨b, hb, hp, _⟩ := decode_eq_ok_imp hd
  have hrest : bytes = b ++ [] := hp.1
  rw [List.append_nil] at hrest
  rw [hrest, hb]

/-- The decoder is canonical: what it reads at any cursor of any input is what the encoder writes
for the value, a multiple of four bytes and more than none unless the type has none; so a byte
string that it reads as a whole is the bytes of the value, and no two byte strings read as the
same value. -/
theorem decode_canonical (t : WireType) :
    (∀ limits (input : List UInt8) cursor v after, cursor ≤ input.length →
      t.format.decode limits ⟨cursor, input.drop cursor⟩ = .ok (v, after) →
      ∃ stop, after = ⟨stop, input.drop stop⟩ ∧ cursor ≤ stop ∧ stop ≤ input.length ∧
        4 ∣ stop - cursor ∧ (t.isEmptyArray = false → cursor < stop) ∧
        t.format.toBytes v = .ok ((input.drop cursor).take (stop - cursor))) ∧
    (∀ bytes v, t.format.ofBytes bytes = .ok v → t.format.toBytes v = .ok bytes) ∧
    (∀ bytes bytes' v, t.format.ofBytes bytes = .ok v → t.format.ofBytes bytes' = .ok v →
      bytes = bytes') := by
  refine ⟨fun limits input cursor v after hc h => ?_, fun bytes v h => toBytes_of_ofBytes h,
    fun bytes bytes' v h h' => ?_⟩
  · obtain ⟨bytes, hb, ⟨hrest, hoff⟩, hmod, hpos⟩ := decode_eq_ok_imp h
    obtain ⟨stop, rest⟩ := after
    simp only at hrest hoff
    have hlen : input.length - cursor = bytes.length + rest.length := by
      rw [← List.length_drop, hrest, List.length_append]
    have hafter : rest = input.drop stop := by
      rw [hoff, ← List.drop_drop, hrest, List.drop_left]
    have htake : (input.drop cursor).take (stop - cursor) = bytes := by
      rw [hrest]
      exact List.take_left' (by omega)
    refine ⟨stop, by rw [hafter], by omega, by omega, by omega, fun hne => ?_, by rw [htake, hb]⟩
    have := hpos hne
    omega
  · have h1 := toBytes_of_ofBytes h
    rw [toBytes_of_ofBytes h'] at h1
    exact (Except.ok.inj h1).symm

/-- A flag in the middle of an input, and on its own. -/
theorem decode_canonical_flag :
    bool.format.decode .start ⟨2, [9, 9, 0, 0, 0, 1, 9].drop 2⟩ = .ok (true, ⟨6, [9]⟩) ∧
    bool.format.toBytes true = .ok ([0, 0, 0, 1, 9].take (6 - 2)) ∧
    bool.format.ofBytes [0, 0, 0, 1] = .ok true ∧ bool.format.toBytes true = .ok [0, 0, 0, 1] := by
  have h : bool.format.decode .start ⟨2, [9, 9, 0, 0, 0, 1, 9].drop 2⟩ = .ok (true, ⟨6, [9]⟩) := rfl
  have hb : bool.format.ofBytes [0, 0, 0, 1] = .ok true := rfl
  obtain ⟨stop, hafter, _, _, _, _, hbytes⟩ :=
    (decode_canonical bool).1 .start [9, 9, 0, 0, 0, 1, 9] 2 true _ (by decide) h
  obtain rfl : 6 = stop := congrArg Input.offset hafter
  exact ⟨h, hbytes, hb, (decode_canonical bool).2.1 _ _ hb⟩

end StellarTx.WireType
