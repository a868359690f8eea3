/-
# Encodings that succeed

When a sequence of encodings, or an encoding with a maximum, has bytes, and which.
-/
import StellarTx.Xdr.Encoding

namespace StellarTx.Xdr.Encoding

/-- Two encodings in sequence have bytes if both have. -/
theorem append_eq_ok_iff {x y : Encoding} {bytes : List UInt8} :
    x ++ y = Except.ok bytes ↔
      ∃ first second, x = Except.ok first ∧ y = Except.ok second ∧ bytes = first ++ second := by
  show append x y = _ ↔ _
  cases x with
  | error e =>
    constructor
    · intro h; cases h
    · rintro ⟨_, _, h, _⟩; cases h
  | ok first =>
    cases y with
    | error e =>
      constructor
      · intro h; cases h
      · rintro ⟨_, _, _, h, _⟩; cases h
    | ok second =>
      constructor
      · intro h
        cases h
        exact ⟨first, second, rfl, rfl, rfl⟩
      · rintro ⟨_, _, h1, h2, rfl⟩
        cases h1
        cases h2
        rfl

/-- The direction of `append_eq_ok_iff` that builds bytes. -/
theorem append_of_ok {x y : Encoding} {first second : List UInt8} (hx : x = Except.ok first)
    (hy : y = Except.ok second) : x ++ y = Except.ok (first ++ second) :=
  append_eq_ok_iff.2 ⟨first, second, hx, hy, rfl⟩

/-- The first excess is the same however a sequence of encodings is put together, since offsets add
up. -/
theorem append_assoc (x y z : Encoding) : x ++ y ++ z = x ++ (y ++ z) := by
  show append (append x y) z = append x (append y z)
  cases x with
  | error e => rfl
  | ok first =>
    cases y with
    | error e => rfl
    | ok second =>
      cases z with
      | error e =>
        -- The excess moves behind both, one after the other or at once.
        show Except.error (e.shift (first ++ second).length) =
          Except.error ((e.shift second.length).shift first.length)
        rw [Excess.shift, Excess.shift, Excess.shift, List.length_append, Nat.add_assoc]
      | ok third => exact congrArg Except.ok (List.append_assoc first second third)

/-- The items of a list are written from the front. -/
theorem concat_cons (x : Encoding) (xs : List Encoding) : concat (x :: xs) = x ++ concat xs := rfl

/-- A count above its maximum is refused where it would stand. -/
theorem count_of_lt {n max : Nat} (h : max < n) : count n max = Except.error ⟨n, max, 0⟩ :=
  if_pos h

/-- A count within a maximum below 2 ^ 32 is not cut off by the four bytes. -/
theorem count_of_le {n max : Nat} (hmax : max < UInt32.size) (h : n ≤ max) :
    count n max = Except.ok (bigEndian 4 n) := by
  have hn : (UInt32.ofNat n).toNat = n := UInt32.toNat_ofNat_of_lt' (by
    show n < UInt32.size
    omega)
  have hc : count n max = uint32 (UInt32.ofNat n) := if_neg (by omega)
  rw [hc, uint32, hn]
  rfl

/-- When a count has bytes, and which. -/
theorem count_eq_ok_iff {n max : Nat} {bytes : List UInt8} (hmax : max < UInt32.size) :
    count n max = Except.ok bytes ↔ n ≤ max ∧ bytes = bigEndian 4 n := by
  by_cases h : max < n
  · rw [count_of_lt h]
    constructor
    · intro hc; cases hc
    · rintro ⟨hle, _⟩; omega
  · rw [count_of_le hmax (by omega)]
    constructor
    · intro hc
      cases hc
      exact ⟨by omega, rfl⟩
    · rintro ⟨_, rfl⟩
      rfl

/-- When a byte string has bytes: what it holds does not matter, only how long it is. -/
theorem bytes_eq_ok_iff {max : Nat} {data result : List UInt8} (hmax : max < UInt32.size) :
    bytes max data = Except.ok result ↔
      data.length ≤ max ∧ result = bigEndian 4 data.length ++ padded data := by
  rw [bytes, append_eq_ok_iff]
  constructor
  · rintro ⟨first, second, h1, h2, rfl⟩
    obtain ⟨hle, rfl⟩ := (count_eq_ok_iff hmax).1 h1
    cases h2
    exact ⟨hle, rfl⟩
  · rintro ⟨hle, rfl⟩
    exact ⟨_, _, (count_eq_ok_iff hmax).2 ⟨hle, rfl⟩, rfl, rfl⟩

/-- Only too many bytes are refused. -/
theorem lt_length_of_bytes_eq_error {max : Nat} {data : List UInt8} {e : Excess}
    (hmax : max < UInt32.size) (h : bytes max data = Except.error e) : max < data.length := by
  apply Nat.lt_of_not_le
  intro hle
  rw [(bytes_eq_ok_iff hmax).2 ⟨hle, rfl⟩] at h
  cases h

/-! ## Alignment -/

/-- Padding fills up to a multiple of four. -/
theorem length_padded_mod (data : List UInt8) : (padded data).length % 4 = 0 := by
  rw [length_padded]
  exact add_padLength_mod data.length

/-- Where nothing is missing to a multiple of four there is no padding. -/
theorem fixed_of_length_mod {data : List UInt8} (h : data.length % 4 = 0) :
    fixed data = Except.ok data := by
  have hpad : padLength data.length = 0 := by
    unfold padLength
    omega
  show Except.ok (padded data) = _
  rw [padded, hpad, List.replicate_zero, List.append_nil]

end StellarTx.Xdr.Encoding
