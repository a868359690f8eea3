/-
# Octets: byte strings of a known length, and numbers written big end first

`Octets n` is a byte string of exactly `n` bytes; keys, hashes, hints and asset codes are such
strings.  `bigEndian k n` writes the low `k` bytes of a number, most significant first, and
`ofBigEndian` reads such bytes back.  Main statements: `ofBigEndian_bigEndian` and
`bigEndian_ofBigEndian`.
-/

namespace StellarTx

/-- A byte string of exactly `n` bytes. -/
structure Octets (n : Nat) where
  toList : List UInt8
  length_eq : toList.length = n
  deriving DecidableEq

namespace Octets

/-- The bytes as an `Octets n`, if there are exactly `n` of them. -/
def ofList? (n : Nat) (bytes : List UInt8) : Option (Octets n) :=
  if h : bytes.length = n then some ⟨bytes, h⟩ else none

/-- `n` copies of one byte. -/
def replicate (n : Nat) (byte : UInt8) : Octets n :=
  ⟨List.replicate n byte, List.length_replicate⟩

theorem toList_inj {n : Nat} {a b : Octets n} : a.toList = b.toList ↔ a = b := by
  cases a; cases b; simp

@[simp] theorem ofList?_toList {n : Nat} (a : Octets n) : ofList? n a.toList = some a := by
  simp [ofList?, a.length_eq]

theorem ofList?_eq_some_iff {n : Nat} {bytes : List UInt8} {a : Octets n} :
    ofList? n bytes = some a ↔ a.toList = bytes := by
  constructor
  · intro h
    unfold ofList? at h
    split at h
    · cases h; rfl
    · cases h
  · rintro rfl; simp

/-- The last four bytes of a 32-byte string. -/
def lastFour (key : Octets 32) : Octets 4 :=
  ⟨key.toList.drop 28, by simp [key.length_eq]⟩

/-- Bytewise exclusive or. -/
def xor {n : Nat} (a b : Octets n) : Octets n :=
  ⟨a.toList.zipWith (· ^^^ ·) b.toList, by simp [a.length_eq, b.length_eq]⟩

end Octets

/-! ## Padding -/

/-- How many zeros fill `n` bytes up to a multiple of four. -/
def padLength (n : Nat) : Nat := (4 - n % 4) % 4

/-- Bytes filled up with zeros to a multiple of four. -/
def padded (bytes : List UInt8) : List UInt8 :=
  bytes ++ List.replicate (padLength bytes.length) 0

theorem length_padded (bytes : List UInt8) :
    (padded bytes).length = bytes.length + padLength bytes.length := by
  simp [padded]

/-- Padding ends at a multiple of four. -/
theorem add_padLength_mod (n : Nat) : (n + padLength n) % 4 = 0 := by
  unfold padLength; omega

theorem padLength_lt (n : Nat) : padLength n < 4 := by
  unfold padLength; omega

/-! ## Big-endian numbers -/

/-- The low `k` bytes of `n`, most significant first. -/
def bigEndian : Nat → Nat → List UInt8
  | 0, _ => []
  | k + 1, n => bigEndian k (n / 256) ++ [UInt8.ofNat (n % 256)]

/-- The number that bytes spell, most significant first. -/
def ofBigEndian (bytes : List UInt8) : Nat :=
  bytes.foldl (fun n byte => n * 256 + byte.toNat) 0

@[simp] theorem length_bigEndian (k n : Nat) : (bigEndian k n).length = k := by
  induction k generalizing n with
  | zero => rfl
  | succ k ih => simp [bigEndian, ih]

theorem ofBigEndian_concat (bytes : List UInt8) (byte : UInt8) :
    ofBigEndian (bytes ++ [byte]) = ofBigEndian bytes * 256 + byte.toNat := by
  simp [ofBigEndian, List.foldl_append]

/-- Reading what was written gives the number modulo 256 to the power `k`. -/
theorem ofBigEndian_bigEndian (k n : Nat) : ofBigEndian (bigEndian k n) = n % Nat.pow 256 k := by
  induction k generalizing n with
  | zero => simp [bigEndian, ofBigEndian, Nat.mod_one]
  | succ k ih =>
    have byte : (UInt8.ofNat (n % 256)).toNat = n % 256 := by simp
    have hpow : Nat.pow 256 (k + 1) = 256 * Nat.pow 256 k := Nat.mul_comm _ _
    rw [bigEndian, ofBigEndian_concat, ih, byte, hpow, Nat.mod_mul]
    omega

/-- Every byte string is the big-endian form of the number it spells. -/
theorem bigEndian_ofBigEndian (bytes : List UInt8) :
    bigEndian bytes.length (ofBigEndian bytes) = bytes := by
  suffices ∀ l : List UInt8, bigEndian l.length (ofBigEndian l.reverse) = l.reverse by
    simpa using this bytes.reverse
  intro l
  induction l with
  | nil => rfl
  | cons byte l ih =>
    have h : byte.toNat < 256 := byte.toNat_lt
    have hdiv : (ofBigEndian l.reverse * 256 + byte.toNat) / 256 = ofBigEndian l.reverse := by
      omega
    have hmod : (ofBigEndian l.reverse * 256 + byte.toNat) % 256 = byte.toNat := by omega
    simp [bigEndian, ofBigEndian_concat, hdiv, hmod, ih]

/-- The bytes in front count once for every number that the ones behind can spell. -/
theorem ofBigEndian_append (first second : List UInt8) :
    ofBigEndian (first ++ second) =
      ofBigEndian first * Nat.pow 256 second.length + ofBigEndian second := by
  suffices ∀ l : List UInt8, ofBigEndian (first ++ l.reverse) =
      ofBigEndian first * Nat.pow 256 l.length + ofBigEndian l.reverse by
    simpa using this second.reverse
  intro l
  induction l with
  | nil => simp [ofBigEndian]
  | cons byte l ih =>
    have hpow : Nat.pow 256 (l.length + 1) = Nat.pow 256 l.length * 256 := rfl
    rw [List.reverse_cons, ← List.append_assoc, ofBigEndian_concat, ofBigEndian_concat, ih,
      List.length_cons, hpow, ← Nat.mul_assoc]
    omega

/-- A number and a length belong to one byte string only. -/
theorem ofBigEndian_inj {a b : List UInt8} (hlen : a.length = b.length)
    (h : ofBigEndian a = ofBigEndian b) : a = b := by
  rw [← bigEndian_ofBigEndian a, ← bigEndian_ofBigEndian b, hlen, h]

/-- The first byte counts once for every number that the others can spell. -/
theorem ofBigEndian_cons (byte : UInt8) (bytes : List UInt8) :
    ofBigEndian (byte :: bytes) =
      Nat.pow 256 bytes.length * byte.toNat + ofBigEndian bytes := by
  have h := ofBigEndian_append [byte] bytes
  rw [Nat.mul_comm]
  simpa [ofBigEndian] using h

/-- Bytes spell a number below `256` to the power of their count. -/
theorem ofBigEndian_lt (bytes : List UInt8) : ofBigEndian bytes < Nat.pow 256 bytes.length := by
  rw [← bigEndian_ofBigEndian bytes, ofBigEndian_bigEndian, length_bigEndian]
  exact Nat.mod_lt _ (Nat.pow_pos (by decide))

end StellarTx
