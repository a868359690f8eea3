/-
# The bytes of regular formats

A regular format writes a multiple of four bytes, reads exactly what it writes (`Exact`), and
refuses, with the depth error, what nests deeper than the limits allow (`Capped`).  Each law is
shown for one operation after the other and then, by induction, for every regular format.
-/
import StellarTx.Proofs.Format.Agreement
import StellarTx.Proofs.Format.Union
import StellarTx.Proofs.Xdr.Decoder
import StellarTx.Proofs.Xdr.Encoding

namespace StellarTx.Format

open Xdr (Decoder Encoding Input Limits)

variable {α β : Type}

/-! ## Writing -/

/-- An array has bytes if it is not too long and its items have bytes. -/
theorem encode_array_eq_ok_iff {f : Format α} {max : Nat} {items : List α} {bytes : List UInt8}
    (small : max < UInt32.size) :
    (array max f).encode items = .ok bytes ↔
      items.length ≤ max ∧ ∃ body, Encoding.concat (items.map f.encode) = .ok body ∧
        bytes = bigEndian 4 items.length ++ body := by
  show Encoding.count items.length max ++ Encoding.concat (items.map f.encode) = _ ↔ _
  rw [Encoding.append_eq_ok_iff]
  constructor
  · rintro ⟨first, body, h1, h2, rfl⟩
    obtain ⟨hle, rfl⟩ := (Encoding.count_eq_ok_iff small).1 h1
    exact ⟨hle, body, h2, rfl⟩
  · rintro ⟨hle, body, h2, rfl⟩
    exact ⟨_, body, (Encoding.count_eq_ok_iff small).2 ⟨hle, rfl⟩, h2, rfl⟩

/-- A value has bytes, as a whole, exactly if its encoding succeeds. -/
theorem toBytes_eq_ok_iff {f : Format α} {a : α} {bytes : List UInt8} :
    f.toBytes a = .ok bytes ↔ f.encode a = .ok bytes := by
  rw [toBytes]
  cases f.encode a with
  | ok b =>
    constructor <;> (intro h; cases h; rfl)
  | error e =>
    constructor <;> (intro h; cases h)

/-- A value has no bytes only for an excessive length. -/
theorem toBytes_eq_error_iff {f : Format α} {a : α} {e : Xdr.Error} :
    f.toBytes a = .error e ↔ ∃ excess, f.encode a = .error excess ∧ e = .excess excess := by
  rw [toBytes]
  cases f.encode a with
  | ok b =>
    constructor
    · intro h; cases h
    · rintro ⟨_, h, _⟩; cases h
  | error excess =>
    constructor
    · intro h
      cases h
      exact ⟨excess, rfl, rfl⟩
    · rintro ⟨_, h, rfl⟩
      cases h
      rfl

/-- The bytes of a sum of items have a property that sums keep and the bytes of each item have. -/
theorem concat_length_mod {f : Format α} {items : List α} {body : List UInt8}
    (h : ∀ a ∈ items, ∀ bytes, f.encode a = .ok bytes → bytes.length % 4 = 0)
    (hb : Encoding.concat (items.map f.encode) = .ok body) : body.length % 4 = 0 := by
  induction items generalizing body with
  | nil =>
    cases hb
    rfl
  | cons a items ih =>
    rw [List.map_cons, Encoding.concat_cons, Encoding.append_eq_ok_iff] at hb
    obtain ⟨first, rest, h1, h2, rfl⟩ := hb
    have h3 := h a (by simp) first h1
    have h4 := ih (fun b hm => h b (by simp [hm])) h2
    rw [List.length_append]
    omega

/-- Items of at least four bytes each take at least four bytes each. -/
theorem length_le_concat {f : Format α} {items : List α} {body : List UInt8}
    (h : ∀ a ∈ items, ∀ bytes, f.encode a = .ok bytes → 4 ≤ bytes.length)
    (hb : Encoding.concat (items.map f.encode) = .ok body) : 4 * items.length ≤ body.length := by
  induction items generalizing body with
  | nil => simp
  | cons a items ih =>
    rw [List.map_cons, Encoding.concat_cons, Encoding.append_eq_ok_iff] at hb
    obtain ⟨first, rest, h1, h2, rfl⟩ := hb
    have h3 := h a (by simp) first h1
    have h4 := ih (fun b hm => h b (by simp [hm])) h2
    rw [List.length_append, List.length_cons]
    omega

/-! ### Alignment -/

/-- The bytes of values down to `n` levels are a multiple of four. -/
def Aligned (n : Nat) (f : Format α) : Prop :=
  ∀ a bytes, f.level a ≤ n → f.encode a = .ok bytes → bytes.length % 4 = 0

/-- Scalars take four or eight bytes. -/
theorem Scalar.aligned {f : Format α} (h : Scalar f) (n : Nat) : Aligned n f := by
  intro a bytes _ hb
  cases h <;> (cases hb; exact length_bigEndian _ _ ▸ rfl)

/-- The flag takes four bytes. -/
theorem Aligned.option {n : Nat} {f : Format α} (h : Aligned n f) : Aligned n (option f) := by
  rintro (_ | a) bytes hl hb
  · cases hb
    rfl
  · obtain ⟨flag, body, h1, h2, rfl⟩ := Encoding.append_eq_ok_iff.1 hb
    have h3 := h a body hl h2
    cases h1
    rw [List.length_append, length_bigEndian]
    omega

/-- A level more or less does not change the bytes. -/
theorem Aligned.deeper {n : Nat} {f : Format α} (h : ∀ m, n = m + 1 → Aligned m f) :
    Aligned n (deeper f) := by
  intro a bytes hl hb
  have hl : f.level a + 1 ≤ n := hl
  exact h (n - 1) (by omega) a bytes (by omega) hb

/-- The code of the arm takes four bytes in front of what the arm holds. -/
theorem Aligned.union {n : Nat} {arms : List (Arm α)} (sound : Arm.Sound arms)
    (h : ∀ arm ∈ arms, Aligned n arm.format) (name : String) : Aligned n (union name arms) := by
  intro a bytes hl hb
  obtain ⟨arm, ha, p, rfl⟩ := sound.exists_make a
  rw [sound.encode_make ha, Encoding.append_eq_ok_iff] at hb
  rw [sound.level_make ha] at hl
  obtain ⟨code, body, h1, h2, rfl⟩ := hb
  have h3 := h arm ha p body hl h2
  cases h1
  rw [List.length_append, length_bigEndian]
  omega

/-- Every regular format writes a multiple of four bytes, by induction on how it is put together;
byte strings and texts are padded. -/
theorem Regular.aligned {n : Nat} {F : Places} {f : Format α} (h : Regular n F f) :
    Aligned n f := by
  induction h with
  | scalar h => exact h.aligned _
  | unit =>
    rintro a bytes - hb
    cases hb
    rfl
  | octets k =>
    rintro a bytes - hb
    cases hb
    exact Encoding.length_padded_mod _
  | bytes small =>
    rintro a bytes - hb
    obtain ⟨_, rfl⟩ := (Encoding.bytes_eq_ok_iff small).1 hb
    have := Encoding.length_padded_mod a
    rw [List.length_append, length_bigEndian]
    omega
  | string small =>
    rintro s bytes - hb
    obtain ⟨_, rfl⟩ := (Encoding.bytes_eq_ok_iff small).1 hb
    have := Encoding.length_padded_mod s.toUTF8.data.toList
    rw [List.length_append, length_bigEndian]
    omega
  | extension =>
    rintro a bytes - hb
    cases hb
    rfl
  | field name _ _ ih => exact ih
  | and _ _ _ ih ih' =>
    rintro ⟨a, b⟩ bytes hl hb
    obtain ⟨first, second, h1, h2, rfl⟩ := Encoding.append_eq_ok_iff.1 hb
    obtain ⟨hl1, hl2⟩ := Nat.max_le.1 hl
    have h3 := ih a first hl1 h1
    have h4 := ih' b second hl2 h2
    rw [List.length_append]
    omega
  | map _ ih => exact fun b bytes hl hb => ih _ bytes hl hb
  | option _ _ ih => exact ih.option
  | array _ _ small ih =>
    intro items bytes hl hb
    obtain ⟨_, body, h2, rfl⟩ := (encode_array_eq_ok_iff small).1 hb
    have h3 := concat_length_mod (fun a ha b => ih a b (maxLevel_le_iff.1 hl a ha)) h2
    rw [List.length_append, length_bigEndian]
    omega
  | deeper _ ih => exact .deeper ih
  | token _ _ _ ih => exact ih
  | union name sound _ _ _ ih => exact .union sound ih name
  | assetOrShare name _ sound _ _ _ _ _ ih => exact Aligned.union sound ih name
  | widen _ _ ih => exact ih

/-! ## Reading what is written -/

/-- Within these limits a format reads a value exactly if the value is not too deep and its bytes
stand at the front of the input. -/
def Exact (f : Format α) (limits : Limits) : Prop :=
  ∀ a input after, f.decode limits input = .ok (a, after) ↔
    f.level a ≤ limits.levels ∧ ∃ bytes, f.encode a = .ok bytes ∧ input.Passes bytes after

namespace Exact

variable {f : Format α} {g : Format β} {limits : Limits}

/-- A format whose values all have bytes and no levels. -/
theorem of_passes (w : α → List UInt8) (hl : ∀ a, f.level a = 0)
    (he : ∀ a, f.encode a = .ok (w a))
    (hd : ∀ a input after, f.decode limits input = .ok (a, after) ↔ input.Passes (w a) after) :
    Exact f limits := by
  intro a input after
  rw [hd, hl, he]
  constructor
  · exact fun h => ⟨Nat.zero_le _, w a, rfl, h⟩
  · rintro ⟨_, bytes, hb, h⟩
    cases hb
    exact h

/-- A format of bytes that are not too long. -/
theorem of_bounded {size : α → Nat} {max : Nat} (w : α → List UInt8) (hl : ∀ a, f.level a = 0)
    (he : ∀ a bytes, f.encode a = .ok bytes ↔ size a ≤ max ∧ bytes = w a)
    (hd : ∀ a input after, f.decode limits input = .ok (a, after) ↔
      size a ≤ max ∧ input.Passes (w a) after) : Exact f limits := by
  intro a input after
  rw [hd, hl]
  constructor
  · rintro ⟨hle, h⟩
    exact ⟨Nat.zero_le _, w a, (he a _).2 ⟨hle, rfl⟩, h⟩
  · rintro ⟨_, bytes, hb, h⟩
    obtain ⟨hle, rfl⟩ := (he a bytes).1 hb
    exact ⟨hle, h⟩

theorem unit : Exact unit limits :=
  .of_passes (fun _ => []) (fun _ => rfl) (fun _ => rfl) fun a input after => by
    rw [Input.passes_nil_iff]
    exact ⟨fun h => (Decoder.pure_eq_ok_iff.1 h).2, fun h => Decoder.pure_eq_ok_iff.2 ⟨rfl, h⟩⟩

/-- Each scalar is read by the decoder that its writer goes with. -/
theorem scalar (h : Scalar f) : Exact f limits := by
  cases h with
  | uint32 => exact .of_passes _ (fun _ => rfl) (fun _ => rfl) fun _ _ _ => Decoder.uint32_eq_ok_iff
  | int32 => exact .of_passes _ (fun _ => rfl) (fun _ => rfl) fun _ _ _ => Decoder.int32_eq_ok_iff
  | uint64 => exact .of_passes _ (fun _ => rfl) (fun _ => rfl) fun _ _ _ => Decoder.uint64_eq_ok_iff
  | int64 => exact .of_passes _ (fun _ => rfl) (fun _ => rfl) fun _ _ _ => Decoder.int64_eq_ok_iff
  | bool => exact .of_passes _ (fun _ => rfl) (fun _ => rfl) fun _ _ _ => Decoder.bool_eq_ok_iff
  | amount => exact .of_passes _ (fun _ => rfl) (fun _ => rfl) fun _ _ _ => Decoder.int64_eq_ok_iff
  | timestamp =>
    exact .of_passes _ (fun _ => rfl) (fun _ => rfl) fun _ _ _ => Decoder.uint64_eq_ok_iff
  | signedTimestamp =>
    exact .of_passes _ (fun _ => rfl) (fun _ => rfl) fun _ _ _ => Decoder.int64_eq_ok_iff

/-- A byte string of fixed length is read with its padding, which must be zeros. -/
theorem octets (k : Nat) : Exact (octets k) limits :=
  .of_passes (fun a => padded a.toList) (fun _ => rfl) (fun _ => rfl) fun _ _ _ =>
    Decoder.fixed_eq_ok_iff

/-- A byte string is read with its length, its padding, and no more than the maximum. -/
theorem bytes {max : Nat} (small : max < UInt32.size) : Exact (bytes max) limits :=
  .of_bounded _ (fun _ => rfl) (fun _ _ => Encoding.bytes_eq_ok_iff small) fun _ _ _ =>
    Decoder.bytes_eq_ok_iff small

/-- A text is read as a byte string that must be UTF-8. -/
theorem string {max : Nat} (small : max < UInt32.size) : Exact (string max) limits :=
  .of_bounded _ (fun _ => rfl) (fun _ _ => Encoding.bytes_eq_ok_iff small) fun _ _ _ =>
    Decoder.string_eq_ok_iff small

/-- An extension point holds nothing but the version zero. -/
theorem extension (union : String) : Exact (extension union) limits :=
  .of_passes (fun _ => bigEndian 4 (0 : Int32).toUInt32.toNat) (fun _ => rfl) (fun _ => rfl)
    fun a input after => by
    show (Decoder.int32 >>= fun code => if code = 0 then pure () else Decoder.unknown union code)
      limits input = _ ↔ _
    rw [Decoder.bind_eq_ok_iff]
    constructor
    · rintro ⟨code, mid, hc, hk⟩
      split at hk
      · next h =>
        obtain ⟨_, rfl⟩ := Decoder.pure_eq_ok_iff.1 hk
        subst h
        exact Decoder.int32_eq_ok_iff.1 hc
      · exact absurd hk Decoder.fail_ne_ok
    · intro h
      exact ⟨0, after, Decoder.int32_eq_ok_iff.2 h, rfl⟩

/-- The input behind the first value is the input of the second. -/
theorem and (h : Exact f limits) (k : Exact g limits) : Exact (f.and g) limits := by
  rintro ⟨a, b⟩ input after
  show (f.decode >>= fun a => g.decode >>= fun b => pure (a, b)) limits input = _ ↔
    max (f.level a) (g.level b) ≤ limits.levels ∧
      ∃ bytes, f.encode a ++ g.encode b = .ok bytes ∧ input.Passes bytes after
  rw [Decoder.bind_eq_ok_iff, Nat.max_le]
  constructor
  · rintro ⟨a', mid, ha, hk⟩
    obtain ⟨b', end', hb, hr⟩ := Decoder.bind_eq_ok_iff.1 hk
    obtain ⟨he, rfl⟩ := Decoder.pure_eq_ok_iff.1 hr
    cases he
    obtain ⟨hl1, first, h1, hp1⟩ := (h a input mid).1 ha
    obtain ⟨hl2, second, h2, hp2⟩ := (k b mid _).1 hb
    exact ⟨⟨hl1, hl2⟩, first ++ second, Encoding.append_of_ok h1 h2,
      Input.passes_append_iff.2 ⟨mid, hp1, hp2⟩⟩
  · rintro ⟨⟨hl1, hl2⟩, bytes, hb, hp⟩
    obtain ⟨first, second, h1, h2, rfl⟩ := Encoding.append_eq_ok_iff.1 hb
    obtain ⟨mid, hp1, hp2⟩ := Input.passes_append_iff.1 hp
    refine ⟨a, mid, (h a input mid).2 ⟨hl1, first, h1, hp1⟩, Decoder.bind_eq_ok_iff.2 ?_⟩
    exact ⟨b, after, (k b mid after).2 ⟨hl2, second, h2, hp2⟩, rfl⟩

/-- A value in another form is read as its parts, which are the only ones to make it. -/
theorem map {make : α → β} {parts : β → α} {h₁ : ∀ a, parts (make a) = a}
    {h₂ : ∀ b, make (parts b) = b} (h : Exact f limits) :
    Exact (map f make parts h₁ h₂) limits := by
  intro b input after
  show (make <$> f.decode) limits input = _ ↔ _
  rw [Decoder.map_eq_ok_iff]
  constructor
  · rintro ⟨a, ha, rfl⟩
    have h3 := (h a input after).1 ha
    rw [← h₁ a] at h3
    exact h3
  · intro h3
    exact ⟨parts b, (h (parts b) input after).2 h3, h₂ b⟩

/-- The flag says whether a value follows, and both forms of the flag are read strictly. -/
theorem option (h : Exact f limits) : Exact (option f) limits := by
  intro o input after
  show (Decoder.bool >>= fun flag => if flag then some <$> f.decode else pure none)
    limits input = _ ↔ _
  rw [Decoder.bind_eq_ok_iff]
  cases o with
  | none =>
    constructor
    · rintro ⟨flag, mid, hf, hk⟩
      cases flag with
      | true =>
        obtain ⟨a, _, ha⟩ := Decoder.map_eq_ok_iff.1 hk
        cases ha
      | false =>
        obtain ⟨_, rfl⟩ := Decoder.pure_eq_ok_iff.1 hk
        exact ⟨Nat.zero_le _, _, rfl, Decoder.bool_eq_ok_iff.1 hf⟩
    · rintro ⟨_, bytes, hb, hp⟩
      cases hb
      exact ⟨false, after, Decoder.bool_eq_ok_iff.2 hp, rfl⟩
  | some a =>
    constructor
    · rintro ⟨flag, mid, hf, hk⟩
      cases flag with
      | true =>
        obtain ⟨a', ha, he⟩ := Decoder.map_eq_ok_iff.1 hk
        cases he
        obtain ⟨hl, body, hb, hp⟩ := (h a mid after).1 ha
        exact ⟨hl, _, Encoding.append_of_ok rfl hb,
          Input.passes_append_iff.2 ⟨mid, Decoder.bool_eq_ok_iff.1 hf, hp⟩⟩
      | false =>
        obtain ⟨he, _⟩ := Decoder.pure_eq_ok_iff.1 hk
        cases he
    · rintro ⟨hl, bytes, hb, hp⟩
      obtain ⟨flag, body, h1, h2, rfl⟩ := Encoding.append_eq_ok_iff.1 hb
      cases h1
      obtain ⟨mid, hp1, hp2⟩ := Input.passes_append_iff.1 hp
      refine ⟨true, mid, Decoder.bool_eq_ok_iff.2 hp1, Decoder.map_eq_ok_iff.2 ?_⟩
      exact ⟨a, (h a mid after).2 ⟨hl, body, h2, hp2⟩, rfl⟩

/-- Items one after another are read exactly. -/
theorem replicate (h : Exact f limits) (items : List α) (k : Nat) (input after : Input) :
    Decoder.replicate k f.decode limits input = .ok (items, after) ↔
      items.length = k ∧ f.maxLevel items ≤ limits.levels ∧
        ∃ body, Encoding.concat (items.map f.encode) = .ok body ∧ input.Passes body after := by
  induction k generalizing items input with
  | zero =>
    show (pure [] : Decoder (List α)) limits input = _ ↔ _
    rw [Decoder.pure_eq_ok_iff, List.length_eq_zero_iff]
    constructor
    · rintro ⟨rfl, rfl⟩
      exact ⟨rfl, Nat.zero_le _, [], rfl, Input.passes_nil_iff.2 rfl⟩
    · rintro ⟨rfl, _, body, hb, hp⟩
      cases hb
      exact ⟨rfl, Input.passes_nil_iff.1 hp⟩
  | succ k ih =>
    show (f.decode >>= fun first => Decoder.replicate k f.decode >>= fun rest =>
      pure (first :: rest)) limits input = _ ↔ _
    rw [Decoder.bind_eq_ok_iff]
    constructor
    · rintro ⟨a, mid, ha, hk⟩
      obtain ⟨rest, _, hrest, hr⟩ := Decoder.bind_eq_ok_iff.1 hk
      obtain ⟨rfl, rfl⟩ := Decoder.pure_eq_ok_iff.1 hr
      obtain ⟨hl1, first, h1, hp1⟩ := (h a input mid).1 ha
      obtain ⟨hlen, hl2, body, h2, hp2⟩ := (ih rest mid).1 hrest
      exact ⟨congrArg (· + 1) hlen, Nat.max_le.2 ⟨hl1, hl2⟩, first ++ body,
        Encoding.append_of_ok h1 h2, Input.passes_append_iff.2 ⟨mid, hp1, hp2⟩⟩
    · rintro ⟨hlen, hl, body, hb, hp⟩
      cases items with
      | nil => cases hlen
      | cons a rest =>
        obtain ⟨hl1, hl2⟩ := Nat.max_le.1 hl
        rw [List.map_cons, Encoding.concat_cons, Encoding.append_eq_ok_iff] at hb
        obtain ⟨first, body', h1, h2, rfl⟩ := hb
        obtain ⟨mid, hp1, hp2⟩ := Input.passes_append_iff.1 hp
        refine ⟨a, mid, (h a input mid).2 ⟨hl1, first, h1, hp1⟩, Decoder.bind_eq_ok_iff.2 ?_⟩
        exact ⟨rest, after, (ih rest mid).2 ⟨Nat.succ.inj hlen, hl2, body', h2, hp2⟩, rfl⟩

/-- A value that is read from at least one byte has at least one byte. -/
theorem length_pos (h : Exact f limits) (hungry : Hungry f) {a : α} {bytes : List UInt8}
    (hl : f.level a ≤ limits.levels) (hb : f.encode a = .ok bytes) : 0 < bytes.length := by
  rcases Nat.eq_zero_or_pos bytes.length with hz | hpos
  · obtain rfl := List.length_eq_zero_iff.1 hz
    -- With no bytes the value would be read from nothing.
    obtain ⟨e, he⟩ := hungry limits 0
    have hok := (h a ⟨0, []⟩ ⟨0, []⟩).2 ⟨hl, [], hb, Input.passes_nil_iff.2 rfl⟩
    rw [he] at hok
    cases hok
  · exact hpos

/-- The length announces as many items as are read.  Reading ahead never refuses them: as each of
them takes four bytes, there are at least four times as many bytes behind the length. -/
theorem array {max : Nat} (h : Exact f limits) (hungry : Hungry f) (small : max < UInt32.size)
    (aligned : Aligned limits.levels f) : Exact (array max f) limits := by
  intro items input after
  show (Decoder.count max >>= fun k => Decoder.replicate k f.decode) limits input = _ ↔ _
  rw [Decoder.bind_eq_ok_iff]
  constructor
  · rintro ⟨k, mid, hk, hr⟩
    obtain ⟨hle, hp1, _⟩ := (Decoder.count_eq_ok_iff small).1 hk
    obtain ⟨rfl, hl, body, hb, hp2⟩ := (h.replicate items k mid after).1 hr
    exact ⟨hl, _, (encode_array_eq_ok_iff small).2 ⟨hle, body, hb, rfl⟩,
      Input.passes_append_iff.2 ⟨mid, hp1, hp2⟩⟩
  · rintro ⟨hl, bytes, hb, hp⟩
    obtain ⟨hle, body, hbody, rfl⟩ := (encode_array_eq_ok_iff small).1 hb
    obtain ⟨mid, hp1, hp2⟩ := Input.passes_append_iff.1 hp
    -- The count check passes: every item takes at least four bytes.
    have hfour : ∀ a ∈ items, ∀ bytes, f.encode a = .ok bytes → 4 ≤ bytes.length := by
      intro a ha bytes hb
      have hla := maxLevel_le_iff.1 hl a ha
      have h1 := h.length_pos hungry hla hb
      have h2 := aligned a bytes hla hb
      omega
    have hroom : 4 * items.length ≤ mid.rest.length := by
      have := length_le_concat hfour hbody
      rw [hp2.1, List.length_append]
      omega
    exact ⟨items.length, mid, (Decoder.count_eq_ok_iff small).2 ⟨hle, hp1, fun _ => hroom⟩,
      (h.replicate items _ mid after).2 ⟨rfl, hl, body, hbody, hp2⟩⟩

/-- A reader without levels refuses, and every value behind it has a level. -/
theorem deeper {ahead : Bool} {levels : Nat} (h : ∀ m, levels = m + 1 → Exact f ⟨m, ahead⟩) :
    Exact (deeper f) ⟨levels, ahead⟩ := by
  intro a input after
  cases levels with
  | zero =>
    -- No level is left, and no value is without one.
    constructor
    · intro hd
      cases hd
    · rintro ⟨hl, _⟩
      exact absurd hl (Nat.not_succ_le_zero _)
  | succ m =>
    have h1 := h m rfl a input after
    constructor
    · intro hd
      obtain ⟨hl, hb⟩ := h1.1 hd
      exact ⟨Nat.succ_le_succ hl, hb⟩
    · rintro ⟨hl, hb⟩
      exact h1.2 ⟨Nat.le_of_succ_le_succ hl, hb⟩

/-- The code finds one arm, and the value is in this arm only. -/
theorem union {arms : List (Arm α)} (sound : Arm.Sound arms)
    (h : ∀ arm ∈ arms, Exact arm.format limits) (name : String) :
    Exact (union name arms) limits := by
  intro a input after
  rw [decode_union, Decoder.bind_eq_ok_iff]
  constructor
  · rintro ⟨code, mid, hc, hk⟩
    cases hf : arms.find? (·.code == code) with
    | none =>
      rw [hf] at hk
      have hk : Decoder.unknown name code limits mid = .ok (a, after) := hk
      exact absurd hk Decoder.fail_ne_ok
    | some arm =>
      rw [hf] at hk
      have ha := List.mem_of_find?_eq_some hf
      -- The arm that was found has the discriminant that was read.
      obtain rfl : arm.code = code := by simpa using List.find?_some hf
      obtain ⟨p, hp, rfl⟩ := Decoder.map_eq_ok_iff.1 hk
      obtain ⟨hl, body, hb, hpass⟩ := (h arm ha p mid after).1 hp
      rw [sound.level_make ha, sound.encode_make ha]
      exact ⟨hl, _, Encoding.append_of_ok rfl hb,
        Input.passes_append_iff.2 ⟨mid, Decoder.int32_eq_ok_iff.1 hc, hpass⟩⟩
  · rintro ⟨hl, bytes, hb, hpass⟩
    obtain ⟨arm, ha, p, rfl⟩ := sound.exists_make a
    rw [sound.level_make ha] at hl
    rw [sound.encode_make ha, Encoding.append_eq_ok_iff] at hb
    obtain ⟨code, body, h1, h2, rfl⟩ := hb
    cases h1
    obtain ⟨mid, hp1, hp2⟩ := Input.passes_append_iff.1 hpass
    refine ⟨arm.code, mid, Decoder.int32_eq_ok_iff.2 hp1, ?_⟩
    rw [sound.find?_code ha]
    exact Decoder.map_eq_ok_iff.2 ⟨p, (h arm ha p mid after).2 ⟨hl, body, h2, hp2⟩, rfl⟩

end Exact

/-- A regular format reads exactly what it writes. -/
theorem Regular.exact {n : Nat} {F : Places} {f : Format α} (h : Regular n F f) {limits : Limits}
    (hn : limits.levels ≤ n) : Exact f limits := by
  induction h generalizing limits with
  | unit => exact .unit
  | scalar h => exact .scalar h
  | octets k => exact .octets k
  | bytes small => exact .bytes small
  | string small => exact .string small
  | extension union => exact .extension union
  | field _ _ _ ih => exact ih hn
  | and _ _ _ ih ih' => exact (ih hn).and (ih' hn)
  | map _ ih => exact (ih hn).map
  | option _ _ ih => exact (ih hn).option
  | array h hungry small ih =>
    refine (ih hn).array hungry small fun a bytes hl hb => ?_
    exact h.aligned a bytes (Nat.le_trans hl hn) hb
  | @deeper n F α f _ ih =>
    obtain ⟨levels, ahead⟩ := limits
    refine .deeper fun m hm => ih (n - 1) ?_ ?_
    · have hn : levels ≤ n := hn
      omega
    · have hn : levels ≤ n := hn
      show m ≤ n - 1
      omega
  | token _ _ _ ih => exact ih hn
  | union name sound _ _ _ ih => exact .union sound (fun arm ha => ih arm ha hn) name
  | assetOrShare name _ sound _ _ _ _ _ ih =>
    exact Exact.union sound (fun arm ha => ih arm ha hn) name
  | widen _ _ ih => exact ih hn

/-! ## Values that are too deep -/

/-- The bytes of a value that is deeper than the limits allow, but not deeper than `n` levels, are
refused for their depth. -/
def Capped (n : Nat) (f : Format α) (limits : Limits) : Prop :=
  ∀ a bytes input after, f.level a ≤ n → f.encode a = .ok bytes → input.Passes bytes after →
    limits.levels < f.level a → f.decode limits input = .error (.depth Xdr.maxLevels)

namespace Capped

variable {n : Nat} {f : Format α} {g : Format β} {limits : Limits}

/-- A value without levels is never too deep. -/
theorem of_level (hl : ∀ a, f.level a = 0) : Capped n f limits := by
  intro a bytes input after _ _ _ hlt
  rw [hl] at hlt
  exact absurd hlt (Nat.not_lt_zero _)

/-- If the first value is too deep, what stands behind it is not looked at; otherwise it is read
exactly, and the second one is too deep. -/
theorem and (h : Capped n f limits) (k : Capped n g limits) (exact : Exact f limits) :
    Capped n (f.and g) limits := by
  rintro ⟨a, b⟩ bytes input after hn hb hp hlt
  obtain ⟨hn1, hn2⟩ := Nat.max_le.1 hn
  obtain ⟨first, second, h1, h2, rfl⟩ := Encoding.append_eq_ok_iff.1 hb
  obtain ⟨mid, hp1, hp2⟩ := Input.passes_append_iff.1 hp
  show (f.decode >>= fun a => g.decode >>= fun b => pure (a, b)) limits input = _
  -- The first part is too deep, or it is read and the second is too deep.
  rcases Nat.lt_or_ge limits.levels (f.level a) with hlt1 | hle1
  · exact Decoder.bind_of_error (h a first input mid hn1 h1 hp1 hlt1)
  · have hlt2 : limits.levels < g.level b := by
      have hlt : limits.levels < max (f.level a) (g.level b) := hlt
      omega
    rw [Decoder.bind_of_ok ((exact a input mid).2 ⟨hle1, first, h1, hp1⟩)]
    exact Decoder.bind_of_error (k b second mid after hn2 h2 hp2 hlt2)

/-- Another form of a value is as deep as its parts. -/
theorem map {make : α → β} {parts : β → α} {h₁ : ∀ a, parts (make a) = a}
    {h₂ : ∀ b, make (parts b) = b} (h : Capped n f limits) :
    Capped n (map f make parts h₁ h₂) limits :=
  fun b bytes input after hn hb hp hlt =>
    Decoder.map_of_error (h (parts b) bytes input after hn hb hp hlt)

/-- A value that is absent is never too deep. -/
theorem option (h : Capped n f limits) : Capped n (option f) limits := by
  intro o bytes input after hn hb hp hlt
  cases o with
  | none => exact absurd hlt (Nat.not_lt_zero _)
  | some a =>
    obtain ⟨flag, body, h1, h2, rfl⟩ := Encoding.append_eq_ok_iff.1 hb
    cases h1
    obtain ⟨mid, hp1, hp2⟩ := Input.passes_append_iff.1 hp
    show (Decoder.bool >>= fun flag => if flag then some <$> f.decode else pure none)
      limits input = _
    have hf : Decoder.bool limits input = .ok (true, mid) := Decoder.bool_eq_ok_iff.2 hp1
    rw [Decoder.bind_of_ok hf]
    exact Decoder.map_of_error (h a body mid after hn h2 hp2 hlt)

/-- The first item that is too deep stops the reading of items. -/
theorem replicate (h : Capped n f limits) (exact : Exact f limits) {items : List α}
    {body : List UInt8} {input after : Input} (hn : f.maxLevel items ≤ n)
    (hb : Encoding.concat (items.map f.encode) = .ok body) (hp : input.Passes body after)
    (hlt : limits.levels < f.maxLevel items) :
    Decoder.replicate items.length f.decode limits input = .error (.depth Xdr.maxLevels) := by
  induction items generalizing body input with
  | nil => exact absurd hlt (Nat.not_lt_zero _)
  | cons a rest ih =>
    obtain ⟨hn1, hn2⟩ := Nat.max_le.1 hn
    rw [List.map_cons, Encoding.concat_cons, Encoding.append_eq_ok_iff] at hb
    obtain ⟨first, body', h1, h2, rfl⟩ := hb
    obtain ⟨mid, hp1, hp2⟩ := Input.passes_append_iff.1 hp
    show (f.decode >>= fun first => Decoder.replicate rest.length f.decode >>= fun rest =>
      pure (first :: rest)) limits input = _
    rcases Nat.lt_or_ge limits.levels (f.level a) with hlt1 | hle1
    · exact Decoder.bind_of_error (h a first input mid hn1 h1 hp1 hlt1)
    · have hlt2 : limits.levels < f.maxLevel rest := by
        have hlt : limits.levels < max (f.level a) (f.maxLevel rest) := hlt
        omega
      rw [Decoder.bind_of_ok ((exact a input mid).2 ⟨hle1, first, h1, hp1⟩)]
      exact Decoder.bind_of_error (ih hn2 h2 hp2 hlt2)

/-- Some item is too deep, and those in front of it are read exactly. -/
theorem array {max : Nat} (h : Capped n f limits) (exact : Exact f limits)
    (small : max < UInt32.size)
    (hfour : ∀ a bytes, f.level a ≤ n → f.encode a = .ok bytes → 4 ≤ bytes.length) :
    Capped n (array max f) limits := by
  intro items bytes input after hn hb hp hlt
  obtain ⟨hle, body, hbody, rfl⟩ := (encode_array_eq_ok_iff small).1 hb
  obtain ⟨mid, hp1, hp2⟩ := Input.passes_append_iff.1 hp
  have hroom : 4 * items.length ≤ mid.rest.length := by
    have := length_le_concat (fun a ha bytes => hfour a bytes (maxLevel_le_iff.1 hn a ha)) hbody
    rw [hp2.1, List.length_append]
    omega
  show (Decoder.count max >>= fun k => Decoder.replicate k f.decode) limits input = _
  have hcount : Decoder.count max limits input = .ok (items.length, mid) :=
    (Decoder.count_eq_ok_iff small).2 ⟨hle, hp1, fun _ => hroom⟩
  rw [Decoder.bind_of_ok hcount]
  exact h.replicate exact hn hbody hp2 hlt

/-- At level zero every value is too deep. -/
theorem deeper {ahead : Bool} {levels : Nat}
    (h : ∀ m k, n = m + 1 → levels = k + 1 → Capped m f ⟨k, ahead⟩) :
    Capped n (deeper f) ⟨levels, ahead⟩ := by
  intro a bytes input after hn hb hp hlt
  have hn : f.level a + 1 ≤ n := hn
  have hlt : levels < f.level a + 1 := hlt
  cases levels with
  | zero => rfl
  | succ k =>
    apply h (n - 1) k (by omega) rfl a bytes input after (by omega) hb hp
    show k < f.level a
    omega

/-- An arm is as deep as what it holds, whose reader refuses it. -/
theorem union {arms : List (Arm α)} (sound : Arm.Sound arms)
    (h : ∀ arm ∈ arms, Capped n arm.format limits) (name : String) :
    Capped n (union name arms) limits := by
  intro a bytes input after hn hb hp hlt
  obtain ⟨arm, ha, p, rfl⟩ := sound.exists_make a
  rw [sound.level_make ha] at hn hlt
  rw [sound.encode_make ha, Encoding.append_eq_ok_iff] at hb
  obtain ⟨code, body, h1, h2, rfl⟩ := hb
  cases h1
  obtain ⟨mid, hp1, hp2⟩ := Input.passes_append_iff.1 hp
  have hcode : Decoder.int32 limits input = .ok (arm.code, mid) :=
    Decoder.int32_eq_ok_iff.2 hp1
  rw [decode_union, Decoder.bind_of_ok hcode, sound.find?_code ha]
  exact Decoder.map_of_error (h arm ha p body mid after hn h2 hp2 hlt)

end Capped

/-- A regular format refuses what is too deep for the limits. -/
theorem Regular.capped {n : Nat} {F : Places} {f : Format α} (h : Regular n F f) {limits : Limits}
    (hle : limits.levels ≤ n) : Capped n f limits := by
  induction h generalizing limits with
  | unit => exact .of_level fun _ => rfl
  | scalar h =>
    refine .of_level fun a => ?_
    cases h <;> rfl
  | octets k => exact .of_level fun _ => rfl
  | bytes small => exact .of_level fun _ => rfl
  | string small => exact .of_level fun _ => rfl
  | extension union => exact .of_level fun _ => rfl
  | field _ _ _ ih => exact ih hle
  | and h _ _ ih ih' => exact (ih hle).and (ih' hle) (h.exact hle)
  | map _ ih => exact (ih hle).map
  | option _ _ ih => exact (ih hle).option
  | @array n max F α f h hungry small ih =>
    refine (ih hle).array (h.exact hle) small fun a bytes hl hb => ?_
    -- An item takes at least one byte, and a multiple of four.
    have hexact : Exact f ⟨n, true⟩ := h.exact (Nat.le_refl n)
    have h1 := hexact.length_pos hungry hl hb
    have h2 := h.aligned a bytes hl hb
    omega
  | deeper _ ih =>
    obtain ⟨levels, ahead⟩ := limits
    refine .deeper fun m k hm hk => ih m hm ?_
    have hle : levels ≤ _ := hle
    show k ≤ m
    omega
  | token _ _ _ ih => exact ih hle
  | union name sound _ _ _ ih => exact .union sound (fun arm ha => ih arm ha hle) name
  | assetOrShare name _ sound _ _ _ _ _ ih =>
    exact Capped.union sound (fun arm ha => ih arm ha hle) name
  | widen _ _ ih => exact ih hle

end StellarTx.Format
