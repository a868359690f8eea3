/-
# Accounts and signers read back

Accounts and signers are tokens: their keys stand as words, read back, and read only as what has
bytes.  A signer with an overlong payload has neither bytes nor a text that reads.
-/
import StellarTx.Proofs.StrKey
import StellarTx.Proofs.Xdr.Encoding

namespace StellarTx

open Format (Outlined OutlinedArms Token union arm field octets)
open Xdr (Encoding)

/-- A token of values that all have bytes. -/
theorem Format.Token.of_total {α : Type} {f : Format α} {text : α → String}
    {ofText? : String → Option α} (level : ∀ a, f.level a = 0) (word : ∀ a, IsWord (text a))
    (back : ∀ a, ofText? (text a) = some a) (total : ∀ a, ∃ bytes, f.encode a = .ok bytes) :
    Token f text ofText? where
  level := level
  word := word
  back a _ _ := back a
  refuse a e he := by
    obtain ⟨bytes, hb⟩ := total a
    rw [hb] at he
    cases he
  valid _ a _ := total a

/-- A text stands for a value if it reads as the value's key. -/
theorem StrKey.decodeAs_eq_ok_iff {α : Type} {ofKey? : StrKey → Option α} {text : String} {a : α} :
    decodeAs ofKey? text = .ok a ↔ ∃ key, decode text = .ok key ∧ ofKey? key = some a := by
  rw [decodeAs, Except.bind_eq_ok_iff]
  constructor
  · rintro ⟨key, hkey, h⟩
    cases hk : ofKey? key with
    | none =>
      rw [hk] at h
      cases h
    | some b =>
      rw [hk] at h
      cases h
      exact ⟨key, hkey, hk⟩
  · rintro ⟨key, hkey, hk⟩
    refine ⟨key, hkey, ?_⟩
    rw [hk]
    rfl

/-! ## Accounts -/

namespace AccountId

/-- The key of an account reads back. -/
theorem ofText_toText (a : AccountId) : ofText a.toText = .ok a :=
  congrArg (AccountId.mk <$> ·) (StrKey.decode32_wrap .accountId a.key)

/-- A key is a word of letters and digits. -/
theorem isWord_toText (a : AccountId) : IsWord a.toText := StrKey.isWord_wrap _ _

/-- In text an account is its key, and in bytes a union with one arm. -/
theorem outlined {n : Nat} : Outlined n (.itself true) format := by
  refine .token (.union _ ⟨rfl, fun _ => rfl⟩ (.cons (.octets 32) .nil)) rfl ?_
  refine .of_total (fun a => rfl) isWord_toText (fun a => ?_) fun a => ⟨_, rfl⟩
  rw [ofText_toText]
  rfl

end AccountId

namespace MuxedAccount

/-- Either kind of key reads back as the account it is of. -/
theorem ofText_toText (a : MuxedAccount) : ofText a.toText = .ok a := by
  refine StrKey.decodeAs_eq_ok_iff.2 ⟨a.toStrKey, StrKey.decode_encode ?_, ?_⟩
  · cases a <;> exact True.intro
  · cases a <;> rfl

/-- So is a key with an id inside. -/
theorem isWord_toText (a : MuxedAccount) : IsWord a.toText := StrKey.isWord_wrap _ _

/-- In bytes the kinds of accounts are arms, and in text they are kinds of keys. -/
theorem outlined {n : Nat} : Outlined n (.itself true) format := by
  refine .token (.union _ ⟨rfl, fun a => by cases a <;> rfl⟩ (.cons (.octets 32) <| .cons
    (.and (.field "id" (.scalar .uint64)) (.field "ed25519" (.octets 32))) .nil)) rfl ?_
  refine .of_total (fun a => ?_) isWord_toText (fun a => ?_) fun a => ?_
  · cases a <;> rfl
  · rw [ofText_toText]
    rfl
  · cases a <;> exact ⟨_, rfl⟩

end MuxedAccount

/-! ## Signers -/

namespace SignerKey

/-- A signer has bytes if its key can be read. -/
theorem encode_eq_ok_iff (k : SignerKey) :
    (∃ bytes, format.encode k = .ok bytes) ↔ k.toStrKey.Fits := by
  cases k with
  | signedPayload key payload =>
    show (∃ bytes, Encoding.int32 3 ++ (Encoding.fixed key.toList ++
      Encoding.bytes maxSignedPayload payload) = .ok bytes) ↔ payload.length ≤ StrKey.maxPayload
    constructor
    · rintro ⟨bytes, h⟩
      obtain ⟨_, _, _, h1, _⟩ := Encoding.append_eq_ok_iff.1 h
      obtain ⟨_, _, _, h2, _⟩ := Encoding.append_eq_ok_iff.1 h1
      exact ((Encoding.bytes_eq_ok_iff (by decide)).1 h2).1
    · intro h
      have hmax : maxSignedPayload < UInt32.size := by decide
      have h2 := (Encoding.bytes_eq_ok_iff hmax).2 ⟨h, rfl⟩
      exact ⟨_, Encoding.append_of_ok rfl (Encoding.append_of_ok rfl h2)⟩
  | ed25519 key => exact ⟨fun _ => True.intro, fun _ => ⟨_, rfl⟩⟩
  | preAuthTx hash => exact ⟨fun _ => True.intro, fun _ => ⟨_, rfl⟩⟩
  | hashX hash => exact ⟨fun _ => True.intro, fun _ => ⟨_, rfl⟩⟩

/-- The key of a signer tells which signer it is. -/
theorem ofStrKey?_toStrKey (k : SignerKey) : ofStrKey? k.toStrKey = some k := by
  cases k <;> rfl

/-- A key that is one of a signer is that of the signer. -/
theorem toStrKey_of_ofStrKey? {key : StrKey} {k : SignerKey} (h : ofStrKey? key = some k) :
    k.toStrKey = key := by
  cases key <;> cases h <;> rfl

/-- The text of a signer reads back exactly if the signer has bytes. -/
theorem ofText_toText {k : SignerKey} (h : k.toStrKey.Fits) : ofText k.toText = .ok k :=
  StrKey.decodeAs_eq_ok_iff.2 ⟨k.toStrKey, StrKey.decode_encode h, ofStrKey?_toStrKey k⟩

/-- The key of a payload that is too long reads back as no signer at all. -/
theorem ofText_toText_of_not_fits {k : SignerKey} (h : ¬ k.toStrKey.Fits) (k' : SignerKey) :
    ofText k.toText ≠ .ok k' := by
  cases k with
  | signedPayload key payload =>
    intro hk
    obtain ⟨_, hd, _⟩ := StrKey.decodeAs_eq_ok_iff.1 hk
    obtain ⟨e, he⟩ := @StrKey.decode_encode_of_long key payload (Nat.lt_of_not_le h)
    rw [toText, toStrKey, he] at hd
    cases hd
  | ed25519 key => exact absurd True.intro h
  | preAuthTx hash => exact absurd True.intro h
  | hashX hash => exact absurd True.intro h

/-- What is read as a signer fits, since keys are checked when they are taken apart. -/
theorem fits_of_ofText {text : String} {k : SignerKey} (h : ofText text = .ok k) :
    k.toStrKey.Fits := by
  obtain ⟨key, hd, hk⟩ := StrKey.decodeAs_eq_ok_iff.1 h
  rw [toStrKey_of_ofStrKey? hk]
  exact StrKey.fits_of_decode hd

/-- The key of a signer is a word, whatever its length. -/
theorem isWord_toText (k : SignerKey) : IsWord k.toText := StrKey.isWord_wrap _ _

/-- The fourth kind has a payload, and a text form only if this is not too long. -/
theorem outlined {n : Nat} : Outlined n (.itself true) format := by
  refine .token (.union _ ⟨rfl, fun a => by cases a <;> rfl⟩ (.cons (.octets 32) <|
    .cons (.octets 32) <| .cons (.octets 32) <| .cons (.and (.field "ed25519" (.octets 32))
      (.field "payload" .bytes)) .nil)) rfl ?_
  constructor
  · intro k
    cases k <;> rfl
  · exact isWord_toText
  · intro k bytes hb
    rw [ofText_toText ((encode_eq_ok_iff k).1 ⟨bytes, hb⟩)]
    rfl
  · -- Without bytes the payload is too long, and then the text does not read.
    intro k e he
    have hn : ¬ k.toStrKey.Fits := by
      intro h
      obtain ⟨bytes, hb⟩ := (encode_eq_ok_iff k).2 h
      have he : format.encode k = .error e := he
      rw [hb] at he
      cases he
    cases hk : ofText k.toText with
    | error _ => rfl
    | ok k' => exact absurd hk (ofText_toText_of_not_fits hn k')
  · intro s k hs
    exact (encode_eq_ok_iff k).2 (fits_of_ofText (Except.toOption_eq_some_iff.1 hs))

end SignerKey

/-- The weight stands beside the key. -/
theorem Signer.outlined {n : Nat} : Outlined n (.fields ["key", "weight"]) Signer.format :=
  .at (.map (.and (.field "key" SignerKey.outlined) (.field "weight" (.scalar .uint32)))) rfl

end StellarTx
