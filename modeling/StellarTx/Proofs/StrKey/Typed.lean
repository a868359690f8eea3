/-
# Keys of one kind

A reader that takes keys of one kind, or of a few, agrees with the one that takes every key.  It
reads what that one reads as a key of its kinds, and refuses the others with their own version byte:
`typed_agree`.
-/
import StellarTx.Proofs.Account
import StellarTx.Proofs.StrKey.Inverse

namespace StellarTx

namespace StrKey

variable {text : String} {kind : Kind} {key : StrKey}

/-! ## What is found under the checksum -/

theorem version_inj {kind kind' : Kind} (h : kind.version = kind'.version) : kind = kind' := by
  have hof := congrArg Kind.ofVersion? h
  rw [Kind.ofVersion?_version, Kind.ofVersion?_version] at hof
  exact Option.some.inj hof

/-- Under the checksum of a key stand its version and its body. -/
theorem unwrap_of_decode_eq_ok (h : decode text = .ok key) :
    unwrap text = .ok (key.kind.version, key.body) :=
  unwrap_eq_ok_iff.2 (decode_eq_ok_iff.1 h).1

/-! ## Keys of 32 bytes -/

theorem decode32_eq_ok_iff {bytes : Octets 32} :
    decode32 kind text = .ok bytes ↔ wrap kind.version bytes.toList = text := by
  rw [decode32, Except.bind_eq_ok_iff]
  constructor
  · rintro ⟨⟨version, body⟩, hread, h⟩
    obtain ⟨hversion, hkey⟩ := Except.check_bind_eq_ok_iff.1 h
    rw [← Decidable.not_not.1 hversion, key32_eq_ok_iff.1 hkey]
    exact unwrap_eq_ok_iff.1 hread
  · intro h
    exact ⟨_, unwrap_eq_ok_iff.2 h,
      Except.check_bind_eq_ok_iff.2 ⟨not_not_intro rfl, key32_toList bytes⟩⟩

/-- The reader of a kind whose bodies are 32 bytes reads the keys of this kind. -/
theorem decode32_eq_ok_iff_decode (make : Octets 32 → StrKey) {bytes : Octets 32}
    (hkind : (make bytes).kind = kind) (hbody : (make bytes).body = bytes.toList)
    (hfits : (make bytes).Fits) :
    decode32 kind text = .ok bytes ↔ decode text = .ok (make bytes) := by
  rw [decode32_eq_ok_iff, decode_eq_ok_iff, and_iff_left hfits, encode, hkind, hbody]

theorem decode32_of_other (h : decode text = .ok key) (hother : key.kind ≠ kind) :
    decode32 kind text = .error (.version key.kind.version) := by
  rw [decode32, unwrap_of_decode_eq_ok h]
  exact if_pos fun hversion => hother (version_inj hversion)

/-! ## Multiplexed accounts -/

theorem decodeMuxedAccount_eq_ok_iff {account : Octets 32} {id : UInt64} :
    decodeMuxedAccount text = .ok (account, id) ↔ decode text = .ok (.muxedAccount account id) := by
  rw [decodeMuxedAccount, Except.bind_eq_ok_iff]
  constructor
  · rintro ⟨key, hkey, h⟩
    cases key <;> cases h
    exact hkey
  · intro h
    exact ⟨_, h, rfl⟩

theorem decodeMuxedAccount_of_other (h : decode text = .ok key)
    (hother : key.kind ≠ .muxedAccount) :
    decodeMuxedAccount text = .error (.version key.kind.version) := by
  rw [decodeMuxedAccount, h]
  cases key with
  | muxedAccount account id => exact absurd rfl hother
  | _ => rfl

/-! ## Keys of a few kinds -/

section
variable {α : Type} {ofKey? : StrKey → Option α} {toKey : α → StrKey}

/-- What is read as a value is the text of its key, if that key can be read. -/
theorem decodeAs_eq_ok_iff_encode (back : ∀ key a, ofKey? key = some a ↔ toKey a = key) {a : α} :
    decodeAs ofKey? text = .ok a ↔ (toKey a).encode = text ∧ (toKey a).Fits := by
  rw [decodeAs_eq_ok_iff]
  constructor
  · rintro ⟨key, hkey, ha⟩
    rw [(back key a).1 ha]
    exact decode_eq_ok_iff.1 hkey
  · intro h
    exact ⟨toKey a, decode_eq_ok_iff.2 h, (back _ a).2 rfl⟩

/-- A key that is of no kind of the values' keys is refused with its version. -/
theorem decodeAs_of_other (back : ∀ key a, ofKey? key = some a ↔ toKey a = key) {kinds : List Kind}
    (hkinds : ∀ a, (toKey a).kind ∈ kinds) (h : decode text = .ok key)
    (hother : key.kind ∉ kinds) :
    decodeAs ofKey? text = .error (.version key.kind.version) := by
  have hnone : ofKey? key = none := by
    apply Option.eq_none_iff_forall_ne_some.2
    intro a ha
    rw [← (back key a).1 ha] at hother
    exact hother (hkinds a)
  rw [decodeAs]
  refine (Except.bind_of_ok h).trans ?_
  rw [hnone]
  rfl

end

end StrKey

/-! ## Accounts and signers -/

namespace AccountId

/-- The kinds of keys that are accounts. -/
def kinds : List StrKey.Kind := [.accountId]

theorem ofText_eq_ok_iff {text : String} {a : AccountId} :
    ofText text = .ok a ↔ a.toText = text := by
  rw [ofText, Except.map_eq_ok_iff]
  constructor
  · rintro ⟨key, hkey, rfl⟩
    exact StrKey.decode32_eq_ok_iff.1 hkey
  · intro h
    exact ⟨a.key, StrKey.decode32_eq_ok_iff.2 h, rfl⟩

theorem ofText_of_other {text : String} {key : StrKey} (h : StrKey.decode text = .ok key)
    (hother : key.kind ∉ kinds) : ofText text = .error (.version key.kind.version) :=
  Except.map_of_error (StrKey.decode32_of_other h fun he => hother (List.mem_singleton.2 he))

end AccountId

namespace MuxedAccount

/-- The kinds of keys that are accounts, plain or multiplexed. -/
def kinds : List StrKey.Kind := [.accountId, .muxedAccount]

theorem ofStrKey?_eq_some_iff (key : StrKey) (a : MuxedAccount) :
    ofStrKey? key = some a ↔ a.toStrKey = key := by
  constructor
  · intro h
    cases key <;> cases h <;> rfl
  · rintro rfl
    cases a <;> rfl

theorem ofText_eq_ok_iff {text : String} {a : MuxedAccount} :
    ofText text = .ok a ↔ a.toText = text := by
  have hfits : a.toStrKey.Fits := by cases a <;> exact True.intro
  exact (StrKey.decodeAs_eq_ok_iff_encode ofStrKey?_eq_some_iff).trans (and_iff_left hfits)

theorem kind_toStrKey_mem (a : MuxedAccount) : a.toStrKey.kind ∈ kinds := by
  cases a <;> simp [kinds, toStrKey, StrKey.kind]

theorem ofText_of_other {text : String} {key : StrKey} (h : StrKey.decode text = .ok key)
    (hother : key.kind ∉ kinds) : ofText text = .error (.version key.kind.version) :=
  StrKey.decodeAs_of_other ofStrKey?_eq_some_iff kind_toStrKey_mem h hother

end MuxedAccount

namespace SignerKey

/-- The kinds of keys that are signers. -/
def kinds : List StrKey.Kind := [.accountId, .preAuthTx, .hashX, .signedPayload]

theorem ofStrKey?_eq_some_iff (key : StrKey) (k : SignerKey) :
    ofStrKey? key = some k ↔ k.toStrKey = key := by
  constructor
  · exact toStrKey_of_ofStrKey?
  · rintro rfl
    exact ofStrKey?_toStrKey k

theorem fits_toStrKey_iff {k : SignerKey} :
    k.toStrKey.Fits ↔ ∀ key payload, k = .signedPayload key payload → payload.length ≤ 64 := by
  cases k with
  | signedPayload key payload =>
    constructor
    · rintro h _ _ ⟨⟩
      exact h
    · intro h
      exact h key payload rfl
  | _ => exact iff_of_true True.intro nofun

theorem ofText_eq_ok_iff {text : String} {k : SignerKey} :
    ofText text = .ok k ↔ k.toText = text ∧ k.toStrKey.Fits :=
  StrKey.decodeAs_eq_ok_iff_encode ofStrKey?_eq_some_iff

theorem kind_toStrKey_mem (k : SignerKey) : k.toStrKey.kind ∈ kinds := by
  cases k <;> simp [kinds, toStrKey, StrKey.kind]

theorem ofText_of_other {text : String} {key : StrKey} (h : StrKey.decode text = .ok key)
    (hother : key.kind ∉ kinds) : ofText text = .error (.version key.kind.version) :=
  StrKey.decodeAs_of_other ofStrKey?_eq_some_iff kind_toStrKey_mem h hother

end SignerKey

/-! ## Agreement -/

namespace StrKey

/-- Every reader of some kinds of keys agrees with the reader of all.  It reads what that one reads
as a key of these kinds: for an account and for a signer, whose payload is at most 64 bytes long,
this is their text.  A key of another kind is refused with its own version byte. -/
theorem typed_agree (text : String) :
    (∀ key, decodeAccountId text = .ok key ↔ decode text = .ok (.accountId key)) ∧
    (∀ seed, decodeSecretSeed text = .ok seed ↔ decode text = .ok (.secretSeed seed)) ∧
    (∀ id, decodeContract text = .ok id ↔ decode text = .ok (.contract id)) ∧
    (∀ key id, decodeMuxedAccount text = .ok (key, id) ↔
      decode text = .ok (.muxedAccount key id)) ∧
    (∀ a, AccountId.ofText text = .ok a ↔ a.toText = text) ∧
    (∀ a, MuxedAccount.ofText text = .ok a ↔ a.toText = text) ∧
    (∀ k, SignerKey.ofText text = .ok k ↔ k.toText = text ∧
      ∀ key payload, k = .signedPayload key payload → payload.length ≤ 64) ∧
    (∀ key, decode text = .ok key →
      (∀ kind ≠ key.kind, decode32 kind text = .error (.version key.kind.version)) ∧
      (key.kind ≠ .muxedAccount →
        decodeMuxedAccount text = .error (.version key.kind.version)) ∧
      (key.kind ∉ AccountId.kinds →
        AccountId.ofText text = .error (.version key.kind.version)) ∧
      (key.kind ∉ MuxedAccount.kinds →
        MuxedAccount.ofText text = .error (.version key.kind.version)) ∧
      (key.kind ∉ SignerKey.kinds →
        SignerKey.ofText text = .error (.version key.kind.version))) := by
  refine ⟨fun key => ?_, fun seed => ?_, fun id => ?_, fun key id => decodeMuxedAccount_eq_ok_iff,
    fun a => AccountId.ofText_eq_ok_iff, fun a => MuxedAccount.ofText_eq_ok_iff, fun k => ?_,
    fun key h => ⟨fun kind hkind => decode32_of_other h hkind.symm, decodeMuxedAccount_of_other h,
      AccountId.ofText_of_other h, MuxedAccount.ofText_of_other h, SignerKey.ofText_of_other h⟩⟩
  · exact decode32_eq_ok_iff_decode .accountId rfl rfl True.intro
  · exact decode32_eq_ok_iff_decode .secretSeed rfl rfl True.intro
  · exact decode32_eq_ok_iff_decode .contract rfl rfl True.intro
  · rw [SignerKey.ofText_eq_ok_iff, SignerKey.fits_toStrKey_iff]

/-- A secret seed is read as a seed, but neither as an account nor as a signer nor as a contract; a
signer with a payload is read. -/
theorem typed_agree_seed :
    decodeSecretSeed (secretSeed (.replicate 32 7)).encode = .ok (.replicate 32 7) ∧
    AccountId.ofText (secretSeed (.replicate 32 7)).encode = .error (.version 0x90) ∧
    MuxedAccount.ofText (secretSeed (.replicate 32 7)).encode = .error (.version 0x90) ∧
    SignerKey.ofText (secretSeed (.replicate 32 7)).encode = .error (.version 0x90) ∧
    decodeContract (secretSeed (.replicate 32 7)).encode = .error (.version 0x90) ∧
    SignerKey.ofText (SignerKey.signedPayload (.replicate 32 1) [1, 2, 3]).toText =
      .ok (.signedPayload (.replicate 32 1) [1, 2, 3]) := by
  have hseed : decode (secretSeed (.replicate 32 7)).encode = .ok (.secretSeed (.replicate 32 7)) :=
    decode_encode True.intro
  obtain ⟨_, hsecret, _, _, _, _, _, hother⟩ := typed_agree (secretSeed (.replicate 32 7)).encode
  obtain ⟨hfixed, _, haccount, hmuxed, hsigner⟩ := hother _ hseed
  refine ⟨(hsecret _).2 hseed, haccount ?_, hmuxed ?_, hsigner ?_, hfixed .contract nofun, ?_⟩
  · show Kind.secretSeed ∉ AccountId.kinds
    decide
  · show Kind.secretSeed ∉ MuxedAccount.kinds
    decide
  · show Kind.secretSeed ∉ SignerKey.kinds
    decide
  · obtain ⟨_, _, _, _, _, _, hpayload, _⟩ :=
      typed_agree (SignerKey.signedPayload (.replicate 32 1) [1, 2, 3]).toText
    refine (hpayload _).2 ⟨rfl, ?_⟩
    rintro _ _ ⟨⟩
    decide

end StrKey

end StellarTx
