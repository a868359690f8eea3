/-
# Keys and their texts

A text reads as a key exactly if it is the text of that key (`decode_eq_ok_iff`): the alphabet, the
unused bits, the checksum, the version and the layout of the body leave no second spelling.
-/
import StellarTx.Proofs.StrKey
import StellarTx.Proofs.Text.Base32.Number

namespace StellarTx.StrKey

/-! ## Checksums -/

/-- A version and a body are found under a checksum exactly in the text that wraps them. -/
theorem unwrap_eq_ok_iff {text : String} {version : UInt8} {body : List UInt8} :
    unwrap text = .ok (version, body) ↔ wrap version body = text := by
  constructor
  · intro h
    unfold unwrap at h
    cases hread : Text.Base32.decode text with
    | error foreign =>
      rw [hread] at h
      cases h
    | ok decoded =>
      obtain ⟨bytes, canonical⟩ := decoded
      simp only [hread] at h
      by_cases hshort : bytes.length < 3
      · rw [if_pos hshort] at h
        cases h
      · rw [if_neg hshort] at h
        by_cases hsum : bytes.drop (bytes.length - 2) =
            Crc16.checksumBytes (bytes.take (bytes.length - 2))
        · rw [if_neg (fun hne => hne hsum)] at h
          cases canonical with
          | false => cases h
          | true =>
            cases hcovered : bytes.take (bytes.length - 2) with
            | nil =>
              rw [hcovered] at h
              cases h
            | cons first rest =>
              rw [hcovered] at h hsum
              cases h
              have hbytes : bytes = version :: body ++ Crc16.checksumBytes (version :: body) := by
                rw [← hsum, ← hcovered, List.take_append_drop]
              rw [wrap, ← hbytes]
              exact Text.Base32.encode_of_decode hread
        · rw [if_pos hsum] at h
          cases h
  · rintro rfl
    exact unwrap_wrap version body

theorem wrap_inj {version version' : UInt8} {body body' : List UInt8}
    (h : wrap version body = wrap version' body') : version = version' ∧ body = body' := by
  have hread := unwrap_wrap version body
  rw [h, unwrap_wrap] at hread
  cases hread
  exact ⟨rfl, rfl⟩

theorem version_of_ofVersion? {version : UInt8} {kind : Kind}
    (h : Kind.ofVersion? version = some kind) : kind.version = version :=
  eq_of_beq (List.find?_some (p := fun kind : Kind => kind.version == version) h)

/-! ## Bodies -/

theorem key32_eq_ok_iff {body : List UInt8} {key : Octets 32} :
    key32 body = .ok key ↔ key.toList = body := by
  rw [← Octets.ofList?_eq_some_iff]
  unfold key32
  cases Octets.ofList? 32 body with
  | none =>
    constructor
    · intro h; cases h
    · intro h; cases h
  | some k =>
    constructor
    · intro h; cases h; rfl
    · intro h; cases h; rfl

/-- The body of a multiplexed account is its key and its id. -/
theorem body_of_readMuxed {body : List UInt8} {key : StrKey} (h : readMuxed body = .ok key) :
    key.kind = .muxedAccount ∧ key.body = body := by
  unfold readMuxed at h
  by_cases hlen : body.length = 40
  · rw [if_neg (fun hne => hne hlen)] at h
    obtain ⟨account, haccount, hkey⟩ := Except.bind_eq_ok_iff.1 h
    cases hkey
    have hdrop : (body.drop 32).length = 8 := by
      rw [List.length_drop, hlen]
    have hlt : ofBigEndian (body.drop 32) < 18446744073709551616 := by
      have := ofBigEndian_lt (body.drop 32)
      rw [hdrop] at this
      exact this
    have hid : bigEndian 8 (UInt64.ofNat (ofBigEndian (body.drop 32))).toNat = body.drop 32 := by
      rw [UInt64.toNat_ofNat_of_lt' hlt]
      have := bigEndian_ofBigEndian (body.drop 32)
      rwa [hdrop] at this
    refine ⟨rfl, ?_⟩
    show account.toList ++ bigEndian 8 _ = body
    rw [hid, key32_eq_ok_iff.1 haccount, List.take_append_drop]
  · rw [if_pos hlen] at h
    cases h

/-- Zeros behind data that leave no doubt about its length are its padding. -/
theorem padded_take {rest : List UInt8} {length : Nat}
    (hlen : rest.length = length + padLength length)
    (hzero : (rest.drop length).any (· ≠ 0) = false) : padded (rest.take length) = rest := by
  have htake : (rest.take length).length = length := by
    rw [List.length_take]
    omega
  have hdrop : rest.drop length = List.replicate (padLength length) 0 := by
    rw [List.eq_replicate_iff]
    constructor
    · rw [List.length_drop]
      omega
    · intro byte hbyte
      have := List.any_eq_false.1 hzero byte hbyte
      simpa using this
  rw [padded, htake, ← hdrop, List.take_append_drop]

/-- The body of a signed payload is its key, the length of the payload and the padded payload. -/
theorem body_of_readSignedPayload {body : List UInt8} {key : StrKey}
    (h : readSignedPayload body = .ok key) : key.kind = .signedPayload ∧ key.body = body := by
  by_cases hshort : body.length < 36
  · rw [readSignedPayload, if_pos hshort] at h
    cases h
  · have hkey : key32 (body.take 32) = .ok ⟨body.take 32, by rw [List.length_take]; omega⟩ :=
      key32_eq_ok_iff.2 rfl
    rw [readSignedPayload_eq (Nat.le_of_not_lt hshort) hkey] at h
    split at h
    · cases h
    · next hfit =>
      split at h
      · cases h
      · next hzero =>
        cases h
        rw [not_or] at hfit
        obtain ⟨_, hrest⟩ := hfit
        have hrest := Decidable.of_not_not hrest
        have hfour : ((body.drop 32).take 4).length = 4 := by
          rw [List.length_take, List.length_drop]
          omega
        have hlength := bigEndian_ofBigEndian ((body.drop 32).take 4)
        rw [hfour] at hlength
        refine ⟨rfl, ?_⟩
        show body.take 32 ++ bigEndian 4 ((body.drop 36).take _).length ++ padded _ = body
        rw [padded_take hrest (Bool.eq_false_iff.2 hzero), List.length_take,
          Nat.min_eq_left (by omega), hlength, List.append_assoc]
        have h36 : body.drop 36 = (body.drop 32).drop 4 := by rw [List.drop_drop]
        rw [h36, List.take_append_drop, List.take_append_drop]

/-- A key is of the kind that its body is read as, and has that body. -/
theorem body_of_ofBody {kind : Kind} {body : List UInt8} {key : StrKey}
    (h : ofBody kind body = .ok key) : key.kind = kind ∧ key.body = body := by
  cases kind with
  | muxedAccount => exact body_of_readMuxed h
  | signedPayload => exact body_of_readSignedPayload h
  | _ =>
    obtain ⟨key, hkey, rfl⟩ := Except.map_eq_ok_iff.1 h
    exact ⟨rfl, key32_eq_ok_iff.1 hkey⟩

/-- Two payloads of any length do not share a body. -/
theorem body_signedPayload_inj {key key' : Octets 32} {payload payload' : List UInt8}
    (h : (signedPayload key payload).body = (signedPayload key' payload').body) :
    key = key' ∧ payload = payload' := by
  obtain ⟨hkey, hcount, hrest, _⟩ := signedPayload_parts key payload
  obtain ⟨hkey', hcount', hrest', _⟩ := signedPayload_parts key' payload'
  rw [h] at hkey hcount hrest
  have hpadded : padded payload = padded payload' := hrest.symm.trans hrest'
  have hnumber := congrArg ofBigEndian (hcount.symm.trans hcount')
  rw [ofBigEndian_bigEndian, ofBigEndian_bigEndian] at hnumber
  have hmod : payload.length % 4294967296 = payload'.length % 4294967296 := hnumber
  have hsum := congrArg List.length hpadded
  rw [length_padded, length_padded] at hsum
  -- The lengths agree modulo four, so that they are padded alike.
  have hlen : payload.length = payload'.length := by
    have hpad : padLength payload.length = padLength payload'.length := by
      unfold padLength
      omega
    omega
  refine ⟨Octets.toList_inj.1 (hkey.symm.trans hkey'), ?_⟩
  have htake := congrArg (List.take payload.length) hpadded
  rw [padded, List.take_left, hlen, padded, List.take_left] at htake
  exact htake

theorem exists_of_kind_eq_signedPayload {key : StrKey} (h : key.kind = .signedPayload) :
    ∃ account payload, key = signedPayload account payload := by
  cases key with
  | signedPayload account payload => exact ⟨account, payload, rfl⟩
  | _ => cases h

/-- Only a signed payload can be too long. -/
theorem fits_of_kind_ne {key : StrKey} (h : key.kind ≠ .signedPayload) : key.Fits := by
  cases key with
  | signedPayload account payload => exact absurd rfl h
  | _ => exact True.intro

/-- Two keys of one kind do not share a body. -/
theorem eq_of_body {key key' : StrKey} (hkind : key.kind = key'.kind)
    (hbody : key.body = key'.body) : key = key' := by
  by_cases hsigned : key.kind = .signedPayload
  · obtain ⟨account, payload, rfl⟩ := exists_of_kind_eq_signedPayload hsigned
    obtain ⟨account', payload', rfl⟩ := exists_of_kind_eq_signedPayload (hkind.symm.trans hsigned)
    obtain ⟨rfl, rfl⟩ := body_signedPayload_inj hbody
    rfl
  · have hread := ofBody_body (fits_of_kind_ne hsigned)
    rw [hkind] at hsigned
    rw [hkind, hbody, ofBody_body (fits_of_kind_ne hsigned)] at hread
    exact (Except.ok.inj hread).symm

/-! ## Keys -/

/-- A text reads as a key exactly if it is the text of the key and the key has no overlong
payload. -/
theorem decode_eq_ok_iff {text : String} {key : StrKey} :
    decode text = .ok key ↔ key.encode = text ∧ key.Fits := by
  constructor
  · intro h
    refine ⟨?_, fits_of_decode h⟩
    obtain ⟨⟨version, body⟩, hread, hk⟩ := Except.bind_eq_ok_iff.1 h
    cases hversion : Kind.ofVersion? version with
    | none =>
      simp only [hversion] at hk
      cases hk
    | some kind =>
      simp only [hversion] at hk
      obtain ⟨hkind, hbody⟩ := body_of_ofBody hk
      rw [encode, hkind, hbody, version_of_ofVersion? hversion]
      exact unwrap_eq_ok_iff.1 hread
  · rintro ⟨rfl, hfits⟩
    exact decode_encode hfits

/-- Two keys do not share a text, not even if they are too long to be read. -/
theorem encode_inj {key key' : StrKey} (h : key.encode = key'.encode) : key = key' := by
  obtain ⟨hversion, hbody⟩ := wrap_inj h
  have hkind := congrArg Kind.ofVersion? hversion
  rw [Kind.ofVersion?_version, Kind.ofVersion?_version] at hkind
  exact eq_of_body (Option.some.inj hkind) hbody

/-- Reading and writing keys are inverse to each other: a text reads as a key exactly if it is the
text of the key and a payload, if the key has one, is at most 64 bytes long.  So every key without a
longer payload reads back, no two texts read as one key, and no two keys share a text. -/
theorem decode_inverts_encode :
    (∀ (text : String) (key : StrKey), decode text = .ok key ↔ key.encode = text ∧ key.Fits) ∧
    (∀ key : StrKey, key.Fits → decode key.encode = .ok key) ∧
    (∀ (text text' : String) (key : StrKey),
      decode text = .ok key → decode text' = .ok key → text = text') ∧
    (∀ key key' : StrKey, key.encode = key'.encode → key = key') := by
  refine ⟨fun text key => decode_eq_ok_iff, fun key => decode_encode, ?_,
    fun key key' => encode_inj⟩
  intro text text' key h h'
  rw [← (decode_eq_ok_iff.1 h).1, ← (decode_eq_ok_iff.1 h').1]

/-- The text of the account whose key is all zeros. -/
def zeroAccountText : String := "GAAAAAAAAAAAAAAAAAAAAAAAAAAAAAAAAAAAAAAAAAAAAAAAAAAAAWHF"

theorem decode_inverts_encode_zeroAccount :
    (accountId (.replicate 32 0)).encode = zeroAccountText ∧ (accountId (.replicate 32 0)).Fits ∧
    decode zeroAccountText = .ok (accountId (.replicate 32 0)) ∧
    decode (signedPayload (.replicate 32 0) [1, 2, 3]).encode =
      .ok (signedPayload (.replicate 32 0) [1, 2, 3]) := by
  have htext : (accountId (.replicate 32 0)).encode = zeroAccountText := by decide +kernel
  have hfits : (signedPayload (.replicate 32 0) [1, 2, 3]).Fits := by
    show 3 ≤ 64
    decide
  obtain ⟨hiff, hback, _⟩ := decode_inverts_encode
  exact ⟨htext, trivial, (hiff _ _).2 ⟨htext, trivial⟩, hback _ hfits⟩

end StellarTx.StrKey
