/-
# Keys read back

The text of a key reads back as that key, unless it is bound to a payload that is too long; what
reads as a key has no such payload.  Main statements: `decode_encode`, `decode_encode_of_long` and
`fits_of_decode`.
-/
import StellarTx.Account
import StellarTx.Proofs.Format.Regular
import StellarTx.Proofs.Result
import StellarTx.Proofs.Text.Base32

namespace StellarTx.StrKey

/-! ## Checksums -/

/-- The version and the body come back from under their checksum. -/
theorem unwrap_wrap (version : UInt8) (body : List UInt8) :
    unwrap (wrap version body) = .ok (version, body) := by
  have hlen : (version :: body ++ Crc16.checksumBytes (version :: body)).length - 2 =
      (version :: body).length := by
    rw [List.length_append, Crc16.length_checksumBytes]
    omega
  have hshort : ¬ (version :: body ++ Crc16.checksumBytes (version :: body)).length < 3 := by
    rw [List.length_append, Crc16.length_checksumBytes, List.length_cons]
    omega
  have htake := @List.take_left _ (version :: body) (Crc16.checksumBytes (version :: body))
  have hdrop := @List.drop_left _ (version :: body) (Crc16.checksumBytes (version :: body))
  simp only [unwrap, wrap, Text.Base32.decode_encode, hlen, htake, hdrop, if_neg hshort, ne_eq,
    not_true_eq_false, if_false, Bool.not_true, Bool.false_eq_true]

/-! ## Bodies -/

/-- Whether a key can be read: its payload, if it has one, is not too long. -/
def Fits : StrKey → Prop
  | signedPayload _ payload => payload.length ≤ maxPayload
  | _ => True

theorem key32_toList (key : Octets 32) : key32 key.toList = .ok key := by
  rw [key32, Octets.ofList?_toList]

theorem readMuxed_body (key : Octets 32) (id : UInt64) :
    readMuxed (key.toList ++ bigEndian 8 id.toNat) = .ok (muxedAccount key id) := by
  have hlen : (key.toList ++ bigEndian 8 id.toNat).length = 40 := by
    rw [List.length_append, key.length_eq, length_bigEndian]
  have htake : (key.toList ++ bigEndian 8 id.toNat).take 32 = key.toList :=
    List.take_left' key.length_eq
  have hdrop : (key.toList ++ bigEndian 8 id.toNat).drop 32 = bigEndian 8 id.toNat :=
    List.drop_left' key.length_eq
  have hlt : id.toNat < Nat.pow 256 8 := Nat.lt_of_lt_of_le id.toNat_lt (by decide)
  have hid : UInt64.ofNat (ofBigEndian (bigEndian 8 id.toNat)) = id := by
    rw [ofBigEndian_bigEndian, Nat.mod_eq_of_lt hlt, UInt64.ofNat_toNat]
  rw [readMuxed, if_neg (by rw [hlen]; decide), htake, hdrop, key32_toList, hid]
  rfl

/-- The parts of the body of a signed payload. -/
theorem signedPayload_parts (key : Octets 32) (payload : List UInt8) :
    let body := (signedPayload key payload).body
    body.take 32 = key.toList ∧ (body.drop 32).take 4 = bigEndian 4 payload.length ∧
      body.drop 36 = padded payload ∧ 36 ≤ body.length := by
  have hk := key.length_eq
  have hb := length_bigEndian 4 payload.length
  refine ⟨?_, ?_, ?_, ?_⟩
  · rw [body, List.append_assoc, List.take_left' hk]
  · rw [body, List.append_assoc, List.drop_left' hk, List.take_left' hb]
  · have h36 : (key.toList ++ bigEndian 4 payload.length).length = 36 := by
      rw [List.length_append, hk, hb]
    rw [body, List.drop_left' h36]
  · rw [body, List.length_append, List.length_append, hk, hb]
    omega

/-- Reading a signed payload whose key is there: three checks, one after the other. -/
theorem readSignedPayload_eq {body : List UInt8} {key : Octets 32} (hlong : 36 ≤ body.length)
    (hkey : key32 (body.take 32) = .ok key) :
    let length := ofBigEndian ((body.drop 32).take 4)
    readSignedPayload body =
      if maxPayload < length ∨ (body.drop 36).length ≠ length + padLength length then
        .error (.length body.length)
      else if ((body.drop 36).drop length).any (· ≠ 0) then .error .encoding
      else .ok (signedPayload key ((body.drop 36).take length)) := by
  intro length
  simp only [readSignedPayload, if_neg (Nat.not_lt.2 hlong), hkey]
  by_cases h1 : maxPayload < length
  · rw [if_pos (Or.inl h1)]
    exact if_pos h1
  · by_cases h2 : (body.drop 36).length ≠ length + padLength length
    · rw [if_pos (Or.inr h2)]
      exact (if_neg h1).trans (if_pos h2)
    · rw [if_neg (not_or.2 ⟨h1, h2⟩)]
      refine (if_neg h1).trans ((if_neg h2).trans ?_)
      split <;> rfl

theorem readSignedPayload_body {key : Octets 32} {payload : List UInt8}
    (h : payload.length ≤ maxPayload) :
    readSignedPayload (signedPayload key payload).body = .ok (signedPayload key payload) := by
  obtain ⟨htake, hlen, hrest, hlong⟩ := signedPayload_parts key payload
  have hkey : key32 ((signedPayload key payload).body.take 32) = .ok key := by
    rw [htake, key32_toList]
  have hmax : payload.length ≤ 64 := h
  have hn : ofBigEndian (bigEndian 4 payload.length) = payload.length := by
    rw [ofBigEndian_bigEndian]
    exact Nat.mod_eq_of_lt (Nat.lt_of_le_of_lt hmax (by decide))
  have hdrop : (padded payload).drop payload.length =
      List.replicate (padLength payload.length) 0 := by
    rw [padded, List.drop_left]
  have hzero : (List.replicate (padLength payload.length) (0 : UInt8)).any (· ≠ 0) = false := by
    simp
  have hdata : (padded payload).take payload.length = payload := by
    rw [padded, List.take_left]
  rw [readSignedPayload_eq hlong hkey, hlen, hn, hrest, hdrop, hzero, hdata, length_padded,
    if_neg, if_neg Bool.false_ne_true]
  rintro (h1 | h1)
  · omega
  · exact h1 rfl

/-- A payload that is too long does not fit the length that is written before it. -/
theorem readSignedPayload_body_of_long {key : Octets 32} {payload : List UInt8}
    (h : maxPayload < payload.length) :
    ∃ e, readSignedPayload (signedPayload key payload).body = .error e := by
  obtain ⟨htake, hlen, hrest, hlong⟩ := signedPayload_parts key payload
  have hkey : key32 ((signedPayload key payload).body.take 32) = .ok key := by
    rw [htake, key32_toList]
  have hn : ofBigEndian (bigEndian 4 payload.length) = payload.length % 4294967296 :=
    ofBigEndian_bigEndian 4 payload.length
  refine ⟨.length (signedPayload key payload).body.length, ?_⟩
  rw [readSignedPayload_eq hlong hkey, hlen, hn, hrest, length_padded, if_pos]
  by_cases hmost : maxPayload < payload.length % 4294967296
  · exact Or.inl hmost
  · -- The length does not show how long the payload is, but what follows it does.
    right
    have hpad := padLength_lt (payload.length % 4294967296)
    have hmax : maxPayload = 64 := rfl
    omega

/-- What is read as a signed payload is not too long. -/
theorem length_of_readSignedPayload {body payload : List UInt8} {key : Octets 32}
    (h : readSignedPayload body = .ok (signedPayload key payload)) :
    payload.length ≤ maxPayload := by
  by_cases hshort : body.length < 36
  · rw [readSignedPayload, if_pos hshort] at h
    cases h
  · have hlen : (body.take 32).length = 32 := by
      rw [List.length_take]
      omega
    have hkey : key32 (body.take 32) = .ok ⟨body.take 32, hlen⟩ := key32_toList ⟨_, hlen⟩
    rw [readSignedPayload_eq (Nat.le_of_not_lt hshort) hkey] at h
    split at h
    · cases h
    · next hfit =>
      split at h
      · cases h
      · cases h
        rw [not_or] at hfit
        rw [List.length_take]
        omega

/-! ## Keys -/

theorem ofBody_body {key : StrKey} (h : key.Fits) : ofBody key.kind key.body = .ok key := by
  cases key with
  | muxedAccount key id => exact readMuxed_body key id
  | signedPayload key payload => exact readSignedPayload_body h
  | accountId key =>
    show accountId <$> key32 key.toList = _
    rw [key32_toList]
    rfl
  | secretSeed key =>
    show secretSeed <$> key32 key.toList = _
    rw [key32_toList]
    rfl
  | preAuthTx key =>
    show preAuthTx <$> key32 key.toList = _
    rw [key32_toList]
    rfl
  | hashX key =>
    show hashX <$> key32 key.toList = _
    rw [key32_toList]
    rfl
  | contract key =>
    show contract <$> key32 key.toList = _
    rw [key32_toList]
    rfl

/-- Reading the text of a key comes down to reading its body. -/
theorem decode_encode_eq (key : StrKey) : decode key.encode = ofBody key.kind key.body := by
  rw [decode, encode, unwrap_wrap]
  simp only [Bind.bind, Except.bind, Kind.ofVersion?_version]

/-- A key without an overlong payload reads back. -/
theorem decode_encode {key : StrKey} (h : key.Fits) : decode key.encode = .ok key := by
  rw [decode_encode_eq, ofBody_body h]

/-- A key with an overlong payload does not. -/
theorem decode_encode_of_long {key : Octets 32} {payload : List UInt8}
    (h : maxPayload < payload.length) :
    ∃ e, decode (signedPayload key payload).encode = .error e := by
  rw [decode_encode_eq]
  exact readSignedPayload_body_of_long h

theorem fits_of_ofBody {kind : Kind} {body : List UInt8} {key : StrKey}
    (h : ofBody kind body = .ok key) : key.Fits := by
  cases key with
  | signedPayload key payload =>
    cases kind with
    | signedPayload => exact length_of_readSignedPayload h
    | muxedAccount =>
      have h : readMuxed body = _ := h
      rw [readMuxed] at h
      split at h
      · cases h
      · obtain ⟨_, _, hk⟩ := Except.bind_eq_ok_iff.1 h
        cases hk
    | _ =>
      obtain ⟨_, _, hk⟩ := Except.map_eq_ok_iff.1 h
      cases hk
  | _ => exact True.intro

/-- What reads as a key has no overlong payload. -/
theorem fits_of_decode {text : String} {key : StrKey} (h : decode text = .ok key) : key.Fits := by
  obtain ⟨⟨version, body⟩, _, hk⟩ := Except.bind_eq_ok_iff.1 h
  cases hv : Kind.ofVersion? version with
  | none =>
    simp only [hv] at hk
    cases hk
  | some kind =>
    simp only [hv] at hk
    exact fits_of_ofBody hk

/-- The 32 bytes of a key of the right kind read back. -/
theorem decode32_wrap (kind : Kind) (key : Octets 32) :
    decode32 kind (wrap kind.version key.toList) = .ok key := by
  rw [decode32, unwrap_wrap]
  exact (if_neg fun h => h rfl).trans (key32_toList key)

/-! ## Words -/

theorem isWord_symbol : ∀ n : Fin 32, Text.isBlank (Text.Base32.symbol n) = false ∧
    Text.Base32.symbol n ≠ '"' := by decide

/-- The text of a key has neither blanks nor quotes. -/
theorem mem_wrap {version : UInt8} {body : List UInt8} {c : Char}
    (h : c ∈ (wrap version body).toList) : Text.isBlank c = false ∧ c ≠ '"' := by
  obtain ⟨n, rfl⟩ := Text.Base32.exists_of_mem_encode h
  exact isWord_symbol n

theorem isWord_wrap (version : UInt8) (body : List UInt8) : IsWord (wrap version body) :=
  ⟨fun h => (mem_wrap (List.mem_of_mem_head? h)).2 rfl, fun _ hc => (mem_wrap hc).1⟩

end StellarTx.StrKey
