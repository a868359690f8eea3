/-
# Assets read back

The text of a code leaves zeros out and escapes what is no letter or digit; reading undoes both,
and the number of bytes tells which kind of code it is.  Assets, and everything that is made of
them, are regular.
-/
import StellarTx.Proofs.Account
import StellarTx.Proofs.Format.Union
import StellarTx.Proofs.Text.Zeros
import StellarTx.Operation.Trade

namespace StellarTx

open Format (Outline Outlined OutlinedArms Token union arm field octets)

/-! ## Codes -/

namespace AssetCode

/-- The character of a letter or digit. -/
theorem isPlain_spec {byte : UInt8} (h : isPlain byte = true) :
    plainByte? (Char.ofNat byte.toNat) = some byte ∧ Char.ofNat byte.toNat ≠ '\\' ∧
      Text.isBlank (Char.ofNat byte.toNat) = false ∧ Char.ofNat byte.toNat ≠ '"' ∧
      Char.ofNat byte.toNat ≠ ':' := by
  have hlt : byte.toNat < 256 := byte.toNat_lt
  have hc : (Char.ofNat byte.toNat).toNat = byte.toNat := by
    rw [Char.ofNat, dif_pos (Or.inl (by omega))]
    rfl
  simp only [isPlain, Bool.or_eq_true, Bool.and_eq_true, decide_eq_true_eq, UInt8.le_iff_toNat_le,
    UInt8.reduceToNat] at h
  have hne (d : Char) (hd : byte.toNat ≠ d.toNat) : Char.ofNat byte.toNat ≠ d := fun e =>
    hd (by rw [← hc, e])
  have hal : (Char.ofNat byte.toNat).isAlphanum = true := by
    delta Char.isAlphanum Char.isAlpha Char.isUpper Char.isLower Char.isDigit
    simp only [Bool.or_eq_true, Bool.and_eq_true, decide_eq_true_eq, ge_iff_le,
      UInt32.le_iff_toNat_le, Char.toNat_val, hc, Char.reduceToNat]
    omega
  refine ⟨?_, hne '\\' ?_, Text.isBlank_eq_false ?_ ?_, hne '"' ?_, hne ':' ?_⟩
  · rw [plainByte?, if_pos hal, hc, UInt8.ofNat_toNat]
  · show byte.toNat ≠ 92
    omega
  · omega
  · omega
  · show byte.toNat ≠ 34
    omega
  · show byte.toNat ≠ 58
    omega

/-- What one byte of a code looks like in text. -/
theorem escapeByte_spec {byte : UInt8} {c : Char} (h : c ∈ escapeByte byte) :
    Text.isBlank c = false ∧ c ≠ '"' ∧ c ≠ ':' := by
  have hdigit : ∀ n : Fin 16, Text.isBlank (Text.Hex.digit n) = false ∧
      Text.Hex.digit n ≠ '"' ∧ Text.Hex.digit n ≠ ':' := by decide
  have hlt : byte.toNat < 256 := byte.toNat_lt
  unfold escapeByte at h
  split at h
  · next hp =>
    rw [List.mem_singleton.1 h]
    exact (isPlain_spec hp).2.2
  · split at h
    · simp only [List.mem_cons, List.not_mem_nil, or_false] at h
      rcases h with rfl | rfl <;> decide
    · simp only [Text.Hex.byteDigits, List.mem_cons, List.not_mem_nil, or_false] at h
      rcases h with rfl | rfl | rfl | rfl
      · decide
      · decide
      · exact hdigit ⟨byte.toNat / 16, by omega⟩
      · exact hdigit ⟨byte.toNat % 16, by omega⟩

/-- A character that is no backslash stands for its own byte, if it may. -/
theorem unescape?_plain {c : Char} (h : c ≠ '\\') (rest : List Char) :
    unescape? (c :: rest) =
      match plainByte? c with
      | some byte => (unescape? rest).map (byte :: ·)
      | none => none := by
  rw [unescape?.eq_def]
  split
  · next hc => cases hc
  · next hc => exact absurd (List.cons.inj hc).1 h
  · next hc => exact absurd (List.cons.inj hc).1 h
  · next hc =>
    cases hc
    rfl

/-- What follows an escaped byte is read as before. -/
theorem unescape?_escapeByte (byte : UInt8) (rest : List Char) :
    unescape? (escapeByte byte ++ rest) = (unescape? rest).map (byte :: ·) := by
  have hbyte : byte.toNat < 256 := byte.toNat_lt
  unfold escapeByte
  by_cases hp : isPlain byte = true
  · obtain ⟨h1, h2, _⟩ := isPlain_spec hp
    rw [if_pos hp, List.singleton_append, unescape?_plain h2, h1]
  · rw [if_neg hp]
    by_cases hz : byte = 0
    · rw [if_pos hz, hz]
      rfl
    · have hi := Text.Hex.digitValue?_digit ⟨byte.toNat / 16, by omega⟩
      have lo := Text.Hex.digitValue?_digit ⟨byte.toNat % 16, by omega⟩
      have back : UInt8.ofNat (byte.toNat / 16 * 16 + byte.toNat % 16) = byte := by
        rw [Nat.div_add_mod', UInt8.ofNat_toNat]
      rw [if_neg hz]
      simp only [Text.Hex.byteDigits, List.cons_append, List.nil_append, unescape?]
      rw [hi, lo]
      simp only [back]

/-- Escaped bytes are read back one by one. -/
theorem unescape?_flatMap_escapeByte (bytes : List UInt8) :
    unescape? (bytes.flatMap escapeByte) = some bytes := by
  induction bytes with
  | nil => rfl
  | cons byte bytes ih =>
    rw [List.flatMap_cons, unescape?_escapeByte, ih]
    rfl

/-- Only zeros are left out. -/
theorem trimZeros_append (least : Nat) (bytes : List UInt8) :
    trimZeros least bytes ++ List.replicate (bytes.length - (trimZeros least bytes).length) 0 =
      bytes := by
  have hlength : (bytes.reverse.dropWhile (· == 0)).length =
      (bytes.rdropWhile (· = 0)).length := List.length_reverse.symm
  rw [trimZeros, hlength]
  generalize hk : bytes.rdropWhile (· = 0) = kept
  -- The zeros at the end are a run, and what is left out is a part of it.
  have hrun : kept ++ List.replicate (bytes.length - kept.length) 0 = bytes :=
    hk ▸ rdropWhile_append_replicate 0 bytes
  have hrest : bytes.drop (max least kept.length) =
      List.replicate (bytes.length - (bytes.take (max least kept.length)).length) 0 := by
    rw [List.length_take]
    conv => lhs; rw [← hrun]
    rw [List.drop_append, List.drop_eq_nil_of_le (Nat.le_max_right _ _), List.nil_append,
      List.drop_replicate]
    congr 1
    omega
  rw [← hrest, List.take_append_drop]

/-- To trim leaves no more than there was. -/
theorem length_trimZeros_le (least : Nat) (bytes : List UInt8) :
    (trimZeros least bytes).length ≤ bytes.length := by
  rw [trimZeros, List.length_take]
  omega

/-- To trim stops at the least length. -/
theorem le_length_trimZeros {least : Nat} {bytes : List UInt8} (h : least ≤ bytes.length) :
    least ≤ (trimZeros least bytes).length := by
  rw [trimZeros, List.length_take]
  omega

/-- The zeros that are filled in are those that were trimmed. -/
theorem fill_trimZeros {n : Nat} (least : Nat) (code : Octets n)
    (h : (trimZeros least code.toList).length ≤ n) :
    fill n (trimZeros least code.toList) h = code := by
  rw [← Octets.toList_inj]
  have happ := trimZeros_append least code.toList
  rwa [code.length_eq] at happ

/-- The bytes that a text shows make the code again. -/
theorem ofBytes?_textBytes (c : AssetCode) : ofBytes? c.textBytes = some c := by
  cases c with
  | alphaNum4 code =>
    have h1 : 1 ≤ (trimZeros 1 code.toList).length :=
      le_length_trimZeros (by rw [code.length_eq]; decide)
    have h4 : (trimZeros 1 code.toList).length ≤ 4 := by
      have := length_trimZeros_le 1 code.toList
      rwa [code.length_eq] at this
    have hne : trimZeros 1 code.toList ≠ [] := List.ne_nil_of_length_pos h1
    rw [textBytes, ofBytes?, if_neg hne, dif_pos h4, fill_trimZeros]
  | alphaNum12 code =>
    have h5 : 5 ≤ (trimZeros 5 code.toList).length :=
      le_length_trimZeros (by rw [code.length_eq]; decide)
    have h12 : (trimZeros 5 code.toList).length ≤ 12 := by
      have := length_trimZeros_le 5 code.toList
      rwa [code.length_eq] at this
    have hne : trimZeros 5 code.toList ≠ [] := List.ne_nil_of_length_pos (by omega)
    rw [textBytes, ofBytes?, if_neg hne, dif_neg (by omega), dif_pos h12, fill_trimZeros]

/-- A code reads back, and with it whether it has four or twelve bytes. -/
theorem ofText_toText (c : AssetCode) : ofText c.toText = .ok c := by
  rw [ofText, toText, String.toList_ofList, unescape?_flatMap_escapeByte]
  simp only [Option.bind_some, ofBytes?_textBytes]

/-- The text of a code has no blanks, quotes or colons. -/
theorem mem_toText {c : AssetCode} {x : Char} (h : x ∈ c.toText.toList) :
    Text.isBlank x = false ∧ x ≠ '"' ∧ x ≠ ':' := by
  rw [toText, String.toList_ofList, List.mem_flatMap] at h
  obtain ⟨byte, _, hx⟩ := h
  exact escapeByte_spec hx

/-- A code is a word: blanks in it are escaped. -/
theorem isWord_toText (c : AssetCode) : IsWord c.toText :=
  ⟨fun h => (mem_toText (List.mem_of_mem_head? h)).2.1 rfl, fun _ hx => (mem_toText hx).1⟩

/-- In bytes the length of a code is told by the arm, and in text by its letters. -/
theorem outlined {n : Nat} : Outlined n (.itself true) format := by
  refine .token (.union _ ⟨rfl, fun a => by cases a <;> rfl⟩ (.cons
    (.field "assetCode4" (.octets 4)) <| .cons (.field "assetCode12" (.octets 12)) .nil)) rfl ?_
  refine .of_total (fun c => ?_) isWord_toText (fun c => ?_) fun c => ?_
  · cases c <;> rfl
  · rw [ofText_toText]
    rfl
  · cases c <;> exact ⟨_, rfl⟩

end AssetCode

/-! ## Assets -/

namespace Asset

/-- The colon of a credit stands behind its code, which has none. -/
theorem toList_toText_credit (code : AssetCode) (issuer : AccountId) :
    (credit code issuer).toText.toList = code.toText.toList ++ ':' :: issuer.toText.toList := by
  rw [toText, String.toList_append, String.toList_append, List.append_assoc]
  rfl

/-- An asset reads back, since no code is written like the native one with its issuer. -/
theorem ofText_toText (a : Asset) : ofText a.toText = .ok a := by
  cases a with
  | native => rfl
  | credit code issuer =>
    have hlist := toList_toText_credit code issuer
    -- A colon tells the text from those of the native asset.
    have hcolon : ':' ∈ (credit code issuer).toText.toList := by
      rw [hlist]
      simp
    have hname :
        ¬ ((credit code issuer).toText = "XLM" ∨ (credit code issuer).toText = "native") := by
      rintro (h | h) <;> (rw [h] at hcolon; revert hcolon; decide)
    have hsplit : Text.splitOnce ':' (credit code issuer).toText.toList =
        some (code.toText.toList, issuer.toText.toList) :=
      Text.splitOnce_eq_some_iff.2 ⟨hlist, fun h => (AssetCode.mem_toText h).2.2 rfl⟩
    rw [ofText, if_neg hname, hsplit]
    simp only [String.ofList_toList]
    rw [AssetCode.ofText_toText, AccountId.ofText_toText]
    rfl

/-- An asset is one word, with its issuer or without. -/
theorem isWord_toText (a : Asset) : IsWord a.toText := by
  cases a with
  | native => decide
  | credit code issuer =>
    have hlist := toList_toText_credit code issuer
    have hcode := AssetCode.isWord_toText code
    have hissuer := AccountId.isWord_toText issuer
    constructor
    · intro h
      rw [hlist, List.head?_append] at h
      cases hc : code.toText.toList.head? with
      | none =>
        rw [hc] at h
        cases h
      | some c =>
        rw [hc] at h
        cases h
        exact hcode.1 hc
    · intro c hc
      rw [hlist] at hc
      rcases List.mem_append.1 hc with hc | hc
      · exact hcode.2 c hc
      · rcases List.mem_cons.1 hc with rfl | hc
        · rfl
        · exact hissuer.2 c hc

/-- There are three arms, the native asset having nothing else to say. -/
theorem sound : Arm.Sound arms :=
  ⟨rfl, by rintro (_ | ⟨_ | _, _⟩) <;> rfl⟩

/-- The two kinds of credit differ in the length of the code only. -/
theorem outlined_credit {n : Nat} (k : Nat) :
    Outlined n (.fields ["assetCode", "issuer"]) (creditFormat k) :=
  .at (.and (.field "assetCode" (.octets k)) (.field "issuer" AccountId.outlined)) rfl

/-- Each kind of credit stands under a name of its own. -/
theorem outlined_arms {n : Nat} :
    OutlinedArms n (.fields ["alphaNum4", "alphaNum12"]) arms :=
  .at (.void <| .cons (.field "alphaNum4" (outlined_credit 4)) <|
    .cons (.field "alphaNum12" (outlined_credit 12)) .nil) rfl

/-- Nothing in an asset can be too long. -/
theorem total (a : Asset) : ∃ bytes, format.encode a = .ok bytes := by
  obtain _ | ⟨_ | _, _⟩ := a <;> exact ⟨_, rfl⟩

/-- Nothing in an asset is nested. -/
theorem level_eq (a : Asset) : format.level a = 0 := by
  obtain _ | ⟨_ | _, _⟩ := a <;> rfl

/-- In text an asset is one word at its own path. -/
theorem outlined {n : Nat} : Outlined n (.itself true) format := by
  refine .token (.union _ sound outlined_arms) rfl ?_
  refine .of_total level_eq isWord_toText (fun a => ?_) total
  rw [ofText_toText]
  rfl

end Asset

/-! ## Pools, pool shares and prices -/

/-- There is one kind of pool so far. -/
theorem PoolParameters.outlined {n : Nat} :
    Outlined n (.fields ["constantProduct", "type"]) PoolParameters.format :=
  .at (.union _ ⟨rfl, fun _ => rfl⟩ <| .cons (.field "constantProduct" <|
    .and (.field "assetA" Asset.outlined) <| .and (.field "assetB" Asset.outlined) <|
    .field "fee" (.scalar .int32)) .nil) rfl

namespace AssetOrShare

variable {π : Type}

/-- The arms of an asset and that of a share are told apart by code and label. -/
theorem sound (pool : Format π) : Arm.Sound (arms pool) where
  apart := by
    show Arm.toldApart (Asset.arms.map (·.code) ++ [3])
      (Asset.arms.map (·.label) ++ ["ASSET_TYPE_POOL_SHARE"]) = true
    rfl
  single := by rintro ((_ | ⟨_ | _, _⟩) | _) <;> rfl

/-- An asset among the shares has the bytes it has alone. -/
theorem total_asset (name : String) (pool : Format π) (a : Asset) :
    ∃ bytes, (format name pool).encode (asset a) = .ok bytes := by
  obtain _ | ⟨_ | _, _⟩ := a <;> exact ⟨_, rfl⟩

/-- A share adds no level to assets. -/
theorem level_asset (name : String) (pool : Format π) (a : Asset) :
    (format name pool).level (asset a) = 0 := by
  obtain _ | ⟨_ | _, _⟩ := a <;> rfl

/-! ### Reading -/

section Reading

variable {name : String} {pool : Format π} {source : TxRep.Source} {levels : Nat} {path : String}

/-- With a label in front, the value must be a share. -/
theorem read_of_contains (h : source.contains (TxRep.join path "type") = true) :
    (format name pool).read source levels path =
      (Format.union name [shareArm pool]).read source levels path :=
  if_pos h

/-- Without a label, it must be an asset. -/
theorem read_of_not_contains (h : source.contains (TxRep.join path "type") = false) :
    (format name pool).read source levels path =
      asset <$> Asset.format.read source levels path :=
  if_neg (by rw [h]; exact Bool.false_ne_true)

/-- Behind the name of its arm, a share is read. -/
theorem read_of_share (h : source.get? (TxRep.join path "type") = some shareLabel) :
    (format name pool).read source levels path = share <$> pool.read source levels path := by
  have hcontains : source.contains (TxRep.join path "type") = true := by
    rw [TxRep.Source.contains, h]
    rfl
  have harm : source.arm path = .ok shareLabel := by
    rw [TxRep.Source.arm, TxRep.Source.get, h]
  rw [read_of_contains hcontains, Format.read_union, harm]
  rfl

/-- Without the name of an arm, an asset is read. -/
theorem read_of_no_arm (h : source.get? (TxRep.join path "type") = none) :
    (format name pool).read source levels path =
      asset <$> Asset.format.read source levels path :=
  read_of_not_contains (by rw [TxRep.Source.contains, h]; rfl)

/-- A share is read exactly if there is an arm, and an asset exactly if there is none. -/
theorem read_eq_ok_iff {a : AssetOrShare π} :
    (format name pool).read source levels path = .ok a ↔
      (source.contains (TxRep.join path "type") = true ∧ source.arm path = .ok shareLabel ∧
        ∃ s, pool.read source levels path = .ok s ∧ a = share s) ∨
      (source.contains (TxRep.join path "type") = false ∧
        ∃ b, Asset.format.read source levels path = .ok b ∧ a = asset b) := by
  cases h : source.contains (TxRep.join path "type") with
  | false =>
    rw [read_of_not_contains h, Except.map_eq_ok_iff]
    simp [eq_comm]
  | true =>
    have hfind (arm : Arm (AssetOrShare π)) :
        [shareArm pool].find? (·.label == arm.label) = some arm ↔ arm = shareArm pool := by
      constructor
      · exact fun hf => List.mem_singleton.1 (List.mem_of_find?_eq_some hf)
      · rintro rfl
        rw [List.find?_cons, beq_self_eq_true]
    rw [read_of_contains h, Format.read_union_eq_ok_iff]
    simp only [hfind, exists_eq_left, true_and, Bool.true_eq_false, false_and, or_false]
    exact and_congr_right fun _ => exists_congr fun s => and_congr_right fun _ => eq_comm

/-- What is read is a share exactly if there is an arm. -/
theorem exists_share_iff {a : AssetOrShare π}
    (h : (format name pool).read source levels path = .ok a) :
    (∃ s, a = share s) ↔ source.contains (TxRep.join path "type") = true := by
  rcases read_eq_ok_iff.1 h with ⟨hc, _, s, _, rfl⟩ | ⟨hc, b, _, rfl⟩
  · exact iff_of_true ⟨s, rfl⟩ hc
  · refine iff_of_false ?_ (by rw [hc]; exact Bool.false_ne_true)
    rintro ⟨s, hs⟩
    cases hs

end Reading

/-! ### The outline -/

/-- The outline of an asset or a share. -/
def outline (O : Outline) : Outline :=
  ⟨places O.places,
    decide ("type" ∉ O.places.names) && (!O.places.here && O.sound)⟩

/-- The outline must say that the places of a share are neither the path itself nor `type`. -/
theorem outlined {n : Nat} {O : Outline} (name : String) {pool : Format π} (h : Outlined n O pool) :
    Outlined n (outline O) (AssetOrShare.format name pool) := by
  intro hs
  obtain ⟨apart, hs⟩ := Bool.and_eq_true_iff.1 hs
  obtain ⟨below, hO⟩ := Bool.and_eq_true_iff.1 hs
  have arms : OutlinedArms n _ (arms pool) := .append Asset.outlined_arms.lift (.cons h .nil)
  have hsound : (true && (O.sound && true)) = true := by rw [hO]; rfl
  exact .assetOrShare name (Asset.outlined rfl) (sound pool) (arms hsound) (h hO)
    (of_decide_eq_true apart) (Bool.not_eq_eq_eq_not.1 below)

end AssetOrShare

/-- A change of trust names the pool by its parameters. -/
theorem ChangeTrustAsset.outlined {n : Nat} :
    Outlined n ⟨⟨true, ["type", "liquidityPool"], false⟩, true⟩ ChangeTrustAsset.format :=
  .at (AssetOrShare.outlined _ (.field "liquidityPool" PoolParameters.outlined)) rfl

/-- A trust line names the pool by its id. -/
theorem TrustLineAsset.outlined {n : Nat} :
    Outlined n ⟨⟨true, ["type", "liquidityPoolID"], false⟩, true⟩ TrustLineAsset.format :=
  .at (AssetOrShare.outlined _ (.field "liquidityPoolID" (.octets 32))) rfl

theorem Price.outlined {n : Nat} : Outlined n (.fields ["n", "d"]) Price.format :=
  .at (.map <| .and (.field "n" (.scalar .int32)) (.field "d" (.scalar .int32))) rfl

end StellarTx
