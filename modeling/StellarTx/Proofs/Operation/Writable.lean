/-
# Which operations have bytes

Most operations always have bytes.  Of the others, some are those that `validate` lets pass, and
three kinds hold lengths that it does not look at: the payload of a signer, the name in the key of a
data entry, and whatever a call of the contract host holds (`Body.UncheckedFit`).  A valid operation
has bytes exactly if these fit: `Body.writable_iff_of_validate`.
-/
import StellarTx.Proofs.Format.Writable
import StellarTx.Proofs.Operation
import StellarTx.Proofs.Result

namespace StellarTx

/-- A length is checked against its own maximum. -/
theorem BoundedField.check_eq_ok_iff {field : BoundedField} {length : Nat} :
    field.check length = .ok () ↔ length ≤ field.max := by
  unfold check
  by_cases h : field.max < length
  · rw [if_pos h]
    constructor
    · intro h'; cases h'
    · intro h'; omega
  · rw [if_neg h]
    exact iff_of_true rfl (by omega)

/-! ## Accounts and assets -/

theorem AccountId.total : Format.Total AccountId.format := fun _ => ⟨_, rfl⟩

/-- Nothing in either kind of account can be too long. -/
theorem MuxedAccount.total : Format.Total MuxedAccount.format := by
  intro a
  cases a <;> exact ⟨_, rfl⟩

/-- A signer has bytes if its payload is not too long. -/
theorem SignerKey.writable_iff {k : SignerKey} : format.Writable k ↔ k.toStrKey.Fits :=
  encode_eq_ok_iff k

/-- The weight has no maximum. -/
theorem Signer.writable_iff {s : Signer} : format.Writable s ↔ s.key.toStrKey.Fits := by
  rw [← SignerKey.writable_iff]
  exact Format.writable_and_iff.trans (and_iff_left ⟨_, rfl⟩)

/-- A code has the length of its kind. -/
theorem AssetCode.total : Format.Total AssetCode.format := by
  intro code
  cases code <;> exact ⟨_, rfl⟩

/-- Both assets and the fee of a pool have bytes. -/
theorem PoolParameters.total : Format.Total PoolParameters.format := fun p =>
  Format.exists_arm_iff.2 <|
    (Format.Total.and (.field Asset.total) (.and (.field Asset.total) (.field (.scalar .int32))))
      (p.assetA, p.assetB, p.fee)

/-- A share has the bytes of its pool. -/
theorem ChangeTrustAsset.total : Format.Total ChangeTrustAsset.format := by
  intro line
  cases line with
  | asset a => exact AssetOrShare.total_asset _ _ a
  | share pool => exact Format.exists_arm_iff.2 (PoolParameters.total pool)

/-- Here a share has those of an id. -/
theorem TrustLineAsset.total : Format.Total TrustLineAsset.format := by
  intro line
  cases line with
  | asset a => exact AssetOrShare.total_asset _ _ a
  | share pool => exact ⟨_, rfl⟩

theorem Price.total : Format.Total Price.format := fun _ => ⟨_, rfl⟩

/-! ## Claims -/

theorem ClaimableBalanceId.total : Format.Total ClaimableBalanceId.format := fun _ => ⟨_, rfl⟩

namespace ClaimPredicate

variable {join : List ClaimPredicate → ClaimPredicate} {conditions : List ClaimPredicate}

/-- A connective has bytes up to two conditions, though it is valid with two only. -/
theorem writable_join_iff (h : join = .and ∨ join = .or) :
    format.Writable (join conditions) ↔
      conditions.length ≤ maxConditions ∧ ∀ p ∈ conditions, format.Writable p := by
  rw [← Format.writable_array_iff (by decide)]
  conv => lhs; rw [format_eq]
  rcases h with rfl | rfl
  · exact Format.exists_arm_iff
  · exact Format.exists_arm_iff

/-- A negation has bytes without a condition as well. -/
theorem writable_not_iff {condition : Option ClaimPredicate} :
    format.Writable (.not condition) ↔ ∀ p, condition = some p → format.Writable p := by
  rw [← Format.writable_option_iff]
  conv => lhs; rw [format_eq]
  exact Format.exists_arm_iff

/-- A connective is valid with exactly two conditions, both valid. -/
theorem validate_join_eq_ok_iff (h : join = .and ∨ join = .or) :
    (join conditions).validate = .ok () ↔
      conditions.length = 2 ∧ validateAll conditions = .ok () := by
  rw [← Decidable.not_not (p := conditions.length = 2)]
  rcases h with rfl | rfl
  · rw [validate]
    exact Except.check_bind_eq_ok_iff
  · rw [validate]
    exact Except.check_bind_eq_ok_iff

mutual

/-- A valid predicate has bytes: its connectives join two conditions, as many as they may. -/
theorem writable_of_validate : (p : ClaimPredicate) → p.validate = .ok () → format.Writable p
  | .unconditional, _ => ⟨_, rfl⟩
  | .and conditions, h =>
    have ⟨hlength, hall⟩ := (validate_join_eq_ok_iff (.inl rfl)).1 h
    (writable_join_iff (.inl rfl)).2
      ⟨Nat.le_of_eq hlength, writable_of_validateAll conditions hall⟩
  | .or conditions, h =>
    have ⟨hlength, hall⟩ := (validate_join_eq_ok_iff (.inr rfl)).1 h
    (writable_join_iff (.inr rfl)).2
      ⟨Nat.le_of_eq hlength, writable_of_validateAll conditions hall⟩
  | .not none, h => nomatch h
  | .not (some p), h =>
    have hp := writable_of_validate p h
    writable_not_iff.2 fun _ hq => Option.some.inj hq ▸ hp
  | .beforeAbsolute _, _ => ⟨_, rfl⟩
  | .beforeRelative _, _ => ⟨_, rfl⟩

/-- Conditions that are valid have bytes one by one. -/
theorem writable_of_validateAll : (conditions : List ClaimPredicate) →
    validateAll conditions = .ok () → ∀ p ∈ conditions, format.Writable p
  | [], _ => nofun
  | p :: rest, h =>
    have ⟨hp, hrest⟩ := Except.seq_eq_ok_iff.1 h
    List.forall_mem_cons.2 ⟨writable_of_validate p hp, writable_of_validateAll rest hrest⟩

end

end ClaimPredicate

/-- A claimant has bytes if its predicate has. -/
theorem Claimant.writable_iff {c : Claimant} :
    format.Writable c ↔ ClaimPredicate.format.Writable c.predicate :=
  (Format.exists_arm_iff.trans Format.writable_and_iff).trans
    (and_iff_right (AccountId.total c.destination))

/-! ## Ledger keys -/

namespace LedgerKey

/-- The name in the key of a data entry is no longer than such a name may be. -/
def Fits : LedgerKey → Prop
  | data _ name => name.utf8ByteSize ≤ maxDataName
  | _ => True

/-- Of ledger keys only the names of data entries can be too long. -/
theorem writable_iff {key : LedgerKey} : format.Writable key ↔ key.Fits := by
  cases key with
  | data owner name =>
    refine Format.exists_arm_iff.trans (Format.writable_and_iff.trans ?_)
    exact (and_iff_right (AccountId.total owner)).trans (Format.writable_string_iff (by decide))
  | account a => exact (AccountId.total a).arm_iff trivial
  | trustLine holder asset =>
    have hw : Format.Total _ := .and AccountId.total TrustLineAsset.total
    exact (hw (holder, asset)).arm_iff trivial
  | offer seller id => exact iff_of_true ⟨_, rfl⟩ trivial
  | claimableBalance balance => exact (ClaimableBalanceId.total balance).arm_iff trivial
  | liquidityPool pool => exact iff_of_true ⟨_, rfl⟩ trivial

end LedgerKey

namespace Operation

/-! ## Operations that always have bytes -/

theorem CreateAccount.total : Format.Total CreateAccount.format :=
  .map (.and AccountId.total (.field (.scalar .amount)))

theorem Payment.total : Format.Total Payment.format :=
  .map (.and MuxedAccount.total (.and Asset.total (.field (.scalar .amount))))

theorem ManageSellOffer.total : Format.Total ManageSellOffer.format :=
  .map <| .and Asset.total <| .and Asset.total <| .and (.field (.scalar .amount)) <|
    .and Price.total (.field (.scalar .int64))

theorem CreatePassiveSellOffer.total : Format.Total CreatePassiveSellOffer.format :=
  .map <| .and Asset.total <| .and Asset.total <| .and (.field (.scalar .amount)) Price.total

theorem ManageBuyOffer.total : Format.Total ManageBuyOffer.format :=
  .map <| .and Asset.total <| .and Asset.total <| .and (.field (.scalar .amount)) <|
    .and Price.total (.field (.scalar .int64))

theorem LiquidityPoolDeposit.total : Format.Total LiquidityPoolDeposit.format :=
  .map <| .and (.octets 32) <| .and (.field (.scalar .amount)) <|
    .and (.field (.scalar .amount)) <| .and Price.total Price.total

theorem LiquidityPoolWithdraw.total : Format.Total LiquidityPoolWithdraw.format :=
  .map <| .and (.octets 32) <| .and (.field (.scalar .amount)) <|
    .and (.field (.scalar .amount)) (.field (.scalar .amount))

theorem BumpSequence.total : Format.Total BumpSequence.format := .map (.field (.scalar .int64))

theorem ChangeTrust.total : Format.Total ChangeTrust.format :=
  .map (.and ChangeTrustAsset.total (.field (.scalar .amount)))

theorem AllowTrust.total : Format.Total AllowTrust.format :=
  .map (.and AccountId.total (.and AssetCode.total (.field (.scalar .uint32))))

theorem SetTrustLineFlags.total : Format.Total SetTrustLineFlags.format :=
  .map <| .and AccountId.total <| .and Asset.total <|
    .and (.field (.scalar .uint32)) (.field (.scalar .uint32))

theorem Clawback.total : Format.Total Clawback.format :=
  .map (.and Asset.total (.and MuxedAccount.total (.field (.scalar .amount))))

theorem ClaimClaimableBalance.total : Format.Total ClaimClaimableBalance.format :=
  .map ClaimableBalanceId.total

theorem ClawbackClaimableBalance.total : Format.Total ClawbackClaimableBalance.format :=
  .map ClaimableBalanceId.total

theorem BeginSponsoringFutureReserves.total : Format.Total BeginSponsoringFutureReserves.format :=
  .map AccountId.total

/-! ## Operations with a maximum -/

/-- A path has bytes if it is not too long, since assets always have. -/
theorem writable_path_iff {path : List Asset} :
    (Format.array maxPath Asset.format).Writable path ↔ path.length ≤ maxPath :=
  (Format.writable_array_iff (by decide)).trans (and_iff_left fun a _ => Asset.total a)

/-- Both payments along a path are written in one way. -/
theorem writable_pathParts_iff {asset amount destination destAsset destAmount path : String}
    {parts : Asset × Int64 × MuxedAccount × Asset × Int64 × List Asset} :
    ((Format.field asset Asset.format).and <| (Format.field amount .amount).and <|
      (Format.field destination MuxedAccount.format).and <|
      (Format.field destAsset Asset.format).and <| (Format.field destAmount .amount).and <|
      Format.field path (.array maxPath Asset.format)).Writable parts ↔
        parts.2.2.2.2.2.length ≤ maxPath := by
  rw [← writable_path_iff]
  exact (Format.Total.writable_and_iff (.field Asset.total)).trans <|
    (Format.Total.writable_and_iff (.field (.scalar .amount))).trans <|
    (Format.Total.writable_and_iff (.field MuxedAccount.total)).trans <|
    (Format.Total.writable_and_iff (.field Asset.total)).trans <|
    (Format.Total.writable_and_iff (.field (.scalar .amount))).trans Format.writable_field_iff

/-- Only the path can be too long. -/
theorem PathPaymentStrictReceive.writable_iff {op : PathPaymentStrictReceive} :
    format.Writable op ↔ op.path.length ≤ maxPath :=
  Format.writable_map_iff.trans writable_pathParts_iff

/-- The same with the amounts the other way around. -/
theorem PathPaymentStrictSend.writable_iff {op : PathPaymentStrictSend} :
    format.Writable op ↔ op.path.length ≤ maxPath :=
  Format.writable_map_iff.trans writable_pathParts_iff

namespace SetOptions

variable {op : SetOptions}

/-- Of the settings the home domain and the signer have a maximum. -/
theorem writable_iff :
    format.Writable op ↔ (∀ domain, op.homeDomain = some domain →
        domain.utf8ByteSize ≤ maxHomeDomain) ∧
      ∀ signer, op.signer = some signer → signer.key.toStrKey.Fits := by
  have hflag {name : String} : Format.Total (Format.field name (.option .uint32)) :=
    .field (.option (.scalar .uint32))
  have hdomain : (Format.option (.string maxHomeDomain)).Writable op.homeDomain ↔
      ∀ domain, op.homeDomain = some domain → domain.utf8ByteSize ≤ maxHomeDomain := by
    rw [Format.writable_option_iff]
    exact forall₂_congr fun _ _ => Format.writable_string_iff (by decide)
  have hsigner : (Format.option Signer.format).Writable op.signer ↔
      ∀ signer, op.signer = some signer → signer.key.toStrKey.Fits := by
    rw [Format.writable_option_iff]
    exact forall₂_congr fun _ _ => Signer.writable_iff
  rw [← hdomain, ← hsigner]
  exact Format.writable_map_iff.trans <|
    (Format.Total.writable_and_iff (.field (.option AccountId.total))).trans <|
    (Format.Total.writable_and_iff hflag).trans <| (Format.Total.writable_and_iff hflag).trans <|
    (Format.Total.writable_and_iff hflag).trans <| (Format.Total.writable_and_iff hflag).trans <|
    (Format.Total.writable_and_iff hflag).trans <| (Format.Total.writable_and_iff hflag).trans
    Format.writable_and_iff

/-- Of these two the home domain alone is looked at. -/
theorem validate_eq_ok_iff :
    op.validate = .ok () ↔ ∀ domain, op.homeDomain = some domain →
      domain.utf8ByteSize ≤ maxHomeDomain := by
  unfold validate
  cases op.homeDomain with
  | none => exact iff_of_true rfl nofun
  | some domain =>
    refine BoundedField.check_eq_ok_iff.trans ⟨fun h _ hd => ?_, fun h => h domain rfl⟩
    exact Option.some.inj hd ▸ h

end SetOptions

/-- Of data, exactly what is valid has bytes. -/
theorem ManageData.writable_iff {op : ManageData} :
    format.Writable op ↔ op.validate = .ok () := by
  have hname : (Format.string maxDataName).Writable op.name ↔
      BoundedField.dataName.check op.name.utf8ByteSize = .ok () :=
    (Format.writable_string_iff (by decide)).trans BoundedField.check_eq_ok_iff.symm
  have hparts : format.Writable op ↔ (Format.string maxDataName).Writable op.name ∧
      (Format.option (.bytes maxDataValue)).Writable op.value := Format.writable_and_iff
  rw [hparts, hname, Format.writable_option_iff, iff_comm, validate]
  refine Except.seq_eq_ok_iff.trans (and_congr_right fun _ => ?_)
  cases op.value with
  | none => exact iff_of_true rfl nofun
  | some value =>
    refine BoundedField.check_eq_ok_iff.trans ?_
    rw [← Format.writable_bytes_iff (by decide)]
    exact ⟨fun h _ hv => Option.some.inj hv ▸ h, fun h => h _ rfl⟩

namespace CreateClaimableBalance

variable {op : CreateClaimableBalance}

/-- The number of claimants and their predicates are what can be too much. -/
theorem writable_iff :
    format.Writable op ↔ op.claimants.length ≤ Claimant.maxCount ∧
      ∀ c ∈ op.claimants, ClaimPredicate.format.Writable c.predicate := by
  have hclaimants : (Format.array Claimant.maxCount Claimant.format).Writable op.claimants ↔
      op.claimants.length ≤ Claimant.maxCount ∧
        ∀ c ∈ op.claimants, ClaimPredicate.format.Writable c.predicate := by
    rw [Format.writable_array_iff (by decide)]
    simp only [Claimant.writable_iff]
  rw [← hclaimants]
  exact Format.writable_map_iff.trans <|
    (Format.Total.writable_and_iff (.field Asset.total)).trans <|
    (Format.Total.writable_and_iff (.field (.scalar .amount))).trans Format.writable_field_iff

/-- Both of these are validated. -/
theorem writable_of_validate (h : op.validate = .ok ()) : format.Writable op := by
  obtain ⟨hcount, hall⟩ := Except.seq_eq_ok_iff.1 h
  refine writable_iff.2 ⟨BoundedField.check_eq_ok_iff.1 hcount, fun c hc => ?_⟩
  exact c.predicate.writable_of_validate (Except.forM_eq_ok_iff.1 hall c hc)

end CreateClaimableBalance

/-! ## Bodies -/

/-- No length is above its maximum that `validate` does not look at: the payload of a signer, the
name in the key of a data entry, and those in a call of the contract host. -/
def Body.UncheckedFit : Body → Prop
  | setOptions op => ∀ signer, op.signer = some signer → signer.key.toStrKey.Fits
  | revokeSponsorship (.entry key) => key.Fits
  | revokeSponsorship (.signer _ key) => key.toStrKey.Fits
  | invokeHostFunction op => ∀ part ∈ InvokeHostFunction.format.layout op, part.Fits
  | _ => True

/-- The key of a data entry and the payload of a signer are not validated. -/
theorem RevokeSponsorship.writable_iff {op : RevokeSponsorship} :
    format.Writable op ↔ (Body.revokeSponsorship op).UncheckedFit := by
  cases op with
  | entry key => exact Format.exists_arm_iff.trans LedgerKey.writable_iff
  | signer account key =>
    have hw := AccountId.total.writable_and_iff (g := SignerKey.format) (p := (account, key))
    exact Format.exists_arm_iff.trans (hw.trans SignerKey.writable_iff)

/-- Whatever a call holds is in its layout. -/
theorem InvokeHostFunction.writable_iff {op : InvokeHostFunction} :
    format.Writable op ↔ ∀ part ∈ format.layout op, part.Fits :=
  (InvokeHostFunction.outlined rfl).writable_iff_fits (Nat.le_refl _)

/-- A valid operation has bytes exactly if the lengths that are not looked at fit. -/
theorem Body.writable_iff_of_validate {body : Body} (h : body.validate = .ok ()) :
    format.Writable body ↔ body.UncheckedFit := by
  cases body with
  | setOptions op =>
    have hw : SetOptions.format.Writable op ↔ (Body.setOptions op).UncheckedFit :=
      SetOptions.writable_iff.trans (and_iff_right (SetOptions.validate_eq_ok_iff.1 h))
    exact Format.exists_arm_iff.trans hw
  | revokeSponsorship op => exact Format.exists_arm_iff.trans RevokeSponsorship.writable_iff
  | invokeHostFunction op => exact Format.exists_arm_iff.trans InvokeHostFunction.writable_iff
  -- The others have no such lengths.  What `validate` looks at comes first.
  | manageData op => exact (ManageData.writable_iff.2 h).arm_iff trivial
  | pathPaymentStrictReceive op =>
    have hw := PathPaymentStrictReceive.writable_iff.2 (BoundedField.check_eq_ok_iff.1 h)
    exact hw.arm_iff trivial
  | pathPaymentStrictSend op =>
    have hw := PathPaymentStrictSend.writable_iff.2 (BoundedField.check_eq_ok_iff.1 h)
    exact hw.arm_iff trivial
  | createClaimableBalance op =>
    exact (CreateClaimableBalance.writable_of_validate h).arm_iff trivial
  | createAccount op => exact (CreateAccount.total op).arm_iff trivial
  | payment op => exact (Payment.total op).arm_iff trivial
  | manageSellOffer op => exact (ManageSellOffer.total op).arm_iff trivial
  | createPassiveSellOffer op => exact (CreatePassiveSellOffer.total op).arm_iff trivial
  | manageBuyOffer op => exact (ManageBuyOffer.total op).arm_iff trivial
  | liquidityPoolDeposit op => exact (LiquidityPoolDeposit.total op).arm_iff trivial
  | liquidityPoolWithdraw op => exact (LiquidityPoolWithdraw.total op).arm_iff trivial
  | changeTrust op => exact (ChangeTrust.total op).arm_iff trivial
  | allowTrust op => exact (AllowTrust.total op).arm_iff trivial
  | setTrustLineFlags op => exact (SetTrustLineFlags.total op).arm_iff trivial
  | clawback op => exact (Clawback.total op).arm_iff trivial
  | claimClaimableBalance op => exact (ClaimClaimableBalance.total op).arm_iff trivial
  | clawbackClaimableBalance op => exact (ClawbackClaimableBalance.total op).arm_iff trivial
  | beginSponsoringFutureReserves op =>
    exact (BeginSponsoringFutureReserves.total op).arm_iff trivial
  | bumpSequence op => exact (BumpSequence.total op).arm_iff trivial
  | accountMerge destination => exact (MuxedAccount.total destination).arm_iff trivial
  | inflation => exact iff_of_true ⟨_, rfl⟩ trivial
  | endSponsoringFutureReserves => exact iff_of_true ⟨_, rfl⟩ trivial

end Operation

/-- The account of an operation always has bytes. -/
theorem Operation.writable_iff {op : Operation} :
    format.Writable op ↔ Body.format.Writable op.body :=
  Format.writable_map_iff.trans <|
    Format.Total.writable_and_iff (.field (.option MuxedAccount.total))

end StellarTx
