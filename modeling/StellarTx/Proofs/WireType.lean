/-
# Every wire type

Every wire type has a regular format, but for a value that may be absent directly inside another
one: in text the two would share one line.  The laws about bytes hold of that type as well.
-/
import StellarTx.Proofs.Format.Bytes
import StellarTx.Proofs.Transaction
import StellarTx.WireType

namespace StellarTx.WireType

open Format (Outline Outlined Regular Aligned Exact Capped Hungry)
open Xdr (Limits)

/-! ## Text forms -/

/-- Whether a value of the type, or of the type in its boxes, may be absent. -/
def isOptional : WireType → Bool
  | option _ => true
  | boxed t => t.isOptional
  | _ => false

/-- Whether the type has a text form that tells all its values apart: no value that may be absent
stands directly inside another one. -/
def HasText : WireType → Prop
  | option t => t.isOptional = false ∧ t.HasText
  | boxed t => t.HasText
  | _ => True

/-- A regular format that leaves the place of a presence flag free. -/
def Free {α : Type} (f : Format α) : Prop :=
  ∃ F : Places, (∀ n, Regular n F f) ∧ "_present" ∉ F.names

theorem Free.intro {α : Type} {f : Format α} {O : Outline} (h : ∀ n, Outlined n O f)
    (free : (O.flagged "_present").sound = true) : Free f := by
  obtain ⟨hnot, hO⟩ := Bool.and_eq_true_iff.1 free
  exact ⟨O.places, fun n => h n hO, of_decide_eq_true hnot⟩

/-- Whether the type is neither that of values that may be absent nor boxed. -/
def isNamed : WireType → Bool
  | option _ => false
  | boxed _ => false
  | _ => true

/-- To show something of every wire type, show it of the named ones, and that it is kept when a
value may be absent or is boxed. -/
@[elab_as_elim]
theorem induct {P : WireType → Prop} (option : ∀ t, P t → P (option t))
    (boxed : ∀ t, P t → P (boxed t)) (named : ∀ t, t.isNamed = true → P t) (t : WireType) :
    P t := by
  induction t with
  | option t ih => exact option t ih
  | boxed t ih => exact boxed t ih
  | _ => exact named _ rfl

theorem free_of_isNamed : (t : WireType) → t.isNamed = true → Free t.format
  | octets k, _ => .intro (fun _ => .octets k) rfl
  | uint32, _ => .intro (fun _ => .scalar .uint32) rfl
  | int32, _ => .intro (fun _ => .scalar .int32) rfl
  | uint64, _ => .intro (fun _ => .scalar .uint64) rfl
  | int64, _ => .intro (fun _ => .scalar .int64) rfl
  | bool, _ => .intro (fun _ => .scalar .bool) rfl
  | accountId, _ => .intro (fun _ => AccountId.outlined) rfl
  | muxedAccount, _ => .intro (fun _ => MuxedAccount.outlined) rfl
  | signerKey, _ => .intro (fun _ => SignerKey.outlined) rfl
  | signer, _ => .intro (fun _ => Signer.outlined) rfl
  | assetCode, _ => .intro (fun _ => AssetCode.outlined) rfl
  | alphaNum4, _ => .intro (fun _ => Asset.outlined_credit 4) rfl
  | alphaNum12, _ => .intro (fun _ => Asset.outlined_credit 12) rfl
  | asset, _ => .intro (fun _ => Asset.outlined) rfl
  | poolParameters, _ => .intro (fun _ => PoolParameters.outlined) rfl
  | changeTrustAsset, _ => .intro (fun _ => ChangeTrustAsset.outlined) rfl
  | trustLineAsset, _ => .intro (fun _ => TrustLineAsset.outlined) rfl
  | price, _ => .intro (fun _ => Price.outlined) rfl
  | claimPredicate, _ => .intro (fun _ => ClaimPredicate.outlined) rfl
  | claimant, _ => .intro (fun _ => Claimant.outlined) rfl
  | claimableBalanceId, _ => .intro (fun _ => ClaimableBalanceId.outlined) rfl
  | ledgerKey, _ => .intro (fun _ => LedgerKey.outlined) rfl
  | memo, _ => .intro (fun _ => Memo.outlined) rfl
  | timeBounds, _ => .intro (fun _ => TimeBounds.outlined) rfl
  | ledgerBounds, _ => .intro (fun _ => LedgerBounds.outlined) rfl
  | conditions, _ => .intro (fun _ => Conditions.outlined) rfl
  | preconditions, _ => .intro (fun _ => Preconditions.outlined) rfl
  | uint128, _ => .intro (fun _ => Contract.UInt128.outlined) rfl
  | int128, _ => .intro (fun _ => Contract.Int128.outlined) rfl
  | uint256, _ => .intro (fun _ => Contract.UInt256.outlined) rfl
  | int256, _ => .intro (fun _ => Contract.Int256.outlined) rfl
  | address, _ => .intro (fun _ => Contract.Address.outlined) rfl
  | value, _ => .intro (fun _ => Contract.Value.outlined) rfl
  | mapEntry, _ => .intro (fun _ => Contract.Value.outlined_entry Contract.Value.outlined) rfl
  | call, _ => .intro (fun _ => Contract.Call.outlined) rfl
  | idPreimage, _ => .intro (fun _ => Contract.IdPreimage.outlined) rfl
  | executable, _ => .intro (fun _ => Contract.Executable.outlined) rfl
  | creation, _ => .intro (fun _ => Contract.Creation.outlined) rfl
  | hostFunction, _ => .intro (fun _ => Contract.HostFunction.outlined) rfl
  | addressCredentials, _ => .intro (fun _ => Contract.AddressCredentials.outlined) rfl
  | credentials, _ => .intro (fun _ => Contract.Credentials.outlined) rfl
  | authorizedFunction, _ => .intro (fun _ => Contract.AuthorizedFunction.outlined) rfl
  | invocation, _ => .intro (fun _ => Contract.Invocation.outlined) rfl
  | authorization, _ => .intro (fun _ => Contract.Authorization.outlined) rfl
  | createAccount, _ => .intro (fun _ => Operation.CreateAccount.outlined) rfl
  | payment, _ => .intro (fun _ => Operation.Payment.outlined) rfl
  | pathPaymentStrictReceive, _ => .intro (fun _ => Operation.PathPaymentStrictReceive.outlined) rfl
  | manageSellOffer, _ => .intro (fun _ => Operation.ManageSellOffer.outlined) rfl
  | createPassiveSellOffer, _ => .intro (fun _ => Operation.CreatePassiveSellOffer.outlined) rfl
  | setOptions, _ => .intro (fun _ => Operation.SetOptions.outlined) rfl
  | changeTrust, _ => .intro (fun _ => Operation.ChangeTrust.outlined) rfl
  | allowTrust, _ => .intro (fun _ => Operation.AllowTrust.outlined) rfl
  | manageData, _ => .intro (fun _ => Operation.ManageData.outlined) rfl
  | bumpSequence, _ => .intro (fun _ => Operation.BumpSequence.outlined) rfl
  | manageBuyOffer, _ => .intro (fun _ => Operation.ManageBuyOffer.outlined) rfl
  | pathPaymentStrictSend, _ => .intro (fun _ => Operation.PathPaymentStrictSend.outlined) rfl
  | createClaimableBalance, _ => .intro (fun _ => Operation.CreateClaimableBalance.outlined) rfl
  | claimClaimableBalance, _ => .intro (fun _ => Operation.ClaimClaimableBalance.outlined) rfl
  | beginSponsoringFutureReserves, _ =>
    .intro (fun _ => Operation.BeginSponsoringFutureReserves.outlined) rfl
  | revokeSponsorship, _ => .intro (fun _ => Operation.RevokeSponsorship.outlined) rfl
  | clawback, _ => .intro (fun _ => Operation.Clawback.outlined) rfl
  | clawbackClaimableBalance, _ => .intro (fun _ => Operation.ClawbackClaimableBalance.outlined) rfl
  | setTrustLineFlags, _ => .intro (fun _ => Operation.SetTrustLineFlags.outlined) rfl
  | liquidityPoolDeposit, _ => .intro (fun _ => Operation.LiquidityPoolDeposit.outlined) rfl
  | liquidityPoolWithdraw, _ => .intro (fun _ => Operation.LiquidityPoolWithdraw.outlined) rfl
  | invokeHostFunction, _ => .intro (fun _ => Operation.InvokeHostFunction.outlined) rfl
  | body, _ => .intro (fun _ => Operation.Body.outlined) rfl
  | operation, _ => .intro (fun _ => Operation.outlined) rfl
  | decoratedSignature, _ => .intro (fun _ => DecoratedSignature.outlined) rfl
  | transactionV0, _ => .intro (fun _ => TransactionV0.outlined) rfl
  | transaction, _ => .intro (fun _ => Transaction.outlined) rfl
  | feeBump, _ => .intro (fun _ => FeeBump.outlined) rfl
  | signedV0, _ => .intro (fun _ => Signed.outlined TransactionV0.outlined) rfl
  | signedV1, _ => .intro (fun _ => Signed.outlined Transaction.outlined) rfl
  | signedFeeBump, _ => .intro (fun _ => Signed.outlined FeeBump.outlined) rfl
  | envelope, _ => .intro (fun _ => Envelope.outlined) rfl
  | signaturePayload, _ => .intro (fun _ => SignaturePayload.outlined) rfl

/-- A type with a text form has a regular format, which leaves the place of a presence flag free
unless the value itself may be absent. -/
theorem exists_regular {t : WireType} (h : t.HasText) :
    ∃ F : Places, (∀ n, Regular n F t.format) ∧
      (t.isOptional = false → "_present" ∉ F.names) := by
  induction t using induct with
  | option t ih =>
    obtain ⟨F, hF, hfree⟩ := ih h.2
    exact ⟨_, fun n => .option (hF n) (hfree h.1), nofun⟩
  | boxed t ih =>
    obtain ⟨F, hF, hfree⟩ := ih h
    exact ⟨F, fun n => .deeper fun m _ => hF m, hfree⟩
  | named t ht =>
    obtain ⟨F, hF, hfree⟩ := free_of_isNamed t ht
    exact ⟨F, hF, fun _ => hfree⟩

/-! ## Bytes -/

theorem aligned (t : WireType) (n : Nat) : Aligned n t.format := by
  induction t using induct generalizing n with
  | option t ih => exact (ih n).option
  | boxed t ih => exact .deeper fun m _ => ih m
  | named t ht =>
    obtain ⟨F, hF, _⟩ := free_of_isNamed t ht
    exact (hF n).aligned

/-- Every wire type reads exactly what it writes. -/
theorem exact (t : WireType) (limits : Limits) : Exact t.format limits := by
  induction t using induct generalizing limits with
  | option t ih => exact (ih limits).option
  | boxed t ih => exact .deeper fun m _ => ih _
  | named t ht =>
    obtain ⟨F, hF, _⟩ := free_of_isNamed t ht
    exact (hF limits.levels).exact (Nat.le_refl _)

/-- Every wire type refuses what is too deep. -/
theorem capped (t : WireType) (n : Nat) {limits : Limits} (hle : limits.levels ≤ n) :
    Capped n t.format limits := by
  induction t using induct generalizing n limits with
  | option t ih => exact (ih n hle).option
  | boxed t ih =>
    obtain ⟨levels, ahead⟩ := limits
    refine .deeper fun m k hm hk => ih m ?_
    have hle : levels ≤ n := hle
    show k ≤ m
    omega
  | named t ht =>
    obtain ⟨F, hF, _⟩ := free_of_isNamed t ht
    exact (hF n).capped hle

end StellarTx.WireType
