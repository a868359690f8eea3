/-
# Which values have bytes

A value has bytes unless one of the lengths in it is above its maximum.  The error then names the
first such length, its maximum, and how many bytes come before it.
-/
import StellarTx.Proofs.Extents
import StellarTx.Proofs.WireType

namespace StellarTx.WireType

open Format (Measures Lengthless)
open Xdr (Encoding)

/-- The lengths in a value of a wire type; the types that are not listed have none. -/
def extents : (t : WireType) → t.Carrier → List Extent
  | option t => fun o : Option t.Carrier => o.elim [] t.extents
  | boxed t => t.extents
  | signerKey => SignerKey.extents
  | signer => Signer.extents
  | claimPredicate => ClaimPredicate.extents
  | claimant => Claimant.extents
  | ledgerKey => LedgerKey.extents
  | memo => Memo.extents
  | conditions => Conditions.extents
  | preconditions => Preconditions.extents
  | value => Contract.Value.extents
  | mapEntry => Contract.Value.entryExtents
  | call => Contract.Call.extents
  | hostFunction => Contract.HostFunction.extents
  | addressCredentials => Contract.AddressCredentials.extents
  | credentials => Contract.Credentials.extents
  | authorizedFunction => Contract.AuthorizedFunction.extents
  | invocation => Contract.Invocation.extents
  | authorization => Contract.Authorization.extents
  | pathPaymentStrictReceive => Operation.PathPaymentStrictReceive.extents
  | setOptions => Operation.SetOptions.extents
  | manageData => Operation.ManageData.extents
  | pathPaymentStrictSend => Operation.PathPaymentStrictSend.extents
  | createClaimableBalance => Operation.CreateClaimableBalance.extents
  | revokeSponsorship => Operation.RevokeSponsorship.extents
  | invokeHostFunction => Operation.InvokeHostFunction.extents
  | body => Operation.Body.extents
  | operation => Operation.extents
  | decoratedSignature => DecoratedSignature.extents
  | transactionV0 => TransactionV0.extents
  | transaction => Transaction.extents
  | feeBump => FeeBump.extents
  | signedV0 => Signed.extents TransactionV0.extents
  | signedV1 => Signed.extents Transaction.extents
  | signedFeeBump => Signed.extents FeeBump.extents
  | envelope => Envelope.extents
  | signaturePayload => SignaturePayload.extents
  | _ => fun _ => []

/-- The lengths in a value are those that its bytes hold. -/
theorem measures : (t : WireType) → Measures t.format t.extents
  | octets n => Lengthless.octets n
  | option t => (measures t).option
  | boxed t => measures t
  | uint32 => Lengthless.scalar .uint32
  | int32 => Lengthless.scalar .int32
  | uint64 => Lengthless.scalar .uint64
  | int64 => Lengthless.scalar .int64
  | bool => Lengthless.scalar .bool
  | accountId => AccountId.lengthless
  | muxedAccount => MuxedAccount.lengthless
  | signerKey => SignerKey.measures
  | signer => Signer.measures
  | assetCode => AssetCode.lengthless
  | alphaNum4 => Asset.lengthless_credit 4
  | alphaNum12 => Asset.lengthless_credit 12
  | asset => Asset.lengthless
  | poolParameters => PoolParameters.lengthless
  | changeTrustAsset => ChangeTrustAsset.lengthless
  | trustLineAsset => TrustLineAsset.lengthless
  | price => Price.lengthless
  | claimPredicate => ClaimPredicate.measures
  | claimant => Claimant.measures
  | claimableBalanceId => ClaimableBalanceId.lengthless
  | ledgerKey => LedgerKey.measures
  | memo => Memo.measures
  | timeBounds => TimeBounds.lengthless
  | ledgerBounds => LedgerBounds.lengthless
  | conditions => Conditions.measures
  | preconditions => Preconditions.measures
  | uint128 => Contract.UInt128.lengthless
  | int128 => Contract.Int128.lengthless
  | uint256 => Contract.UInt256.lengthless
  | int256 => Contract.Int256.lengthless
  | address => Contract.Address.lengthless
  | value => Contract.Value.measures
  | mapEntry => Contract.Value.measures_entry
  | call => Contract.Call.measures
  | idPreimage => Contract.IdPreimage.lengthless
  | executable => Contract.Executable.lengthless
  | creation => Contract.Creation.lengthless
  | hostFunction => Contract.HostFunction.measures
  | addressCredentials => Contract.AddressCredentials.measures
  | credentials => Contract.Credentials.measures
  | authorizedFunction => Contract.AuthorizedFunction.measures
  | invocation => Contract.Invocation.measures
  | authorization => Contract.Authorization.measures
  | createAccount => Operation.CreateAccount.lengthless
  | payment => Operation.Payment.lengthless
  | pathPaymentStrictReceive => Operation.PathPaymentStrictReceive.measures
  | manageSellOffer => Operation.ManageSellOffer.lengthless
  | createPassiveSellOffer => Operation.CreatePassiveSellOffer.lengthless
  | setOptions => Operation.SetOptions.measures
  | changeTrust => Operation.ChangeTrust.lengthless
  | allowTrust => Operation.AllowTrust.lengthless
  | manageData => Operation.ManageData.measures
  | bumpSequence => Operation.BumpSequence.lengthless
  | manageBuyOffer => Operation.ManageBuyOffer.lengthless
  | pathPaymentStrictSend => Operation.PathPaymentStrictSend.measures
  | createClaimableBalance => Operation.CreateClaimableBalance.measures
  | claimClaimableBalance => Operation.ClaimClaimableBalance.lengthless
  | beginSponsoringFutureReserves => Operation.BeginSponsoringFutureReserves.lengthless
  | revokeSponsorship => Operation.RevokeSponsorship.measures
  | clawback => Operation.Clawback.lengthless
  | clawbackClaimableBalance => Operation.ClawbackClaimableBalance.lengthless
  | setTrustLineFlags => Operation.SetTrustLineFlags.lengthless
  | liquidityPoolDeposit => Operation.LiquidityPoolDeposit.lengthless
  | liquidityPoolWithdraw => Operation.LiquidityPoolWithdraw.lengthless
  | invokeHostFunction => Operation.InvokeHostFunction.measures
  | body => Operation.Body.measures
  | operation => Operation.measures
  | decoratedSignature => DecoratedSignature.measures
  | transactionV0 => TransactionV0.measures
  | transaction => Transaction.measures
  | feeBump => FeeBump.measures
  | signedV0 => Signed.measures TransactionV0.measures
  | signedV1 => Signed.measures Transaction.measures
  | signedFeeBump => Signed.measures FeeBump.measures
  | envelope => Envelope.measures
  | signaturePayload => SignaturePayload.measures

/-- A wire type writes what the layout says, part by part. -/
theorem follows (t : WireType) (v : t.Carrier) :
    Encoding.Follows (t.format.layout v) (t.format.encode v) := by
  induction t using induct with
  | option t ih => exact Format.follows_option fun a _ => ih a
  | boxed t ih => exact ih v
  | named t ht =>
    obtain ⟨F, hF, _⟩ := free_of_isNamed t ht
    exact (hF _).follows (Nat.le_refl _)

/-- A value has bytes exactly if no length in it is above its maximum.  The bytes are those of the
layout; otherwise the error names the first length that is above its maximum, that maximum, and the
number of bytes of what comes before it in the layout. -/
theorem toBytes_names_first_excess (t : WireType) (v : t.Carrier) :
    ((∃ bytes, t.format.toBytes v = .ok bytes) ↔ ∀ e ∈ t.extents v, e.Fits) ∧
      match t.format.toBytes v with
      | .ok bytes => Layout.Spells (t.format.layout v) bytes
      | .error error =>
        ∃ before culprit after, t.extents v = before ++ culprit :: after ∧
          (∀ e ∈ before, e.Fits) ∧ ¬culprit.Fits ∧
          ∃ front part back, t.format.layout v = front ++ part :: back ∧
            Layout.limits front = before.map Extent.limit ∧ part.limit? = some culprit.limit ∧
            error = .excess ⟨culprit.length, culprit.bound.max, Layout.size front⟩ := by
  have hfollows := t.follows v
  have hmeasures := t.measures v
  refine ⟨?_, ?_⟩
  · rw [← Layout.forall_fits_iff hmeasures, ← hfollows.exists_ok_iff]
    exact exists_congr fun bytes => Format.toBytes_eq_ok_iff
  · unfold Format.toBytes
    cases h : t.format.encode v with
    | ok bytes =>
      rw [h] at hfollows
      exact hfollows.2
    | error e =>
      rw [h] at hfollows
      obtain ⟨before, culprit, after, hextents, hfits, hculprit, front, part, back, hlayout,
        hfront, hpart, rfl⟩ := Layout.FirstExcess.exists_extent hfollows hmeasures
      exact ⟨before, culprit, after, hextents, hfits, hculprit, front, part, back, hlayout, hfront,
        hpart, rfl⟩

/-- A text of 29 bytes is one too long for a memo; the bytes of the kind come before it. -/
theorem toBytes_names_first_excess_memo :
    memo.format.toBytes (Memo.text "abcdefghijklmnopqrstuvwxyz012") =
        .error (.excess ⟨29, 28, 4⟩) ∧
      ¬∀ e ∈ memo.extents (Memo.text "abcdefghijklmnopqrstuvwxyz012"), e.Fits := by
  have h : memo.format.toBytes (Memo.text "abcdefghijklmnopqrstuvwxyz012") =
      .error (.excess ⟨29, 28, 4⟩) := rfl
  obtain ⟨hiff, _⟩ := toBytes_names_first_excess memo (.text "abcdefghijklmnopqrstuvwxyz012")
  refine ⟨h, fun hall => ?_⟩
  obtain ⟨bytes, hbytes⟩ := hiff.2 hall
  rw [h] at hbytes
  cases hbytes

end StellarTx.WireType
