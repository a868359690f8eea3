/-
# Operations are regular
-/
import StellarTx.Operation.Basic
import StellarTx.Proofs.Claim
import StellarTx.Proofs.Contract

namespace StellarTx

namespace Operation

open Format (Outlined)

variable {n : Nat}

/-! ## Payments -/

theorem CreateAccount.outlined :
    Outlined n (.fields ["destination", "startingBalance"]) CreateAccount.format :=
  .at (.map <| .and (.field "destination" AccountId.outlined)
    (.field "startingBalance" (.scalar .amount))) rfl

theorem Payment.outlined :
    Outlined n (.fields ["destination", "asset", "amount"]) Payment.format :=
  .at (.map <| .and (.field "destination" MuxedAccount.outlined) <|
    .and (.field "asset" Asset.outlined) (.field "amount" (.scalar .amount))) rfl

/-- The assets between the two stand in an array. -/
theorem PathPaymentStrictReceive.outlined :
    Outlined n (.fields ["sendAsset", "sendMax", "destination", "destAsset", "destAmount", "path"])
      PathPaymentStrictReceive.format :=
  .at (.map <| .and (.field "sendAsset" Asset.outlined) <|
    .and (.field "sendMax" (.scalar .amount)) <|
    .and (.field "destination" MuxedAccount.outlined) <|
    .and (.field "destAsset" Asset.outlined) <| .and (.field "destAmount" (.scalar .amount))
    (.field "path" (.array Asset.outlined fun _ _ => ⟨_, rfl⟩))) rfl

theorem PathPaymentStrictSend.outlined :
    Outlined n (.fields ["sendAsset", "sendAmount", "destination", "destAsset", "destMin", "path"])
      PathPaymentStrictSend.format :=
  .at (.map <| .and (.field "sendAsset" Asset.outlined) <|
    .and (.field "sendAmount" (.scalar .amount)) <|
    .and (.field "destination" MuxedAccount.outlined) <|
    .and (.field "destAsset" Asset.outlined) <| .and (.field "destMin" (.scalar .amount))
    (.field "path" (.array Asset.outlined fun _ _ => ⟨_, rfl⟩))) rfl

/-! ## Offers and deposits -/

/-- An offer that is changed or deleted is named by its id. -/
theorem ManageSellOffer.outlined :
    Outlined n (.fields ["selling", "buying", "amount", "price", "offerID"])
      ManageSellOffer.format :=
  .at (.map <| .and (.field "selling" Asset.outlined) <| .and (.field "buying" Asset.outlined) <|
    .and (.field "amount" (.scalar .amount)) <| .and (.field "price" Price.outlined)
    (.field "offerID" (.scalar .int64))) rfl

/-- A passive offer is always new. -/
theorem CreatePassiveSellOffer.outlined :
    Outlined n (.fields ["selling", "buying", "amount", "price"])
      CreatePassiveSellOffer.format :=
  .at (.map <| .and (.field "selling" Asset.outlined) <| .and (.field "buying" Asset.outlined) <|
    .and (.field "amount" (.scalar .amount)) (.field "price" Price.outlined)) rfl

/-- The amount is what is bought here, and has a name of its own. -/
theorem ManageBuyOffer.outlined :
    Outlined n (.fields ["selling", "buying", "buyAmount", "price", "offerID"])
      ManageBuyOffer.format :=
  .at (.map <| .and (.field "selling" Asset.outlined) <| .and (.field "buying" Asset.outlined) <|
    .and (.field "buyAmount" (.scalar .amount)) <| .and (.field "price" Price.outlined)
    (.field "offerID" (.scalar .int64))) rfl

/-- The prices bound what the pool may take. -/
theorem LiquidityPoolDeposit.outlined :
    Outlined n (.fields ["liquidityPoolID", "maxAmountA", "maxAmountB", "minPrice", "maxPrice"])
      LiquidityPoolDeposit.format :=
  .at (.map <| .and (.field "liquidityPoolID" (.octets 32)) <|
    .and (.field "maxAmountA" (.scalar .amount)) <|
    .and (.field "maxAmountB" (.scalar .amount)) <|
    .and (.field "minPrice" Price.outlined) (.field "maxPrice" Price.outlined)) rfl

theorem LiquidityPoolWithdraw.outlined :
    Outlined n (.fields ["liquidityPoolID", "amount", "minAmountA", "minAmountB"])
      LiquidityPoolWithdraw.format :=
  .at (.map <| .and (.field "liquidityPoolID" (.octets 32)) <|
    .and (.field "amount" (.scalar .amount)) <|
    .and (.field "minAmountA" (.scalar .amount)) (.field "minAmountB" (.scalar .amount))) rfl

/-! ## Settings -/

/-- All settings may be absent, and then stay as they are. -/
theorem SetOptions.outlined :
    Outlined n (.fields ["inflationDest", "clearFlags", "setFlags", "masterWeight", "lowThreshold",
      "medThreshold", "highThreshold", "homeDomain", "signer"]) SetOptions.format :=
  .at (.map <| .and (.field "inflationDest" (.option AccountId.outlined)) <|
    .and (.field "clearFlags" (.option (.scalar .uint32))) <|
    .and (.field "setFlags" (.option (.scalar .uint32))) <|
    .and (.field "masterWeight" (.option (.scalar .uint32))) <|
    .and (.field "lowThreshold" (.option (.scalar .uint32))) <|
    .and (.field "medThreshold" (.option (.scalar .uint32))) <|
    .and (.field "highThreshold" (.option (.scalar .uint32))) <|
    .and (.field "homeDomain" (.option .string))
    (.field "signer" (.option Signer.outlined))) rfl

/-- Without a value the entry is removed. -/
theorem ManageData.outlined :
    Outlined n (.fields ["dataName", "dataValue"]) ManageData.format :=
  .at (.map <| .and (.field "dataName" .string) (.field "dataValue" (.option .bytes))) rfl

theorem BumpSequence.outlined : Outlined n (.fields ["bumpTo"]) BumpSequence.format :=
  .map (.field "bumpTo" (.scalar .int64))

/-! ## Trust -/

theorem ChangeTrust.outlined : Outlined n (.fields ["line", "limit"]) ChangeTrust.format :=
  .at (.map <| .and (.field "line" ChangeTrustAsset.outlined)
    (.field "limit" (.scalar .amount))) rfl

/-- The asset is a code only, since the issuer is whoever allows the trust. -/
theorem AllowTrust.outlined :
    Outlined n (.fields ["trustor", "asset", "authorize"]) AllowTrust.format :=
  .at (.map <| .and (.field "trustor" AccountId.outlined) <|
    .and (.field "asset" AssetCode.outlined) (.field "authorize" (.scalar .uint32))) rfl

theorem SetTrustLineFlags.outlined :
    Outlined n (.fields ["trustor", "asset", "clearFlags", "setFlags"])
      SetTrustLineFlags.format :=
  .at (.map <| .and (.field "trustor" AccountId.outlined) <| .and (.field "asset" Asset.outlined) <|
    .and (.field "clearFlags" (.scalar .uint32)) (.field "setFlags" (.scalar .uint32))) rfl

theorem Clawback.outlined : Outlined n (.fields ["asset", "from", "amount"]) Clawback.format :=
  .at (.map <| .and (.field "asset" Asset.outlined) <| .and (.field "from" MuxedAccount.outlined)
    (.field "amount" (.scalar .amount))) rfl

/-! ## Claimable balances and sponsorships -/

theorem CreateClaimableBalance.outlined :
    Outlined n (.fields ["asset", "amount", "claimants"]) CreateClaimableBalance.format :=
  .at (.map <| .and (.field "asset" Asset.outlined) <| .and (.field "amount" (.scalar .amount))
    (.field "claimants" (.array Claimant.outlined fun _ _ => ⟨_, rfl⟩))) rfl

theorem ClaimClaimableBalance.outlined :
    Outlined n (.fields ["balanceID"]) ClaimClaimableBalance.format :=
  .map (.field "balanceID" ClaimableBalanceId.outlined)

theorem ClawbackClaimableBalance.outlined :
    Outlined n (.fields ["balanceID"]) ClawbackClaimableBalance.format :=
  .map (.field "balanceID" ClaimableBalanceId.outlined)

theorem BeginSponsoringFutureReserves.outlined :
    Outlined n (.fields ["sponsoredID"]) BeginSponsoringFutureReserves.format :=
  .map (.field "sponsoredID" AccountId.outlined)

/-- The signer stands with its account, and everything else is named by its key. -/
theorem RevokeSponsorship.outlined :
    Outlined n (.fields ["ledgerKey", "signer", "type"]) RevokeSponsorship.format :=
  .at (.union _ ⟨rfl, fun a => by cases a <;> rfl⟩ <|
    .cons (.field "ledgerKey" LedgerKey.outlined) <|
    .cons (.field "signer" <| .and (.field "accountID" AccountId.outlined)
      (.field "signerKey" SignerKey.outlined)) .nil) rfl

/-! ## Bodies -/

theorem InvokeHostFunction.outlined :
    Outlined n (.fields ["hostFunction", "auth"]) InvokeHostFunction.format :=
  .at (.map <| .and (.field "hostFunction" Contract.HostFunction.outlined)
    (.field "auth" (.array Contract.Authorization.outlined fun _ _ => ⟨_, rfl⟩))) rfl

/-- The kinds of operations are told apart. -/
theorem Body.sound : Arm.Sound Body.arms :=
  ⟨rfl, fun a => by cases a <;> rfl⟩

/-- To merge an account names the destination without a field of its own, and two kinds hold
nothing. -/
theorem Body.outlined :
    Outlined n (.fields ["createAccountOp", "paymentOp", "pathPaymentStrictReceiveOp",
      "manageSellOfferOp", "createPassiveSellOfferOp", "setOptionsOp", "changeTrustOp",
      "allowTrustOp", "destination", "manageDataOp", "bumpSequenceOp", "manageBuyOfferOp",
      "pathPaymentStrictSendOp", "createClaimableBalanceOp", "claimClaimableBalanceOp",
      "beginSponsoringFutureReservesOp", "revokeSponsorshipOp", "clawbackOp",
      "clawbackClaimableBalanceOp", "setTrustLineFlagsOp", "liquidityPoolDepositOp",
      "liquidityPoolWithdrawOp", "invokeHostFunctionOp", "type"]) Body.format :=
  .at (.union _ Body.sound <| .cons (.field "createAccountOp" CreateAccount.outlined) <|
    .cons (.field "paymentOp" Payment.outlined) <|
    .cons (.field "pathPaymentStrictReceiveOp" PathPaymentStrictReceive.outlined) <|
    .cons (.field "manageSellOfferOp" ManageSellOffer.outlined) <|
    .cons (.field "createPassiveSellOfferOp" CreatePassiveSellOffer.outlined) <|
    .cons (.field "setOptionsOp" SetOptions.outlined) <|
    .cons (.field "changeTrustOp" ChangeTrust.outlined) <|
    .cons (.field "allowTrustOp" AllowTrust.outlined) <|
    .cons (.field "destination" MuxedAccount.outlined) <| .void <|
    .cons (.field "manageDataOp" ManageData.outlined) <|
    .cons (.field "bumpSequenceOp" BumpSequence.outlined) <|
    .cons (.field "manageBuyOfferOp" ManageBuyOffer.outlined) <|
    .cons (.field "pathPaymentStrictSendOp" PathPaymentStrictSend.outlined) <|
    .cons (.field "createClaimableBalanceOp" CreateClaimableBalance.outlined) <|
    .cons (.field "claimClaimableBalanceOp" ClaimClaimableBalance.outlined) <|
    .cons (.field "beginSponsoringFutureReservesOp" BeginSponsoringFutureReserves.outlined) <|
    .void <| .cons (.field "revokeSponsorshipOp" RevokeSponsorship.outlined) <|
    .cons (.field "clawbackOp" Clawback.outlined) <|
    .cons (.field "clawbackClaimableBalanceOp" ClawbackClaimableBalance.outlined) <|
    .cons (.field "setTrustLineFlagsOp" SetTrustLineFlags.outlined) <|
    .cons (.field "liquidityPoolDepositOp" LiquidityPoolDeposit.outlined) <|
    .cons (.field "liquidityPoolWithdrawOp" LiquidityPoolWithdraw.outlined) <|
    .cons (.field "invokeHostFunctionOp" InvokeHostFunction.outlined) .nil) rfl

end Operation

open Format (Outlined)

/-- The account of an operation may be absent, and is then that of the transaction. -/
theorem Operation.outlined {n : Nat} :
    Outlined n (.fields ["sourceAccount", "body"]) Operation.format :=
  .at (.map <| .and (.field "sourceAccount" (.option MuxedAccount.outlined))
    (.field "body" Operation.Body.outlined)) rfl

end StellarTx
