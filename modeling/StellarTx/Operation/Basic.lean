/-
# Operations

A transaction is a list of operations, each of one of twenty-five kinds.  An operation acts for the
source account of the transaction unless it names another.
-/
import StellarTx.Contract.Authorization
import StellarTx.Operation.Claim
import StellarTx.Operation.Payment
import StellarTx.Operation.Settings
import StellarTx.Operation.Sponsorship
import StellarTx.Operation.Trade
import StellarTx.Operation.Trust

namespace StellarTx

namespace Operation

open Format (union arm void field option array)
open Xdr (unbounded)

/-- Calls the contract host. -/
structure InvokeHostFunction where
  function : Contract.HostFunction
  auth : List Contract.Authorization
  deriving DecidableEq

def InvokeHostFunction.format : Format InvokeHostFunction :=
  ((field "hostFunction" Contract.HostFunction.format).and <|
    field "auth" (array unbounded Contract.Authorization.format)).map
    (fun (function, auth) => ⟨function, auth⟩) fun op => (op.function, op.auth)

/-- What an operation does. -/
inductive Body where
  | createAccount (op : CreateAccount)
  | payment (op : Payment)
  | pathPaymentStrictReceive (op : PathPaymentStrictReceive)
  | manageSellOffer (op : ManageSellOffer)
  | createPassiveSellOffer (op : CreatePassiveSellOffer)
  | setOptions (op : SetOptions)
  | changeTrust (op : ChangeTrust)
  | allowTrust (op : AllowTrust)
  | accountMerge (destination : MuxedAccount)
  | inflation
  | manageData (op : ManageData)
  | bumpSequence (op : BumpSequence)
  | manageBuyOffer (op : ManageBuyOffer)
  | pathPaymentStrictSend (op : PathPaymentStrictSend)
  | createClaimableBalance (op : CreateClaimableBalance)
  | claimClaimableBalance (op : ClaimClaimableBalance)
  | beginSponsoringFutureReserves (op : BeginSponsoringFutureReserves)
  | endSponsoringFutureReserves
  | revokeSponsorship (op : RevokeSponsorship)
  | clawback (op : Clawback)
  | clawbackClaimableBalance (op : ClawbackClaimableBalance)
  | setTrustLineFlags (op : SetTrustLineFlags)
  | liquidityPoolDeposit (op : LiquidityPoolDeposit)
  | liquidityPoolWithdraw (op : LiquidityPoolWithdraw)
  | invokeHostFunction (op : InvokeHostFunction)
  deriving DecidableEq

namespace Body

/-- The kinds of operations, each with its number and its name. -/
def arms : List (Arm Body) :=
  [arm 0 "CREATE_ACCOUNT" (field "createAccountOp" CreateAccount.format)
      createAccount fun | createAccount op => some op | _ => none,
   arm 1 "PAYMENT" (field "paymentOp" Payment.format)
      payment fun | payment op => some op | _ => none,
   arm 2 "PATH_PAYMENT_STRICT_RECEIVE"
      (field "pathPaymentStrictReceiveOp" PathPaymentStrictReceive.format)
      pathPaymentStrictReceive fun | pathPaymentStrictReceive op => some op | _ => none,
   arm 3 "MANAGE_SELL_OFFER" (field "manageSellOfferOp" ManageSellOffer.format)
      manageSellOffer fun | manageSellOffer op => some op | _ => none,
   arm 4 "CREATE_PASSIVE_SELL_OFFER"
      (field "createPassiveSellOfferOp" CreatePassiveSellOffer.format)
      createPassiveSellOffer fun | createPassiveSellOffer op => some op | _ => none,
   arm 5 "SET_OPTIONS" (field "setOptionsOp" SetOptions.format)
      setOptions fun | setOptions op => some op | _ => none,
   arm 6 "CHANGE_TRUST" (field "changeTrustOp" ChangeTrust.format)
      changeTrust fun | changeTrust op => some op | _ => none,
   arm 7 "ALLOW_TRUST" (field "allowTrustOp" AllowTrust.format)
      allowTrust fun | allowTrust op => some op | _ => none,
   arm 8 "ACCOUNT_MERGE" (field "destination" MuxedAccount.format)
      accountMerge fun | accountMerge destination => some destination | _ => none,
   void 9 "INFLATION" inflation fun | inflation => some () | _ => none,
   arm 10 "MANAGE_DATA" (field "manageDataOp" ManageData.format)
      manageData fun | manageData op => some op | _ => none,
   arm 11 "BUMP_SEQUENCE" (field "bumpSequenceOp" BumpSequence.format)
      bumpSequence fun | bumpSequence op => some op | _ => none,
   arm 12 "MANAGE_BUY_OFFER" (field "manageBuyOfferOp" ManageBuyOffer.format)
      manageBuyOffer fun | manageBuyOffer op => some op | _ => none,
   arm 13 "PATH_PAYMENT_STRICT_SEND"
      (field "pathPaymentStrictSendOp" PathPaymentStrictSend.format)
      pathPaymentStrictSend fun | pathPaymentStrictSend op => some op | _ => none,
   arm 14 "CREATE_CLAIMABLE_BALANCE"
      (field "createClaimableBalanceOp" CreateClaimableBalance.format)
      createClaimableBalance fun | createClaimableBalance op => some op | _ => none,
   arm 15 "CLAIM_CLAIMABLE_BALANCE"
      (field "claimClaimableBalanceOp" ClaimClaimableBalance.format)
      claimClaimableBalance fun | claimClaimableBalance op => some op | _ => none,
   arm 16 "BEGIN_SPONSORING_FUTURE_RESERVES"
      (field "beginSponsoringFutureReservesOp" BeginSponsoringFutureReserves.format)
      beginSponsoringFutureReserves
      fun | beginSponsoringFutureReserves op => some op | _ => none,
   void 17 "END_SPONSORING_FUTURE_RESERVES" endSponsoringFutureReserves
      fun | endSponsoringFutureReserves => some () | _ => none,
   arm 18 "REVOKE_SPONSORSHIP" (field "revokeSponsorshipOp" RevokeSponsorship.format)
      revokeSponsorship fun | revokeSponsorship op => some op | _ => none,
   arm 19 "CLAWBACK" (field "clawbackOp" Clawback.format)
      clawback fun | clawback op => some op | _ => none,
   arm 20 "CLAWBACK_CLAIMABLE_BALANCE"
      (field "clawbackClaimableBalanceOp" ClawbackClaimableBalance.format)
      clawbackClaimableBalance fun | clawbackClaimableBalance op => some op | _ => none,
   arm 21 "SET_TRUST_LINE_FLAGS" (field "setTrustLineFlagsOp" SetTrustLineFlags.format)
      setTrustLineFlags fun | setTrustLineFlags op => some op | _ => none,
   arm 22 "LIQUIDITY_POOL_DEPOSIT" (field "liquidityPoolDepositOp" LiquidityPoolDeposit.format)
      liquidityPoolDeposit fun | liquidityPoolDeposit op => some op | _ => none,
   arm 23 "LIQUIDITY_POOL_WITHDRAW" (field "liquidityPoolWithdrawOp" LiquidityPoolWithdraw.format)
      liquidityPoolWithdraw fun | liquidityPoolWithdraw op => some op | _ => none,
   arm 24 "INVOKE_HOST_FUNCTION" (field "invokeHostFunctionOp" InvokeHostFunction.format)
      invokeHostFunction fun | invokeHostFunction op => some op | _ => none]

def format : Format Body := union "OperationType" arms

/-- The kind of an operation. -/
def arm? (body : Body) : Option (Arm Body) := arms.find? (·.get? body |>.isSome)

/-- The name of the kind. -/
def name (body : Body) : String := (body.arm?.map (·.label)).getD ""

/-- The number of the kind. -/
def code (body : Body) : Int32 := (body.arm?.map (·.code)).getD 0

/-- Refuses a body that a constructor would have refused. -/
def validate : Body → Except ValidationError Unit
  | setOptions op => op.validate
  | manageData op => op.validate
  | manageSellOffer op => op.price.check
  | createPassiveSellOffer op => op.price.check
  | manageBuyOffer op => op.price.check
  | liquidityPoolDeposit op => do
    op.minPrice.check
    op.maxPrice.check
  | pathPaymentStrictReceive op => BoundedField.paymentPath.check op.path.length
  | pathPaymentStrictSend op => BoundedField.paymentPath.check op.path.length
  | createClaimableBalance op => op.validate
  | _ => return ()

end Body

end Operation

open Format (field option)

/-- An operation and the account that it acts for, if not the source of the transaction. -/
structure Operation where
  sourceAccount : Option MuxedAccount := none
  body : Operation.Body
  deriving DecidableEq

def Operation.format : Format Operation :=
  ((field "sourceAccount" (option MuxedAccount.format)).and <|
    field "body" Operation.Body.format).map
    (fun (source, body) => ⟨source, body⟩) fun op => (op.sourceAccount, op.body)

end StellarTx
