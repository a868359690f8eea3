/-
# Wire types

The types whose values can stand alone as bytes: numbers and flags, byte strings of a known length,
every type of this library that has a format, and values of these that may be absent or that cost a
level of nesting.
-/
import StellarTx.Transaction.Envelope

namespace StellarTx

/-- A type that has a format. -/
inductive WireType where
  /-- Exactly so many bytes. -/
  | octets (n : Nat)
  /-- A value that may be absent. -/
  | option (t : WireType)
  /-- A value one level deeper. -/
  | boxed (t : WireType)
  | uint32 | int32 | uint64 | int64 | bool
  | accountId | muxedAccount | signerKey | signer
  | assetCode | alphaNum4 | alphaNum12 | asset | poolParameters | changeTrustAsset
  | trustLineAsset | price
  | claimPredicate | claimant | claimableBalanceId | ledgerKey
  | memo | timeBounds | ledgerBounds | conditions | preconditions
  | uint128 | int128 | uint256 | int256 | address | value | mapEntry | call | idPreimage
  | executable | creation | hostFunction | addressCredentials | credentials | authorizedFunction
  | invocation | authorization
  | createAccount | payment | pathPaymentStrictReceive | manageSellOffer | createPassiveSellOffer
  | setOptions | changeTrust | allowTrust | manageData | bumpSequence | manageBuyOffer
  | pathPaymentStrictSend | createClaimableBalance | claimClaimableBalance
  | beginSponsoringFutureReserves | revokeSponsorship | clawback | clawbackClaimableBalance
  | setTrustLineFlags | liquidityPoolDeposit | liquidityPoolWithdraw | invokeHostFunction | body
  | operation
  | decoratedSignature | transactionV0 | transaction | feeBump | signedV0 | signedV1
  | signedFeeBump | envelope | signaturePayload
  deriving DecidableEq, Repr

namespace WireType

/-- The values of a wire type. -/
def Carrier : WireType → Type
  | octets n => Octets n
  | option t => Option t.Carrier
  | boxed t => t.Carrier
  | uint32 => UInt32
  | int32 => Int32
  | uint64 => UInt64
  | int64 => Int64
  | bool => Bool
  | accountId => AccountId
  | muxedAccount => MuxedAccount
  | signerKey => SignerKey
  | signer => Signer
  | assetCode => AssetCode
  | alphaNum4 => Octets 4 × AccountId
  | alphaNum12 => Octets 12 × AccountId
  | asset => Asset
  | poolParameters => PoolParameters
  | changeTrustAsset => ChangeTrustAsset
  | trustLineAsset => TrustLineAsset
  | price => Price
  | claimPredicate => ClaimPredicate
  | claimant => Claimant
  | claimableBalanceId => ClaimableBalanceId
  | ledgerKey => LedgerKey
  | memo => Memo
  | timeBounds => TimeBounds
  | ledgerBounds => LedgerBounds
  | conditions => Conditions
  | preconditions => Preconditions
  | uint128 => Contract.UInt128
  | int128 => Contract.Int128
  | uint256 => Contract.UInt256
  | int256 => Contract.Int256
  | address => Contract.Address
  | value => Contract.Value
  | mapEntry => Contract.Value × Contract.Value
  | call => Contract.Call
  | idPreimage => Contract.IdPreimage
  | executable => Contract.Executable
  | creation => Contract.Creation
  | hostFunction => Contract.HostFunction
  | addressCredentials => Contract.AddressCredentials
  | credentials => Contract.Credentials
  | authorizedFunction => Contract.AuthorizedFunction
  | invocation => Contract.Invocation
  | authorization => Contract.Authorization
  | createAccount => Operation.CreateAccount
  | payment => Operation.Payment
  | pathPaymentStrictReceive => Operation.PathPaymentStrictReceive
  | manageSellOffer => Operation.ManageSellOffer
  | createPassiveSellOffer => Operation.CreatePassiveSellOffer
  | setOptions => Operation.SetOptions
  | changeTrust => Operation.ChangeTrust
  | allowTrust => Operation.AllowTrust
  | manageData => Operation.ManageData
  | bumpSequence => Operation.BumpSequence
  | manageBuyOffer => Operation.ManageBuyOffer
  | pathPaymentStrictSend => Operation.PathPaymentStrictSend
  | createClaimableBalance => Operation.CreateClaimableBalance
  | claimClaimableBalance => Operation.ClaimClaimableBalance
  | beginSponsoringFutureReserves => Operation.BeginSponsoringFutureReserves
  | revokeSponsorship => Operation.RevokeSponsorship
  | clawback => Operation.Clawback
  | clawbackClaimableBalance => Operation.ClawbackClaimableBalance
  | setTrustLineFlags => Operation.SetTrustLineFlags
  | liquidityPoolDeposit => Operation.LiquidityPoolDeposit
  | liquidityPoolWithdraw => Operation.LiquidityPoolWithdraw
  | invokeHostFunction => Operation.InvokeHostFunction
  | body => Operation.Body
  | operation => Operation
  | decoratedSignature => DecoratedSignature
  | transactionV0 => TransactionV0
  | transaction => Transaction
  | feeBump => FeeBump
  | signedV0 => Signed TransactionV0
  | signedV1 => Signed Transaction
  | signedFeeBump => Signed FeeBump
  | envelope => Envelope
  | signaturePayload => SignaturePayload

/-- The format of a wire type. -/
def format : (t : WireType) → Format t.Carrier
  | octets n => Format.octets n
  | option t => t.format.option
  | boxed t => t.format.deeper
  | uint32 => Format.uint32
  | int32 => Format.int32
  | uint64 => Format.uint64
  | int64 => Format.int64
  | bool => Format.bool
  | accountId => AccountId.format
  | muxedAccount => MuxedAccount.format
  | signerKey => SignerKey.format
  | signer => Signer.format
  | assetCode => AssetCode.format
  | alphaNum4 => Asset.creditFormat 4
  | alphaNum12 => Asset.creditFormat 12
  | asset => Asset.format
  | poolParameters => PoolParameters.format
  | changeTrustAsset => ChangeTrustAsset.format
  | trustLineAsset => TrustLineAsset.format
  | price => Price.format
  | claimPredicate => ClaimPredicate.format
  | claimant => Claimant.format
  | claimableBalanceId => ClaimableBalanceId.format
  | ledgerKey => LedgerKey.format
  | memo => Memo.format
  | timeBounds => TimeBounds.format
  | ledgerBounds => LedgerBounds.format
  | conditions => Conditions.format
  | preconditions => Preconditions.format
  | uint128 => Contract.UInt128.format
  | int128 => Contract.Int128.format
  | uint256 => Contract.UInt256.format
  | int256 => Contract.Int256.format
  | address => Contract.Address.format
  | value => Contract.Value.format
  | mapEntry => Contract.Value.entryFormat Contract.Value.format
  | call => Contract.Call.format
  | idPreimage => Contract.IdPreimage.format
  | executable => Contract.Executable.format
  | creation => Contract.Creation.format
  | hostFunction => Contract.HostFunction.format
  | addressCredentials => Contract.AddressCredentials.format
  | credentials => Contract.Credentials.format
  | authorizedFunction => Contract.AuthorizedFunction.format
  | invocation => Contract.Invocation.format
  | authorization => Contract.Authorization.format
  | createAccount => Operation.CreateAccount.format
  | payment => Operation.Payment.format
  | pathPaymentStrictReceive => Operation.PathPaymentStrictReceive.format
  | manageSellOffer => Operation.ManageSellOffer.format
  | createPassiveSellOffer => Operation.CreatePassiveSellOffer.format
  | setOptions => Operation.SetOptions.format
  | changeTrust => Operation.ChangeTrust.format
  | allowTrust => Operation.AllowTrust.format
  | manageData => Operation.ManageData.format
  | bumpSequence => Operation.BumpSequence.format
  | manageBuyOffer => Operation.ManageBuyOffer.format
  | pathPaymentStrictSend => Operation.PathPaymentStrictSend.format
  | createClaimableBalance => Operation.CreateClaimableBalance.format
  | claimClaimableBalance => Operation.ClaimClaimableBalance.format
  | beginSponsoringFutureReserves => Operation.BeginSponsoringFutureReserves.format
  | revokeSponsorship => Operation.RevokeSponsorship.format
  | clawback => Operation.Clawback.format
  | clawbackClaimableBalance => Operation.ClawbackClaimableBalance.format
  | setTrustLineFlags => Operation.SetTrustLineFlags.format
  | liquidityPoolDeposit => Operation.LiquidityPoolDeposit.format
  | liquidityPoolWithdraw => Operation.LiquidityPoolWithdraw.format
  | invokeHostFunction => Operation.InvokeHostFunction.format
  | body => Operation.Body.format
  | operation => Operation.format
  | decoratedSignature => DecoratedSignature.format
  | transactionV0 => TransactionV0.format
  | transaction => Transaction.format
  | feeBump => FeeBump.format
  | signedV0 => Signed.format TransactionV0.format
  | signedV1 => Signed.format Transaction.format
  | signedFeeBump => Signed.format FeeBump.format
  | envelope => Envelope.format
  | signaturePayload => SignaturePayload.format

end WireType

end StellarTx
