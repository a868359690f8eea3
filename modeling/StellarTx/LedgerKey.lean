/-
# Keys of ledger entries

A ledger key names an entry whose reserve somebody else may have paid for.
-/
import StellarTx.Asset.Pool
import StellarTx.Claim.Basic

namespace StellarTx

open Format (union arm field octets)

/-- The greatest number of bytes in the name of a data entry. -/
def maxDataName : Nat := BoundedField.dataName.max

/-- The name of a ledger entry. -/
inductive LedgerKey where
  | account (account : AccountId)
  | trustLine (holder : AccountId) (asset : TrustLineAsset)
  | offer (seller : AccountId) (offer : Int64)
  | data (owner : AccountId) (name : String)
  | claimableBalance (balance : ClaimableBalanceId)
  | liquidityPool (pool : Octets 32)
  deriving DecidableEq

def LedgerKey.format : Format LedgerKey :=
  union "LedgerEntryType"
    [arm 0 "ACCOUNT" (field "account" (field "accountID" AccountId.format))
        account fun | account a => some a | _ => none,
     arm 1 "TRUSTLINE"
        (field "trustLine" ((field "accountID" AccountId.format).and <|
          field "asset" TrustLineAsset.format))
        (fun (holder, asset) => trustLine holder asset)
        fun | trustLine holder asset => some (holder, asset) | _ => none,
     arm 2 "OFFER"
        (field "offer" ((field "sellerID" AccountId.format).and <| field "offerID" .int64))
        (fun (seller, id) => offer seller id)
        fun | offer seller id => some (seller, id) | _ => none,
     arm 3 "DATA"
        (field "data" ((field "accountID" AccountId.format).and <|
          field "dataName" (.string maxDataName)))
        (fun (owner, name) => data owner name)
        fun | data owner name => some (owner, name) | _ => none,
     arm 4 "CLAIMABLE_BALANCE"
        (field "claimableBalance" (field "balanceID" ClaimableBalanceId.format))
        claimableBalance fun | claimableBalance balance => some balance | _ => none,
     arm 5 "LIQUIDITY_POOL" (field "liquidityPool" (field "liquidityPoolID" (octets 32)))
        liquidityPool fun | liquidityPool pool => some pool | _ => none]

end StellarTx
