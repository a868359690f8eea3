/-
# Payments

Operations that move an amount from one account to another, as it is or by trading along a path of
assets.
-/
import StellarTx.Asset.Basic

namespace StellarTx.Operation

open Format (field array)

/-- The greatest number of assets on the path of a payment. -/
def maxPath : Nat := BoundedField.paymentPath.max

/-- Opens an account with a balance. -/
structure CreateAccount where
  destination : AccountId
  startingBalance : Int64
  deriving DecidableEq

def CreateAccount.format : Format CreateAccount :=
  ((field "destination" AccountId.format).and <| field "startingBalance" .amount).map
    (fun (destination, balance) => ⟨destination, balance⟩)
    fun op => (op.destination, op.startingBalance)

/-- Pays an amount. -/
structure Payment where
  destination : MuxedAccount
  asset : Asset
  amount : Int64
  deriving DecidableEq

def Payment.format : Format Payment :=
  ((field "destination" MuxedAccount.format).and <| (field "asset" Asset.format).and <|
    field "amount" .amount).map
    (fun (destination, asset, amount) => ⟨destination, asset, amount⟩)
    fun op => (op.destination, op.asset, op.amount)

/-- Pays what arrives, at the cost of at most what is sent. -/
structure PathPaymentStrictReceive where
  sendAsset : Asset
  sendMax : Int64
  destination : MuxedAccount
  destAsset : Asset
  destAmount : Int64
  path : List Asset
  deriving DecidableEq

def PathPaymentStrictReceive.format : Format PathPaymentStrictReceive :=
  ((field "sendAsset" Asset.format).and <| (field "sendMax" .amount).and <|
    (field "destination" MuxedAccount.format).and <| (field "destAsset" Asset.format).and <|
    (field "destAmount" .amount).and <| field "path" (array maxPath Asset.format)).map
    (fun (asset, max, destination, destAsset, amount, path) =>
      ⟨asset, max, destination, destAsset, amount, path⟩)
    fun op => (op.sendAsset, op.sendMax, op.destination, op.destAsset, op.destAmount, op.path)

/-- Pays what is sent, unless less than a minimum would arrive. -/
structure PathPaymentStrictSend where
  sendAsset : Asset
  sendAmount : Int64
  destination : MuxedAccount
  destAsset : Asset
  destMin : Int64
  path : List Asset
  deriving DecidableEq

def PathPaymentStrictSend.format : Format PathPaymentStrictSend :=
  ((field "sendAsset" Asset.format).and <| (field "sendAmount" .amount).and <|
    (field "destination" MuxedAccount.format).and <| (field "destAsset" Asset.format).and <|
    (field "destMin" .amount).and <| field "path" (array maxPath Asset.format)).map
    (fun (asset, amount, destination, destAsset, min, path) =>
      ⟨asset, amount, destination, destAsset, min, path⟩)
    fun op => (op.sendAsset, op.sendAmount, op.destination, op.destAsset, op.destMin, op.path)

end StellarTx.Operation
