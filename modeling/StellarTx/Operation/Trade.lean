/-
# Offers and deposits

Operations that offer one asset for another, and those that put assets into a pool and take them
out.
-/
import StellarTx.Asset.Pool

namespace StellarTx.Operation

open Format (field octets)

/-! ## Offers -/

/-- Offers to sell an amount; an existing offer is replaced, and an amount of zero deletes it. -/
structure ManageSellOffer where
  selling : Asset
  buying : Asset
  amount : Int64
  price : Price
  /-- The existing offer, or zero for a new one. -/
  offerId : Int64
  deriving DecidableEq

def ManageSellOffer.format : Format ManageSellOffer :=
  ((field "selling" Asset.format).and <| (field "buying" Asset.format).and <|
    (field "amount" .amount).and <| (field "price" Price.format).and <|
    field "offerID" .int64).map
    (fun (selling, buying, amount, price, id) => ⟨selling, buying, amount, price, id⟩)
    fun op => (op.selling, op.buying, op.amount, op.price, op.offerId)

/-- Offers to sell without taking an offer of the same price. -/
structure CreatePassiveSellOffer where
  selling : Asset
  buying : Asset
  amount : Int64
  price : Price
  deriving DecidableEq

def CreatePassiveSellOffer.format : Format CreatePassiveSellOffer :=
  ((field "selling" Asset.format).and <| (field "buying" Asset.format).and <|
    (field "amount" .amount).and <| field "price" Price.format).map
    (fun (selling, buying, amount, price) => ⟨selling, buying, amount, price⟩)
    fun op => (op.selling, op.buying, op.amount, op.price)

/-- Offers to buy an amount. -/
structure ManageBuyOffer where
  selling : Asset
  buying : Asset
  buyAmount : Int64
  price : Price
  /-- The existing offer, or zero for a new one. -/
  offerId : Int64
  deriving DecidableEq

def ManageBuyOffer.format : Format ManageBuyOffer :=
  ((field "selling" Asset.format).and <| (field "buying" Asset.format).and <|
    (field "buyAmount" .amount).and <| (field "price" Price.format).and <|
    field "offerID" .int64).map
    (fun (selling, buying, amount, price, id) => ⟨selling, buying, amount, price, id⟩)
    fun op => (op.selling, op.buying, op.buyAmount, op.price, op.offerId)

/-! ## Pools -/

/-- Puts both assets of a pool into it. -/
structure LiquidityPoolDeposit where
  pool : Octets 32
  maxAmountA : Int64
  maxAmountB : Int64
  minPrice : Price
  maxPrice : Price
  deriving DecidableEq

def LiquidityPoolDeposit.format : Format LiquidityPoolDeposit :=
  ((field "liquidityPoolID" (octets 32)).and <| (field "maxAmountA" .amount).and <|
    (field "maxAmountB" .amount).and <| (field "minPrice" Price.format).and <|
    field "maxPrice" Price.format).map
    (fun (pool, a, b, min, max) => ⟨pool, a, b, min, max⟩)
    fun op => (op.pool, op.maxAmountA, op.maxAmountB, op.minPrice, op.maxPrice)

/-- Takes both assets of a pool out of it, for an amount of shares. -/
structure LiquidityPoolWithdraw where
  pool : Octets 32
  amount : Int64
  minAmountA : Int64
  minAmountB : Int64
  deriving DecidableEq

def LiquidityPoolWithdraw.format : Format LiquidityPoolWithdraw :=
  ((field "liquidityPoolID" (octets 32)).and <| (field "amount" .amount).and <|
    (field "minAmountA" .amount).and <| field "minAmountB" .amount).map
    (fun (pool, amount, a, b) => ⟨pool, amount, a, b⟩)
    fun op => (op.pool, op.amount, op.minAmountA, op.minAmountB)

end StellarTx.Operation
