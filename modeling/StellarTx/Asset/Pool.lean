/-
# Liquidity pools, pool shares and prices

A pool trades two assets for a fee.  Its id is the digest of its parameters.  Where a trust line is
meant, an asset may also be a share of a pool: the parameters name the pool when trust is given, its
id when the line exists.  In text an asset proper keeps its short form and only a share is written
as a union, so the line `type` tells the two apart.
-/
import StellarTx.Asset.Basic
import StellarTx.Hash.Sha2

namespace StellarTx

open Format (union arm field octets)
open TxRep (Line)

/-! ## Pools -/

/-- The parameters of a pool that keeps the product of its holdings constant. -/
structure PoolParameters where
  assetA : Asset
  assetB : Asset
  /-- In hundredths of a percent. -/
  fee : Int32
  deriving DecidableEq

namespace PoolParameters

/-- The only fee that the network accepts. -/
def standardFee : Int32 := 30

def format : Format PoolParameters :=
  union "LiquidityPoolType"
    [arm 0 "LIQUIDITY_POOL_CONSTANT_PRODUCT"
      (field "constantProduct"
        ((field "assetA" Asset.format).and <| (field "assetB" Asset.format).and <|
          field "fee" .int32))
      (fun (a, b, fee) => ⟨a, b, fee⟩) fun p => some (p.assetA, p.assetB, p.fee)]

/-- The id of a pool. -/
def poolId (p : PoolParameters) : Except Xdr.Error (Octets 32) :=
  Hash.sha256 <$> format.toBytes p

end PoolParameters

/-! ## Pool shares -/

/-- An asset, or a share of a pool that `π` names. -/
inductive AssetOrShare (π : Type) where
  | asset (a : Asset)
  | share (pool : π)
  deriving DecidableEq

namespace AssetOrShare

variable {π : Type}

/-- The asset, unless it is a share. -/
def asset? : AssetOrShare π → Option Asset
  | asset a => some a
  | share _ => none

/-- The arm of a share. -/
def shareArm (pool : Format π) : Arm (AssetOrShare π) :=
  arm 3 "ASSET_TYPE_POOL_SHARE" pool share fun | share p => some p | _ => none

/-- The arms of an asset, and that of a share. -/
def arms (pool : Format π) : List (Arm (AssetOrShare π)) :=
  Asset.arms.map (·.lift asset asset? (fun _ => rfl) (by intro x a h; cases x <;> cases h; rfl)) ++
    [shareArm pool]

/-- The union of assets and shares. -/
def unionFormat (name : String) (pool : Format π) : Format (AssetOrShare π) :=
  union name (arms pool)

/-- Assets and shares, with the short text form for assets. -/
def format (name : String) (pool : Format π) : Format (AssetOrShare π) :=
  { unionFormat name pool with
    print := fun
      | asset a, path => Asset.format.print a path
      | share p, path => .arm path (shareArm pool).label :: pool.print p path
    read := fun source levels path =>
      if source.contains (TxRep.join path "type") then
        (union name [shareArm pool]).read source levels path
      else asset <$> Asset.format.read source levels path }

end AssetOrShare

/-- What trust can be given in. -/
abbrev ChangeTrustAsset := AssetOrShare PoolParameters

def ChangeTrustAsset.format : Format ChangeTrustAsset :=
  AssetOrShare.format "ChangeTrustAsset" (field "liquidityPool" PoolParameters.format)

/-- What an existing trust line holds; a pool is named by its id. -/
abbrev TrustLineAsset := AssetOrShare (Octets 32)

def TrustLineAsset.format : Format TrustLineAsset :=
  AssetOrShare.format "TrustLineAsset" (field "liquidityPoolID" (octets 32))

/-! ## Prices -/

/-- A price as a fraction. -/
structure Price where
  n : Int32
  d : Int32
  deriving DecidableEq, Repr

namespace Price

/-- Refuses a price that is no fraction or is negative. -/
def check (p : Price) : Except ValidationError Unit :=
  if p.d = 0 then .error .zeroDenominator
  else if p.n < 0 ∨ p.d < 0 then .error (.negativePrice p.n p.d)
  else .ok ()

/-- A price that passes the check. -/
def make (n d : Int32) : Except ValidationError Price := do
  check ⟨n, d⟩
  return ⟨n, d⟩

def format : Format Price :=
  ((field "n" .int32).and (field "d" .int32)).map (fun (n, d) => ⟨n, d⟩) fun p => (p.n, p.d)

end Price

end StellarTx
