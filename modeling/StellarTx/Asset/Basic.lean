/-
# Assets

An asset is the native one or a code together with the account that issues it.  In text it is `XLM`
or `CODE:ISSUER`; reading also takes `native`.
-/
import StellarTx.Account
import StellarTx.Asset.Code

namespace StellarTx

open Format (union arm void field octets)

/-- An asset. -/
inductive Asset where
  | native
  | credit (code : AssetCode) (issuer : AccountId)
  deriving DecidableEq

namespace Asset

/-- The code, unless the asset is the native one. -/
def code? : Asset → Option AssetCode
  | native => none
  | credit code _ => some code

/-- The issuer, unless the asset is the native one. -/
def issuer? : Asset → Option AccountId
  | native => none
  | credit _ issuer => some issuer

/-- The asset of an issuer with a code of letters and digits. -/
def ofCode (text : String) (issuer : AccountId) : Except ValidationError Asset :=
  (credit · issuer) <$> AssetCode.ofPlainText text

/-- The text of an asset. -/
def toText : Asset → String
  | native => "XLM"
  | credit code issuer => code.toText ++ ":" ++ issuer.toText

/-- The asset that a text stands for.  The code is read before the issuer. -/
def ofText (text : String) : Except ValidationError Asset :=
  if text = "XLM" ∨ text = "native" then .ok native
  else match Text.splitOnce ':' text.toList with
    | none => .error (.asset text)
    | some (code, issuer) => do
      let code ← AssetCode.ofText (String.ofList code)
      match AccountId.ofText (String.ofList issuer) with
      | .ok issuer => return credit code issuer
      | .error e => throw (.key e)

/-! ## Format -/

/-- A code of `n` bytes and its issuer. -/
def creditFormat (n : Nat) : Format (Octets n × AccountId) :=
  (field "assetCode" (octets n)).and (field "issuer" AccountId.format)

/-- The arms of an asset, which larger unions share. -/
def arms : List (Arm Asset) :=
  [void 0 "ASSET_TYPE_NATIVE" native fun | native => some () | _ => none,
   arm 1 "ASSET_TYPE_CREDIT_ALPHANUM4" (field "alphaNum4" (creditFormat 4))
      (fun (code, issuer) => credit (.alphaNum4 code) issuer)
      (fun | credit (.alphaNum4 code) issuer => some (code, issuer) | _ => none)
      (by intro p; rfl) (by rintro (_ | ⟨_ | _, _⟩) p h <;> cases h; rfl),
   arm 2 "ASSET_TYPE_CREDIT_ALPHANUM12" (field "alphaNum12" (creditFormat 12))
      (fun (code, issuer) => credit (.alphaNum12 code) issuer)
      (fun | credit (.alphaNum12 code) issuer => some (code, issuer) | _ => none)
      (by intro p; rfl) (by rintro (_ | ⟨_ | _, _⟩) p h <;> cases h; rfl)]

def format : Format Asset :=
  (union "Asset" arms).token toText (ofText · |>.toOption)

end Asset

end StellarTx
