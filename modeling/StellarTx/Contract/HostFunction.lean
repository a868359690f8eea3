/-
# Host functions

What a transaction can ask of the contract host: to call a contract, to create one, or to upload
code.
-/
import StellarTx.Asset.Basic
import StellarTx.Contract.Value

namespace StellarTx.Contract

open Format (union arm void field array octets)
open Xdr (unbounded)

/-- A call of a function of a contract. -/
structure Call where
  contract : Address
  function : String
  args : List Value
  deriving DecidableEq

def Call.format : Format Call :=
  ((field "contractAddress" Address.format).and <|
    (field "functionName" (.string maxSymbol)).and <|
    field "args" (array unbounded Value.format)).map
    (fun (contract, function, args) => ⟨contract, function, args⟩)
    fun c => (c.contract, c.function, c.args)

/-- What the id of a new contract is computed from. -/
inductive IdPreimage where
  | address (address : Address) (salt : Octets 32)
  | asset (asset : Asset)
  deriving DecidableEq

def IdPreimage.format : Format IdPreimage :=
  union "ContractIDPreimageType"
    [arm 0 "CONTRACT_ID_PREIMAGE_FROM_ADDRESS"
        (field "fromAddress" ((field "address" Address.format).and (field "salt" (octets 32))))
        (fun (a, salt) => address a salt) fun | address a salt => some (a, salt) | _ => none,
     arm 1 "CONTRACT_ID_PREIMAGE_FROM_ASSET" (field "fromAsset" Asset.format)
        asset fun | asset a => some a | _ => none]

/-- The code of a contract. -/
inductive Executable where
  /-- Uploaded code, by its digest. -/
  | wasm (hash : Octets 32)
  /-- The built-in contract of an asset. -/
  | stellarAsset
  deriving DecidableEq

def Executable.format : Format Executable :=
  union "ContractExecutableType"
    [arm 0 "CONTRACT_EXECUTABLE_WASM" (field "wasm_hash" (octets 32))
        wasm fun | wasm hash => some hash | _ => none,
     void 1 "CONTRACT_EXECUTABLE_STELLAR_ASSET" stellarAsset
        fun | stellarAsset => some () | _ => none]

/-- The creation of a contract. -/
structure Creation where
  preimage : IdPreimage
  executable : Executable
  deriving DecidableEq

def Creation.format : Format Creation :=
  ((field "contractIDPreimage" IdPreimage.format).and <|
    field "executable" Executable.format).map
    (fun (preimage, executable) => ⟨preimage, executable⟩) fun c => (c.preimage, c.executable)

/-- What a transaction asks of the contract host. -/
inductive HostFunction where
  | invoke (call : Call)
  | create (creation : Creation)
  | upload (wasm : List UInt8)
  deriving DecidableEq

def HostFunction.format : Format HostFunction :=
  union "HostFunctionType"
    [arm 0 "HOST_FUNCTION_TYPE_INVOKE_CONTRACT" (field "invokeContract" Call.format)
        invoke fun | invoke call => some call | _ => none,
     arm 1 "HOST_FUNCTION_TYPE_CREATE_CONTRACT" (field "createContract" Creation.format)
        create fun | create creation => some creation | _ => none,
     arm 2 "HOST_FUNCTION_TYPE_UPLOAD_CONTRACT_WASM" (field "wasm" (.bytes unbounded))
        upload fun | upload wasm => some wasm | _ => none]

end StellarTx.Contract
