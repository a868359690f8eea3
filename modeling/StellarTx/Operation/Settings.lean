/-
# Settings of an account

Operations that change the source account itself: its flags, weights and signers, its data, and its
sequence number.
-/
import StellarTx.Account
import StellarTx.LedgerKey

namespace StellarTx.Operation

open Format (field option)

/-- The greatest number of bytes in a home domain. -/
def maxHomeDomain : Nat := BoundedField.homeDomain.max

/-- Changes those settings that are given. -/
structure SetOptions where
  inflationDest : Option AccountId := none
  clearFlags : Option UInt32 := none
  setFlags : Option UInt32 := none
  masterWeight : Option UInt32 := none
  lowThreshold : Option UInt32 := none
  medThreshold : Option UInt32 := none
  highThreshold : Option UInt32 := none
  homeDomain : Option String := none
  signer : Option Signer := none
  deriving DecidableEq

namespace SetOptions

def format : Format SetOptions :=
  ((field "inflationDest" (option AccountId.format)).and <|
    (field "clearFlags" (option .uint32)).and <|
    (field "setFlags" (option .uint32)).and <|
    (field "masterWeight" (option .uint32)).and <|
    (field "lowThreshold" (option .uint32)).and <|
    (field "medThreshold" (option .uint32)).and <|
    (field "highThreshold" (option .uint32)).and <|
    (field "homeDomain" (option (.string maxHomeDomain))).and <|
    field "signer" (option Signer.format)).map
    (fun (dest, clear, set, master, low, med, high, domain, signer) =>
      ⟨dest, clear, set, master, low, med, high, domain, signer⟩)
    fun op => (op.inflationDest, op.clearFlags, op.setFlags, op.masterWeight, op.lowThreshold,
      op.medThreshold, op.highThreshold, op.homeDomain, op.signer)

/-- Refuses a home domain that is too long. -/
def validate (op : SetOptions) : Except ValidationError Unit :=
  match op.homeDomain with
  | some domain => BoundedField.homeDomain.check domain.utf8ByteSize
  | none => .ok ()

/-- Adds a home domain that is not too long. -/
def withHomeDomain (op : SetOptions) (domain : String) : Except ValidationError SetOptions := do
  BoundedField.homeDomain.check domain.utf8ByteSize
  return { op with homeDomain := domain }

end SetOptions

/-- The greatest number of bytes in the value of a data entry. -/
def maxDataValue : Nat := BoundedField.dataValue.max

/-- Sets a data entry, or deletes it if there is no value. -/
structure ManageData where
  name : String
  value : Option (List UInt8)
  deriving DecidableEq

namespace ManageData

def format : Format ManageData :=
  ((field "dataName" (.string maxDataName)).and <|
    field "dataValue" (option (.bytes maxDataValue))).map
    (fun (name, value) => ⟨name, value⟩) fun op => (op.name, op.value)

/-- Refuses a name or a value that is too long. -/
def validate (op : ManageData) : Except ValidationError Unit := do
  BoundedField.dataName.check op.name.utf8ByteSize
  match op.value with
  | some value => BoundedField.dataValue.check value.length
  | none => return ()

/-- A data entry whose name and value are not too long. -/
def make (name : String) (value : Option (List UInt8)) : Except ValidationError ManageData := do
  validate ⟨name, value⟩
  return ⟨name, value⟩

end ManageData

/-- Raises the sequence number. -/
structure BumpSequence where
  bumpTo : Int64
  deriving DecidableEq

def BumpSequence.format : Format BumpSequence :=
  (field "bumpTo" .int64).map BumpSequence.mk (·.bumpTo)

end StellarTx.Operation
