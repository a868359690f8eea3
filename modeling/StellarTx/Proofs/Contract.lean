/-
# Contract values, calls and authorizations are regular
-/
import StellarTx.Proofs.Asset
import StellarTx.Proofs.Format.Nested

namespace StellarTx.Contract

open Format (Outline Outlined OutlinedArms Hungry)

/-! ## Addresses and wide numbers -/

/-- In text the address of a contract is a key, and that of an account is one in a field. -/
theorem Address.outlined {n : Nat} :
    Outlined n (.fields ["accountId", "contractId", "type"]) Address.format := by
  have contractId : Outlined n (.itself true) ((Format.octets 32).token
      (fun id => (StrKey.contract id).encode) (StrKey.decodeContract · |>.toOption)) := by
    refine .token (.octets 32) rfl (.of_total (fun _ => rfl) (fun _ => StrKey.isWord_wrap _ _)
      (fun id => ?_) fun _ => ⟨_, rfl⟩)
    exact Except.toOption_eq_some_iff.2 (StrKey.decode32_wrap .contract id)
  exact .at (.union _ ⟨rfl, fun a => by cases a <;> rfl⟩ <|
    .cons (.field "accountId" AccountId.outlined) <|
    .cons (.field "contractId" contractId) .nil) rfl

theorem UInt128.outlined {n : Nat} : Outlined n (.fields ["hi", "lo"]) UInt128.format :=
  .at (.map <| .and (.field "hi" (.scalar .uint64)) (.field "lo" (.scalar .uint64))) rfl

theorem Int128.outlined {n : Nat} : Outlined n (.fields ["hi", "lo"]) Int128.format :=
  .at (.map <| .and (.field "hi" (.scalar .int64)) (.field "lo" (.scalar .uint64))) rfl

/-- Each word is a line of its own. -/
theorem UInt256.outlined {n : Nat} :
    Outlined n (.fields ["hi_hi", "hi_lo", "lo_hi", "lo_lo"]) UInt256.format :=
  .at (.map <| .and (.field "hi_hi" (.scalar .uint64)) <| .and (.field "hi_lo" (.scalar .uint64)) <|
    .and (.field "lo_hi" (.scalar .uint64)) (.field "lo_lo" (.scalar .uint64))) rfl

theorem Int256.outlined {n : Nat} :
    Outlined n (.fields ["hi_hi", "hi_lo", "lo_hi", "lo_lo"]) Int256.format :=
  .at (.map <| .and (.field "hi_hi" (.scalar .int64)) <| .and (.field "hi_lo" (.scalar .uint64)) <|
    .and (.field "lo_hi" (.scalar .uint64)) (.field "lo_lo" (.scalar .uint64))) rfl

/-! ## Values -/

/-- Of the arms of an atom only two hold nothing; the names of the others are all different. -/
theorem Atom.outlined_arms {n : Nat} :
    OutlinedArms n (.fields ["b", "u32", "i32", "u64", "i64", "timepoint", "duration", "u128",
      "i128", "u256", "i256", "bytes", "str", "sym", "address", "nonce_key"]) Atom.arms :=
  .at (.cons (.field "b" (.scalar .bool)) <| .void <|
    .cons (.field "u32" (.scalar .uint32)) <| .cons (.field "i32" (.scalar .int32)) <|
    .cons (.field "u64" (.scalar .uint64)) <| .cons (.field "i64" (.scalar .int64)) <|
    .cons (.field "timepoint" (.scalar .timestamp)) <|
    .cons (.field "duration" (.scalar .uint64)) <|
    .cons (.field "u128" UInt128.outlined) <| .cons (.field "i128" Int128.outlined) <|
    .cons (.field "u256" UInt256.outlined) <| .cons (.field "i256" Int256.outlined) <|
    .cons (.field "bytes" .bytes) <| .cons (.field "str" .string) <|
    .cons (.field "sym" .string) <| .cons (.field "address" Address.outlined) <| .void <|
    .cons (.field "nonce_key" (.field "nonce" (.scalar .int64))) .nil) rfl

namespace Value

/-- The outline of a value. -/
def outline : Outline :=
  .fields ["vec", "map", "b", "u32", "i32", "u64", "i64", "timepoint", "duration", "u128",
    "i128", "u256", "i256", "bytes", "str", "sym", "address", "nonce_key", "type"]

/-- Neither the two kinds of values that hold others nor the atoms share a code or a label. -/
theorem sound (self : Format Value) : Arm.Sound (arms self) where
  apart := by
    show Arm.toldApart ((arms .stuck).map (·.code)) ((arms .stuck).map (·.label)) = true
    rfl
  single := by
    rintro (a | _ | _)
    · cases a <;> rfl
    · rfl
    · rfl

/-- A value takes at least the four bytes of its code. -/
theorem hungry : Hungry format := by
  intro limits offset
  rw [format_eq]
  exact ⟨_, rfl⟩

/-- A key and its value stand in two fields. -/
theorem outlined_entry {n : Nat} (h : Outlined n outline format) :
    Outlined n (.fields ["key", "val"]) (entryFormat format) :=
  .at (.and (.field "key" h) (.field "val" h)) rfl

/-- An entry takes at least the code of its key. -/
theorem hungry_entry : Hungry (entryFormat format) := by
  intro limits offset
  rw [format_eq]
  exact ⟨_, rfl⟩

/-- Vectors and maps are one level deeper than their items, and atoms are flat. -/
theorem outlined_layer {n : Nat} (h : ∀ m, n = m + 1 → Outlined m outline format) :
    Outlined n outline (layer format) := by
  have items : Outlined n (outline.listed _) (.deeper (.array Xdr.unbounded format)) :=
    .deeper fun m hm => .array (h m hm) hungry
  have entries : Outlined n (.listed _ (.fields ["key", "val"]))
      (.deeper (.array Xdr.unbounded (entryFormat format))) :=
    .deeper fun m hm => .array (outlined_entry (h m hm)) hungry_entry
  exact .at (.union _ (sound format) <| .append (.cons (.field "vec" (.option items)) <|
    .cons (.field "map" (.option entries)) .nil) (.lift Atom.outlined_arms)) rfl

/-- By induction on the levels, one layer at a time. -/
theorem outlined {n : Nat} : Outlined n outline format :=
  .of_layer format_eq outlined_layer

end Value

/-! ## Host functions -/

/-- The arguments of a call have no maximum but that of any array. -/
theorem Call.outlined {n : Nat} :
    Outlined n (.fields ["contractAddress", "functionName", "args"]) Call.format :=
  .at (.map <| .and (.field "contractAddress" Address.outlined) <|
    .and (.field "functionName" .string) (.field "args" (.array Value.outlined Value.hungry))) rfl

/-- A contract is made from an address and a salt or from an asset. -/
theorem IdPreimage.outlined {n : Nat} :
    Outlined n (.fields ["fromAddress", "fromAsset", "type"]) IdPreimage.format :=
  .at (.union _ ⟨rfl, fun a => by cases a <;> rfl⟩ <| .cons (.field "fromAddress" <|
    .and (.field "address" Address.outlined) (.field "salt" (.octets 32))) <|
    .cons (.field "fromAsset" Asset.outlined) .nil) rfl

/-- The built-in contract needs no digest. -/
theorem Executable.outlined {n : Nat} :
    Outlined n (.fields ["wasm_hash", "type"]) Executable.format :=
  .at (.union _ ⟨rfl, fun a => by cases a <;> rfl⟩ <|
    .cons (.field "wasm_hash" (.octets 32)) <| .void .nil) rfl

theorem Creation.outlined {n : Nat} :
    Outlined n (.fields ["contractIDPreimage", "executable"]) Creation.format :=
  .at (.map <| .and (.field "contractIDPreimage" IdPreimage.outlined)
    (.field "executable" Executable.outlined)) rfl

/-- A contract is called or created, or code is uploaded. -/
theorem HostFunction.outlined {n : Nat} :
    Outlined n (.fields ["invokeContract", "createContract", "wasm", "type"])
      HostFunction.format :=
  .at (.union _ ⟨rfl, fun a => by cases a <;> rfl⟩ <|
    .cons (.field "invokeContract" Call.outlined) <|
    .cons (.field "createContract" Creation.outlined) <| .cons (.field "wasm" .bytes) .nil) rfl

/-! ## Authorizations -/

/-- A signature is a value of the contract, whatever it looks like. -/
theorem AddressCredentials.outlined {n : Nat} :
    Outlined n (.fields ["address", "nonce", "signatureExpirationLedger", "signature"])
      AddressCredentials.format :=
  .at (.map <| .and (.field "address" Address.outlined) <|
    .and (.field "nonce" (.scalar .int64)) <|
    .and (.field "signatureExpirationLedger" (.scalar .uint32))
    (.field "signature" Value.outlined)) rfl

/-- The account that pays agrees by its signature on the transaction, with nothing here. -/
theorem Credentials.outlined {n : Nat} :
    Outlined n (.fields ["address", "type"]) Credentials.format :=
  .at (.union _ ⟨rfl, fun a => by cases a <;> rfl⟩ <| .void <|
    .cons (.field "address" AddressCredentials.outlined) .nil) rfl

theorem AuthorizedFunction.outlined {n : Nat} :
    Outlined n (.fields ["contractFn", "createContractHostFn", "type"])
      AuthorizedFunction.format :=
  .at (.union _ ⟨rfl, fun a => by cases a <;> rfl⟩ <| .cons (.field "contractFn" Call.outlined) <|
    .cons (.field "createContractHostFn" Creation.outlined) .nil) rfl

namespace Invocation

/-- The outline of an invocation. -/
def outline : Outline := .fields ["function", "subInvocations"]

/-- An invocation takes at least the code of its function. -/
theorem hungry : Hungry format := by
  intro limits offset
  rw [format_eq]
  exact ⟨_, rfl⟩

/-- The list of calls inside is one level deeper. -/
theorem outlined_layer {n : Nat} (h : ∀ m, n = m + 1 → Outlined m outline format) :
    Outlined n outline (layer format) :=
  .at (.map <| .and (.field "function" AuthorizedFunction.outlined)
    (.field "subInvocations" (.deeper fun m hm => .array (h m hm) hungry))) rfl

/-- By induction on the levels, as for values. -/
theorem outlined {n : Nat} : Outlined n outline format :=
  .of_layer format_eq outlined_layer

end Invocation

theorem Authorization.outlined {n : Nat} :
    Outlined n (.fields ["credentials", "rootInvocation"]) Authorization.format :=
  .at (.map <| .and (.field "credentials" Credentials.outlined)
    (.field "rootInvocation" Invocation.outlined)) rfl

end StellarTx.Contract
