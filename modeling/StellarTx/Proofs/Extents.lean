/-
# The lengths in a value

Every list, byte string and text in a value of a wire type, in the order of the bytes, each with the
maximum that its type declares: `WireType.extents`.  These are the lengths that the formats check:
`WireType.measures`.
-/
import StellarTx.Proofs.Format.Extent
import StellarTx.Proofs.Format.Nested
import StellarTx.WireType

namespace StellarTx

open Format (Measures Lengthless)

/-! ## Accounts -/

/-- An account is a key of 32 bytes, with no length in front. -/
theorem AccountId.lengthless : Lengthless AccountId.format := fun _ => rfl

/-- Neither kind of account has a length in front. -/
theorem MuxedAccount.lengthless : Lengthless MuxedAccount.format := by
  intro a
  cases a <;> rfl

/-- The lengths in a signer. -/
def SignerKey.extents : SignerKey → List Extent
  | signedPayload _ payload => [⟨.signedPayload, payload.length⟩]
  | _ => []

/-- Only a signed payload can be too long. -/
theorem SignerKey.measures : Measures SignerKey.format SignerKey.extents := by
  intro k
  cases k <;> rfl

/-- The lengths in a signer with its weight. -/
def Signer.extents (s : Signer) : List Extent := s.key.extents

/-- The weight adds no length to those of the key. -/
theorem Signer.measures : Measures Signer.format Signer.extents :=
  .map <| .stop SignerKey.measures (.field (.scalar .uint32))

/-! ## Assets -/

/-- A code fills its four or twelve bytes and has no length of its own. -/
theorem AssetCode.lengthless : Lengthless AssetCode.format := by
  intro code
  cases code <;> rfl

/-- Assets with a code of any width share one format. -/
theorem Asset.lengthless_credit (n : Nat) : Lengthless (creditFormat n) := fun _ => rfl

theorem Asset.lengthless : Lengthless Asset.format := by
  rintro (_ | ⟨_ | _, _⟩) <;> rfl

theorem PoolParameters.lengthless : Lengthless PoolParameters.format := by
  have inside : Lengthless ((Format.field "assetA" Asset.format).and <|
      (Format.field "assetB" Asset.format).and (.field "fee" .int32)) :=
    .and Asset.lengthless <| .and Asset.lengthless (.field (.scalar .int32))
  exact fun p => inside (p.assetA, p.assetB, p.fee)

theorem ChangeTrustAsset.lengthless : Lengthless ChangeTrustAsset.format := by
  intro line
  cases line with
  | asset a => rcases a with _ | ⟨_ | _, _⟩ <;> rfl
  | share pool => exact PoolParameters.lengthless pool

/-- The arm of a pool share holds the id of the pool, and not its parameters as above. -/
theorem TrustLineAsset.lengthless : Lengthless TrustLineAsset.format := by
  intro line
  cases line with
  | asset a => rcases a with _ | ⟨_ | _, _⟩ <;> rfl
  | share pool => rfl

theorem Price.lengthless : Lengthless Price.format := fun _ => rfl

/-! ## Claims -/

namespace ClaimPredicate

mutual

/-- The lengths in a predicate. -/
def extents : ClaimPredicate → List Extent
  | and conditions => ⟨.conditions, conditions.length⟩ :: extentsAll conditions
  | or conditions => ⟨.conditions, conditions.length⟩ :: extentsAll conditions
  | not (some condition) => extents condition
  | _ => []

/-- The lengths in conditions. -/
def extentsAll : List ClaimPredicate → List Extent
  | [] => []
  | p :: rest => extents p ++ extentsAll rest

end

mutual

/-- The induction follows the predicate; the format is opened by one layer at a time. -/
theorem measures : Measures format extents
  | .unconditional => by rw [format_eq]; rfl
  | .and conditions => by
    rw [format_eq]
    exact congrArg (_ :: ·) (measures_all conditions)
  | .or conditions => by
    rw [format_eq]
    exact congrArg (_ :: ·) (measures_all conditions)
  | .not none => by rw [format_eq]; rfl
  | .not (some condition) => by
    rw [format_eq]
    exact measures condition
  | .beforeAbsolute _ => by rw [format_eq]; rfl
  | .beforeRelative _ => by rw [format_eq]; rfl

/-- Conditions measure what they measure one by one. -/
theorem measures_all : (conditions : List ClaimPredicate) →
    Layout.limits (conditions.flatMap format.layout) = (extentsAll conditions).map Extent.limit
  | [] => rfl
  | p :: rest => Layout.limits_append_eq (measures p) (measures_all rest)

end

end ClaimPredicate

/-- The lengths in a claimant. -/
def Claimant.extents (c : Claimant) : List Extent := c.predicate.extents

/-- A claimant has the lengths of its predicate, since a destination has none. -/
theorem Claimant.measures : Measures Claimant.format Claimant.extents := by
  have inside : Measures ((Format.field "destination" AccountId.format).and
      (.field "predicate" ClaimPredicate.format)) fun p => p.2.extents :=
    .skip AccountId.lengthless (.field ClaimPredicate.measures)
  exact fun c => inside (c.destination, c.predicate)

theorem ClaimableBalanceId.lengthless : Lengthless ClaimableBalanceId.format := fun _ => rfl

/-! ## Ledger keys -/

/-- The lengths in the key of a ledger entry. -/
def LedgerKey.extents : LedgerKey → List Extent
  | data _ name => [⟨.dataName, name.utf8ByteSize⟩]
  | _ => []

/-- Only the name of a data entry can be too long. -/
theorem LedgerKey.measures : Measures LedgerKey.format LedgerKey.extents := by
  intro key
  cases key with
  | trustLine holder asset => exact TrustLineAsset.lengthless asset
  | _ => rfl

/-! ## Memos and preconditions -/

/-- The lengths in a memo. -/
def Memo.extents : Memo → List Extent
  | text t => [⟨.memoText, t.utf8ByteSize⟩]
  | _ => []

/-- Only the text of a memo can be too long; hashes and numbers have no length. -/
theorem Memo.measures : Measures Memo.format Memo.extents := by
  intro memo
  cases memo <;> rfl

theorem TimeBounds.lengthless : Lengthless TimeBounds.format := fun _ => rfl

theorem LedgerBounds.lengthless : Lengthless LedgerBounds.format := fun _ => rfl

/-- The lengths in conditions. -/
def Conditions.extents (c : Conditions) : List Extent :=
  Extent.ofList .extraSigners SignerKey.extents c.extraSigners

/-- The number of extra signers stands in front of the lengths in them. -/
theorem Conditions.measures : Measures Conditions.format Conditions.extents :=
  .map <| .skip (.option TimeBounds.lengthless) <| .skip (.option LedgerBounds.lengthless) <|
    .skip (.option (.scalar .int64)) <| .skip (.scalar .uint64) <|
    .skip (.scalar .uint32) <| .field (.array .extraSigners SignerKey.measures rfl)

/-- The lengths in preconditions. -/
def Preconditions.extents : Preconditions → List Extent
  | general conditions => conditions.extents
  | _ => []

/-- Bounds on time have no length, so that only general conditions measure anything. -/
theorem Preconditions.measures : Measures Preconditions.format Preconditions.extents := by
  intro p
  cases p with
  | general conditions => exact Conditions.measures conditions
  | _ => rfl

/-! ## Contracts -/

namespace Contract

theorem Address.lengthless : Lengthless Address.format := by
  intro a
  cases a <;> rfl

theorem UInt128.lengthless : Lengthless UInt128.format := fun _ => rfl

theorem Int128.lengthless : Lengthless Int128.format := fun _ => rfl

theorem UInt256.lengthless : Lengthless UInt256.format := fun _ => rfl

theorem Int256.lengthless : Lengthless Int256.format := fun _ => rfl

/-- The lengths in an atom. -/
def Atom.extents : Atom → List Extent
  | bytes data => [⟨.word, data.length⟩]
  | string s => [⟨.word, s.utf8ByteSize⟩]
  | symbol s => [⟨.symbol, s.utf8ByteSize⟩]
  | _ => []

namespace Value

mutual

/-- The lengths in a value. -/
def extents : Value → List Extent
  | atom a => a.extents
  | vector (some items) => ⟨.word, items.length⟩ :: extentsAll items
  | map (some entries) => ⟨.word, entries.length⟩ :: extentsEntries entries
  | _ => []

/-- The lengths in the items of a vector. -/
def extentsAll : List Value → List Extent
  | [] => []
  | v :: rest => extents v ++ extentsAll rest

/-- The lengths in the entries of a map. -/
def extentsEntries : List (Value × Value) → List Extent
  | [] => []
  | (k, v) :: rest => (extents k ++ extents v) ++ extentsEntries rest

end

/-- An atom is measured one kind at a time: of 18 kinds, bytes, strings and symbols have a length.
-/
theorem measures_atom (a : Atom) :
    Layout.limits (format.layout (.atom a)) = a.extents.map Extent.limit := by
  rw [format_eq]
  cases a with
  | address a => exact Address.lengthless a
  | _ => rfl

mutual

/-- The induction follows the value, as the format is opened by one layer at a time. -/
theorem measures : Measures format extents
  | .atom a => measures_atom a
  | .vector none => by rw [format_eq]; rfl
  | .vector (some items) => by
    rw [format_eq]
    exact congrArg (_ :: ·) (measures_all items)
  | .map none => by rw [format_eq]; rfl
  | .map (some entries) => by
    rw [format_eq]
    exact congrArg (_ :: ·) (measures_entries entries)

theorem measures_all : (items : List Value) →
    Layout.limits (items.flatMap format.layout) = (extentsAll items).map Extent.limit
  | [] => rfl
  | v :: rest => Layout.limits_append_eq (measures v) (measures_all rest)

/-- A key stands in front of its value, and each entry in front of the next. -/
theorem measures_entries : (entries : List (Value × Value)) →
    Layout.limits (entries.flatMap (entryFormat format).layout) =
      (extentsEntries entries).map Extent.limit
  | [] => rfl
  | (k, v) :: rest =>
    Layout.limits_append_eq (Layout.limits_append_eq (measures k) (measures v))
      (measures_entries rest)

end

/-- The lengths in the list of the entries are those of the keys and values. -/
def entryExtents (e : Value × Value) : List Extent := extents e.1 ++ extents e.2

theorem measures_entry : Measures (entryFormat format) entryExtents :=
  .and measures (.field measures)

end Value

/-- The lengths in a call. -/
def Call.extents (c : Call) : List Extent :=
  ⟨.symbol, c.function.utf8ByteSize⟩ :: Extent.ofList .word Value.extents c.args

/-- The name of the function stands in front of the number of arguments. -/
theorem Call.measures : Measures Call.format Call.extents :=
  .map <| .skip Address.lengthless <| .and (.string .symbol rfl) <|
    .field (.array .word Value.measures rfl)

theorem IdPreimage.lengthless : Lengthless IdPreimage.format := by
  intro preimage
  cases preimage with
  | address a salt => cases a <;> rfl
  | asset a => exact Asset.lengthless a

theorem Executable.lengthless : Lengthless Executable.format := by
  intro executable
  cases executable <;> rfl

theorem Creation.lengthless : Lengthless Creation.format :=
  .map <| .and IdPreimage.lengthless (.field Executable.lengthless)

/-- The lengths in a host function. -/
def HostFunction.extents : HostFunction → List Extent
  | invoke call => call.extents
  | create _ => []
  | upload wasm => [⟨.word, wasm.length⟩]

/-- The code that is uploaded is measured as a whole. -/
theorem HostFunction.measures : Measures HostFunction.format HostFunction.extents := by
  intro function
  cases function with
  | invoke call => exact Call.measures call
  | create creation => exact Creation.lengthless creation
  | upload wasm => rfl

/-- The lengths in the agreement of an address. -/
def AddressCredentials.extents (c : AddressCredentials) : List Extent := c.signature.extents

/-- What is measured is the signature, which may be any value. -/
theorem AddressCredentials.measures : Measures AddressCredentials.format extents :=
  .map <| .skip Address.lengthless <| .skip (.scalar .int64) <|
    .skip (.scalar .uint32) (.field Value.measures)

/-- The lengths in credentials. -/
def Credentials.extents : Credentials → List Extent
  | sourceAccount => []
  | address credentials => credentials.extents

theorem Credentials.measures : Measures Credentials.format Credentials.extents := by
  intro c
  cases c with
  | sourceAccount => rfl
  | address c => exact AddressCredentials.measures c

/-- The lengths in a function that is agreed to. -/
def AuthorizedFunction.extents : AuthorizedFunction → List Extent
  | call c => c.extents
  | create _ => []

/-- The creation of a contract has no length. -/
theorem AuthorizedFunction.measures : Measures AuthorizedFunction.format extents := by
  intro f
  cases f with
  | call c => exact Call.measures c
  | create creation => exact Creation.lengthless creation

namespace Invocation

mutual

/-- The lengths in an invocation. -/
def extents : Invocation → List Extent
  | mk function subInvocations =>
    function.extents ++ ⟨.word, subInvocations.length⟩ :: extentsAll subInvocations

/-- The lengths in sub-invocations. -/
def extentsAll : List Invocation → List Extent
  | [] => []
  | i :: rest => extents i ++ extentsAll rest

end

mutual

/-- The function stands in front of the number of calls inside. -/
theorem measures : Measures format extents
  | .mk function subInvocations => by
    rw [format_eq]
    exact Layout.limits_append_eq (AuthorizedFunction.measures function)
      (congrArg (_ :: ·) (measures_all subInvocations))

theorem measures_all : (is : List Invocation) →
    Layout.limits (is.flatMap format.layout) = (extentsAll is).map Extent.limit
  | [] => rfl
  | i :: rest => Layout.limits_append_eq (measures i) (measures_all rest)

end

end Invocation

/-- The lengths in a tree of calls with its credentials. -/
def Authorization.extents (a : Authorization) : List Extent :=
  a.credentials.extents ++ a.root.extents

/-- Credentials stand in front of the invocation. -/
theorem Authorization.measures : Measures Authorization.format Authorization.extents :=
  .map <| .and Credentials.measures (.field Invocation.measures)

end Contract

/-! ## Operations -/

namespace Operation

theorem CreateAccount.lengthless : Lengthless CreateAccount.format := fun _ => rfl

theorem Payment.lengthless : Lengthless Payment.format :=
  .map <| .and MuxedAccount.lengthless <| .and Asset.lengthless (.field (.scalar .amount))

/-- The lengths in a payment of what arrives. -/
def PathPaymentStrictReceive.extents (op : PathPaymentStrictReceive) : List Extent :=
  [⟨.paymentPath, op.path.length⟩]

/-- The number of assets on the path stands behind both amounts. -/
theorem PathPaymentStrictReceive.measures : Measures PathPaymentStrictReceive.format extents :=
  .map <| .skip Asset.lengthless <| .skip (.scalar .amount) <|
    .skip MuxedAccount.lengthless <| .skip Asset.lengthless <|
    .skip (.scalar .amount) <| .field (.items .paymentPath Asset.lengthless rfl)

/-- The lengths in a payment of what is sent. -/
def PathPaymentStrictSend.extents (op : PathPaymentStrictSend) : List Extent :=
  [⟨.paymentPath, op.path.length⟩]

/-- The path of a strict send stands at the same place. -/
theorem PathPaymentStrictSend.measures : Measures PathPaymentStrictSend.format extents :=
  .map <| .skip Asset.lengthless <| .skip (.scalar .amount) <|
    .skip MuxedAccount.lengthless <| .skip Asset.lengthless <|
    .skip (.scalar .amount) <| .field (.items .paymentPath Asset.lengthless rfl)

theorem ManageSellOffer.lengthless : Lengthless ManageSellOffer.format :=
  .map <| .and Asset.lengthless <| .and Asset.lengthless <| .and (.scalar .amount) <|
    .and Price.lengthless (.field (.scalar .int64))

theorem CreatePassiveSellOffer.lengthless : Lengthless CreatePassiveSellOffer.format :=
  .map <| .and Asset.lengthless <| .and Asset.lengthless <|
    .and (.scalar .amount) (.field Price.lengthless)

theorem ManageBuyOffer.lengthless : Lengthless ManageBuyOffer.format :=
  .map <| .and Asset.lengthless <| .and Asset.lengthless <| .and (.scalar .amount) <|
    .and Price.lengthless (.field (.scalar .int64))

theorem LiquidityPoolDeposit.lengthless : Lengthless LiquidityPoolDeposit.format := fun _ => rfl

theorem LiquidityPoolWithdraw.lengthless : Lengthless LiquidityPoolWithdraw.format := fun _ => rfl

/-- The lengths in new settings. -/
def SetOptions.extents (op : SetOptions) : List Extent :=
  op.homeDomain.elim [] (fun domain => [⟨.homeDomain, domain.utf8ByteSize⟩]) ++
    op.signer.elim [] Signer.extents

/-- The home domain stands in front of the signer. -/
theorem SetOptions.measures : Measures SetOptions.format SetOptions.extents :=
  .map <| .skip (.option AccountId.lengthless) <| .skip (.option (.scalar .uint32)) <|
    .skip (.option (.scalar .uint32)) <| .skip (.option (.scalar .uint32)) <|
    .skip (.option (.scalar .uint32)) <| .skip (.option (.scalar .uint32)) <|
    .skip (.option (.scalar .uint32)) <| .and (.option (.string .homeDomain rfl)) <|
    .field (.option Signer.measures)

/-- The lengths in a data entry. -/
def ManageData.extents (op : ManageData) : List Extent :=
  ⟨.dataName, op.name.utf8ByteSize⟩ ::
    op.value.elim [] fun value => [⟨.dataValue, value.length⟩]

/-- The name stands in front of the value, if there is one. -/
theorem ManageData.measures : Measures ManageData.format ManageData.extents :=
  .map <| .and (.string .dataName rfl) (.field (.option (.bytes .dataValue rfl)))

theorem BumpSequence.lengthless : Lengthless BumpSequence.format := fun _ => rfl

theorem ChangeTrust.lengthless : Lengthless ChangeTrust.format :=
  .map <| .and ChangeTrustAsset.lengthless (.field (.scalar .amount))

theorem AllowTrust.lengthless : Lengthless AllowTrust.format :=
  .map <| .and AccountId.lengthless <| .and AssetCode.lengthless (.field (.scalar .uint32))

theorem SetTrustLineFlags.lengthless : Lengthless SetTrustLineFlags.format :=
  .map <| .and AccountId.lengthless <| .and Asset.lengthless <|
    .and (.scalar .uint32) (.field (.scalar .uint32))

theorem Clawback.lengthless : Lengthless Clawback.format :=
  .map <| .and Asset.lengthless <| .and MuxedAccount.lengthless (.field (.scalar .amount))

/-- The lengths in the creation of a claimable balance. -/
def CreateClaimableBalance.extents (op : CreateClaimableBalance) : List Extent :=
  Extent.ofList .claimants Claimant.extents op.claimants

/-- The number of claimants stands in front of the lengths in them. -/
theorem CreateClaimableBalance.measures : Measures CreateClaimableBalance.format extents :=
  .map <| .skip Asset.lengthless <| .skip (.scalar .amount) <|
    .field (.array .claimants Claimant.measures rfl)

theorem ClaimClaimableBalance.lengthless : Lengthless ClaimClaimableBalance.format := fun _ => rfl

theorem ClawbackClaimableBalance.lengthless : Lengthless ClawbackClaimableBalance.format :=
  fun _ => rfl

theorem BeginSponsoringFutureReserves.lengthless :
    Lengthless BeginSponsoringFutureReserves.format := fun _ => rfl

/-- The lengths in the end of a sponsorship. -/
def RevokeSponsorship.extents : RevokeSponsorship → List Extent
  | entry key => key.extents
  | signer _ key => key.extents

/-- What is measured is the key of the entry or of the signer; the account of the signer has no
length. -/
theorem RevokeSponsorship.measures : Measures RevokeSponsorship.format extents := by
  intro op
  cases op with
  | entry key => exact LedgerKey.measures key
  | signer account key => exact SignerKey.measures key

/-- The lengths in a call of the contract host. -/
def InvokeHostFunction.extents (op : InvokeHostFunction) : List Extent :=
  op.function.extents ++ Extent.ofList .word Contract.Authorization.extents op.auth

/-- The function stands in front of the number of authorizations. -/
theorem InvokeHostFunction.measures : Measures InvokeHostFunction.format extents :=
  .map <| .and Contract.HostFunction.measures <|
    .field (.array .word Contract.Authorization.measures rfl)

/-- The lengths in the body of an operation. -/
def Body.extents : Body → List Extent
  | pathPaymentStrictReceive op => op.extents
  | setOptions op => op.extents
  | manageData op => op.extents
  | pathPaymentStrictSend op => op.extents
  | createClaimableBalance op => op.extents
  | revokeSponsorship op => op.extents
  | invokeHostFunction op => op.extents
  | _ => []

/-- Every kind of operation measures what its body does. -/
theorem Body.measures : Measures Body.format Body.extents := by
  intro body
  cases body with
  | createAccount op => exact CreateAccount.lengthless op
  | payment op => exact Payment.lengthless op
  | pathPaymentStrictReceive op => exact PathPaymentStrictReceive.measures op
  | manageSellOffer op => exact ManageSellOffer.lengthless op
  | createPassiveSellOffer op => exact CreatePassiveSellOffer.lengthless op
  | setOptions op => exact SetOptions.measures op
  | changeTrust op => exact ChangeTrust.lengthless op
  | allowTrust op => exact AllowTrust.lengthless op
  | accountMerge destination => exact MuxedAccount.lengthless destination
  | inflation => rfl
  | manageData op => exact ManageData.measures op
  | bumpSequence op => exact BumpSequence.lengthless op
  | manageBuyOffer op => exact ManageBuyOffer.lengthless op
  | pathPaymentStrictSend op => exact PathPaymentStrictSend.measures op
  | createClaimableBalance op => exact CreateClaimableBalance.measures op
  | claimClaimableBalance op => exact ClaimClaimableBalance.lengthless op
  | beginSponsoringFutureReserves op => exact BeginSponsoringFutureReserves.lengthless op
  | endSponsoringFutureReserves => rfl
  | revokeSponsorship op => exact RevokeSponsorship.measures op
  | clawback op => exact Clawback.lengthless op
  | clawbackClaimableBalance op => exact ClawbackClaimableBalance.lengthless op
  | setTrustLineFlags op => exact SetTrustLineFlags.lengthless op
  | liquidityPoolDeposit op => exact LiquidityPoolDeposit.lengthless op
  | liquidityPoolWithdraw op => exact LiquidityPoolWithdraw.lengthless op
  | invokeHostFunction op => exact InvokeHostFunction.measures op

end Operation

/-- The lengths in an operation. -/
def Operation.extents (op : Operation) : List Extent := op.body.extents

/-- An account that an operation names has no length. -/
theorem Operation.measures : Measures Operation.format Operation.extents :=
  .map <| .skip (.option MuxedAccount.lengthless) (.field Operation.Body.measures)

/-! ## Transactions -/

/-- The length of a signature. -/
def DecoratedSignature.extents (s : DecoratedSignature) : List Extent :=
  [⟨.signature, s.signature.length⟩]

/-- The hint of a signature has four bytes, so that only the signature is measured. -/
theorem DecoratedSignature.measures : Measures DecoratedSignature.format extents :=
  .map <| .skip (.octets 4) (.field (.bytes .signature rfl))

/-- The lengths in a signed transaction, given those in the transaction. -/
def Signed.extents {τ : Type} (inside : τ → List Extent) (s : Signed τ) : List Extent :=
  inside s.tx ++ Extent.ofList .signatures DecoratedSignature.extents s.signatures

/-- What is signed stands in front of the number of signatures. -/
theorem Signed.measures {τ : Type} {f : Format τ} {inside : τ → List Extent}
    (h : Measures f inside) : Measures (Signed.format f) (Signed.extents inside) :=
  .map <| .and h (.field (.array .signatures DecoratedSignature.measures rfl))

/-- The lengths in a transaction. -/
def Transaction.extents (tx : Transaction) : List Extent :=
  tx.cond.extents ++ (tx.memo.extents ++ Extent.ofList .operations Operation.extents tx.operations)

/-- Preconditions, memo and operations follow one another. -/
theorem Transaction.measures : Measures Transaction.format Transaction.extents :=
  .map <| .skip MuxedAccount.lengthless <| .skip (.scalar .uint32) <|
    .skip (.scalar .int64) <| .and Preconditions.measures <| .and Memo.measures <|
    .stop (.array .operations Operation.measures rfl) (.field (.extension _))

/-- The lengths in a transaction of version 0. -/
def TransactionV0.extents (tx : TransactionV0) : List Extent :=
  tx.memo.extents ++ Extent.ofList .operations Operation.extents tx.operations

theorem TransactionV0.lengthless_source : Lengthless sourceFormat := fun _ => rfl

/-- A transaction of version 0 has no preconditions but bounds on time. -/
theorem TransactionV0.measures : Measures TransactionV0.format extents :=
  .map <| .skip lengthless_source <| .skip (.scalar .uint32) <|
    .skip (.scalar .int64) <| .skip (.option TimeBounds.lengthless) <|
    .and Memo.measures <| .stop (.array .operations Operation.measures rfl) (.field (.extension _))

/-- The lengths in a fee bump: those in the inner transaction with its signatures. -/
def FeeBump.extents (tx : FeeBump) : List Extent := Signed.extents Transaction.extents tx.inner

/-- The inner transaction is measured with its signatures. -/
theorem FeeBump.measures : Measures FeeBump.format FeeBump.extents := by
  refine .map <| .skip MuxedAccount.lengthless <| .skip (.scalar .int64) <|
    .stop ?_ (.field (.extension _))
  exact Signed.measures Transaction.measures

/-- The lengths in an envelope. -/
def Envelope.extents : Envelope → List Extent
  | v0 env => Signed.extents TransactionV0.extents env
  | v1 env => Signed.extents Transaction.extents env
  | feeBump env => Signed.extents FeeBump.extents env

/-- Each kind of envelope measures what is signed and the signatures. -/
theorem Envelope.measures : Measures Envelope.format Envelope.extents := by
  intro env
  cases env with
  | v0 env => exact Signed.measures TransactionV0.measures env
  | v1 env => exact Signed.measures Transaction.measures env
  | feeBump env => exact Signed.measures FeeBump.measures env

/-- The lengths in a tagged transaction. -/
def TaggedTransaction.extents : TaggedTransaction → List Extent
  | tx t => t.extents
  | feeBump t => t.extents

/-- What is signed has the lengths of its transaction, and no signatures but those inside a fee bump.
-/
theorem TaggedTransaction.measures : Measures TaggedTransaction.format extents := by
  intro tagged
  cases tagged with
  | tx t => exact Transaction.measures t
  | feeBump t => exact FeeBump.measures t

/-- The lengths in what is signed. -/
def SignaturePayload.extents (p : SignaturePayload) : List Extent := p.tagged.extents

/-- The id of the network has 32 bytes. -/
theorem SignaturePayload.measures : Measures SignaturePayload.format extents :=
  .map <| .skip (.octets 32) (.field TaggedTransaction.measures)

end StellarTx
