/-
# The items in a value

How many items there are in an envelope, at every depth: operations, signatures, assets of payment
paths, claimants, conditions of conditions, extra signers, arguments, items of vectors and entries
of maps, authorizations and sub-invocations.  None that the format announces is missed
(`Envelope.counts`), and every one has a line of its own (`Envelope.ample`).
-/
import StellarTx.Proofs.Extents
import StellarTx.Proofs.Format.Items

namespace StellarTx

open Format (Ample Counts Itemless)

/-! ## Claims -/

namespace ClaimPredicate

mutual

/-- The conditions inside a predicate, the one that is negated among them. -/
def itemCount : ClaimPredicate → Nat
  | and conditions => itemCountAll conditions
  | or conditions => itemCountAll conditions
  | not (some condition) => 1 + itemCount condition
  | _ => 0

/-- Conditions and those inside them. -/
def itemCountAll : List ClaimPredicate → Nat
  | [] => 0
  | p :: rest => 1 + itemCount p + itemCountAll rest

end

mutual

/-- The induction follows the predicate; the format is opened by one layer at a time. -/
theorem counts : Counts format itemCount
  | .unconditional => by
    rw [format_eq]
    exact Nat.le_refl 0
  | .and conditions => by
    rw [format_eq]
    exact counts_all conditions
  | .or conditions => by
    rw [format_eq]
    exact counts_all conditions
  | .not none => by
    rw [format_eq]
    exact Nat.le_refl 0
  | .not (some condition) => by
    rw [format_eq]
    exact Nat.le_trans (counts condition) (Nat.le_add_left _ 1)
  | .beforeAbsolute _ => by
    rw [format_eq]
    exact Nat.le_refl 0
  | .beforeRelative _ => by
    rw [format_eq]
    exact Nat.le_refl 0

/-- The number of conditions stands in front of all of them, and counts each. -/
theorem counts_all : (conditions : List ClaimPredicate) →
    conditions.length + Layout.itemCount (conditions.flatMap format.layout) ≤
      itemCountAll conditions
  | [] => Nat.le_refl 0
  | p :: rest => Counts.cons (counts p) (counts_all rest)

end

mutual

/-- Every condition has a line for its label, and a connective one more for how many it joins. -/
theorem ample : Ample format itemCount
  | .unconditional, path => by
    rw [format_eq]
    exact Nat.succ_pos _
  | .and conditions, path => by
    rw [format_eq]
    exact Nat.lt_succ_of_lt (Nat.lt_succ_of_le (ample_all conditions _ 0))
  | .or conditions, path => by
    rw [format_eq]
    exact Nat.lt_succ_of_lt (Nat.lt_succ_of_le (ample_all conditions _ 0))
  | .not none, path => by
    rw [format_eq]
    exact Nat.succ_pos _
  | .not (some condition), path => by
    have h := ample condition (TxRep.join path "notPredicate")
    rw [itemCount, Nat.add_comm, format_eq]
    exact Nat.succ_lt_succ (Nat.lt_succ_of_lt h)
  | .beforeAbsolute _, path => by
    rw [format_eq]
    exact Nat.succ_pos _
  | .beforeRelative _, path => by
    rw [format_eq]
    exact Nat.succ_pos _

/-- The lines of conditions follow one another, whatever their numbers are. -/
theorem ample_all : (conditions : List ClaimPredicate) → ∀ path i,
    itemCountAll conditions ≤ (format.printItems path i conditions).length
  | [], _, _ => Nat.zero_le _
  | p :: rest, path, i => Format.le_length_printItems_cons (ample p _) (ample_all rest path (i + 1))

end

end ClaimPredicate

/-- The conditions in the predicate of a claimant. -/
def Claimant.itemCount (c : Claimant) : Nat := c.predicate.itemCount

theorem Claimant.counts : Counts Claimant.format Claimant.itemCount :=
  fun c => ClaimPredicate.counts c.predicate

/-- A claimant has at least the lines of its predicate. -/
theorem Claimant.ample : Ample Claimant.format Claimant.itemCount :=
  fun c _ => Nat.lt_succ_of_lt (Nat.lt_succ_of_lt (ClaimPredicate.ample c.predicate _))

/-! ## Preconditions -/

theorem SignerKey.itemless : Itemless SignerKey.format := by
  intro k
  cases k <;> rfl

theorem SignerKey.ample : Ample SignerKey.format fun _ => 0 := fun _ _ => Nat.one_pos

/-- The extra signers of conditions. -/
def Conditions.itemCount (c : Conditions) : Nat := c.extraSigners.length

/-- Extra signers are the only items of conditions. -/
theorem Conditions.counts : Counts Conditions.format Conditions.itemCount :=
  .map <| .skip (.of_lengthless (.option TimeBounds.lengthless)) <|
    .skip (.of_lengthless (.option LedgerBounds.lengthless)) <|
    .skip (.option (.scalar .int64)) <| .skip (.scalar .uint64) <| .skip (.scalar .uint32) <|
    .field (.items SignerKey.itemless)

theorem Conditions.ample : Ample Conditions.format Conditions.itemCount :=
  .map <| .skip <| .skip <| .skip <| .skip <| .skip <| .field (.items SignerKey.ample)

/-- The items in preconditions. -/
def Preconditions.itemCount : Preconditions → Nat
  | general conditions => conditions.itemCount
  | _ => 0

theorem Preconditions.counts : Counts Preconditions.format Preconditions.itemCount := by
  intro p
  cases p with
  | general conditions => exact Conditions.counts conditions
  | _ => exact Nat.le_refl 0

/-- Without preconditions there is still a label. -/
theorem Preconditions.ample : Ample Preconditions.format Preconditions.itemCount := by
  intro p path
  cases p with
  | general conditions => exact Nat.lt_succ_of_lt (Conditions.ample conditions _)
  | _ => exact Nat.succ_pos _

/-! ## Contracts -/

namespace Contract

namespace Value

mutual

/-- The items of vectors and the entries of maps inside a value. -/
def itemCount : Value → Nat
  | vector (some items) => itemCountAll items
  | map (some entries) => itemCountEntries entries
  | _ => 0

/-- Items of a vector and those inside them. -/
def itemCountAll : List Value → Nat
  | [] => 0
  | v :: rest => 1 + itemCount v + itemCountAll rest

/-- Entries of a map and the items inside their keys and values. -/
def itemCountEntries : List (Value × Value) → Nat
  | [] => 0
  | (k, v) :: rest => 1 + (itemCount k + itemCount v) + itemCountEntries rest

end

/-- An atom announces no items: of 18 kinds none is an array. -/
theorem counts_atom (a : Atom) : Layout.itemCount (format.layout (.atom a)) ≤ 0 := by
  rw [format_eq]
  cases a with
  | address a => cases a <;> exact Nat.le_refl 0
  | _ => exact Nat.le_refl 0

mutual

/-- The induction follows the value; the format is opened by one layer at a time. -/
theorem counts : Counts format itemCount
  | .atom a => counts_atom a
  | .vector none => by
    rw [format_eq]
    exact Nat.le_refl 0
  | .vector (some items) => by
    rw [format_eq]
    exact counts_all items
  | .map none => by
    rw [format_eq]
    exact Nat.le_refl 0
  | .map (some entries) => by
    rw [format_eq]
    exact counts_entries entries

theorem counts_all : (items : List Value) →
    items.length + Layout.itemCount (items.flatMap format.layout) ≤ itemCountAll items
  | [] => Nat.le_refl 0
  | v :: rest => Counts.cons (counts v) (counts_all rest)

/-- An entry counts once, with what is in its key and in its value. -/
theorem counts_entries : (entries : List (Value × Value)) →
    entries.length + Layout.itemCount (entries.flatMap (entryFormat format).layout) ≤
      itemCountEntries entries
  | [] => Nat.le_refl 0
  | (k, v) :: rest => by
    refine Counts.cons ?_ (counts_entries rest)
    show Layout.itemCount (format.layout k ++ format.layout v) ≤ _
    rw [Layout.itemCount_append]
    exact Nat.add_le_add (counts k) (counts v)

end

/-- An atom has a line for its label. -/
theorem length_print_atom (a : Atom) (path : String) :
    0 < (format.print (.atom a) path).length := by
  rw [format_eq]
  cases a <;> exact Nat.succ_pos _

mutual

/-- A vector has three lines besides those of its items: a label, a flag and a number. -/
theorem ample : Ample format itemCount
  | .atom a, path => length_print_atom a path
  | .vector none, path => by
    rw [format_eq]
    exact Nat.succ_pos _
  | .vector (some items), path => by
    rw [format_eq]
    exact Nat.lt_succ_of_lt (Nat.lt_succ_of_lt (Nat.lt_succ_of_le (ample_all items _ 0)))
  | .map none, path => by
    rw [format_eq]
    exact Nat.succ_pos _
  | .map (some entries), path => by
    rw [format_eq]
    exact Nat.lt_succ_of_lt (Nat.lt_succ_of_lt (Nat.lt_succ_of_le (ample_entries entries _ 0)))

theorem ample_all : (items : List Value) → ∀ path i,
    itemCountAll items ≤ (format.printItems path i items).length
  | [], _, _ => Nat.zero_le _
  | v :: rest, path, i => Format.le_length_printItems_cons (ample v _) (ample_all rest path (i + 1))

/-- An entry has more lines than what is inside, since its key and its value both have. -/
theorem ample_entries : (entries : List (Value × Value)) → ∀ path i,
    itemCountEntries entries ≤ ((entryFormat format).printItems path i entries).length
  | [], _, _ => Nat.zero_le _
  | (k, v) :: rest, path, i => by
    refine Format.le_length_printItems_cons ?_ (ample_entries rest path (i + 1))
    show _ < (format.print k _ ++ format.print v _).length
    rw [List.length_append]
    exact Nat.add_lt_add (ample k _) (ample v _)

end

end Value

/-- The arguments of a call and the items inside them. -/
def Call.itemCount (c : Call) : Nat := countItems Value.itemCount c.args

theorem Call.counts : Counts Call.format Call.itemCount :=
  .map <| .skip (.of_lengthless Address.lengthless) <| .skip .string <| .field (.array Value.counts)

theorem Call.ample : Ample Call.format Call.itemCount :=
  .map <| .skip <| .skip <| .field (.array Value.ample)

/-- The items in a host function. -/
def HostFunction.itemCount : HostFunction → Nat
  | invoke call => call.itemCount
  | _ => 0

theorem HostFunction.counts : Counts HostFunction.format HostFunction.itemCount := by
  intro function
  cases function with
  | invoke call => exact Call.counts call
  | create creation => exact Counts.of_itemless (.of_lengthless Creation.lengthless) creation
  | upload wasm => exact Nat.le_refl 0

/-- Uploaded code has two lines and no items. -/
theorem HostFunction.ample : Ample HostFunction.format HostFunction.itemCount := by
  intro function path
  cases function with
  | invoke call => exact Nat.lt_succ_of_lt (Call.ample call _)
  | _ => exact Nat.succ_pos _

/-- The items in the agreement of an address. -/
def AddressCredentials.itemCount (c : AddressCredentials) : Nat := c.signature.itemCount

theorem AddressCredentials.counts : Counts AddressCredentials.format itemCount :=
  .map <| .skip (.of_lengthless Address.lengthless) <| .skip (.scalar .int64) <|
    .skip (.scalar .uint32) <| .field Value.counts

theorem AddressCredentials.ample : Ample AddressCredentials.format itemCount :=
  .map <| .skip <| .skip <| .skip <| .field Value.ample

/-- The items in credentials. -/
def Credentials.itemCount : Credentials → Nat
  | sourceAccount => 0
  | address credentials => credentials.itemCount

theorem Credentials.counts : Counts Credentials.format Credentials.itemCount := by
  intro c
  cases c with
  | sourceAccount => exact Nat.le_refl 0
  | address c => exact AddressCredentials.counts c

theorem Credentials.ample : Ample Credentials.format Credentials.itemCount := by
  intro c path
  cases c with
  | sourceAccount => exact Nat.succ_pos _
  | address c => exact Nat.lt_succ_of_lt (AddressCredentials.ample c _)

/-- The items in a function that is agreed to. -/
def AuthorizedFunction.itemCount : AuthorizedFunction → Nat
  | call c => c.itemCount
  | create _ => 0

theorem AuthorizedFunction.counts : Counts AuthorizedFunction.format itemCount := by
  intro f
  cases f with
  | call c => exact Call.counts c
  | create creation => exact Counts.of_itemless (.of_lengthless Creation.lengthless) creation

/-- The creation of a contract has no items. -/
theorem AuthorizedFunction.ample : Ample AuthorizedFunction.format itemCount := by
  intro f path
  cases f with
  | call c => exact Nat.lt_succ_of_lt (Call.ample c _)
  | create creation => exact Nat.succ_pos _

namespace Invocation

mutual

/-- The sub-invocations of an invocation and the items in its function. -/
def itemCount : Invocation → Nat
  | mk function subInvocations => function.itemCount + itemCountAll subInvocations

/-- Invocations and the items inside them. -/
def itemCountAll : List Invocation → Nat
  | [] => 0
  | i :: rest => 1 + itemCount i + itemCountAll rest

end

mutual

/-- The function announces its arguments, and the list its calls. -/
theorem counts : Counts format itemCount
  | .mk function subInvocations => by
    rw [format_eq]
    show Layout.itemCount (AuthorizedFunction.format.layout function ++
      .items subInvocations.length _ :: subInvocations.flatMap format.layout) ≤ _
    rw [Layout.itemCount_append]
    exact Nat.add_le_add (AuthorizedFunction.counts function) (counts_all subInvocations)

theorem counts_all : (is : List Invocation) →
    is.length + Layout.itemCount (is.flatMap format.layout) ≤ itemCountAll is
  | [] => Nat.le_refl 0
  | i :: rest => Counts.cons (counts i) (counts_all rest)

end

mutual

/-- The lines of the function make up for the invocation itself. -/
theorem ample : Ample format itemCount
  | .mk function subInvocations, path => by
    have hfunction := AuthorizedFunction.ample function (TxRep.join path "function")
    have hinside := ample_all subInvocations (TxRep.join path "subInvocations") 0
    rw [format_eq]
    show _ < (AuthorizedFunction.format.print function _ ++
      _ :: format.printItems _ 0 subInvocations).length
    rw [List.length_append, List.length_cons]
    exact Nat.add_lt_add hfunction (Nat.lt_succ_of_le hinside)

theorem ample_all : (is : List Invocation) → ∀ path i,
    itemCountAll is ≤ (format.printItems path i is).length
  | [], _, _ => Nat.zero_le _
  | i :: rest, path, k => Format.le_length_printItems_cons (ample i _) (ample_all rest path (k + 1))

end

end Invocation

/-- The items in a tree of calls with its credentials. -/
def Authorization.itemCount (a : Authorization) : Nat :=
  a.credentials.itemCount + a.root.itemCount

theorem Authorization.counts : Counts Authorization.format Authorization.itemCount :=
  .map <| .and Credentials.counts (.field Invocation.counts)

theorem Authorization.ample : Ample Authorization.format Authorization.itemCount :=
  .map <| .and Credentials.ample (.field Invocation.ample)

end Contract

/-! ## Operations -/

namespace Operation

/-- An asset has a line. -/
theorem ample_asset : Ample Asset.format fun _ => 0 := fun _ _ => Nat.one_pos

/-- The assets on the path of a payment of what arrives. -/
def PathPaymentStrictReceive.itemCount (op : PathPaymentStrictReceive) : Nat := op.path.length

theorem PathPaymentStrictReceive.counts : Counts PathPaymentStrictReceive.format itemCount :=
  .map <| .skip (.of_lengthless Asset.lengthless) <| .skip (.scalar .amount) <|
    .skip (.of_lengthless MuxedAccount.lengthless) <| .skip (.of_lengthless Asset.lengthless) <|
    .skip (.scalar .amount) <| .field (.items (.of_lengthless Asset.lengthless))

theorem PathPaymentStrictReceive.ample : Ample PathPaymentStrictReceive.format itemCount :=
  .map <| .skip <| .skip <| .skip <| .skip <| .skip <| .field (.items ample_asset)

/-- The assets on the path of a payment of what is sent. -/
def PathPaymentStrictSend.itemCount (op : PathPaymentStrictSend) : Nat := op.path.length

theorem PathPaymentStrictSend.counts : Counts PathPaymentStrictSend.format itemCount :=
  .map <| .skip (.of_lengthless Asset.lengthless) <| .skip (.scalar .amount) <|
    .skip (.of_lengthless MuxedAccount.lengthless) <| .skip (.of_lengthless Asset.lengthless) <|
    .skip (.scalar .amount) <| .field (.items (.of_lengthless Asset.lengthless))

theorem PathPaymentStrictSend.ample : Ample PathPaymentStrictSend.format itemCount :=
  .map <| .skip <| .skip <| .skip <| .skip <| .skip <| .field (.items ample_asset)

/-- The claimants of a claimable balance and the conditions in their predicates. -/
def CreateClaimableBalance.itemCount (op : CreateClaimableBalance) : Nat :=
  countItems Claimant.itemCount op.claimants

theorem CreateClaimableBalance.counts : Counts CreateClaimableBalance.format itemCount :=
  .map <| .skip (.of_lengthless Asset.lengthless) <| .skip (.scalar .amount) <|
    .field (.array Claimant.counts)

theorem CreateClaimableBalance.ample : Ample CreateClaimableBalance.format itemCount :=
  .map <| .skip <| .skip <| .field (.array Claimant.ample)

/-- The authorizations for a call of the contract host, and the items in them and in the call. -/
def InvokeHostFunction.itemCount (op : InvokeHostFunction) : Nat :=
  op.function.itemCount + countItems Contract.Authorization.itemCount op.auth

theorem InvokeHostFunction.counts : Counts InvokeHostFunction.format itemCount :=
  .map <| .and Contract.HostFunction.counts <| .field (.array Contract.Authorization.counts)

theorem InvokeHostFunction.ample : Ample InvokeHostFunction.format itemCount :=
  .map <| .and Contract.HostFunction.ample <| .field (.array Contract.Authorization.ample)

/-- A signer among the settings is one value, and no item. -/
theorem SetOptions.itemless : Itemless SetOptions.format :=
  .map <| .and (.of_lengthless (.option AccountId.lengthless)) <|
    .and (.option (.scalar .uint32)) <| .and (.option (.scalar .uint32)) <|
    .and (.option (.scalar .uint32)) <| .and (.option (.scalar .uint32)) <|
    .and (.option (.scalar .uint32)) <| .and (.option (.scalar .uint32)) <|
    .and (.option .string) <| .field <| .option <| .map <|
    .and SignerKey.itemless (.field (.scalar .uint32))

theorem ManageData.itemless : Itemless ManageData.format :=
  .map <| .and .string (.field (.option .bytes))

/-- Neither a ledger key nor a signer holds items. -/
theorem RevokeSponsorship.itemless : Itemless RevokeSponsorship.format := by
  intro op
  cases op with
  | entry key =>
    cases key with
    | trustLine holder asset =>
      exact Itemless.of_lengthless TrustLineAsset.lengthless asset
    | _ => rfl
  | signer account key => exact SignerKey.itemless key

/-- The items in the body of an operation. -/
def Body.itemCount : Body → Nat
  | pathPaymentStrictReceive op => op.itemCount
  | pathPaymentStrictSend op => op.itemCount
  | createClaimableBalance op => op.itemCount
  | invokeHostFunction op => op.itemCount
  | _ => 0

/-- Of 25 kinds of operations four announce items. -/
theorem Body.counts : Counts Body.format Body.itemCount := by
  have flat {α : Type} {f : Format α} (h : Format.Lengthless f) (a : α) :
      Layout.itemCount (f.layout a) ≤ 0 := Nat.le_of_eq (Layout.itemCount_of_limits (h a))
  intro body
  cases body with
  | createAccount op => exact flat CreateAccount.lengthless op
  | payment op => exact flat Payment.lengthless op
  | pathPaymentStrictReceive op => exact PathPaymentStrictReceive.counts op
  | manageSellOffer op => exact flat ManageSellOffer.lengthless op
  | createPassiveSellOffer op => exact flat CreatePassiveSellOffer.lengthless op
  | setOptions op => exact Nat.le_of_eq (SetOptions.itemless op)
  | changeTrust op => exact flat ChangeTrust.lengthless op
  | allowTrust op => exact flat AllowTrust.lengthless op
  | accountMerge destination => exact flat MuxedAccount.lengthless destination
  | inflation => exact Nat.le_refl 0
  | manageData op => exact Nat.le_of_eq (ManageData.itemless op)
  | bumpSequence op => exact flat BumpSequence.lengthless op
  | manageBuyOffer op => exact flat ManageBuyOffer.lengthless op
  | pathPaymentStrictSend op => exact PathPaymentStrictSend.counts op
  | createClaimableBalance op => exact CreateClaimableBalance.counts op
  | claimClaimableBalance op => exact flat ClaimClaimableBalance.lengthless op
  | beginSponsoringFutureReserves op => exact flat BeginSponsoringFutureReserves.lengthless op
  | endSponsoringFutureReserves => exact Nat.le_refl 0
  | revokeSponsorship op => exact Nat.le_of_eq (RevokeSponsorship.itemless op)
  | clawback op => exact flat Clawback.lengthless op
  | clawbackClaimableBalance op => exact flat ClawbackClaimableBalance.lengthless op
  | setTrustLineFlags op => exact flat SetTrustLineFlags.lengthless op
  | liquidityPoolDeposit op => exact flat LiquidityPoolDeposit.lengthless op
  | liquidityPoolWithdraw op => exact flat LiquidityPoolWithdraw.lengthless op
  | invokeHostFunction op => exact InvokeHostFunction.counts op

/-- Every body has a line for its label. -/
theorem Body.ample : Ample Body.format Body.itemCount := by
  intro body path
  cases body with
  | pathPaymentStrictReceive op =>
    exact Nat.lt_succ_of_lt (PathPaymentStrictReceive.ample op _)
  | pathPaymentStrictSend op => exact Nat.lt_succ_of_lt (PathPaymentStrictSend.ample op _)
  | createClaimableBalance op => exact Nat.lt_succ_of_lt (CreateClaimableBalance.ample op _)
  | invokeHostFunction op => exact Nat.lt_succ_of_lt (InvokeHostFunction.ample op _)
  | _ => exact Nat.succ_pos _

end Operation

/-- The items in an operation. -/
def Operation.itemCount (op : Operation) : Nat := op.body.itemCount

theorem Operation.counts : Counts Operation.format Operation.itemCount :=
  .map <| .skip (.of_lengthless (.option MuxedAccount.lengthless)) (.field Operation.Body.counts)

theorem Operation.ample : Ample Operation.format Operation.itemCount :=
  .map <| .skip (.field Operation.Body.ample)

/-! ## Transactions -/

theorem DecoratedSignature.itemless : Itemless DecoratedSignature.format :=
  .map <| .and (.of_lengthless (.octets 4)) (.field .bytes)

theorem DecoratedSignature.ample : Ample DecoratedSignature.format fun _ => 0 :=
  fun _ _ => Nat.succ_pos _

/-- The signatures on a transaction, given the items in the transaction. -/
def Signed.itemCount {τ : Type} (inside : τ → Nat) (s : Signed τ) : Nat :=
  inside s.tx + s.signatures.length

theorem Signed.counts {τ : Type} {f : Format τ} {inside : τ → Nat} (h : Counts f inside) :
    Counts (Signed.format f) (Signed.itemCount inside) :=
  .map <| .and h (.field (.items DecoratedSignature.itemless))

/-- The number of signatures has a line of its own. -/
theorem Signed.ample {τ : Type} {f : Format τ} {inside : τ → Nat} (h : Ample f inside) :
    Ample (Signed.format f) (Signed.itemCount inside) :=
  .map <| .and h (.field (.items DecoratedSignature.ample))

theorem Memo.itemless : Itemless Memo.format := by
  intro memo
  cases memo <;> rfl

/-- The operations of a transaction and the items in them, and those in its preconditions. -/
def Transaction.itemCount (tx : Transaction) : Nat :=
  tx.cond.itemCount + countItems Operation.itemCount tx.operations

theorem Transaction.counts : Counts Transaction.format Transaction.itemCount :=
  .map <| .skip (.of_lengthless MuxedAccount.lengthless) <| .skip (.scalar .uint32) <|
    .skip (.scalar .int64) <| .and Preconditions.counts <| .skip Memo.itemless <|
    .stop (.array Operation.counts) (.field (.of_lengthless (.extension _)))

theorem Transaction.ample : Ample Transaction.format Transaction.itemCount :=
  .map <| .skip <| .skip <| .skip <| .and Preconditions.ample <| .skip <|
    .stop (.array Operation.ample)

/-- The operations of a transaction of version 0 and the items in them. -/
def TransactionV0.itemCount (tx : TransactionV0) : Nat :=
  countItems Operation.itemCount tx.operations

theorem TransactionV0.counts : Counts TransactionV0.format TransactionV0.itemCount :=
  .map <| .skip (.of_lengthless lengthless_source) <| .skip (.scalar .uint32) <|
    .skip (.scalar .int64) <| .skip (.of_lengthless (.option TimeBounds.lengthless)) <|
    .skip Memo.itemless <| .stop (.array Operation.counts) (.field (.of_lengthless (.extension _)))

theorem TransactionV0.ample : Ample TransactionV0.format TransactionV0.itemCount :=
  .map <| .skip <| .skip <| .skip <| .skip <| .skip <| .stop (.array Operation.ample)

/-- The items in a fee bump: those in the inner transaction with its signatures. -/
def FeeBump.itemCount (tx : FeeBump) : Nat := Signed.itemCount Transaction.itemCount tx.inner

/-- The inner transaction counts with its signatures. -/
theorem FeeBump.counts : Counts FeeBump.format FeeBump.itemCount := by
  refine .map <| .skip (.of_lengthless MuxedAccount.lengthless) <| .skip (.scalar .int64) <|
    .stop ?_ (.field (.of_lengthless (.extension _)))
  exact Signed.counts Transaction.counts

theorem FeeBump.ample : Ample FeeBump.format FeeBump.itemCount := by
  refine .map <| .skip <| .skip <| .stop fun inner path => ?_
  exact Nat.lt_succ_of_lt (Signed.ample Transaction.ample inner path)

/-- The items in an envelope. -/
def Envelope.itemCount : Envelope → Nat
  | v0 env => Signed.itemCount TransactionV0.itemCount env
  | v1 env => Signed.itemCount Transaction.itemCount env
  | feeBump env => Signed.itemCount FeeBump.itemCount env

theorem Envelope.counts : Counts Envelope.format Envelope.itemCount := by
  intro env
  cases env with
  | v0 env => exact Signed.counts TransactionV0.counts env
  | v1 env => exact Signed.counts Transaction.counts env
  | feeBump env => exact Signed.counts FeeBump.counts env

theorem Envelope.ample : Ample Envelope.format Envelope.itemCount := by
  intro env path
  cases env with
  | v0 env => exact Nat.lt_succ_of_lt (Signed.ample TransactionV0.ample env path)
  | v1 env => exact Nat.lt_succ_of_lt (Signed.ample Transaction.ample env path)
  | feeBump env => exact Nat.lt_succ_of_lt (Signed.ample FeeBump.ample env _)

end StellarTx
