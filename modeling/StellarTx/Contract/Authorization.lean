/-
# Authorizations of contract calls

An address agrees to a tree of calls: the root and the calls that it leads to.
-/
import StellarTx.Contract.HostFunction

namespace StellarTx.Contract

open Format (union arm void field array deeper)
open Xdr (unbounded)

/-! ## Credentials -/

/-- The agreement of an address to calls. -/
structure AddressCredentials where
  address : Address
  nonce : Int64
  /-- The last ledger in which the signature counts. -/
  expirationLedger : UInt32
  signature : Value
  deriving DecidableEq

def AddressCredentials.format : Format AddressCredentials :=
  ((field "address" Address.format).and <| (field "nonce" .int64).and <|
    (field "signatureExpirationLedger" .uint32).and <| field "signature" Value.format).map
    (fun (address, nonce, ledger, signature) => ⟨address, nonce, ledger, signature⟩)
    fun c => (c.address, c.nonce, c.expirationLedger, c.signature)

/-- Who agrees to calls. -/
inductive Credentials where
  /-- The source account, with its signature on the transaction. -/
  | sourceAccount
  | address (credentials : AddressCredentials)
  deriving DecidableEq

def Credentials.format : Format Credentials :=
  union "SorobanCredentialsType"
    [void 0 "SOROBAN_CREDENTIALS_SOURCE_ACCOUNT" sourceAccount
        fun | sourceAccount => some () | _ => none,
     arm 1 "SOROBAN_CREDENTIALS_ADDRESS" (field "address" AddressCredentials.format)
        address fun | address c => some c | _ => none]

/-! ## Invocations -/

/-- A call, or a creation, that is agreed to. -/
inductive AuthorizedFunction where
  | call (call : Call)
  | create (creation : Creation)
  deriving DecidableEq

def AuthorizedFunction.format : Format AuthorizedFunction :=
  union "SorobanAuthorizedFunctionType"
    [arm 0 "SOROBAN_AUTHORIZED_FUNCTION_TYPE_CONTRACT_FN" (field "contractFn" Call.format)
        call fun | call c => some c | _ => none,
     arm 1 "SOROBAN_AUTHORIZED_FUNCTION_TYPE_CREATE_CONTRACT_HOST_FN"
        (field "createContractHostFn" Creation.format)
        create fun | create c => some c | _ => none]

/-- A function and the invocations that it leads to. -/
inductive Invocation where
  | mk (function : AuthorizedFunction) (subInvocations : List Invocation)

namespace Invocation

def function : Invocation → AuthorizedFunction
  | mk function _ => function

def subInvocations : Invocation → List Invocation
  | mk _ subInvocations => subInvocations

mutual

/-- Decides whether two invocations are the same. -/
def decEq (i j : Invocation) : Decidable (i = j) :=
  match i, j with
  | mk f is, mk g js =>
    match (inferInstance : Decidable (f = g)), decEqList is js with
    | isTrue h, isTrue hs => isTrue (h ▸ hs ▸ rfl)
    | isFalse h, _ => isFalse fun e => h (mk.inj e).1
    | _, isFalse hs => isFalse fun e => hs (mk.inj e).2

/-- Decides whether two lists of invocations are the same. -/
def decEqList (is js : List Invocation) : Decidable (is = js) :=
  match is, js with
  | [], [] => isTrue rfl
  | [], _ :: _ => isFalse nofun
  | _ :: _, [] => isFalse nofun
  | i :: is, j :: js =>
    match decEq i j, decEqList is js with
    | isTrue h, isTrue hs => isTrue (h ▸ hs ▸ rfl)
    | isFalse h, _ => isFalse fun e => h (List.cons.inj e).1
    | _, isFalse hs => isFalse fun e => hs (List.cons.inj e).2

end

instance : DecidableEq Invocation := decEq

mutual

/-- Levels of nesting that a reader enters: one for each list of sub-invocations, even an empty one,
and those of the arguments. -/
def level : Invocation → Nat
  | mk function subInvocations =>
    max (AuthorizedFunction.format.level function) (maxLevel subInvocations + 1)

/-- The greatest level among invocations, zero if there are none. -/
def maxLevel : List Invocation → Nat
  | [] => 0
  | i :: rest => max (level i) (maxLevel rest)

end

/-- One layer of the format, given the format of the invocations inside. -/
def layer (self : Format Invocation) : Format Invocation :=
  ((field "function" AuthorizedFunction.format).and <|
    field "subInvocations" (deeper (array unbounded self))).map
    (fun (function, subInvocations) => mk function subInvocations)
    fun i => (i.function, i.subInvocations)

def format : Format Invocation := .fix layer level

end Invocation

/-! ## Entries -/

/-- A tree of calls and who agrees to it. -/
structure Authorization where
  credentials : Credentials
  root : Invocation
  deriving DecidableEq

def Authorization.format : Format Authorization :=
  ((field "credentials" Credentials.format).and <|
    field "rootInvocation" Invocation.format).map
    (fun (credentials, root) => ⟨credentials, root⟩) fun a => (a.credentials, a.root)

end StellarTx.Contract
