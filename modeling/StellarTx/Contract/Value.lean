/-
# Values of contracts

Contracts are called with values: numbers, times, bytes, text, addresses, and vectors and maps of
values.  An `Atom` is a value that holds no other.
-/
import StellarTx.Account
import StellarTx.Format.Recursive

namespace StellarTx.Contract

open Format (union arm void field option array deeper octets)
open Xdr (unbounded)

/-! ## Addresses -/

/-- What a contract can call by address. -/
inductive Address where
  | account (account : AccountId)
  | contract (contract : Octets 32)
  deriving DecidableEq

/-- In text the address of a contract is its `C...` key. -/
def Address.format : Format Address :=
  union "SCAddressType"
    [arm 0 "SC_ADDRESS_TYPE_ACCOUNT" (field "accountId" AccountId.format)
        account fun | account a => some a | _ => none,
     arm 1 "SC_ADDRESS_TYPE_CONTRACT"
        (field "contractId" ((octets 32).token
          (fun id => (StrKey.contract id).encode) (StrKey.decodeContract · |>.toOption)))
        contract fun | contract c => some c | _ => none]

/-! ## Wide numbers -/

/-- A number of 128 bits without a sign, in words from the high one to the low. -/
structure UInt128 where
  hi : UInt64
  lo : UInt64
  deriving DecidableEq, Repr

def UInt128.format : Format UInt128 :=
  ((field "hi" .uint64).and (field "lo" .uint64)).map (fun (hi, lo) => ⟨hi, lo⟩)
    fun v => (v.hi, v.lo)

/-- A number of 128 bits with a sign, which the high word has. -/
structure Int128 where
  hi : Int64
  lo : UInt64
  deriving DecidableEq, Repr

def Int128.format : Format Int128 :=
  ((field "hi" .int64).and (field "lo" .uint64)).map (fun (hi, lo) => ⟨hi, lo⟩)
    fun v => (v.hi, v.lo)

/-- A number of 256 bits without a sign, in words from the highest to the lowest. -/
structure UInt256 where
  hiHi : UInt64
  hiLo : UInt64
  loHi : UInt64
  loLo : UInt64
  deriving DecidableEq, Repr

def UInt256.format : Format UInt256 :=
  ((field "hi_hi" .uint64).and <| (field "hi_lo" .uint64).and <|
    (field "lo_hi" .uint64).and <| field "lo_lo" .uint64).map
    (fun (a, b, c, d) => ⟨a, b, c, d⟩) fun v => (v.hiHi, v.hiLo, v.loHi, v.loLo)

/-- A number of 256 bits with a sign, which the highest word has. -/
structure Int256 where
  hiHi : Int64
  hiLo : UInt64
  loHi : UInt64
  loLo : UInt64
  deriving DecidableEq, Repr

def Int256.format : Format Int256 :=
  ((field "hi_hi" .int64).and <| (field "hi_lo" .uint64).and <|
    (field "lo_hi" .uint64).and <| field "lo_lo" .uint64).map
    (fun (a, b, c, d) => ⟨a, b, c, d⟩) fun v => (v.hiHi, v.hiLo, v.loHi, v.loLo)

/-! ## Atoms -/

/-- The greatest number of bytes in a symbol, such as the name of a function. -/
def maxSymbol : Nat := 32

/-- A value that holds no other. -/
inductive Atom where
  | bool (b : Bool)
  | void
  | uint32 (v : UInt32)
  | int32 (v : Int32)
  | uint64 (v : UInt64)
  | int64 (v : Int64)
  | timepoint (seconds : UInt64)
  | duration (seconds : UInt64)
  | uint128 (v : UInt128)
  | int128 (v : Int128)
  | uint256 (v : UInt256)
  | int256 (v : Int256)
  | bytes (data : List UInt8)
  | string (s : String)
  | symbol (s : String)
  | address (a : Address)
  /-- The key of what a contract keeps for itself. -/
  | instanceKey
  /-- The key of a number that was used once. -/
  | nonceKey (nonce : Int64)
  deriving DecidableEq

/-- The arms of an atom. -/
def Atom.arms : List (Arm Atom) :=
  [arm 0 "SCV_BOOL" (field "b" .bool) bool fun | bool b => some b | _ => none,
   Format.void 1 "SCV_VOID" void fun | void => some () | _ => none,
   arm 3 "SCV_U32" (field "u32" .uint32) uint32 fun | uint32 v => some v | _ => none,
   arm 4 "SCV_I32" (field "i32" .int32) int32 fun | int32 v => some v | _ => none,
   arm 5 "SCV_U64" (field "u64" .uint64) uint64 fun | uint64 v => some v | _ => none,
   arm 6 "SCV_I64" (field "i64" .int64) int64 fun | int64 v => some v | _ => none,
   arm 7 "SCV_TIMEPOINT" (field "timepoint" .timestamp)
      timepoint fun | timepoint s => some s | _ => none,
   arm 8 "SCV_DURATION" (field "duration" .uint64)
      duration fun | duration s => some s | _ => none,
   arm 9 "SCV_U128" (field "u128" UInt128.format) uint128 fun | uint128 v => some v | _ => none,
   arm 10 "SCV_I128" (field "i128" Int128.format) int128 fun | int128 v => some v | _ => none,
   arm 11 "SCV_U256" (field "u256" UInt256.format) uint256 fun | uint256 v => some v | _ => none,
   arm 12 "SCV_I256" (field "i256" Int256.format) int256 fun | int256 v => some v | _ => none,
   arm 13 "SCV_BYTES" (field "bytes" (.bytes unbounded))
      bytes fun | bytes data => some data | _ => none,
   arm 14 "SCV_STRING" (field "str" (.string unbounded))
      string fun | string s => some s | _ => none,
   arm 15 "SCV_SYMBOL" (field "sym" (.string maxSymbol))
      symbol fun | symbol s => some s | _ => none,
   arm 18 "SCV_ADDRESS" (field "address" Address.format)
      address fun | address a => some a | _ => none,
   Format.void 20 "SCV_LEDGER_KEY_CONTRACT_INSTANCE" instanceKey
      fun | instanceKey => some () | _ => none,
   arm 21 "SCV_LEDGER_KEY_NONCE" (field "nonce_key" (field "nonce" .int64))
      nonceKey fun | nonceKey n => some n | _ => none]

/-! ## Values -/

/-- A value that a contract is called with. -/
inductive Value where
  | atom (a : Atom)
  | vector (items : Option (List Value))
  /-- Keys and their values, in the order given. -/
  | map (entries : Option (List (Value × Value)))

namespace Value

/-- The atom, unless the value holds others. -/
def atom? : Value → Option Atom
  | atom a => some a
  | _ => none

mutual

/-- Decides whether two values are the same. -/
def decEq (v w : Value) : Decidable (v = w) :=
  match v with
  | atom a => by
    cases w with
    | atom b => exact decidable_of_decidable_of_iff (p := a = b) (by simp)
    | _ => exact isFalse nofun
  | vector none => by
    cases w with
    | vector w =>
      cases w with
      | none => exact isTrue rfl
      | some w => exact isFalse nofun
    | _ => exact isFalse nofun
  | vector (some vs) => by
    cases w with
    | vector w =>
      cases w with
      | none => exact isFalse nofun
      | some ws =>
        exact match decEqList vs ws with
          | isTrue h => isTrue (h ▸ rfl)
          | isFalse h => isFalse fun e => h (Option.some.inj (vector.inj e))
    | _ => exact isFalse nofun
  | map none => by
    cases w with
    | map w =>
      cases w with
      | none => exact isTrue rfl
      | some w => exact isFalse nofun
    | _ => exact isFalse nofun
  | map (some vs) => by
    cases w with
    | map w =>
      cases w with
      | none => exact isFalse nofun
      | some ws =>
        exact match decEqEntries vs ws with
          | isTrue h => isTrue (h ▸ rfl)
          | isFalse h => isFalse fun e => h (Option.some.inj (map.inj e))
    | _ => exact isFalse nofun

/-- Decides whether two lists of values are the same. -/
def decEqList (vs ws : List Value) : Decidable (vs = ws) :=
  match vs, ws with
  | [], [] => isTrue rfl
  | [], _ :: _ => isFalse nofun
  | _ :: _, [] => isFalse nofun
  | v :: vs, w :: ws =>
    match decEq v w, decEqList vs ws with
    | isTrue h, isTrue hs => isTrue (h ▸ hs ▸ rfl)
    | isFalse h, _ => isFalse fun e => h (List.cons.inj e).1
    | _, isFalse hs => isFalse fun e => hs (List.cons.inj e).2

/-- Decides whether two lists of entries are the same. -/
def decEqEntries (vs ws : List (Value × Value)) : Decidable (vs = ws) :=
  match vs, ws with
  | [], [] => isTrue rfl
  | [], _ :: _ => isFalse nofun
  | _ :: _, [] => isFalse nofun
  | (k, v) :: vs, (l, w) :: ws =>
    match decEq k l, decEq v w, decEqEntries vs ws with
    | isTrue hk, isTrue hv, isTrue hs => isTrue (hk ▸ hv ▸ hs ▸ rfl)
    | isFalse h, _, _ => isFalse fun e => h (Prod.mk.inj (List.cons.inj e).1).1
    | _, isFalse h, _ => isFalse fun e => h (Prod.mk.inj (List.cons.inj e).1).2
    | _, _, isFalse h => isFalse fun e => h (List.cons.inj e).2

end

instance : DecidableEq Value := decEq

mutual

/-- Levels of nesting that a reader enters: one for each vector or map that is there. -/
def level : Value → Nat
  | vector (some items) => maxLevel items + 1
  | map (some entries) => maxLevelEntries entries + 1
  | _ => 0

/-- The greatest level among values, zero if there are none. -/
def maxLevel : List Value → Nat
  | [] => 0
  | v :: rest => max (level v) (maxLevel rest)

/-- The greatest level among keys and values of entries, zero if there are none. -/
def maxLevelEntries : List (Value × Value) → Nat
  | [] => 0
  | (k, v) :: rest => max (max (level k) (level v)) (maxLevelEntries rest)

end

/-- The format of an entry of a map, given the format of values. -/
def entryFormat (self : Format Value) : Format (Value × Value) :=
  (field "key" self).and (field "val" self)

/-- The arms of a value, given the format of the values inside. -/
def arms (self : Format Value) : List (Arm Value) :=
  [arm 16 "SCV_VEC" (field "vec" (option (deeper (array unbounded self))))
      vector fun | vector items => some items | _ => none,
   arm 17 "SCV_MAP" (field "map" (option (deeper (array unbounded (entryFormat self)))))
      map fun | map entries => some entries | _ => none] ++
  Atom.arms.map (·.lift atom atom? (fun _ => rfl) (by intro v a h; cases v <;> cases h; rfl))

/-- One layer of the format, given the format of the values inside. -/
def layer (self : Format Value) : Format Value := union "SCValType" (arms self)

def format : Format Value := .fix layer level

end Value

end StellarTx.Contract
