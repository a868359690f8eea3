/-
# Preconditions

What must hold for a transaction to be valid: the time, the ledger, the age of the source account's
sequence number, and further signatures.  There are three forms, and `Preconditions.minimal` picks
the smallest that holds what is asked for.
-/
import StellarTx.Account

namespace StellarTx

open Format (union arm void field option array)

/-- A span of time; the maximum zero means no end. -/
structure TimeBounds where
  minTime : UInt64
  maxTime : UInt64
  deriving DecidableEq, Repr

def TimeBounds.format : Format TimeBounds :=
  ((field "minTime" .timestamp).and (field "maxTime" .timestamp)).map
    (fun (min, max) => ⟨min, max⟩) fun b => (b.minTime, b.maxTime)

/-- A span of ledgers; the maximum zero means no end. -/
structure LedgerBounds where
  minLedger : UInt32
  maxLedger : UInt32
  deriving DecidableEq, Repr

def LedgerBounds.format : Format LedgerBounds :=
  ((field "minLedger" .uint32).and (field "maxLedger" .uint32)).map
    (fun (min, max) => ⟨min, max⟩) fun b => (b.minLedger, b.maxLedger)

/-- The greatest number of extra signers. -/
def maxExtraSigners : Nat := 2

/-- Everything that can be asked for. -/
structure Conditions where
  timeBounds : Option TimeBounds := none
  ledgerBounds : Option LedgerBounds := none
  /-- The least sequence number that the source account may have. -/
  minSeqNum : Option Int64 := none
  /-- The least time since the sequence number changed, in seconds. -/
  minSeqAge : UInt64 := 0
  /-- The least number of ledgers since the sequence number changed. -/
  minSeqLedgerGap : UInt32 := 0
  extraSigners : List SignerKey := []
  deriving DecidableEq

namespace Conditions

/-- Whether nothing but the time is asked for. -/
def isTimeOnly (c : Conditions) : Bool :=
  c.ledgerBounds.isNone && c.minSeqNum.isNone && c.minSeqAge == 0 && c.minSeqLedgerGap == 0 &&
    c.extraSigners.isEmpty

def format : Format Conditions :=
  ((field "timeBounds" (option TimeBounds.format)).and <|
    (field "ledgerBounds" (option LedgerBounds.format)).and <|
    (field "minSeqNum" (option .int64)).and <|
    (field "minSeqAge" .uint64).and <|
    (field "minSeqLedgerGap" .uint32).and <|
    field "extraSigners" (array maxExtraSigners SignerKey.format)).map
    (fun (time, ledger, seqNum, age, gap, signers) => ⟨time, ledger, seqNum, age, gap, signers⟩)
    fun c => (c.timeBounds, c.ledgerBounds, c.minSeqNum, c.minSeqAge, c.minSeqLedgerGap,
      c.extraSigners)

end Conditions

/-- What must hold for a transaction to be valid, in one of three forms. -/
inductive Preconditions where
  | none
  | time (bounds : TimeBounds)
  | general (conditions : Conditions)
  deriving DecidableEq

namespace Preconditions

/-- The smallest form of conditions. -/
def minimal (c : Conditions) : Preconditions :=
  if c.isTimeOnly then
    match c.timeBounds with
    | .none => none
    | some bounds => time bounds
  else general c

/-- The span of time that is asked for. -/
def timeBounds? : Preconditions → Option TimeBounds
  | none => .none
  | time bounds => some bounds
  | general c => c.timeBounds

/-- The conditions, whatever the form. -/
def conditions : Preconditions → Conditions
  | none => {}
  | time bounds => { timeBounds := bounds }
  | general c => c

def format : Format Preconditions :=
  union "PreconditionType"
    [void 0 "PRECOND_NONE" none fun | none => some () | _ => .none,
     arm 1 "PRECOND_TIME" (field "timeBounds" TimeBounds.format)
        time fun | time bounds => some bounds | _ => .none,
     arm 2 "PRECOND_V2" (field "v2" Conditions.format)
        general fun | general c => some c | _ => .none]

end Preconditions

end StellarTx
