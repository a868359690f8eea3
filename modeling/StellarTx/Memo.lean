/-
# Memos

A memo is a note on a transaction: a short text, a number, or a digest.
-/
import StellarTx.Format.Scalar
import StellarTx.Format.Union
import StellarTx.Validation

namespace StellarTx

open Format (union arm void field octets)

/-- A note on a transaction. -/
inductive Memo where
  | none
  | text (text : String)
  | id (id : UInt64)
  /-- The digest of what the transaction is about. -/
  | hash (hash : Octets 32)
  /-- The digest of the transaction that is paid back. -/
  | returnHash (hash : Octets 32)
  deriving DecidableEq

namespace Memo

/-- The greatest number of bytes in a text. -/
def maxText : Nat := BoundedField.memoText.max

/-- A memo of a text that is not too long. -/
def ofText (text : String) : Except ValidationError Memo := do
  BoundedField.memoText.check text.utf8ByteSize
  return .text text

def format : Format Memo :=
  union "MemoType"
    [void 0 "MEMO_NONE" none fun | none => some () | _ => .none,
     arm 1 "MEMO_TEXT" (field "text" (.string maxText)) text fun | text t => some t | _ => .none,
     arm 2 "MEMO_ID" (field "id" .uint64) id fun | id i => some i | _ => .none,
     arm 3 "MEMO_HASH" (field "hash" (octets 32)) hash fun | hash h => some h | _ => .none,
     arm 4 "MEMO_RETURN" (field "retHash" (octets 32))
        returnHash fun | returnHash h => some h | _ => .none]

end Memo

end StellarTx
