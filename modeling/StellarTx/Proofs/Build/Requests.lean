/-
# What a sequence of requests asks for

The draft after requests holds all operations and extra signers in the order of the requests, and of
every other part what was asked for last (`Draft.applyAll_eq_asked`).  So it depends on the requests
of each kind and their order, and not on how requests of different kinds are mixed
(`Draft.asked_eq_of_setters`).  A request for an end from now on is left out: it keeps the start
that was asked for before it.
-/
import StellarTx.Build.Draft
import Mathlib.Data.List.Induction

namespace StellarTx

/-- The kinds of requests. -/
inductive Setter where
  | baseFee
  | memo
  | timeBounds
  | timeout
  | ledgerBounds
  | minSeqNum
  | minSeqAge
  | minSeqLedgerGap
  | extraSigner
  | operation
  deriving DecidableEq

/-- What a request of a kind carries. -/
abbrev Setter.Value : Setter → Type
  | baseFee => UInt32
  | memo => Memo
  | timeBounds => TimeBounds
  | timeout => UInt64 × UInt64
  | ledgerBounds => LedgerBounds
  | minSeqNum => Int64
  | minSeqAge => UInt64
  | minSeqLedgerGap => UInt32
  | extraSigner => SignerKey
  | operation => Operation

namespace Request

/-- The kind of a request. -/
def setter : Request → Setter
  | baseFee _ => .baseFee
  | memo _ => .memo
  | timeBounds _ => .timeBounds
  | timeout _ _ => .timeout
  | ledgerBounds _ => .ledgerBounds
  | minSeqNum _ => .minSeqNum
  | minSeqAge _ => .minSeqAge
  | minSeqLedgerGap _ => .minSeqLedgerGap
  | extraSigner _ => .extraSigner
  | operation _ => .operation

/-- What a request carries. -/
def value : (request : Request) → request.setter.Value
  | baseFee fee => fee
  | memo note => note
  | timeBounds bounds => bounds
  | timeout now seconds => (now, seconds)
  | ledgerBounds bounds => bounds
  | minSeqNum seqNum => seqNum
  | minSeqAge seconds => seconds
  | minSeqLedgerGap ledgers => ledgers
  | extraSigner signer => signer
  | operation op => op

/-- What a request carries, if it is of a kind. -/
def value? (s : Setter) (request : Request) : Option s.Value :=
  if h : request.setter = s then some (h ▸ request.value) else none

/-- What the requests of a kind carry, in order. -/
def all (s : Setter) (requests : List Request) : List s.Value :=
  requests.filterMap (value? s)

/-- What the last request of a kind carries. -/
def last? (s : Setter) (requests : List Request) : Option s.Value :=
  (all s requests).getLast?

theorem value?_of_ne {s : Setter} {request : Request} (h : request.setter ≠ s) :
    value? s request = none :=
  dif_neg h

theorem all_concat (s : Setter) (requests : List Request) (request : Request) :
    all s (requests ++ [request]) =
      (value? s request).elim (all s requests) (all s requests ++ [·]) := by
  unfold all
  rw [List.filterMap_append]
  cases h : value? s request <;> simp [h]

theorem last?_concat (s : Setter) (requests : List Request) (request : Request) :
    last? s (requests ++ [request]) = (value? s request).or (last? s requests) := by
  unfold last?
  rw [all_concat]
  cases value? s request <;> simp

/-- Only the requests of a kind and their order count. -/
theorem all_eq_of_filter {s : Setter} {requests others : List Request}
    (h : requests.filter (·.setter = s) = others.filter (·.setter = s)) :
    all s requests = all s others := by
  have hall (l : List Request) : (l.filter (·.setter = s)).filterMap (value? s) = all s l := by
    rw [List.filterMap_filter]
    unfold all
    congr 1
    funext request
    by_cases hs : request.setter = s
    · simp [hs]
    · simp [hs, value?_of_ne hs]
  rw [← hall requests, h, hall others]

end Request

namespace Draft

open Request (all last? all_concat last?_concat)

variable {source : MuxedAccount} {seqNum : Int64} {requests others : List Request}

/-- What requests ask for: all operations and extra signers, and the last of everything else. -/
def asked (source : MuxedAccount) (seqNum : Int64) (requests : List Request) : Draft where
  sourceAccount := source
  seqNum
  baseFee := (last? .baseFee requests).getD defaultBaseFee
  memo := (last? .memo requests).getD .none
  conditions :=
    { timeBounds := last? .timeBounds requests
      ledgerBounds := last? .ledgerBounds requests
      minSeqNum := last? .minSeqNum requests
      minSeqAge := (last? .minSeqAge requests).getD 0
      minSeqLedgerGap := (last? .minSeqLedgerGap requests).getD 0
      extraSigners := all .extraSigner requests }
  operations := all .operation requests

/-- One more request changes what is asked for as it changes the draft. -/
theorem asked_concat {request : Request} (h : request.setter ≠ .timeout) :
    asked source seqNum (requests ++ [request]) =
      (asked source seqNum requests).apply request := by
  unfold asked
  simp only [last?_concat, all_concat]
  cases request with
  | timeout now seconds => exact absurd rfl h
  | _ => rfl

theorem applyAll_concat (d : Draft) (request : Request) :
    d.applyAll (requests ++ [request]) = (d.applyAll requests).apply request :=
  List.foldl_append

/-- A draft that requests are applied to holds what they ask for. -/
theorem applyAll_eq_asked (h : ∀ request ∈ requests, request.setter ≠ .timeout) :
    applyAll { sourceAccount := source, seqNum } requests = asked source seqNum requests := by
  induction requests using List.reverseRecOn with
  | nil => rfl
  | append_singleton requests request ih =>
    rw [List.forall_mem_append] at h
    rw [applyAll_concat, ih h.1, asked_concat (h.2 request (List.mem_singleton_self request))]

theorem plain_of_setters
    (h : ∀ s : Setter, requests.filter (·.setter = s) = others.filter (·.setter = s))
    (plain : ∀ request ∈ requests, request.setter ≠ .timeout) :
    ∀ request ∈ others, request.setter ≠ .timeout := by
  intro request hmem htimeout
  have hfound : request ∈ others.filter (·.setter = .timeout) := by simp [hmem, htimeout]
  rw [← h] at hfound
  exact plain request (List.mem_filter.1 hfound).1 htimeout

/-- Requests of different kinds may be mixed in any way. -/
theorem asked_eq_of_setters
    (h : ∀ s : Setter, requests.filter (·.setter = s) = others.filter (·.setter = s)) :
    asked source seqNum requests = asked source seqNum others := by
  have hall (s : Setter) : all s requests = all s others := Request.all_eq_of_filter (h s)
  unfold asked last?
  simp only [hall]

end Draft

end StellarTx
