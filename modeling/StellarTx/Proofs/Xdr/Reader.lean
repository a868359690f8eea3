/-
# A reader that checks its arithmetic

A reader keeps the whole byte string and moves a cursor through it, so it takes differences of
positions, slices the bytes between two positions, and counts levels up and down.  Here each of
these is checked: an action has no result at all where a slice would reach outside the bytes or a
difference would be below zero.  The cursor also notes what room was made for the items of arrays.
Run by this reader, a program always has a result, that of its decoder, and never makes more room
than the bytes behind the cursor can fill: `Program.run_eq`.
-/
import StellarTx.Proofs.Xdr.Program

namespace StellarTx.Xdr

/-! ## Cursors -/

/-- Room for items, and how many bytes were not read when it was made. -/
structure Reservation where
  items : Nat
  unread : Nat
  deriving DecidableEq, Repr

/-- Where a reader is. -/
structure Cursor where
  position : Nat
  /-- Levels of nested values that were entered and not left. -/
  depth : Nat
  /-- The room made so far, the latest first. -/
  reserved : List Reservation
  deriving DecidableEq, Repr

namespace Cursor

/-- The cursor at the start of a byte string. -/
def start : Cursor := ⟨0, 0, []⟩

/-- The cursor is inside the bytes and not too deep, and every item that room was made for has four
bytes to be read from. -/
structure Valid (whole : List UInt8) (c : Cursor) : Prop where
  inside : c.position ≤ whole.length
  shallow : c.depth ≤ maxLevels
  held : ∀ r ∈ c.reserved, 4 * r.items ≤ r.unread

/-- What is left to read. -/
def input (c : Cursor) (whole : List UInt8) : Input := ⟨c.position, whole.drop c.position⟩

/-- How far the reader may still go. -/
def limits (c : Cursor) : Limits := ⟨maxLevels - c.depth, true⟩

/-- What is left is what the cursor has not passed. -/
theorem length_rest (c : Cursor) (whole : List UInt8) :
    (c.input whole).rest.length = whole.length - c.position :=
  List.length_drop

/-- At the start nothing was read, entered or held. -/
theorem start_valid (whole : List UInt8) : start.Valid whole :=
  ⟨Nat.zero_le _, Nat.zero_le _, nofun⟩

end Cursor

/-! ## Actions -/

/-- Moves a cursor through bytes.  There is no result where the reader would slice outside the bytes
or go below zero. -/
def Action (α : Type) := List UInt8 → Cursor → Option (Except Error α × Cursor)

namespace Action

variable {α β : Type}

instance : Monad Action where
  pure a := fun _ c => some (.ok a, c)
  bind r k := fun whole c =>
    match r whole c with
    | none => none
    | some (.error e, c) => some (.error e, c)
    | some (.ok a, c) => k a whole c

/-- The cursor stays where the error was found. -/
def fail (e : Error) : Action α := fun _ c => some (.error e, c)

/-- Where the cursor is. -/
def position : Action Nat := fun _ c => some (.ok c.position, c)

/-- Levels and room stay as they are. -/
def moveTo (position : Nat) : Action Unit := fun _ c => some (.ok (), { c with position })

/-- A difference, which must not be below zero. -/
def difference (m n : Nat) : Action Nat := fun _ c =>
  if n ≤ m then some (.ok (m - n), c) else none

/-- The bytes from one position up to another, both of which must be inside. -/
def slice (first last : Nat) : Action (List UInt8) := fun whole c =>
  if first ≤ last ∧ last ≤ whole.length then some (.ok ((whole.drop first).take (last - first)), c)
  else none

/-- A copy of bytes, of which there must be `n`. -/
def copy (n : Nat) (bytes : List UInt8) : Action (Octets n) := fun _ c =>
  (Octets.ofList? n bytes).map fun octets => (.ok octets, c)

/-- How many bytes are not read yet. -/
def unread : Action Nat := fun whole c => difference whole.length c.position whole c

/-- Takes bytes by comparing with what is left first, so that the slice is always inside. -/
def take (n : Nat) : Action (Octets n) := do
  let start ← position
  let available ← unread
  if available < n then fail (.unexpectedEnd start n available)
  else do
    let data ← slice start (start + n)
    moveTo (start + n)
    copy n data

/-- The first byte is the highest. -/
def number (n : Nat) : Action Nat := (fun bytes => ofBigEndian bytes.toList) <$> take n

def uint32 : Action UInt32 := UInt32.ofNat <$> number 4
def uint64 : Action UInt64 := UInt64.ofNat <$> number 8
def int32 : Action Int32 := UInt32.toInt32 <$> uint32

/-- The error names the place in front of the word. -/
def bool : Action Bool := do
  let start ← position
  let value ← int32
  if value = 0 then return false
  else if value = 1 then return true
  else fail (.boolean start value)

/-- The discriminant that was just read stands four bytes back. -/
def unknown (union : String) (value : Int32) : Action α := do
  let start ← difference (← position) 4
  fail (.discriminant union value start)

/-- The zeros that fill up `n` bytes. -/
def padding (n : Nat) : Action Unit := do
  let start ← position
  let zeros ← take (padLength n)
  if zeros.toList.any (· ≠ 0) then fail (.padding start)

/-- Data and its padding. -/
def fixed (n : Nat) : Action (Octets n) := do
  let data ← take n
  padding n
  return data

/-- A length above its maximum is refused at its own place. -/
def length (max : Nat) : Action Nat := do
  let start ← position
  let length := (← uint32).toNat
  if max < length then fail (.excess ⟨length, max, start⟩)
  return length

/-- A byte string behind its length. -/
def bytes (max : Nat) : Action (List UInt8) := do
  let data ← fixed (← length max)
  return data.toList

/-- A text that is no UTF-8 is refused at its length. -/
def string (max : Nat) : Action String := do
  let start ← position
  let data ← bytes max
  match String.fromUTF8? ⟨data.toArray⟩ with
  | some s => return s
  | none => fail (.utf8 start)

/-- Every item takes at least four bytes. -/
def checkCount (count : Nat) : Action Unit := do
  let start ← position
  let available ← unread
  if available < 4 * count then fail (.unexpectedEnd start (4 * count) available)

/-- The count of the items of an array. -/
def count (max : Nat) : Action Nat := do
  let count ← length max
  checkCount count
  return count

/-- The room is noted with what was left when it was made. -/
def note (r : Reservation) : Action Unit := fun _ c =>
  some (.ok (), { c with reserved := r :: c.reserved })

/-- Makes room for items. -/
def reserve (items : Nat) : Action Unit := do
  note ⟨items, ← unread⟩

/-- As many values as there is room for. -/
def replicate (n : Nat) (item : Action α) : Action (List α) :=
  match n with
  | 0 => return []
  | n + 1 => do
    let first ← item
    let rest ← replicate n item
    return first :: rest

/-- Room is made after the count was compared with what is left. -/
def array (max : Nat) (item : Action α) : Action (List α) := do
  let n ← count max
  reserve n
  replicate n item

/-- Enters a level, and leaves it again, whether or not the value inside could be read. -/
def nested (r : Action α) : Action α := fun whole c =>
  if maxLevels ≤ c.depth then some (.error (.depth maxLevels), c)
  else
    match r whole { c with depth := c.depth + 1 } with
    | none => none
    | some (result, c) =>
      if 1 ≤ c.depth then some (result, { c with depth := c.depth - 1 }) else none

/-- Nothing may be left. -/
def finish : Action Unit := do
  let start ← position
  let remaining ← unread
  if remaining ≠ 0 then fail (.trailing start remaining)

end Action

/-- What a program does with a cursor. -/
def Program.read {α : Type} : Program α → Action α
  | pure a => Pure.pure a
  | bind p next => p.read >>= fun a => (next a).read
  | uint32 => .uint32
  | uint64 => .uint64
  | bool => .bool
  | fixed n => .fixed n
  | bytes max => .bytes max
  | string max => .string max
  | array max item => .array max item.read
  | select union known next => Action.int32 >>= fun code =>
    if known code then (next code).read else .unknown union code
  | nested p => p.read.nested
  | tooDeep => .fail (.depth maxLevels)

/-- Reads a whole byte string with a program. -/
def Program.run {α : Type} (p : Program α) (whole : List UInt8) :
    Option (Except Error α × Cursor) :=
  (do let a ← p.read
      .finish
      return a : Action α) whole .start

/-! ## Actions that track decoders -/

namespace Action

variable {α β : Type} {whole : List UInt8} {c c' : Cursor}

/-- What follows a success starts at its cursor. -/
theorem bind_of_ok {r : Action α} {k : α → Action β} {a : α}
    (h : r whole c = some (.ok a, c')) : (r >>= k) whole c = k a whole c' := by
  simp only [Bind.bind, h]

/-- Nothing follows an error, which keeps its cursor. -/
theorem bind_of_error {r : Action α} {k : α → Action β} {e : Error}
    (h : r whole c = some (.error e, c')) : (r >>= k) whole c = some (.error e, c') := by
  simp only [Bind.bind, h]

/-- From a cursor the action has a result, which is that of the decoder, and it leaves the cursor
valid and at its level. -/
def TracksAt (whole : List UInt8) (c : Cursor) (r : Action α) (d : Decoder α) : Prop :=
  ∃ result c', r whole c = some (result, c') ∧ c'.Valid whole ∧ c'.depth = c.depth ∧
    d c.limits (c.input whole) = result.map fun a => (a, c'.input whole)

/-- The action does what the decoder does, from every valid cursor. -/
def Tracks (r : Action α) (d : Decoder α) : Prop :=
  ∀ whole c, c.Valid whole → TracksAt whole c r d

/-- Where a step has succeeded, the next one goes on. -/
theorem TracksAt.bind {r : Action α} {d : Decoder α} {k : α → Action β} {l : α → Decoder β}
    (h : TracksAt whole c r d)
    (hk : ∀ a c', c'.Valid whole →
      d c.limits (c.input whole) = .ok (a, c'.input whole) → TracksAt whole c' (k a) (l a)) :
    TracksAt whole c (r >>= k) (d >>= l) := by
  obtain ⟨result, c', hr, hvalid, hdepth, hd⟩ := h
  cases result with
  | error e => exact ⟨.error e, c', bind_of_error hr, hvalid, hdepth, Decoder.bind_of_error hd⟩
  | ok a =>
    have hd : d c.limits (c.input whole) = .ok (a, c'.input whole) := hd
    obtain ⟨result, c'', hr', hvalid', hdepth', hd'⟩ := hk a c' hvalid hd
    have hlimits : c'.limits = c.limits := by rw [Cursor.limits, hdepth, Cursor.limits]
    refine ⟨result, c'', (bind_of_ok hr).trans hr', hvalid', hdepth'.trans hdepth, ?_⟩
    rw [Decoder.bind_of_ok hd, ← hlimits]
    exact hd'

namespace Tracks

/-- A value that is there already leaves the cursor where it is. -/
theorem pure (a : α) : Tracks (Pure.pure a) (Pure.pure a) :=
  fun _ c h => ⟨.ok a, c, rfl, h, rfl, rfl⟩

/-- Tracking is kept from one step to the next, whatever was read. -/
theorem bind {r : Action α} {d : Decoder α} {k : α → Action β} {l : α → Decoder β}
    (h : Tracks r d) (hk : ∀ a, Tracks (k a) (l a)) : Tracks (r >>= k) (d >>= l) :=
  fun whole c hc => (h whole c hc).bind fun a c' hc' _ => hk a whole c' hc'

/-- What is made of a value does not move the cursor. -/
theorem map {r : Action α} {d : Decoder α} (g : α → β) (h : Tracks r d) :
    Tracks (g <$> r) (g <$> d) :=
  h.bind fun a => pure (g a)

/-- Both fail with the same error. -/
theorem fail (e : Error) : Tracks (fail e : Action α) (.fail fun _ => e) :=
  fun _ c h => ⟨.error e, c, rfl, h, rfl, rfl⟩

/-- The position of the cursor is the offset of the input. -/
theorem position : Tracks position .offset :=
  fun _ c h => ⟨.ok c.position, c, rfl, h, rfl, rfl⟩

/-- A test that both make. -/
theorem ite {p : Prop} [Decidable p] {r s : Action α} {d e : Decoder α} (h : Tracks r d)
    (k : Tracks s e) : Tracks (if p then r else s) (if p then d else e) := by
  split
  · exact h
  · exact k

end Tracks

/-! ### Taking bytes -/

/-- To ask for the position always works. -/
theorem position_eq : position whole c = some (.ok c.position, c) := rfl

/-- What is left is never below zero for a valid cursor. -/
theorem unread_eq (h : c.Valid whole) :
    unread whole c = some (.ok (whole.length - c.position), c) :=
  if_pos h.inside

/-- Fewer bytes than asked for are not taken. -/
theorem take_of_lt (h : c.Valid whole) {n : Nat} (hn : whole.length - c.position < n) :
    take n whole c =
      some (.error (.unexpectedEnd c.position n (whole.length - c.position)), c) := by
  rw [take, bind_of_ok position_eq, bind_of_ok (unread_eq h), if_pos hn]
  rfl

/-- The slice that is taken is inside, and has the length that is copied. -/
theorem take_of_le (h : c.Valid whole) {n : Nat} (hn : n ≤ whole.length - c.position)
    (hlength : ((whole.drop c.position).take n).length = n) :
    take n whole c =
      some (.ok ⟨(whole.drop c.position).take n, hlength⟩, { c with position := c.position + n }) := by
  have hslice : slice c.position (c.position + n) whole c =
      some (.ok ((whole.drop c.position).take n), c) := by
    have hinside := h.inside
    rw [slice, if_pos ⟨Nat.le_add_right _ _, by omega⟩, Nat.add_sub_cancel_left]
  have hmove : moveTo (c.position + n) whole c =
      some (.ok (), { c with position := c.position + n }) := rfl
  rw [take, bind_of_ok position_eq, bind_of_ok (unread_eq h), if_neg (Nat.not_lt.2 hn),
    bind_of_ok hslice, bind_of_ok hmove, copy, Octets.ofList?, dif_pos hlength]
  rfl

namespace Tracks

/-- By the two lemmas above: the bytes are there or they are not. -/
theorem take (n : Nat) : Tracks (take n) (.take n) := by
  intro whole c h
  have hleft := c.length_rest whole
  by_cases hn : whole.length - c.position < n
  · refine ⟨_, c, take_of_lt h hn, h, rfl, ?_⟩
    rw [← hleft] at hn ⊢
    exact Decoder.take_of_length_lt hn
  · have hinside := h.inside
    have hlength : ((whole.drop c.position).take n).length = n := by
      rw [List.length_take, List.length_drop]
      omega
    refine ⟨_, _, take_of_le h (Nat.not_lt.1 hn) hlength, ⟨?_, h.shallow, h.held⟩, rfl,
      Decoder.take_eq_ok_iff.2 ⟨?_, congrArg (c.position + ·) hlength.symm⟩⟩
    · show c.position + n ≤ whole.length
      omega
    · show whole.drop c.position = (whole.drop c.position).take n ++ whole.drop (c.position + n)
      rw [← List.drop_drop, List.take_append_drop]

/-! ### Operations -/

theorem number (n : Nat) : Tracks (number n) (.number n) := (take n).map _

theorem uint32 : Tracks uint32 .uint32 := (number 4).map _

theorem uint64 : Tracks uint64 .uint64 := (number 8).map _

theorem int32 : Tracks int32 .int32 := uint32.map _

/-- The offset is noted before the word is read, as the decoder does. -/
theorem bool : Tracks bool .bool :=
  position.bind fun _ => int32.bind fun _ => (pure false).ite ((pure true).ite (fail _))

theorem padding (n : Nat) : Tracks (padding n) (.padding n) :=
  position.bind fun _ => (take _).bind fun _ => (fail _).ite (pure ())

theorem fixed (n : Nat) : Tracks (fixed n) (.fixed n) :=
  (take n).bind fun data => (padding n).bind fun _ => pure data

theorem length (max : Nat) : Tracks (length max) (.length max) :=
  position.bind fun _ => uint32.bind fun n =>
    ((fail _).bind fun _ => pure n.toNat).ite (pure n.toNat)

theorem bytes (max : Nat) : Tracks (bytes max) (.bytes max) :=
  (length max).bind fun n => (fixed n).bind fun data => pure data.toList

/-- The bytes are looked at only after they were read, in both. -/
theorem string (max : Nat) : Tracks (string max) (.string max) := by
  refine position.bind fun _ => (bytes max).bind fun data => ?_
  cases String.fromUTF8? ⟨data.toArray⟩ with
  | some s => exact pure s
  | none => exact fail _

/-- Both compare with what is left, the one by positions and the other by bytes. -/
theorem checkCount (n : Nat) : Tracks (checkCount n) (.checkCount n) := by
  intro whole c h
  have hleft := c.length_rest whole
  by_cases hn : whole.length - c.position < 4 * n
  · refine ⟨.error (.unexpectedEnd c.position (4 * n) (whole.length - c.position)), c, ?_, h, rfl,
      ?_⟩
    · rw [Action.checkCount, bind_of_ok position_eq, bind_of_ok (unread_eq h), if_pos hn]
      rfl
    · rw [← hleft] at hn ⊢
      exact Decoder.checkCount_of_length_lt rfl hn
  · refine ⟨.ok (), c, ?_, h, rfl, Decoder.checkCount_eq_ok_iff.2 ⟨rfl, fun _ => ?_⟩⟩
    · rw [Action.checkCount, bind_of_ok position_eq, bind_of_ok (unread_eq h), if_neg hn]
      rfl
    · omega

/-- The count itself makes no room. -/
theorem count (max : Nat) : Tracks (count max) (.count max) :=
  (length max).bind fun n => (checkCount n).bind fun _ => pure n

/-! ### Arrays -/

/-- Tracking is kept along the items. -/
theorem replicate {item : Action α} {d : Decoder α} (h : Tracks item d) (n : Nat) :
    Tracks (replicate n item) (.replicate n d) := by
  induction n with
  | zero => exact pure []
  | succ n ih => exact h.bind fun a => ih.bind fun rest => pure (a :: rest)

end Tracks

/-- Making room that the bytes can fill leaves the cursor valid. -/
theorem TracksAt.reserve_bind {n : Nat} {r : Action α} {d : Decoder α} (h : Tracks r d)
    (hc : c.Valid whole) (hn : 4 * n ≤ whole.length - c.position) :
    TracksAt whole c (reserve n >>= fun _ => r) d := by
  let room : Cursor := { c with reserved := ⟨n, whole.length - c.position⟩ :: c.reserved }
  have hroom : room.Valid whole :=
    ⟨hc.inside, hc.shallow, List.forall_mem_cons.2 ⟨hn, hc.held⟩⟩
  have hreserve : reserve n whole c = some (.ok (), room) := bind_of_ok (unread_eq hc)
  obtain ⟨result, c', hr, hvalid, hdepth, hd⟩ := h whole room hroom
  exact ⟨result, c', (bind_of_ok hreserve).trans hr, hvalid, hdepth, hd⟩

/-- A count that was read is one that the bytes behind it can hold. -/
theorem Tracks.array {item : Action α} {d : Decoder α} (h : Tracks item d) (max : Nat) :
    Tracks (array max item) (.array max d) := by
  intro whole c hc
  refine (Tracks.count max whole c hc).bind fun n c' hc' hcount => ?_
  refine .reserve_bind (h.replicate n) hc' ?_
  rw [← c'.length_rest whole]
  exact Decoder.room_of_count rfl hcount

/-! ### Unions and levels -/

/-- The discriminant of no arm was read from the four bytes before the cursor. -/
theorem Tracks.select {union : String} {known : Int32 → Bool} {next : Int32 → Action α}
    {next' : Int32 → Decoder α} (h : ∀ code, Tracks (next code) (next' code)) :
    Tracks (Action.int32 >>= fun code => if known code then next code else unknown union code)
      (Decoder.int32 >>= fun code => if known code then next' code else .unknown union code) := by
  intro whole c hc
  refine (int32 whole c hc).bind fun code c' hc' hcode => ?_
  by_cases hknown : known code
  · rw [if_pos hknown, if_pos hknown]
    exact h code whole c' hc'
  · rw [if_neg hknown, if_neg hknown]
    have hfour : 4 ≤ c'.position := by
      have hmoved : c'.position = c.position + _ := (Decoder.int32_eq_ok_iff.1 hcode).2
      rw [length_bigEndian] at hmoved
      omega
    have hback : difference c'.position 4 whole c' = some (.ok (c'.position - 4), c') :=
      if_pos hfour
    refine ⟨.error (.discriminant union code (c'.position - 4)), c', ?_, hc', rfl, rfl⟩
    rw [unknown, bind_of_ok position_eq, bind_of_ok hback]
    rfl

/-- A level is left again after an error as well, so that the depth is the same on both ways. -/
theorem Tracks.nested {r : Action α} {d : Decoder α} (h : Tracks r d) :
    Tracks (nested r) d.deeper := by
  intro whole c hc
  by_cases hdeep : maxLevels ≤ c.depth
  · refine ⟨.error (.depth maxLevels), c, if_pos hdeep, hc, rfl, ?_⟩
    have hnone : c.limits = ⟨0, true⟩ := congrArg (Limits.mk · true) (Nat.sub_eq_zero_of_le hdeep)
    rw [hnone]
    rfl
  · -- The level that is entered is left again.
    have hlt := Nat.lt_of_not_le hdeep
    obtain ⟨result, c', hr, hvalid, hdepth, hd⟩ :=
      h whole { c with depth := c.depth + 1 } ⟨hc.inside, hlt, hc.held⟩
    have hdepth : c'.depth = c.depth + 1 := hdepth
    have hshallow := hc.shallow
    refine ⟨result, { c' with depth := c'.depth - 1 }, ?_, ⟨hvalid.inside, ?_, hvalid.held⟩, ?_, ?_⟩
    · rw [Action.nested, if_neg hdeep]
      simp only [hr]
      exact if_pos (by omega)
    · show c'.depth - 1 ≤ maxLevels
      omega
    · show c'.depth - 1 = c.depth
      omega
    · have hlimits : c.limits = ⟨maxLevels - (c.depth + 1) + 1, true⟩ :=
        congrArg (Limits.mk · true) (by omega)
      rw [hlimits]
      exact hd

/-- At the end nothing is left, and elsewhere something is. -/
theorem Tracks.finish : Tracks finish .finish := by
  intro whole c hc
  have hleft := c.length_rest whole
  by_cases hend : whole.length - c.position = 0
  · refine ⟨.ok (), c, ?_, hc, rfl, Decoder.finish_of_nil (List.length_eq_zero_iff.1 ?_)⟩
    · rw [Action.finish, bind_of_ok position_eq, bind_of_ok (unread_eq hc),
        if_neg (Decidable.not_not.2 hend)]
      rfl
    · rw [hleft, hend]
  · refine ⟨.error (.trailing c.position (whole.length - c.position)), c, ?_, hc, rfl, ?_⟩
    · rw [Action.finish, bind_of_ok position_eq, bind_of_ok (unread_eq hc), if_pos hend]
      rfl
    · rw [← hleft] at hend ⊢
      exact Decoder.finish_of_ne_nil (mt List.length_eq_zero_iff.2 hend)

end Action

/-! ## Programs -/

namespace Program

variable {α : Type}

/-- With a cursor a program does what its decoder does. -/
theorem tracks (p : Program α) : p.read.Tracks p.decode := by
  induction p with
  | pure a => exact .pure a
  | bind _ _ ih ih' => exact .bind ih ih'
  | uint32 => exact .uint32
  | uint64 => exact .uint64
  | bool => exact .bool
  | fixed n => exact .fixed n
  | bytes max => exact .bytes max
  | string max => exact .string max
  | array max _ ih => exact .array ih max
  | select _ _ _ ih => exact .select ih
  | nested _ ih => exact .nested ih
  | tooDeep => exact .fail _

/-- Reading a whole byte string has a result, which is that of the decoder, and leaves the cursor
valid. -/
theorem run_eq (p : Program α) (whole : List UInt8) :
    ∃ c, p.run whole = some (p.decode.run .start whole, c) ∧ c.Valid whole := by
  have htracks : Action.Tracks (p.read >>= fun a => Action.finish >>= fun _ => Pure.pure a)
      (p.decode >>= fun a => Decoder.finish >>= fun _ => Pure.pure a) :=
    p.tracks.bind fun a => Action.Tracks.finish.bind fun _ => .pure a
  obtain ⟨result, c, hr, hc, _, hd⟩ := htracks whole .start (Cursor.start_valid whole)
  refine ⟨c, hr.trans ?_, hc⟩
  have hrun : p.decode.run .start whole = result := by
    rw [Decoder.run_eq_map]
    exact (congrArg (Except.map Prod.fst) hd).trans (by cases result <;> rfl)
  rw [hrun]

end Program

end StellarTx.Xdr
