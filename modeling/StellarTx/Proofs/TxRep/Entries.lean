/-
# What was written is found

A text is written entry by entry: strings, bytes, amounts, dates, words, the names of arms and
extension points, each on a line at a path of its own (`textOf`).  Whatever the entries are, the
parser takes the text apart into just their paths, and looking up a path gives what was written
there: `reads_entries`.
-/
import StellarTx.Proofs.TxRep.Clean
import StellarTx.Proofs.TxRep.Reading

namespace StellarTx.TxRep

/-! ## Entries -/

/-- Something to be written at a path. -/
inductive Entry where
  | string (path text : String)
  | hex (path : String) (bytes : List UInt8)
  | amount (path : String) (v : Int64)
  | timestamp (path : String) (seconds : UInt64)
  /-- The name of the arm of the union at a path. -/
  | arm (path name : String)
  /-- A word that stands as it is. -/
  | field (path word : String)
  /-- The only arm of the extension point of the value at a path. -/
  | extension (path : String)

namespace Entry

/-- The line of an entry. -/
def line : Entry → Line
  | string path text => .quoted path text
  | hex path bytes => .hex path bytes
  | amount path v => .amount path v
  | timestamp path seconds => .timestamp path seconds
  | arm path name => .arm path name
  | field path word => .field path word
  | extension path => .extension path

/-- The path at which the line of an entry stands. -/
def path (e : Entry) : String :=
  e.line.path

/-- A text with one entry more. -/
def append (text : String) (e : Entry) : String :=
  text ++ e.line.render

/-- Whether the words in an entry have no blank and do not start with a quote. -/
def HasWords : Entry → Prop
  | arm _ name => IsWord name
  | field _ word => IsWord word
  | _ => True

/-- Only the words of arms and fields are open to question. -/
instance : ∀ e : Entry, Decidable e.HasWords
  | arm _ name => inferInstanceAs (Decidable (IsWord name))
  | field _ word => inferInstanceAs (Decidable (IsWord word))
  | string .. | hex .. | amount .. | timestamp .. | extension _ => .isTrue trivial

/-- What an entry wrote is found in a source: a string and bytes under every bound that they keep
to, and a number as one with and without a sign if it is one of both. -/
def IsFound (source : Source) : Entry → Prop
  | string path text => ∀ max, text.utf8ByteSize ≤ max → source.string max path = .ok text
  | hex path bytes => ∀ max, bytes.length ≤ max → source.hex max path = .ok bytes
  | amount path v =>
    source.value Text.Decimal.int64? path = .ok v ∧
      (0 ≤ v.toInt → source.value Text.Decimal.uint64? path = .ok v.toUInt64)
  | timestamp path seconds =>
    source.value Text.Decimal.uint64? path = .ok seconds ∧
      (0 ≤ seconds.toInt64.toInt → source.value Text.Decimal.int64? path = .ok seconds.toInt64)
  | arm path name => source.get (join path "type") = .ok name
  | field path word => source.get path = .ok word
  | extension path => source.get (join path "ext.v") = .ok "0"

/-- An entry has a clean line if its words are words. -/
theorem clean_line {e : Entry} (hw : e.HasWords) (hne : e.path ≠ "") (hp : IsClean e.path) :
    e.line.Clean := by
  cases e with
  | string path text => exact Line.clean_quoted hne hp text
  | hex path bytes => exact Line.clean_field hne hp (Text.Hex.isWord_encode bytes)
  | amount path v => exact Line.clean_amount hne hp v
  | timestamp path seconds => exact Line.clean_timestamp hne hp seconds
  | arm path name => exact Line.clean_field hne hp hw
  | field path word => exact Line.clean_field hne hp hw
  | extension path => exact Line.clean_field hne hp (by decide)

/-- A source that has the value of an entry at its path gives back what was written. -/
theorem isFound_of_get? {source : Source} {e : Entry}
    (h : source.get? e.path = some e.line.value) : e.IsFound source := by
  cases e with
  | string path text => exact fun _ => Source.string_of_get? h
  | hex path bytes => exact fun _ => Source.hex_of_get? h
  | amount path v =>
    refine ⟨Source.value_of_get? h (Text.Decimal.int64?_ofInt64 v), fun hv => ?_⟩
    refine Source.value_of_get? h ?_
    show Text.Decimal.uint64? (Text.Decimal.ofInt64 v) = _
    rw [← Text.Decimal.ofUInt64_toUInt64 (Int.not_lt.2 hv), Text.Decimal.uint64?_ofUInt64]
  | timestamp path seconds =>
    refine ⟨Source.value_of_get? h (Text.Decimal.uint64?_ofUInt64 seconds), fun hv => ?_⟩
    refine Source.value_of_get? h ?_
    show Text.Decimal.int64? (Text.Decimal.ofUInt64 seconds) = _
    rw [← UInt64.toUInt64_toInt64 seconds, Text.Decimal.ofUInt64_toUInt64 (Int.not_lt.2 hv),
      Text.Decimal.int64?_ofInt64]
    rfl
  | arm path name => exact Source.get_of_get? h
  | field path word => exact Source.get_of_get? h
  | extension path => exact Source.get_of_get? h

end Entry

/-! ## Texts -/

/-- The text of entries, one after another. -/
def textOf (entries : List Entry) : String :=
  entries.foldl Entry.append ""

/-- Writing entry by entry comes to the same text as rendering their lines. -/
theorem textOf_eq_render (entries : List Entry) :
    textOf entries = render (entries.map Entry.line) := by
  rw [textOf, render, String.join, List.map_map, List.foldl_map]
  rfl

/-- Entries at different paths that are not empty and have neither blanks nor colons: their text is
taken apart into just these paths, and at each of them what was written is found. -/
theorem reads_entries (entries : List Entry) (words : ∀ e ∈ entries, e.HasWords)
    (clean : ∀ e ∈ entries, e.path ≠ "" ∧ IsClean e.path)
    (distinct : (entries.map Entry.path).Nodup) :
    ∃ source, Source.parse (textOf entries) = .ok source ∧
      (source.fields.map (·.1)).Perm (entries.map Entry.path) ∧
      ∀ e ∈ entries, e.IsFound source := by
  have hclean : ∀ line ∈ entries.map Entry.line, line.Clean := by
    intro line hl
    obtain ⟨e, he, rfl⟩ := List.mem_map.1 hl
    exact e.clean_line (words e he) (clean e he).1 (clean e he).2
  have hpaths : (entries.map Entry.line).map (·.path) = entries.map Entry.path := List.map_map ..
  have hdistinct : ((entries.map Entry.line).map (·.path)).Nodup := hpaths ▸ distinct
  refine ⟨_, textOf_eq_render entries ▸ Source.parse_render hclean hdistinct, ?_, fun e he => ?_⟩
  · rw [← hpaths, Source.fieldsOf, List.map_reverse, List.map_map]
    exact List.reverse_perm _
  · exact Entry.isFound_of_get?
      (Source.get?_fieldsOf_eq_some hdistinct (List.mem_map_of_mem he))

/-- A comment in the least amount, a colon and an open comment in a text, and bytes that are not
there at all. -/
theorem reads_entries_memo :
    let entries : List Entry := [.arm "memo" "MEMO_TEXT", .string "memo.text" "\"a\\\": (b\n ",
      .hex "hash" [], .amount "amount" Int64.minValue, .timestamp "time" (-1), .extension "tx"]
    ∃ source, Source.parse (textOf entries) = .ok source ∧
      (source.fields.map (·.1)).Perm
        ["memo.type", "memo.text", "hash", "amount", "time", "tx.ext.v"] ∧
      ∀ e ∈ entries, e.IsFound source := by
  exact reads_entries _ (by decide) (by decide) (by decide)

end StellarTx.TxRep
