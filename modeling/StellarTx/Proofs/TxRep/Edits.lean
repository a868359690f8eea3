/-
# Edits of the layout

The layout of a text is up to its author.  Lines stand in any order and blank lines between them;
blanks stand around a line, around its path and in front of its value; and a comment stands behind a
value or does not.  A change of this kind is an `Edit`, and texts that edits turn into one another
are `Relaid`.  They hold the same fields, and so nothing that reads them tells them apart.
-/
import Mathlib.Logic.Relation
import StellarTx.Proofs.TxRep.Frame

namespace StellarTx

open Text (isBlank)

/-! ## Blanks -/

namespace Text

/-- White space only. -/
def Blanks (text : List Char) : Prop :=
  ∀ c ∈ text, isBlank c = true

/-- Whether a text is blank is decided character by character. -/
instance (text : List Char) : Decidable (Blanks text) :=
  decidable_of_iff (text.all isBlank = true) List.all_eq_true

/-- No characters are blank characters. -/
theorem blanks_nil : Blanks [] :=
  List.forall_mem_nil _

/-- Blanks in front are trimmed. -/
theorem trimStart_blanks {blanks : List Char} (h : Blanks blanks) (text : List Char) :
    trimStart (blanks ++ text) = trimStart text :=
  List.dropWhile_append_of_pos h

/-- Blanks at the end are trimmed. -/
theorem trimEnd_blanks {blanks : List Char} (h : Blanks blanks) (text : List Char) :
    trimEnd (text ++ blanks) = trimEnd text := by
  have hreverse : Blanks blanks.reverse := fun c hc => h c (List.mem_reverse.1 hc)
  rw [trimEnd, List.reverse_append, trimStart_blanks hreverse, trimEnd]

/-- Of a blank text nothing is left. -/
theorem trimStart_of_blanks {blanks : List Char} (h : Blanks blanks) : trimStart blanks = [] := by
  rw [← List.append_nil blanks, trimStart_blanks h]
  rfl

/-- Trimming the start stops at the first character that is not blank. -/
theorem trimStart_append_cons {c : Char} (h : isBlank c = false) (before after : List Char) :
    trimStart (before ++ c :: after) = trimStart before ++ c :: after := by
  unfold trimStart
  rw [List.dropWhile_append, List.dropWhile_cons_of_neg (by simp [h])]
  split
  · next hall => rw [List.isEmpty_iff.1 hall, List.nil_append]
  · rfl

/-- Blanks around a text do not count. -/
theorem trim_blanks {before after : List Char} (hb : Blanks before) (ha : Blanks after)
    (text : List Char) : trim (before ++ text ++ after) = trim text := by
  rw [trim, trim, List.append_assoc, trimStart_blanks hb]
  unfold trimStart
  rw [List.dropWhile_append]
  split
  · next hall =>
    -- The text is blank as a whole, and so is what follows it.
    have hafter : after.dropWhile isBlank = [] := trimStart_of_blanks ha
    rw [List.isEmpty_iff.1 hall, hafter]
  · exact trimEnd_blanks ha _

/-- What is trimmed from the start is blank. -/
theorem exists_trimStart (text : List Char) :
    ∃ blanks, Blanks blanks ∧ text = blanks ++ trimStart text :=
  ⟨text.takeWhile isBlank, List.all_eq_true.1 List.all_takeWhile,
    List.takeWhile_append_dropWhile.symm⟩

/-- What is trimmed from the end is blank. -/
theorem exists_trimEnd (text : List Char) :
    ∃ blanks, Blanks blanks ∧ text = trimEnd text ++ blanks := by
  obtain ⟨blanks, h, e⟩ := exists_trimStart text.reverse
  refine ⟨blanks.reverse, fun c hc => h c (List.mem_reverse.1 hc), ?_⟩
  rw [trimEnd, ← List.reverse_append, ← e, List.reverse_reverse]

/-- To trim the start first changes nothing. -/
theorem trim_trimStart (text : List Char) : trim (trimStart text) = trim text := by
  obtain ⟨blanks, h, e⟩ := exists_trimStart text
  have := trim_blanks h blanks_nil (trimStart text)
  rwa [List.append_nil, ← e, eq_comm] at this

/-- To trim the end first changes nothing. -/
theorem trim_trimEnd (text : List Char) : trim (trimEnd text) = trim text := by
  obtain ⟨blanks, h, e⟩ := exists_trimEnd text
  have := trim_blanks blanks_nil h (trimEnd text)
  rwa [List.nil_append, ← e, eq_comm] at this

end Text

namespace TxRep

open Text (Blanks Trimmed)

/-! ## Values -/

/-- What stands behind the opening quote of a quoted string, through its closing quote.  A backslash
takes the next character with it. -/
inductive QuotedTail : List Char → Prop where
  | close : QuotedTail ['"']
  | escaped (c : Char) {rest : List Char} (h : QuotedTail rest) : QuotedTail ('\\' :: c :: rest)
  | plain {c : Char} {rest : List Char} (quote : c ≠ '"') (escape : c ≠ '\\')
      (h : QuotedTail rest) : QuotedTail (c :: rest)

/-- A value that is not empty ends where `after` begins: at its closing quote if it is quoted, and
otherwise in front of a blank or at the end of the line. -/
inductive Ends : List Char → List Char → Prop where
  | quoted {rest : List Char} (h : QuotedTail rest) (after : List Char) : Ends ('"' :: rest) after
  | word {first : Char} {rest after : List Char} (quote : first ≠ '"')
      (solid : ∀ c ∈ first :: rest, isBlank c = false)
      (stop : ∀ c ∈ after.head?, isBlank c = true) : Ends (first :: rest) after

/-- What may follow a value: blanks, and then nothing or a comment. -/
inductive Remark : List Char → Prop where
  | none {gap : List Char} (blank : Blanks gap) : Remark gap
  | comment {gap : List Char} (blank : Blanks gap) (text : List Char) : Remark (gap ++ '(' :: text)

/-- A quoted string ends with a quote. -/
theorem QuotedTail.getLast?_eq {rest : List Char} (h : QuotedTail rest) :
    rest.getLast? = some '"' := by
  induction h with
  | close => rfl
  | escaped c _ ih => rw [List.getLast?_cons, List.getLast?_cons, ih]; rfl
  | plain _ _ _ ih => rw [List.getLast?_cons, ih]; rfl

/-- A quoted string is split off at its own closing quote, whatever follows. -/
theorem QuotedTail.splitQuoted_append {rest : List Char} (h : QuotedTail rest)
    (after : List Char) : Source.splitQuoted (rest ++ after) = some (rest, after) := by
  induction h with
  | close => rfl
  | @escaped c rest _ ih =>
    show (Source.splitQuoted (rest ++ after)).map _ = _
    rw [ih]
    rfl
  | plain quote escape _ ih =>
    rw [List.cons_append, Source.splitQuoted_cons quote escape, ih]
    rfl

/-- A quoted string is split off at the first quote that no backslash takes with it. -/
theorem splitQuoted_eq_some_iff {text quoted after : List Char} :
    Source.splitQuoted text = some (quoted, after) ↔
      QuotedTail quoted ∧ text = quoted ++ after := by
  constructor
  · intro h
    induction text using Source.splitQuoted.induct generalizing quoted with
    | case1 => cases h
    | case2 rest =>
      cases h
      exact ⟨.close, rfl⟩
    | case3 c rest ih =>
      obtain ⟨⟨quoted', after'⟩, hq, he⟩ := Option.map_eq_some_iff.1 h
      cases he
      obtain ⟨hquoted, rfl⟩ := ih hq
      exact ⟨.escaped c hquoted, rfl⟩
    | case4 c rest hquote hescape ih =>
      rw [Source.splitQuoted.eq_4 _ _ hquote hescape] at h
      obtain ⟨⟨quoted', after'⟩, hq, he⟩ := Option.map_eq_some_iff.1 h
      cases he
      obtain ⟨hquoted, rfl⟩ := ih hq
      refine ⟨.plain hquote ?_ hquoted, rfl⟩
      -- A backslash at the end of a text is not followed by a closing quote.
      rintro rfl
      have hne : quoted' ++ after ≠ [] := by cases hquoted <;> exact List.cons_ne_nil _ _
      obtain ⟨d, more, hd⟩ := List.exists_cons_of_ne_nil hne
      exact hescape d more rfl hd
  · rintro ⟨h, rfl⟩
    exact h.splitQuoted_append after

/-- Whether a text is the rest of a quoted string is decided by splitting it. -/
instance (rest : List Char) : Decidable (QuotedTail rest) :=
  decidable_of_iff (Source.splitQuoted rest = some (rest, [])) <| by
    rw [splitQuoted_eq_some_iff, List.append_nil, and_iff_left rfl]

namespace Ends

variable {value after : List Char} (h : Ends value after)

include h

/-- A value that ends has begun. -/
theorem ne_nil : value ≠ [] := by
  cases h <;> exact List.cons_ne_nil _ _

/-- A value has no blank at either end: inside quotes there may be some. -/
theorem trimmed : Trimmed value := by
  cases h with
  | quoted h after =>
    refine ⟨fun c hc => ?_, fun c hc => ?_⟩
    · obtain rfl := Option.some.inj hc
      rfl
    · rw [List.getLast?_cons, h.getLast?_eq] at hc
      obtain rfl := Option.some.inj hc
      rfl
  | word _ solid _ => exact Text.trimmed_of_no_blank solid

/-- The value is what is split off. -/
theorem splitValue_append : Source.splitValue (value ++ after) = some (value, after) := by
  cases h with
  | @quoted rest h after =>
    show (Source.splitQuoted (rest ++ after)).map _ = _
    rw [h.splitQuoted_append]
    rfl
  | @word first rest _ quote solid stop =>
    have hword : IsWord (String.ofList (first :: rest)) := by
      rw [IsWord, String.toList_ofList]
      exact ⟨fun e => quote (Option.some.inj e), solid⟩
    have hne : String.ofList (first :: rest) ≠ "" := by simp
    have hsplit := Source.splitValue_word hword (Or.inl hne) stop
    rwa [String.toList_ofList] at hsplit

/-- The value still ends there if the end of the line is trimmed. -/
theorem trimEnd : Ends value (Text.trimEnd after) := by
  cases h with
  | quoted h after => exact .quoted h _
  | word quote solid stop =>
    refine .word quote solid fun c hc => stop c ?_
    obtain ⟨blanks, _, e⟩ := Text.exists_trimEnd after
    rw [e, List.head?_append, Option.mem_def.1 hc]
    rfl

/-- Trimming the end of a line stops at its value. -/
theorem trimEnd_append : Text.trimEnd (value ++ after) = value ++ Text.trimEnd after := by
  have hlast := h.trimmed.last _ (List.getLast?_eq_some_getLast h.ne_nil)
  rw [← List.dropLast_concat_getLast h.ne_nil, List.append_assoc, List.singleton_append,
    Text.trimEnd_append_cons hlast, List.append_assoc, List.singleton_append]

end Ends

/-- A remark is still one without the blanks at its end. -/
theorem Remark.isComment_trimEnd {after : List Char} (h : Remark after) :
    Source.isComment (Text.trimEnd after) = true := by
  cases h with
  | none blank =>
    have hend : Text.trimEnd after = [] := Text.trimEnd_blanks blank []
    rw [hend]
    rfl
  | @comment gap blank text =>
    have hbracket : isBlank '(' = false := by decide
    rw [Text.trimEnd_append_cons hbracket, Source.isComment, Text.trimStart_append_cons hbracket,
      Text.trimStart_of_blanks blank]
    rfl

/-- What is read behind a colon is the value, whatever blanks are before it and whatever remark
follows. -/
theorem valueToken?_trim {gap value after : List Char} (blank : Blanks gap)
    (ends : Ends value after) (remark : Remark after) :
    Source.valueToken? (Text.trim (gap ++ value ++ after)) = some value := by
  have hstart : Text.trimStart (value ++ after) = value ++ after := by
    obtain ⟨c, rest, rfl⟩ := List.exists_cons_of_ne_nil ends.ne_nil
    exact Text.trimStart_cons (ends.trimmed.first c rfl) _
  have htrim : Text.trim (gap ++ value ++ after) = value ++ Text.trimEnd after := by
    rw [Text.trim, List.append_assoc, Text.trimStart_blanks blank, hstart, ends.trimEnd_append]
  rw [htrim, Source.valueToken?, ends.trimEnd.splitValue_append]
  show (if Source.isComment (Text.trimEnd after) then _ else _) = _
  rw [if_pos remark.isComment_trimEnd]

/-! ## Lines -/

/-- The field of a line from what stands before and behind its first colon. -/
def fieldOfParts? (path rest : List Char) : Option (String × String) := do
  if path = [] ∨ path.any isBlank then none
  let value ← Source.valueToken? rest
  return (String.ofList path, String.ofList value)

/-- The field of a line depends on what stands before and behind its first colon, up to blanks. -/
theorem entry?_colon {path : List Char} (colon : ':' ∉ path) (rest : List Char) :
    Source.entry? (path ++ ':' :: rest) =
      some (fieldOfParts? (Text.trim path) (Text.trim rest)) := by
  have hcolon : isBlank ':' = false := by decide
  have htrim :
      Text.trim (path ++ ':' :: rest) = Text.trimStart path ++ ':' :: Text.trimEnd rest := by
    rw [Text.trim, Text.trimStart_append_cons hcolon, Text.trimEnd_append_cons hcolon]
  have hfirst : ':' ∉ Text.trimStart path := fun hm => colon ((List.dropWhile_sublist _).subset hm)
  have hne : Text.trimStart path ++ ':' :: Text.trimEnd rest ≠ [] := by simp
  rw [Source.entry?, htrim, if_neg hne, Source.fieldOfLine?,
    Text.splitOnce_eq_some_iff.2 ⟨rfl, hfirst⟩]
  show some (fieldOfParts? (Text.trim (Text.trimStart path)) (Text.trim (Text.trimEnd rest))) = _
  rw [Text.trim_trimStart, Text.trim_trimEnd]

/-- A change to the layout of one line. -/
inductive LineEdit : List Char → List Char → Prop where
  /-- Blanks around the line. -/
  | around (line : List Char) {before after : List Char} (front : Blanks before)
      (back : Blanks after) : LineEdit line (before ++ line ++ after)
  /-- Blanks around the path. -/
  | path {path before after : List Char} (colon : ':' ∉ path) (front : Blanks before)
      (back : Blanks after) (rest : List Char) :
      LineEdit (path ++ ':' :: rest) (before ++ path ++ after ++ ':' :: rest)
  /-- Blanks in front of the value. -/
  | value {path gap : List Char} (colon : ':' ∉ path) (blank : Blanks gap) (rest : List Char) :
      LineEdit (path ++ ':' :: rest) (path ++ ':' :: (gap ++ rest))
  /-- Another comment behind the value, or none. -/
  | comment {path gap value after after' : List Char} (colon : ':' ∉ path) (blank : Blanks gap)
      (ends : Ends value after) (remark : Remark after) (ends' : Ends value after')
      (remark' : Remark after') :
      LineEdit (path ++ ':' :: (gap ++ value ++ after)) (path ++ ':' :: (gap ++ value ++ after'))

/-- The layout of a line has no bearing on what it holds. -/
theorem LineEdit.entry?_eq {line line' : List Char} (h : LineEdit line line') :
    Source.entry? line' = Source.entry? line := by
  cases h with
  | around line front back => rw [Source.entry?, Text.trim_blanks front back, Source.entry?]
  | @path path before after colon front back rest =>
    have hnot : ∀ {blanks : List Char}, Blanks blanks → ':' ∉ blanks := fun h hm => by
      cases h _ hm
    have hcolon : ':' ∉ before ++ path ++ after := by
      simp only [List.mem_append, not_or]
      exact ⟨⟨hnot front, colon⟩, hnot back⟩
    rw [entry?_colon hcolon, entry?_colon colon, Text.trim_blanks front back]
  | @value path gap colon blank rest =>
    have htrim := Text.trim_blanks blank Text.blanks_nil rest
    rw [List.append_nil] at htrim
    rw [entry?_colon colon, entry?_colon colon, htrim]
  | comment colon blank ends remark ends' remark' =>
    rw [entry?_colon colon, entry?_colon colon, fieldOfParts?, fieldOfParts?,
      valueToken?_trim blank ends remark, valueToken?_trim blank ends' remark']

/-! ## Texts -/

/-- A change to the layout of lines. -/
inductive Edit : List (List Char) → List (List Char) → Prop where
  /-- The lines stand in another order. -/
  | permute {lines lines' : List (List Char)} (h : lines.Perm lines') : Edit lines lines'
  /-- A blank line is put between the others. -/
  | blank (front back : List (List Char)) {line : List Char} (blank : Blanks line) :
      Edit (front ++ back) (front ++ line :: back)
  /-- The layout of one line changes. -/
  | line (front back : List (List Char)) {line line' : List Char} (h : LineEdit line line') :
      Edit (front ++ line :: back) (front ++ line' :: back)

/-- Two texts differ in their layout only: edits, made or undone, turn one into the other. -/
def Relaid : String → String → Prop :=
  Relation.EqvGen fun text text' => Edit (Source.linesOf text) (Source.linesOf text')

/-- An edit changes at most the order of what the lines hold. -/
theorem Edit.entries_perm {lines lines' : List (List Char)} (h : Edit lines lines') :
    (Source.entries lines').Perm (Source.entries lines) := by
  cases h with
  | permute h => exact (h.filterMap _).symm
  | @blank front back line blank =>
    have htrim : Text.trim line = [] := by
      rw [Text.trim, Text.trimStart_of_blanks blank]
      rfl
    have hnone : Source.entry? line = none := if_pos htrim
    rw [Source.entries, Source.entries, List.filterMap_append, List.filterMap_append,
      List.filterMap_cons_none hnone]
  | line front back h =>
    rw [Source.entries, Source.entries, List.filterMap_append, List.filterMap_append,
      List.filterMap_cons, List.filterMap_cons, h.entry?_eq]

/-- By induction on how the edits are put together: made, undone, and one after another. -/
theorem Relaid.entries_perm {text text' : String} (h : Relaid text text') :
    (Source.entries (Source.linesOf text')).Perm (Source.entries (Source.linesOf text)) := by
  induction h with
  | rel text text' h => exact h.entries_perm
  | refl text => exact .refl _
  | symm text text' _ ih => exact ih.symm
  | trans text text' text'' _ _ ih ih' => exact ih'.trans ih

/-- The layout of a text has no bearing on what it stands for.  A text that differs from an accepted
one in its layout only is accepted, with the same value at every path; so both stand for the same
envelope, or are refused with the same error, as is the value of every wire type at every path, and
whatever looks something up by path finds the same in both. -/
theorem Relaid.reads_alike {text text' : String} (h : Relaid text text') {source : Source}
    (hparse : Source.parse text = .ok source) :
    ∃ source', Source.parse text' = .ok source' ∧
      (∀ path, source'.get? path = source.get? path) ∧
      Envelope.ofText text' = Envelope.ofText text ∧
      (∀ (t : WireType) (path : String), t.format.ofText text' path = t.format.ofText text path) ∧
      ∀ path, source'.contains path = source.contains path ∧
        source'.get path = source.get path ∧
        (∀ {α : Type} (ofText? : String → Option α),
          source'.value ofText? path = source.value ofText? path) ∧
        source'.bool path = source.bool path ∧
        (∀ max, source'.string max path = source.string max path) ∧
        (∀ max, source'.hex max path = source.hex max path) ∧
        (∀ n, source'.octets n path = source.octets n path) ∧
        (∀ max, source'.length max path = source.length max path) ∧
        source'.present path = source.present path ∧
        source'.arm path = source.arm path := by
  obtain ⟨source', hparse', alike⟩ := Source.exists_parse_of_perm hparse h.entries_perm
  have htext (t : WireType) (path : String) :
      t.format.ofText text' path = t.format.ofText text path := by
    have hread := t.congruent maxLevels source source' maxLevels path alike (Nat.le_refl _)
    rw [Format.ofText, Format.ofText, hparse, hparse']
    exact hread
  refine ⟨source', hparse', alike, htext .envelope "", htext, fun path => ?_⟩
  have hvalue {α : Type} (ofText? : String → Option α) (path : String) :
      source'.value ofText? path = source.value ofText? path := Source.value_congr (alike path)
  exact ⟨Source.contains_congr (alike path), Source.get_congr (alike path),
    fun ofText? => hvalue ofText? path, hvalue _ path, fun _ => hvalue _ path,
    fun _ => hvalue _ path, fun _ => hvalue _ path, fun _ => Source.length_congr (alike _),
    hvalue _ _, Source.get_congr (alike _)⟩

/-- A line with a quoted value and a comment. -/
def memoLine (comment : String) : List Char :=
  "memo.text".toList ++ ':' :: ([' '] ++ '"' :: "a (b): \\\"c\\\"\"".toList ++
    ([' '] ++ '(' :: comment.toList))

/-- A line with a bare value, and blanks around its path. -/
def feeLine (before after : List Char) : List Char :=
  before ++ "fee".toList ++ after ++ ':' :: " 100".toList

/-- Two fields, one of them with a comment. -/
def memoText : String :=
  "memo.text: \"a (b): \\\"c\\\"\" (a note)\nfee: 100\n"

/-- The same fields in the other order, with another comment, with a line of a tab and a carriage
return between them, and with blanks around a path. -/
def relaidMemoText : String :=
  " fee\u0085: 100\n\t\r\nmemo.text: \"a (b): \\\"c\\\"\" (\"x: ((y)\n"

/-- The two texts differ in their layout only: the comment is replaced, a blank line comes in, the
lines change places, and blanks come in around the path. -/
theorem relaid_memoText : Relaid memoText relaidMemoText := by
  have h₀ : Source.linesOf memoText = [memoLine "a note)", feeLine [] [], []] := by decide +kernel
  have h₁ : Source.linesOf "memo.text: \"a (b): \\\"c\\\"\" (\"x: ((y)\nfee: 100\n" =
      [memoLine "\"x: ((y)", feeLine [] [], []] := by decide +kernel
  have h₂ : Source.linesOf "memo.text: \"a (b): \\\"c\\\"\" (\"x: ((y)\n\t\r\nfee: 100\n" =
      [memoLine "\"x: ((y)", ['\t', '\r'], feeLine [] [], []] := by decide +kernel
  have h₃ : Source.linesOf "fee: 100\n\t\r\nmemo.text: \"a (b): \\\"c\\\"\" (\"x: ((y)\n" =
      [feeLine [] [], ['\t', '\r'], memoLine "\"x: ((y)", []] := by decide +kernel
  have h₄ : Source.linesOf relaidMemoText =
      [feeLine [' '] ['\u0085'], ['\t', '\r'], memoLine "\"x: ((y)", []] := by decide +kernel
  have comment : LineEdit (memoLine "a note)") (memoLine "\"x: ((y)") := by
    have blank : Blanks [' '] := by decide
    have ends (after : List Char) : Ends ('"' :: "a (b): \\\"c\\\"\"".toList) after :=
      .quoted (by decide) after
    exact .comment (by decide) blank (ends _) (.comment blank _) (ends _) (.comment blank _)
  have path : LineEdit (feeLine [] []) (feeLine [' '] ['\u0085']) :=
    .path (by decide) (by decide) (by decide) _
  have step {text text' : String} {lines lines' : List (List Char)}
      (h : Source.linesOf text = lines) (h' : Source.linesOf text' = lines')
      (edit : Edit lines lines') : Relaid text text' :=
    .rel _ _ (by rw [h, h']; exact edit)
  refine .trans _ _ _ (step h₀ h₁ (.line [] _ comment)) ?_
  refine .trans _ _ _ (step h₁ h₂ (.blank [_] [_, _] (by decide))) ?_
  refine .trans _ _ _ (step h₂ h₃ (.permute ?_)) (step h₃ h₄ (.line [] _ path))
  decide +kernel

/-- The first text is accepted, and so the memo is the same in the second. -/
theorem Relaid.reads_alike_memo :
    Relaid memoText relaidMemoText ∧
    Source.parse memoText =
      .ok ⟨[("fee", "100"), ("memo.text", "\"a (b): \\\"c\\\"\"")]⟩ ∧
    ∃ source', Source.parse relaidMemoText = .ok source' ∧
      source'.get "memo.text" = .ok "\"a (b): \\\"c\\\"\"" := by
  have hparse : Source.parse memoText =
      .ok ⟨[("fee", "100"), ("memo.text", "\"a (b): \\\"c\\\"\"")]⟩ := by decide +kernel
  obtain ⟨source', hparse', _, _, _, haccess⟩ := reads_alike relaid_memoText hparse
  refine ⟨relaid_memoText, hparse, source', hparse', ?_⟩
  rw [(haccess "memo.text").2.1]
  rfl

end TxRep

end StellarTx
