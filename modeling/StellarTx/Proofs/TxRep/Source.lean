/-
# Lines that are written are found

A line whose path and value are clean is taken apart into just these, and a text of such lines, no
two of which have the same path, becomes a source that gives for every path the value on its line.
-/
import StellarTx.Proofs.Format.Regular
import StellarTx.Proofs.TxRep.Fields

namespace StellarTx

open Text (isBlank)

/-! ## Trimming -/

namespace Text

/-- Trimming stops at once where there is nothing to trim. -/
theorem trimStart_cons {c : Char} (h : isBlank c = false) (text : List Char) :
    trimStart (c :: text) = c :: text :=
  trimStart_eq_self fun d hd => by
    cases hd
    exact h

/-- Trimming the end stops at the last character that is not blank. -/
theorem trimEnd_append_cons {c : Char} (h : isBlank c = false) (before after : List Char) :
    trimEnd (before ++ c :: after) = before ++ c :: trimEnd after := by
  unfold trimEnd trimStart
  rw [List.reverse_append, List.reverse_cons, List.append_assoc, List.dropWhile_append]
  -- Of the reversed text, the part behind `c` may be blank as a whole.
  split
  · next hall =>
    rw [List.isEmpty_iff.1 hall, List.singleton_append, List.dropWhile_cons_of_neg (by simp [h])]
    simp
  · simp

/-- Text without a blank at either end. -/
structure Trimmed (text : List Char) : Prop where
  first : ∀ c ∈ text.head?, isBlank c = false
  last : ∀ c ∈ text.getLast?, isBlank c = false

/-- Text without any blank has none at its ends. -/
theorem trimmed_of_no_blank {text : List Char} (h : ∀ c ∈ text, isBlank c = false) :
    Trimmed text :=
  ⟨fun c hc => h c (List.mem_of_mem_head? hc), fun c hc => h c (List.mem_of_mem_getLast? hc)⟩

namespace Trimmed

variable {text : List Char} (h : Trimmed text)

include h

/-- Text with nothing to trim at its end protects what is in front of it. -/
theorem trimEnd_append (hne : text ≠ []) (before : List Char) :
    trimEnd (before ++ text) = before ++ text := by
  have hlast := h.last _ (List.getLast?_eq_some_getLast hne)
  rw [← List.dropLast_concat_getLast hne, ← List.append_assoc, trimEnd_append_cons hlast]
  rfl

/-- There is nothing to trim. -/
theorem trim_eq : trim text = text := by
  by_cases hne : text = []
  · rw [hne]
    rfl
  · rw [trim, trimStart_eq_self h.first]
    exact h.trimEnd_append hne []

/-- A blank in front does not count. -/
theorem trim_space : trim (trimEnd (' ' :: text)) = text := by
  by_cases hne : text = []
  · rw [hne]
    rfl
  · have hend : trimEnd (' ' :: text) = ' ' :: text := h.trimEnd_append hne [' ']
    rw [hend]
    exact h.trim_eq

end Trimmed

end Text

/-! ## Quoted values -/

namespace TxRep

namespace Source

open Text.Quoted (escapeChar shortEscape? isControl)

/-- A character that is neither a quote nor a backslash stands for itself. -/
theorem splitQuoted_cons {c : Char} (hq : c ≠ '"') (hb : c ≠ '\\') (rest : List Char) :
    splitQuoted (c :: rest) =
      (splitQuoted rest).map fun (quoted, after) => (c :: quoted, after) := by
  rw [splitQuoted.eq_def]
  split
  · next h => cases h
  · next h => exact absurd (List.cons.inj h).1 hq
  · next h => exact absurd (List.cons.inj h).1 hb
  · next h =>
    cases h
    rfl

/-- Only the first 32 characters are control characters here. -/
theorem toNat_lt_of_isControl {c : Char} (h : isControl c = true) : c.toNat < 32 :=
  of_decide_eq_true h

/-- Hexadecimal digits cannot end a quoted string. -/
theorem hexDigit_ne (n : Fin 16) : Text.Hex.digit n ≠ '"' ∧ Text.Hex.digit n ≠ '\\' := by
  revert n
  decide

/-- No escaped character ends a quoted string. -/
theorem splitQuoted_escapeChar (c : Char) (rest : List Char) :
    splitQuoted (escapeChar c ++ rest) =
      (splitQuoted rest).map fun (quoted, after) => (escapeChar c ++ quoted, after) := by
  unfold escapeChar
  split
  · next letter h => rfl
  · next h =>
    split
    · -- A control character: what follows the backslash is no quote.
      next hc =>
      have hlt := toNat_lt_of_isControl hc
      obtain ⟨hq, hb⟩ := hexDigit_ne ⟨c.toNat / 16, by omega⟩
      obtain ⟨hq', hb'⟩ := hexDigit_ne ⟨c.toNat % 16, by omega⟩
      have hpair : splitQuoted ('\\' :: 'u' :: '0' :: '0' :: Text.Hex.digit (c.toNat / 16) ::
          Text.Hex.digit (c.toNat % 16) :: rest) = _ := splitQuoted.eq_3 _ _
      show splitQuoted ('\\' :: 'u' :: '0' :: '0' :: Text.Hex.digit (c.toNat / 16) ::
          Text.Hex.digit (c.toNat % 16) :: rest) = _
      rw [hpair, splitQuoted_cons (by decide) (by decide), splitQuoted_cons (by decide) (by decide),
        splitQuoted_cons hq hb, splitQuoted_cons hq' hb']
      cases splitQuoted rest <;> rfl
    · next hc =>
      refine splitQuoted_cons ?_ ?_ rest
      · rintro rfl
        cases h
      · rintro rfl
        cases h

/-- A quoted string ends with its closing quote. -/
theorem splitQuoted_quoted (text after : List Char) :
    splitQuoted (text.flatMap escapeChar ++ '"' :: after) =
      some (text.flatMap escapeChar ++ ['"'], after) := by
  induction text with
  | nil => rfl
  | cons c text ih =>
    rw [List.flatMap_cons, List.append_assoc, splitQuoted_escapeChar, ih, List.append_assoc]
    rfl

/-- A quoted string is taken apart at its end, with nothing behind it. -/
theorem splitValue_quote (text : List Char) :
    splitValue (Text.Quoted.quoteChars text) = some (Text.Quoted.quoteChars text, []) := by
  show (splitQuoted (text.flatMap escapeChar ++ ['"'])).map _ = _
  rw [splitQuoted_quoted]
  rfl

/-- A quoted string is written on one line. -/
theorem newline_not_mem_quote (text : List Char) : '\n' ∉ Text.Quoted.quoteChars text := by
  have hchar (c : Char) : '\n' ∉ escapeChar c := by
    unfold escapeChar
    split
    · next letter h =>
      intro hm
      rcases List.mem_cons.1 hm with hm | hm
      · revert hm
        decide
      · obtain rfl := List.mem_singleton.1 hm
        have := (Text.Quoted.ofShortEscape?_shortEscape? h).1
        cases this
    · next h =>
      split
      · next hc =>
        have hlt := toNat_lt_of_isControl hc
        have hdigit : ∀ n : Fin 16, '\n' ≠ Text.Hex.digit n := by decide
        have h1 := hdigit ⟨c.toNat / 16, by omega⟩
        have h2 := hdigit ⟨c.toNat % 16, by omega⟩
        simp only [List.mem_cons, List.not_mem_nil, or_false, not_or]
        exact ⟨by decide, by decide, by decide, by decide, h1, h2⟩
      · intro hm
        obtain rfl := List.mem_singleton.1 hm
        cases h
  intro hm
  rcases List.mem_cons.1 hm with hm | hm
  · revert hm
    decide
  · rcases List.mem_append.1 hm with hm | hm
    · obtain ⟨c, _, hc⟩ := List.mem_flatMap.1 hm
      exact hchar c hc
    · revert hm
      decide

/-- A word ends at the first blank. -/
theorem splitValue_word {value : String} {after : List Char} (hw : IsWord value)
    (hne : value ≠ "" ∨ after = []) (hafter : ∀ c ∈ after.head?, isBlank c = true) :
    splitValue (value.toList ++ after) = some (value.toList, after) := by
  have hword : ∀ c ∈ value.toList, (!isBlank c) = true := fun c hc => by rw [hw.2 c hc]; rfl
  -- What is read starts with the word, or there is nothing to read.
  have hhead : (value.toList ++ after).head? ≠ some '"' := by
    rw [List.head?_append]
    cases hv : value.toList.head? with
    | none =>
      have hempty := String.toList_eq_nil_iff.1 (List.head?_eq_none_iff.1 hv)
      rw [hne.resolve_left fun hn => hn hempty]
      exact nofun
    | some c =>
      intro e
      exact hw.1 (hv.trans e)
  have hstop : after.takeWhile (!isBlank ·) = [] ∧ after.dropWhile (!isBlank ·) = after := by
    cases after with
    | nil => exact ⟨rfl, rfl⟩
    | cons c after =>
      have hc : ¬ (!isBlank c) = true := by simp [hafter c rfl]
      exact ⟨List.takeWhile_cons_of_neg hc, List.dropWhile_cons_of_neg hc⟩
  unfold splitValue
  split
  · next h => exact absurd (by rw [h]; rfl) hhead
  · rw [List.takeWhile_append_of_pos hword, List.dropWhile_append_of_pos hword, hstop.1, hstop.2,
      List.append_nil]

end Source

/-! ## Clean lines -/

/-- Whether a path can stand before the colon of a line. -/
def IsClean (path : String) : Prop :=
  ∀ c ∈ path.toList, c ≠ ':' ∧ isBlank c = false

/-- The test for clean paths, which is quick to run. -/
theorem isClean_iff {path : String} :
    path.toList.all (fun c => c != ':' && !isBlank c) = true ↔ IsClean path := by
  simp only [IsClean, List.all_eq_true, Bool.and_eq_true, bne_iff_ne, Bool.not_eq_true']

/-- Whether a path is clean is decided by that test. -/
instance (path : String) : Decidable (IsClean path) := decidable_of_iff _ isClean_iff

/-- A line that reads back: its path is clean, its value a word or a quoted string, and a comment
stands on one line behind a word that is not empty. -/
structure Line.Clean (line : Line) : Prop where
  ne_empty : line.path ≠ ""
  path : IsClean line.path
  value : IsWord line.value ∨ ∃ text, line.value = Text.Quoted.quote text
  comment : ∀ comment ∈ line.comment,
    IsWord line.value ∧ line.value ≠ "" ∧ '\n' ∉ comment.toList

namespace Line

/-- What follows the value on a line. -/
def after (line : Line) : List Char :=
  match line.comment with
  | none => []
  | some comment => ' ' :: '(' :: (comment.toList ++ [')'])

/-- The value of a line and what follows it. -/
def content (line : Line) : List Char :=
  line.value.toList ++ line.after

/-- The characters of a line without its line feed. -/
def chars (line : Line) : List Char :=
  line.path.toList ++ ':' :: ' ' :: line.content

/-- A line is rendered with a line feed. -/
theorem toList_render (line : Line) : line.render.toList = line.chars ++ ['\n'] := by
  unfold render chars content after
  cases line.comment <;> simp

namespace Clean

variable {line : Line} (h : line.Clean)

include h

/-- Either the value is in quotes and nothing follows, or it is a word and a blank follows. -/
theorem cases :
    (∃ text, line.value = Text.Quoted.quote text ∧ line.after = []) ∨
    (IsWord line.value ∧ line.after = []) ∨
    (IsWord line.value ∧ line.value ≠ "" ∧
      ∃ comment, '\n' ∉ comment ∧ line.after = ' ' :: '(' :: (comment ++ [')'])) := by
  cases hc : line.comment with
  | none =>
    have hafter : line.after = [] := by rw [after, hc]
    rcases h.value with hw | ⟨text, hq⟩
    · exact Or.inr (Or.inl ⟨hw, hafter⟩)
    · exact Or.inl ⟨text, hq, hafter⟩
  | some comment =>
    have hafter : line.after = ' ' :: '(' :: (comment.toList ++ [')']) := by rw [after, hc]
    obtain ⟨hw, hne, hn⟩ := h.comment comment hc
    exact Or.inr (Or.inr ⟨hw, hne, comment.toList, hn, hafter⟩)

/-- There is nothing to trim around a value and its comment: a comment ends with a bracket. -/
theorem trimmed_content : Text.Trimmed line.content := by
  rcases h.cases with ⟨text, hq, hafter⟩ | ⟨hw, hafter⟩ | ⟨hw, hne, comment, _, hafter⟩
  · rw [content, hq, hafter, List.append_nil, Text.Quoted.quote, String.toList_ofList]
    refine ⟨fun c hc => ?_, fun c hc => ?_⟩
    · obtain rfl := Option.some.inj hc
      rfl
    · rw [Text.Quoted.quoteChars, ← List.cons_append, List.getLast?_concat] at hc
      obtain rfl := Option.some.inj hc
      rfl
  · rw [content, hafter, List.append_nil]
    exact Text.trimmed_of_no_blank hw.2
  · -- The line ends with the bracket that closes the comment.
    rw [content, hafter]
    cases hv : line.value.toList with
    | nil => exact absurd (String.toList_eq_nil_iff.1 hv) hne
    | cons c rest =>
      refine ⟨fun d hd => ?_, fun d hd => ?_⟩
      · obtain rfl := Option.some.inj hd
        exact hw.2 c (by simp [hv])
      · rw [← List.cons_append, ← List.cons_append, ← List.append_assoc, List.getLast?_concat] at hd
        obtain rfl := Option.some.inj hd
        rfl

/-- The value is found, and a comment behind it is allowed. -/
theorem valueToken?_content : Source.valueToken? line.content = some line.value.toList := by
  unfold Source.valueToken?
  rcases h.cases with ⟨text, hq, hafter⟩ | ⟨hw, hafter⟩ | ⟨hw, hne, comment, _, hafter⟩
  · rw [content, hq, hafter, List.append_nil, Text.Quoted.quote, String.toList_ofList,
      Source.splitValue_quote]
    rfl
  · rw [content, hafter, Source.splitValue_word hw (Or.inr rfl) (by simp)]
    rfl
  · rw [content, hafter, Source.splitValue_word hw (Or.inl hne) (by simp [Text.isBlank])]
    rfl

/-- Without the blanks around it, a line is its path, a colon, and the rest. -/
theorem trim_chars : ∃ rest, Text.trim line.chars = line.path.toList ++ ':' :: rest ∧
    Text.trim rest = line.content := by
  refine ⟨Text.trimEnd (' ' :: line.content), ?_, ?_⟩
  · have hstart : Text.trimStart line.chars = line.chars := by
      unfold chars
      cases hp : line.path.toList with
      | nil => exact absurd (String.toList_eq_nil_iff.1 hp) h.ne_empty
      | cons c rest => exact Text.trimStart_cons (h.path c (by simp [hp])).2 _
    rw [Text.trim, hstart, chars, Text.trimEnd_append_cons (by decide)]
  · exact h.trimmed_content.trim_space

/-- The field of a line is its path and its value, without the comment. -/
theorem fieldOfLine?_chars :
    Source.fieldOfLine? (Text.trim line.chars) = some (line.path, line.value) := by
  obtain ⟨rest, htrim, hrest⟩ := h.trim_chars
  -- The first colon of the line is the one behind the path.
  have hcolon : ':' ∉ line.path.toList := fun hm => (h.path ':' hm).1 rfl
  have hpath : Text.trim line.path.toList = line.path.toList :=
    (Text.trimmed_of_no_blank fun c hc => (h.path c hc).2).trim_eq
  have hblank : line.path.toList.any isBlank = false := by
    apply List.any_eq_false.2
    intro c hc
    rw [(h.path c hc).2]
    decide
  have hne : line.path.toList ≠ [] := fun e => h.ne_empty (String.toList_eq_nil_iff.1 e)
  rw [htrim, Source.fieldOfLine?, Text.splitOnce_eq_some_iff.2 ⟨rfl, hcolon⟩]
  show (do
    let path := Text.trim line.path.toList
    if path = [] ∨ path.any isBlank then none
    let value ← Source.valueToken? (Text.trim rest)
    return (String.ofList path, String.ofList value)) = _
  simp [hpath, hblank, hne, hrest, h.valueToken?_content]

/-- A clean line holds its field. -/
theorem entry?_chars : Source.entry? line.chars = some (some (line.path, line.value)) := by
  have hne : Text.trim line.chars ≠ [] := by
    obtain ⟨rest, htrim, _⟩ := h.trim_chars
    rw [htrim]
    simp
  rw [Source.entry?, if_neg hne, h.fieldOfLine?_chars]

/-- A line is one line: nothing in it is a line feed, least of all in quotes, where it is escaped.
-/
theorem newline_not_mem : '\n' ∉ line.chars := by
  have hpath : '\n' ∉ line.path.toList := fun hm => by
    cases (h.path _ hm).2
  have hword : IsWord line.value → '\n' ∉ line.value.toList := fun hw hm => by
    cases hw.2 _ hm
  have hcontent : '\n' ∉ line.content := by
    rcases h.cases with ⟨text, hq, hafter⟩ | ⟨hw, hafter⟩ | ⟨hw, _, comment, hn, hafter⟩
    · rw [content, hq, hafter, List.append_nil, Text.Quoted.quote, String.toList_ofList]
      exact Source.newline_not_mem_quote text.toList
    · rw [content, hafter, List.append_nil]
      exact hword hw
    · rw [content, hafter]
      simp [hword hw, hn]
  simp [chars, hpath, hcontent]

end Clean

end Line

/-! ## Texts of clean lines -/

namespace Source

variable {lines : List Line}

/-- A text of clean lines has just these lines, and an empty one behind the last line feed. -/
theorem linesOf_render (clean : ∀ line ∈ lines, line.Clean) :
    linesOf (render lines) = lines.map Line.chars ++ [[]] := by
  induction lines with
  | nil => rfl
  | cons line lines ih =>
    obtain ⟨hline, hlines⟩ := List.forall_mem_cons.1 clean
    have hrender : (render (line :: lines)).toList =
        line.chars ++ '\n' :: (render lines).toList := by
      rw [render, List.map_cons, String.join_cons, String.toList_append, Line.toList_render,
        List.append_assoc]
      rfl
    rw [linesOf, hrender, Text.pieces_append hline.newline_not_mem]
    exact congrArg (line.chars :: ·) (ih hlines)

/-- The entries of clean lines are their fields, in order. -/
theorem entries_chars (clean : ∀ line ∈ lines, line.Clean) :
    entries (lines.map Line.chars) = lines.map fun line => some (line.path, line.value) := by
  induction lines with
  | nil => rfl
  | cons line lines ih =>
    obtain ⟨hline, hlines⟩ := List.forall_mem_cons.1 clean
    rw [List.map_cons, entries_cons hline.entry?_chars, ih hlines, List.map_cons]

/-- No clean line is empty, so that there are as many fields as lines. -/
theorem fieldsOn_chars (clean : ∀ line ∈ lines, line.Clean) :
    fieldsOn (lines.map Line.chars) = lines.map fun line => (line.path, line.value) := by
  rw [fieldsOn, entries_chars clean, List.filterMap_map, ← List.filterMap_eq_map]
  rfl

/-- The empty line behind the last line feed has no entry. -/
theorem entries_render (clean : ∀ line ∈ lines, line.Clean) :
    entries (linesOf (render lines)) = entries (lines.map Line.chars) := by
  rw [linesOf_render clean, entries, List.filterMap_append]
  exact List.append_nil _

/-- The paths of a text of clean lines are those of the lines. -/
theorem pathsOf_render (clean : ∀ line ∈ lines, line.Clean) :
    pathsOf (render lines) = lines.map (·.path) := by
  rw [pathsOf, fieldsOn, entries_render clean, ← fieldsOn, fieldsOn_chars clean, List.map_map]
  rfl

/-- The fields that lines stand for, last line first. -/
def fieldsOf (lines : List Line) : List (String × String) :=
  (lines.map fun line => (line.path, line.value)).reverse

/-- Clean lines at different paths are added with their values. -/
theorem addLines_chars (clean : ∀ line ∈ lines, line.Clean)
    (distinct : (lines.map (·.path)).Nodup) (number : Nat) :
    addLines ⟨[]⟩ number (lines.map Line.chars) = .ok ⟨fieldsOf lines⟩ := by
  rw [addLines_eq_ok_iff, fieldsOn_chars clean, entries_chars clean, List.map_map,
    List.append_nil]
  exact ⟨by simp, distinct, fun _ _ => rfl, rfl⟩

/-- A text of clean lines at different paths is a source of their values. -/
theorem parse_render (clean : ∀ line ∈ lines, line.Clean)
    (distinct : (lines.map (·.path)).Nodup) :
    parse (render lines) = .ok ⟨fieldsOf lines⟩ := by
  show addLines ⟨[]⟩ 1 (linesOf (render lines)) = _
  rw [linesOf_render clean, addLines_append, addLines_chars clean distinct]
  rfl

/-- A line that is repeated is a duplicate, whatever follows it. -/
theorem parse_render_of_repeated {line : Line} {more : List Line}
    (clean : ∀ l ∈ lines ++ line :: more, l.Clean) (distinct : (lines.map (·.path)).Nodup)
    (hl : line ∈ lines) :
    parse (render (lines ++ line :: more)) = .error (.duplicate line.path) := by
  have hlines : ∀ l ∈ lines, l.Clean := fun l hl => clean l (List.mem_append_left _ hl)
  have hline : line.Clean := hlines line hl
  have hcontains : contains ⟨fieldsOf lines⟩ line.path = true := by
    rw [contains_iff, fieldsOf, List.map_reverse, List.map_map, List.mem_reverse]
    exact List.mem_map_of_mem hl
  show addLines ⟨[]⟩ 1 (linesOf (render (lines ++ line :: more))) = _
  rw [linesOf_render clean, List.map_append, List.map_cons, List.append_assoc, addLines_append,
    addLines_chars hlines distinct]
  show addLines ⟨fieldsOf lines⟩ _ (line.chars :: (more.map Line.chars ++ [[]])) = _
  rw [addLines_of_field hline.entry?_chars, if_pos hcontains]

/-- There is no field where there is no line. -/
theorem get?_fieldsOf_eq_none {path : String} (h : ∀ line ∈ lines, line.path ≠ path) :
    get? ⟨fieldsOf lines⟩ path = none := by
  rw [get?_eq_none_iff]
  intro field hfield
  obtain ⟨line, hl, rfl⟩ := List.mem_map.1 (List.mem_reverse.1 hfield)
  exact h line hl

/-- The field of a line has its value. -/
theorem get?_fieldsOf_eq_some (distinct : (lines.map (·.path)).Nodup) {line : Line}
    (hl : line ∈ lines) : get? ⟨fieldsOf lines⟩ line.path = some line.value := by
  have hpaths : ((fieldsOf lines).map (·.1)).Nodup := by
    rw [fieldsOf, List.map_reverse, List.map_map]
    exact (List.reverse_perm _).nodup_iff.2 distinct
  exact (get?_eq_some_iff hpaths).2 (List.mem_reverse.2 (List.mem_map_of_mem hl))

end Source

end TxRep

end StellarTx
