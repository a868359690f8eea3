/-
# Quoted strings

A string is written between double quotes with JSON's escapes: a quote and a backslash take a
backslash, control characters their short escape or `\u00xx`, and everything else stands for itself.
Reading is strict JSON: no raw control character, no unknown escape, no lone surrogate, and nothing
after the closing quote.  Main statement: `unquoteChars?_quoteChars`.
-/
import StellarTx.Text.Hex

namespace StellarTx.Text.Quoted

/-- The letter of a short escape, for the characters that have one. -/
def shortEscape? (c : Char) : Option Char :=
  if c = '"' then some '"'
  else if c = '\\' then some '\\'
  else if c = '\x08' then some 'b'
  else if c = '\x0c' then some 'f'
  else if c = '\n' then some 'n'
  else if c = '\r' then some 'r'
  else if c = '\t' then some 't'
  else none

/-- The character that the letter of a short escape stands for.  A slash may be escaped too. -/
def ofShortEscape? (c : Char) : Option Char :=
  if c = '"' then some '"'
  else if c = '\\' then some '\\'
  else if c = '/' then some '/'
  else if c = 'b' then some '\x08'
  else if c = 'f' then some '\x0c'
  else if c = 'n' then some '\n'
  else if c = 'r' then some '\r'
  else if c = 't' then some '\t'
  else none

/-- Whether a character may not stand for itself in a string. -/
def isControl (c : Char) : Bool :=
  c.val < 0x20

/-! ## Writing -/

/-- One character of a string as it is written. -/
def escapeChar (c : Char) : List Char :=
  match shortEscape? c with
  | some letter => ['\\', letter]
  | none =>
    if isControl c then
      ['\\', 'u', '0', '0', Hex.digit (c.toNat / 16), Hex.digit (c.toNat % 16)]
    else [c]

/-- A string between quotes. -/
def quoteChars (text : List Char) : List Char :=
  '"' :: (text.flatMap escapeChar ++ ['"'])

/-- A string between quotes. -/
def quote (text : String) : String :=
  String.ofList (quoteChars text.toList)

/-! ## Reading -/

/-- The 16-bit unit that four hexadecimal digits spell. -/
def unit? (a b c d : Char) : Option Nat := do
  let a ← Hex.digitValue? a
  let b ← Hex.digitValue? b
  let c ← Hex.digitValue? c
  let d ← Hex.digitValue? d
  return ((a * 16 + b) * 16 + c) * 16 + d

/-- Whether a unit is the first half of a surrogate pair. -/
def isHighSurrogate (unit : Nat) : Bool :=
  0xD800 ≤ unit && unit < 0xDC00

/-- Whether a unit is the second half of a surrogate pair. -/
def isLowSurrogate (unit : Nat) : Bool :=
  0xDC00 ≤ unit && unit < 0xE000

/-- The string between an opening quote, already read, and the closing quote at the end. -/
def unescape? : List Char → Option (List Char)
  | [] => none
  | c :: rest =>
    if c = '"' then if rest = [] then some [] else none
    else if c = '\\' then
      match rest with
      | 'u' :: a :: b :: c :: d :: rest =>
        match unit? a b c d with
        | none => none
        | some high =>
          if isHighSurrogate high then
            match rest with
            | '\\' :: 'u' :: a :: b :: c :: d :: rest =>
              match unit? a b c d with
              | none => none
              | some low =>
                if isLowSurrogate low then
                  (unescape? rest).map
                    (Char.ofNat (0x10000 + (high - 0xD800) * 0x400 + (low - 0xDC00)) :: ·)
                else none
            | _ => none
          else if isLowSurrogate high then none
          else (unescape? rest).map (Char.ofNat high :: ·)
      | letter :: rest =>
        match ofShortEscape? letter with
        | none => none
        | some c => (unescape? rest).map (c :: ·)
      | [] => none
    else if isControl c then none
    else (unescape? rest).map (c :: ·)

/-- The string that stands between quotes. -/
def unquoteChars? : List Char → Option (List Char)
  | '"' :: rest => unescape? rest
  | _ => none

/-- The string that stands between quotes. -/
def unquote? (text : String) : Option String :=
  (unquoteChars? text.toList).map String.ofList

/-! ## Laws -/

theorem ofShortEscape?_shortEscape? {c letter : Char} (h : shortEscape? c = some letter) :
    ofShortEscape? letter = some c ∧ letter ≠ 'u' := by
  revert h
  -- One case for each letter, and the last for none.
  fun_cases shortEscape? c with
  | case8 => exact nofun
  | _ =>
    intro h
    cases h
    subst_vars
    decide

/-- What follows an escaped character is read as before. -/
theorem unescape?_escapeChar (c : Char) (rest : List Char) :
    unescape? (escapeChar c ++ rest) = (unescape? rest).map (c :: ·) := by
  unfold escapeChar
  split
  · next letter h =>
    obtain ⟨back, hu⟩ := ofShortEscape?_shortEscape? h
    simp only [List.cons_append, List.nil_append]
    rw [unescape?]
    · simp [back]
    · exact fun _ _ _ _ _ e => absurd e hu
  · next h =>
    split
    · next hc =>
      have hlt : c.toNat < 32 := by
        have := hc
        simp only [isControl, decide_eq_true_eq] at this
        exact this
      have hi := Hex.digitValue?_digit ⟨c.toNat / 16, by omega⟩
      have lo := Hex.digitValue?_digit ⟨c.toNat % 16, by omega⟩
      have zero : Hex.digitValue? '0' = some 0 := by decide
      have value : ((0 * 16 + 0) * 16 + c.toNat / 16) * 16 + c.toNat % 16 = c.toNat := by omega
      have hu : unit? '0' '0' (Hex.digit (c.toNat / 16)) (Hex.digit (c.toNat % 16)) =
          some c.toNat := by
        simp only [unit?, zero, hi, lo, Option.bind_eq_bind, Option.bind_some, Option.pure_def,
          value]
      simp only [List.cons_append, List.nil_append]
      rw [unescape?]
      simp only [show ('\\' : Char) ≠ '"' from by decide, if_false, if_true, hu]
      have h1 : isHighSurrogate c.toNat = false := by simp [isHighSurrogate]; omega
      have h2 : isLowSurrogate c.toNat = false := by simp [isLowSurrogate]; omega
      simp [h1, h2]
    · next hc =>
      have hq : c ≠ '"' := by rintro rfl; simp [shortEscape?] at h
      have hb : c ≠ '\\' := by rintro rfl; simp [shortEscape?] at h
      simp only [List.cons_append, List.nil_append]
      rw [unescape?.eq_def]
      simp [hq, hb, hc]

theorem unescape?_flatMap_escapeChar (text : List Char) :
    unescape? (text.flatMap escapeChar ++ ['"']) = some text := by
  induction text with
  | nil => simp [unescape?]
  | cons c text ih =>
    rw [List.flatMap_cons, List.append_assoc, unescape?_escapeChar, ih]
    rfl

/-- Reading what was written gives the string back. -/
theorem unquoteChars?_quoteChars (text : List Char) :
    unquoteChars? (quoteChars text) = some text :=
  unescape?_flatMap_escapeChar text

theorem unquote?_quote (text : String) : unquote? (quote text) = some text := by
  simp [unquote?, quote, unquoteChars?_quoteChars]

end StellarTx.Text.Quoted
