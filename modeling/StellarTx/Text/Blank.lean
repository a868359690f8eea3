/-
# White space, and cutting text at a character

Text is cut up as a list of characters.  `isBlank` is the Unicode property White_Space, `trim`
removes blanks at both ends, `splitOnce` cuts at the first occurrence of a character and `pieces`
at every one.  Main statements: where `splitOnce` cuts (`splitOnce_eq_some_iff`) and when it finds
nothing, and how `pieces` takes a text apart from the left (`pieces_append`).
-/

namespace StellarTx.Text

/-- The characters with the Unicode property White_Space. -/
def isBlank (c : Char) : Bool :=
  (0x09 ≤ c.val && c.val ≤ 0x0D) || c.val == 0x20 || c.val == 0x85 || c.val == 0xA0 ||
  c.val == 0x1680 || (0x2000 ≤ c.val && c.val ≤ 0x200A) || c.val == 0x2028 || c.val == 0x2029 ||
  c.val == 0x202F || c.val == 0x205F || c.val == 0x3000

/-- Text without the blanks it starts with. -/
def trimStart (text : List Char) : List Char :=
  text.dropWhile isBlank

/-- Text without the blanks it ends with. -/
def trimEnd (text : List Char) : List Char :=
  (trimStart text.reverse).reverse

/-- Text without the blanks at both ends. -/
def trim (text : List Char) : List Char :=
  trimEnd (trimStart text)

/-- What stands before and after the first occurrence of `sep`. -/
def splitOnce (sep : Char) : List Char → Option (List Char × List Char)
  | [] => none
  | c :: rest =>
    if c = sep then some ([], rest)
    else (splitOnce sep rest).map fun (before, after) => (c :: before, after)

/-- The pieces of a text between the occurrences of `sep`, empty ones included. -/
def pieces (sep : Char) : List Char → List (List Char)
  | [] => [[]]
  | c :: rest =>
    if c = sep then [] :: pieces sep rest
    else match pieces sep rest with
      | [] => [[c]]
      | piece :: more => (c :: piece) :: more

/-! ## Laws -/

/-- The printable characters of ASCII, but for the space, are not blank. -/
theorem isBlank_eq_false {c : Char} (lo : 32 < c.toNat) (hi : c.toNat < 133) :
    isBlank c = false := by
  have hval : c.val.toNat = c.toNat := rfl
  rw [Bool.eq_false_iff]
  intro h
  simp only [isBlank, Bool.or_eq_true, Bool.and_eq_true, decide_eq_true_eq, beq_iff_eq,
    UInt32.le_iff_toNat_le, ← UInt32.toNat_inj, UInt32.reduceToNat] at h
  omega

theorem trimStart_eq_self {text : List Char} (h : ∀ c ∈ text.head?, isBlank c = false) :
    trimStart text = text := by
  cases text with
  | nil => rfl
  | cons c rest => simp [trimStart, h c (by simp)]

/-- `splitOnce` cuts at an occurrence of the separator, and at the first one. -/
theorem splitOnce_eq_some_iff {sep : Char} {text before after : List Char} :
    splitOnce sep text = some (before, after) ↔
      text = before ++ sep :: after ∧ sep ∉ before := by
  induction text generalizing before with
  | nil => simp [splitOnce]
  | cons c rest ih =>
    unfold splitOnce
    by_cases h : c = sep
    · subst h
      cases before with
      | nil => simp
      | cons b before =>
        constructor
        · intro h; simp at h
        · rintro ⟨h, hb⟩; simp at h; simp [h.1] at hb
    · cases before with
      | nil => simp [h]
      | cons b before =>
        simp only [h, if_false, Option.map_eq_some_iff, Prod.exists, Prod.mk.injEq,
          List.cons.injEq, List.cons_append, List.mem_cons, not_or]
        constructor
        · rintro ⟨x, y, hxy, ⟨rfl, rfl⟩, rfl⟩
          obtain ⟨hr, hs⟩ := ih.mp hxy
          exact ⟨⟨rfl, hr⟩, fun h' => h h'.symm, hs⟩
        · rintro ⟨⟨rfl, hr⟩, _, hs⟩
          exact ⟨before, after, ih.mpr ⟨hr, hs⟩, ⟨rfl, rfl⟩, rfl⟩

theorem splitOnce_eq_none_iff {sep : Char} {text : List Char} :
    splitOnce sep text = none ↔ sep ∉ text := by
  induction text with
  | nil => simp [splitOnce]
  | cons c rest ih =>
    unfold splitOnce
    by_cases h : c = sep
    · simp [h]
    · simp [h, ih, Ne.symm h]

/-- The text up to a separator is the first piece, and what follows it is cut on its own. -/
theorem pieces_append {sep : Char} {text rest : List Char} (h : sep ∉ text) :
    pieces sep (text ++ sep :: rest) = text :: pieces sep rest := by
  induction text with
  | nil => simp [pieces]
  | cons c text ih =>
    simp only [List.mem_cons, not_or] at h
    simp [pieces, ih h.2, Ne.symm h.1]

end StellarTx.Text
