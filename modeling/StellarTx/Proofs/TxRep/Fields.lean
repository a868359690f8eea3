/-
# The fields of a text

What the parser accepts, in one statement: no line is in error and no path stands on two lines
(`parse_eq_ok_iff`).  The fields are then those that the lines hold one by one, so texts whose lines
hold the same fields, in any order, read alike (`exists_parse_of_perm`).
-/
import StellarTx.Proofs.Result
import StellarTx.TxRep.Source

namespace StellarTx.TxRep.Source

/-! ## Lines one by one -/

/-- The lines of a text. -/
def linesOf (text : String) : List (List Char) :=
  Text.pieces '\n' text.toList

/-- What a line holds: nothing if it is blank, and otherwise its field, if it is well formed. -/
def entry? (line : List Char) : Option (Option (String × String)) :=
  if Text.trim line = [] then none else some (fieldOfLine? (Text.trim line))

/-- What the lines hold that are not blank. -/
def entries (lines : List (List Char)) : List (Option (String × String)) :=
  lines.filterMap entry?

/-- The fields on well-formed lines. -/
def fieldsOn (lines : List (List Char)) : List (String × String) :=
  (entries lines).filterMap id

/-- The paths on the lines of a text. -/
def pathsOf (text : String) : List String :=
  (fieldsOn (linesOf text)).map (·.1)

variable {source : Source} {number : Nat} {line : List Char} {lines : List (List Char)}

/-- A blank line only counts as a line. -/
theorem addLines_of_blank (h : entry? line = none) :
    source.addLines number (line :: lines) = source.addLines (number + 1) lines := by
  unfold entry? at h
  split at h
  · next hblank => rw [addLines, if_pos hblank]
  · cases h

/-- The error for a line says which one it is, and what follows is not looked at. -/
theorem addLines_of_malformed (h : entry? line = some none) :
    source.addLines number (line :: lines) = .error (.line number) := by
  unfold entry? at h
  split at h
  · cases h
  · next hblank => rw [addLines, if_neg hblank, Option.some.inj h]

/-- A field is added unless there is one at its path. -/
theorem addLines_of_field {path value : String} (h : entry? line = some (some (path, value))) :
    source.addLines number (line :: lines) =
      if source.contains path then .error (.duplicate path)
      else addLines ⟨(path, value) :: source.fields⟩ (number + 1) lines := by
  unfold entry? at h
  split at h
  · cases h
  · next hblank => rw [addLines, if_neg hblank, Option.some.inj h]

/-- Lines are added one after another. -/
theorem addLines_append (more : List (List Char)) :
    source.addLines number (lines ++ more) =
      source.addLines number lines >>= fun s => s.addLines (number + lines.length) more := by
  induction lines generalizing source number with
  | nil => rfl
  | cons line lines ih =>
    have hnumber : number + 1 + lines.length = number + (line :: lines).length := by
      rw [List.length_cons]
      omega
    rw [List.cons_append]
    rcases h : entry? line with _ | _ | ⟨path, value⟩
    · rw [addLines_of_blank h, addLines_of_blank h, ih, hnumber]
    · rw [addLines_of_malformed h, addLines_of_malformed h]
      rfl
    · rw [addLines_of_field h, addLines_of_field h]
      split
      · rfl
      · rw [ih, hnumber]

/-! ## Looking up -/

/-- A source has a field at the paths of its fields. -/
theorem get?_eq_none_iff {path : String} :
    source.get? path = none ↔ ∀ field ∈ source.fields, field.1 ≠ path := by
  rw [get?, List.lookup_eq_none_iff]
  exact forall₂_congr fun field _ => by rw [bne_iff_ne, ne_comm]

/-- Whether a field is there can be told from the paths. -/
theorem contains_iff {path : String} :
    source.contains path = true ↔ path ∈ source.fields.map (·.1) := by
  rw [contains, Option.isSome_iff_ne_none, Ne, get?_eq_none_iff]
  simp

/-- A source whose paths differ gives every field as it stands. -/
theorem get?_eq_some_iff (distinct : (source.fields.map (·.1)).Nodup) {path value : String} :
    source.get? path = some value ↔ (path, value) ∈ source.fields := by
  rw [get?, List.lookup_eq_some_iff]
  constructor
  · rintro ⟨before, after, h, _⟩
    rw [h]
    exact List.mem_append_right _ (List.mem_cons_self ..)
  · intro hm
    obtain ⟨before, after, h⟩ := List.append_of_mem hm
    refine ⟨before, after, h, fun field hfield => bne_iff_ne.2 fun e => ?_⟩
    -- Another field at this path stands before it.
    rw [h, List.map_append, List.nodup_append] at distinct
    exact distinct.2.2 _ (List.mem_map_of_mem hfield) _ (List.mem_cons_self ..) e.symm

/-- Sources with the same fields in another order give the same values. -/
theorem get?_eq_of_perm {other : Source} (distinct : (source.fields.map (·.1)).Nodup)
    (h : other.fields.Perm source.fields) (path : String) : other.get? path = source.get? path := by
  have hother : (other.fields.map (·.1)).Nodup := (h.map _).nodup_iff.2 distinct
  apply Option.ext
  intro value
  rw [get?_eq_some_iff hother, get?_eq_some_iff distinct, h.mem_iff]

/-- To look up a text is to find it. -/
theorem get_eq_ok_iff {path text : String} :
    source.get path = .ok text ↔ source.get? path = some text := by
  rw [get]
  cases source.get? path with
  | none => exact iff_of_false nofun nofun
  | some text' => rw [Except.ok.injEq, Option.some.injEq]

/-- A value is read if there is a text at the path that spells it. -/
theorem value_eq_ok_iff {α : Type} {ofText? : String → Option α} {path : String} {a : α} :
    source.value ofText? path = .ok a ↔
      ∃ text, source.get? path = some text ∧ ofText? text = some a := by
  rw [value, Except.bind_eq_ok_iff]
  refine exists_congr fun text => and_congr get_eq_ok_iff ?_
  -- What is left is that the text spells the value.
  cases ofText? text with
  | none => exact iff_of_false nofun nofun
  | some b =>
    exact ⟨fun h => congrArg some (Except.ok.inj h), fun h => congrArg _ (Option.some.inj h)⟩

/-- A length is read if there is a number in its field and it is not too large. -/
theorem length_eq_ok_iff {path : String} {max k : Nat} :
    source.length max path = .ok k ↔
      source.value (Text.Decimal.natural? UInt64.size) (join path "len") = .ok k ∧ k ≤ max := by
  rw [length, Except.bind_eq_ok_iff]
  constructor
  · rintro ⟨k', hv, hk⟩
    by_cases hlt : max < k'
    · rw [if_pos hlt] at hk
      cases hk
    · rw [if_neg hlt] at hk
      cases hk
      exact ⟨hv, Nat.le_of_not_lt hlt⟩
  · rintro ⟨hv, hle⟩
    refine ⟨k, hv, ?_⟩
    rw [if_neg (Nat.not_lt_of_le hle)]
    rfl

/-- A text that is not there is missed. -/
theorem get_of_none {path : String} (h : source.get? path = none) :
    source.get path = .error (.missing path) := by
  rw [get, h]

/-- So is a value, before anything could be spelled wrong. -/
theorem value_of_none {α : Type} {ofText? : String → Option α} {path : String}
    (h : source.get? path = none) : source.value ofText? path = .error (.missing path) := by
  rw [value, get_of_none h]
  rfl

/-- A length is missed in its own field. -/
theorem length_of_none {path : String} {max : Nat} (h : source.get? (join path "len") = none) :
    source.length max path = .error (.missing (join path "len")) := by
  rw [length, value_of_none h]
  rfl

/-- What was looked up is there. -/
theorem contains_of_get {path text : String} (h : source.get path = .ok text) :
    source.contains path = true := by
  rw [contains, get_eq_ok_iff.1 h]
  rfl

/-- A value that was read was there. -/
theorem contains_of_value {α : Type} {ofText? : String → Option α} {path : String} {a : α}
    (h : source.value ofText? path = .ok a) : source.contains path = true := by
  obtain ⟨text, ht, _⟩ := value_eq_ok_iff.1 h
  exact contains_of_get (get_eq_ok_iff.2 ht)

/-! ## What is accepted -/

/-- A blank line holds nothing. -/
theorem entries_cons_of_blank (h : entry? line = none) : entries (line :: lines) = entries lines :=
  List.filterMap_cons_none h

/-- A line that is not blank holds its entry, well formed or not. -/
theorem entries_cons {field : Option (String × String)} (h : entry? line = some field) :
    entries (line :: lines) = field :: entries lines :=
  List.filterMap_cons_some h

/-- A line with a field holds it. -/
theorem fieldsOn_cons {field : String × String} (h : entry? line = some (some field)) :
    fieldsOn (line :: lines) = field :: fieldsOn lines := by
  rw [fieldsOn, entries_cons h]
  rfl

/-- Behind a new field, the paths that are still new are those that differ from it. -/
theorem get?_cons_eq_none_iff {path value path' : String} :
    get? ⟨(path, value) :: source.fields⟩ path' = none ↔
      path ≠ path' ∧ source.get? path' = none := by
  rw [get?_eq_none_iff, get?_eq_none_iff, List.forall_mem_cons]

/-- Lines are added if none is in error, and their paths are new and differ. -/
theorem addLines_eq_ok_iff {result : Source} :
    source.addLines number lines = .ok result ↔
      none ∉ entries lines ∧ ((fieldsOn lines).map (·.1)).Nodup ∧
        (∀ field ∈ fieldsOn lines, source.get? field.1 = none) ∧
        result = ⟨(fieldsOn lines).reverse ++ source.fields⟩ := by
  induction lines generalizing source number with
  | nil => simp [addLines, entries, fieldsOn, eq_comm]
  | cons line lines ih =>
    rcases h : entry? line with _ | _ | ⟨path, value⟩
    · rw [addLines_of_blank h, ih, fieldsOn, fieldsOn, entries_cons_of_blank h]
    · rw [addLines_of_malformed h, entries_cons h]
      simp
    · rw [addLines_of_field h, fieldsOn_cons h, entries_cons h]
      split
      · next hc =>
        have hsome : source.get? path ≠ none := Option.isSome_iff_ne_none.1 hc
        simp [hsome]
      · next hc =>
        have hnone : source.get? path = none := Option.not_isSome_iff_eq_none.1 hc
        have hnew : (∀ field ∈ fieldsOn lines,
            get? ⟨(path, value) :: source.fields⟩ field.1 = none) ↔
            path ∉ (fieldsOn lines).map (·.1) ∧
              ∀ field ∈ fieldsOn lines, source.get? field.1 = none := by
          simp only [get?_cons_eq_none_iff, List.mem_map, not_exists, not_and, ← forall_and,
            ne_comm (a := path)]
        rw [ih, hnew, List.map_cons, List.nodup_cons, List.forall_mem_cons, List.reverse_cons,
          List.append_assoc, List.mem_cons, not_or]
        constructor
        · rintro ⟨hok, hd, ⟨hn, hs⟩, hr⟩
          exact ⟨⟨nofun, hok⟩, ⟨hn, hd⟩, ⟨hnone, hs⟩, hr⟩
        · rintro ⟨⟨_, hok⟩, ⟨hn, hd⟩, ⟨_, hs⟩, hr⟩
          exact ⟨hok, hd, ⟨hn, hs⟩, hr⟩

/-- A text is accepted if no line is in error and no path stands on two lines. -/
theorem parse_eq_ok_iff {text : String} :
    parse text = .ok source ↔
      none ∉ entries (linesOf text) ∧ (pathsOf text).Nodup ∧
        source = ⟨(fieldsOn (linesOf text)).reverse⟩ := by
  have h : addLines ⟨[]⟩ 1 (linesOf text) = .ok source ↔ _ := addLines_eq_ok_iff
  rw [List.append_nil] at h
  refine h.trans ?_
  simp [get?, pathsOf]

/-- No path stands twice in the source of a text. -/
theorem nodup_of_parse {text : String} (h : parse text = .ok source) :
    (source.fields.map (·.1)).Nodup := by
  obtain ⟨_, distinct, rfl⟩ := parse_eq_ok_iff.1 h
  exact ((List.reverse_perm _).map _).nodup_iff.2 distinct

/-- The paths of the source are those of the text. -/
theorem contains_of_parse {text : String} (h : parse text = .ok source) {path : String} :
    source.contains path = true ↔ path ∈ pathsOf text := by
  obtain ⟨_, _, rfl⟩ := parse_eq_ok_iff.1 h
  rw [contains_iff, List.map_reverse, List.mem_reverse, pathsOf]

/-- The source of a text has the fields of its lines. -/
theorem get?_of_parse {text : String} (h : parse text = .ok source) {path value : String} :
    source.get? path = some value ↔ (path, value) ∈ fieldsOn (linesOf text) := by
  rw [get?_eq_some_iff (nodup_of_parse h)]
  obtain ⟨_, _, rfl⟩ := parse_eq_ok_iff.1 h
  exact List.mem_reverse

/-- A text whose lines hold the same fields as those of an accepted one, in any order, is accepted
and gives the same values. -/
theorem exists_parse_of_perm {text text' : String} (h : parse text = .ok source)
    (perm : (entries (linesOf text')).Perm (entries (linesOf text))) :
    ∃ source', parse text' = .ok source' ∧ ∀ path, source'.get? path = source.get? path := by
  obtain ⟨ok, distinct, rfl⟩ := parse_eq_ok_iff.1 h
  have hfields : (fieldsOn (linesOf text')).Perm (fieldsOn (linesOf text)) := perm.filterMap id
  have ok' : none ∉ entries (linesOf text') := fun hm => ok (perm.mem_iff.1 hm)
  have hpaths : (pathsOf text').Perm (pathsOf text) := hfields.map _
  have distinct' : (pathsOf text').Nodup := hpaths.nodup_iff.2 distinct
  refine ⟨_, parse_eq_ok_iff.2 ⟨ok', distinct', rfl⟩, get?_eq_of_perm (nodup_of_parse h) ?_⟩
  exact (List.reverse_perm _).trans (hfields.trans (List.reverse_perm _).symm)

end StellarTx.TxRep.Source
