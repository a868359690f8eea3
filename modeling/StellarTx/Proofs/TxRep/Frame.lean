/-
# What reading depends on

Reading looks values up by path and nothing else.  Sources with the same value at every path are
therefore read alike, errors included (`Regular.congruent`).  A value that was read is read again
when fields are added (`Regular.steady`): the only question that a missing field answers is whether
an asset has an arm, so only a line whose path ends in `.type` can interfere.
-/
import StellarTx.Proofs.TxRep.Validity

namespace StellarTx

open TxRep (Source join item)

namespace TxRep.Source

variable {source source' : Source} {path : String}

/-! ## The same values -/

/-- Two sources have the same value at every path. -/
def Alike (source source' : Source) : Prop :=
  ∀ path, source'.get? path = source.get? path

/-- What stands at a path is a question about that path only. -/
theorem get_congr (h : source'.get? path = source.get? path) :
    source'.get path = source.get path := by
  rw [get, get, h]

/-- So is what it spells. -/
theorem value_congr {α : Type} {ofText? : String → Option α}
    (h : source'.get? path = source.get? path) :
    source'.value ofText? path = source.value ofText? path := by
  rw [value, value, get_congr h]

/-- So is whether anything stands there. -/
theorem contains_congr (h : source'.get? path = source.get? path) :
    source'.contains path = source.contains path := by
  rw [contains, contains, h]

/-- A length is asked for in the field `len`. -/
theorem length_congr {max : Nat}
    (h : source'.get? (join path "len") = source.get? (join path "len")) :
    source'.length max path = source.length max path := by
  rw [length, length, value_congr h]

/-! ## More fields -/

/-- Fields are added to a source, but no name of an arm below the root. -/
structure Grows (source source' : Source) : Prop where
  kept : ∀ path text, source.get? path = some text → source'.get? path = some text
  arms : ∀ path, path ≠ "" →
    source'.contains (join path "type") = source.contains (join path "type")

namespace Grows

variable (h : source.Grows source')

include h

/-- A text that was there still is. -/
theorem get {text : String} (hg : source.get path = .ok text) : source'.get path = .ok text :=
  get_eq_ok_iff.2 (h.kept _ _ (get_eq_ok_iff.1 hg))

/-- What a text spells does not change with the source. -/
theorem value {α : Type} {ofText? : String → Option α} {a : α}
    (hv : source.value ofText? path = .ok a) : source'.value ofText? path = .ok a := by
  obtain ⟨text, ht, ha⟩ := value_eq_ok_iff.1 hv
  exact value_eq_ok_iff.2 ⟨text, h.kept _ _ ht, ha⟩

/-- Neither does a length, nor its maximum. -/
theorem length {max k : Nat} (hk : source.length max path = .ok k) :
    source'.length max path = .ok k := by
  obtain ⟨hv, hle⟩ := length_eq_ok_iff.1 hk
  exact length_eq_ok_iff.2 ⟨h.value hv, hle⟩

end Grows

/-- The name of an arm stands in a field of that name. -/
theorem suffix_arm {path : String} (h : path ≠ "") :
    ".type".toList <:+ (join path "type").toList := by
  rw [TxRep.toList_join, TxRep.stem, if_neg h, List.append_assoc]
  exact List.suffix_append _ _

/-- A source grows by a line at a new path that is not the name of an arm. -/
theorem exists_parse_of_new_line {text text' : String} {front back : List (List Char)}
    {line : List Char} {path value : String} (h : parse text = .ok source)
    (hlines : linesOf text = front ++ back) (hlines' : linesOf text' = front ++ line :: back)
    (hfield : entry? line = some (some (path, value))) (hnew : path ∉ pathsOf text)
    (harm : ¬ ".type".toList <:+ path.toList) :
    ∃ source', parse text' = .ok source' ∧ source.Grows source' := by
  obtain ⟨ok, distinct, _⟩ := parse_eq_ok_iff.1 h
  have hperm : (linesOf text').Perm (line :: linesOf text) := by
    rw [hlines, hlines']
    exact List.perm_middle
  have hentries :
      (entries (linesOf text')).Perm (some (path, value) :: entries (linesOf text)) := by
    rw [← entries_cons hfield]
    exact hperm.filterMap _
  have hfields : (fieldsOn (linesOf text')).Perm ((path, value) :: fieldsOn (linesOf text)) := by
    rw [← fieldsOn_cons hfield]
    exact (hperm.filterMap _).filterMap _
  have hpaths : (pathsOf text').Perm (path :: pathsOf text) := hfields.map _
  have ok' : none ∉ entries (linesOf text') := by
    rw [hentries.mem_iff, List.mem_cons, not_or]
    exact ⟨nofun, ok⟩
  have distinct' := hpaths.nodup_iff.2 (List.nodup_cons.2 ⟨hnew, distinct⟩)
  have h' := parse_eq_ok_iff.2 ⟨ok', distinct', rfl⟩
  refine ⟨_, h', fun q text hq => ?_, fun q hne => ?_⟩
  · rw [get?_of_parse h', hfields.mem_iff]
    exact List.mem_cons_of_mem _ ((get?_of_parse h).1 hq)
  · have hother : join q "type" ≠ path := fun e => harm (e ▸ suffix_arm hne)
    rw [Bool.eq_iff_iff, contains_of_parse h', contains_of_parse h, hpaths.mem_iff, List.mem_cons]
    exact or_iff_right hother

end TxRep.Source

namespace Format

variable {α β : Type} {n : Nat} {F G : Places} {f : Format α} {g : Format β}

/-! ## Sources that are read alike -/

/-- With at most `n` levels, sources with the same values are read alike. -/
def Congruent (n : Nat) (f : Format α) : Prop :=
  ∀ source source' levels path, source.Alike source' → levels ≤ n →
    f.read source' levels path = f.read source levels path

namespace Congruent

/-- A value that is spelled by one text is read alike, and missed alike. -/
theorem of_value {ofText? : String → Option α}
    (h : ∀ source levels path, f.read source levels path = source.value ofText? path) :
    Congruent n f := by
  intro source source' levels path alike _
  rw [h, h]
  exact Source.value_congr (alike path)

/-- Both parts are read alike, from the first on which either source is refused. -/
theorem and (h : Congruent n f) (k : Congruent n g) : Congruent n (f.and g) := by
  intro source source' levels path alike hn
  show (f.read source' levels path >>= fun a => g.read source' levels path >>= _) = _
  rw [h source source' levels path alike hn, k source source' levels path alike hn]
  rfl

/-- What is made of a value does not depend on the source. -/
theorem map {make : α → β} {parts : β → α} {h₁ : ∀ a, parts (make a) = a}
    {h₂ : ∀ b, make (parts b) = b} (h : Congruent n f) :
    Congruent n (map f make parts h₁ h₂) := by
  intro source source' levels path alike hn
  show make <$> f.read source' levels path = make <$> f.read source levels path
  rw [h source source' levels path alike hn]

/-- The flag is the same, so both sources read the value or neither does. -/
theorem option (h : Congruent n f) : Congruent n (option f) := by
  intro source source' levels path alike hn
  have hpresent : source'.present path = source.present path := Source.value_congr (alike _)
  show (source'.present path >>= _) = (source.present path >>= _)
  rw [hpresent, h source source' levels path alike hn]

/-- The items are read alike one by one; the induction is on how many there are. -/
theorem items (h : Congruent n f) {source source' : Source} (alike : source.Alike source')
    {levels : Nat} (hn : levels ≤ n) (path : String) (i k : Nat) :
    f.readItems source' levels path i k = f.readItems source levels path i k := by
  induction k generalizing i with
  | zero => rfl
  | succ k ih => rw [readItems, readItems, h source source' levels _ alike hn, ih]

/-- The number of items is the same, and then so are the items. -/
theorem array (h : Congruent n f) (max : Nat) : Congruent n (array max f) := by
  intro source source' levels path alike hn
  show (source'.length max path >>= _) = (source.length max path >>= _)
  rw [Source.length_congr (alike _)]
  congr 1
  funext k
  exact h.items alike hn path 0 k

/-- Sources have no part in how many levels are left. -/
theorem deeper (h : ∀ m, n = m + 1 → Congruent m f) : Congruent n (deeper f) := by
  intro source source' levels path alike hn
  cases levels with
  | zero => rfl
  | succ levels => exact h (n - 1) (by omega) source source' levels path alike (by omega)

/-- The label is the same, and finds the same arm. -/
theorem union {arms : List (Arm α)} (h : ∀ arm ∈ arms, Congruent n arm.format) (name : String) :
    Congruent n (union name arms) := by
  intro source source' levels path alike hn
  have harm : source'.arm path = source.arm path := Source.get_congr (alike _)
  rw [read_union, read_union, harm]
  congr 1
  funext label
  cases hf : arms.find? (·.label == label) with
  | none => rfl
  | some arm =>
    rw [Option.elim_some, Option.elim_some,
      h arm (List.mem_of_find?_eq_some hf) source source' levels path alike hn]

/-- Whether there is a label is a question that both sources answer alike. -/
theorem assetOrShare {π : Type} {pool : Format π} (h : Congruent n Asset.format)
    (k : Congruent n pool) (name : String) : Congruent n (AssetOrShare.format name pool) := by
  intro source source' levels path alike hn
  have hcontains := Source.contains_congr (alike (join path "type"))
  cases hc : source.contains (join path "type") with
  | false =>
    rw [AssetOrShare.read_of_not_contains hc,
      AssetOrShare.read_of_not_contains (hcontains.trans hc),
      h source source' levels path alike hn]
  | true =>
    rw [AssetOrShare.read_of_contains hc, AssetOrShare.read_of_contains (hcontains.trans hc)]
    refine Congruent.union (fun arm ha => ?_) name source source' levels path alike hn
    rw [List.mem_singleton.1 ha]
    exact k

end Congruent

/-- Reading depends on the values at paths alone. -/
theorem Regular.congruent (h : Regular n F f) : Congruent n f := by
  induction h with
  | unit => exact fun _ _ _ _ _ _ => rfl
  | scalar h => cases h <;> exact .of_value fun _ _ _ => rfl
  | octets k => exact .of_value fun _ _ _ => rfl
  | bytes small => exact .of_value fun _ _ _ => rfl
  | string small => exact .of_value fun _ _ _ => rfl
  | extension name =>
    intro source source' levels path alike _
    show (source'.get _ >>= _) = (source.get _ >>= _)
    rw [Source.get_congr (alike _)]
  | field name _ _ ih => exact fun source source' levels path => ih source source' levels _
  | and _ _ _ ih ih' => exact ih.and ih'
  | map _ ih => exact ih.map
  | option _ _ ih => exact ih.option
  | array _ _ _ ih => exact ih.array _
  | deeper _ ih => exact .deeper ih
  | token _ _ _ _ => exact .of_value fun _ _ _ => rfl
  | union name _ _ _ _ ih => exact .union ih name
  | assetOrShare name _ _ _ _ _ _ ih _ ih' => exact ih.assetOrShare ih' name
  | widen _ _ ih => exact ih

end Format

/-- Every wire type is read alike from sources with the same values. -/
theorem WireType.congruent (t : WireType) (n : Nat) : Format.Congruent n t.format := by
  induction t using induct generalizing n with
  | option t ih => exact (ih n).option
  | boxed t ih => exact .deeper fun m _ => ih m
  | named t ht =>
    obtain ⟨F, hF, _⟩ := free_of_isNamed t ht
    exact (hF n).congruent

namespace Format

variable {α β : Type} {n : Nat} {F G : Places} {f : Format α} {g : Format β}

/-! ## Reading again from more -/

/-- What is read with at most `n` levels is read again when a source grows. -/
def Steady (n : Nat) (F : Places) (f : Format α) : Prop :=
  ∀ source source' levels path a, levels ≤ n → (F.here = true → path ≠ "") → source.Grows source' →
    f.read source levels path = .ok a → f.read source' levels path = .ok a

namespace Steady

/-- A value that is spelled by one text. -/
theorem of_value {ofText? : String → Option α}
    (h : ∀ source levels path, f.read source levels path = source.value ofText? path) :
    Steady n F f := by
  intro source source' levels path a _ _ grows hr
  rw [h] at hr ⊢
  exact grows.value hr

/-- The places tell which path the parts are read at: one that stands at its own path is not at the
root. -/
theorem and (h : Steady n F f) (k : Steady n G g) : Steady n (F.union G) (f.and g) := by
  intro source source' levels path p hn hne grows hr
  obtain ⟨ha, hb⟩ := read_and_eq_ok_iff.1 hr
  have hneF := fun e => hne ((Places.sub_union_left F G).1 e)
  have hneG := fun e => hne ((Places.sub_union_right F G).1 e)
  exact read_and_eq_ok_iff.2 ⟨h source source' levels path _ hn hneF grows ha,
    k source source' levels path _ hn hneG grows hb⟩

/-- The flag stands in a field, so it is there at the root as well. -/
theorem option (h : Steady n F f) : Steady n (F.union (.under "_present")) (option f) := by
  intro source source' levels path o hn hne grows hr
  obtain ⟨hp, ha⟩ := read_option_eq_ok_iff.1 hr
  have hneF := fun e => hne ((Places.sub_union_left F _).1 e)
  exact read_option_eq_ok_iff.2 ⟨grows.value hp, fun a hm =>
    h source source' levels path a hn hneF grows (ha a hm)⟩

/-- No item is at the root. -/
theorem array (h : Steady n F f) (max : Nat) : Steady n .listed (array max f) := by
  intro source source' levels path items hn _ grows hr
  obtain ⟨hlength, hitems⟩ := read_array_eq_ok_iff.1 hr
  refine read_array_eq_ok_iff.2 ⟨grows.length hlength, fun j a hj => ?_⟩
  have hne : F.here = true → item path j ≠ "" := fun _ => TxRep.item_ne_empty path j
  exact h source source' levels _ a hn hne grows (hitems j a hj)

/-- The label of a union is read, never asked for, so a field that is added cannot interfere. -/
theorem union {arms : List (Arm α)} (h : ∀ arm ∈ arms, Steady n F arm.format) (name : String) :
    Steady n (F.union (.under "type")) (union name arms) := by
  intro source source' levels path a hn hne grows hr
  obtain ⟨arm, hf, hl, p, hp, rfl⟩ := read_union_eq_ok_iff.1 hr
  have hneF := fun e => hne ((Places.sub_union_left F _).1 e)
  have harm := h arm (List.mem_of_find?_eq_some hf) source source' levels path p hn hneF grows hp
  exact read_union_eq_ok_iff.2 ⟨arm, hf, grows.get hl, p, harm, rfl⟩

/-- The arm of an asset is there before if it is there afterwards. -/
theorem assetOrShare {π : Type} {pool : Format π} (h : Steady n .itself Asset.format)
    (k : Steady n F pool) (name : String) :
    Steady n (AssetOrShare.places F) (AssetOrShare.format name pool) := by
  intro source source' levels path a hn hne grows hr
  have hpath : path ≠ "" := hne rfl
  rw [AssetOrShare.read_eq_ok_iff] at hr ⊢
  rw [grows.arms path hpath]
  rcases hr with ⟨hc, hl, s, hs, rfl⟩ | ⟨hc, b, hb, rfl⟩
  · have hpool := k source source' levels path s hn (fun _ => hpath) grows hs
    exact Or.inl ⟨hc, grows.get hl, s, hpool, rfl⟩
  · have hasset := h source source' levels path b hn (fun _ => hpath) grows hb
    exact Or.inr ⟨hc, b, hasset, rfl⟩

end Steady

/-- What a regular format has read is read again from a source that has grown. -/
theorem Regular.steady (h : Regular n F f) : Steady n F f := by
  induction h with
  | unit => exact fun _ _ _ _ _ _ _ _ hr => hr
  | scalar h => cases h <;> exact .of_value fun _ _ _ => rfl
  | octets k => exact .of_value fun _ _ _ => rfl
  | bytes small => exact .of_value fun _ _ _ => rfl
  | string small => exact .of_value fun _ _ _ => rfl
  | extension name =>
    intro source source' levels path a _ _ grows hr
    obtain ⟨version, hv, hr⟩ := Except.bind_eq_ok_iff.1 hr
    exact Except.bind_eq_ok_iff.2 ⟨version, grows.get hv, hr⟩
  | field name _ plain ih =>
    exact fun source source' levels path a hn _ =>
      ih source source' levels _ a hn fun _ => TxRep.join_ne_empty path plain
  | and _ _ _ ih ih' => exact ih.and ih'
  | map _ ih =>
    exact fun source source' levels path b hn hne grows hr =>
      read_map_eq_ok_iff.2 (ih source source' levels path _ hn hne grows (read_map_eq_ok_iff.1 hr))
  | option _ _ ih => exact ih.option
  | array _ _ _ ih => exact ih.array _
  | @deeper n F α f _ ih =>
    intro source source' levels path a hn hne grows hr
    obtain ⟨m, rfl, hr⟩ := read_deeper_eq_ok_iff.1 hr
    have hr' := ih (n - 1) (by omega) source source' m path a (by omega) hne grows hr
    exact read_deeper_eq_ok_iff.2 ⟨m, rfl, hr'⟩
  | token _ _ _ _ => exact .of_value fun _ _ _ => rfl
  | union name _ _ _ _ ih => exact .union ih name
  | assetOrShare name _ _ _ _ _ _ ih _ ih' => exact ih.assetOrShare ih' name
  | widen sub _ ih =>
    exact fun source source' levels path a hn hne => ih source source' levels path a hn
      fun e => hne (sub.1 e)

end Format

/-! ## Unrelated lines -/

namespace Envelope

/-- A line whose path is new and does not end in `.type` changes nothing about the envelope that a
text stands for, wherever it is put.  A line `type` below the root can matter because what trust is
given in, and what a trust line holds, is a share of a pool exactly if that line is there. -/
theorem ofText_of_new_line {text text' : String} {env : Envelope} {front back : List (List Char)}
    {line : List Char} {path value : String} (hread : ofText text = .ok env)
    (hlines : Source.linesOf text = front ++ back)
    (hlines' : Source.linesOf text' = front ++ line :: back)
    (hfield : Source.entry? line = some (some (path, value))) (hnew : path ∉ Source.pathsOf text)
    (harm : ¬ ".type".toList <:+ path.toList) :
    ofText text' = .ok env ∧
    (∀ source levels path (a : ChangeTrustAsset),
      ChangeTrustAsset.format.read source levels path = .ok a →
        ((∃ pool, a = .share pool) ↔ source.contains (join path "type") = true)) ∧
    (∀ source levels path (a : TrustLineAsset),
      TrustLineAsset.format.read source levels path = .ok a →
        ((∃ pool, a = .share pool) ↔ source.contains (join path "type") = true)) := by
  obtain ⟨source, hparse, hr⟩ := Except.bind_eq_ok_iff.1 hread
  obtain ⟨source', hparse', grows⟩ :=
    Source.exists_parse_of_new_line hparse hlines hlines' hfield hnew harm
  have hregular : Format.Regular TxRep.maxLevels _ format := Envelope.outlined rfl
  have hr' := hregular.steady source source' _ "" env (Nat.le_refl _) nofun grows hr
  exact ⟨Except.bind_eq_ok_iff.2 ⟨source', hparse', hr'⟩,
    fun _ _ _ _ => AssetOrShare.exists_share_iff, fun _ _ _ _ => AssetOrShare.exists_share_iff⟩

/-- A line for something that is no part of an envelope. -/
def strayLine : String :=
  "network.passphrase: \"Test SDF Network\" (no field: of none)"

/-- The text of `idle` behind a line that is no part of it, and what it stands for. -/
theorem ofText_of_new_line_idle :
    ofText idle.toText = .ok idle ∧ "network.passphrase" ∉ Source.pathsOf idle.toText ∧
      ofText (strayLine ++ "\n" ++ idle.toText) = .ok idle := by
  have hread : ofText idle.toText = .ok idle :=
    (Format.Regular.toText_spec (fun n => Envelope.outlined rfl) cleanAt_root idle).1 _ rfl
      (by decide)
  have hnew : "network.passphrase" ∉ Source.pathsOf idle.toText := by
    have hclean := (Format.Regular.clean_print (fun n => Envelope.outlined rfl) cleanAt_root idle).1
    rw [toText, Format.toText, Source.pathsOf_render hclean]
    decide +kernel
  have hlines : Source.linesOf (strayLine ++ "\n" ++ idle.toText) =
      [] ++ strayLine.toList :: Source.linesOf idle.toText := by
    have hend : "\n".toList = ['\n'] := rfl
    have hline : '\n' ∉ strayLine.toList := by decide +kernel
    rw [Source.linesOf, String.toList_append, String.toList_append, List.append_assoc, hend,
      List.singleton_append, Text.pieces_append hline, List.nil_append, Source.linesOf]
  have hfield : Source.entry? strayLine.toList =
      some (some ("network.passphrase", "\"Test SDF Network\"")) := by decide
  exact ⟨hread, hnew, (ofText_of_new_line hread (List.nil_append _).symm hlines hfield hnew
    (by decide)).1⟩

end Envelope

end StellarTx
