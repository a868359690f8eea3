/-
# Every line counts

Writing a value and reading it visit the same paths.  Without any one of the lines of a value the
rest is refused, and the error names the path of that line (`Regular.missed`).  The one exception is
the name of a pool share: where it is missing, an asset is looked for instead, and it is the asset
that is missed.  So no line of a text is ignored, and no value is made up for one that is not there.
-/
import StellarTx.Proofs.Format.Parts
import StellarTx.Proofs.Format.Writable
import StellarTx.Proofs.TxRep.RoundTrip

namespace StellarTx

open TxRep (Line Source join item)

/-! ## Lines taken out -/

namespace TxRep

/-- The path that is missed without a line: its own, but for the name of a pool share, which is
missed as the asset in its place. -/
inductive Lacks (line : Line) : String → Prop where
  | own (h : line.value ≠ AssetOrShare.shareLabel) : Lacks line line.path
  | share (path : String) (h : line = .arm path AssetOrShare.shareLabel) : Lacks line path

/-- A word that is not the label of a share is missed at its own path. -/
theorem Lacks.word {path text : String} (h : text ≠ AssetOrShare.shareLabel) :
    Lacks (.field path text) path :=
  .own h

/-- The lines but for those at a path. -/
def without (gone : String) (lines : List Line) : List Line :=
  lines.filter fun line => line.path ≠ gone

variable {gone : String} {line : Line} {lines more : List Line}

/-- A line stays unless it is at that path. -/
theorem mem_without : line ∈ without gone lines ↔ line ∈ lines ∧ line.path ≠ gone := by
  rw [without, List.mem_filter, decide_eq_true_iff]

/-- Lines are taken out of each part. -/
theorem without_append :
    without gone (lines ++ more) = without gone lines ++ without gone more :=
  List.filter_append ..

/-- A line at another path stays. -/
theorem without_cons (h : line.path ≠ gone) :
    without gone (line :: lines) = line :: without gone lines :=
  List.filter_cons_of_pos (decide_eq_true h)

/-- A line at that path goes, and so do those behind it that share the path. -/
theorem without_cons_self : without line.path (line :: lines) = without line.path lines :=
  List.filter_cons_of_neg (by simp)

/-- Nothing is taken out where no line is at that path. -/
theorem without_eq_self (h : ∀ line ∈ lines, line.path ≠ gone) : without gone lines = lines :=
  List.filter_eq_self.2 fun line hl => decide_eq_true (h line hl)

/-- Where all paths differ, just the one line is taken out. -/
theorem without_middle (distinct : ((lines ++ line :: more).map (·.path)).Nodup) :
    without line.path (lines ++ line :: more) = lines ++ more := by
  rw [List.map_append, List.map_cons, List.nodup_append, List.nodup_cons] at distinct
  obtain ⟨_, ⟨hmore, _⟩, hlines⟩ := distinct
  rw [without_append, without_cons_self, without_eq_self, without_eq_self]
  · exact fun l hl e => hmore (e ▸ List.mem_map_of_mem hl)
  · exact fun l hl e =>
      hlines _ (List.mem_map_of_mem hl) _ (List.mem_cons_self ..) e

namespace Source

variable {source : Source} {path : String}

/-- A source has no field where a line was taken out. -/
theorem get?_gone {F : Places} (h : source.Shows F path (without gone lines))
    (hm : F.Mem path gone) : source.get? gone = none :=
  h.absent gone hm fun _ hl => (mem_without.1 hl).2

/-- The line of a field is still there if a line at another place was taken out. -/
theorem shows_tail {F : Places} {name : String} {first : Line}
    (h : source.Shows (F.union (.under name)) path (without line.path (first :: lines)))
    (plain : IsPlain name) (apart : name ∉ F.names) (hfirst : first.path = join path name)
    (hl : F.Mem path line.path) :
    source.get? first.path = some first.value ∧ source.Shows F path (without line.path lines) := by
  have hne : first.path ≠ line.path := fun e => by
    have hunder := Places.mem_under plain (within_refl (join path name))
    rw [← hfirst, e] at hunder
    exact (Places.apart_under apart).not_mem hl hunder
  rw [without_cons hne] at h
  exact ⟨h.found _ (List.mem_cons_self ..), h.tail plain apart hfirst⟩

end Source

end TxRep

open TxRep (Lacks without)

/-! ## What is missed -/

namespace Format

variable {α β : Type} {n : Nat} {F G : Places} {f : Format α} {g : Format β}

/-- Whatever line of a value down to `n` levels a source does not show, that line is missed. -/
def Missed (n : Nat) (F : Places) (f : Format α) : Prop :=
  ∀ a source levels path line, f.level a ≤ n → f.level a ≤ levels → f.Writable a →
    line ∈ f.print a path → source.Shows F path (without line.path (f.print a path)) →
    ∃ q, Lacks line q ∧ f.read source levels path = .error (.missing q)

namespace Missed

/-- A value on one line, which no reader takes for the name of a pool share. -/
theorem of_line (h : ∀ a path, f.Writable a → ∃ (line : Line) (ofText? : String → Option α),
      f.print a path = [line] ∧ line.path = path ∧ ofText? line.value = some a ∧
      ofText? AssetOrShare.shareLabel = none ∧
      ∀ source levels, f.read source levels path = Source.value ofText? source path) :
    Missed n .itself f := by
  intro a source levels path line _ _ hb hl hs
  obtain ⟨only, ofText?, hprint, hpath, hback, hown, hread⟩ := h a path hb
  rw [hprint] at hl hs
  obtain rfl := List.mem_singleton.1 hl
  have hvalue : line.value ≠ AssetOrShare.shareLabel := fun e => by
    rw [e, hown] at hback
    cases hback
  subst hpath
  refine ⟨line.path, .own hvalue, ?_⟩
  rw [hread, Source.value_of_none (Source.get?_gone hs (Places.mem_itself _))]

/-- No number is written like the label of a share. -/
theorem scalar (h : Scalar f) : Missed n .itself f :=
  .of_line fun a path _ => (h.exists_line a).2.2 path

/-- No digits of bytes are either. -/
theorem octets (k : Nat) : Missed n .itself (octets k) := by
  refine .of_line fun a path _ => ⟨_, _, rfl, rfl, ?_, rfl, fun _ _ => rfl⟩
  show (Text.Hex.decode? (Text.Hex.encode a.toList)).bind _ = some a
  rw [Text.Hex.decode?_encode]
  exact Octets.ofList?_toList a

/-- Only a byte string that has bytes reads back, and is then told from the label. -/
theorem bytes {max : Nat} (small : max < UInt32.size) : Missed n .itself (bytes max) := by
  refine .of_line fun data path hb => ⟨_, _, rfl, rfl, ?_, rfl, fun _ _ => rfl⟩
  have hle := (writable_bytes_iff small).1 hb
  show (Text.Hex.decode? (Text.Hex.encode data)).filter _ = some data
  rw [Text.Hex.decode?_encode]
  simp [hle]

/-- A text is in quotes, which the label is not. -/
theorem string {max : Nat} (small : max < UInt32.size) : Missed n .itself (string max) := by
  refine .of_line fun s path hb => ⟨_, _, rfl, rfl, ?_, rfl, fun _ _ => rfl⟩
  have hle := (writable_string_iff small).1 hb
  show (Text.Quoted.unquote? (Text.Quoted.quote s)).filter _ = some s
  rw [Text.Quoted.unquote?_quote]
  simp [hle]

/-- A word of this type reads back as a value, and the label of a share does not. -/
theorem token {text : α → String} {ofText? : String → Option α} (fits : Token f text ofText?)
    (own : ofText? AssetOrShare.shareLabel = none) : Missed n .itself (token f text ofText?) := by
  refine .of_line fun a path hb => ?_
  obtain ⟨bytes, hb⟩ := hb
  exact ⟨_, ofText?, rfl, rfl, fits.back a bytes hb, own, fun _ _ => rfl⟩

/-- The version is one line in a field, and missed there. -/
theorem extension (name : String) : Missed n (.under "v") (extension name) := by
  intro a source levels path line _ _ _ hl hs
  obtain rfl := List.mem_singleton.1 hl
  have hnone : source.get? (join path "v") = none :=
    Source.get?_gone hs (Places.mem_under (by decide) (TxRep.within_refl _))
  refine ⟨join path "v", .word (by decide), ?_⟩
  show (source.get (join path "v") >>= _) = _
  rw [Source.get_of_none hnone]
  rfl

/-- A line that is missed in a field is named with its whole path. -/
theorem field (h : Missed n F f) {name : String} (plain : IsPlain name) :
    Missed n (.under name) (field name f) :=
  fun a source levels _ line hn hlevels hb hl hs =>
    h a source levels _ line hn hlevels hb hl (hs.field plain)

/-- Either a part lacks a line and all before it is read, or what comes before lacks it. -/
theorem and (h : Missed n F f) (k : Missed n G g) (judged : Judged n F f) (hF : Placed n F f)
    (hG : Placed n G g) (apart : F.Apart G) : Missed n (F.union G) (f.and g) := by
  rintro ⟨a, b⟩ source levels path line hn hlevels hb hl hs
  obtain ⟨hn1, hn2⟩ := Nat.max_le.1 hn
  obtain ⟨hl1, hl2⟩ := Nat.max_le.1 hlevels
  obtain ⟨ha, hb⟩ := writable_and_iff.1 hb
  have hs : source.Shows (F.union G) path (without line.path (f.print a path) ++
      without line.path (g.print b path)) := by
    rw [← TxRep.without_append]
    exact hs
  have hfirst := hs.left apart fun l hl => hG b path l hn2 (TxRep.mem_without.1 hl).1
  have hsecond := hs.right apart fun l hl => hF a path l hn1 (TxRep.mem_without.1 hl).1
  rcases List.mem_append.1 hl with hl | hl
  · obtain ⟨q, hq, he⟩ := h a source levels path line hn1 hl1 ha hl hfirst
    exact ⟨q, hq, Except.bind_of_error he⟩
  · -- The line is at a place of the second part, so the first part is whole.
    have hwhole : without line.path (f.print a path) = f.print a path := by
      refine TxRep.without_eq_self fun l hl' e => ?_
      exact apart.not_mem (hF a path l hn1 hl') (e ▸ hG b path line hn2 hl)
    rw [hwhole] at hfirst
    obtain ⟨bytes, ha⟩ := ha
    have hread := (judged a source levels path hn1 hfirst).fine bytes ha hl1
    obtain ⟨q, hq, he⟩ := k b source levels path line hn2 hl2 hb hl hsecond
    refine ⟨q, hq, (Except.bind_of_ok hread).trans ?_⟩
    exact Except.bind_of_error he

/-- An error stays the same whatever would be made of the value. -/
theorem map {make : α → β} {parts : β → α} {h₁ : ∀ a, parts (make a) = a}
    {h₂ : ∀ b, make (parts b) = b} (h : Missed n F f) : Missed n F (map f make parts h₁ h₂) := by
  intro b source levels path line hn hlevels hb hl hs
  obtain ⟨q, hq, he⟩ := h (parts b) source levels path line hn hlevels hb hl hs
  exact ⟨q, hq, Except.map_of_error he⟩

/-- Either the flag is missed, or it is there and the value misses a line. -/
theorem option (h : Missed n F f) (hF : Placed n F f) (apart : "_present" ∉ F.names) :
    Missed n (F.union (.under "_present")) (option f) := by
  have flag {source : Source} {path : String} {lines : List Line}
      (hs : source.Shows (F.union (.under "_present")) path
        (without (join path "_present") lines)) :
      source.present path = .error (.missing (join path "_present")) :=
    Source.value_of_none (Source.get?_gone hs ((Places.sub_union_right _ _).mem
      (Places.mem_under (by decide) (TxRep.within_refl _))))
  have hfalse : "false" ≠ AssetOrShare.shareLabel := by decide
  have htrue : "true" ≠ AssetOrShare.shareLabel := by decide
  rintro (_ | a) source levels path line hn hlevels hb hl hs
  · obtain rfl := List.mem_singleton.1 hl
    exact ⟨_, .word hfalse, Except.bind_of_error (flag hs)⟩
  · rcases List.mem_cons.1 hl with rfl | hl
    · exact ⟨_, .word htrue, Except.bind_of_error (flag hs)⟩
    · obtain ⟨hflag, hrest⟩ :=
        Source.shows_tail hs (by decide) apart rfl (hF a path line hn hl)
      have hpresent : source.present path = .ok true := Source.value_of_get? hflag rfl
      obtain ⟨q, hq, he⟩ := h a source levels path line hn hlevels
        (writable_option_iff.1 hb a rfl) hl hrest
      exact ⟨q, hq, (Except.bind_of_ok hpresent).trans (Except.map_of_error he)⟩

/-- The items before one that lacks a line are whole, so they are read. -/
theorem exists_read_before {max levels : Nat} {items : List α} {source : Source} {path : String}
    {line : Line} {j m : Nat} (judged : Judged n F f) (hF : Placed n F f)
    (hn : f.maxLevel items ≤ n) (hlevels : f.maxLevel items ≤ levels)
    (hb : ∀ a ∈ items, f.Writable a)
    (hs : source.Shows .listed path (without line.path ((Format.array max f).print items path)))
    (hline : TxRep.Within (item path (0 + m)) line.path) (hj : j < m) (hlt : j < items.length) :
    ∃ a, f.read source levels (item path (0 + j)) = .ok a := by
  have hmem : items[j] ∈ items := List.getElem_mem hlt
  have hwhole : without line.path (f.print items[j] (item path (0 + j))) =
      f.print items[j] (item path (0 + j)) := by
    refine TxRep.without_eq_self fun l hl e => ?_
    have := (e ▸ hF.within_item hn hmem hl).item_inj hline
    omega
  have hitem := Judged.shows_item hF hn (List.getElem?_eq_getElem hlt) hs
  rw [← without, hwhole] at hitem
  obtain ⟨bytes, hbytes⟩ := hb _ hmem
  exact ⟨_, (judged _ source levels _ (maxLevel_le_iff.1 hn _ hmem) hitem).fine bytes hbytes
    (maxLevel_le_iff.1 hlevels _ hmem)⟩

/-- Either the number of items is missed, or an item is, and all items before it are read. -/
theorem array {max : Nat} (h : Missed n F f) (judged : Judged n F f) (hF : Placed n F f)
    (small : max < UInt32.size) : Missed n .listed (array max f) := by
  intro items source levels path line hn hlevels hb hl hs
  obtain ⟨hle, hb⟩ := (writable_array_iff small).1 hb
  have hback : Text.Decimal.natural? UInt64.size (Text.Decimal.ofNat items.length) =
      some items.length :=
    Text.Decimal.natural?_ofNat (Nat.lt_of_le_of_lt hle (Nat.lt_trans small (by decide)))
  rcases List.mem_cons.1 hl with rfl | hl
  · have hword : Text.Decimal.ofNat items.length ≠ AssetOrShare.shareLabel := fun e => by
      rw [e] at hback
      cases hback
    have hnone : source.get? (join path "len") = none :=
      Source.get?_gone hs (Places.mem_len path)
    exact ⟨_, .word hword, Except.bind_of_error (Source.length_of_none hnone)⟩
  · obtain ⟨m, b, hm, hl⟩ := mem_printItems_iff.1 hl
    have hmem := List.mem_of_getElem? hm
    have hlt := (List.getElem?_eq_some_iff.1 hm).1
    have hline := hF.within_item hn hmem hl
    have hlen : join path "len" ≠ line.path := fun e =>
      TxRep.Within.join_item (by decide) (TxRep.within_refl (join path "len")) (e ▸ hline)
    have hcount : source.length max path = .ok items.length :=
      Source.length_eq_ok_iff.2 ⟨Source.value_of_get?
        (hs.found _ (TxRep.mem_without.2 ⟨List.mem_cons_self .., hlen⟩)) hback, hle⟩
    obtain ⟨q, hq, he⟩ := h b source levels _ line (maxLevel_le_iff.1 hn b hmem)
      (maxLevel_le_iff.1 hlevels b hmem) (hb b hmem) hl (Judged.shows_item hF hn hm hs)
    refine ⟨q, hq, (Except.bind_of_ok hcount).trans (readItems_of_error hlt (fun j hj => ?_) he)⟩
    exact exists_read_before judged hF hn hlevels hb hs hline hj (Nat.lt_trans hj hlt)

/-- There is a level left for every level of the value. -/
theorem deeper (h : ∀ m, n = m + 1 → Missed m F f) : Missed n F (deeper f) := by
  intro a source levels path line hn hlevels hb hl hs
  have hn : f.level a + 1 ≤ n := hn
  have hlevels : f.level a + 1 ≤ levels := hlevels
  cases levels with
  | zero => exact absurd hlevels (Nat.not_succ_le_zero _)
  | succ levels =>
    exact h (n - 1) (by omega) a source levels path line (by omega)
      (Nat.le_of_succ_le_succ hlevels) hb hl hs

/-- Either the label is missed, or it finds the arm that misses a line. -/
theorem union {arms : List (Arm α)} (sound : Arm.Sound arms)
    (own : ∀ arm ∈ arms, arm.label ≠ AssetOrShare.shareLabel)
    (h : ∀ arm ∈ arms, Missed n F arm.format) (hF : ∀ arm ∈ arms, Placed n F arm.format)
    (apart : "type" ∉ F.names) (name : String) :
    Missed n (F.union (.under "type")) (union name arms) := by
  intro a source levels path line hn hlevels hb hl hs
  obtain ⟨arm, ha, p, rfl⟩ := sound.exists_make a
  rw [sound.level_make ha] at hn hlevels
  rw [sound.print_make ha] at hl hs
  rw [Writable, sound.encode_make ha, exists_arm_iff] at hb
  rw [read_union]
  rcases List.mem_cons.1 hl with rfl | hl
  · have hnone : source.get? (join path "type") = none :=
      Source.get?_gone hs ((Places.sub_union_right _ _).mem
        (Places.mem_under (by decide) (TxRep.within_refl _)))
    exact ⟨_, .word (own arm ha), Except.bind_of_error (Source.get_of_none hnone)⟩
  · obtain ⟨harm, hrest⟩ :=
      Source.shows_tail hs (by decide) apart rfl (hF arm ha p path line hn hl)
    obtain ⟨q, hq, he⟩ := h arm ha p source levels path line hn hlevels hb hl hrest
    refine ⟨q, hq, (Except.bind_of_ok (Source.get_of_get? harm)).trans ?_⟩
    show (arms.find? (·.label == arm.label)).elim _ _ = _
    rw [sound.find?_label ha]
    exact Except.map_of_error he

/-- Without the name of a share, an asset is looked for at the path, and no line stands there. -/
theorem assetOrShare {π : Type} {pool : Format π} (h : Missed n .itself Asset.format)
    (k : Missed n F pool) (hF : Placed n F pool) (apart : "type" ∉ F.names) (below : F.here = false)
    (name : String) : Missed n (AssetOrShare.places F) (AssetOrShare.format name pool) := by
  rintro (a | s) source levels path line hn hlevels hb hl hs
  · have habsent : source.get? (join path "type") = none := by
      refine hs.absent _ (AssetOrShare.mem_arm F path) fun l hl e => ?_
      rw [List.mem_singleton.1 (TxRep.mem_without.1 hl).1] at e
      exact TxRep.ne_join path (by decide) e
    have hlevel := Asset.level_eq a
    obtain ⟨q, hq, he⟩ := h a source levels path line (by omega) (by omega) (Asset.total a) hl
      (hs.sub (AssetOrShare.sub_itself F))
    rw [AssetOrShare.read_of_no_arm habsent]
    exact ⟨q, hq, Except.map_of_error he⟩
  · have hshare := hs.sub (AssetOrShare.sub_share F)
    rcases List.mem_cons.1 hl with rfl | hl
    · have hnone : source.get? (join path "type") = none :=
        Source.get?_gone hs (AssetOrShare.mem_arm F path)
      have hself : source.get? path = none := by
        refine hs.absent path ((AssetOrShare.sub_itself F).mem (Places.mem_itself path)) ?_
        intro l hl e
        obtain ⟨hl, hne⟩ := TxRep.mem_without.1 hl
        rcases List.mem_cons.1 hl with rfl | hl
        · exact hne rfl
        · exact Places.not_mem_self below (e ▸ hF s path l hn hl)
      refine ⟨path, .share path rfl, ?_⟩
      rw [AssetOrShare.read_of_no_arm hnone]
      exact Except.map_of_error (Source.value_of_none hself)
    · obtain ⟨harm, hrest⟩ := Source.shows_tail hshare (by decide) apart rfl (hF s path line hn hl)
      obtain ⟨q, hq, he⟩ := k s source levels path line hn hlevels (exists_arm_iff.1 hb) hl hrest
      rw [AssetOrShare.read_of_share harm]
      exact ⟨q, hq, Except.map_of_error he⟩

end Missed

/-- Whatever line of a value of a regular format is missing, that line is missed. -/
theorem Regular.missed (h : Regular n F f) : Missed n F f := by
  induction h with
  | unit => exact fun a source levels path line _ _ _ hl => by cases hl
  | scalar h => exact .scalar h
  | octets k => exact .octets k
  | bytes small => exact .bytes small
  | string small => exact .string small
  | extension name => exact .extension name
  | field name _ plain ih => exact ih.field plain
  | and h k apart ih ih' => exact ih.and ih' h.judged h.placed k.placed apart
  | map _ ih => exact ih.map
  | option h apart ih => exact ih.option h.placed apart
  | array h _ small ih => exact ih.array h.judged h.placed small
  | deeper _ ih => exact .deeper ih
  | token _ fits own _ => exact .token fits own
  | union name sound own h apart ih =>
    exact .union sound own ih (fun arm ha => (h arm ha).placed) apart name
  | assetOrShare name _ _ _ share apart below ih _ ih' =>
    exact ih.assetOrShare ih' share.placed apart below name
  | widen sub _ ih =>
    exact fun a source levels path line hn hlevels hb hl hs =>
      ih a source levels path line hn hlevels hb hl (hs.sub sub)

/-! ## Texts with a line too few or too many -/

variable {path : String} {a : α} {before after : List Line} {line : Line}

/-- Without one of its lines, the text of a value is refused for that line. -/
theorem Regular.ofText_of_missing (h : ∀ n, Regular n F f) (hp : CleanAt F path)
    (hb : f.Writable a) (hl : f.level a ≤ TxRep.maxLevels)
    (hlines : f.print a path = before ++ line :: after) :
    ∃ q, Lacks line q ∧
      f.ofText (TxRep.render (before ++ after)) path = .error (.missing q) := by
  obtain ⟨hclean, hdistinct⟩ := Regular.clean_print h hp a
  rw [hlines] at hclean hdistinct
  have hsub : (before ++ after).Sublist (before ++ line :: after) :=
    (List.sublist_cons_self line after).append_left before
  have hdistinct' := (hsub.map (·.path)).nodup hdistinct
  have hparse := Source.parse_render (fun l hl => hclean l (hsub.subset hl)) hdistinct'
  have hshows : Source.Shows ⟨Source.fieldsOf (before ++ after)⟩ F path
      (without line.path (f.print a path)) := by
    rw [hlines, TxRep.without_middle hdistinct]
    exact Source.shows_fieldsOf hdistinct'
  have hmem : line ∈ f.print a path := by
    rw [hlines]
    exact List.mem_append_right _ (List.mem_cons_self ..)
  obtain ⟨q, hq, he⟩ :=
    (h (f.level a)).missed a _ TxRep.maxLevels path line (Nat.le_refl _) hl hb hmem hshows
  exact ⟨q, hq, (Except.bind_of_ok hparse).trans he⟩

/-- With one of its lines repeated anywhere, the text of a value has a duplicate. -/
theorem Regular.ofText_of_repeated (h : ∀ n, Regular n F f) (hp : CleanAt F path)
    {front back : List Line} (hlines : f.print a path = front ++ back)
    (hl : line ∈ f.print a path) :
    f.ofText (TxRep.render (front ++ line :: back)) path = .error (.duplicate line.path) := by
  obtain ⟨hclean, hdistinct⟩ := Regular.clean_print h hp a
  rw [hlines] at hclean hdistinct hl
  have hclean' : ∀ l ∈ front ++ line :: back, l.Clean := by
    intro l hl'
    rcases List.mem_cons.1 (List.perm_middle.mem_iff.1 hl') with rfl | hl'
    · exact hclean l hl
    · exact hclean l hl'
  refine Except.bind_of_error ?_
  rcases List.mem_append.1 hl with hl | hl
  · have hfront := ((List.sublist_append_left front back).map (·.path)).nodup hdistinct
    exact Source.parse_render_of_repeated hclean' hfront hl
  · -- The line stands in the text already behind the place of the repetition.
    obtain ⟨mid, rest, rfl⟩ := List.append_of_mem hl
    have hlines : front ++ line :: (mid ++ line :: rest) =
        (front ++ line :: mid) ++ line :: rest := by
      rw [List.append_assoc, List.cons_append]
    have hfirst : ((front ++ line :: mid).map (·.path)).Nodup := by
      have hperm : (front ++ line :: mid).Perm (front ++ (mid ++ [line])) :=
        (List.perm_append_singleton line mid).symm.append_left front
      refine ((hperm.map (·.path)).nodup_iff).2 (List.Sublist.nodup ?_ hdistinct)
      refine List.Sublist.map _ ((List.Sublist.append_left ?_ mid).append_left front)
      exact (List.nil_sublist rest).cons_cons line
    rw [hlines] at hclean' ⊢
    exact Source.parse_render_of_repeated hclean' hfirst (by simp)

end Format

namespace Envelope

/-- Every line of the text of an envelope is needed, and none can be repeated.  Without it, the text
is refused for the path of that line, but for the name of a pool share, without which the asset
itself is missed; and wherever it is repeated, its path is a duplicate. -/
theorem every_line_counts {env : Envelope} {bytes : List UInt8} {before after : List Line}
    {line : Line} (hbytes : format.toBytes env = .ok bytes) (hlevel : format.level env ≤ 64)
    (hlines : format.print env "" = before ++ line :: after) :
    ((∀ path, line ≠ .arm path AssetOrShare.shareLabel) →
      ofText (TxRep.render (before ++ after)) = .error (.missing line.path)) ∧
    (∀ path, line = .arm path AssetOrShare.shareLabel →
      ofText (TxRep.render (before ++ after)) = .error (.missing path)) ∧
    (∀ front back, before ++ line :: after = front ++ back →
      ofText (TxRep.render (front ++ line :: back)) = .error (.duplicate line.path)) := by
  have hregular (n : Nat) : Format.Regular n _ format := Envelope.outlined rfl
  have hb : format.Writable env := ⟨bytes, Format.toBytes_eq_ok_iff.1 hbytes⟩
  obtain ⟨q, hq, he⟩ := Format.Regular.ofText_of_missing hregular cleanAt_root hb hlevel hlines
  refine ⟨fun hne => ?_, fun path hshare => ?_, fun front back e => ?_⟩
  · cases hq with
    | own _ => exact he
    | share _ hline => exact absurd hline (hne q)
  · cases hq with
    | own hne => exact absurd (by rw [hshare]; rfl) hne
    | share _ hline =>
      have hpaths : join path "type" = join q "type" := congrArg Line.path (hshare.symm.trans hline)
      rw [TxRep.join_left_inj hpaths]
      exact he
  · have hmem : line ∈ format.print env "" := by
      rw [hlines]
      exact List.mem_append_right _ (List.mem_cons_self ..)
    exact Format.Regular.ofText_of_repeated hregular cleanAt_root (hlines.trans e) hmem

/-- An envelope that gives trust in the share of a pool. -/
def trusting : Envelope :=
  .v0 ⟨⟨.replicate 32 0, 100, 1, none, .none,
    [⟨none, .changeTrust ⟨.share ⟨.native, .native, 30⟩, 1⟩⟩]⟩, []⟩

/-- The tenth line of `trusting` names the share, and without it the asset is missed; without its
first line, or with a second one, that line is. -/
theorem every_line_counts_trusting :
    (∃ bytes, format.toBytes trusting = .ok bytes) ∧ format.level trusting ≤ 64 ∧
    ofText (TxRep.render ((format.print trusting "").take 9 ++
      (format.print trusting "").drop 10)) =
        .error (.missing "tx.operations[0].body.changeTrustOp.line") ∧
    ofText (TxRep.render ((format.print trusting "").drop 1)) = .error (.missing "type") ∧
    ofText (TxRep.render (format.print trusting "" ++ [.arm "" "ENVELOPE_TYPE_TX_V0"])) =
      .error (.duplicate "type") := by
  have hlevel : format.level trusting ≤ 64 := by decide
  have hfirst : format.print trusting "" =
      [] ++ .arm "" "ENVELOPE_TYPE_TX_V0" :: (format.print trusting "").drop 1 := rfl
  have hword : ∀ path, Line.arm "" "ENVELOPE_TYPE_TX_V0" ≠ .arm path AssetOrShare.shareLabel := by
    intro path e
    have hvalue : "ENVELOPE_TYPE_TX_V0" = AssetOrShare.shareLabel := congrArg Line.value e
    exact absurd hvalue (by decide)
  have hshare : (format.print trusting "")[9]? =
      some (.arm "tx.operations[0].body.changeTrustOp.line" AssetOrShare.shareLabel) := by
    decide +kernel
  have hlines : format.print trusting "" = (format.print trusting "").take 9 ++
      .arm "tx.operations[0].body.changeTrustOp.line" AssetOrShare.shareLabel ::
        (format.print trusting "").drop 10 := by
    obtain ⟨hlt, hget⟩ := List.getElem?_eq_some_iff.1 hshare
    rw [← hget, ← List.drop_eq_getElem_cons hlt, List.take_append_drop]
  have hrepeated := (every_line_counts rfl hlevel hfirst).2.2 _ [] (List.append_nil _).symm
  rw [← hfirst] at hrepeated
  exact ⟨⟨_, rfl⟩, hlevel, (every_line_counts rfl hlevel hlines).2.1 _ rfl,
    (every_line_counts rfl hlevel hfirst).1 hword, hrepeated⟩

end Envelope

end StellarTx
