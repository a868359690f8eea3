/-
# Reading what was printed

A source that shows the lines of a value gives the value back if it has bytes and is not too deep,
refuses its depth if it has bytes and is too deep, and refuses it in some way if it has no bytes.
This is the `Verdict` on a value; verdicts on the parts of a value add up to one on the whole, and
every regular format passes it: `Regular.verdict`.
-/
import StellarTx.Proofs.Asset
import StellarTx.Proofs.TxRep.Lines
import StellarTx.Proofs.TxRep.Source
import StellarTx.Proofs.Xdr.Encoding

namespace StellarTx

open Xdr (Encoding)

/-! ## Verdicts -/

namespace TxRep

/-- What reading a value comes to that has the given bytes and level. -/
structure Verdict {α : Type} (levels : Nat) (encoding : Encoding) (level : Nat) (a : α)
    (result : Except Error α) : Prop where
  /-- A value that has bytes and is not too deep is read. -/
  fine : ∀ bytes, encoding = .ok bytes → level ≤ levels → result = .ok a
  /-- A value that has bytes and is too deep is refused for that. -/
  deep : ∀ bytes, encoding = .ok bytes → levels < level → ∃ path, result = .error (.depth path)
  /-- A value that has no bytes is refused. -/
  refused : ∀ e, encoding = .error e → ∃ e', result = .error e'

namespace Verdict

variable {α β : Type} {levels k l : Nat} {x y : Encoding} {a : α} {b : β}
  {result : Except Error α}

/-- A value that always has bytes and no level is read. -/
theorem of_ok {bytes : List UInt8} (hx : x = .ok bytes) (h : result = .ok a) :
    Verdict levels x 0 a result where
  fine _ _ _ := h
  deep _ _ hl := absurd hl (Nat.not_lt_zero levels)
  refused e he := by
    rw [hx] at he
    cases he

/-- A value without levels is read if it has bytes, and otherwise refused. -/
theorem of_flat (hok : ∀ bytes, x = .ok bytes → result = .ok a)
    (herror : ∀ e, x = .error e → ∃ e', result = .error e') : Verdict levels x 0 a result where
  fine bytes hx _ := hok bytes hx
  deep _ _ hl := absurd hl (Nat.not_lt_zero levels)
  refused := herror

/-- One part after another. -/
theorem bind {next : α → Except Error β} (h : Verdict levels x k a result)
    (hn : Verdict levels y l b (next a)) :
    Verdict levels (x ++ y) (max k l) b (result >>= next) := by
  have hfirst : ∀ e, result = .error e → (result >>= next) = .error e := fun e he => by
    rw [he]
    rfl
  have hsecond : result = .ok a → (result >>= next) = next a := fun he => by
    rw [he]
    rfl
  refine ⟨fun bytes hb hl => ?_, fun bytes hb hl => ?_, fun e he => ?_⟩
  · obtain ⟨first, second, hx, hy, _⟩ := Encoding.append_eq_ok_iff.1 hb
    obtain ⟨hk, hl⟩ := Nat.max_le.1 hl
    rw [hsecond (h.fine first hx hk)]
    exact hn.fine second hy hl
  · obtain ⟨first, second, hx, hy, _⟩ := Encoding.append_eq_ok_iff.1 hb
    -- The first part is too deep, or else the second is.
    by_cases hk : k ≤ levels
    · rw [hsecond (h.fine first hx hk)]
      apply hn.deep second hy
      rcases Nat.le_total k l with hkl | hkl
      · rwa [Nat.max_eq_right hkl] at hl
      · rw [Nat.max_eq_left hkl] at hl
        exact absurd hk (Nat.not_le_of_lt hl)
    · obtain ⟨path, hd⟩ := h.deep first hx (Nat.lt_of_not_le hk)
      exact ⟨path, hfirst _ hd⟩
  · -- Either part may be the one without bytes, and the first may also be too deep.
    cases hx : x with
    | error e =>
      obtain ⟨e', hr⟩ := h.refused e hx
      exact ⟨e', hfirst e' hr⟩
    | ok first =>
      by_cases hk : k ≤ levels
      · rw [hsecond (h.fine first hx hk)]
        cases hy : y with
        | error e => exact hn.refused e hy
        | ok second =>
          rw [Encoding.append_of_ok hx hy] at he
          cases he
      · obtain ⟨path, hd⟩ := h.deep first hx (Nat.lt_of_not_le hk)
        exact ⟨_, hfirst _ hd⟩

/-- The same value under another name. -/
theorem map (make : α → β) (h : Verdict levels x k a result) :
    Verdict levels x k (make a) (make <$> result) where
  fine bytes hb hl := by
    rw [h.fine bytes hb hl]
    rfl
  deep bytes hb hl := by
    obtain ⟨path, hd⟩ := h.deep bytes hb hl
    exact ⟨path, by rw [hd]; rfl⟩
  refused e he := by
    obtain ⟨e', hr⟩ := h.refused e he
    exact ⟨e', by rw [hr]; rfl⟩

/-- A part without levels, and then the rest. -/
theorem bind_flat {next : α → Except Error β} (h : Verdict levels x 0 a result)
    (hn : Verdict levels y l b (next a)) : Verdict levels (x ++ y) l b (result >>= next) := by
  have h := h.bind hn
  rwa [Nat.zero_max] at h

end Verdict

/-! ## Sources that show lines -/

/-- Of the given places under a path, a source has these lines and no others. -/
structure Source.Shows (source : Source) (F : Places) (path : String) (lines : List Line) :
    Prop where
  found : ∀ line ∈ lines, source.get? line.path = some line.value
  absent : ∀ q, F.Mem path q → (∀ line ∈ lines, line.path ≠ q) → source.get? q = none

namespace Source

variable {source : Source} {F G : Places} {path : String} {lines more : List Line}

/-- What is shown at some of the places. -/
theorem Shows.part (h : source.Shows G path lines) {part : List Line} {q : String}
    (sub : part ⊆ lines) (hplaces : ∀ r, F.Mem q r → G.Mem path r)
    (hrest : ∀ line ∈ lines, F.Mem q line.path → line ∈ part) : source.Shows F q part where
  found line hl := h.found line (sub hl)
  absent r hr hne := by
    apply h.absent r (hplaces r hr)
    intro line hl e
    subst e
    exact hne line (hrest line hl hr) rfl

/-- What is shown at all places is shown at fewer of them. -/
theorem Shows.sub (h : source.Shows G path lines) (sub : F.Sub G) : source.Shows F path lines :=
  h.part (List.Subset.refl _) (fun _ => sub.mem) fun _ hl _ => hl

/-- What is shown under a field is shown at its path. -/
theorem Shows.field {name : String} (h : source.Shows (.under name) path lines)
    (plain : IsPlain name) : source.Shows F (join path name) lines :=
  h.part (List.Subset.refl _)
    (fun _ hq => Places.mem_under plain (hq.within (join_ne_empty path plain))) fun _ hl _ => hl

/-- Of two values, what is shown of the first: lines of the second stand elsewhere. -/
theorem Shows.left (h : source.Shows (F.union G) path (lines ++ more)) (apart : F.Apart G)
    (hG : ∀ line ∈ more, G.Mem path line.path) : source.Shows F path lines := by
  apply h.part (List.subset_append_left _ _) (fun r => (Places.sub_union_left F G).mem)
  intro line hl hF
  rcases List.mem_append.1 hl with hl | hl
  · exact hl
  · exact absurd (hG line hl) (apart.not_mem hF)

/-- And of the second, for the same reason. -/
theorem Shows.right (h : source.Shows (F.union G) path (lines ++ more)) (apart : F.Apart G)
    (hF : ∀ line ∈ lines, F.Mem path line.path) : source.Shows G path more := by
  apply h.part (List.subset_append_right _ _) (fun r => (Places.sub_union_right F G).mem)
  intro line hl hG
  rcases List.mem_append.1 hl with hl | hl
  · exact absurd hG (apart.not_mem (hF line hl))
  · exact hl

/-- What is shown beside the line of a field. -/
theorem Shows.tail {name : String} {line : Line}
    (h : source.Shows (F.union (.under name)) path (line :: lines)) (plain : IsPlain name)
    (apart : name ∉ F.names) (hline : line.path = join path name) :
    source.Shows F path lines := by
  apply h.part (List.subset_cons_self _ _) (fun r => (Places.sub_union_left F _).mem)
  intro l hl hF
  rcases List.mem_cons.1 hl with rfl | hl
  · rw [hline] at hF
    exact absurd (Places.mem_under plain (within_refl _)) ((Places.apart_under apart).not_mem hF)
  · exact hl

/-- The source of lines at different paths shows these lines. -/
theorem shows_fieldsOf (distinct : (lines.map (·.path)).Nodup) :
    Source.Shows ⟨fieldsOf lines⟩ F path lines where
  found _ hl := get?_fieldsOf_eq_some distinct hl
  absent _ _ hne := get?_fieldsOf_eq_none hne

/-- A value that is there is read as it stands. -/
theorem get_of_get? {text : String} (h : source.get? path = some text) :
    source.get path = .ok text := by
  rw [get, h]

/-- A value that is understood is read. -/
theorem value_of_get? {α : Type} {ofText? : String → Option α} {text : String} {a : α}
    (h : source.get? path = some text) (ha : ofText? text = some a) :
    source.value ofText? path = .ok a := by
  simp only [value, get_of_get? h, Bind.bind, Except.bind, ha]
  rfl

/-- A string that was written in quotes, if it is not too long. -/
theorem string_of_get? {text : String} {max : Nat}
    (h : source.get? path = some (Text.Quoted.quote text)) (hle : text.utf8ByteSize ≤ max) :
    source.string max path = .ok text := by
  refine value_of_get? h ?_
  rw [Text.Quoted.unquote?_quote, Option.filter_some, if_pos (decide_eq_true hle)]

/-- Bytes that were written in hexadecimal, if there are not too many. -/
theorem hex_of_get? {bytes : List UInt8} {max : Nat}
    (h : source.get? path = some (Text.Hex.encode bytes)) (hle : bytes.length ≤ max) :
    source.hex max path = .ok bytes := by
  refine value_of_get? h ?_
  rw [Text.Hex.decode?_encode, Option.filter_some, if_pos (decide_eq_true hle)]

/-- A value that is not understood is refused, together with its text. -/
theorem value_of_get?_of_none {α : Type} {ofText? : String → Option α} {text : String}
    (h : source.get? path = some text) (ha : ofText? text = none) :
    source.value ofText? path = .error (.malformed path text) := by
  simp only [value, get_of_get? h, Bind.bind, Except.bind, ha]
  rfl

end Source

end TxRep

/-! ## Scalars -/

namespace Text.Decimal

/-- A number of 32 bits reads back, since it is below the bound. -/
theorem uint32?_ofUInt32 (v : UInt32) : uint32? (ofUInt32 v) = some v := by
  rw [uint32?, ofUInt32, natural?_ofNat v.toNat_lt]
  exact congrArg some (UInt32.ofNat_toNat)

/-- So does one of 64 bits. -/
theorem uint64?_ofUInt64 (v : UInt64) : uint64? (ofUInt64 v) = some v := by
  rw [uint64?, ofUInt64, natural?_ofNat v.toNat_lt]
  exact congrArg some (UInt64.ofNat_toNat)

/-- With a sign, a number is within half of that on either side of zero. -/
theorem int32?_ofInt32 (v : Int32) : int32? (ofInt32 v) = some v := by
  have hlow : -((UInt32.size / 2 : Nat) : Int) ≤ v.toInt := v.le_toInt
  have hhigh : v.toInt < (UInt32.size / 2 : Nat) := v.toInt_lt
  rw [int32?, ofInt32, integer?_ofInt hlow hhigh]
  exact congrArg some (Int32.ofInt_toInt v)

/-- The same for 64 bits. -/
theorem int64?_ofInt64 (v : Int64) : int64? (ofInt64 v) = some v := by
  have hlow : -((UInt64.size / 2 : Nat) : Int) ≤ v.toInt := v.le_toInt
  have hhigh : v.toInt < (UInt64.size / 2 : Nat) := v.toInt_lt
  rw [int64?, ofInt64, integer?_ofInt hlow hhigh]
  exact congrArg some (Int64.ofInt_toInt v)

/-- A number that is too great is not cut off but refused. -/
theorem natural?_ofNat_eq_none {bound k : Nat} (h : ¬ k < bound) :
    natural? bound (ofNat k) = none := by
  unfold natural? ofNat
  simp only [String.toList_ofList]
  split
  · next rest e => exact absurd e (digits_ne_sign_cons (by decide) rest)
  · rw [ofDigits?_digits, Option.filter_some, if_neg (by simpa using h)]

/-- A number that is not negative is written alike with and without a sign. -/
theorem ofUInt64_toUInt64 {v : Int64} (h : ¬ v.toInt < 0) : ofUInt64 v.toUInt64 = ofInt64 v := by
  have hv : v.toInt = (v.toUInt64.toNat : Int) := by
    have hcond := BitVec.toInt_eq_toNat_cond v.toBitVec
    rw [Int64.toInt_toBitVec, Int64.toNat_toBitVec] at hcond
    have hlt := v.toUInt64.toNat_lt
    split at hcond <;> omega
  rw [ofInt64, hv]
  rfl

end Text.Decimal

namespace Format

open TxRep (Line Source Verdict join item)

variable {α β : Type} {n : Nat} {F G : Places} {f : Format α} {g : Format β}

/-- The line of a scalar. -/
theorem Scalar.exists_line (h : Scalar f) (a : α) :
    (∃ bytes, f.encode a = .ok bytes) ∧ f.level a = 0 ∧
    ∀ path, ∃ line ofText?, f.print a path = [line] ∧ line.path = path ∧
      ofText? line.value = some a ∧ ofText? AssetOrShare.shareLabel = none ∧
      ∀ source levels, f.read source levels path = Source.value ofText? source path := by
  cases h with
  | uint32 =>
    exact ⟨⟨_, rfl⟩, rfl, fun path =>
      ⟨_, _, rfl, rfl, Text.Decimal.uint32?_ofUInt32 a, rfl, fun _ _ => rfl⟩⟩
  | int32 =>
    exact ⟨⟨_, rfl⟩, rfl, fun path =>
      ⟨_, _, rfl, rfl, Text.Decimal.int32?_ofInt32 a, rfl, fun _ _ => rfl⟩⟩
  | uint64 =>
    exact ⟨⟨_, rfl⟩, rfl, fun path =>
      ⟨_, _, rfl, rfl, Text.Decimal.uint64?_ofUInt64 a, rfl, fun _ _ => rfl⟩⟩
  | int64 =>
    exact ⟨⟨_, rfl⟩, rfl, fun path =>
      ⟨_, _, rfl, rfl, Text.Decimal.int64?_ofInt64 a, rfl, fun _ _ => rfl⟩⟩
  | bool =>
    exact ⟨⟨_, rfl⟩, rfl, fun path => ⟨_, _, rfl, rfl, by cases a <;> rfl, rfl, fun _ _ => rfl⟩⟩
  | amount =>
    exact ⟨⟨_, rfl⟩, rfl, fun path =>
      ⟨_, _, rfl, rfl, Text.Decimal.int64?_ofInt64 a, rfl, fun _ _ => rfl⟩⟩
  | timestamp =>
    exact ⟨⟨_, rfl⟩, rfl, fun path =>
      ⟨_, _, rfl, rfl, Text.Decimal.uint64?_ofUInt64 a, rfl, fun _ _ => rfl⟩⟩
  | signedTimestamp =>
    refine ⟨⟨_, rfl⟩, rfl, fun path => ⟨_, Text.Decimal.int64?, rfl, ?_, ?_, rfl, fun _ _ => rfl⟩⟩
    · dsimp only
      split <;> rfl
    · dsimp only
      split
      · exact Text.Decimal.int64?_ofInt64 a
      · next h =>
        show Text.Decimal.int64? (Text.Decimal.ofUInt64 a.toUInt64) = some a
        rw [Text.Decimal.ofUInt64_toUInt64 h]
        exact Text.Decimal.int64?_ofInt64 a

/-- Every value that a source shows down to `n` levels gets its verdict. -/
def Judged (n : Nat) (F : Places) (f : Format α) : Prop :=
  ∀ a source levels path, f.level a ≤ n → source.Shows F path (f.print a path) →
    Verdict levels (f.encode a) (f.level a) a (f.read source levels path)

/-- A single line at the path is found there. -/
theorem found_of_singleton {source : Source} {path value : String} {comment : Option String}
    (h : source.Shows F path [⟨path, value, comment⟩]) : source.get? path = some value :=
  h.found _ (List.mem_singleton.2 rfl)

/-- A scalar is read from its one line, whatever the levels. -/
theorem Scalar.judged (h : Scalar f) : Judged n .itself f := by
  intro a source levels path _ hs
  obtain ⟨⟨bytes, hb⟩, hl, hline⟩ := h.exists_line a
  obtain ⟨line, ofText?, hprint, hpath, hback, _, hread⟩ := hline path
  rw [hl, hread]
  refine .of_ok hb (Source.value_of_get? ?_ hback)
  have hfound := hs.found line (by simp [hprint])
  rwa [hpath] at hfound

namespace Judged

/-- As many digits as there must be are read back as these bytes. -/
theorem octets (k : Nat) : Judged n .itself (octets k) := by
  intro a source levels path _ hs
  refine .of_ok rfl (Source.value_of_get? (found_of_singleton hs) ?_)
  rw [Text.Hex.decode?_encode]
  exact Octets.ofList?_toList a

/-- A byte string is refused for its length in text as in bytes. -/
theorem bytes {max : Nat} (small : max < UInt32.size) : Judged n .itself (bytes max) := by
  intro data source levels path _ hs
  have hfound := found_of_singleton hs
  refine .of_flat (fun result hb => ?_) fun e he => ?_
  · exact Source.hex_of_get? hfound ((Encoding.bytes_eq_ok_iff small).1 hb).1
  · have hlt := Encoding.lt_length_of_bytes_eq_error small he
    refine ⟨_, Source.value_of_get?_of_none hfound ?_⟩
    rw [Text.Hex.decode?_encode]
    simp [hlt]

/-- So is a text, whose length is counted in bytes here as well. -/
theorem string {max : Nat} (small : max < UInt32.size) : Judged n .itself (string max) := by
  intro s source levels path _ hs
  have hfound := found_of_singleton hs
  refine .of_flat (fun result hb => ?_) fun e he => ?_
  · exact Source.string_of_get? hfound ((Encoding.bytes_eq_ok_iff small).1 hb).1
  · have hlt : max < s.utf8ByteSize := Encoding.lt_length_of_bytes_eq_error small he
    refine ⟨_, Source.value_of_get?_of_none hfound ?_⟩
    rw [Text.Quoted.unquote?_quote]
    simp [hlt]

/-- The version zero is the only one that is read. -/
theorem extension (name : String) : Judged n (.under "v") (extension name) := by
  intro a source levels path _ hs
  have hfound : source.get? (join path "v") = some "0" := hs.found _ (List.mem_singleton.2 rfl)
  refine .of_ok rfl ?_
  show (source.get (join path "v") >>= _) = _
  rw [Source.get_of_get? hfound]
  rfl

/-- A word is read if the value has bytes, and refused if it has not. -/
theorem token {text : α → String} {ofText? : String → Option α} (fits : Token f text ofText?) :
    Judged n .itself (token f text ofText?) := by
  intro a source levels path _ hs
  have hfound := found_of_singleton hs
  show Verdict levels (f.encode a) (f.level a) a _
  rw [fits.level a]
  refine .of_flat (fun bytes hb => ?_) fun e he => ?_
  · exact Source.value_of_get? hfound (fits.back a bytes hb)
  · exact ⟨_, Source.value_of_get?_of_none hfound (fits.refuse a e he)⟩

/-- What is shown in a field is judged at the path of the field. -/
theorem field (h : Judged n F f) {name : String} (plain : IsPlain name) :
    Judged n (.under name) (field name f) :=
  fun a source levels _ hn hs => h a source levels _ hn (hs.field plain)

/-- Lines of the second value say nothing about the first, since the places are apart. -/
theorem and (h : Judged n F f) (k : Judged n G g) (hF : Placed n F f) (hG : Placed n G g)
    (apart : F.Apart G) : Judged n (F.union G) (f.and g) := by
  rintro ⟨a, b⟩ source levels path hn hs
  obtain ⟨hn1, hn2⟩ := Nat.max_le.1 hn
  have hfirst := h a source levels path hn1 (hs.left apart fun l hl => hG b path l hn2 hl)
  have hsecond := k b source levels path hn2 (hs.right apart fun l hl => hF a path l hn1 hl)
  exact hfirst.bind (hsecond.map fun b => (a, b))

/-- The flag is read first, and then, if it says so, the value. -/
theorem option (h : Judged n F f) (apart : "_present" ∉ F.names) :
    Judged n (F.union (.under "_present")) (option f) := by
  have flag {source : Source} {path : String} (b : Bool)
      (hget : source.get? (join path "_present") = some (if b then "true" else "false")) :
      source.present path = .ok b :=
    Source.value_of_get? hget (by cases b <;> rfl)
  rintro (_ | a) source levels path hn hs
  · have hflag := flag false (hs.found _ (List.mem_singleton.2 rfl))
    refine .of_ok rfl ?_
    show (source.present path >>= _) = _
    rw [hflag]
    rfl
  · have hflag := flag true (hs.found _ (List.mem_cons_self ..))
    have hrest := h a source levels path hn (hs.tail (by decide) apart rfl)
    exact (Verdict.of_ok rfl hflag).bind_flat (hrest.map some)

/-- Of the lines of an array, some are shown.  Of those of an item, just these are shown then. -/
theorem shows_item {source : Source} {path : String} {items : List α} {max j : Nat} {a : α}
    {p : Line → Bool} (hF : Placed n F f) (hn : f.maxLevel items ≤ n) (ha : items[j]? = some a)
    (hs : source.Shows .listed path (((array max f).print items path).filter p)) :
    source.Shows F (item path (0 + j)) ((f.print a (item path (0 + j))).filter p) := by
  refine hs.part (fun line hl => ?_) (fun q hq => ?_) ?_
  · obtain ⟨hl, hp⟩ := List.mem_filter.1 hl
    exact List.mem_filter.2 ⟨List.mem_cons_of_mem _ (mem_printItems_iff.2 ⟨j, a, ha, hl⟩), hp⟩
  · exact Places.mem_item (hq.within (TxRep.item_ne_empty path _))
  · intro line hl hq
    obtain ⟨hl, hp⟩ := List.mem_filter.1 hl
    refine List.mem_filter.2 ⟨?_, hp⟩
    have h1 := hq.within (TxRep.item_ne_empty path _)
    rcases List.mem_cons.1 hl with rfl | hl
    · exact (TxRep.Within.join_item (by decide) (TxRep.within_refl (join path "len")) h1).elim
    · -- The line is one of another item, below which it cannot be as well.
      obtain ⟨k, b, hb, hl⟩ := mem_printItems_iff.1 hl
      have hjk := h1.item_inj (hF.within_item hn (List.mem_of_getElem? hb) hl)
      obtain rfl : j = k := by omega
      rw [ha] at hb
      cases hb
      exact hl

/-- Items one after another. -/
theorem items {source : Source} {levels : Nat} {path : String} {items : List α} {i : Nat}
    (h : ∀ j a, items[j]? = some a → Verdict levels (f.encode a) (f.level a) a
      (f.read source levels (item path (i + j)))) :
    Verdict levels (.concat (items.map f.encode)) (f.maxLevel items) items
      (f.readItems source levels path i items.length) := by
  induction items generalizing i with
  | nil => exact .of_ok rfl rfl
  | cons a items ih =>
    have hrest := ih fun j b hb => by
      have := h (j + 1) b hb
      rwa [← Nat.add_assoc, Nat.add_right_comm] at this
    exact (h 0 a rfl).bind (hrest.map fun rest => a :: rest)

/-- The number of items, which has a maximum. -/
theorem count {max : Nat} (small : max < UInt32.size) {source : Source} {path : String} {k : Nat}
    (h : source.get? (join path "len") = some (Text.Decimal.ofNat k)) (levels : Nat) :
    Verdict levels (.count k max) 0 k (source.length max path) := by
  have hread : source.length max path = (source.value (Text.Decimal.natural? UInt64.size)
      (join path "len") >>= fun k => do
        if max < k then throw (.arrayLength path k max)
        return k) := rfl
  refine .of_flat (fun bytes hb => ?_) fun e he => ?_
  · have hle := ((Encoding.count_eq_ok_iff small).1 hb).1
    have hk : k < UInt64.size := Nat.lt_of_le_of_lt hle (Nat.lt_trans small (by decide))
    rw [hread, Source.value_of_get? h (Text.Decimal.natural?_ofNat hk)]
    show (if max < k then _ else _ : Except TxRep.Error Nat) = _
    exact if_neg (Nat.not_lt_of_le hle)
  · have hlt : max < k := Nat.lt_of_not_le fun hle => by
      rw [Encoding.count_of_le small hle] at he
      cases he
    -- A number that does not fit into 64 bits is not even read.
    by_cases hk : k < UInt64.size
    · rw [hread, Source.value_of_get? h (Text.Decimal.natural?_ofNat hk)]
      exact ⟨_, if_pos hlt⟩
    · rw [hread, Source.value_of_get?_of_none h (Text.Decimal.natural?_ofNat_eq_none hk)]
      exact ⟨_, rfl⟩

/-- The number of items is read first, and then each item at its own path. -/
theorem array {max : Nat} (h : Judged n F f) (hF : Placed n F f) (small : max < UInt32.size) :
    Judged n .listed (array max f) := by
  intro items source levels path hn hs
  have hfound : source.get? (join path "len") = some (Text.Decimal.ofNat items.length) :=
    hs.found _ (List.mem_cons_self ..)
  refine (count small hfound levels).bind_flat (Judged.items fun j a ha => ?_)
  have hitem : source.Shows F (item path (0 + j)) (f.print a (item path (0 + j))) := by
    have hall (lines : List Line) : lines.filter (fun _ => true) = lines :=
      List.filter_eq_self.2 fun _ _ => rfl
    rw [← hall ((Format.array max f).print items path)] at hs
    rw [← hall (f.print a (item path (0 + j)))]
    exact shows_item hF hn ha hs
  exact h a source levels _ (maxLevel_le_iff.1 hn a (List.mem_of_getElem? ha)) hitem

/-- The label is read first, which finds the arm that was written. -/
theorem union {arms : List (Arm α)} (sound : Arm.Sound arms)
    (h : ∀ arm ∈ arms, Judged n F arm.format) (apart : "type" ∉ F.names) (name : String) :
    Judged n (F.union (.under "type")) (union name arms) := by
  intro a source levels path hn hs
  obtain ⟨arm, ha, p, rfl⟩ := sound.exists_make a
  rw [sound.level_make ha] at hn
  rw [sound.print_make ha] at hs
  rw [sound.level_make ha, sound.encode_make ha]
  have harm : source.arm path = .ok arm.label :=
    Source.get_of_get? (hs.found _ (List.mem_cons_self ..))
  have hrest := h arm ha p source levels path hn (hs.tail (by decide) apart rfl)
  rw [read_union]
  refine (Verdict.of_ok rfl harm).bind_flat ?_
  rw [sound.find?_label ha]
  exact hrest.map arm.make

/-- The line `type` is there just for a share. -/
theorem assetOrShare {π : Type} {pool : Format π} (h : Judged n .itself Asset.format)
    (k : Judged n F pool) (apart : "type" ∉ F.names) (name : String) :
    Judged n (AssetOrShare.places F) (AssetOrShare.format name pool) := by
  rintro (a | s) source levels path hn hs
  · have habsent : source.get? (join path "type") = none := by
      refine hs.absent _ (AssetOrShare.mem_arm F path) fun line hl e => ?_
      rw [List.mem_singleton.1 hl] at e
      exact TxRep.ne_join path (by decide) e
    obtain ⟨bytes, hb⟩ := Asset.total a
    have hlevel := Asset.level_eq a
    have hshows := hs.sub (AssetOrShare.sub_itself F)
    have hasset := (h a source levels path (by omega) hshows).fine bytes hb (by omega)
    obtain ⟨whole, hwhole⟩ := AssetOrShare.total_asset name pool a
    rw [AssetOrShare.level_asset, AssetOrShare.read_of_no_arm habsent, hasset]
    exact .of_ok hwhole rfl
  · have harm : source.get? (join path "type") = some AssetOrShare.shareLabel :=
      hs.found _ (List.mem_cons_self ..)
    have hread : (AssetOrShare.format name pool).read source levels path =
        (source.arm path >>= fun _ => AssetOrShare.share <$> pool.read source levels path) := by
      rw [AssetOrShare.read_of_share harm, Source.arm, Source.get_of_get? harm]
      rfl
    rw [hread]
    refine (Verdict.of_ok rfl (Source.get_of_get? harm)).bind_flat (.map AssetOrShare.share ?_)
    exact k s source levels path hn ((hs.sub (AssetOrShare.sub_share F)).tail (by decide) apart rfl)

end Judged

/-- Every value of a regular format that a source shows gets its verdict. -/
theorem Regular.judged (h : Regular n F f) : Judged n F f := by
  induction h with
  | unit => exact fun a source levels path _ _ => .of_ok rfl rfl
  | scalar h => exact h.judged
  | octets k => exact .octets k
  | bytes small => exact .bytes small
  | string small => exact .string small
  | extension name => exact .extension name
  | field name _ plain ih => exact ih.field plain
  | and h k apart ih ih' => exact ih.and ih' h.placed k.placed apart
  | @map n F α β f make parts h₁ h₂ _ ih =>
    intro b source levels path hn hs
    have hv := (ih (parts b) source levels path hn hs).map make
    rwa [h₂] at hv
  | option _ apart ih => exact ih.option apart
  | array h _ small ih => exact ih.array h.placed small
  | @deeper n F α f h ih =>
    intro a source levels path hn hs
    have hn : f.level a + 1 ≤ n := hn
    cases levels with
    | zero =>
      -- No level is left, and the value has at least one.
      exact ⟨fun _ _ hl => absurd hl (Nat.not_succ_le_zero _), fun _ _ _ => ⟨path, rfl⟩,
        fun _ _ => ⟨_, rfl⟩⟩
    | succ levels =>
      have hv := ih (n - 1) (by omega) a source levels path (by omega) hs
      exact ⟨fun b hb hl => hv.fine b hb (Nat.le_of_succ_le_succ hl),
        fun b hb hl => hv.deep b hb (Nat.lt_of_succ_lt_succ hl), hv.refused⟩
  | token _ fits _ _ => exact .token fits
  | union name sound _ _ apart ih => exact .union sound ih apart name
  | assetOrShare name _ _ _ _ apart _ ih _ ih' => exact ih.assetOrShare ih' apart name
  | widen sub _ ih =>
    exact fun a source levels path hn hs => ih a source levels path hn (hs.sub sub)

end Format

end StellarTx
