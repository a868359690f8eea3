/-
# No more items than fields

Whatever is read from a source has all its lines there (`Regular.found`), each at a path of its own.
A value has more lines than items, so it takes as many fields to make as it has items.  The number
of items that a text declares does not count: an item without a field of its own is not read
(`WireType.exists_error_of_nothing`), and the first item that cannot be read stops the reading of
its list.
-/
import Mathlib.Data.List.Perm.Subperm
import Mathlib.Data.Nat.Find
import StellarTx.Proofs.Items
import StellarTx.Proofs.TxRep.Validity
import StellarTx.Proofs.Xdr.Canonical

namespace StellarTx

open TxRep (Line Source join item)

namespace Format

variable {α β : Type} {n : Nat} {F G : Places} {f : Format α} {g : Format β}

/-! ## Lines that were there -/

/-- What is read with at most `n` levels has all its lines in the source. -/
def Found (n : Nat) (f : Format α) : Prop :=
  ∀ source levels path a line, levels ≤ n → f.read source levels path = .ok a →
    line ∈ f.print a path → source.contains line.path = true

namespace Found

/-- A value on one line at the path itself. -/
theorem of_value {ofText? : String → Option α}
    (hread : ∀ source levels path, f.read source levels path = source.value ofText? path)
    (hprint : ∀ a path, ∃ line, f.print a path = [line] ∧ line.path = path) : Found n f := by
  intro source levels path a line _ hr hl
  obtain ⟨only, honly, hpath⟩ := hprint a path
  rw [honly] at hl
  rw [List.mem_singleton.1 hl, hpath]
  rw [hread] at hr
  exact Source.contains_of_value hr

/-- The lines of both parts were there. -/
theorem and (h : Found n f) (k : Found n g) : Found n (f.and g) := by
  intro source levels path p line hn hr hl
  obtain ⟨ha, hb⟩ := read_and_eq_ok_iff.1 hr
  rcases List.mem_append.1 hl with hl | hl
  · exact h source levels path _ line hn ha hl
  · exact k source levels path _ line hn hb hl

/-- The line of the flag was, and those of the value if it said so. -/
theorem option (h : Found n f) : Found n (option f) := by
  intro source levels path o line hn hr hl
  obtain ⟨hp, ha⟩ := read_option_eq_ok_iff.1 hr
  have hflag : source.contains (join path "_present") = true := Source.contains_of_value hp
  cases o with
  | none =>
    rw [List.mem_singleton.1 hl]
    exact hflag
  | some a =>
    rcases List.mem_cons.1 hl with rfl | hl
    · exact hflag
    · exact h source levels path a line hn (ha a rfl) hl

/-- The number of items was there, and the lines of each. -/
theorem array (h : Found n f) (max : Nat) : Found n (array max f) := by
  intro source levels path items line hn hr hl
  obtain ⟨hlength, hitems⟩ := read_array_eq_ok_iff.1 hr
  rcases List.mem_cons.1 hl with rfl | hl
  · exact Source.contains_of_value (Source.length_eq_ok_iff.1 hlength).1
  · obtain ⟨j, a, hj, hl⟩ := mem_printItems_iff.1 hl
    rw [Nat.zero_add] at hl
    exact h source levels _ a line hn (hitems j a hj) hl

/-- The label was there, and the lines of its arm. -/
theorem union {arms : List (Arm α)} (sound : Arm.Sound arms)
    (h : ∀ arm ∈ arms, Found n arm.format) (name : String) : Found n (union name arms) := by
  intro source levels path a line hn hr hl
  obtain ⟨arm, hf, harm, p, hp, rfl⟩ := read_union_eq_ok_iff.1 hr
  have ha := List.mem_of_find?_eq_some hf
  rw [sound.print_make ha] at hl
  rcases List.mem_cons.1 hl with rfl | hl
  · exact Source.contains_of_get harm
  · exact h arm ha source levels path p line hn hp hl

/-- An asset has one line, and a share a label that was asked for. -/
theorem assetOrShare {π : Type} {pool : Format π} (h : Found n Asset.format) (k : Found n pool)
    (name : String) : Found n (AssetOrShare.format name pool) := by
  intro source levels path a line hn hr hl
  rcases AssetOrShare.read_eq_ok_iff.1 hr with ⟨hc, _, s, hs, rfl⟩ | ⟨_, asset, ha, rfl⟩
  · rcases List.mem_cons.1 hl with rfl | hl
    · exact hc
    · exact k source levels path s line hn hs hl
  · exact h source levels path asset line hn ha hl

end Found

/-- What a regular format reads has all its lines in the source. -/
theorem Regular.found (h : Regular n F f) : Found n f := by
  induction h with
  | unit => exact fun _ _ _ _ _ _ _ hl => by cases hl
  | @scalar n α f h =>
    have hline (a : α) (path : String) : ∃ line, f.print a path = [line] ∧ line.path = path := by
      obtain ⟨line, _, hprint, hpath, _⟩ := (h.exists_line a).2.2 path
      exact ⟨line, hprint, hpath⟩
    cases h <;> exact .of_value (fun _ _ _ => rfl) hline
  | octets k => exact .of_value (fun _ _ _ => rfl) fun _ _ => ⟨_, rfl, rfl⟩
  | bytes _ => exact .of_value (fun _ _ _ => rfl) fun _ _ => ⟨_, rfl, rfl⟩
  | string _ => exact .of_value (fun _ _ _ => rfl) fun _ _ => ⟨_, rfl, rfl⟩
  | extension name =>
    intro source levels path a line _ hr hl
    obtain ⟨version, hv, _⟩ := Except.bind_eq_ok_iff.1 hr
    rw [List.mem_singleton.1 hl]
    exact Source.contains_of_get hv
  | field name _ _ ih => exact fun source levels path => ih source levels _
  | and _ _ _ ih ih' => exact ih.and ih'
  | map _ ih =>
    exact fun source levels path b line hn hr =>
      ih source levels path _ line hn (read_map_eq_ok_iff.1 hr)
  | option _ _ ih => exact ih.option
  | array _ _ _ ih => exact ih.array _
  | @deeper n F α f _ ih =>
    intro source levels path a line hn hr hl
    obtain ⟨m, rfl, hr⟩ := read_deeper_eq_ok_iff.1 hr
    exact ih (n - 1) (by omega) source m path a line (by omega) hr hl
  | token _ _ _ _ => exact .of_value (fun _ _ _ => rfl) fun _ _ => ⟨_, rfl, rfl⟩
  | union name sound _ _ _ ih => exact .union sound ih name
  | assetOrShare name _ _ _ _ _ _ ih _ ih' => exact ih.assetOrShare ih' name
  | widen _ _ ih => exact ih

/-- A source has at least as many fields as what is read from it has lines. -/
theorem Regular.length_print_le (h : Regular n F f) {source : Source} {levels : Nat}
    {path : String} {a : α} (hn : levels ≤ n) (hr : f.read source levels path = .ok a) :
    (f.print a path).length ≤ source.fields.length := by
  have hlevel := (h.checked source levels path a hn hr).2
  have hsub : (f.print a path).map (·.path) ⊆ source.fields.map (·.1) := by
    intro q hq
    obtain ⟨line, hl, rfl⟩ := List.mem_map.1 hq
    exact Source.contains_iff.1 (h.found source levels path a line hn hr hl)
  have hle := (List.subperm_of_subset (h.distinct a path (Nat.le_trans hlevel hn)) hsub).length_le
  rwa [List.length_map, List.length_map] at hle

/-! ## Items without lines -/

/-- A value without lines has no bytes either. -/
theorem Regular.encode_of_print_eq_nil (h : Regular n F f) :
    ∀ a path, f.level a ≤ n → f.print a path = [] → f.encode a = .ok [] := by
  induction h with
  | unit => exact fun _ _ _ _ => rfl
  | scalar h => cases h <;> exact fun _ _ _ hp => by cases hp
  | field name _ _ ih => exact fun a path => ih a _
  | and _ _ _ ih ih' =>
    rintro ⟨a, b⟩ path hn hp
    obtain ⟨hn1, hn2⟩ := Nat.max_le.1 hn
    obtain ⟨hp1, hp2⟩ := List.append_eq_nil_iff.1 hp
    exact Xdr.Encoding.append_of_ok (ih a path hn1 hp1) (ih' b path hn2 hp2)
  | map _ ih => exact fun b path hn hp => ih _ path hn hp
  | option _ _ _ => rintro (_ | a) path _ hp <;> cases hp
  | @deeper n F α f _ ih =>
    intro a path hn hp
    have hn : f.level a + 1 ≤ n := hn
    exact ih (n - 1) (by omega) a path (by omega) hp
  | union name sound _ _ _ _ =>
    intro a path _ hp
    obtain ⟨arm, ha, p, rfl⟩ := sound.exists_make a
    rw [sound.print_make ha] at hp
    cases hp
  | assetOrShare name _ _ _ _ _ _ _ _ _ => rintro (a | s) path _ hp <;> cases hp
  | widen _ _ ih => exact ih
  | _ => exact fun _ _ _ hp => by cases hp

/-- The reading of items stops at the first that cannot be read. -/
theorem exists_first_error {source : Source} {levels : Nat} {path : String} {k m : Nat} (hk : k < m)
    (h : ∃ e, f.read source levels (item path k) = .error e) :
    ∃ j ≤ k, (∀ i < j, ∃ a, f.read source levels (item path i) = .ok a) ∧
      ∃ e, f.read source levels (item path j) = .error e ∧
        f.readItems source levels path 0 m = .error e := by
  classical
  have hex : ∃ j, ∃ e, f.read source levels (item path j) = .error e := ⟨k, h⟩
  have hle : Nat.find hex ≤ k := Nat.find_min' hex h
  have hok (i : Nat) (hi : i < Nat.find hex) : ∃ a, f.read source levels (item path i) = .ok a := by
    cases hr : f.read source levels (item path i) with
    | ok a => exact ⟨a, rfl⟩
    | error e => exact absurd ⟨e, hr⟩ (Nat.find_min hex hi)
  obtain ⟨e, he⟩ := Nat.find_spec hex
  refine ⟨Nat.find hex, hle, hok, e, he, readItems_of_error (Nat.lt_of_le_of_lt hle hk) ?_ ?_⟩
  · intro i hi
    rw [Nat.zero_add]
    exact hok i hi
  · rw [Nat.zero_add]
    exact he

end Format

namespace WireType

/-- A value of a named type has a line. -/
theorem print_ne_nil_of_isNamed {t : WireType} (ht : t.isNamed = true) (a : t.Carrier)
    (path : String) : t.format.print a path ≠ [] := by
  intro hp
  cases hempty : t.isEmptyArray with
  | true =>
    -- Even an array of no bytes has a line.
    cases t with
    | octets k => cases hp
    | boxed t => cases ht
    | _ => cases hempty
  | false =>
    obtain ⟨F, hF, _⟩ := free_of_isNamed t ht
    have hn := Nat.le_refl (t.format.level a)
    have hb := (hF _).encode_of_print_eq_nil a path hn hp
    exact absurd ((t.exact ⟨_, false⟩).length_pos (hungry hempty) hn hb) (Nat.lt_irrefl 0)

/-- Nothing is read where no line stands. -/
theorem exists_error_of_nothing (t : WireType) {source : Source} {levels : Nat} {path : String}
    (hpath : path ≠ "") (h : ∀ q, TxRep.Within path q → source.get? q = none) :
    ∃ e, t.format.read source levels path = .error e := by
  induction t using induct generalizing levels with
  | option t ih =>
    have hflag : source.get? (join path "_present") = none := h _ (TxRep.within_join hpath _)
    exact ⟨_, Except.bind_of_error (Source.value_of_none hflag)⟩
  | boxed t ih =>
    cases levels with
    | zero => exact ⟨_, rfl⟩
    | succ levels => exact ih
  | named t ht =>
    cases hr : t.format.read source levels path with
    | error e => exact ⟨e, rfl⟩
    | ok a =>
      obtain ⟨F, hF, _⟩ := free_of_isNamed t ht
      obtain ⟨line, hl⟩ := List.exists_mem_of_ne_nil _ (print_ne_nil_of_isNamed ht a path)
      have hfound := (hF levels).found source levels path a line (Nat.le_refl _) hr hl
      have hwithin := ((hF _).placed a path line (Nat.le_refl _) hl).within hpath
      rw [Source.contains, h _ hwithin] at hfound
      cases hfound

end WireType

/-! ## Declared lengths -/

namespace Envelope

/-- A declared number of items does not amplify.  The text of an envelope has at least as many
fields as there are items in the envelope, of which none that its format announces is left out; and
an array of any type, however many items its text declares, ends in an error at the first item that
has no lines of its own, or before. -/
theorem itemCount_le_fields {text : String} {env : Envelope} (hread : ofText text = .ok env) :
    Layout.itemCount (format.layout env) ≤ env.itemCount ∧
    (∃ source, Source.parse text = .ok source ∧ env.itemCount ≤ source.fields.length) ∧
    ∀ (t : WireType) source levels path max m k, source.length max path = .ok m → k < m →
      (∀ q, TxRep.Within (item path k) q → source.get? q = none) →
      ∃ j ≤ k, (∀ i < j, ∃ a, t.format.read source levels (item path i) = .ok a) ∧
        ∃ e, t.format.read source levels (item path j) = .error e ∧
          (Format.array max t.format).read source levels path = .error e := by
  obtain ⟨source, hparse, hr⟩ := Except.bind_eq_ok_iff.1 hread
  have hregular : Format.Regular TxRep.maxLevels _ format := Envelope.outlined rfl
  have hlines := hregular.length_print_le (Nat.le_refl _) hr
  refine ⟨counts env, ⟨source, hparse, Nat.le_trans (Nat.le_of_lt (ample env "")) hlines⟩, ?_⟩
  intro t source levels path max m k hlength hk hnothing
  have herror : ∃ e, t.format.read source levels (item path k) = .error e :=
    t.exists_error_of_nothing (TxRep.item_ne_empty path k) hnothing
  obtain ⟨j, hj, hok, e, he, hitems⟩ := Format.exists_first_error hk herror
  exact ⟨j, hj, hok, e, he, (Except.bind_of_ok hlength).trans hitems⟩

/-- An envelope with an operation, a claimant in it, and three conditions on the claim. -/
def crowded : Envelope :=
  .v0 ⟨⟨.replicate 32 0, 100, 1, none, .none,
    [⟨none, .createClaimableBalance ⟨.native, 1,
      [⟨⟨.replicate 32 0⟩, .and [.unconditional, .not (some .unconditional)]⟩]⟩⟩]⟩, []⟩

/-- A list that is declared to be as long as a list can be, with one item. -/
def overstated : Source :=
  ⟨[("a.len", "4294967295"), ("a[0]", "7")]⟩

/-- The five items of `crowded` are among the fields of its text, and reading `overstated` stops at
its second item. -/
theorem itemCount_le_fields_crowded :
    ofText crowded.toText = .ok crowded ∧ crowded.itemCount = 5 ∧
    (∃ source, Source.parse crowded.toText = .ok source ∧ 5 ≤ source.fields.length) ∧
    (Format.array Xdr.unbounded WireType.uint32.format).read overstated 64 "a" =
      .error (.missing "a[1]") := by
  have hread : ofText crowded.toText = .ok crowded :=
    (Format.Regular.toText_spec (fun n => Envelope.outlined rfl) cleanAt_root crowded).1 _ rfl
      (by decide)
  obtain ⟨_, hcount, hstop⟩ := itemCount_le_fields hread
  have hnothing : ∀ q, TxRep.Within (item "a" 1) q → overstated.get? q = none := by
    intro q hq
    refine Source.get?_eq_none_iff.2 fun field hf e => ?_
    subst e
    rcases List.mem_cons.1 hf with rfl | hf
    · exact TxRep.Within.join_item (by decide) (TxRep.within_refl (join "a" "len")) hq
    · obtain rfl := List.mem_singleton.1 hf
      exact absurd (hq.item_inj (TxRep.within_refl (item "a" 0))) (by decide)
  have hlength : overstated.length Xdr.unbounded "a" = .ok 4294967295 := by decide
  obtain ⟨j, hj, _, e, he, hread'⟩ :=
    hstop .uint32 overstated 64 "a" Xdr.unbounded _ 1 hlength (by decide) hnothing
  refine ⟨hread, rfl, hcount, hread'.trans ?_⟩
  match j, hj with
  | 0, _ => cases he
  | 1, _ => exact congrArg _ (Except.error.inj he).symm

end Envelope

end StellarTx
