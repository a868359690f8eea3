/-
# Regular formats

`Regular n F f` says that the format `f` is put together from known parts down to `n` levels of
nesting, and that the lines of a value stand at the places `F`.  The constructors are the operations
on formats with what each of them asks for: fields have plain names, the parts of a sequence keep
to different places, the arms of a union have different discriminants and names, and so on.  A law
about formats is an induction over this relation, with one case for every operation.

What the operations ask for is decidable, and `Outlined` puts it off: a type shows how its format is
put together, and one test of the `Outline` that comes out makes the format regular.
-/
import StellarTx.Asset.Pool
import StellarTx.Format.Recursive

namespace StellarTx

/-! ## Words -/

/-- Whether a name can stand between the dots of a path. -/
def IsPlain (name : String) : Prop :=
  name.toList ≠ [] ∧
    ∀ c ∈ name.toList, c ≠ '.' ∧ c ≠ '[' ∧ c ≠ ':' ∧ Text.isBlank c = false

/-- Whether a text can stand as a value without quotes. -/
def IsWord (text : String) : Prop :=
  text.toList.head? ≠ some '"' ∧ ∀ c ∈ text.toList, Text.isBlank c = false

/-- The test for names, in a form that is quick to run. -/
def isPlain (name : String) : Bool :=
  !name.toList.isEmpty &&
    name.toList.all fun c => c != '.' && c != '[' && c != ':' && !Text.isBlank c

/-- The test for words, in a form that is quick to run. -/
def isWord (text : String) : Bool :=
  text.toList.head? != some '"' && text.toList.all fun c => !Text.isBlank c

/-- The quick test is the same thing. -/
theorem isPlain_iff {name : String} : isPlain name = true ↔ IsPlain name := by
  simp only [isPlain, IsPlain, Bool.and_eq_true, Bool.not_eq_true', List.isEmpty_eq_false_iff,
    List.all_eq_true, bne_iff_ne, and_assoc]

/-- The same for words. -/
theorem isWord_iff {text : String} : isWord text = true ↔ IsWord text := by
  simp only [isWord, IsWord, Bool.and_eq_true, Bool.not_eq_true', List.all_eq_true, bne_iff_ne]

/-- So whether a name is plain is decided by a run over its characters. -/
instance (name : String) : Decidable (IsPlain name) := decidable_of_iff _ isPlain_iff

instance (text : String) : Decidable (IsWord text) := decidable_of_iff _ isWord_iff

/-! ## Places -/

/-- Where the lines of a value may stand, seen from its path. -/
structure Places where
  /-- At the path itself. -/
  here : Bool
  /-- At or under one of these fields. -/
  names : List String
  /-- At or under items. -/
  items : Bool
  deriving DecidableEq, Repr

namespace Places

/-- No place at all. -/
def nowhere : Places := ⟨false, [], false⟩

/-- The path itself. -/
def itself : Places := ⟨true, [], false⟩

/-- A field and what is under it. -/
def under (name : String) : Places := ⟨false, [name], false⟩

/-- The number of items, and the items and what is under them. -/
def listed : Places := ⟨false, ["len"], true⟩

/-- The places of both. -/
def union (F G : Places) : Places := ⟨F.here || G.here, F.names ++ G.names, F.items || G.items⟩

/-- All places of `F` are places of `G`. -/
def Sub (F G : Places) : Prop :=
  (F.here = true → G.here = true) ∧ F.names ⊆ G.names ∧ (F.items = true → G.items = true)

/-- No place of `F` is a place of `G`. -/
def Apart (F G : Places) : Prop :=
  (F.here && G.here) = false ∧ (∀ name ∈ F.names, name ∉ G.names) ∧
    (F.items && G.items) = false

instance (F G : Places) : Decidable (Apart F G) :=
  inferInstanceAs (Decidable (_ ∧ _ ∧ _))

/-- A value without lines keeps to any places. -/
theorem nowhere_sub (F : Places) : nowhere.Sub F := by
  refine ⟨fun h => ?_, fun _ h => ?_, fun h => ?_⟩ <;> cases h

/-- The lines of either part keep to the places of the whole. -/
theorem sub_union_left (F G : Places) : F.Sub (F.union G) :=
  ⟨fun h => by simp [union, h], fun _ h => List.mem_append_left _ h, fun h => by simp [union, h]⟩

theorem sub_union_right (F G : Places) : G.Sub (F.union G) :=
  ⟨fun h => by simp [union, h], fun _ h => List.mem_append_right _ h, fun h => by simp [union, h]⟩

end Places

/-! ## Unions -/

namespace Arm

variable {α : Type}

/-- Whether discriminants and names tell arms apart, and the names are words. -/
def toldApart (codes : List Int32) (labels : List String) : Bool :=
  decide codes.Nodup && decide labels.Nodup && labels.all isWord

/-- The arms of a union fit: they are told apart by discriminant and by name, and every value is in
exactly one of them. -/
structure Sound (arms : List (Arm α)) : Prop where
  apart : toldApart (arms.map (·.code)) (arms.map (·.label)) = true
  single : ∀ a, (arms.filter fun arm => (arm.get? a).isSome).length = 1

end Arm

/-- The name of a pool share among the assets.  No other value is written like it. -/
def AssetOrShare.shareLabel : String := "ASSET_TYPE_POOL_SHARE"

/-- The places of an asset, of the name of a share, and of its pool. -/
def AssetOrShare.places (F : Places) : Places :=
  (Places.itself.union (.under "type")).union F

/-! ## Scalars and tokens -/

namespace Format

/-- The formats of scalars whose text is a word. -/
inductive Scalar : {α : Type} → Format α → Prop where
  | uint32 : Scalar uint32
  | int32 : Scalar int32
  | uint64 : Scalar uint64
  | int64 : Scalar int64
  | bool : Scalar bool
  | amount : Scalar amount
  | timestamp : Scalar timestamp
  | signedTimestamp : Scalar signedTimestamp

/-- A text form that fits a format: a word that reads back, if the value has bytes, and is refused
otherwise. -/
structure Token {α : Type} (f : Format α) (text : α → String) (ofText? : String → Option α) :
    Prop where
  level : ∀ a, f.level a = 0
  word : ∀ a, IsWord (text a)
  back : ∀ a bytes, f.encode a = .ok bytes → ofText? (text a) = some a
  refuse : ∀ a e, f.encode a = .error e → ofText? (text a) = none
  valid : ∀ s a, ofText? s = some a → ∃ bytes, f.encode a = .ok bytes

/-- Reading takes at least one byte. -/
def Hungry {α : Type} (f : Format α) : Prop :=
  ∀ limits offset, ∃ e, f.decode limits ⟨offset, []⟩ = .error e

/-! ## Regular formats -/

/-- A format is put together from known parts down to `n` levels, and keeps its lines at some
places. -/
inductive Regular : Nat → Places → {α : Type} → Format α → Prop where
  | unit {n : Nat} : Regular n .nowhere unit
  | scalar {n : Nat} {α : Type} {f : Format α} (h : Scalar f) : Regular n .itself f
  | octets {n : Nat} (k : Nat) : Regular n .itself (octets k)
  | bytes {n max : Nat} (small : max < UInt32.size) : Regular n .itself (bytes max)
  | string {n max : Nat} (small : max < UInt32.size) : Regular n .itself (string max)
  | extension {n : Nat} (union : String) : Regular n (.under "v") (extension union)
  | field {n : Nat} {F : Places} {α : Type} {f : Format α} (name : String) (h : Regular n F f)
      (plain : IsPlain name) : Regular n (.under name) (field name f)
  | and {n : Nat} {F G : Places} {α β : Type} {f : Format α} {g : Format β} (h : Regular n F f)
      (k : Regular n G g) (apart : F.Apart G) : Regular n (F.union G) (f.and g)
  | map {n : Nat} {F : Places} {α β : Type} {f : Format α} {make : α → β} {parts : β → α}
      {h₁ : ∀ a, parts (make a) = a} {h₂ : ∀ b, make (parts b) = b} (h : Regular n F f) :
      Regular n F (map f make parts h₁ h₂)
  | option {n : Nat} {F : Places} {α : Type} {f : Format α} (h : Regular n F f)
      (apart : "_present" ∉ F.names) :
      Regular n (F.union (.under "_present")) (option f)
  | array {n max : Nat} {F : Places} {α : Type} {f : Format α} (h : Regular n F f)
      (hungry : Hungry f) (small : max < UInt32.size) :
      Regular n .listed (array max f)
  | deeper {n : Nat} {F : Places} {α : Type} {f : Format α} (h : ∀ m, n = m + 1 → Regular m F f) :
      Regular n F (deeper f)
  | token {n : Nat} {F : Places} {α : Type} {f : Format α} {text : α → String}
      {ofText? : String → Option α} (h : Regular n F f) (fits : Token f text ofText?)
      (own : ofText? AssetOrShare.shareLabel = none) :
      Regular n .itself (token f text ofText?)
  | union {n : Nat} {F : Places} {α : Type} {arms : List (Arm α)} (name : String)
      (sound : Arm.Sound arms) (own : ∀ arm ∈ arms, arm.label ≠ AssetOrShare.shareLabel)
      (h : ∀ arm ∈ arms, Regular n F arm.format) (apart : "type" ∉ F.names) :
      Regular n (F.union (.under "type")) (union name arms)
  | assetOrShare {n : Nat} {F G : Places} {π : Type} {pool : Format π} (name : String)
      (asset : Regular n .itself Asset.format) (sound : Arm.Sound (AssetOrShare.arms pool))
      (arms : ∀ arm ∈ AssetOrShare.arms pool, Regular n G arm.format) (share : Regular n F pool)
      (apart : "type" ∉ F.names) (below : F.here = false) :
      Regular n (AssetOrShare.places F) (AssetOrShare.format name pool)
  | widen {n : Nat} {F G : Places} {α : Type} {f : Format α} (sub : F.Sub G)
      (h : Regular n F f) : Regular n G f

/-! ## Outlines -/

/-- The places of a format, and whether its parts are what a regular format asks for.  The test is
put together along with the places, and runs once for a whole format. -/
structure Outline where
  places : Places
  sound : Bool
  deriving DecidableEq, Repr

namespace Outline

/-- Fields that are known to fit. -/
def fields (names : List String) : Outline := ⟨⟨false, names, false⟩, true⟩

/-- The path itself, if a test passes. -/
def itself (test : Bool) : Outline := ⟨.itself, test⟩

/-- A field. -/
def under (name : String) (O : Outline) : Outline := ⟨.under name, isPlain name && O.sound⟩

/-- An array. -/
def listed (max : Nat) (O : Outline) : Outline := ⟨.listed, decide (max < UInt32.size) && O.sound⟩

/-- One of both. -/
def union (O P : Outline) : Outline := ⟨O.places.union P.places, O.sound && P.sound⟩

/-- One next to the other. -/
def beside (O P : Outline) : Outline :=
  ⟨O.places.union P.places, decide (O.places.Apart P.places) && (O.sound && P.sound)⟩

/-- What is under a path together with a field at the path that says what is there. -/
def flagged (flag : String) (O : Outline) : Outline :=
  ⟨O.places.union (.under flag), decide (flag ∉ O.places.names) && O.sound⟩

/-- The parts of a union whose arms have these names, and the name of the arm that is there. -/
def tagged (labels : List String) (O : Outline) : Outline :=
  ⟨O.places.union (.under "type"), decide ("type" ∉ O.places.names) &&
    (labels.all (· != AssetOrShare.shareLabel) && O.sound)⟩

end Outline

/-- A format with this outline is regular if the test of the outline passes. -/
def Outlined (n : Nat) (O : Outline) {α : Type} (f : Format α) : Prop :=
  O.sound = true → Regular n O.places f

namespace Outlined

variable {α β : Type} {n max : Nat} {f : Format α} {g : Format β} {O P : Outline}

/-- A number has one line, at its own path. -/
theorem scalar (h : Scalar f) : Outlined n (.itself true) f := fun _ => .scalar h

theorem octets (k : Nat) : Outlined n (.itself true) (octets k) := fun _ => .octets k

/-- The length in front of a byte string must fit into four bytes. -/
theorem bytes : Outlined n (.itself (decide (max < UInt32.size))) (bytes max) :=
  fun small => .bytes (of_decide_eq_true small)

/-- So must that of a text. -/
theorem string : Outlined n (.itself (decide (max < UInt32.size))) (string max) :=
  fun small => .string (of_decide_eq_true small)

/-- The only line of an extension point is its version. -/
theorem extension (name : String) : Outlined n (.fields ["v"]) (extension name) :=
  fun _ => .extension name

/-- A field moves everything under its name. -/
theorem field (name : String) (h : Outlined n O f) : Outlined n (O.under name) (field name f) := by
  intro hs
  obtain ⟨plain, hO⟩ := Bool.and_eq_true_iff.1 hs
  exact .field name (h hO) (isPlain_iff.1 plain)

/-- The lines of two values must keep out of each other's way, which is put off to the test. -/
theorem and (h : Outlined n O f) (k : Outlined n P g) : Outlined n (O.beside P) (f.and g) := by
  intro hs
  obtain ⟨apart, hboth⟩ := Bool.and_eq_true_iff.1 hs
  obtain ⟨hO, hP⟩ := Bool.and_eq_true_iff.1 hboth
  exact .and (h hO) (k hP) (of_decide_eq_true apart)

/-- Another form of a value has the same lines. -/
theorem map {make : α → β} {parts : β → α} {h₁ : ∀ a, parts (make a) = a}
    {h₂ : ∀ b, make (parts b) = b} (h : Outlined n O f) :
    Outlined n O (map f make parts h₁ h₂) :=
  fun hs => .map (h hs)

/-- The flag stands beside the lines of the value, so that no field may be named like it. -/
theorem option (h : Outlined n O f) : Outlined n (O.flagged "_present") (option f) := by
  intro hs
  obtain ⟨apart, hO⟩ := Bool.and_eq_true_iff.1 hs
  exact .option (h hO) (of_decide_eq_true apart)

/-- Items must take bytes, or a short text of bytes could announce any number of them. -/
theorem array (h : Outlined n O f) (hungry : Hungry f) :
    Outlined n (O.listed max) (array max f) := by
  intro hs
  obtain ⟨small, hO⟩ := Bool.and_eq_true_iff.1 hs
  exact .array (h hO) hungry (of_decide_eq_true small)

/-- What is nested is asked for one level below, and not at all at level zero. -/
theorem deeper (h : ∀ m, n = m + 1 → Outlined m O f) : Outlined n O (deeper f) :=
  fun hs => .deeper fun m hm => h m hm hs

/-- What holds of one layer of a format, given the layers inside, holds of the format. -/
theorem of_layer {layer : Format α → Format α} (e : f = layer f)
    (h : ∀ {n}, (∀ m, n = m + 1 → Outlined m O f) → Outlined n O (layer f)) : Outlined n O f := by
  induction n with
  | zero =>
    rw [e]
    exact h fun m hm => by omega
  | succ n ih =>
    rw [e]
    apply h
    intro m hm
    obtain rfl : n = m := by omega
    exact ih

/-- A word replaces the lines of the value; none of the words may be the name of a pool share. -/
theorem token {text : α → String} {ofText? : String → Option α} (h : Outlined n O f)
    (hs : O.sound = true) (fits : Token f text ofText?)
    (own : ofText? AssetOrShare.shareLabel = none := by rfl) :
    Outlined n (.itself true) (token f text ofText?) :=
  fun _ => .token (h hs) fits own

end Outlined

/-- The outline of a format can be written in another way. -/
theorem Outlined.at {α : Type} {n : Nat} {f : Format α} {O P : Outline} (h : Outlined n O f)
    (e : O = P) : Outlined n P f := e ▸ h

/-! ## Unions arm by arm -/

/-- The arms of a union hold regular formats, if the test of the outline passes. -/
def OutlinedArms {α : Type} (n : Nat) (O : Outline) (arms : List (Arm α)) : Prop :=
  O.sound = true → ∀ arm ∈ arms, Regular n O.places arm.format

namespace OutlinedArms

variable {α β : Type} {n : Nat} {O P : Outline} {arms : List (Arm α)}

/-- Without arms there are no places to keep to. -/
theorem nil : OutlinedArms n ⟨.nowhere, true⟩ ([] : List (Arm α)) := by
  intro _ arm h
  cases h

/-- The lines of an arm keep to the places of all of them, since only one arm is ever there. -/
theorem cons {first : Arm α} (h : Outlined n O first.format) (hs : OutlinedArms n P arms) :
    OutlinedArms n (O.union P) (first :: arms) := by
  intro hsound arm ha
  obtain ⟨hO, hP⟩ := Bool.and_eq_true_iff.1 hsound
  rcases List.mem_cons.1 ha with rfl | ha
  · exact .widen (Places.sub_union_left _ _) (h hO)
  · exact .widen (Places.sub_union_right _ _) (hs hP arm ha)

/-- An arm that holds nothing has no places. -/
theorem void {code : Int32} {label : String} {value : α} {get? : α → Option Unit}
    {h₁ : ∀ p : Unit, get? value = some p} {h₂ : ∀ a, ∀ p : Unit, get? a = some p → value = a}
    (hs : OutlinedArms n P arms) :
    OutlinedArms n P (Format.void code label value get? h₁ h₂ :: arms) := by
  intro hsound arm ha
  rcases List.mem_cons.1 ha with rfl | ha
  · exact .widen (Places.nowhere_sub _) .unit
  · exact hs hsound arm ha

/-- Unions may be put together from two lists of arms. -/
theorem append {brms : List (Arm α)} (h : OutlinedArms n O arms) (hs : OutlinedArms n P brms) :
    OutlinedArms n (O.union P) (arms ++ brms) := by
  intro hsound arm ha
  obtain ⟨hO, hP⟩ := Bool.and_eq_true_iff.1 hsound
  rcases List.mem_append.1 ha with ha | ha
  · exact .widen (Places.sub_union_left _ _) (h hO arm ha)
  · exact .widen (Places.sub_union_right _ _) (hs hP arm ha)

/-- Arms hold the same in a larger type. -/
theorem lift {embed : α → β} {restrict? : β → Option α}
    {h₁ : ∀ a, restrict? (embed a) = some a} {h₂ : ∀ b a, restrict? b = some a → embed a = b}
    (h : OutlinedArms n O arms) :
    OutlinedArms n O (arms.map (·.lift embed restrict? h₁ h₂)) := by
  intro hsound arm ha
  obtain ⟨x, hx, rfl⟩ := List.mem_map.1 ha
  exact h hsound x hx

end OutlinedArms

/-- The outline that is asked for may be written in another way than the one that comes out. -/
theorem OutlinedArms.at {α : Type} {n : Nat} {O P : Outline} {arms : List (Arm α)}
    (h : OutlinedArms n O arms) (e : O = P) : OutlinedArms n P arms := e ▸ h

/-- A union whose arms hold regular formats is regular. -/
theorem Outlined.union {n : Nat} {O : Outline} {α : Type} {arms : List (Arm α)} (name : String)
    (sound : Arm.Sound arms) (h : OutlinedArms n O arms) :
    Outlined n (O.tagged (arms.map (·.label))) (Format.union name arms) := by
  intro hs
  obtain ⟨apart, hs⟩ := Bool.and_eq_true_iff.1 hs
  obtain ⟨own, hO⟩ := Bool.and_eq_true_iff.1 hs
  refine .union name sound (fun arm ha => ?_) (h hO) (of_decide_eq_true apart)
  exact bne_iff_ne.1 (List.all_eq_true.1 own _ (List.mem_map_of_mem ha))

end Format

end StellarTx
