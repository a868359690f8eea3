/-
# Results in sequence

When `>>=` and `<$>` on `Except` succeed, and with what; and checks in a sequence, of which the
first that fails counts.
-/

namespace Except

/-- Results are compared as data: errors like values. -/
instance instDecidableEq {ε α : Type} [DecidableEq ε] [DecidableEq α] : DecidableEq (Except ε α)
  | .ok a, .ok b => decidable_of_iff (a = b) ⟨congrArg ok, ok.inj⟩
  | .error e, .error f => decidable_of_iff (e = f) ⟨congrArg error, error.inj⟩
  | .ok _, .error _ => isFalse nofun
  | .error _, .ok _ => isFalse nofun

variable {ε α β : Type} {x : Except ε α}

/-- What follows a success starts with its value. -/
theorem bind_of_ok {k : α → Except ε β} {a : α} (h : x = ok a) : (x >>= k) = k a := by
  rw [h]
  rfl

/-- After an error nothing more is done. -/
theorem bind_of_error {k : α → Except ε β} {e : ε} (h : x = error e) : (x >>= k) = error e := by
  rw [h]
  rfl

/-- What would be made of a value does not change the error. -/
theorem map_of_error {g : α → β} {e : ε} (h : x = error e) : (g <$> x) = error e := by
  rw [h]
  rfl

/-- Two steps succeed if the first one gives a value from which the second one does. -/
theorem bind_eq_ok_iff {k : α → Except ε β} {b : β} :
    (x >>= k) = ok b ↔ ∃ a, x = ok a ∧ k a = ok b := by
  cases x with
  | error e =>
    constructor
    · intro h; cases h
    · rintro ⟨a, h, _⟩; cases h
  | ok a =>
    constructor
    · exact fun h => ⟨a, rfl, h⟩
    · rintro ⟨a', h, hk⟩
      cases h
      exact hk

/-- What is made of a value is made of the value there is. -/
theorem map_eq_ok_iff {g : α → β} {b : β} : (g <$> x) = ok b ↔ ∃ a, x = ok a ∧ g a = b := by
  cases x with
  | error e =>
    constructor
    · intro h; cases h
    · rintro ⟨a, h, _⟩; cases h
  | ok a =>
    constructor
    · intro h
      cases h
      exact ⟨a, rfl, rfl⟩
    · rintro ⟨a', h, rfl⟩
      cases h
      rfl

/-- A check in front of a sequence. -/
theorem seq_eq_ok_iff {x : Except ε Unit} {k : Unit → Except ε β} {b : β} :
    (x >>= k) = ok b ↔ x = ok () ∧ k () = ok b :=
  bind_eq_ok_iff.trans ⟨fun ⟨_, h⟩ => h, fun h => ⟨(), h⟩⟩

/-- A condition in front of a sequence. -/
theorem check_bind_eq_ok_iff {c : Prop} [Decidable c] {e : ε} {k : Unit → Except ε β} {b : β} :
    (if c then (throw e : Except ε Unit) >>= k else k ()) = ok b ↔ ¬ c ∧ k () = ok b := by
  by_cases h : c
  · rw [if_pos h]
    constructor
    · intro h'; cases h'
    · exact fun h' => absurd h h'.1
  · rw [if_neg h]
    exact (and_iff_right h).symm

/-- A sequence of checks. -/
theorem forM_eq_ok_iff {f : α → Except ε Unit} {items : List α} :
    items.forM f = ok () ↔ ∀ a ∈ items, f a = ok () := by
  induction items with
  | nil => exact iff_of_true rfl nofun
  | cons a items ih =>
    show (f a >>= fun _ => items.forM f) = ok () ↔ _
    rw [seq_eq_ok_iff, List.forall_mem_cons, ← ih]

/-- What reads back has a writing of its own. -/
theorem injective_of_ok {f : α → β} {g : β → Except ε α} (h : ∀ a, g (f a) = ok a) :
    Function.Injective f := by
  intro a b e
  have ha := h a
  rw [e, h b] at ha
  exact (ok.inj ha).symm

/-- What succeeded has a value. -/
theorem exists_of_isOk (h : x.isOk = true) : ∃ a, x = ok a := by
  cases x with
  | error e => cases h
  | ok a => exact ⟨a, rfl⟩

/-- To forget the error is to keep the value. -/
theorem toOption_eq_some_iff {a : α} : x.toOption = some a ↔ x = ok a := by
  cases x with
  | error e =>
    constructor <;> (intro h; cases h)
  | ok b =>
    constructor <;> (intro h; cases h; rfl)

end Except

namespace StellarTx

/-! ## The first error -/

/-- A result, unless there are errors, of which the first counts. -/
def firstOr {ε α : Type} (errors : List ε) (result : Except ε α) : Except ε α :=
  match errors with
  | [] => result
  | e :: _ => .error e

/-- An error, if a condition holds. -/
def errorIf {ε : Type} (c : Prop) [Decidable c] (e : ε) : List ε := if c then [e] else []

section
variable {ε α β : Type} {errors others : List ε} {result : Except ε α}

/-- The first of two lists of errors goes first. -/
theorem firstOr_append :
    firstOr (errors ++ others) result = firstOr errors (firstOr others result) := by
  cases errors <;> rfl

/-- Without errors the result stands. -/
theorem firstOr_eq_ok_iff {a b : α} :
    firstOr errors (.ok a) = .ok b ↔ errors = [] ∧ a = b := by
  cases errors with
  | nil => simp [firstOr]
  | cons e rest => simp [firstOr]

/-- The error that is reported is the first one. -/
theorem firstOr_eq_error_iff {a : α} {e : ε} :
    firstOr errors (.ok a) = .error e ↔ errors.head? = some e := by
  cases errors with
  | nil => simp [firstOr]
  | cons e rest => simp [firstOr]

/-- What comes behind is put off, and comes first only if there is no error. -/
theorem bind_firstOr {k : α → Except ε β} :
    (firstOr errors result >>= k) = firstOr errors (result >>= k) := by
  cases errors <;> rfl

/-- An error that is not made is one whose condition fails. -/
theorem errorIf_eq_nil_iff {c : Prop} [Decidable c] {e : ε} : errorIf c e = [] ↔ ¬ c := by
  unfold errorIf
  split
  · next h => exact iff_of_false (List.cons_ne_nil _ _) (not_not_intro h)
  · next h => exact iff_of_true rfl h

/-- What is absent cannot be in error. -/
theorem elim_errorIf_eq_nil_iff {o : Option α} {c : α → Prop} [DecidablePred c] {e : α → ε} :
    (o.elim [] fun a => errorIf (c a) (e a)) = [] ↔ ∀ a, o = some a → ¬ c a := by
  cases o with
  | none => exact iff_of_true rfl nofun
  | some a =>
    refine errorIf_eq_nil_iff.trans ⟨fun h _ ha => ?_, fun h => h a rfl⟩
    cases ha
    exact h

/-- An error that may be there, as a list. -/
theorem errorIf_eq_toList {c : Prop} [Decidable c] {e : ε} :
    errorIf c e = (if c then some e else none).toList := by
  unfold errorIf
  split <;> rfl

/-- A condition in front of a sequence. -/
theorem check_bind_eq {c : Prop} [Decidable c] {e : ε} {k : Unit → Except ε β} :
    (if c then (throw e : Except ε Unit) >>= k else k ()) = firstOr (errorIf c e) (k ()) := by
  unfold errorIf
  split <;> rfl

end

end StellarTx
