/-
# Verification is a search of all candidates

The signer of a signature is looked for among the candidates with its hint only.  The outcome is
that of a search which tests every candidate and knows nothing of hints; these only decide which
error tells that nobody made a signature.  The first signature that nobody made decides, and a
candidate that never signs makes no difference: `Envelope.verify_searches`.
-/
import StellarTx.Proofs.Verification

namespace StellarTx

variable {hash : Octets 32} {candidates : List SignerKey} {signature : DecoratedSignature}
  {i : Nat}

/-! ## One signature -/

theorem SignerKey.hasHint_iff {signer : SignerKey} :
    signer.hasHint signature = true ↔ signer.hint? = some signature.hint :=
  beq_iff_eq

theorem SignerKey.verifies_hashX_iff {digest : Octets 32} :
    (hashX digest).verifies hash signature = true ↔
      digest.lastFour = signature.hint ∧ Hash.sha256 signature.signature = digest := by
  rw [verifies, Bool.and_eq_true_iff, hasHint_iff, hint?, Option.some.injEq, beq_iff_eq]

/-- Nobody can have made a signature whose hint no candidate has. -/
theorem signerOf_of_no_hint
    (h : ∀ signer ∈ candidates, signer.hint? ≠ some signature.hint) :
    signerOf hash candidates i signature = .error (.unknownSigner i signature.hint) := by
  have hnil : candidates.filter (·.hasHint signature) = [] := by
    rw [List.filter_eq_nil_iff]
    intro signer hmem
    rw [SignerKey.hasHint_iff]
    exact h signer hmem
  rw [signerOf, hnil]

/-- A signature that verifies against no candidate, though some have its hint. -/
theorem signerOf_of_none_verifies {first : SignerKey}
    (hfirst : candidates.find? (·.hasHint signature) = some first)
    (hnone : ∀ signer ∈ candidates, signer.verifies hash signature = false) :
    signerOf hash candidates i signature = .error (.invalidSignature i first) := by
  have hfound : (candidates.filter (·.hasHint signature)).find? (·.verifies hash signature) =
      none := by
    rw [find?_filter_hasHint, List.find?_eq_none]
    intro signer hmem
    rw [hnone signer hmem]
    exact Bool.false_ne_true
  rw [← List.head?_filter] at hfirst
  obtain ⟨rest, hfilter⟩ := List.head?_eq_some_iff.1 hfirst
  rw [hfilter] at hfound
  simp only [signerOf, hfilter, hfound]

/-- Only candidates with the hint of the signature count, in their order. -/
theorem signerOf_congr {others : List SignerKey}
    (h : candidates.filter (·.hasHint signature) = others.filter (·.hasHint signature)) :
    signerOf hash candidates i signature = signerOf hash others i signature := by
  unfold signerOf
  rw [h]

/-- The candidate that an error shows has the hint of the signature. -/
theorem hint?_of_signerOf_eq_error {index : Nat} {first : SignerKey}
    (h : signerOf hash candidates i signature = .error (.invalidSignature index first)) :
    first.hint? = some signature.hint := by
  rw [signerOf] at h
  split at h
  · cases h
  · next head rest hfilter =>
    split at h
    · cases h
    · cases h
      have hmem : first ∈ candidates.filter (·.hasHint signature) := by
        rw [hfilter]
        exact List.mem_cons_self
      exact SignerKey.hasHint_iff.1 (List.mem_filter.1 hmem).2

/-! ## All signatures -/

section
variable {signatures : List DecoratedSignature}

/-- The signers are the first candidates that the signatures verify against. -/
theorem signersOf_eq_ok_iff_map {signers : List SignerKey} :
    signersOf hash candidates i signatures = .ok signers ↔
      signers.map some =
        signatures.map fun signature => candidates.find? (·.verifies hash signature) := by
  rw [signersOf_eq_ok_iff, ← List.forall₂_eq_eq_eq, List.forall₂_map_left_iff,
    List.forall₂_map_right_iff]
  constructor
  · exact List.Forall₂.imp fun _ _ h => h.symm
  · exact List.Forall₂.imp fun _ _ h => h.symm

theorem exists_signers_of_verifies
    (h : ∀ signature ∈ signatures, ∃ signer ∈ candidates, signer.verifies hash signature = true) :
    ∃ signers : List SignerKey, signers.map some =
      signatures.map fun signature => candidates.find? (·.verifies hash signature) := by
  induction signatures with
  | nil => exact ⟨[], rfl⟩
  | cons signature rest ih =>
    rw [List.forall_mem_cons] at h
    obtain ⟨signers, hsigners⟩ := ih h.2
    obtain ⟨first, hfirst⟩ := Option.isSome_iff_exists.1 (List.find?_isSome.2 h.1)
    exact ⟨first :: signers, by rw [List.map_cons, List.map_cons, hsigners, hfirst]⟩

/-- The first signature without a signer decides: those in front of it have signers, and those
behind it are not looked at. -/
theorem signersOf_append_of_error {front rest : List DecoratedSignature} {e : VerificationError}
    (hfront : ∀ signature ∈ front, ∃ signer ∈ candidates, signer.verifies hash signature = true)
    (h : signerOf hash candidates (i + front.length) signature = .error e) :
    signersOf hash candidates i (front ++ signature :: rest) = .error e := by
  induction front generalizing i with
  | nil => exact Except.bind_of_error h
  | cons first front ih =>
    rw [List.forall_mem_cons] at hfront
    obtain ⟨signer, hsigner⟩ := Option.isSome_iff_exists.1 (List.find?_isSome.2 hfront.1)
    have hrest : signersOf hash candidates (i + 1) (front ++ signature :: rest) = .error e := by
      apply ih hfront.2
      rw [← h, List.length_cons]
      congr 1
      omega
    rw [List.cons_append, signersOf, Except.bind_of_ok (signerOf_eq_ok_iff.2 hsigner)]
    exact Except.bind_of_error hrest

theorem signersOf_congr {others : List SignerKey}
    (h : ∀ signature : DecoratedSignature,
      candidates.filter (·.hasHint signature) = others.filter (·.hasHint signature)) :
    signersOf hash candidates i signatures = signersOf hash others i signatures := by
  induction signatures generalizing i with
  | nil => rfl
  | cons signature rest ih => rw [signersOf, signersOf, signerOf_congr (h signature), ih]

/-- An error comes from one of the signatures. -/
theorem exists_signerOf_of_error {e : VerificationError}
    (h : signersOf hash candidates i signatures = .error e) :
    ∃ index signature, signerOf hash candidates index signature = .error e := by
  induction signatures generalizing i with
  | nil => cases h
  | cons signature rest ih =>
    rw [signersOf] at h
    cases hsigner : signerOf hash candidates i signature with
    | error e' =>
      rw [Except.bind_of_error hsigner] at h
      cases h
      exact ⟨i, signature, hsigner⟩
    | ok signer =>
      rw [Except.bind_of_ok hsigner] at h
      cases hrest : signersOf hash candidates (i + 1) rest with
      | error e' =>
        rw [Except.bind_of_error hrest] at h
        cases h
        exact ih hrest
      | ok signers =>
        rw [Except.bind_of_ok hrest] at h
        cases h

end

/-! ## Candidates that never sign -/

/-- A signer that never signs has no hint, so that it is never looked at. -/
theorem filter_hasHint_preAuthTx {front back : List SignerKey} {digest : Octets 32} :
    (front ++ .preAuthTx digest :: back).filter (·.hasHint signature) =
      (front ++ back).filter (·.hasHint signature) := by
  rw [List.filter_append, List.filter_append, List.filter_cons]
  rfl

namespace Envelope

variable {env : Envelope} {network : Network}

theorem verify_of_unsigned (h : env.signatures = []) :
    env.verify network candidates = .error .unsigned :=
  if_pos h

theorem verify_of_no_hash (signed : env.signatures ≠ []) {e : SigningError}
    (h : env.hash network = .error e) : env.verify network candidates = .error (.signing e) := by
  rw [verify, if_neg signed, h]

theorem verify_of_hash (signed : env.signatures ≠ []) (h : env.hash network = .ok hash) :
    env.verify network candidates = signersOf hash candidates 0 env.signatures := by
  rw [verify, if_neg signed, h]

/-- Every outcome is that there are no signatures, that there is no digest, or that of the search
through the signatures. -/
theorem verify_cases (env : Envelope) (network : Network) (candidates : List SignerKey) :
    env.verify network candidates = .error .unsigned ∨
      (∃ e, env.verify network candidates = .error (.signing e)) ∨
      ∃ hash, env.verify network candidates = signersOf hash candidates 0 env.signatures := by
  by_cases hsigned : env.signatures = []
  · exact .inl (verify_of_unsigned hsigned)
  · cases h : env.hash network with
    | error e => exact .inr (.inl ⟨e, verify_of_no_hash hsigned h⟩)
    | ok hash => exact .inr (.inr ⟨hash, verify_of_hash hsigned h⟩)

/-- A signer that never signs makes no difference, wherever it stands among the candidates. -/
theorem verify_preAuthTx {front back : List SignerKey} {digest : Octets 32} :
    env.verify network (front ++ .preAuthTx digest :: back) =
      env.verify network (front ++ back) := by
  have hsearch (hash : Octets 32) :
      signersOf hash (front ++ .preAuthTx digest :: back) 0 env.signatures =
        signersOf hash (front ++ back) 0 env.signatures :=
    signersOf_congr fun _ => filter_hasHint_preAuthTx
  unfold verify
  simp only [hsearch]

/-- A signer that never signs is neither found nor shown. -/
theorem not_preAuthTx_of_verify {digest : Octets 32} :
    (∀ signers, env.verify network candidates = .ok signers → .preAuthTx digest ∉ signers) ∧
      ∀ i, env.verify network candidates ≠ .error (.invalidSignature i (.preAuthTx digest)) := by
  rcases verify_cases env network candidates with h | ⟨e, h⟩ | ⟨hash, h⟩
  · rw [h]
    exact ⟨nofun, nofun⟩
  · rw [h]
    exact ⟨nofun, nofun⟩
  · rw [h]
    constructor
    · intro signers hok hmem
      rw [signersOf_eq_ok_iff_map] at hok
      have hfound := List.mem_map_of_mem (f := some) hmem
      rw [hok] at hfound
      obtain ⟨signature, _, hsigner⟩ := List.mem_map.1 hfound
      have hverifies := List.find?_some hsigner
      cases hverifies
    · intro i herror
      obtain ⟨_, _, hshown⟩ := exists_signerOf_of_error herror
      cases hint?_of_signerOf_eq_error hshown

/-- The outcome of a verification is that of a search through all candidates.  Without signatures,
and without a digest, the error says so.  If every signature verifies against some candidate, the
signers are the first ones for each, in order.  Otherwise the first signature that verifies against
none decides, and the error shows its index, and its hint in hexadecimal if no candidate has that,
or else the text of the first that has.  A signer that never signs is never among the signers, nor
shown, and makes no difference. -/
theorem verify_searches (env : Envelope) (network : Network) (candidates : List SignerKey) :
    (env.signatures = [] → env.verify network candidates = .error .unsigned) ∧
    (env.signatures ≠ [] → ∀ e, env.hash network = .error e →
      env.verify network candidates = .error (.signing e)) ∧
    (env.signatures ≠ [] → ∀ hash, env.hash network = .ok hash →
      ((∀ signature ∈ env.signatures, ∃ signer ∈ candidates,
          signer.verifies hash signature = true) →
        ∃ signers, env.verify network candidates = .ok signers ∧
          signers.map some = env.signatures.map fun signature =>
            candidates.find? (·.verifies hash signature)) ∧
      ∀ (i : Nat) (hi : i < env.signatures.length),
        (∀ signature ∈ env.signatures.take i, ∃ signer ∈ candidates,
          signer.verifies hash signature = true) →
        (∀ signer ∈ candidates, signer.verifies hash env.signatures[i] = false) →
        ((∀ signer ∈ candidates, signer.hint? ≠ some env.signatures[i].hint) →
          env.verify network candidates = .error (.unknownSigner i env.signatures[i].hint)) ∧
        ∀ first, candidates.find? (·.hasHint env.signatures[i]) = some first →
          env.verify network candidates = .error (.invalidSignature i first)) ∧
    (∀ (i : Nat) (hint : Octets 4), (VerificationError.unknownSigner i hint).message =
      "signature " ++ toString i ++ " has hint " ++ Text.Hex.encode hint.toList ++
        " matching no candidate signer") ∧
    (∀ (i : Nat) (first : SignerKey), (VerificationError.invalidSignature i first).message =
      "signature " ++ toString i ++ " does not verify against " ++ first.toText) ∧
    ∀ digest,
      (∀ signers, env.verify network candidates = .ok signers → .preAuthTx digest ∉ signers) ∧
      (∀ i, env.verify network candidates ≠ .error (.invalidSignature i (.preAuthTx digest))) ∧
      ∀ front back, candidates = front ++ .preAuthTx digest :: back →
        env.verify network candidates = env.verify network (front ++ back) := by
  refine ⟨verify_of_unsigned, fun signed e => verify_of_no_hash signed,
    fun signed hash hhash => ⟨fun hall => ?_, fun i hi hfront hnone => ?_⟩,
    fun _ _ => rfl, fun _ _ => rfl, fun digest => ?_⟩
  · obtain ⟨signers, hsigners⟩ := exists_signers_of_verifies hall
    refine ⟨signers, ?_, hsigners⟩
    rw [verify_of_hash signed hhash]
    exact signersOf_eq_ok_iff_map.2 hsigners
  · have hsplit : env.signatures.take i ++ env.signatures[i] :: env.signatures.drop (i + 1) =
        env.signatures := by
      rw [← List.drop_eq_getElem_cons hi, List.take_append_drop]
    have hlength : 0 + (env.signatures.take i).length = i := by
      rw [List.length_take]
      omega
    have hdecides {e : VerificationError}
        (h : signerOf hash candidates i env.signatures[i] = .error e) :
        env.verify network candidates = .error e := by
      rw [verify_of_hash signed hhash, ← hsplit]
      apply signersOf_append_of_error hfront
      rw [hlength]
      exact h
    constructor
    · exact fun hhint => hdecides (signerOf_of_no_hint hhint)
    · exact fun first hfirst => hdecides (signerOf_of_none_verifies hfirst hnone)
  · refine ⟨not_preAuthTx_of_verify.1, not_preAuthTx_of_verify.2, ?_⟩
    rintro front back rfl
    exact verify_preAuthTx

/-! ### A stranger with the hint of the signer -/

/-- What three bytes are opened for. -/
def opened : Octets 32 := Hash.sha256 [1, 2, 3]

/-- A digest is opened, and once more with a wrong text.  The first candidate never signs, and the
second has the hint of the digest, but nobody has opened it.  The signer of the right signature is
found behind both, and the wrong one is laid to the stranger. -/
theorem verify_searches_stranger :
    let stranger : SignerKey := .hashX opened.twin
    let candidates := [.preAuthTx opened, stranger, .hashX opened]
    let right : DecoratedSignature := ⟨opened.lastFour, [1, 2, 3]⟩
    let wrong : DecoratedSignature := ⟨opened.lastFour, [4]⟩
    (∃ signers, (idle.withSignatures [right]).verify .pubnet candidates = .ok signers ∧
      signers.map some = [some (.hashX opened)]) ∧
    (idle.withSignatures [right, wrong]).verify .pubnet candidates =
      .error (.invalidSignature 1 stranger) := by
  intro stranger candidates right wrong
  have hidle : (idle.hash .pubnet).isOk = true := by decide +kernel
  obtain ⟨hash, hhash⟩ := Except.exists_of_isOk hidle
  have hopened : opened.twin ≠ opened := by decide +kernel
  have hother : Hash.sha256 [4] ≠ opened ∧ Hash.sha256 [4] ≠ opened.twin := by decide +kernel
  have hright : candidates.find? (·.verifies hash right) = some (.hashX opened) := by
    have hpreAuth : (SignerKey.preAuthTx opened).verifies hash right = false := rfl
    have hstranger : ¬ stranger.verifies hash right = true :=
      fun h => hopened (SignerKey.verifies_hashX_iff.1 h).2.symm
    have hsigner : (SignerKey.hashX opened).verifies hash right = true :=
      SignerKey.verifies_hashX_iff.2 ⟨rfl, rfl⟩
    simp [candidates, hpreAuth, hstranger, hsigner]
  have hwrong : ∀ signer ∈ candidates, signer.verifies hash wrong = false := by
    intro signer hmem
    rw [Bool.eq_false_iff]
    intro h
    rcases List.mem_cons.1 hmem with rfl | hmem
    · cases h
    rcases List.mem_cons.1 hmem with rfl | hmem
    · exact hother.2 (SignerKey.verifies_hashX_iff.1 h).2
    · cases List.mem_singleton.1 hmem
      exact hother.1 (SignerKey.verifies_hashX_iff.1 h).2
  have hfirst : candidates.find? (·.hasHint wrong) = some stranger := by decide +kernel
  have hmade : ∃ signer ∈ candidates, signer.verifies hash right = true :=
    List.find?_isSome.1 (hright ▸ rfl)
  constructor
  · obtain ⟨_, _, hsearch, _⟩ := verify_searches (idle.withSignatures [right]) .pubnet candidates
    rw [hash_withSignatures, signatures_withSignatures] at hsearch
    obtain ⟨signers, hverify, hsigners⟩ := (hsearch (by decide) hash hhash).1 (by simpa using hmade)
    exact ⟨signers, hverify, by simpa [hright] using hsigners⟩
  · obtain ⟨_, _, hsearch, _⟩ :=
      verify_searches (idle.withSignatures [right, wrong]) .pubnet candidates
    rw [hash_withSignatures] at hsearch
    refine ((hsearch (List.cons_ne_nil _ _) hash hhash).2 1 Nat.one_lt_two ?_ hwrong).2 stranger
      hfirst
    intro signature hmem
    rw [List.mem_singleton.1 hmem]
    exact hmade

end Envelope

end StellarTx
