/-
# What is signed verifies

A step of a session is made by a signer if its signature verifies against that signer, up to the
curve: that a key accepts what it signed is assumed of the messages at hand.  The hint is found in
one way by who signs and in another by who verifies, and the digest does not change along the
session.  The first candidate that a signature verifies against is its signer, so that candidates
with the same hint are passed over (`signerOf_eq_ok_iff`), and a session of steps whose signers are
among the candidates verifies: `signAll_verifies`.
-/
import Mathlib.Data.List.Forall2
import Mathlib.Data.List.Nodup
import StellarTx.Proofs.Signing
import StellarTx.Signing.Verification

namespace StellarTx

variable {hash : Octets 32} {candidates : List SignerKey} {signature : DecoratedSignature}

/-! ## The signer of a signature -/

theorem SignerKey.hasHint_of_verifies {signer : SignerKey}
    (h : signer.verifies hash signature = true) : signer.hasHint signature = true :=
  (Bool.and_eq_true_iff.1 h).1

/-- Looking only at the candidates with the hint of the signature changes nothing. -/
theorem find?_filter_hasHint :
    (candidates.filter (·.hasHint signature)).find? (·.verifies hash signature) =
      candidates.find? (·.verifies hash signature) := by
  rw [List.find?_filter]
  congr 1
  funext signer
  cases h : signer.verifies hash signature with
  | false => exact decide_eq_false fun h => Bool.noConfusion h.2
  | true => exact decide_eq_true ⟨SignerKey.hasHint_of_verifies h, rfl⟩

/-- The signer of a signature is the first candidate that it verifies against. -/
theorem signerOf_eq_ok_iff {index : Nat} {signer : SignerKey} :
    signerOf hash candidates index signature = .ok signer ↔
      candidates.find? (·.verifies hash signature) = some signer := by
  rw [signerOf, ← find?_filter_hasHint]
  split
  · next h =>
    rw [h]
    constructor <;> nofun
  · next first rest h =>
    rw [h]
    split
    · next found hfound =>
      rw [hfound, Except.ok.injEq, Option.some.injEq]
    · next hnone =>
      rw [hnone]
      constructor <;> nofun

/-- The signers of signatures are those of each, in order. -/
theorem signersOf_eq_ok_iff {i : Nat} {signatures : List DecoratedSignature}
    {signers : List SignerKey} :
    signersOf hash candidates i signatures = .ok signers ↔
      List.Forall₂ (fun signer signature =>
        candidates.find? (·.verifies hash signature) = some signer) signers signatures := by
  induction signatures generalizing i signers with
  | nil =>
    rw [List.forall₂_nil_right_iff]
    constructor
    · intro h; cases h; rfl
    · rintro rfl; rfl
  | cons signature rest ih =>
    rw [List.forall₂_cons_right_iff, signersOf, Except.bind_eq_ok_iff]
    constructor
    · rintro ⟨signer, hsigner, h⟩
      obtain ⟨others, hothers, h⟩ := Except.bind_eq_ok_iff.1 h
      cases h
      exact ⟨signer, others, signerOf_eq_ok_iff.1 hsigner, ih.1 hothers, rfl⟩
    · rintro ⟨signer, others, hsigner, hothers, rfl⟩
      exact ⟨signer, signerOf_eq_ok_iff.2 hsigner,
        Except.bind_eq_ok_iff.2 ⟨others, ih.2 hothers, rfl⟩⟩

/-- Signatures that verify against candidates, each against its own, have signers, which need not be
these candidates. -/
theorem exists_signersOf (i : Nat) {made : List SignerKey} {signatures : List DecoratedSignature}
    (h : List.Forall₂ (fun signer signature => signer.verifies hash signature = true)
      made signatures)
    (listed : ∀ signer ∈ made, signer ∈ candidates) :
    ∃ signers, signersOf hash candidates i signatures = .ok signers := by
  simp only [signersOf_eq_ok_iff]
  induction h with
  | nil => exact ⟨[], .nil⟩
  | @cons signer signature _ _ hverifies _ ih =>
    obtain ⟨hcandidate, hothers⟩ := List.forall_mem_cons.1 listed
    obtain ⟨signers, hsigners⟩ := ih hothers
    have hfound : (candidates.find? (·.verifies hash signature)).isSome :=
      List.find?_isSome.2 ⟨signer, hcandidate, hverifies⟩
    obtain ⟨first, hfirst⟩ := Option.isSome_iff_exists.1 hfound
    exact ⟨first :: signers, .cons hfirst hsigners⟩

/-! ## The signer of a step -/

namespace SigningStep

/-- The key pair that a step uses on a transaction with the digest, and what it signs with it. -/
def signed? (hash : Octets 32) : SigningStep → Option (KeyPair × List UInt8)
  | .keyPair pair _ => some (pair, hash.toList)
  | .payload pair message => some (pair, message)
  | _ => none

/-- A step for the network and the signer whose signature it adds. -/
inductive MadeBy (network : Network) : SigningStep → SignerKey → Prop
  | keyPair (pair : KeyPair) : MadeBy network (.keyPair pair network) (.ed25519 pair.publicKey)
  | hashX (preimage : List UInt8) (short : preimage.length ≤ maxSignature) :
    MadeBy network (.hashX preimage) (.hashX (Hash.sha256 preimage))
  | payload (pair : KeyPair) (payload : List UInt8) (short : payload.length ≤ maxSignedPayload) :
    MadeBy network (.payload pair payload) (.signedPayload pair.publicKey payload)

variable {env : Envelope} {network : Network}

/-- A step whose key, if it uses one, accepts what it signs makes a signature that verifies against
its signer. -/
theorem MadeBy.exists_signature {step : SigningStep} {signer : SignerKey}
    (made : step.MadeBy network signer) (hhash : env.hash network = .ok hash)
    (accepts : ∀ pair message, step.signed? hash = some (pair, message) →
      pair.verify message (pair.sign message).toList = true) :
    ∃ signature, env.stepSignature step = .ok signature ∧
      signer.verifies hash signature = true := by
  cases made with
  | keyPair pair =>
    have hsig : env.signature pair network = .ok ⟨pair.hint, (pair.sign hash.toList).toList⟩ :=
      Except.bind_of_ok hhash
    exact ⟨_, hsig, Bool.and_eq_true_iff.2 ⟨beq_self_eq_true _, accepts pair _ rfl⟩⟩
  | hashX preimage short =>
    exact ⟨_, if_neg (Nat.not_lt.2 short),
      Bool.and_eq_true_iff.2 ⟨beq_self_eq_true _, beq_self_eq_true _⟩⟩
  | payload pair payload short =>
    exact ⟨_, if_neg (Nat.not_lt.2 short),
      Bool.and_eq_true_iff.2 ⟨beq_self_eq_true _, accepts pair _ rfl⟩⟩

/-- All steps make signatures, and each verifies against the signer of its step. -/
theorem exists_signatures {steps : List SigningStep} {signers : List SignerKey}
    (made : List.Forall₂ (MadeBy network) steps signers) (hhash : env.hash network = .ok hash)
    (accepts : ∀ step ∈ steps, ∀ pair message, step.signed? hash = some (pair, message) →
      pair.verify message (pair.sign message).toList = true) :
    ∃ signatures, steps.map env.stepSignature = signatures.map .ok ∧
      List.Forall₂ (fun signer signature => signer.verifies hash signature = true)
        signers signatures := by
  induction made with
  | nil => exact ⟨[], rfl, .nil⟩
  | @cons step signer steps signers hstep _ ih =>
    obtain ⟨haccepts, hothers⟩ := List.forall_mem_cons.1 accepts
    obtain ⟨signature, hsig, hverifies⟩ := hstep.exists_signature hhash haccepts
    obtain ⟨signatures, hsigs, hall⟩ := ih hothers
    exact ⟨signature :: signatures, by rw [List.map_cons, hsig, hsigs, List.map_cons],
      .cons hverifies hall⟩

end SigningStep

/-! ## Sessions -/

/-- What is signed verifies.  An envelope without signatures and with a signature base is signed in
at most twenty steps, one at least, and the signers of all steps are among the candidates; a key
that a step uses accepts what it signed.  Then all steps succeed, and the verification gives one
signer for the signature of each step, in order: a candidate that the signature verifies against,
whoever else among the candidates has the same hint. -/
theorem Envelope.signAll_verifies {env : Envelope} {network : Network} {base : List UInt8}
    {steps : List SigningStep} {signers candidates : List SignerKey}
    (unsigned : env.signatures = []) (hbase : env.signatureBase network = .ok base)
    (signed : steps ≠ []) (few : steps.length ≤ 20)
    (made : List.Forall₂ (SigningStep.MadeBy network) steps signers)
    (listed : ∀ signer ∈ signers, signer ∈ candidates)
    (accepts : ∀ step ∈ steps, ∀ pair message,
      step.signed? (Hash.sha256 base) = some (pair, message) →
        pair.verify message (pair.sign message).toList = true) :
    let last := (env.signAll steps).1
    (env.signAll steps).2 = List.replicate steps.length (.ok ()) ∧
      steps.map env.stepSignature = last.signatures.map .ok ∧
      ∃ found, last.verify network candidates = .ok found ∧ found.length = steps.length ∧
        List.Forall₂ (fun signer signature =>
          signer ∈ candidates ∧ signer.verifies (Hash.sha256 base) signature = true)
          found last.signatures := by
  intro last
  have hhash : env.hash network = .ok (Hash.sha256 base) :=
    Except.map_eq_ok_iff.2 ⟨base, hbase, rfl⟩
  obtain ⟨signatures, hsigs, hverify⟩ := SigningStep.exists_signatures made hhash accepts
  have hlength : signatures.length = steps.length := by
    simpa using (congrArg List.length hsigs).symm
  have room : env.signatures.length + steps.length ≤ maxSignatures := by
    rw [unsigned, List.length_nil, Nat.zero_add]
    exact few
  have hrun := signAll_of_stepSignatures hsigs room
  rw [unsigned, List.nil_append] at hrun
  have hlast : last = env.withSignatures signatures := congrArg Prod.fst hrun
  have hlastSigs : last.signatures = signatures := by rw [hlast, signatures_withSignatures]
  -- The candidates that are found need not be the signers of the steps: those with the same hint
  -- and a signature that verifies may come before them.
  obtain ⟨found, hfound⟩ := exists_signersOf 0 hverify listed
  have hall := signersOf_eq_ok_iff.1 hfound
  refine ⟨congrArg Prod.snd hrun, by rw [hlastSigs]; exact hsigs, found, ?_, ?_, ?_⟩
  · have hne : signatures ≠ [] := by
      rintro rfl
      exact signed (List.length_eq_zero_iff.1 hlength.symm)
    unfold verify
    rw [hlastSigs, if_neg hne, hlast, hash_withSignatures, hhash]
    exact hfound
  · rw [hall.length_eq, hlength]
  · rw [hlastSigs]
    refine hall.imp fun signer signature h => ⟨List.mem_of_find?_eq_some h, ?_⟩
    exact List.find?_some (p := fun s : SignerKey => s.verifies (Hash.sha256 base) signature) h

/-! ### A session with a stranger among the candidates -/

theorem SignerKey.hint?_of_verifies {signer : SignerKey}
    (h : signer.verifies hash signature = true) : signer.hint? = some signature.hint :=
  beq_iff_eq.1 (hasHint_of_verifies h)

/-- Only one candidate is to be found where only one has the hint. -/
theorem only_of_hint {signer : SignerKey} (hs : signer.hint? = some signature.hint)
    (only : ∀ c ∈ candidates, c.hint? = signer.hint? → c = signer) :
    ∀ c ∈ candidates, c.verifies hash signature = true → c = signer := by
  intro c hc hverifies
  exact only c hc ((SignerKey.hint?_of_verifies hverifies).trans hs.symm)

/-- Where every signature verifies against one candidate only, just these are found. -/
theorem eq_of_only {found signers : List SignerKey} {signatures : List DecoratedSignature}
    (hfound : List.Forall₂ (fun signer signature =>
      signer ∈ candidates ∧ signer.verifies hash signature = true) found signatures)
    (only : List.Forall₂ (fun signer signature =>
      ∀ c ∈ candidates, c.verifies hash signature = true → c = signer) signers signatures) :
    found = signers := by
  induction hfound generalizing signers with
  | nil => cases only; rfl
  | cons h _ ih =>
    cases only with
    | cons honly hrest => rw [honly _ h.1 h.2, ih hrest]

/-- Another 32 bytes with the same last four. -/
def Octets.twin (key : Octets 32) : Octets 32 :=
  ⟨List.replicate 28 0 ++ key.lastFour.toList, by
    rw [List.length_append, List.length_replicate, key.lastFour.length_eq]⟩

theorem Octets.lastFour_twin (key : Octets 32) : key.twin.lastFour = key.lastFour :=
  toList_inj.1 (List.drop_left' List.length_replicate)

/-- The key that signs in the session. -/
def KeyPair.sevens : KeyPair := ⟨.replicate 32 7⟩

/-- A digest with the hint of the key, which nobody has opened. -/
def SignerKey.stranger : SignerKey := .hashX KeyPair.sevens.publicKey.twin

/-- The signers of the session: the key itself, a digest that is opened, and the key bound to a
payload of one byte. -/
def SignerKey.signatories : List SignerKey :=
  [.ed25519 KeyPair.sevens.publicKey, .hashX (Hash.sha256 [1, 2, 3]),
    .signedPayload KeyPair.sevens.publicKey [7]]

/-- The stranger has the hint of the key. -/
theorem SignerKey.hint?_stranger : stranger.hint? = (ed25519 KeyPair.sevens.publicKey).hint? :=
  congrArg some (Octets.lastFour_twin _)

/-- Among themselves the signers are told apart by their hints. -/
theorem SignerKey.nodup_hints : (signatories.map hint?).Nodup := by
  have hkey : KeyPair.sevens.publicKey.lastFour = ⟨[20, 70, 210, 44], rfl⟩ := by decide +kernel
  have hdigest : (Hash.sha256 [1, 2, 3]).lastFour = ⟨[1, 28, 251, 129], rfl⟩ := by decide +kernel
  have hpayload : signedPayloadHint KeyPair.sevens.publicKey [7] = ⟨[19, 70, 210, 44], rfl⟩ := by
    unfold signedPayloadHint
    rw [hkey]
    decide
  show [some KeyPair.sevens.publicKey.lastFour, some (Hash.sha256 [1, 2, 3]).lastFour,
    some (signedPayloadHint KeyPair.sevens.publicKey [7])].Nodup
  rw [hkey, hdigest, hpayload]
  decide

/-- Signatures with the hints of the signers verify against these only, if what stands for the
signature of the key opens no digest. -/
theorem SignerKey.only_signatories {byKey onPayload : List UInt8}
    (closed : Hash.sha256 byKey ≠ KeyPair.sevens.publicKey.twin) :
    List.Forall₂ (fun signer signature => ∀ c ∈ stranger :: signatories,
        c.verifies hash signature = true → c = signer) signatories
      [⟨KeyPair.sevens.hint, byKey⟩, ⟨(Hash.sha256 [1, 2, 3]).lastFour, [1, 2, 3]⟩,
        ⟨signedPayloadHint KeyPair.sevens.publicKey [7], onPayload⟩] := by
  have hkey : ed25519 KeyPair.sevens.publicKey ∈ signatories := List.mem_cons_self
  have hothers : ∀ signer ∈ signatories, ed25519 KeyPair.sevens.publicKey ≠ signer →
      ∀ c ∈ stranger :: signatories, c.hint? = signer.hint? → c = signer := by
    intro signer hsigner hne c hc h
    rcases List.mem_cons.1 hc with rfl | hc
    · exact absurd (List.inj_on_of_nodup_map nodup_hints hkey hsigner (hint?_stranger ▸ h)) hne
    · exact List.inj_on_of_nodup_map nodup_hints hc hsigner h
  refine .cons (fun c hc hverifies => ?_) (.cons ?_ (.cons ?_ .nil))
  · rcases List.mem_cons.1 hc with rfl | hc
    · -- The stranger has the right hint, so that only its digest tells it apart.
      exact absurd (beq_iff_eq.1 (Bool.and_eq_true_iff.1 hverifies).2) closed
    · exact List.inj_on_of_nodup_map nodup_hints hc hkey (hint?_of_verifies hverifies)
  · exact only_of_hint rfl (hothers _ (by simp [signatories]) SignerKey.noConfusion)
  · exact only_of_hint rfl (hothers _ (by simp [signatories]) SignerKey.noConfusion)

/-- A key signs a transaction that does nothing and a payload of one byte, and between the two a
digest is opened.  A digest with the hint of the key, which nobody has opened, comes first among the
candidates, but the signers that are found are those of the steps. -/
theorem Envelope.signAll_verifies_twin :
    let pair := KeyPair.sevens
    let steps := [.keyPair pair .pubnet, .hashX [1, 2, 3], .payload pair [7]]
    let last := (idle.signAll steps).1
    List.Forall₂ (SigningStep.MadeBy .pubnet) steps SignerKey.signatories ∧
      SignerKey.stranger.hint? = some pair.hint ∧
      (idle.signAll steps).2 = [.ok (), .ok (), .ok ()] ∧
      last.verify .pubnet (.stranger :: SignerKey.signatories) = .ok SignerKey.signatories := by
  intro pair steps last
  let base := Network.pubnet.id.toList ++ [0, 0, 0, 2, 0, 0, 0, 0] ++ List.replicate 32 0 ++
    [0, 0, 0, 100, 0, 0, 0, 0, 0, 0, 0, 1] ++ List.replicate 16 0
  have hbase : idle.signatureBase .pubnet = .ok base := by decide +kernel
  have made : List.Forall₂ (SigningStep.MadeBy .pubnet) steps SignerKey.signatories :=
    .cons (.keyPair pair) (.cons (.hashX _ (by decide)) (.cons (.payload pair _ (by decide)) .nil))
  have listed : ∀ signer ∈ SignerKey.signatories, signer ∈ .stranger :: SignerKey.signatories :=
    fun _ => List.mem_cons_of_mem _
  have accepts : ∀ step ∈ steps, ∀ key message,
      step.signed? (Hash.sha256 base) = some (key, message) →
        key.verify message (key.sign message).toList = true := by
    intro step hstep key message h
    rcases List.mem_cons.1 hstep with rfl | hstep
    · cases h
      decide +kernel
    · rcases List.mem_cons.1 hstep with rfl | hstep
      · cases h
      · cases List.mem_singleton.1 hstep
        cases h
        decide +kernel
  obtain ⟨hok, hmade, found, hverify, _, hall⟩ :=
    signAll_verifies rfl hbase (by decide) (by decide) made listed accepts
  refine ⟨made, congrArg some pair.publicKey.lastFour_twin, hok, ?_⟩
  -- What is found is told from the signatures: each verifies against one of the candidates only.
  have hfirst : idle.stepSignature (.keyPair pair .pubnet) =
      .ok ⟨pair.hint, (pair.sign (Hash.sha256 base).toList).toList⟩ :=
    Except.bind_of_ok (Except.map_eq_ok_iff.2 ⟨base, hbase, rfl⟩)
  have hsteps : steps.map idle.stepSignature =
      [⟨pair.hint, (pair.sign (Hash.sha256 base).toList).toList⟩,
        ⟨(Hash.sha256 [1, 2, 3]).lastFour, [1, 2, 3]⟩,
        ⟨signedPayloadHint pair.publicKey [7], (pair.sign [7]).toList⟩].map .ok :=
    congrArg (· :: _) hfirst
  have hsigs := (List.map_inj_right fun _ _ => Except.ok.inj).1 (hmade.symm.trans hsteps)
  have closed : Hash.sha256 (pair.sign (Hash.sha256 base).toList).toList ≠ pair.publicKey.twin := by
    decide +kernel
  rw [hsigs] at hall
  rw [hverify, eq_of_only hall (SignerKey.only_signatories closed)]

end StellarTx
