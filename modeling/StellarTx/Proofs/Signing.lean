/-
# Signing only appends

Every way to sign adds one signature behind those that are there, or nothing.  The signature that a
step adds depends on what is signed and not on the signatures before it (`stepSignature`), so that a
whole session adds the signatures of its successful steps in their order: `exists_added`.
-/
import StellarTx.Proofs.Result
import StellarTx.Proofs.TxRep.RoundTrip
import StellarTx.Signing.Step

namespace StellarTx

namespace Envelope

/-! ## What signing leaves alone -/

/-- Two envelopes of one kind around one transaction: they can differ in their outer signatures, but
not in the signatures inside a fee bump. -/
def SameTransaction : Envelope → Envelope → Prop
  | v0 a, v0 b => a.tx = b.tx
  | v1 a, v1 b => a.tx = b.tx
  | feeBump a, feeBump b => a.tx = b.tx
  | _, _ => False

variable (env : Envelope) (signatures : List DecoratedSignature)

/-- The signatures that are put in are there. -/
theorem signatures_withSignatures : (env.withSignatures signatures).signatures = signatures := by
  cases env <;> rfl

/-- To put the same signatures in again changes nothing. -/
theorem withSignatures_signatures : env.withSignatures env.signatures = env := by
  cases env <;> rfl

/-- The last signatures that are put in stand. -/
theorem withSignatures_withSignatures (others : List DecoratedSignature) :
    (env.withSignatures others).withSignatures signatures = env.withSignatures signatures := by
  cases env <;> rfl

/-- What is signed stays, and inside a fee bump so do the inner signatures. -/
theorem sameTransaction_withSignatures : (env.withSignatures signatures).SameTransaction env := by
  cases env <;> rfl

/-- What is signed does not hold the outer signatures. -/
theorem tagged_withSignatures : (env.withSignatures signatures).tagged = env.tagged := by
  cases env <;> rfl

/-- So the digest stays, and what is signed next is signed of the same. -/
theorem hash_withSignatures (network : Network) :
    (env.withSignatures signatures).hash network = env.hash network := by
  unfold hash signatureBase
  rw [tagged_withSignatures]

/-! ## One step -/

/-- The signature that a step makes on an envelope. -/
def stepSignature : SigningStep → Except SigningError DecoratedSignature
  | .keyPair pair network => env.signature pair network
  | .secret text network =>
    match KeyPair.ofSecret text with
    | .ok pair => env.signature pair network
    | .error _ => .error .secretKey
  | .hashX preimage => hashXSignature preimage
  | .payload pair payload => payloadSignature pair payload
  | .ready signature => .ok signature

/-- Whatever a step makes, it makes of the transaction alone, so that the order of steps does not
matter to it. -/
theorem stepSignature_withSignatures (step : SigningStep) :
    (env.withSignatures signatures).stepSignature step = env.stepSignature step := by
  have hpair : ∀ pair network,
      (env.withSignatures signatures).signature pair network = env.signature pair network := by
    intro pair network
    unfold signature
    rw [hash_withSignatures]
  cases step with
  | keyPair pair network => exact hpair pair network
  | secret text network =>
    simp only [stepSignature]
    cases KeyPair.ofSecret text with
    | ok pair => exact hpair pair network
    | error e => rfl
  | hashX preimage => rfl
  | payload pair payload => rfl
  | ready signature => rfl

end Envelope

/-! ## Calls -/

namespace Signing

/-- How a call ends that is to add one signature to an envelope.  If the signature is made and there
is room for it, it stands at the end and nothing else is new; otherwise the call fails, and the
envelope is as it was. -/
inductive Ends (env : Envelope) (signature? : Except SigningError DecoratedSignature) :
    EStateM.Result SigningError Envelope Unit → Prop
  | added (signature : DecoratedSignature) (makes : signature? = .ok signature)
      (room : env.signatures.length < maxSignatures) :
    Ends env signature? (.ok () (env.withSignatures (env.signatures ++ [signature])))
  | refused (e : SigningError)
      (full : ∀ signature, signature? = .ok signature → maxSignatures ≤ env.signatures.length) :
    Ends env signature? (.error e env)

variable {env env' : Envelope} {signature? : Except SigningError DecoratedSignature}

/-- A call that ends well has added what was made, and there was room for it. -/
theorem Ends.eq_ok_iff {result : EStateM.Result SigningError Envelope Unit}
    (h : Ends env signature? result) :
    result = .ok () env' ↔ ∃ signature, signature? = .ok signature ∧
      env.signatures.length < maxSignatures ∧
        env' = env.withSignatures (env.signatures ++ [signature]) := by
  cases h with
  | added signature makes room =>
    constructor
    · intro h
      cases h
      exact ⟨signature, makes, room, rfl⟩
    · rintro ⟨other, hmakes, _, rfl⟩
      cases makes.symm.trans hmakes
      rfl
  | refused e full =>
    constructor
    · intro h
      cases h
    · rintro ⟨signature, makes, room, _⟩
      exact absurd room (Nat.not_lt_of_le (full signature makes))

/-- A call that fails leaves the envelope as it was. -/
theorem Ends.of_error {e : SigningError} (h : Ends env signature? (.error e env')) : env' = env := by
  cases h with
  | refused e full => rfl

/-- What cannot be made is not added. -/
theorem Ends.of_not_made (e : SigningError) : Ends env (.error e) (.error e env) := by
  refine .refused e fun signature h => ?_
  cases h

/-- With room left the check does nothing. -/
theorem checkRoom_of_lt (room : env.signatures.length < maxSignatures) :
    checkRoom.run env = .ok () env := by
  show (if maxSignatures ≤ env.signatures.length then throw .tooManySignatures
    else pure () : Signing Unit) env = _
  rw [if_neg (Nat.not_le_of_lt room)]
  rfl

/-- Without room it fails, and leaves the envelope. -/
theorem checkRoom_of_le (full : maxSignatures ≤ env.signatures.length) :
    checkRoom.run env = .error .tooManySignatures env := by
  show (if maxSignatures ≤ env.signatures.length then throw .tooManySignatures
    else pure () : Signing Unit) env = _
  rw [if_pos full]
  rfl

section

variable {α β : Type} {x : Signing α} {f : α → Signing β}

/-- A call goes on with the envelope of the one before. -/
theorem bind_of_ok {a : α} (h : x.run env = .ok a env') : (x >>= f).run env = (f a).run env' := by
  show EStateM.bind x f env = _
  unfold EStateM.bind
  rw [show x env = _ from h]
  rfl

/-- Nothing follows a failed call, and the envelope is the one it left. -/
theorem bind_of_error {e : SigningError} (h : x.run env = .error e env') :
    (x >>= f).run env = .error e env' := by
  show EStateM.bind x f env = _
  unfold EStateM.bind
  rw [show x env = _ from h]

end

/-- Without room the rest of a call does not run, so that only with room it matters how it ends. -/
theorem checkRoom_ends {call : Signing Unit}
    (h : env.signatures.length < maxSignatures → Ends env signature? (call.run env)) :
    Ends env signature? ((checkRoom >>= fun _ => call).run env) := by
  by_cases room : env.signatures.length < maxSignatures
  · rw [bind_of_ok (checkRoom_of_lt room)]
    exact h room
  · have full := Nat.le_of_not_lt room
    rw [bind_of_error (checkRoom_of_le full)]
    exact .refused _ fun _ _ => full

/-- Only the lack of room stops a signature that is made already. -/
theorem add_ends (signature : DecoratedSignature) :
    Ends env (.ok signature) ((add signature).run env) :=
  checkRoom_ends fun room => .added signature rfl room

/-- To make a signature and to add it ends as a call that is to add it. -/
theorem made_ends : Ends env signature? ((made signature? >>= add).run env) := by
  cases signature? with
  | ok signature =>
    have hrun : (made (.ok signature) >>= add).run env = (add signature).run env := bind_of_ok rfl
    rw [hrun]
    exact add_ends signature
  | error e => exact .of_not_made e

/-- Signing with a key pair looks for room first, and then adds what is made. -/
theorem sign_ends (pair : KeyPair) (network : Network) :
    Ends env (env.signature pair network) ((sign pair network).run env) :=
  checkRoom_ends fun _ => made_ends

/-- Seen from outside, a call gives the envelope it left. -/
theorem after_eq_ok_iff {call : Signing Unit} :
    call.after env = .ok env' ↔ call.run env = .ok () env' := by
  unfold after
  cases call.run env with
  | ok _ _ =>
    constructor <;> (intro h; cases h; rfl)
  | error _ _ =>
    constructor <;> (intro h; cases h)

/-- Seen from outside, a failed call gives its error only. -/
theorem after_of_error {call : Signing Unit} {e : SigningError} (h : call.run env = .error e env') :
    call.after env = .error e := by
  unfold after
  rw [h]

end Signing

/-- Every step is a call that is to add the signature that it makes. -/
theorem SigningStep.call_ends (step : SigningStep) (env : Envelope) :
    Signing.Ends env (env.stepSignature step) (step.call.run env) := by
  cases step with
  | keyPair pair network => exact Signing.sign_ends pair network
  | secret text network =>
    simp only [call, Envelope.stepSignature]
    cases KeyPair.ofSecret text with
    | ok pair => exact Signing.sign_ends pair network
    | error e => exact .of_not_made .secretKey
  | hashX preimage => exact Signing.made_ends
  | payload pair message => exact Signing.made_ends
  | ready signature => exact Signing.add_ends signature

namespace Envelope

variable {env : Envelope}

/-- Signing with a key pair succeeds exactly if there is a digest to sign and room for the
signature. -/
theorem sign_eq_ok_iff {pair : KeyPair} {network : Network} {env' : Envelope} :
    env.sign pair network = .ok env' ↔
      ∃ signature, env.signature pair network = .ok signature ∧
        env.signatures.length < maxSignatures ∧
        env' = env.withSignatures (env.signatures ++ [signature]) :=
  Signing.after_eq_ok_iff.trans (Signing.sign_ends pair network).eq_ok_iff

/-- A step succeeds exactly if it makes a signature and there is room for it, and then the signature
stands at the end and nothing else is new. -/
theorem signStep_eq_ok_iff {step : SigningStep} {env' : Envelope} :
    env.signStep step = .ok env' ↔
      ∃ signature, env.stepSignature step = .ok signature ∧
        env.signatures.length < maxSignatures ∧
        env' = env.withSignatures (env.signatures ++ [signature]) :=
  Signing.after_eq_ok_iff.trans (step.call_ends env).eq_ok_iff

/-! ## Sessions -/

/-- The next step finds the envelope with the new signature. -/
theorem signAll_cons_of_ok {step : SigningStep} {env' : Envelope}
    (h : step.call.run env = .ok () env') (rest : List SigningStep) :
    env.signAll (step :: rest) = ((env'.signAll rest).1, .ok () :: (env'.signAll rest).2) := by
  rw [signAll, h]

/-- The next step finds the envelope that the failed one left. -/
theorem signAll_cons_of_error {step : SigningStep} {e : SigningError} {env' : Envelope}
    (h : step.call.run env = .error e env') (rest : List SigningStep) :
    env.signAll (step :: rest) =
      ((env'.signAll rest).1, .error e :: (env'.signAll rest).2) := by
  rw [signAll, h]

/-- A session may be interrupted: the steps left over go on with the envelope of the first ones. -/
theorem signAll_append (first second : List SigningStep) :
    env.signAll (first ++ second) =
      (((env.signAll first).1.signAll second).1,
        (env.signAll first).2 ++ ((env.signAll first).1.signAll second).2) := by
  induction first generalizing env with
  | nil => rfl
  | cons step first ih =>
    rw [List.cons_append]
    cases h : step.call.run env with
    | ok _ env' => rw [signAll_cons_of_ok h, signAll_cons_of_ok h, ih]; rfl
    | error e env' => rw [signAll_cons_of_error h, signAll_cons_of_error h, ih]; rfl

/-- Every call has a result. -/
theorem length_signAll (steps : List SigningStep) :
    (env.signAll steps).2.length = steps.length := by
  induction steps generalizing env with
  | nil => rfl
  | cons step rest ih =>
    cases h : step.call.run env with
    | ok _ env' => rw [signAll_cons_of_ok h, List.length_cons, ih, List.length_cons]
    | error e env' => rw [signAll_cons_of_error h, List.length_cons, ih, List.length_cons]

/-- The steps that ended well, in order. -/
def succeeded (steps : List SigningStep) (results : List (Except SigningError Unit)) :
    List SigningStep :=
  ((steps.zip results).filter (·.2.isOk)).map (·.1)

/-- A step that ended well stays among those that did. -/
theorem succeeded_cons_of_ok (step : SigningStep) (rest : List SigningStep)
    (results : List (Except SigningError Unit)) :
    succeeded (step :: rest) (.ok () :: results) = step :: succeeded rest results := rfl

/-- What a whole session adds: the signatures that its successful steps make on the envelope as it
was at the start. -/
theorem exists_added (env : Envelope) (steps : List SigningStep) :
    ∃ added, (env.signAll steps).1 = env.withSignatures (env.signatures ++ added) ∧
      (succeeded steps (env.signAll steps).2).map env.stepSignature = added.map .ok ∧
      (env.signatures.length ≤ maxSignatures →
        (env.signatures ++ added).length ≤ maxSignatures) := by
  induction steps generalizing env with
  | nil =>
    refine ⟨[], ?_, rfl, ?_⟩
    · rw [List.append_nil, withSignatures_signatures]
      rfl
    · rw [List.append_nil]
      exact id
  | cons step rest ih =>
    have hends := step.call_ends env
    cases h : step.call.run env with
    | error e env' =>
      rw [h] at hends
      obtain rfl := hends.of_error
      obtain ⟨added, hlast, hadded, hroom⟩ := ih env'
      rw [signAll_cons_of_error h]
      exact ⟨added, hlast, hadded, hroom⟩
    | ok _ env' =>
      obtain ⟨signature, hsig, hlt, rfl⟩ := hends.eq_ok_iff.1 h
      obtain ⟨added, hlast, hadded, hroom⟩ :=
        ih (env.withSignatures (env.signatures ++ [signature]))
      have hsteps : (env.withSignatures (env.signatures ++ [signature])).stepSignature =
          env.stepSignature := by
        funext step
        rw [stepSignature_withSignatures]
      rw [signatures_withSignatures, withSignatures_withSignatures, List.append_assoc] at hlast
      rw [hsteps] at hadded
      rw [signatures_withSignatures, List.append_assoc] at hroom
      rw [signAll_cons_of_ok h]
      refine ⟨signature :: added, hlast, ?_, fun _ => ?_⟩
      · rw [succeeded_cons_of_ok, List.map_cons, hsig, hadded, List.map_cons]
      · apply hroom
        rw [List.length_append, List.length_singleton]
        exact hlt

/-- If every step makes a signature and there is room for all of them, then all steps succeed. -/
theorem signAll_of_stepSignatures {env : Envelope} {steps : List SigningStep}
    {signatures : List DecoratedSignature}
    (made : steps.map env.stepSignature = signatures.map .ok)
    (room : env.signatures.length + steps.length ≤ maxSignatures) :
    env.signAll steps = (env.withSignatures (env.signatures ++ signatures),
      List.replicate steps.length (.ok ())) := by
  induction steps generalizing env signatures with
  | nil =>
    obtain rfl : signatures = [] := List.map_eq_nil_iff.1 made.symm
    rw [List.append_nil, withSignatures_signatures]
    rfl
  | cons step rest ih =>
    obtain ⟨signature, others, rfl, hfirst, hrest⟩ := List.map_eq_cons_iff.1 made.symm
    rw [List.length_cons] at room
    have hlt : env.signatures.length < maxSignatures := by omega
    have hstep := (step.call_ends env).eq_ok_iff.2 ⟨signature, hfirst.symm, hlt, rfl⟩
    have hothers : rest.map (env.withSignatures (env.signatures ++ [signature])).stepSignature =
        others.map .ok := by
      rw [hrest]
      exact List.map_congr_left fun step _ => stepSignature_withSignatures env _ step
    rw [signAll_cons_of_ok hstep, ih hothers, signatures_withSignatures,
      withSignatures_withSignatures, List.append_assoc]
    · rfl
    · rw [signatures_withSignatures, List.length_append, List.length_singleton]
      omega

/-- One call in the middle of a session: the envelope that it leaves behind, and its entry in the
results. -/
theorem signAll_call (env : Envelope) (before : List SigningStep) (step : SigningStep)
    (after : List SigningStep) :
    let e := (env.signAll before).1
    let e' := (env.signAll (before ++ [step])).1
    (step.call.run e = .ok () e' ∧
      (env.signAll (before ++ step :: after)).2[before.length]? = some (.ok ())) ∨
    ∃ err, step.call.run e = .error err e' ∧
      (env.signAll (before ++ step :: after)).2[before.length]? = some (.error err) := by
  intro e e'
  have hlen : (env.signAll before).2.length = before.length := length_signAll before
  have he' : e' = (e.signAll [step]).1 := by
    show (env.signAll (before ++ [step])).1 = _
    rw [signAll_append]
  have hentry : (env.signAll (before ++ step :: after)).2[before.length]? =
      (e.signAll (step :: after)).2[0]? := by
    rw [signAll_append, List.getElem?_append_right (Nat.le_of_eq hlen), hlen, Nat.sub_self]
  rw [hentry, he']
  cases h : step.call.run e with
  | ok _ left =>
    rw [signAll_cons_of_ok h, signAll_cons_of_ok h]
    exact .inl ⟨rfl, rfl⟩
  | error err left =>
    rw [signAll_cons_of_error h, signAll_cons_of_error h]
    exact .inr ⟨err, rfl, rfl⟩

/-- A session only appends.  After any steps the outer signatures are those of the start and then,
in order, the signatures of the steps that ended well, twenty at most, and the transaction is the
one of the start.  A call that succeeds adds its signature, one that fails leaves the envelope as it
was, and none changes the digest for any network. -/
theorem signAll_appends (env : Envelope) (steps : List SigningStep)
    (room : env.signatures.length ≤ 20) :
    (∃ added, (env.signAll steps).1.signatures = env.signatures ++ added ∧
      (succeeded steps (env.signAll steps).2).map env.stepSignature = added.map .ok) ∧
    (env.signAll steps).1.signatures.length ≤ 20 ∧
    (env.signAll steps).1.SameTransaction env ∧
    (env.signAll steps).2.length = steps.length ∧
    ∀ before step after, steps = before ++ step :: after →
      let e := (env.signAll before).1
      let e' := (env.signAll (before ++ [step])).1
      ((∃ signature, step.call.run e = .ok () e' ∧ e.stepSignature step = .ok signature ∧
          e' = e.withSignatures (e.signatures ++ [signature]) ∧
          (env.signAll steps).2[before.length]? = some (.ok ())) ∨
        ∃ err, step.call.run e = .error err e' ∧ e.signStep step = .error err ∧ e' = e ∧
          (env.signAll steps).2[before.length]? = some (.error err)) ∧
      ∀ network, e'.hash network = e.hash network := by
  obtain ⟨added, hlast, hadded, hroom⟩ := exists_added env steps
  have hsigs : (env.signAll steps).1.signatures = env.signatures ++ added := by
    rw [hlast, signatures_withSignatures]
  refine ⟨⟨added, hsigs, hadded⟩, ?_, ?_, length_signAll steps, ?_⟩
  · rw [hsigs]
    exact hroom room
  · rw [hlast]
    exact sameTransaction_withSignatures _ _
  · rintro before step after rfl e e'
    have hends := step.call_ends e
    rcases signAll_call env before step after with ⟨hrun, hentry⟩ | ⟨err, hrun, hentry⟩
    · obtain ⟨signature, hsig, _, hnew⟩ := hends.eq_ok_iff.1 hrun
      refine ⟨.inl ⟨signature, hrun, hsig, hnew, hentry⟩, fun network => ?_⟩
      show (env.signAll (before ++ [step])).1.hash network = _
      rw [hnew, hash_withSignatures]
    · rw [hrun] at hends
      have hsame := hends.of_error
      refine ⟨.inr ⟨err, hrun, ?_, hsame, hentry⟩, fun network => ?_⟩
      · exact Signing.after_of_error hrun
      · exact congrArg (·.hash network) hsame

/-- With room for one more signature, a preimage that is too long is passed over, a ready signature
is added, and the next one finds no room. -/
theorem signAll_appends_last :
    let env := Envelope.idle.withSignatures (List.replicate 19 ⟨.replicate 4 7, []⟩)
    let signature : DecoratedSignature := ⟨.replicate 4 1, [1]⟩
    let long : SigningStep := .hashX (List.replicate 65 0)
    let steps := [long, .ready signature, .ready ⟨.replicate 4 2, [2]⟩]
    env.signatures.length ≤ 20 ∧
      (env.signAll steps).1.signatures = env.signatures ++ [signature] ∧
      (env.signAll steps).1.signatures.length ≤ 20 ∧ (env.signAll steps).1.SameTransaction env ∧
      (env.signAll steps).2 =
        [.error (.preimageTooLong 65), .ok (), .error .tooManySignatures] ∧
      long.call.run env = .error (.preimageTooLong 65) env := by
  intro env signature long steps
  have room : env.signatures.length ≤ 20 := by decide
  obtain ⟨⟨added, hsigs, hadded⟩, hmax, hsame, _, hcall⟩ := signAll_appends env steps room
  have hmap : [signature].map Except.ok = added.map .ok := hadded
  obtain rfl : [signature] = added := (List.map_inj_right fun _ _ => Except.ok.inj).1 hmap
  refine ⟨room, hsigs, hmax, hsame, rfl, ?_⟩
  rcases (hcall [] _ _ rfl).1 with ⟨_, _, h, _⟩ | ⟨err, hrun, _, hleft, hentry⟩
  · cases h
  · cases hentry
    rw [hleft] at hrun
    exact hrun

end Envelope

end StellarTx
