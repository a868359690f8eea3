/-
# Both forms give the same answers

An envelope that is read from base 64 can be carried on in lines of text instead: going back gives
the base 64 it came from, its digest is the same, and so is what signing makes of it.  The bytes,
the text and the signatures each keep the envelope, so that all that a command prints is a function
of it.
-/
import StellarTx.Cli.Command
import StellarTx.Proofs.Envelope
import StellarTx.Proofs.Text.Base64
import StellarTx.Proofs.TxRep.RoundTrip
import StellarTx.Proofs.Xdr.Canonical

namespace StellarTx

namespace Envelope

variable {env : Envelope}

/-- Base 64 that is read as an envelope is, without the blanks around it, what is written for the
envelope. -/
theorem toBase64_of_ofBase64 {text : String} (h : format.ofBase64 text = .ok env) :
    format.toBase64 env = .ok (String.ofList (Text.trim text.toList)) := by
  unfold Format.ofBase64 at h
  cases hread : Text.Base64.decode (String.ofList (Text.trim text.toList)) with
  | error e =>
    rw [hread] at h
    cases h
  | ok bytes =>
    rw [hread] at h
    have hbytes : format.toBytes env = .ok bytes :=
      WireType.toBytes_of_ofBytes (show WireType.envelope.format.ofBytes bytes = .ok env from h)
    unfold Format.toBase64
    rw [hbytes, ← Text.Base64.encode_of_decode hread]
    rfl

/-- An envelope with a written form in base 64 has bytes. -/
theorem writable_of_toBase64 {text : String} (h : format.toBase64 env = .ok text) :
    format.Writable env := by
  obtain ⟨bytes, hbytes, _⟩ := Except.map_eq_ok_iff.1 h
  exact ⟨bytes, Format.toBytes_eq_ok_iff.1 hbytes⟩

theorem exists_toBase64 (h : format.Writable env) : ∃ text, format.toBase64 env = .ok text := by
  obtain ⟨bytes, hbytes⟩ := h
  exact ⟨_, Except.map_eq_ok_iff.2 ⟨bytes, Format.toBytes_eq_ok_iff.2 hbytes, rfl⟩⟩

/-- The text of an envelope with bytes and few levels reads back. -/
theorem ofText_toText (h : format.Writable env) (hl : format.level env ≤ 64) :
    ofText env.toText = .ok env := by
  obtain ⟨bytes, hbytes⟩ := h
  have hspec := Format.Regular.toText_spec (fun n => Envelope.outlined rfl) cleanAt_root env
  exact hspec.1 bytes (Format.toBytes_eq_ok_iff.2 hbytes) hl

end Envelope

namespace Cli

/-! ## Runs -/

/-- A text that is stored as UTF-8 is read as it is. -/
theorem Source.text_toUTF8 (source : Source) (text : String) :
    source.text (.ok text.toUTF8) = .ok text := by
  have hread : String.fromUTF8? text.toUTF8 = some text := dif_pos text.isValidUTF8
  unfold Source.text
  simp only [hread]

namespace Command

theorem run_toUTF8 {command : Command} {source : Source} (h : command.source? = some source)
    (text : String) (seed : Octets 32) :
    command.run (.ok text.toUTF8) seed = .ofOutput (command.output text) := by
  unfold run
  rw [h]
  show Outcome.ofOutput (source.text (.ok text.toUTF8) >>= fun text => command.output text) = _
  rw [Source.text_toUTF8]
  rfl

/-- Whenever its source holds the input, the command prints the output and nothing else, and ends
well. -/
def Prints (command : Command) (input output : String) : Prop :=
  ∀ seed, command.run (.ok input.toUTF8) seed = ⟨0, output, ""⟩

/-- Whenever its source holds the input, the command reports why it cannot sign, and prints nothing
else. -/
def ReportsSigning (command : Command) (input : String) (e : SigningError) : Prop :=
  ∀ seed, command.run (.ok input.toUTF8) seed =
    .ofOutput (.error ⟨"failed to sign envelope", e.message⟩)

theorem prints_of_output {command : Command} {source : Source} {input output : String}
    (hsource : command.source? = some source) (h : command.output input = .ok output) :
    command.Prints input output := by
  intro seed
  rw [run_toUTF8 hsource, h]
  rfl

variable {env env' : Envelope} {form : EnvelopeForm} {text : String} (source : Source)

/-! ### Commands on a text that holds an envelope -/

theorem decode_prints (h : readEnvelope .xdr text = .ok env) :
    (decode source).Prints text env.toText := by
  apply prints_of_output rfl
  exact Except.bind_eq_ok_iff.2 ⟨env, h, rfl⟩

theorem encode_prints {line : String} (h : readEnvelope .txrep text = .ok env)
    (hline : Envelope.format.toBase64 env = .ok line) :
    (encode source).Prints text (line ++ "\n") := by
  apply prints_of_output rfl
  refine Except.bind_eq_ok_iff.2 ⟨env, h, ?_⟩
  unfold printEnvelope
  rw [hline]

theorem hash_prints {network : Network} {hash : Octets 32} (h : readEnvelope form text = .ok env)
    (hhash : env.hash network = .ok hash) :
    (Command.hash source network form).Prints text (Text.Hex.encode hash.toList ++ "\n") := by
  apply prints_of_output rfl
  refine Except.bind_eq_ok_iff.2 ⟨env, h, ?_⟩
  unfold printHash
  rw [hhash]

theorem sign_prints {network : Network} {secret output : String}
    (h : readEnvelope form text = .ok env)
    (hsign : env.signStep (.secret secret network) = .ok env')
    (houtput : printEnvelope form env' = .ok output) :
    (sign source secret network form).Prints text output := by
  apply prints_of_output rfl
  refine Except.bind_eq_ok_iff.2 ⟨env, h, Except.bind_eq_ok_iff.2 ⟨env', ?_, houtput⟩⟩
  unfold signEnvelope
  rw [hsign]

theorem sign_reports {network : Network} {secret : String} {e : SigningError}
    (h : readEnvelope form text = .ok env)
    (hsign : env.signStep (.secret secret network) = .error e) :
    (sign source secret network form).ReportsSigning text e := by
  have hsource : (sign source secret network form).source? = some source := rfl
  have hfail : signEnvelope secret network env =
      .error ⟨"failed to sign envelope", e.message⟩ := by
    unfold signEnvelope
    rw [hsign]
  have houtput : (sign source secret network form).output text =
      .error ⟨"failed to sign envelope", e.message⟩ :=
    (Except.bind_of_ok h).trans (Except.bind_of_error hfail)
  intro seed
  rw [run_toUTF8 hsource, houtput]

end Command

/-! ## Forms -/

/-- The base 64 and the text of an envelope stand for each other.  For base 64 that is read as an
envelope of at most 64 levels: `decode` prints the text of the envelope, which `encode` turns back
into the base 64 without the blanks around it; `hash` prints one digest for both; and `sign` either
fails on both, for one reason, or prints the same signed envelope, once in base 64 and once as text,
which `encode` turns into that base 64. -/
theorem forms_agree {line : String} {env : Envelope} (h : Envelope.format.ofBase64 line = .ok env)
    (hl : Envelope.format.level env ≤ 64) (network : Network) (secret : String)
    (source source' : Source) :
    (Command.decode source).Prints line env.toText ∧
      (Command.encode source').Prints env.toText (String.ofList (Text.trim line.toList) ++ "\n") ∧
      (∃ hash, env.hash network = .ok hash ∧
        (Command.hash source network .xdr).Prints line (Text.Hex.encode hash.toList ++ "\n") ∧
        (Command.hash source' network .txrep).Prints env.toText
          (Text.Hex.encode hash.toList ++ "\n")) ∧
      ((∃ env' signed, env.signStep (.secret secret network) = .ok env' ∧
          Envelope.format.toBase64 env' = .ok signed ∧
          (Command.sign source secret network .xdr).Prints line (signed ++ "\n") ∧
          (Command.sign source' secret network .txrep).Prints env.toText env'.toText ∧
          (Command.encode source').Prints env'.toText (signed ++ "\n")) ∨
        ∃ e, env.signStep (.secret secret network) = .error e ∧
          (Command.sign source secret network .xdr).ReportsSigning line e ∧
          (Command.sign source' secret network .txrep).ReportsSigning env.toText e) := by
  have hbase := Envelope.toBase64_of_ofBase64 h
  have hw := Envelope.writable_of_toBase64 hbase
  have hxdr : readEnvelope .xdr line = .ok env := by
    unfold readEnvelope
    rw [h]
  have htext : ∀ env', Envelope.format.Writable env' → Envelope.format.level env' ≤ 64 →
      readEnvelope .txrep env'.toText = .ok env' := by
    intro env' hw' hl'
    unfold readEnvelope
    rw [Envelope.ofText_toText hw' hl']
  have htxrep := htext env hw hl
  obtain ⟨hash, hhash⟩ := Envelope.exists_hash hw network
  refine ⟨Command.decode_prints source hxdr, Command.encode_prints source' htxrep hbase,
    ⟨hash, hhash, Command.hash_prints source hxdr hhash, Command.hash_prints source' htxrep hhash⟩,
    ?_⟩
  cases hsign : env.signStep (.secret secret network) with
  | ok env' =>
    left
    obtain ⟨hw', hl'⟩ := Envelope.writable_of_signStep_secret hsign hw
    obtain ⟨signed, hsigned⟩ := Envelope.exists_toBase64 hw'
    have hprint : printEnvelope .xdr env' = .ok (signed ++ "\n") := by
      unfold printEnvelope
      rw [hsigned]
    refine ⟨env', signed, rfl, hsigned, Command.sign_prints source hxdr hsign hprint,
      Command.sign_prints source' htxrep hsign rfl, ?_⟩
    exact Command.encode_prints source' (htext env' hw' (hl' ▸ hl)) hsigned
  | error e =>
    right
    exact ⟨e, rfl, Command.sign_reports source hxdr hsign,
      Command.sign_reports source' htxrep hsign⟩

/-- The base 64 of an envelope that does nothing. -/
def idleBase64 : String :=
  "AAAAAAAAAAAAAAAAAAAAAAAAAAAAAAAAAAAAAAAAAAAAAAAAAAAAZAAAAAAAAAABAAAAAAAAAAAAAAAAAAAAAAAAAAA="

/-- With blanks around its base 64, an envelope that does nothing goes to text and back.  A secret
signs it in both forms, and what is no secret signs it in neither. -/
theorem forms_agree_idle :
    let line := "  " ++ idleBase64 ++ "\n"
    let text := Envelope.idle.toText
    let secret := (KeyPair.mk (.replicate 32 7)).secret
    Envelope.format.ofBase64 line = .ok .idle ∧ Envelope.format.level .idle ≤ 64 ∧
    (Command.decode .stdin).Prints line text ∧
    (Command.encode .stdin).Prints text (idleBase64 ++ "\n") ∧
    (∃ env signed, Envelope.idle.signStep (.secret secret .testnet) = .ok env ∧
      env.signatures.length = 1 ∧ Envelope.format.toBase64 env = .ok signed ∧
      (Command.sign .stdin secret .testnet .xdr).Prints line (signed ++ "\n") ∧
      (Command.sign .stdin secret .testnet .txrep).Prints text env.toText ∧
      (Command.encode .stdin).Prints env.toText (signed ++ "\n")) ∧
    (Command.sign .stdin "S" .testnet .xdr).ReportsSigning line .secretKey ∧
    (Command.sign .stdin "S" .testnet .txrep).ReportsSigning text .secretKey := by
  intro line text secret
  have h : Envelope.format.ofBase64 line = .ok .idle := by decide +kernel
  have htrim : String.ofList (Text.trim line.toList) = idleBase64 := by decide +kernel
  have hl : Envelope.format.level .idle ≤ 64 := by decide
  have hsigns : ((Envelope.idle.signStep (.secret secret .testnet)).map
      (·.signatures.length)).toOption = some 1 := by decide +kernel
  have hrefuses : Envelope.idle.signStep (.secret "S" .testnet) = .error .secretKey := by
    decide +kernel
  obtain ⟨hdecode, hencode, _, hsign⟩ := forms_agree h hl .testnet secret .stdin .stdin
  obtain ⟨_, _, _, hrefused⟩ := forms_agree h hl .testnet "S" .stdin .stdin
  rw [htrim] at hencode
  refine ⟨h, hl, hdecode, hencode, ?_, ?_⟩
  · rcases hsign with ⟨env, signed, hok, hsigned, hxdr, htxrep, hback⟩ | ⟨e, herror, _⟩
    · rw [hok] at hsigns
      exact ⟨env, signed, hok, Option.some.inj hsigns, hsigned, hxdr, htxrep, hback⟩
    · rw [herror] at hsigns
      cases hsigns
  · rcases hrefused with ⟨_, _, hok, _⟩ | ⟨e, herror, hxdr, htxrep⟩
    · rw [hrefuses] at hok
      cases hok
    · rw [hrefuses] at herror
      cases herror
      exact ⟨hxdr, htxrep⟩

end Cli

end StellarTx
