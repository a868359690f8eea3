/-
# Text that was written reads back

The text of a value, written at a path without blanks and colons and read at the same path, is the
value again if it has bytes and nests at most 64 levels deep; a deeper value is refused for its
depth, and one without bytes is refused in some way.  So text and bytes stand for the same values,
up to the limit on levels.
-/
import StellarTx.Proofs.TxRep.Clean
import StellarTx.Proofs.TxRep.Reading
import StellarTx.Proofs.WireType

namespace StellarTx

open TxRep (IsClean Source Verdict)

namespace Format

variable {α : Type} {F : Places} {f : Format α} {path : String}

/-- The lines of a value are clean, and no two have the same path. -/
theorem Regular.clean_print (h : ∀ n, Regular n F f) (hp : CleanAt F path) (a : α) :
    (∀ line ∈ f.print a path, line.Clean) ∧ ((f.print a path).map (·.path)).Nodup := by
  have hn := Nat.le_refl (f.level a)
  exact ⟨fun line hl => (h (f.level a)).neat a path line hn hp hl,
    (h (f.level a)).distinct a path hn⟩

/-- The text of a value is taken apart into a source that shows its lines. -/
theorem Regular.exists_parse_toText (h : ∀ n, Regular n F f) (hp : CleanAt F path) (a : α) :
    ∃ source, Source.parse (f.toText a path) = .ok source ∧
      source.Shows F path (f.print a path) := by
  obtain ⟨hclean, hdistinct⟩ := Regular.clean_print h hp a
  exact ⟨_, Source.parse_render hclean hdistinct, Source.shows_fieldsOf hdistinct⟩

/-- The text of a value gets the verdict on the value. -/
theorem Regular.verdict (h : ∀ n, Regular n F f) (hp : CleanAt F path) (a : α) :
    Verdict TxRep.maxLevels (f.encode a) (f.level a) a (f.ofText (f.toText a path) path) := by
  obtain ⟨source, hparse, hshows⟩ := Regular.exists_parse_toText h hp a
  have hread : f.ofText (f.toText a path) path = f.read source TxRep.maxLevels path := by
    rw [ofText, hparse]
    rfl
  rw [hread]
  exact (h (f.level a)).judged a source _ path (Nat.le_refl _) hshows

/-- The verdict on a value, in terms of its bytes as a whole. -/
theorem Regular.toText_spec (h : ∀ n, Regular n F f) (hp : CleanAt F path) (a : α) :
    (∀ bytes, f.toBytes a = .ok bytes → f.level a ≤ TxRep.maxLevels →
      f.ofText (f.toText a path) path = .ok a) ∧
    (∀ bytes, f.toBytes a = .ok bytes → TxRep.maxLevels < f.level a →
      ∃ q, f.ofText (f.toText a path) path = .error (.depth q)) ∧
    (∀ e, f.toBytes a = .error e → ∃ e', f.ofText (f.toText a path) path = .error e') := by
  have hv := Regular.verdict h hp a
  refine ⟨fun bytes hb hl => ?_, fun bytes hb hl => ?_, fun e he => ?_⟩
  · exact hv.fine bytes (toBytes_eq_ok_iff.1 hb) hl
  · exact hv.deep bytes (toBytes_eq_ok_iff.1 hb) hl
  · obtain ⟨excess, hx, _⟩ := toBytes_eq_error_iff.1 he
    exact hv.refused excess hx

end Format

namespace Envelope

/-- An envelope is written at the root, where it has no line. -/
theorem cleanAt_root :
    Format.CleanAt ⟨false, ["tx", "signatures", "tx", "signatures", "feeBump", "type"], false⟩ "" :=
  ⟨nofun, nofun⟩

/-- An envelope of version 0 that does nothing. -/
def idle : Envelope :=
  .v0 ⟨⟨.replicate 32 0, 100, 1, none, .none, []⟩, []⟩

/-- A signed envelope that calls a function of a contract with values inside values, and removes an
entry of another account. -/
def calling : Envelope :=
  let balances : Contract.Value :=
    .map (some [(.atom (.symbol "total"), .atom (.uint128 ⟨0, 7⟩)), (.vector none, .map none)])
  let call : Contract.Call :=
    ⟨.contract (.replicate 32 2), "set", [.vector (some [balances, .vector (some [])])]⟩
  .v1 ⟨⟨.muxed 5 (.replicate 32 0), 200, 1, .time ⟨0, 9⟩, .text "two (2) calls: \"set\"",
    [{ body := .invokeHostFunction ⟨.invoke call, []⟩ },
      { sourceAccount := some (.ed25519 (.replicate 32 1)), body := .manageData ⟨"key", none⟩ }]⟩,
    [⟨.replicate 4 3, [1, 2]⟩]⟩

end Envelope

namespace WireType

/-- Text is a lossless form of what has bytes, up to the limit on levels: an envelope with bytes and
at most 64 levels reads back from its text, one with bytes and more levels is refused for its depth,
and one without bytes is refused.  The same holds of every type with a text form, written at and
read from any path that is not empty and has no blank and no colon.  An option directly in an option
is left out there (`HasText`): both would write their presence on the same line. -/
theorem text_roundTrip :
    (∀ env : Envelope,
      (∀ bytes, Envelope.format.toBytes env = .ok bytes → Envelope.format.level env ≤ 64 →
        Envelope.ofText env.toText = .ok env) ∧
      (∀ bytes, Envelope.format.toBytes env = .ok bytes → 64 < Envelope.format.level env →
        ∃ path, Envelope.ofText env.toText = .error (.depth path)) ∧
      (∀ e, Envelope.format.toBytes env = .error e →
        ∃ e', Envelope.ofText env.toText = .error e')) ∧
    (∀ t : WireType, t.HasText → ∀ path : String, path ≠ "" → IsClean path → ∀ v : t.Carrier,
      (∀ bytes, t.format.toBytes v = .ok bytes → t.format.level v ≤ 64 →
        t.format.ofText (t.format.toText v path) path = .ok v) ∧
      (∀ bytes, t.format.toBytes v = .ok bytes → 64 < t.format.level v →
        ∃ path', t.format.ofText (t.format.toText v path) path = .error (.depth path')) ∧
      (∀ e, t.format.toBytes v = .error e →
        ∃ e', t.format.ofText (t.format.toText v path) path = .error e')) := by
  refine ⟨fun env => ?_, fun t ht path hne hp v => ?_⟩
  · exact Format.Regular.toText_spec (fun n => Envelope.outlined rfl) Envelope.cleanAt_root env
  · obtain ⟨F, hF, _⟩ := exists_regular ht
    exact Format.Regular.toText_spec hF ⟨hp, fun _ => hne⟩ v

/-- An envelope without operations and one with nested values, as many negations as are read and one
more, and a price at the path of one of its parts. -/
theorem text_roundTrip_calling :
    Envelope.ofText Envelope.idle.toText = .ok Envelope.idle ∧
    Envelope.ofText Envelope.calling.toText = .ok Envelope.calling ∧
    Envelope.ofText (Envelope.conditional (.negations 64)).toText =
      .ok (Envelope.conditional (.negations 64)) ∧
    (∃ path, Envelope.ofText (Envelope.conditional (.negations 65)).toText =
      .error (.depth path)) ∧
    (price.HasText ∧ "tx.price[0]" ≠ "" ∧ IsClean "tx.price[0]" ∧
      price.format.ofText (price.format.toText ⟨1, 2⟩ "tx.price[0]") "tx.price[0]" =
        .ok (⟨1, 2⟩ : Price)) := by
  have hcalling : (Envelope.format.toBytes .calling).isOk = true := by decide +kernel
  have hfine : (Envelope.format.toBytes (.conditional (.negations 64))).isOk = true := by
    decide +kernel
  have hdeep : (Envelope.format.toBytes (.conditional (.negations 65))).isOk = true := by
    decide +kernel
  obtain ⟨call, hcall⟩ := Except.exists_of_isOk hcalling
  obtain ⟨fine, hfine⟩ := Except.exists_of_isOk hfine
  obtain ⟨deep, hdeep⟩ := Except.exists_of_isOk hdeep
  have hne : "tx.price[0]" ≠ "" := by decide
  have hp : IsClean "tx.price[0]" := by decide
  refine ⟨?_, ?_, ?_, ?_, trivial, hne, hp, ?_⟩
  · exact (text_roundTrip.1 Envelope.idle).1 _ rfl (by decide)
  · exact (text_roundTrip.1 Envelope.calling).1 call hcall (by decide +kernel)
  · exact (text_roundTrip.1 (.conditional (.negations 64))).1 fine hfine (by decide +kernel)
  · exact (text_roundTrip.1 (.conditional (.negations 65))).2.1 deep hdeep (by decide +kernel)
  · exact (text_roundTrip.2 price trivial "tx.price[0]" hne hp ⟨1, 2⟩).1 _ rfl (by decide)

end WireType

end StellarTx
