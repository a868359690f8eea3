/-
# Commands

A command reads one envelope and prints it in the other form, signs it, or prints its digest.
-/
import StellarTx.Cli.Files
import StellarTx.Signing.Step

namespace StellarTx.Cli

/-! ## Commands from arguments -/

/-- Values of options that the environment gives. -/
structure Environment where
  secret : Option String := none
  network : Option String := none
  deriving DecidableEq, Repr

/-- What to do with which envelope. -/
inductive Command where
  | decode (source : Source)
  | encode (source : Source)
  | sign (source : Source) (secret : String) (network : Network) (form : EnvelopeForm)
  | hash (source : Source) (network : Network) (form : EnvelopeForm)
  | keygen
  deriving DecidableEq, Repr

/-- The network unless another is given. -/
def defaultNetwork : String := "testnet"

namespace Command

/-- The command that a subcommand and its options stand for. -/
def ofGiven (env : Environment) (sub : Subcommand) (given : Given) : Except Stop Command :=
  let source := match given.input with
    | some arg => Source.ofArgument arg
    | none => .stdin
  let network := Network.ofNameOrPassphrase
    ((given.network <|> env.network).getD defaultNetwork)
  let form := given.format.getD .xdr
  match sub with
  | .decode => return decode source
  | .encode => return encode source
  | .sign =>
    match given.secret <|> env.secret with
    | some secret => return sign source secret network form
    | none => throw .usage
  | .hash => return hash source network form
  | .keygen => return keygen

/-- The command that a command line stands for. -/
def ofArguments (env : Environment) (args : List String) : Except Stop Command := do
  let (sub, given) ← readCommandLine {} args
  ofGiven env sub given

/-- The source of the envelope, if the command reads one. -/
def source? : Command → Option Source
  | decode source | encode source | sign source .. | hash source .. => some source
  | keygen => none

end Command

/-! ## Running -/

/-- Why a command fails: what it was doing, and what went wrong. -/
structure Failure where
  context : String
  cause : String
  deriving DecidableEq, Repr

/-- The text in what was read from a source. -/
def Source.text (source : Source) (bytes : Except FileError ByteArray) : Except Failure String :=
  let context := match source with
    | .stdin => "failed to read stdin"
    | .file path => "failed to read " ++ path
  match bytes with
  | .error e => .error ⟨context, e.message⟩
  | .ok bytes =>
    match String.fromUTF8? bytes with
    | some text => .ok text
    | none => .error ⟨context, "stream did not contain valid UTF-8"⟩

/-- The envelope in a text of the given form. -/
def readEnvelope (form : EnvelopeForm) (text : String) : Except Failure Envelope :=
  match form with
  | .xdr =>
    match Envelope.format.ofBase64 text with
    | .ok env => .ok env
    | .error e => .error ⟨"failed to decode XDR envelope", e.message⟩
  | .txrep =>
    match Envelope.ofText text with
    | .ok env => .ok env
    | .error e => .error ⟨"failed to parse TxRep", e.message⟩

/-- What is printed of an envelope in the given form. -/
def printEnvelope (form : EnvelopeForm) (env : Envelope) : Except Failure String :=
  match form with
  | .xdr =>
    match Envelope.format.toBase64 env with
    | .ok text => .ok (text ++ "\n")
    | .error e => .error ⟨"failed to encode XDR envelope", e.message⟩
  | .txrep => .ok env.toText

/-- Signs with a secret. -/
def signEnvelope (secret : String) (network : Network) (env : Envelope) :
    Except Failure Envelope :=
  match env.signStep (.secret secret network) with
  | .ok env => .ok env
  | .error e => .error ⟨"failed to sign envelope", e.message⟩

/-- What is printed of the digest of an envelope. -/
def printHash (network : Network) (env : Envelope) : Except Failure String :=
  match env.hash network with
  | .ok hash => .ok (Text.Hex.encode hash.toList ++ "\n")
  | .error e => .error ⟨"failed to hash envelope", e.message⟩

/-- What a command prints, given the text of its source. -/
def Command.output (text : String) : Command → Except Failure String
  | decode _ => do printEnvelope .txrep (← readEnvelope .xdr text)
  | encode _ => do printEnvelope .xdr (← readEnvelope .txrep text)
  | sign _ secret network form => do
    printEnvelope form (← signEnvelope secret network (← readEnvelope form text))
  | hash _ network form => do printHash network (← readEnvelope form text)
  | keygen => .ok ""

/-- What is printed of a new key pair. -/
def printKeyPair (pair : KeyPair) : String :=
  "public: " ++ pair.accountId.toText ++ "\nsecret: " ++ pair.secret ++ "\n"

/-! ## Outcomes -/

/-- How a run ends. -/
structure Outcome where
  exit : UInt8
  stdout : String
  stderr : String
  deriving DecidableEq, Repr

namespace Outcome

/-- The outcome of a command that prints a text. -/
def ofOutput : Except Failure String → Outcome
  | .ok text => ⟨0, text, ""⟩
  | .error e => ⟨1, "", "Error: " ++ e.context ++ "\n\nCaused by:\n    " ++ e.cause ++ "\n"⟩

/-- How the program is used. -/
def usage : String :=
  "Usage: lumen [--log-format <LOG_FORMAT>] <decode|encode|sign|hash|keygen> [OPTIONS] [INPUT]\n"

/-- The outcome of a command line that runs no command. -/
def ofStop : Stop → Outcome
  | .usage => ⟨2, "", usage⟩
  | .help => ⟨0, usage, ""⟩
  | .version none => ⟨0, "lumen 0.1.0\n", ""⟩
  | .version (some sub) => ⟨0, "lumen-" ++ sub.name ++ " 0.1.0\n", ""⟩

end Outcome

/-- The outcome of a command, given what was read from its source and a seed for a new key pair. -/
def Command.run (command : Command) (bytes : Except FileError ByteArray) (seed : Octets 32) :
    Outcome :=
  match command.source? with
  | none => ⟨0, printKeyPair ⟨seed⟩, ""⟩
  | some source => .ofOutput do command.output (← source.text bytes)

/-- The outcome of a command line on a machine. -/
def Machine.run (m : Machine) (env : Environment) (args : List String) (seed : Octets 32) :
    Outcome :=
  match Command.ofArguments env args with
  | .error stop => .ofStop stop
  | .ok command =>
    let bytes := match command.source? with
      | some source => m.read source
      | none => .ok .empty
    command.run bytes seed

end StellarTx.Cli
