/-
# Command line arguments

A command line is a subcommand with options and at most one input.  Arguments are read from left to
right, and the first that is out of place, or that asks for the version or for help, decides.
Options that the command line leaves open may come from the environment.
-/

namespace StellarTx.Cli

/-- What one run of the program does. -/
inductive Subcommand where
  | decode
  | encode
  | sign
  | hash
  | keygen
  deriving DecidableEq, Repr

/-- The options that take a value. -/
inductive OptionName where
  | logFormat
  | secret
  | network
  | format
  deriving DecidableEq, Repr

/-- How an envelope is written. -/
inductive EnvelopeForm where
  /-- In base 64. -/
  | xdr
  /-- In lines of text. -/
  | txrep
  deriving DecidableEq, Repr

namespace Subcommand

def all : List Subcommand := [decode, encode, sign, hash, keygen]

/-- The word for a subcommand. -/
def name : Subcommand → String
  | decode => "decode"
  | encode => "encode"
  | sign => "sign"
  | hash => "hash"
  | keygen => "keygen"

/-- The subcommand that a word stands for. -/
def ofName? (word : String) : Option Subcommand := all.find? (·.name == word)

/-- The options that a subcommand takes. -/
def options : Subcommand → List OptionName
  | sign => [.logFormat, .secret, .network, .format]
  | hash => [.logFormat, .network, .format]
  | _ => [.logFormat]

/-- Whether a subcommand takes an input. -/
def takesInput : Subcommand → Bool
  | keygen => false
  | _ => true

end Subcommand

namespace OptionName

/-- The word for an option, without the dashes. -/
def name : OptionName → String
  | logFormat => "log-format"
  | secret => "secret"
  | network => "network"
  | format => "format"

end OptionName

/-- The form that a word stands for. -/
def EnvelopeForm.ofName? (word : String) : Option EnvelopeForm :=
  if word = "xdr" then some .xdr else if word = "txrep" then some .txrep else none

/-- Where an envelope is read from. -/
inductive Source where
  | stdin
  | file (path : String)
  deriving DecidableEq, Repr

/-- The source that an argument names. -/
def Source.ofArgument (arg : String) : Source :=
  if arg = "-" then stdin else file arg

/-- Why no command is run. -/
inductive Stop where
  /-- The command line makes no sense. -/
  | usage
  | help
  /-- The version is asked for, of the program or of one subcommand. -/
  | version (sub : Option Subcommand)
  deriving DecidableEq, Repr

/-- What the command line gives. -/
structure Given where
  input : Option String := none
  logFormat : Option String := none
  secret : Option String := none
  network : Option String := none
  format : Option EnvelopeForm := none
  deriving DecidableEq, Repr

namespace Given

/-- Adds the value of an option, which is given only once. -/
def setOption (given : Given) (name : OptionName) (value : String) : Except Stop Given :=
  match name with
  | .logFormat =>
    if given.logFormat.isSome then throw .usage else return { given with logFormat := value }
  | .secret =>
    if given.secret.isSome then throw .usage else return { given with secret := value }
  | .network =>
    if given.network.isSome then throw .usage else return { given with network := value }
  | .format =>
    match given.format, EnvelopeForm.ofName? value with
    | none, some form => return { given with format := form }
    | _, _ => throw .usage

/-- Adds the input, which is given only once and has a name. -/
def setInput (given : Given) (takesInput : Bool) (arg : String) : Except Stop Given :=
  if !takesInput || given.input.isSome || arg.isEmpty then throw .usage
  else return { given with input := arg }

end Given

/-! ## Words -/

/-- What kind of argument a word is. -/
inductive Word where
  /-- The word that ends the options. -/
  | dashes
  /-- An option by its name, and the value after its equals sign. -/
  | long (name : String) (value : Option String)
  /-- An option by its first letter. -/
  | short (letter : Char)
  | plain
  deriving DecidableEq, Repr

/-- Splits an option at its first equals sign. -/
def splitOption (text : List Char) : Word :=
  match text.dropWhile (· != '=') with
  | [] => .long (String.ofList text) none
  | _ :: value => .long (String.ofList (text.takeWhile (· != '='))) (some (String.ofList value))

/-- The kind of a word. -/
def Word.ofArgument (arg : String) : Word :=
  match arg.toList with
  | ['-', '-'] => dashes
  | '-' :: '-' :: rest => splitOption rest
  | '-' :: letter :: _ => short letter
  | _ => plain

/-- What an option asks for that stops the reading of arguments, or a usage error. -/
def stopOf (sub : Option Subcommand) : Word → Stop
  | .long "version" none => .version sub
  | .short 'V' => .version sub
  | .long "help" none => .help
  | .short 'h' => .help
  | _ => .usage

/-- What the arguments of `help` ask for: help, with a subcommand or without one. -/
def stopOfHelp : List String → Stop
  | [] => .help
  | [word] => if (Subcommand.ofName? word).isSome || word = "help" then .help else .usage
  | _ => .usage

/-! ## Reading arguments -/

/-- Reads arguments after the dashes that end the options. -/
def readPlain (takesInput : Bool) (given : Given) : List String → Except Stop Given
  | [] => .ok given
  | arg :: rest => do readPlain takesInput (← given.setInput takesInput arg) rest

/-- Reads the arguments of a subcommand. -/
def readArguments (sub : Subcommand) (given : Given) : List String → Except Stop Given
  | [] => .ok given
  | arg :: rest =>
    match Word.ofArgument arg with
    | .plain => do readArguments sub (← given.setInput sub.takesInput arg) rest
    | .dashes => readPlain sub.takesInput given rest
    | .long name value =>
      match sub.options.find? (·.name == name), value, rest with
      | some option, some value, rest => do
        readArguments sub (← given.setOption option value) rest
      | some option, none, value :: rest =>
        if Word.ofArgument value = .plain then do
          readArguments sub (← given.setOption option value) rest
        else throw .usage
      | some _, none, [] => throw .usage
      | none, value, _ => throw (stopOf sub (.long name value))
    | word => throw (stopOf sub word)

/-- Reads arguments up to the subcommand, then those of the subcommand. -/
def readCommandLine (given : Given) : List String → Except Stop (Subcommand × Given)
  | [] => throw .usage
  | arg :: rest =>
    match Word.ofArgument arg with
    | .plain =>
      match Subcommand.ofName? arg with
      | some sub => do return (sub, ← readArguments sub {} rest)
      | none => throw (if arg = "help" then stopOfHelp rest else .usage)
    | .long name value =>
      if name = OptionName.logFormat.name then
        match value, rest with
        | some value, rest => do readCommandLine (← given.setOption .logFormat value) rest
        | none, value :: rest =>
          if Word.ofArgument value = .plain then do
            readCommandLine (← given.setOption .logFormat value) rest
          else throw .usage
        | none, [] => throw .usage
      else throw (stopOf none (.long name value))
    | word => throw (stopOf none word)

end StellarTx.Cli
