/-
# The program

Reads the input of a command, runs it, and prints what it gives.
-/
import StellarTx.Cli.Command

namespace StellarTx.Cli

/-- The number and the words of the system for a failure. -/
def systemError : IO.Error → UInt32 × String
  | .noFileOrDirectory _ code reason | .interrupted _ code reason => (code, reason)
  | .permissionDenied _ code reason | .inappropriateType _ code reason
  | .invalidArgument _ code reason | .noSuchThing _ code reason
  | .resourceExhausted _ code reason | .alreadyExists _ code reason => (code, reason)
  | .otherError code reason | .hardwareFault code reason | .resourceBusy code reason
  | .resourceVanished code reason | .unsupportedOperation code reason
  | .unsatisfiedConstraints code reason | .illegalOperation code reason
  | .protocolError code reason | .timeExpired code reason => (code, reason)
  | .unexpectedEof => (0, "unexpected end of file")
  | .userError reason => (0, reason)

/-- The cause of a failure.  Some calls give the negated number. -/
def FileError.ofSystem (e : IO.Error) : FileError :=
  let (code, reason) := systemError e
  .ofCode code.toInt32.toInt.natAbs reason

/-- The bytes of a source. -/
def readSource (source : Source) : IO (Except FileError ByteArray) := do
  try
    match source with
    | .stdin => return .ok (← (← IO.getStdin).readBinToEnd)
    | .file path => return .ok (← IO.FS.readBinFile path)
  catch e => return .error (.ofSystem e)

/-- Prints an outcome and ends with its exit code. -/
def finish (outcome : Outcome) : IO UInt32 := do
  IO.print outcome.stdout
  IO.eprint outcome.stderr
  return outcome.exit.toUInt32

end StellarTx.Cli

open StellarTx StellarTx.Cli in
def main (args : List String) : IO UInt32 := do
  let env : Environment :=
    { secret := ← IO.getEnv "LUMEN_SECRET_SEED", network := ← IO.getEnv "LUMEN_NETWORK" }
  match Command.ofArguments env args with
  | .error stop => finish (.ofStop stop)
  | .ok command =>
    let bytes ← match command.source? with
      | some source => readSource source
      | none => pure (.ok .empty)
    let random ← IO.getRandomBytes 32
    match Octets.ofList? 32 random.toList with
    | some seed => finish (command.run bytes seed)
    | none => finish ⟨1, "", "Error: no random bytes\n"⟩
