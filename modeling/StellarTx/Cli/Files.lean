/-
# Files

What a path leads to in a tree of directories and files.  A path is followed name by name: the empty
name and `.` stay, `..` goes up, and every other name is looked up in the directory reached so far.
Names and whole paths have a greatest length.  A `Machine` holds all that the program can read, so
that what it reads is a function of the machine.
-/
import StellarTx.Cli.Arguments
import StellarTx.Text.Blank
import StellarTx.Text.Decimal

namespace StellarTx.Cli

/-! ## Errors -/

/-- Why a file cannot be read. -/
inductive FileError where
  /-- A name is not in its directory. -/
  | missing
  | denied
  /-- A file stands where a directory is needed. -/
  | notDirectory
  /-- A directory stands where a file is needed. -/
  | isDirectory
  | nameTooLong
  /-- Another cause, in the words of the system. -/
  | other (code : Nat) (reason : String)
  deriving DecidableEq, Repr

namespace FileError

/-- The number of a cause. -/
def code : FileError → Nat
  | missing => 2
  | denied => 13
  | notDirectory => 20
  | isDirectory => 21
  | nameTooLong => 36
  | other code _ => code

/-- The words for a cause. -/
def reason : FileError → String
  | missing => "No such file or directory"
  | denied => "Permission denied"
  | notDirectory => "Not a directory"
  | isDirectory => "Is a directory"
  | nameTooLong => "File name too long"
  | other _ reason => reason

/-- The wording of an error. -/
def message (e : FileError) : String :=
  e.reason ++ " (os error " ++ Text.Decimal.ofNat e.code ++ ")"

/-- The causes that have a name. -/
def named : List FileError := [missing, denied, notDirectory, isDirectory, nameTooLong]

/-- The cause with a number, in the given words if it has no name. -/
def ofCode (code : Nat) (reason : String) : FileError :=
  (named.find? (·.code == code)).getD (other code reason)

end FileError

/-! ## Paths in a tree -/

/-- A file or a directory. -/
inductive Node where
  | file (bytes : ByteArray)
  | directory (entries : List (String × Node))

/-- The greatest number of bytes in a name. -/
def maxName : Nat := 255

/-- The greatest number of bytes in a path. -/
def maxPath : Nat := 4095

namespace Node

/-- Follows names from a node.  The directories that lead to it come first, the nearest in front;
the root is above itself. -/
def follow : List Node → Node → List String → Except FileError Node
  | _, node, [] => .ok node
  | _, file _, _ :: _ => .error .notDirectory
  | above, directory entries, name :: rest =>
    if name = "" ∨ name = "." then follow above (directory entries) rest
    else if name = ".." then
      match above with
      | [] => follow [] (directory entries) rest
      | parent :: above => follow above parent rest
    else if maxName < name.utf8ByteSize then .error .nameTooLong
    else
      match entries.lookup name with
      | none => .error .missing
      | some node => follow (directory entries :: above) node rest

/-- The bytes of a file. -/
def content : Node → Except FileError ByteArray
  | file bytes => .ok bytes
  | directory _ => .error .isDirectory

end Node

/-! ## Machines -/

/-- All that the program can read. -/
structure Machine where
  root : Node
  /-- The names that lead to the directory in which paths without a leading slash start. -/
  workingDirectory : List String
  stdin : ByteArray

namespace Machine

/-- The names of a path from the root. -/
def names (m : Machine) (path : String) : List String :=
  let names := (Text.pieces '/' path.toList).map String.ofList
  if path.toList.head? = some '/' then names else m.workingDirectory ++ names

/-- The bytes of the file at a path. -/
def readFile (m : Machine) (path : String) : Except FileError ByteArray :=
  if maxPath < path.utf8ByteSize then .error .nameTooLong
  else do (← Node.follow [] m.root (m.names path)).content

/-- The bytes of a source. -/
def read (m : Machine) : Source → Except FileError ByteArray
  | .stdin => .ok m.stdin
  | .file path => m.readFile path

/-- The directories that stand under every root. -/
def standardDirectories : List String :=
  ["bin", "boot", "etc", "home", "lib", "media", "mnt", "opt", "proc", "root", "run", "sbin", "srv",
   "sys", "tmp", "usr", "var"]

/-- The devices: one that is always empty, and two names for the standard input. -/
def devices (stdin : ByteArray) : List (String × Node) :=
  [("null", .file .empty), ("stdin", .file stdin), ("fd", .directory [("0", .file stdin)])]

/-- A machine with nothing on it but the standard directories and devices. -/
def bare (stdin : ByteArray) : Machine where
  root := .directory <|
    ("dev", .directory (devices stdin)) :: standardDirectories.map fun name => (name, .directory [])
  workingDirectory := ["tmp"]
  stdin := stdin

end Machine

end StellarTx.Cli
