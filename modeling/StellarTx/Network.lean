/-
# Networks

A network is known by its passphrase, and its id is the digest of that.  The three well-known ones
also have names.
-/
import StellarTx.Hash.Sha2
import StellarTx.Text.Quoted

namespace StellarTx

/-- A network. -/
structure Network where
  passphrase : String
  deriving DecidableEq, Repr

namespace Network

/-- The production network. -/
def pubnet : Network := ⟨"Public Global Stellar Network ; September 2015"⟩

def testnet : Network := ⟨"Test SDF Network ; September 2015"⟩

def futurenet : Network := ⟨"Test SDF Future Network ; October 2022"⟩

/-- The network of a name in any case, or with the given passphrase if it is no such name. -/
def ofNameOrPassphrase (text : String) : Network :=
  let name := text.map Char.toLower
  if name ∈ ["public", "mainnet", "pubnet"] then pubnet
  else if name ∈ ["testnet", "test"] then testnet
  else if name ∈ ["futurenet", "future"] then futurenet
  else ⟨text⟩

/-- The digest of the passphrase, the first part of all that is signed for the network. -/
def id (network : Network) : Octets 32 :=
  Hash.sha256 network.passphrase.toUTF8.toList

/-- The name of a well-known network, or the passphrase. -/
def shown (network : Network) : String :=
  if network = pubnet then "public"
  else if network = testnet then "testnet"
  else if network = futurenet then "futurenet"
  else "custom(" ++ network.passphrase ++ ")"

/-! ## Stored form -/

/-- What stands before the passphrase in the stored form. -/
def storedStart : List Char := "\x7b\"passphrase\":".toList

/-- The stored form: an object with the passphrase as its one member. -/
def toStored (network : Network) : String :=
  String.ofList (storedStart ++ Text.Quoted.quoteChars network.passphrase.toList ++ ['}'])

/-- The network that a stored form without blanks stands for. -/
def ofStored? (text : String) : Option Network := do
  let chars := text.toList
  guard (storedStart.isPrefixOf chars)
  let rest := chars.drop storedStart.length
  guard (rest.getLast? = some '}')
  return ⟨String.ofList (← Text.Quoted.unquoteChars? rest.dropLast)⟩

end Network

end StellarTx
