import StellarTx.Octets
import StellarTx.Text.Blank
import StellarTx.Text.Hex
import StellarTx.Text.Decimal
import StellarTx.Text.Base64
import StellarTx.Text.Base32
import StellarTx.Text.Hidden
import StellarTx.Text.Quoted
import StellarTx.Text.Shown
import StellarTx.Hash.Sha2
import StellarTx.Ed25519.Signature
import StellarTx.StrKey.Basic
import StellarTx.Xdr.Decoder
import StellarTx.TxRep.Source
import StellarTx.Format.Scalar
import StellarTx.Format.Union
import StellarTx.Format.Recursive
import StellarTx.Account
import StellarTx.Asset.Pool
import StellarTx.Claim.Predicate
import StellarTx.Claim.Basic
import StellarTx.Memo
import StellarTx.Preconditions
import StellarTx.LedgerKey
import StellarTx.Contract.Authorization
import StellarTx.Operation.Basic
import StellarTx.Transaction.Envelope
import StellarTx.Network
import StellarTx.KeyPair
import StellarTx.Signing.Verification
import StellarTx.Build.FeeBump
import StellarTx.WireType
import StellarTx.Cli.Command
import StellarTx.Main
import StellarTx.Proofs.Format.Agreement
import StellarTx.Proofs.Format.Nested
import StellarTx.Proofs.Format.Regular
import StellarTx.Proofs.Format.Union
import StellarTx.Proofs.Xdr.Encoding
import StellarTx.Proofs.Format.Bytes
import StellarTx.Proofs.Text.Base32
import StellarTx.Proofs.Result
import StellarTx.Proofs.StrKey
import StellarTx.Proofs.Account
import StellarTx.Proofs.Asset
import StellarTx.Proofs.Claim
import StellarTx.Proofs.Contract
import StellarTx.Proofs.Operation
import StellarTx.Proofs.Transaction
import StellarTx.Proofs.WireType
import StellarTx.Proofs.Xdr.Canonical
import StellarTx.Proofs.Xdr.RoundTrip
import StellarTx.Proofs.TxRep.Lines
import StellarTx.Proofs.TxRep.Clean
import StellarTx.Proofs.TxRep.Reading
import StellarTx.Proofs.TxRep.RoundTrip
import StellarTx.Proofs.TxRep.Validity
import StellarTx.Proofs.Signing
import StellarTx.Proofs.Text.Base32.Number
import StellarTx.Proofs.Crc16
import StellarTx.Proofs.StrKey.Inverse
import StellarTx.Proofs.StrKey.Typo
import StellarTx.Proofs.Text.Base64
import StellarTx.Proofs.Envelope
import StellarTx.Proofs.Cli
import StellarTx.Proofs.Format.Layout
import StellarTx.Proofs.Format.Writable
import StellarTx.Proofs.Format.Extent
import StellarTx.Proofs.Extents
import StellarTx.Proofs.Xdr.Excess
import StellarTx.Proofs.SignatureBase
import StellarTx.Proofs.LegacyForm
import StellarTx.Proofs.Verification
import StellarTx.Proofs.Operation.Writable
import StellarTx.Proofs.Build
import StellarTx.Proofs.Build.Complaints
import StellarTx.Proofs.FeeBump
import StellarTx.Proofs.Verification.Search
import StellarTx.Proofs.Preconditions
import StellarTx.Proofs.Build.Requests
import StellarTx.Proofs.Xdr.Program
import StellarTx.Proofs.Xdr.Truncation
import StellarTx.Proofs.Xdr.Reader
import StellarTx.Proofs.Xdr.Culprit
import StellarTx.Proofs.Xdr.CountAhead
import StellarTx.Proofs.TxRep.Frame
import StellarTx.Proofs.TxRep.Edits
import StellarTx.Proofs.TxRep.Missing
import StellarTx.Proofs.Items
import StellarTx.Proofs.TxRep.Amplification
import StellarTx.Proofs.Text.Zeros
import StellarTx.Proofs.Amount
import StellarTx.Proofs.Asset.Text
import StellarTx.Proofs.Claim.Predicate
import StellarTx.Proofs.TxRep.Entries
import StellarTx.Proofs.Amount.Reading
import StellarTx.Proofs.Bits
import StellarTx.Proofs.StrKey.Typed
import StellarTx.Proofs.Crc16.Remainder
import StellarTx.Proofs.Text.Base32.Words
import StellarTx.Proofs.Text.Base32.Canonical
