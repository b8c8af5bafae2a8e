import ContractInterface.Binary64
import ContractInterface.Binary64.Shortest
import ContractInterface.Bytes
import ContractInterface.Bytes.Base32
import ContractInterface.Bytes.Base64
import ContractInterface.Bytes.Hex
import ContractInterface.Bytes.Utf8
import ContractInterface.Command
import ContractInterface.Command.Arguments
import ContractInterface.Crc16
import ContractInterface.Fetch
import ContractInterface.Files
import ContractInterface.Hash
import ContractInterface.Json
import ContractInterface.Json.Access
import ContractInterface.Json.Parser
import ContractInterface.Json.Printer
import ContractInterface.Json.Quoted
import ContractInterface.Label
import ContractInterface.Ledger.Entry
import ContractInterface.Ledger.Key
import ContractInterface.Ledger.Tag
import ContractInterface.Ledger.Value
import ContractInterface.Main
import ContractInterface.Network
import ContractInterface.Proofs.Bytes.Base32
import ContractInterface.Proofs.Bytes.Base64
import ContractInterface.Proofs.Bytes.Hex
import ContractInterface.Proofs.Bytes.Number
import ContractInterface.Proofs.Bytes.Utf8
import ContractInterface.Proofs.Command.Batch
import ContractInterface.Proofs.Command.Configuration
import ContractInterface.Proofs.Command.Status
import ContractInterface.Proofs.Crc16
import ContractInterface.Proofs.Crc16.Remainder
import ContractInterface.Proofs.Fetch.Honest
import ContractInterface.Proofs.Fetch.Reply
import ContractInterface.Proofs.Fetch.Script
import ContractInterface.Proofs.Fetch.Staging
import ContractInterface.Proofs.Fetch.Told
import ContractInterface.Proofs.Json.Inverse
import ContractInterface.Proofs.Json.Scalars
import ContractInterface.Proofs.Ledger.Form
import ContractInterface.Proofs.Ledger.Keys
import ContractInterface.Proofs.Ledger.Observed
import ContractInterface.Proofs.Ledger.Placed
import ContractInterface.Proofs.Ledger.Records
import ContractInterface.Proofs.Ledger.Served
import ContractInterface.Proofs.Ledger.Texts
import ContractInterface.Proofs.Ledger.Values
import ContractInterface.Proofs.Rpc.Calls
import ContractInterface.Proofs.Rpc.Replies
import ContractInterface.Proofs.Schema.Blocks
import ContractInterface.Proofs.Schema.Closed
import ContractInterface.Proofs.Schema.Comments
import ContractInterface.Proofs.Schema.Keywords
import ContractInterface.Proofs.Schema.Layout
import ContractInterface.Proofs.Schema.Names
import ContractInterface.Proofs.Schema.Order
import ContractInterface.Proofs.Schema.Pydantic
import ContractInterface.Proofs.Schema.Statements
import ContractInterface.Proofs.Schema.Zod
import ContractInterface.Proofs.Spec.Collection
import ContractInterface.Proofs.Spec.Declared
import ContractInterface.Proofs.Spec.Dictionary
import ContractInterface.Proofs.Spec.Extraction
import ContractInterface.Proofs.Spec.Form
import ContractInterface.Proofs.Spec.Inverse
import ContractInterface.Proofs.Spec.Metadata
import ContractInterface.Proofs.Spec.Placed
import ContractInterface.Proofs.Spec.Progress
import ContractInterface.Proofs.Spec.RawEntries
import ContractInterface.Proofs.Spec.Reading
import ContractInterface.Proofs.Spec.References
import ContractInterface.Proofs.Spec.Reuse
import ContractInterface.Proofs.Spec.Texts
import ContractInterface.Proofs.Spec.Validation
import ContractInterface.Proofs.Strkey.Detection
import ContractInterface.Proofs.Strkey.Form
import ContractInterface.Proofs.Strkey.Inverse
import ContractInterface.Proofs.Target.Brackets
import ContractInterface.Proofs.Target.Description
import ContractInterface.Proofs.Target.Expression
import ContractInterface.Proofs.Target.Faithful
import ContractInterface.Proofs.Target.Grammar
import ContractInterface.Proofs.Target.LineBreaks
import ContractInterface.Proofs.Target.Outline
import ContractInterface.Proofs.Wasm.Framing
import ContractInterface.Proofs.Wasm.Leb128
import ContractInterface.Proofs.Wasm.Module
import ContractInterface.Proofs.Wasm.Placed
import ContractInterface.Proofs.Xdr.Atomicity
import ContractInterface.Proofs.Xdr.Form
import ContractInterface.Proofs.Xdr.Progress
import ContractInterface.Proofs.Xdr.Reading
import ContractInterface.Proofs.Xdr.Schema
import ContractInterface.Proofs.Xdr.SignedCursor
import ContractInterface.Proofs.Xdr.Writing
import ContractInterface.Rpc
import ContractInterface.Schema
import ContractInterface.Schema.Name
import ContractInterface.Schema.Order
import ContractInterface.Schema.Pydantic
import ContractInterface.Schema.Zod
import ContractInterface.Settings
import ContractInterface.Settings.Document
import ContractInterface.Settings.Layout
import ContractInterface.Settings.Plain
import ContractInterface.Settings.Quoted
import ContractInterface.Settings.Scalar
import ContractInterface.Settings.Value
import ContractInterface.Spec
import ContractInterface.Spec.Dictionary
import ContractInterface.Spec.Entry
import ContractInterface.Spec.Extraction
import ContractInterface.Spec.TypeDef
import ContractInterface.Strkey
import ContractInterface.Target.Description
import ContractInterface.Target.Pydantic
import ContractInterface.Target.Python
import ContractInterface.Target.Signature
import ContractInterface.Target.TypeScript
import ContractInterface.Target.Zod
import ContractInterface.Text.Basic
import ContractInterface.Text.Blank
import ContractInterface.Text.DecimalDigit
import ContractInterface.Text.Lines
import ContractInterface.Text.Number
import ContractInterface.Text.Printable
import ContractInterface.Text.Quoted
import ContractInterface.Text.Uppercase
import ContractInterface.TypeRef
import ContractInterface.Wasm.Leb128
import ContractInterface.Wasm.Section
import ContractInterface.Xdr.Basic
import ContractInterface.Xdr.Reader
import ContractInterface.Xdr.SignedCursor
import ContractInterface.Xdr.Step
import ContractInterface.Xdr.Writer
