/-
# Ledger records

A server answers with a record in one of two forms: in an envelope that adds when the record was
last changed and who pays for it, or bare.  The envelope is tried first.  The bodies of three
kinds of record are read, those of contract data, contract code and lifetimes; of any other kind
a bare record only shows its kind.
-/
import ContractInterface.Bytes.Base64
import ContractInterface.Ledger.Value

namespace ContractInterface.Ledger

/-- A value that a contract has stored, with texts of type `α`. -/
structure ContractData (α : Type := Bytes) where
  contract : Address
  key : Value α
  durability : Durability
  val : Value α

/-- Code that contracts may run; the ten numbers say what it costs. -/
structure ContractCode where
  costInputs : Option (List UInt32)
  hash : Hash
  code : Bytes
deriving DecidableEq

/-- Until when a record lives. -/
structure Ttl where
  keyHash : Hash
  liveUntil : UInt32
deriving DecidableEq

/-- A record, with texts of type `α`. -/
inductive EntryData (α : Type := Bytes) where
  | contractData (record : ContractData α)
  | contractCode (record : ContractCode)
  | ttl (record : Ttl)
  /-- A record of which only the kind is known. -/
  | undecoded (kind : EntryKind)

/-- The kind of a record. -/
def EntryData.kind {α : Type} : EntryData α → EntryKind
  | .contractData _ => .contractData
  | .contractCode _ => .contractCode
  | .ttl _ => .ttl
  | .undecoded kind => kind

/-- A record in its envelope. -/
structure Envelope where
  lastModified : UInt32
  data : EntryData
  sponsor : Option Hash

/-- Reads contract data. -/
def ContractData.read : Reader ContractData := do
  readZero .extensionPoint
  let contract ← Address.read
  let key ← Value.read
  let durability ← readTag .durability Durability.all
  let val ← Value.read
  return { contract, key, durability, val }

/-- Reads the costs of code, if the version at the front announces them. -/
def ContractCode.readCosts : Reader (Option (List UInt32)) := do
  let version ← Xdr.Reader.int32
  if version = 0 then return none
  else if version = 1 then
    readZero .extensionPoint
    readZero .extensionPoint
    return some (← Xdr.Reader.times 10 Xdr.Reader.uint32)
  else Xdr.Reader.reject (.unknownTag .codeExtension version)

/-- Reads contract code. -/
def ContractCode.read : Reader ContractCode := do
  let costInputs ← readCosts
  let hash ← Hash.read
  let code ← Xdr.Reader.counted none
  return { costInputs, hash, code }

/-- Reads a lifetime. -/
def Ttl.read : Reader Ttl := do
  let keyHash ← Hash.read
  let liveUntil ← Xdr.Reader.uint32
  return { keyHash, liveUntil }

/-- Reads a record; `undecoded` says what becomes of a kind whose body is not read. -/
def EntryData.read (undecoded : EntryKind → Reader EntryData) : Reader EntryData := do
  match ← readTag .entry EntryKind.all with
  | .contractData => return .contractData (← ContractData.read)
  | .contractCode => return .contractCode (← ContractCode.read)
  | .ttl => return .ttl (← Ttl.read)
  | kind => undecoded kind

/-- Reads who pays for a record, if the version at the front announces it. -/
def Envelope.readSponsor : Reader (Option Hash) := do
  let version ← Xdr.Reader.int32
  if version = 0 then return none
  else if version = 1 then
    let sponsor ← Xdr.Reader.optional do
      readZero .publicKey
      Hash.read
    readZero .extensionPoint
    return sponsor
  else Xdr.Reader.reject (.unknownTag .entryExtension version)

/-- Reads a record in its envelope, up to the end. -/
def Envelope.read : Reader Envelope := do
  let lastModified ← Xdr.Reader.uint32
  let data ← EntryData.read fun kind => Xdr.Reader.reject (.undecodedKind kind)
  let sponsor ← readSponsor
  Xdr.Reader.expectEnd
  return { lastModified, data, sponsor }

/-- Reads a bare record.  A record whose body is read has to end where the bytes end. -/
def EntryData.readBare : Reader EntryData := do
  let data ← EntryData.read fun kind => return .undecoded kind
  match data with
  | .undecoded _ => return data
  | _ =>
    Xdr.Reader.expectEnd
    return data

/-- Why an answer does not give what was asked for. -/
inductive EntryError where
  /-- The text is not base64. -/
  | notBase64 (defect : Base64.Defect)
  /-- The text stands for no bytes. -/
  | empty
  /-- The bytes are no record, neither in an envelope nor bare. -/
  | noRecord (envelope bare : Xdr.Fault ShapeFault)
  /-- The record is of another kind. -/
  | unexpectedEntry (expected observed : EntryKind)
  /-- The record holds another value than the instance of a contract. -/
  | unexpectedValue (observed : ValueKind)
  /-- The contract is the one for assets, which has no code of its own. -/
  | notWasm
deriving DecidableEq, Repr

/-- The wording of an error. -/
def EntryError.message : EntryError → String
  | .notBase64 defect => "Ledger entry is not valid base64: " ++ defect.message
  | .empty => "Ledger entry payload is empty"
  | .noRecord envelope bare =>
    "Failed to parse XDR as LedgerEntry or LedgerEntryData: LedgerEntry: " ++
      envelope.message ShapeFault.message ++ "; LedgerEntryData: " ++
      bare.message ShapeFault.message
  | .unexpectedEntry expected observed => s!"Expected {expected.name}, got {observed.name}"
  | .unexpectedValue observed =>
    s!"Expected {ValueKind.contractInstance.name}, got {observed.name}"
  | .notWasm => "Contract is a Stellar Asset contract, not WASM"

/-- The record that a byte string stands for. -/
def EntryData.ofBytes (bytes : Bytes) : Except EntryError EntryData :=
  if bytes.isEmpty then .error .empty
  else match Envelope.read.value bytes with
    | .ok envelope => .ok envelope.data
    | .error envelopeFault =>
      match EntryData.readBare.value bytes with
      | .ok data => .ok data
      | .error bareFault => .error (.noRecord envelopeFault bareFault)

/-- The record that a base64 text stands for. -/
def EntryData.ofText (text : String) : Except EntryError EntryData :=
  match Base64.decode text with
  | .error defect => .error (.notBase64 defect)
  | .ok bytes => ofBytes bytes

/-- The hash of the code of the contract whose instance record is given. -/
def EntryData.codeHash : EntryData → Except EntryError Hash
  | .contractData record =>
    match record.val with
    | .contractInstance (.wasm hash) _ => .ok hash
    | .contractInstance .stellarAsset _ => .error .notWasm
    | val => .error (.unexpectedValue val.kind)
  | data => .error (.unexpectedEntry .contractData data.kind)

/-- The code in a record of code. -/
def EntryData.code : EntryData → Except EntryError Bytes
  | .contractCode record => .ok record.code
  | data => .error (.unexpectedEntry .contractCode data.kind)

/-- The hash of the code of the contract whose instance record a text stands for. -/
def codeHashOfText (text : String) : Except EntryError Hash := do
  (← EntryData.ofText text).codeHash

/-- The code in the record that a text stands for. -/
def codeOfText (text : String) : Except EntryError Bytes := do
  (← EntryData.ofText text).code

end ContractInterface.Ledger
