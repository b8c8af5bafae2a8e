/-
# Tags of ledger data

A tag is a signed 32-bit number that says which of several forms follows.  The forms of one kind
are numbered from zero in the order in which they are listed.
-/
import ContractInterface.Xdr.Reader

namespace ContractInterface.Ledger

/-- The kinds of record that a ledger holds. -/
inductive EntryKind where
  | account
  | trustline
  | offer
  | data
  | claimableBalance
  | liquidityPool
  | contractData
  | contractCode
  | configSetting
  | ttl
deriving DecidableEq, Repr

/-- All kinds of record, in the order of their tags. -/
def EntryKind.all : List EntryKind :=
  [.account, .trustline, .offer, .data, .claimableBalance, .liquidityPool, .contractData,
   .contractCode, .configSetting, .ttl]

/-- The name of a kind of record. -/
def EntryKind.name : EntryKind → String
  | .account => "ACCOUNT"
  | .trustline => "TRUSTLINE"
  | .offer => "OFFER"
  | .data => "DATA"
  | .claimableBalance => "CLAIMABLE_BALANCE"
  | .liquidityPool => "LIQUIDITY_POOL"
  | .contractData => "CONTRACT_DATA"
  | .contractCode => "CONTRACT_CODE"
  | .configSetting => "CONFIG_SETTING"
  | .ttl => "TTL"

/-- The kinds of address. -/
inductive AddressKind where
  | account
  | contract
  | muxedAccount
  | claimableBalance
  | liquidityPool
deriving DecidableEq, Repr

/-- All kinds of address, in the order of their tags. -/
def AddressKind.all : List AddressKind :=
  [.account, .contract, .muxedAccount, .claimableBalance, .liquidityPool]

/-- The name of a kind of address. -/
def AddressKind.name : AddressKind → String
  | .account => "ACCOUNT"
  | .contract => "CONTRACT"
  | .muxedAccount => "MUXED_ACCOUNT"
  | .claimableBalance => "CLAIMABLE_BALANCE"
  | .liquidityPool => "LIQUIDITY_POOL"

/-- The kinds of contract value. -/
inductive ValueKind where
  | bool
  | void
  | error
  | u32
  | i32
  | u64
  | i64
  | timepoint
  | duration
  | u128
  | i128
  | u256
  | i256
  | bytes
  | string
  | symbol
  | vec
  | map
  | address
  | contractInstance
  | ledgerKeyContractInstance
  | ledgerKeyNonce
deriving DecidableEq, Repr

/-- All kinds of contract value, in the order of their tags. -/
def ValueKind.all : List ValueKind :=
  [.bool, .void, .error, .u32, .i32, .u64, .i64, .timepoint, .duration, .u128, .i128, .u256,
   .i256, .bytes, .string, .symbol, .vec, .map, .address, .contractInstance,
   .ledgerKeyContractInstance, .ledgerKeyNonce]

/-- The name of a kind of contract value. -/
def ValueKind.name : ValueKind → String
  | .bool => "BOOL"
  | .void => "VOID"
  | .error => "ERROR"
  | .u32 => "U32"
  | .i32 => "I32"
  | .u64 => "U64"
  | .i64 => "I64"
  | .timepoint => "TIMEPOINT"
  | .duration => "DURATION"
  | .u128 => "U128"
  | .i128 => "I128"
  | .u256 => "U256"
  | .i256 => "I256"
  | .bytes => "BYTES"
  | .string => "STRING"
  | .symbol => "SYMBOL"
  | .vec => "VEC"
  | .map => "MAP"
  | .address => "ADDRESS"
  | .contractInstance => "CONTRACT_INSTANCE"
  | .ledgerKeyContractInstance => "LEDGER_KEY_CONTRACT_INSTANCE"
  | .ledgerKeyNonce => "LEDGER_KEY_NONCE"

/-- The parts of the host that report errors other than those of contracts. -/
inductive HostPart where
  | wasmVm
  | context
  | storage
  | object
  | crypto
  | events
  | budget
  | value
  | auth
deriving DecidableEq, Repr

/-- The name of a part of the host. -/
def HostPart.name : HostPart → String
  | .wasmVm => "WASM_VM"
  | .context => "CONTEXT"
  | .storage => "STORAGE"
  | .object => "OBJECT"
  | .crypto => "CRYPTO"
  | .events => "EVENTS"
  | .budget => "BUDGET"
  | .value => "VALUE"
  | .auth => "AUTH"

/-- Where an error comes from: `none` is a contract, and the parts of the host follow in the
order of their tags. -/
def errorSources : List (Option HostPart) :=
  [none, some .wasmVm, some .context, some .storage, some .object, some .crypto, some .events,
   some .budget, some .value, some .auth]

/-- How long a record is kept. -/
inductive Durability where
  | temporary
  | persistent
deriving DecidableEq, Repr

/-- Both durabilities, in the order of their tags. -/
def Durability.all : List Durability :=
  [.temporary, .persistent]

/-- The name of a durability. -/
def Durability.name : Durability → String
  | .temporary => "TEMPORARY"
  | .persistent => "PERSISTENT"

/-- The tag of a form among all forms of its kind. -/
def tagIn {α : Type} [BEq α] (all : List α) (form : α) : Int32 :=
  Int32.ofNat (all.idxOf form)

/-- The parts of ledger data that begin with a tag or a version. -/
inductive TaggedPart where
  | address
  | value
  | error
  | executable
  | durability
  | entry
  | extensionPoint
  | publicKey
  | claimableBalanceId
  | codeExtension
  | entryExtension
deriving DecidableEq, Repr

/-- What the number at the front of a part is called. -/
def TaggedPart.phrase : TaggedPart → String
  | .address => "SCAddress discriminant"
  | .value => "SCVal discriminant"
  | .error => "SCError discriminant"
  | .executable => "ContractExecutable discriminant"
  | .durability => "ContractDataDurability discriminant"
  | .entry => "LedgerEntryType discriminant"
  | .extensionPoint => "ExtensionPoint version"
  | .publicKey => "PublicKey type"
  | .claimableBalanceId => "ClaimableBalanceID type"
  | .codeExtension => "ContractCodeEntry extension version"
  | .entryExtension => "LedgerEntry extension version"

/-- What is wrong with a byte string that is read as ledger data. -/
inductive ShapeFault where
  /-- A part begins with a number that announces no form of it. -/
  | unknownTag (part : TaggedPart) (tag : Int32)
  /-- Values are nested beyond the limit. -/
  | nestedTooDeep
  /-- The record is of a kind whose body is not read. -/
  | undecodedKind (kind : EntryKind)
deriving DecidableEq, Repr

/-- The wording of a fault. -/
def ShapeFault.message : ShapeFault → String
  | .unknownTag part tag => s!"Unknown {part.phrase} {tag}"
  | .nestedTooDeep => "SCVal nesting too deep"
  | .undecodedKind kind => s!"Cannot decode {kind.name} ledger entry body"

/-- A reader of ledger data. -/
abbrev Reader := Xdr.Reader ShapeFault

/-- Reads the tag of a part and gives the form it announces. -/
def readTag {α : Type} (part : TaggedPart) (all : List α) : Reader α := do
  let tag ← Xdr.Reader.int32
  let form := if tag < 0 then none else all[tag.toInt.toNat]?
  match form with
  | some form => return form
  | none => Xdr.Reader.reject (.unknownTag part tag)

/-- Reads a version that can only be zero. -/
def readZero (part : TaggedPart) : Reader Unit := do
  let version ← Xdr.Reader.int32
  if version ≠ 0 then Xdr.Reader.reject (.unknownTag part version)

end ContractInterface.Ledger
