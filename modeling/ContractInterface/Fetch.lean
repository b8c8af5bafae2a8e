/-
# Fetching the interface of a contract

A contract is fetched in four stages, each of which needs what the one before it found: its
address is decoded, its instance record is looked up for the hash of its code, the record of that
code is looked up, and the interface in the code is extracted.  A stage that fails ends the fetch,
and the failure is marked with it.  What happens on the way is put down in a log.
-/
import ContractInterface.Ledger.Entry
import ContractInterface.Ledger.Key
import ContractInterface.Rpc
import ContractInterface.Spec.Dictionary
import ContractInterface.Spec.Extraction
import ContractInterface.Strkey

namespace ContractInterface.Fetch

/-- The stages of a fetch, in order. -/
inductive Stage where
  | decodeAddress
  | fetchInstance
  | fetchCode
  | parseSpec
deriving DecidableEq, Repr

/-- The name of a stage. -/
def Stage.name : Stage → String
  | .decodeAddress => "decode_address"
  | .fetchInstance => "fetch_instance"
  | .fetchCode => "fetch_code"
  | .parseSpec => "parse_spec"

/-- Why a fetch fails. -/
inductive Cause where
  /-- No address is given. -/
  | noAddress
  /-- The text given is no address of a contract. -/
  | address (defect : Strkey.Defect)
  /-- The hash given has the wrong length. -/
  | key (fault : Xdr.PieceFault)
  /-- The server gives no answer. -/
  | rpc (error : Rpc.Error)
  /-- The ledger holds no record under a key. -/
  | notFound (what key : String)
  /-- The record is not what it should be. -/
  | entry (error : Ledger.EntryError)
  /-- The code has no interface. -/
  | spec (error : Spec.ExtractionError)
deriving Repr

/-- The wording of a cause. -/
def Cause.message : Cause → String
  | .noAddress => "no contract address"
  | .address defect => defect.message
  | .key fault => fault.message
  | .rpc error => error.message
  | .notFound what _ => s!"{what} not found"
  | .entry error => error.message
  | .spec error => error.message

/-- Whether a cause is a failure of its stage, and not one outside the exchange with the ledger or
in what the caller gave. -/
def Cause.isStaged : Cause → Bool
  | .noAddress | .key _ | .rpc (.broken _) => false
  | _ => true

/-- A failed fetch: the stage that failed, if it is a failure of a stage, and why. -/
structure Failure where
  stage : Option Stage
  cause : Cause
deriving Repr

/-- How much a line of a log matters. -/
inductive Level where
  | info
  | error
deriving DecidableEq, Repr

/-- The name of a level. -/
def Level.name : Level → String
  | .info => "INFO"
  | .error => "ERROR"

/-- A line of a log. -/
structure LogLine where
  level : Level
  text : String
deriving DecidableEq, Repr

/-- What has happened so far: the requests sent, the latest first, and the log, the latest line
first. -/
structure History where
  sent : List Rpc.Request
  log : List LogLine
deriving Repr

/-- Nothing has happened. -/
def History.empty : History := ⟨[], []⟩

/-- A part of a fetch. -/
abbrev Action (α : Type) := EStateM Failure History α

namespace Action

variable {α : Type}

/-- Puts a line into the log. -/
def report (level : Level) (text : String) : Action Unit :=
  modify fun h => { h with log := ⟨level, text⟩ :: h.log }

/-- Ends a stage: a failure is marked with the stage and put into the log. -/
def within (stage : Stage) (result : Except Cause α) : Action α :=
  match result with
  | .ok value => return value
  | .error cause => do
    if cause.isStaged then
      report .error s!"Stage {stage.name} failed: {cause.message}"
      throw ⟨some stage, cause⟩
    else throw ⟨none, cause⟩

/-- Looks up one record in a stage, and takes from it what the stage is after. -/
def lookUp (client : Rpc.Client) (stage : Stage) (what : String) (key : Ledger.Key)
    (take : String → Except Ledger.EntryError α) : Action α := do
  let h ← get
  let (result, sent) := client.entries h.sent [key.toText]
  set { h with sent }
  within stage do
    match ← result.mapError .rpc with
    | [] => throw (.notFound what key.toText)
    | entry :: _ => (take entry.content).mapError .entry

end Action

/-- The hash of the code of a contract. -/
def codeHash {α : Type} [Label α] (client : Rpc.Client) (address : α) : Action Hash := do
  let payload ← Action.within .decodeAddress do
    match Label.text? address with
    | none => throw .noAddress
    | some address => (Strkey.decode .contract address).mapError .address
  Action.lookUp client .fetchInstance "Contract" (.contractInstance payload) Ledger.codeHashOfText

/-- The code that is stored under a hash. -/
def code (client : Rpc.Client) (hash : Hash) : Action Bytes :=
  Action.lookUp client .fetchCode "WASM code" (.contractCode hash) Ledger.codeOfText

/-- The code that is stored under a hash of any length. -/
def codeOf (client : Rpc.Client) (hash : Bytes) : Action Bytes := do
  let hash ← Action.within .fetchCode ((Hash.ofBytes hash).mapError .key)
  code client hash

/-- The code of a contract, and its hash. -/
def wasm {α : Type} [Label α] (client : Rpc.Client) (address : α) : Action (Hash × Bytes) := do
  let shown := Label.shown address
  Action.report .info s!"[1/3] Fetching contract instance for {shown}..."
  let hash ← codeHash client address
  Action.report .info s!"[1/3] WASM hash: {hash.toHex}"
  Action.report .info "[2/3] Fetching WASM code..."
  let wasm ← code client hash
  Action.report .info s!"[2/3] WASM size: {wasm.length} bytes"
  return (hash, wasm)

/-- A fetched interface, and where it comes from. -/
structure Extraction where
  address : String
  codeHash : Hash
  codeSize : Nat
  spec : Spec

/-- The document form of a fetched interface. -/
def Extraction.toJson (extraction : Extraction) : Json :=
  .obj [("contract_id", .str extraction.address), ("wasm_hash", .str extraction.codeHash.toHex),
    ("wasm_size", .int extraction.codeSize), ("spec", extraction.spec.toJson)]

/-- The interface in code that is at hand. -/
def specOfCode (wasm : Bytes) : Action Spec :=
  Action.within .parseSpec ((Spec.extract true wasm).mapError .spec)

/-- Fetches the interface of a contract. -/
def extract {α : Type} [Label α] (client : Rpc.Client) (address : α) : Action Extraction := do
  let (codeHash, wasm) ← wasm client address
  Action.report .info "[3/3] Parsing contract spec..."
  let spec ← specOfCode wasm
  Action.report .info <|
    s!"[3/3] Found {spec.functions.length} functions, {spec.types.length} types, " ++
      s!"{spec.errors.length} errors"
  return { address := Label.shown address, codeHash, codeSize := wasm.length, spec }

end ContractInterface.Fetch
