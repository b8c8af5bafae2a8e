/-
# The command

The command prints the interface of a contract as JSON, or writes it to a file, and may print
schemas for it too.  The contract is a file of code, an address on a network, or each address in
a file.  The files, the reader of settings, the environment and the server are given; what is
printed, what is written and how the command ends is the outcome.
-/
import ContractInterface.Command.Arguments
import ContractInterface.Fetch
import ContractInterface.Schema.Pydantic
import ContractInterface.Schema.Zod
import ContractInterface.Text.Lines

namespace ContractInterface.Command

/-- What the command finds around it. -/
structure Surroundings where
  node : String → Node
  reader : Settings.Reader
  environment : Variables
  server : Rpc.Server

/-- A failure that the command does not report, but passes on. -/
inductive Escape where
  | config (error : ConfigError)
  | file (error : FileError)
  /-- The file of addresses is not text. -/
  | notText (defect : Utf8.Defect)
  | fetch (cause : Fetch.Cause)
deriving Repr

/-- How the command ends. -/
inductive Ending where
  | status (code : Nat)
  | halted (halt : Halt)
  | escaped (escape : Escape)
deriving Repr

/-- What the command has done so far: what it printed, as output and as errors, what it wrote to
files and what has happened between it and the server. -/
structure Progress where
  printed : String
  complaints : String
  written : List (String × String)
  history : Fetch.History

/-- A part of the command; it may end the command. -/
abbrev Action (α : Type) := EStateM Ending Progress α

namespace Action

/-- Prints a line. -/
def print (text : String) : Action Unit :=
  modify fun p => { p with printed := p.printed ++ text ++ "\n" }

/-- Writes a file, in place of what has been written there. -/
def write (path text : String) : Action Unit :=
  modify fun p => { p with written := p.written.filter (·.1 ≠ path) ++ [(path, text)] }

/-- Ends the command with a complaint. -/
def complain {α : Type} (text : String) : Action α := do
  modify fun p => { p with complaints := p.complaints ++ text ++ "\n" }
  throw (.status 1)

/-- Ends the command with the complaint about a file. -/
def complainOf {α : Type} (error : FileError) : Action α :=
  complain s!"Error: {error.message}"

end Action

/-- The addresses in a file, one to a line; blank lines and comments are passed over. -/
def addressesOf (contents : Bytes) : Except Utf8.Defect (List String) := do
  let text ← Utf8.decode contents
  let lines := (Text.lines (Text.unifyBreaks text.toList)).map (Text.trim Text.isBlank)
  return (lines.filter fun line => !line.isEmpty && line.head? != some '#').map String.ofList

/-- Whether the command reports an error of its configuration; others it passes on. -/
def reports : ConfigError → Bool
  | .unread (.malformed _) => false
  | .file _ | .unread _ | .notMapping _ | .unknownNetwork _ | .timeoutNotNumber _ => true
  | .noPath | .notSettings | .networkNotText | .timeoutWrongShape | .timeoutTooLarge => false

/-- The configuration that settings and arguments give. -/
def configure (around : Surroundings) (arguments : Arguments) : Except ConfigError Config := do
  let path ← match arguments.settings with
    | some path => pure path
    | none => throw .noPath
  let settings ← Settings.load around.reader around.node around.environment (some path)
  Config.ofMembers settings (.ofText? arguments.network) (.ofText? arguments.rpcUrl)

/-- Whether a text is given and not empty. -/
def given? (text : Option String) : Option String :=
  text.filter (· ≠ "")

/-- Opens the log file, if one is named; gives what is around the command then.  A missing file is
created.  The lines of the log are no part of the outcome, and the file stays empty. -/
def openLog (around : Surroundings) (path : Option String) : Action Surroundings :=
  match given? path with
  | none => return around
  | some path => do
    let path := Files.straighten path
    match Files.checkWritable around.node path with
    | .error error => throw (.escaped (.file error))
    | .ok () =>
      if around.node path = .missing then
        Action.write path ""
        return { around with node := Files.withFile around.node path }
      else return around

/-- Prints a document, or writes it to the output file, if one is named. -/
def deliver (around : Surroundings) (document : Json) (output : Option String) :
    Action (Except FileError Unit) := do
  let text := document.render (.lines Spec.defaultIndent)
  match given? output with
  | none =>
    Action.print text
    return .ok ()
  | some path =>
    match Files.checkWritable around.node path with
    | .error error => return .error error
    | .ok () =>
      Action.write (Files.normalize path) (text ++ "\n")
      return .ok ()

/-- Carries a fetch out and gives its result. -/
def attempt {α : Type} (fetch : Fetch.Action α) : Action (Except Fetch.Failure α) := do
  let p ← get
  match fetch.run p.history with
  | .ok value history =>
    set { p with history }
    return .ok value
  | .error failure history =>
    set { p with history }
    return .error failure

/-- Ends the command because of a failed fetch. -/
def giveUp {α : Type} (failure : Fetch.Failure) : Action α :=
  match failure.stage, failure.cause with
  | some stage, cause => Action.complain s!"Error during {stage.name}: {cause.message}"
  | none, .rpc (.broken (.system reason)) => Action.complain s!"Error: {reason}"
  | none, cause => throw (.escaped (.fetch cause))

/-- The schemas for an interface in a language. -/
def schemas (language : Target.Language) (spec : Spec) : String :=
  match language with
  | .python => Schema.pydanticModule spec
  | .typescript => Schema.zodModule spec

/-- Delivers the document of one contract, and prints the schemas that are asked for. -/
def conclude (around : Surroundings) (arguments : Arguments) (document : Json) (spec : Spec) :
    Action Nat := do
  match ← deliver around document arguments.output with
  | .error error => throw (.escaped (.file error))
  | .ok () =>
    match arguments.schemas with
    | none => return 0
    | some language =>
      Action.print (schemas language spec)
      return 0

/-- The interface in a file of code. -/
def runFile (around : Surroundings) (arguments : Arguments) (path : String) : Action Nat := do
  match Files.read around.node path with
  | .error error => Action.complainOf error
  | .ok wasm =>
    match ← attempt (Fetch.specOfCode wasm) with
    | .error failure => giveUp failure
    | .ok spec => conclude around arguments spec.toJson spec

/-- The interface of the contract with an address. -/
def runAddress (around : Surroundings) (arguments : Arguments) (client : Rpc.Client) :
    Action Nat := do
  match ← attempt (Fetch.extract client arguments.contractId) with
  | .error failure => giveUp failure
  | .ok extraction => conclude around arguments extraction.toJson extraction.spec

/-- What became of the addresses of a batch: documents and failures, each in order. -/
structure Batch where
  results : List Json
  failures : List Json

/-- The document of a failed address. -/
def failureToJson (address : String) (stage : Option Fetch.Stage) (cause : Fetch.Cause) : Json :=
  .obj [("contract_id", .str address), ("stage", .ofText? (stage.map (·.name))),
    ("error", .str cause.message)]

/-- Extracts every contract of a list.  A failure is recorded and does not end the batch. -/
def runBatch (client : Rpc.Client) : List String → Action Batch
  | [] => return ⟨[], []⟩
  | address :: rest => do
    match ← attempt (Fetch.extract client address) with
    | .ok extraction => do
      let batch ← runBatch client rest
      return { batch with results := extraction.toJson :: batch.results }
    | .error ⟨stage, cause⟩ =>
      if cause.isStaged then do
        let batch ← runBatch client rest
        return { batch with failures := failureToJson address stage cause :: batch.failures }
      else giveUp ⟨stage, cause⟩

/-- The document of a batch. -/
def Batch.toJson (batch : Batch) : Json :=
  .obj [("results", .arr batch.results), ("failures", .arr batch.failures)]

/-- The exit status of a batch, which tells whether an address failed. -/
def Batch.status (batch : Batch) : Nat :=
  if batch.failures.isEmpty then 0 else 1

/-- Extracts every contract of a list and delivers the document of the batch; gives the exit
status. -/
def reportBatch (around : Surroundings) (client : Rpc.Client) (addresses : List String)
    (output : Option String) : Action Nat := do
  let batch ← runBatch client addresses
  match ← deliver around batch.toJson output with
  | .error error => Action.complainOf error
  | .ok () => return batch.status

/-- The interfaces of the contracts whose addresses a file lists. -/
def runAddresses (around : Surroundings) (arguments : Arguments) (client : Rpc.Client)
    (path : String) : Action Nat := do
  match Files.read around.node path with
  | .error error => Action.complainOf error
  | .ok contents =>
    match addressesOf contents with
    | .error defect => throw (.escaped (.notText defect))
    | .ok addresses => reportBatch around client addresses arguments.output

/-- Takes the interface from where the arguments say; gives the exit status. -/
def carryOut (around : Surroundings) (arguments : Arguments) (client : Rpc.Client) : Action Nat :=
  match given? arguments.wasm, given? arguments.addresses with
  | some path, _ => runFile around arguments path
  | none, some path => runAddresses around arguments client path
  | none, none => runAddress around arguments client

/-- The client that a configuration sets up. -/
def clientOf (around : Surroundings) (config : Config) : Rpc.Client :=
  ⟨config.rpcUrl.toJson, config.timeout, around.server⟩

/-- Does what the arguments ask for; gives the exit status. -/
def perform (around : Surroundings) (arguments : Arguments) : Action Nat := do
  let around ← openLog around arguments.logFile
  match configure around arguments with
  | .error error =>
    if reports error then Action.complain s!"Error: {error.message}"
    else throw (.escaped (.config error))
  | .ok config => carryOut around arguments (clientOf around config)

/-- The paths that the command may look at. -/
def pathsOf (arguments : Arguments) : List String :=
  let named := [arguments.settings, arguments.wasm, arguments.addresses, given? arguments.output,
    (given? arguments.logFile).map Files.straighten]
  (named.filterMap id).flatMap fun path => [Files.normalize path, Files.parent path]

/-- The wording of a failure that is passed on. -/
def Escape.message : Escape → String
  | .config error => error.message
  | .file error => error.message
  | .notText defect => defect.message
  | .fetch cause => cause.message

/-- What the command did, and how it ended. -/
structure Outcome where
  printed : String
  complaints : String
  written : List (String × String)
  /-- The requests sent, in order. -/
  sent : List Rpc.Request
  ending : Ending

/-- Runs the command. -/
def run (around : Surroundings) (arguments : List String) : Outcome :=
  let outcome (p : Progress) (ending : Ending) : Outcome :=
    ⟨p.printed, p.complaints, p.written, p.history.sent.reverse, ending⟩
  let start : Progress := ⟨"", "", [], .empty⟩
  match Arguments.parse arguments with
  | .error halt => outcome start (.halted halt)
  | .ok arguments =>
    match (perform around arguments).run start with
    | .ok code p => outcome p (.status code)
    | .error ending p => outcome p ending

end ContractInterface.Command
