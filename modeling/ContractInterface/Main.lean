/-
# The command line program

The files that the arguments name are read from disk, and the outcome of the command is printed
and written.  The exchange with the server is left to the caller: the bodies of its replies are
read from standard input, one JSON text to a line, in the order in which they are asked for.
-/
import ContractInterface.Command
import ContractInterface.Json.Parser
import ContractInterface.Settings.Document

open ContractInterface

/-- What stands at a path on disk. -/
def nodeOnDisk (path : String) : IO Node := do
  match ← (IO.FS.readBinFile path).toBaseIO with
  | .ok contents => return .file contents.toList
  | .error (.inappropriateType _ code _) => return if code = 20 then .blocked else .folder
  | .error _ => return .missing

/-- The reply that a line stands for. -/
def replyOf (line : String) : Rpc.Reply :=
  match Json.parse? line with
  | some value => .ofJson value
  | none => .received ⟨200, "OK", "", .unreadable "the reply is not JSON"⟩

/-- The server that gives replies in order; after the last of them it is gone. -/
def serverOf (replies : Array Rpc.Reply) : Rpc.Server := fun sent =>
  (replies[sent.length - 1]?).getD (.failed "no reply")

/-- The replies on standard input, where the arguments ask for a contract on a network. -/
def readReplies (arguments : Command.Arguments) : IO (Array Rpc.Reply) := do
  if (Command.given? arguments.wasm).isSome then return #[]
  return (← (← IO.getStdin).lines).map replyOf

/-- Prints and writes an outcome; gives the exit status. -/
def publish (outcome : Command.Outcome) : IO UInt32 := do
  (← IO.getStdout).putStr outcome.printed
  (← IO.getStderr).putStr outcome.complaints
  for (path, text) in outcome.written do
    IO.FS.writeFile path text
  match outcome.ending with
  | .status code => return UInt32.ofNat code
  | .halted halt => do
    let spellings := " ".intercalate (Command.Flag.spellings.map Prod.fst)
    IO.eprintln ("options: " ++ spellings)
    return UInt32.ofNat halt.status
  | .escaped escape => do
    IO.eprintln ("Error: " ++ escape.message)
    return 1

/-- Runs the command on the arguments of the program. -/
def main (arguments : List String) : IO UInt32 := do
  let environment : Variables := {
    rpcUrl := ← IO.getEnv "SOROBAN_RPC_URL"
    network := ← IO.getEnv "SOROBAN_NETWORK"
    timeout := ← IO.getEnv "SOROBAN_RPC_TIMEOUT" }
  match Command.Arguments.parse arguments with
  | .error _ =>
    publish (Command.run
      ⟨fun _ => .missing, Settings.flatReader, environment, fun _ => .failed ""⟩ arguments)
  | .ok parsed => do
    let nodes ← (Command.pathsOf parsed).mapM fun path => return (path, ← nodeOnDisk path)
    let replies ← readReplies parsed
    let node (path : String) : Node := (nodes.lookup path).getD .missing
    publish (Command.run
      ⟨node, Settings.flatReader, environment, serverOf replies⟩ arguments)
