/-
# Command line arguments

Options begin with dashes.  A long name may be cut short as long as it stays the only one, and may
be joined to its value by an equals sign; short names take no value and may be joined to each
other, the first to the others by an equals sign if need be.  A value does not look like an option,
unless it is joined to one.  Exactly one source has to be named; of an option given several times
the last value counts.  What is left over is wrong, but only once all options are read, so that
help may still be asked for.
-/
import ContractInterface.Settings
import ContractInterface.Target.Signature
import ContractInterface.Text.DecimalDigit

namespace ContractInterface.Command

/-- The options of the command. -/
inductive Flag where
  | help
  | contractId
  | wasm
  | addresses
  | network
  | rpcUrl
  | settings
  | output
  | schemas
  | logFile
  | verbose
deriving DecidableEq, Repr

namespace Flag

/-- The spellings of the options. -/
def spellings : List (String × Flag) :=
  [("-h", .help), ("--help", .help), ("--contract-id", .contractId), ("--wasm", .wasm),
   ("--addresses", .addresses), ("--network", .network), ("--rpc-url", .rpcUrl),
   ("--settings", .settings), ("--output", .output), ("--schemas", .schemas),
   ("--log-file", .logFile), ("--verbose", .verbose), ("-v", .verbose)]

/-- Whether an option takes a value. -/
def takesValue : Flag → Bool
  | .help | .verbose => false
  | _ => true

/-- Whether an option names a source. -/
def isSource : Flag → Bool
  | .contractId | .wasm | .addresses => true
  | _ => false

end Flag

/-- What an argument is, before its neighbours are looked at. -/
inductive Word where
  /-- An option, and what an equals sign joins to it. -/
  | flag (flag : Flag) (joined : Option (List Char))
  /-- An option by its short name, and the short names joined to it. -/
  | group (flag : Flag) (rest : List Char)
  /-- Something that looks like an option but is none. -/
  | unknown
  /-- A value. -/
  | value (text : String)
  /-- The two dashes after which there are only values. -/
  | divider
deriving Repr

/-- Whether an argument looks like a negative number; one line break may stand behind it. -/
def isNegativeNumber (chars : List Char) : Bool :=
  match if chars.getLast? = some '\n' then chars.dropLast else chars with
  | '-' :: rest =>
    let (whole, rest) := rest.span fun c => (Text.digitValue? c).isSome
    match rest with
    | [] => !whole.isEmpty
    | '.' :: rest => !rest.isEmpty && rest.all fun c => (Text.digitValue? c).isSome
    | _ => false
  | _ => false

/-- Cuts an argument at its first equals sign. -/
def splitEquals (chars : List Char) : List Char × Option (List Char) :=
  match chars.span (· ≠ '=') with
  | (name, _ :: value) => (name, some value)
  | (name, []) => (name, none)

/-- The options that an argument with dashes may mean, with what is joined to them. -/
def candidates (chars : List Char) : List Word :=
  match chars with
  | '-' :: '-' :: _ =>
    let (name, joined) := splitEquals chars
    Flag.spellings.filterMap fun (spelling, flag) =>
      if name.isPrefixOf spelling.toList then some (.flag flag joined) else none
  | chars =>
    Flag.spellings.filterMap fun (spelling, flag) =>
      if spelling.toList = chars.take 2 then some (.group flag (chars.drop 2))
      else if chars.isPrefixOf spelling.toList then some (.flag flag none)
      else none

/-- What an argument is, or nothing if it may mean several options. -/
def Word.ofArgument? (argument : String) : Option Word :=
  match argument.toList with
  | '-' :: c :: rest =>
    let chars := '-' :: c :: rest
    let (name, joined) := splitEquals chars
    match Flag.spellings.lookup argument, Flag.spellings.lookup (String.ofList name), joined with
    | some found, _, _ => some (.flag found none)
    | none, some found, some joined =>
      some (if name.length = 2 then .group found joined else .flag found (some joined))
    | _, _, _ =>
      match candidates chars with
      | [word] => some word
      | _ :: _ :: _ => none
      | [] =>
        some (if isNegativeNumber chars || chars.contains ' ' then .value argument else .unknown)
  | _ => some (.value argument)

/-- What the arguments are, or nothing if one of them may mean several options. -/
def words? : List String → Option (List Word)
  | [] => some []
  | "--" :: rest => some (.divider :: rest.map .value)
  | argument :: rest => do
    let word ← Word.ofArgument? argument
    let words ← words? rest
    return word :: words

/-- What the command is asked to do. -/
structure Arguments where
  contractId : Option String
  wasm : Option String
  addresses : Option String
  network : Option String
  rpcUrl : Option String
  /-- The settings file; none if the option is given without a value. -/
  settings : Option String
  output : Option String
  schemas : Option Target.Language
  logFile : Option String
  verbose : Bool
deriving DecidableEq, Repr

/-- What the command does where no options are given. -/
def Arguments.defaults : Arguments where
  contractId := none
  wasm := none
  addresses := none
  network := none
  rpcUrl := none
  settings := some Settings.defaultPath
  output := none
  schemas := none
  logFile := none
  verbose := false

/-- Why the command does not start. -/
inductive Halt where
  /-- Help is asked for. -/
  | help
  /-- The arguments are not as they should be. -/
  | misuse
deriving DecidableEq, Repr

/-- The exit status where the command does not start. -/
def Halt.status : Halt → Nat
  | .help => 0
  | .misuse => 2

/-- The arguments read so far, the sources named, and whether something was left over. -/
structure Parsing where
  arguments : Arguments
  sources : List Flag
  hasExtras : Bool

/-- Sets the value of an option.  An option without a value counts as given, with an empty text
where it takes one; no language is then asked for, and no settings file is named. -/
def Parsing.set (p : Parsing) (flag : Flag) (value : Option String) : Except Halt Parsing :=
  let a := p.arguments
  let text := value.getD ""
  if flag.isSource ∧ p.sources.any (· ≠ flag) then .error .misuse
  else
    let p := if flag.isSource then { p with sources := flag :: p.sources } else p
    match flag with
    | .help => .error .help
    | .verbose => .ok { p with arguments := { a with verbose := true } }
    | .contractId => .ok { p with arguments := { a with contractId := some text } }
    | .wasm => .ok { p with arguments := { a with wasm := some text } }
    | .addresses => .ok { p with arguments := { a with addresses := some text } }
    | .network => .ok { p with arguments := { a with network := some text } }
    | .rpcUrl => .ok { p with arguments := { a with rpcUrl := some text } }
    | .settings => .ok { p with arguments := { a with settings := value } }
    | .output => .ok { p with arguments := { a with output := some text } }
    | .logFile => .ok { p with arguments := { a with logFile := some text } }
    | .schemas =>
      match value, value.bind Target.Language.ofName? with
      | some _, none => .error .misuse
      | _, language => .ok { p with arguments := { a with schemas := language } }

/-- The value that is joined to an option; two dashes divide arguments and are no value. -/
def joinedValue? (chars : List Char) : Option String :=
  if chars = ['-', '-'] then none else some (String.ofList chars)

/-- The options in a group of short names.  Every character behind the first name has to be a short
name, and there has to be one, for an equals sign needs something behind it. -/
def shortGroup (flag : Flag) (rest : List Char) : Except Halt (List Flag) :=
  match rest, rest.mapM fun c => Flag.spellings.lookup (String.ofList ['-', c]) with
  | _ :: _, some flags => .ok (flag :: flags)
  | _, _ => .error .misuse

/-- Reads the words one after the other. -/
def Parsing.read (p : Parsing) : List Word → Except Halt Parsing
  | [] => .ok p
  | .unknown :: rest | .value _ :: rest | .divider :: rest => read { p with hasExtras := true } rest
  | .group flag joined :: rest => do
    let p ← (← shortGroup flag joined).foldlM (fun (p : Parsing) flag => p.set flag none) p
    read p rest
  | .flag flag joined :: rest =>
    if flag.takesValue then
      match joined, rest with
      | some joined, rest => do
        let p ← p.set flag (joinedValue? joined)
        read p rest
      | none, .value text :: rest => do
        let p ← p.set flag (some text)
        read p rest
      | none, _ => .error .misuse
    else if joined.isSome then .error .misuse
    else do
      let p ← p.set flag none
      read p rest

/-- What the command is asked to do by its arguments. -/
def Arguments.parse (arguments : List String) : Except Halt Arguments :=
  match words? arguments with
  | none => .error .misuse
  | some words => do
    let p ← Parsing.read ⟨.defaults, [], false⟩ words
    if p.sources.isEmpty || p.hasExtras then throw .misuse
    return p.arguments

end ContractInterface.Command
