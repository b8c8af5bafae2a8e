/-
# Settings

Settings come from a file, which may be missing, and from environment variables, which count more
than the file.  What a caller passes counts most.  Values are passed through as they stand until
they are used.  The reader of the file is given.
-/
import ContractInterface.Files
import ContractInterface.Network
import ContractInterface.Settings.Value
import ContractInterface.Text.Number

namespace ContractInterface

/-- The environment variables that hold settings. -/
structure Variables where
  rpcUrl : Option String
  network : Option String
  timeout : Option String
deriving DecidableEq, Repr

/-- What a run is set up with. -/
structure Config where
  rpcUrl : Setting
  timeout : Json
  network : Setting
deriving Repr

/-- Why there are no settings, or no configuration made of them. -/
inductive ConfigError where
  /-- No settings file is named where one has to be. -/
  | noPath
  /-- The settings file cannot be read. -/
  | file (error : FileError)
  /-- Nothing is found in the settings file. -/
  | unread (reason : Settings.Unread)
  /-- The settings file holds something else than names with values. -/
  | notMapping (path : String)
  /-- The settings are not names with values. -/
  | notSettings
  /-- No network has the name. -/
  | unknownNetwork (name : String)
  /-- The name of a network is not text. -/
  | networkNotText
  /-- A text is not the text of a number; it is given as it is quoted. -/
  | timeoutNotNumber (quoted : String)
  /-- A value has no numeric reading. -/
  | timeoutWrongShape
  /-- An integer is beyond the largest number. -/
  | timeoutTooLarge
deriving DecidableEq, Repr

/-- The wording of an error. -/
def ConfigError.message : ConfigError → String
  | .noPath => "no settings file is named"
  | .file error => error.message
  | .unread reason => reason.message
  | .notMapping path => path ++ " must contain a mapping"
  | .notSettings => "settings are not a mapping"
  | .unknownNetwork name =>
    s!"Unknown network '{name}'. Use testnet, mainnet, futurenet, local, or provide an RPC URL"
  | .networkNotText => "network is not text"
  | .timeoutNotNumber quoted => "could not convert string to float: " ++ quoted
  | .timeoutWrongShape => "timeout is not a number"
  | .timeoutTooLarge => "int too large to convert to float"

namespace Settings

/-- The settings file that is read where no other is named. -/
def defaultPath : String := "settings.yaml"

/-- The network that is used where no other is named. -/
def defaultNetwork : String := "testnet"

/-- The number of seconds to wait for a reply where nothing else is set. -/
def defaultTimeout : Json := .float (Binary64.ofInt 30)

/-- The settings in a file; a missing file has none. -/
def inFile (reader : Reader) (node : String → Node) (path : String) :
    Except ConfigError (List (String × Setting)) :=
  match node (Files.normalize path) with
  | .missing | .blocked => .ok []
  | .folder => .error (.file (.isFolder (Files.normalize path)))
  | .file contents =>
    match reader contents with
    | .error reason => .error (.unread reason)
    | .ok (.mapping members) => .ok members
    | .ok (.other counts) => if counts then .error (.notMapping (Files.normalize path)) else .ok []

/-- Settings with the value of an environment variable in place of their own, if it has one. -/
def override (name : String) (given : Option String) (settings : List (String × Setting)) :
    List (String × Setting) :=
  match given with
  | none | some "" => settings
  | some text => Json.insertMember name (.json (.str text)) settings

/-- The settings of a file, if one is named, and of the environment. -/
def load (reader : Reader) (node : String → Node) (environment : Variables)
    (path : Option String) : Except ConfigError (List (String × Setting)) := do
  let settings ← match path with
    | none => pure []
    | some path => inFile reader node path
  return settings |> override "rpc_url" environment.rpcUrl |> override "network" environment.network
    |> override "timeout" environment.timeout

/-- The number that bytes stand for, as the text of ASCII that they are. -/
def numberOfBytes? (contents : Bytes) : Option Binary64 :=
  if contents.all (· < 0x80) then
    Text.decimal? (String.ofList (contents.map fun byte => .ofNat byte.toNat))
  else none

/-- The number that a text stands for, if it stands for one; the text is given as it is quoted. -/
def numberFrom (number? : Option Binary64) (quoted : String) : Except ConfigError Json :=
  match number? with
  | some x => .ok (.float x)
  | none => .error (.timeoutNotNumber quoted)

/-- A number of seconds as a floating point number. -/
def timeoutOf (value : Setting) : Except ConfigError Json :=
  match value with
  | .json (.float x) => .ok (.float x)
  | .json (.bool b) => .ok (.float (Binary64.ofInt (if b then 1 else 0)))
  | .json (.int n) =>
    match Binary64.ofInt n with
    | .infinite _ => .error .timeoutTooLarge
    | x => .ok (.float x)
  | .json (.str text) => numberFrom (Text.decimal? text) (Text.quoted text)
  | .bytes contents => numberFrom (numberOfBytes? contents) (Text.quotedBytes contents)
  | .json .null | .json (.arr _) | .json (.obj _) | .other .. => .error .timeoutWrongShape

end Settings

namespace Config

/-- The set-up for a known network. -/
def ofNetwork (network : Setting) (timeout : Json) : Except ConfigError Config :=
  match network with
  | .json (.str name) =>
    match Network.ofName? name with
    | some network => .ok ⟨.json (.str network.rpcUrl), timeout, .json (.str network.name)⟩
    | none => .error (.unknownNetwork name)
  | .bytes contents => .error (.unknownNetwork (Text.quotedBytes contents))
  | _ => .error .networkNotText

/-- The first of some values that counts as given. -/
def firstGiven (fallback : Setting) : List Setting → Setting
  | [] => fallback
  | value :: rest => if value.isTruthy then value else firstGiven fallback rest

/-- The set-up made of settings, which are names with values, and of what a caller passes; null is
nothing passed.  A network that is passed selects its own server, even where the settings name
another server. -/
def ofMembers (members : List (String × Setting)) (network rpcUrl : Json) :
    Except ConfigError Config := do
  let server := match rpcUrl, network with
    | .null, .null => (members.lookup "rpc_url").getD (.json .null)
    | rpcUrl, _ => .json rpcUrl
  let network := firstGiven (.json (.str Settings.defaultNetwork))
    [.json network, (members.lookup "network").getD (.json .null)]
  let timeout ← Settings.timeoutOf ((members.lookup "timeout").getD (.json Settings.defaultTimeout))
  if server.isTruthy then return ⟨server, timeout, network⟩ else ofNetwork network timeout

/-- The set-up made of settings in JSON; what does not count as given is none. -/
def ofSettings (settings network rpcUrl : Json) : Except ConfigError Config :=
  match settings with
  | .obj members =>
    ofMembers (members.map fun (name, value) => (name, .json value)) network rpcUrl
  | _ => if settings.isTruthy then .error .notSettings else ofMembers [] network rpcUrl

end Config

end ContractInterface
