/-
# Calls to a ledger server

A client sends requests to a server and reads its replies.  The n-th request of a client has the
number n.  Every call sends one request; a reply is an answer only if it is a response that is not
refused, and holds a JSON object with a result and without an error.  That a ledger holds none of
the records asked for is an answer too, the empty list.
-/
import ContractInterface.Label

namespace ContractInterface.Rpc

/-- A request, as it is sent. -/
structure Request where
  url : Json
  timeout : Json
  number : Nat
  method : String
  params : Json
deriving Repr

/-- The body of a request. -/
def Request.body (request : Request) : Json :=
  .obj [("jsonrpc", .str "2.0"), ("id", .int request.number), ("method", .str request.method),
    ("params", request.params)]

/-- What the body of a response holds. -/
inductive Body where
  | json (value : Json)
  /-- Something that is not JSON. -/
  | unreadable (reason : String)
deriving Repr

/-- A response to a request; the address is the one that has responded in the end. -/
structure Response where
  status : Nat
  phrase : String
  address : String
  body : Body
deriving Repr

/-- Why a response is refused for its status, if it is. -/
def Response.refusal? (response : Response) : Option String :=
  let told (side : String) : String :=
    s!"{response.status} {side} Error: {response.phrase} for url: {response.address}"
  if 400 ≤ response.status ∧ response.status < 500 then some (told "Client")
  else if 500 ≤ response.status ∧ response.status < 600 then some (told "Server")
  else none

/-- Why an exchange breaks down, where it is no failure of the network. -/
inductive Breakdown where
  /-- The system fails. -/
  | system (reason : String)
  /-- The request cannot be sent as it is, such as one with a timeout that is no length of time. -/
  | unsendable (reason : String)
deriving Repr

/-- The wording of a breakdown. -/
def Breakdown.message : Breakdown → String
  | .system reason | .unsendable reason => reason

/-- What becomes of a request. -/
inductive Reply where
  | received (response : Response)
  /-- There is no connection, no response in time, or no such address. -/
  | failed (reason : String)
  /-- The exchange breaks down outside of the network. -/
  | broken (breakdown : Breakdown)
deriving Repr

/-- The reply of a server that serves a request with a JSON value. -/
def Reply.ofJson (value : Json) : Reply :=
  .received ⟨200, "OK", "", .json value⟩

/-- A server, as the reply to the latest of all requests sent so far; the latest is the first of
the list. -/
abbrev Server := List Request → Reply

/-- A client of a server. -/
structure Client where
  url : Json
  timeout : Json
  server : Server

/-- Why a call gives no answer. -/
inductive Error where
  | requestFailed (method : String) (url : Json) (reason : String)
  | unreadableBody (method reason : String)
  /-- The body is not an object. -/
  | notEnvelope (method : String)
  /-- The error in the body is not an object. -/
  | malformedError (method : String)
  /-- The server reports an error. -/
  | reported (code : Json) (message : String)
  /-- The body has neither a result nor an error. -/
  | noResult
  /-- The records in the result are not a list. -/
  | noEntries
  /-- A record in the result has no content. -/
  | noContent
  /-- The exchange broke down. -/
  | broken (breakdown : Breakdown)
deriving Repr

/-- The wording of an error. -/
def Error.message : Error → String
  | .requestFailed method url reason => s!"{method} request to {url.display} failed: {reason}"
  | .unreadableBody method reason => s!"{method} response is not valid JSON: {reason}"
  | .notEnvelope method => s!"{method} response is not a JSON-RPC envelope"
  | .malformedError method => s!"{method} response has a malformed error object"
  | .reported code message => s!"RPC error: {code.display} - {message}"
  | .noResult => "No result in RPC response"
  | .noEntries => "getLedgerEntries result has no entries list"
  | .noContent => "getLedgerEntries entry is missing its xdr field"
  | .broken breakdown => breakdown.message

/-- The result in the body of a reply. -/
def resultOf (method : String) : Json → Except Error Json
  | .obj members =>
    match members.lookup "error" with
    | some (.obj error) =>
      .error (.reported ((error.lookup "code").getD (.int 0))
        ((error.lookup "message").getD (.str "")).display)
    | none | some .null =>
      match members.lookup "result" with
      | some (.obj result) => .ok (.obj result)
      | _ => .error .noResult
    | some _ => .error (.malformedError method)
  | _ => .error (.notEnvelope method)

/-- The result in the body of a response to a request. -/
def Body.result (request : Request) : Body → Except Error Json
  | .json value => resultOf request.method value
  | .unreadable reason => .error (.unreadableBody request.method reason)

/-- The result that a reply to a request gives. -/
def Reply.result (request : Request) : Reply → Except Error Json
  | .received response =>
    match response.refusal? with
    | some reason => .error (.requestFailed request.method request.url reason)
    | none => response.body.result request
  | .failed reason => .error (.requestFailed request.method request.url reason)
  | .broken breakdown => .error (.broken breakdown)

/-- A record in an answer; all but the content is passed on as it stands. -/
structure Entry where
  content : String
  key : Json
  lastModified : Json
  liveUntil : Json
deriving Repr

/-- A record in the list of records. -/
def Entry.ofJson (value : Json) : Except Error Entry :=
  match value with
  | .obj members =>
    match members.lookup "xdr" with
    | some (.str content) =>
      .ok {
        content
        key := (members.lookup "key").getD (.str "")
        lastModified := (members.lookup "lastModifiedLedgerSeq").getD .null
        liveUntil := (members.lookup "liveUntilLedgerSeq").getD .null }
    | _ => .error .noContent
  | _ => .error .noContent

/-- The records in a result.  Where none are given, or nothing that counts as given, there are
none. -/
def entriesOf (result : Json) : Except Error (List Entry) :=
  let entries := (result.get? "entries").getD .null
  if entries.isTruthy then
    match entries with
    | .arr items => items.mapM Entry.ofJson
    | _ => .error .noEntries
  else .ok []

namespace Client

/-- The next request of a client that has sent some, the latest first. -/
def next (client : Client) (sent : List Request) (method : String) (params : Json) : Request where
  url := client.url
  timeout := client.timeout
  number := sent.length + 1
  method := method
  params := params

/-- Sends a request; gives the result, and all requests sent, the latest first. -/
def call (client : Client) (sent : List Request) (method : String) (params : Json) :
    Except Error Json × List Request :=
  let request := client.next sent method params
  let sent := request :: sent
  ((client.server sent).result request, sent)

/-- Asks for the records under some keys. -/
def entries {α : Type} [Label α] (client : Client) (sent : List Request) (keys : List α) :
    Except Error (List Entry) × List Request :=
  let (result, sent) :=
    client.call sent "getLedgerEntries" (.obj [("keys", .arr (keys.map Label.toJson))])
  (result.bind entriesOf, sent)

end Client

end ContractInterface.Rpc
