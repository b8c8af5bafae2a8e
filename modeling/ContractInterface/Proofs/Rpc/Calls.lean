/-
# Calls one after the other

A client numbers its requests on through all failures, and what a call ends in depends on the reply
to it alone.  The main results are

* `Client.entries_classified`: one call posts one request, and ends as the reply to it says;
* `Client.entriesEach_classified`: so does each of the calls of one client;
* `Client.entries_of_unsuccessful`: a response may be no success and still be read as an answer.
-/
import ContractInterface.Proofs.Fetch.Script

namespace ContractInterface.Rpc

namespace Client

variable {α : Type} [Label α]

/-- The request for the records under some keys, with its number. -/
def entriesRequest (client : Client) (number : Nat) (keys : List α) : Request where
  url := client.url
  timeout := client.timeout
  number := number
  method := "getLedgerEntries"
  params := .obj [("keys", .arr (keys.map Label.toJson))]

/-- Calls of one client, one after the other. -/
def entriesEach (client : Client) (sent : List Request) :
    List (List α) → List (Except Error (List Entry)) × List Request
  | [] => ([], sent)
  | keys :: calls =>
    let (outcome, sent) := client.entries sent keys
    let (outcomes, sent) := client.entriesEach sent calls
    (outcome :: outcomes, sent)

/-- One call sends one request, and reads the reply to it. -/
lemma entries_eq (client : Client) (sent : List Request) (keys : List α) :
    let request := client.entriesRequest (sent.length + 1) keys
    client.entries sent keys =
      ((client.server (request :: sent)).entries request, request :: sent) :=
  rfl

/-- What is posted for the records under some keys, with a number. -/
def entriesBody (number : Nat) (keys : List α) : Json :=
  .obj [("jsonrpc", .str "2.0"), ("id", .int number), ("method", .str "getLedgerEntries"),
    ("params", .obj [("keys", .arr (keys.map Label.toJson))])]

/-- **One call posts one request, and ends as the reply to it says.** -/
theorem entries_classified (client : Client) (sent : List Request) (keys : List α) :
    ∃ request, (client.entries sent keys).2 = request :: sent ∧
      request.url = client.url ∧ request.timeout = client.timeout ∧
      request.body = entriesBody (sent.length + 1) keys ∧
      Classified (client.server (request :: sent)) (client.entries sent keys).1 := by
  refine ⟨client.entriesRequest (sent.length + 1) keys, rfl, rfl, rfl, rfl, ?_⟩
  rw [entries_eq]
  exact Reply.classified ..

/-- The requests of some calls, behind those that were sent before. -/
lemma entriesEach_sent (client : Client) (sent : List Request) (calls : List (List α)) :
    (client.entriesEach sent calls).2 = ((calls.zipIdx (sent.length + 1)).map
      fun (keys, number) => client.entriesRequest number keys).reverse ++ sent := by
  induction calls generalizing sent with
  | nil => rfl
  | cons keys calls ih =>
    rw [entriesEach, entries_eq, ih, List.zipIdx_cons, List.map_cons, List.reverse_cons,
      List.append_assoc]
    rfl

/-- The outcomes of some calls, by the replies of a script that were not read before. -/
lemma entriesEach_outcomes (url timeout : Json) (script : List Reply) (sent : List Request)
    (calls : List (List α)) :
    List.Forall₂ Classified
      ((List.range' sent.length calls.length).map
        (script.getD · (.failed "no scripted response")))
      (entriesEach ⟨url, timeout, .ofScript script⟩ sent calls).1 := by
  induction calls generalizing sent with
  | nil => exact .nil
  | cons keys calls ih =>
    rw [entriesEach, entries_eq, List.length_cons, List.range'_succ, List.map_cons]
    exact .cons (Reply.classified ..) (ih (_ :: sent))

/-- **Replies are classified totally.**  Of the calls of one client each posts exactly one request,
to the address of the client and with its timeout, and the n-th request has the number n, whatever
came of the calls before.  With a script of replies the n-th call ends as the n-th reply says, and
as a failed exchange if the script has run out. -/
theorem entriesEach_classified (url timeout : Json) (script : List Reply) (calls : List (List α)) :
    let client : Client := ⟨url, timeout, .ofScript script⟩
    (client.entriesEach [] calls).2.reverse.map
          (fun request => (request.url, request.timeout, request.body)) =
        (calls.zipIdx 1).map (fun (keys, number) => (url, timeout, entriesBody number keys)) ∧
      List.Forall₂ Classified
        ((List.range calls.length).map (script.getD · (.failed "no scripted response")))
        (client.entriesEach [] calls).1 := by
  intro client
  constructor
  · rw [entriesEach_sent, List.append_nil, List.reverse_reverse, List.map_map]
    rfl
  · rw [List.range_eq_range']
    exact entriesEach_outcomes url timeout script [] calls

/-- Not every response that is no success is refused, nor is every breakdown a failure of the
exchange: the records are read from a response that asks the client to choose, and what the system
says is passed on. -/
theorem entries_of_unsuccessful :
    let answer : Json := .obj [("result", .obj [("entries", .arr [])])]
    let client (reply : Reply) : Client := ⟨.str "https://ledger.test", .int 30, .ofScript [reply]⟩
    let choice : Reply :=
      .received ⟨300, "Multiple Choices", "https://ledger.test/", .json answer⟩
    let cut : Reply := .broken (.system "disk")
    ((client choice).entries [] ["AAAA"]).1 = .ok [] ∧
      ((client cut).entries [] ["AAAA"]).1 = .error (.broken (.system "disk")) :=
  ⟨rfl, rfl⟩

end Client

/-- Replies to six calls, the last of which finds the script at its end: an error beside a result,
a list that does not count as given, a body that is no JSON, a record that is refused and one that
is not. -/
def sampleScript : List Reply :=
  let record : Json := .obj [("result", .obj [("entries", .arr [.obj [("xdr", .str "AAAA")]])])]
  [.ofJson (.obj [("error", .obj [("code", .int 7)]), ("result", .obj [("entries", .arr [])])]),
    .ofJson (.obj [("error", .null), ("result", .obj [("entries", .int 0)])]),
    .received ⟨200, "OK", "https://ledger.test/", .unreadable "Expecting value"⟩,
    .received ⟨404, "Not Found", "https://ledger.test/", .json record⟩, .ofJson record]

example :
    let client : Client := ⟨.str "https://ledger.test", .int 30, .ofScript sampleScript⟩
    let (outcomes, sent) := client.entriesEach [] (List.replicate 6 ["K"])
    outcomes.map (fun outcome => (outcome.map (List.map (·.content))).mapError (·.kind)) =
        [.error .reported, .ok [], .error .exchange, .error .exchange, .ok ["AAAA"],
          .error .exchange] ∧
      sent.map (·.number) = [6, 5, 4, 3, 2, 1] :=
  ⟨rfl, rfl⟩

end ContractInterface.Rpc
