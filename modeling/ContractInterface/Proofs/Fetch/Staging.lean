/-
# The stages of a fetch

A fetch sends a request for the instance record of the contract, then one for the record of the
code that the first reply names, and nothing else.  `Course` lists the ways it can end, one for
each stage and one for an interface.  The main results are

* `extract_course`: every fetch from a server that replies takes one of these courses;
* `extract_staged`: so a fetch that fails tells the stage, has sent as many requests as it takes to
  get there, and has asked for nothing else.
-/
import ContractInterface.Fetch
import ContractInterface.Proofs.Fetch.Reply

namespace ContractInterface.Fetch

open Rpc (Client Request)

variable {α β : Type}

/-! ### What a part of a fetch does -/

namespace Action

/-- The end of a part of a fetch, and the history then. -/
def ended (outcome : Except Failure α) (h : History) : EStateM.Result Failure History α :=
  match outcome with
  | .ok value => .ok value h
  | .error failure => .error failure h

/-- Behind some requests, the latest first, a part of a fetch sends further ones, the latest last,
and ends with an outcome.  The log does not matter. -/
def Does (part : Action α) (sent requests : List Request) (outcome : Except Failure α) : Prop :=
  ∀ log, ∃ log', part.run ⟨sent, log⟩ = ended outcome ⟨requests.reverse ++ sent, log'⟩

variable {sent requests requests' : List Request}

lemma does_pure (value : α) : Does (pure value) sent [] (.ok value) :=
  fun log => ⟨log, rfl⟩

lemma does_throw (failure : Failure) :
    Does (throw failure : Action α) sent [] (.error failure) :=
  fun log => ⟨log, rfl⟩

lemma Does.bind {part : Action α} {rest : α → Action β} {value : α}
    {outcome : Except Failure β} (h : Does part sent requests (.ok value))
    (hrest : Does (rest value) (requests.reverse ++ sent) requests' outcome) :
    Does (part >>= rest) sent (requests ++ requests') outcome := by
  intro log
  obtain ⟨log₁, h₁⟩ := h log
  obtain ⟨log₂, h₂⟩ := hrest log₁
  refine ⟨log₂, ?_⟩
  rw [EStateM.run_bind, h₁, List.reverse_append, List.append_assoc]
  exact h₂

/-- A part that sends nothing adds no requests. -/
lemma Does.bind_silent {part : Action α} {rest : α → Action β} {value : α}
    {outcome : Except Failure β} (h : Does part sent requests (.ok value))
    (hrest : Does (rest value) (requests.reverse ++ sent) [] outcome) :
    Does (part >>= rest) sent requests outcome := by
  have hbind := h.bind hrest
  rwa [List.append_nil] at hbind

/-- A line in the log changes nothing else. -/
lemma Does.report_bind {rest : Unit → Action β} {outcome : Except Failure β}
    (h : Does (rest ()) sent requests outcome) (level : Level) (text : String) :
    Does (report level text >>= rest) sent requests outcome :=
  fun log => h (⟨level, text⟩ :: log)

lemma Does.bind_error {part : Action α} {rest : α → Action β} {failure : Failure}
    (h : Does part sent requests (.error failure)) :
    Does (part >>= rest) sent requests (.error failure) := by
  intro log
  obtain ⟨log', h'⟩ := h log
  refine ⟨log', ?_⟩
  rw [EStateM.run_bind, h']
  rfl

lemma does_within_ok (stage : Stage) (value : α) :
    Does (within stage (.ok value)) sent [] (.ok value) :=
  does_pure value

lemma does_within_error (stage : Stage) {cause : Cause} (hstaged : cause.isStaged = true) :
    Does (within stage (.error cause) : Action α) sent [] (.error ⟨some stage, cause⟩) := by
  simp only [within, hstaged, if_true]
  exact (does_throw _).report_bind _ _

end Action

/-! ### Lookups -/

/-- The request for the record under a key, behind some requests. -/
def request (client : Client) (sent : List Request) (key : Ledger.Key) : Request :=
  client.next sent "getLedgerEntries" (.obj [("keys", .arr [.str key.toText])])

/-- Takes something from the first of the records under a key. -/
def takeFirst (what : String) (key : Ledger.Key) (take : String → Except Ledger.EntryError α) :
    List Rpc.Entry → Except Cause α
  | [] => .error (.notFound what key.toText)
  | entry :: _ => (take entry.content).mapError .entry

/-- How the lookup of the record under a key ends, from which something is taken. -/
inductive LooksUp (client : Client) (sent : List Request) (what : String) (key : Ledger.Key)
    (take : String → Except Ledger.EntryError α) : Except Cause α → Prop where
  | unanswered {error : Rpc.Error} (hreply : (client.entries sent [key.toText]).1 = .error error) :
    LooksUp client sent what key take (.error (.rpc error))
  | missing (hreply : (client.entries sent [key.toText]).1 = .ok []) :
    LooksUp client sent what key take (.error (.notFound what key.toText))
  | refused {entry : Rpc.Entry} {others : List Rpc.Entry} {error : Ledger.EntryError}
    (hreply : (client.entries sent [key.toText]).1 = .ok (entry :: others))
    (htake : take entry.content = .error error) :
    LooksUp client sent what key take (.error (.entry error))
  | found {entry : Rpc.Entry} {others : List Rpc.Entry} {value : α}
    (hreply : (client.entries sent [key.toText]).1 = .ok (entry :: others))
    (htake : take entry.content = .ok value) :
    LooksUp client sent what key take (.ok value)

section LooksUp

variable {client : Client} {sent : List Request} {what : String} {key : Ledger.Key}
  {take : String → Except Ledger.EntryError α}

/-- A lookup that fails does so in its stage, if the server replies. -/
lemma LooksUp.isStaged (hreplies : client.Replies) {cause : Cause}
    (h : LooksUp client sent what key take (.error cause)) : cause.isStaged = true := by
  cases h with
  | unanswered hreply =>
    rename_i error
    cases error with
    | broken breakdown => exact absurd hreply (Client.entries_ne_broken hreplies sent _ breakdown)
    | _ => rfl
  | missing hreply => rfl
  | refused hreply htake => rfl

/-- A lookup sends its request, and then takes from the reply within its stage. -/
lemma lookUp_run (client : Client) (stage : Stage) (sent : List Request) (what : String)
    (key : Ledger.Key) (take : String → Except Ledger.EntryError α) (log : List LogLine) :
    (Action.lookUp client stage what key take).run ⟨sent, log⟩ =
      (Action.within stage ((client.entries sent [key.toText]).1.mapError .rpc >>=
        takeFirst what key take)).run ⟨request client sent key :: sent, log⟩ := rfl

/-- What is taken from a reply is one of the ends of a lookup. -/
lemma looksUp_takeFirst (client : Client) (sent : List Request) (what : String) (key : Ledger.Key)
    (take : String → Except Ledger.EntryError α) :
    LooksUp client sent what key take
      ((client.entries sent [key.toText]).1.mapError .rpc >>= takeFirst what key take) := by
  cases hreply : (client.entries sent [key.toText]).1 with
  | error error => exact .unanswered hreply
  | ok entries =>
    change LooksUp client sent what key take (takeFirst what key take entries)
    cases entries with
    | nil => exact .missing hreply
    | cons entry others =>
      rw [takeFirst]
      cases htake : take entry.content with
      | error error => exact .refused hreply htake
      | ok value => exact .found hreply htake

/-- What is taken from a reply is the only end of a lookup. -/
lemma LooksUp.eq_takeFirst {outcome : Except Cause α}
    (h : LooksUp client sent what key take outcome) :
    (client.entries sent [key.toText]).1.mapError Cause.rpc >>= takeFirst what key take =
      outcome := by
  cases h with
  | unanswered hreply | missing hreply =>
    rw [hreply]
    rfl
  | refused hreply htake | found hreply htake =>
    rw [hreply]
    exact congrArg (Except.mapError Cause.entry) htake

/-- A lookup that finds what it is after sends its request and gives it. -/
lemma LooksUp.does {value : α} (h : LooksUp client sent what key take (.ok value)) (stage : Stage) :
    (Action.lookUp client stage what key take).Does sent [request client sent key] (.ok value) := by
  intro log
  rw [lookUp_run, h.eq_takeFirst]
  exact Action.does_within_ok stage value log

/-- A lookup that fails, from a server that replies, sends its request and fails in its stage. -/
lemma LooksUp.does_error (hreplies : client.Replies) {cause : Cause}
    (h : LooksUp client sent what key take (.error cause)) (stage : Stage) :
    (Action.lookUp client stage what key take).Does sent [request client sent key]
      (.error ⟨some stage, cause⟩) := by
  intro log
  rw [lookUp_run, h.eq_takeFirst]
  exact Action.does_within_error stage (h.isStaged hreplies) log

end LooksUp

/-! ### Courses -/

/-- The courses of a fetch behind some requests: the requests it sends, and how it ends. -/
inductive Course (client : Client) (address : String) (sent : List Request) :
    List Request → Except Failure Extraction → Prop where
  | noAddress {defect : Strkey.Defect} (hdecode : Strkey.decode .contract address = .error defect) :
    Course client address sent [] (.error ⟨some .decodeAddress, .address defect⟩)
  | noInstance {contract : Hash} {cause : Cause}
    (hdecode : Strkey.decode .contract address = .ok contract)
    (hinstance : LooksUp client sent "Contract" (.contractInstance contract)
      Ledger.codeHashOfText (.error cause)) :
    Course client address sent [request client sent (.contractInstance contract)]
      (.error ⟨some .fetchInstance, cause⟩)
  | noCode {contract hash : Hash} {cause : Cause} {first : Request}
    (hdecode : Strkey.decode .contract address = .ok contract)
    (hfirst : first = request client sent (.contractInstance contract))
    (hinstance : LooksUp client sent "Contract" (.contractInstance contract)
      Ledger.codeHashOfText (.ok hash))
    (hcode : LooksUp client (first :: sent) "WASM code" (.contractCode hash)
      Ledger.codeOfText (.error cause)) :
    Course client address sent [first, request client (first :: sent) (.contractCode hash)]
      (.error ⟨some .fetchCode, cause⟩)
  | coded {contract hash : Hash} {wasm : Bytes} {first : Request}
    (hdecode : Strkey.decode .contract address = .ok contract)
    (hfirst : first = request client sent (.contractInstance contract))
    (hinstance : LooksUp client sent "Contract" (.contractInstance contract)
      Ledger.codeHashOfText (.ok hash))
    (hcode : LooksUp client (first :: sent) "WASM code" (.contractCode hash)
      Ledger.codeOfText (.ok wasm)) :
    Course client address sent [first, request client (first :: sent) (.contractCode hash)]
      (match Spec.extract true wasm with
        | .error error => .error ⟨some .parseSpec, .spec error⟩
        | .ok spec => .ok ⟨address, hash, wasm.length, spec⟩)

variable {client : Client} {address : String} {sent : List Request}

lemma does_codeHash {contract : Hash} (hdecode : Strkey.decode .contract address = .ok contract)
    {requests : List Request} {outcome : Except Failure Hash}
    (h : (Action.lookUp client .fetchInstance "Contract" (.contractInstance contract)
      Ledger.codeHashOfText).Does sent requests outcome) :
    (codeHash client address).Does sent requests outcome := by
  have hpayload : (Action.within .decodeAddress
      ((Strkey.decode .contract address).mapError .address)).Does sent [] (.ok contract) := by
    rw [hdecode]
    exact Action.does_within_ok .decodeAddress contract
  exact hpayload.bind h

/-- A fetch ends where the hash of the code is not found. -/
lemma does_extract_of_noHash {requests : List Request} {failure : Failure}
    (h : (codeHash client address).Does sent requests (.error failure)) :
    (extract client address).Does sent requests (.error failure) := by
  have hwasm : (wasm client address).Does sent requests (.error failure) :=
    h.bind_error.report_bind _ _
  exact hwasm.bind_error

/-- A fetch ends where the code is not found. -/
lemma does_extract_of_noCode {requests requests' : List Request} {hash : Hash} {failure : Failure}
    (h : (codeHash client address).Does sent requests (.ok hash))
    (hcode : (code client hash).Does (requests.reverse ++ sent) requests' (.error failure)) :
    (extract client address).Does sent (requests ++ requests') (.error failure) := by
  have hwasm : (wasm client address).Does sent (requests ++ requests') (.error failure) := by
    refine Action.Does.report_bind (h.bind ?_) _ _
    exact (hcode.bind_error.report_bind _ _).report_bind _ _
  exact hwasm.bind_error

/-- A fetch that finds the code ends as the extraction of the interface in it does. -/
lemma does_extract_of_code {requests requests' : List Request} {hash : Hash} {found : Bytes}
    (h : (codeHash client address).Does sent requests (.ok hash))
    (hcode : (code client hash).Does (requests.reverse ++ sent) requests' (.ok found)) :
    (extract client address).Does sent (requests ++ requests')
      (match Spec.extract true found with
        | .error error => .error ⟨some .parseSpec, .spec error⟩
        | .ok spec => .ok ⟨address, hash, found.length, spec⟩) := by
  have hwasm : (wasm client address).Does sent (requests ++ requests') (.ok (hash, found)) := by
    refine Action.Does.report_bind (h.bind ?_) _ _
    refine (Action.Does.report_bind ?_ _ _).report_bind _ _
    exact hcode.bind_silent (Action.Does.report_bind (Action.does_pure (hash, found)) _ _)
  refine hwasm.bind_silent (Action.Does.report_bind ?_ _ _)
  cases hspec : Spec.extract true found with
  | error error =>
    have hparse : (specOfCode found).Does ((requests ++ requests').reverse ++ sent) []
        (.error ⟨some .parseSpec, .spec error⟩) := by
      rw [specOfCode, hspec]
      exact Action.does_within_error .parseSpec rfl
    exact hparse.bind_error
  | ok spec =>
    have hparse :
        (specOfCode found).Does ((requests ++ requests').reverse ++ sent) [] (.ok spec) := by
      rw [specOfCode, hspec]
      exact Action.does_within_ok .parseSpec spec
    let extraction : Extraction := ⟨address, hash, found.length, spec⟩
    exact hparse.bind_silent (Action.Does.report_bind (Action.does_pure extraction) _ _)

/-- Whether the address names a contract decides whether there is a lookup. -/
lemma exists_course (client : Client) (address : String) (sent : List Request) :
    ∃ requests outcome, Course client address sent requests outcome := by
  cases hdecode : Strkey.decode .contract address with
  | error defect => exact ⟨_, _, .noAddress hdecode⟩
  | ok contract =>
    obtain ⟨outcome, hinstance⟩ : ∃ outcome, LooksUp client sent "Contract"
        (.contractInstance contract) Ledger.codeHashOfText outcome := ⟨_, looksUp_takeFirst ..⟩
    cases outcome with
    | error cause => exact ⟨_, _, .noInstance hdecode hinstance⟩
    | ok hash =>
      obtain ⟨outcome, hcode⟩ : ∃ outcome,
          LooksUp client (request client sent (.contractInstance contract) :: sent) "WASM code"
            (.contractCode hash) Ledger.codeOfText outcome := ⟨_, looksUp_takeFirst ..⟩
      cases outcome with
      | error cause => exact ⟨_, _, .noCode hdecode rfl hinstance hcode⟩
      | ok found => exact ⟨_, _, .coded hdecode rfl hinstance hcode⟩

/-- A fetch from a server that replies takes any course there is for it. -/
lemma Course.does {requests : List Request} {outcome : Except Failure Extraction}
    (hreplies : client.Replies) (h : Course client address sent requests outcome) :
    (extract client address).Does sent requests outcome := by
  cases h with
  | @noAddress defect hdecode =>
    have hpayload : (Action.within .decodeAddress
        ((Strkey.decode .contract address).mapError .address)).Does sent []
        (.error ⟨some .decodeAddress, .address defect⟩) := by
      rw [hdecode]
      exact Action.does_within_error .decodeAddress rfl
    have hhash : (codeHash client address).Does sent []
        (.error ⟨some .decodeAddress, .address defect⟩) := hpayload.bind_error
    exact does_extract_of_noHash hhash
  | noInstance hdecode hinstance =>
    exact does_extract_of_noHash
      (does_codeHash hdecode (hinstance.does_error hreplies .fetchInstance))
  | noCode hdecode hfirst hinstance hcode =>
    subst hfirst
    exact does_extract_of_noCode (does_codeHash hdecode (hinstance.does .fetchInstance))
      (hcode.does_error hreplies .fetchCode)
  | coded hdecode hfirst hinstance hcode =>
    subst hfirst
    exact does_extract_of_code (does_codeHash hdecode (hinstance.does .fetchInstance))
      (hcode.does .fetchCode)

/-- **Every fetch from a server that replies takes one of the courses.** -/
theorem extract_course (hreplies : client.Replies) (address : String) (sent : List Request) :
    ∃ requests outcome, Course client address sent requests outcome ∧
      (extract client address).Does sent requests outcome := by
  obtain ⟨requests, outcome, hcourse⟩ := exists_course client address sent
  exact ⟨requests, outcome, hcourse, hcourse.does hreplies⟩

/-! ### Staging -/

/-- The number of requests sent before a stage fails. -/
def Stage.requestCount : Stage → Nat
  | .decodeAddress => 0
  | .fetchInstance => 1
  | .fetchCode | .parseSpec => 2

/-- The causes for which a stage fails.  None of them is a failure outside the exchange, a hash of
a wrong length, or a record of the kind looked for that lacks its body. -/
inductive Stage.FailsFor : Stage → Cause → Prop where
  | address (defect : Strkey.Defect) : FailsFor .decodeAddress (.address defect)
  | rpc {stage : Stage} {error : Rpc.Error} (hstage : stage = .fetchInstance ∨ stage = .fetchCode)
    (hexchange : ∀ breakdown, error ≠ .broken breakdown) : FailsFor stage (.rpc error)
  | notFound {stage : Stage} (what key : String)
    (hstage : stage = .fetchInstance ∨ stage = .fetchCode) : FailsFor stage (.notFound what key)
  | entry {stage : Stage} {error : Ledger.EntryError}
    (hstage : stage = .fetchInstance ∨ stage = .fetchCode)
    (hkind : ∀ kind, error ≠ .unexpectedEntry kind kind) : FailsFor stage (.entry error)
  | spec (error : Spec.ExtractionError) : FailsFor .parseSpec (.spec error)

/-- What a stage fails for is a failure of a stage. -/
lemma Stage.FailsFor.isStaged {stage : Stage} {cause : Cause} (h : stage.FailsFor cause) :
    cause.isStaged = true := by
  cases h with
  | address defect => rfl
  | @rpc _ error hstage hexchange =>
    cases error with
    | broken breakdown => exact absurd rfl (hexchange breakdown)
    | _ => rfl
  | notFound what key hstage => rfl
  | entry hstage hkind => rfl
  | spec error => rfl

/-- A lookup fails for causes of a stage with a lookup. -/
lemma LooksUp.failsFor {what : String} {key : Ledger.Key}
    {take : String → Except Ledger.EntryError α} {cause : Cause} (hreplies : client.Replies)
    (htake : ∀ text kind, take text ≠ .error (.unexpectedEntry kind kind)) {stage : Stage}
    (hstage : stage = .fetchInstance ∨ stage = .fetchCode)
    (h : LooksUp client sent what key take (.error cause)) : stage.FailsFor cause := by
  cases h with
  | unanswered hreply =>
    refine .rpc hstage ?_
    rintro breakdown rfl
    exact Client.entries_ne_broken hreplies sent _ breakdown hreply
  | missing hreply => exact .notFound what key.toText hstage
  | refused hreply hrefused =>
    refine .entry hstage ?_
    rintro kind rfl
    exact htake _ kind hrefused

namespace Course

variable {requests : List Request} {outcome : Except Failure Extraction}

/-- A fetch has sent two requests, or fails in a stage that comes before the second. -/
lemma ends (hreplies : client.Replies) (h : Course client address sent requests outcome) :
    (∃ extraction, outcome = .ok extraction ∧ requests.length = 2) ∨
      ∃ stage cause, outcome = .error ⟨some stage, cause⟩ ∧
        requests.length = stage.requestCount ∧ stage.FailsFor cause := by
  cases h with
  | noAddress hdecode => exact .inr ⟨_, _, rfl, rfl, .address _⟩
  | noInstance hdecode hinstance =>
    exact .inr ⟨_, _, rfl, rfl,
      hinstance.failsFor hreplies Ledger.codeHashOfText_ne_same (.inl rfl)⟩
  | noCode hdecode hfirst hinstance hcode =>
    exact .inr ⟨_, _, rfl, rfl, hcode.failsFor hreplies Ledger.codeOfText_ne_same (.inr rfl)⟩
  | @coded contract hash wasm first hdecode hfirst hinstance hcode =>
    cases Spec.extract true wasm with
    | error error => exact .inr ⟨_, _, rfl, rfl, .spec error⟩
    | ok spec => exact .inl ⟨_, rfl, rfl⟩

/-- What is fetched tells the address that it was fetched for. -/
lemma address_eq {extraction : Extraction}
    (h : Course client address sent requests (.ok extraction)) : extraction.address = address := by
  generalize houtcome : Except.ok extraction = outcome at h
  cases h with
  | noAddress hdecode => cases houtcome
  | noInstance hdecode hinstance => cases houtcome
  | noCode hdecode hfirst hinstance hcode => cases houtcome
  | coded hdecode hfirst hinstance hcode =>
    split at houtcome
    · cases houtcome
    · rw [Except.ok.inj houtcome]

/-- The first request is for the instance record of the contract that the address names. -/
lemma first_eq {first : Request} {later : List Request}
    (h : Course client address sent (first :: later) outcome) :
    ∃ contract, Strkey.decode .contract address = .ok contract ∧
      first = request client sent (.contractInstance contract) := by
  cases h with
  | noInstance hdecode hinstance => exact ⟨_, hdecode, rfl⟩
  | noCode hdecode hfirst hinstance hcode => exact ⟨_, hdecode, hfirst⟩
  | coded hdecode hfirst hinstance hcode => exact ⟨_, hdecode, hfirst⟩

/-- The second request is for the code that the first record in the first reply names. -/
lemma second_eq {first second : Request} {later : List Request}
    (h : Course client address sent (first :: second :: later) outcome) :
    ∃ contract entry others hash, first = request client sent (.contractInstance contract) ∧
      (client.entries sent [(Ledger.Key.contractInstance contract).toText]).1 =
        .ok (entry :: others) ∧
      Ledger.codeHashOfText entry.content = .ok hash ∧
      second = request client (first :: sent) (.contractCode hash) := by
  cases h with
  | noCode hdecode hfirst hinstance hcode | coded hdecode hfirst hinstance hcode =>
    cases hinstance with
    | found hreply htake => exact ⟨_, _, _, _, hfirst, hreply, htake, rfl⟩

end Course

/-- **A fetch fails in one of its stages, and asks for nothing but what the stages need.**  Against
a server that replies, whatever it replies, a fetch gives an interface or fails with the stage and a
cause that belongs to it.  It sends no request if the address cannot be decoded, one if the instance
cannot be fetched, and else two: the first for the instance of the contract that the address names,
the second for the code whose hash the first record in the first reply holds. -/
theorem extract_staged {client : Client} (hreplies : client.Replies) (address : String)
    (h : History) :
    ∃ requests after, after.sent = requests.reverse ++ h.sent ∧
      ((∃ extraction, (extract client address).run h = .ok extraction after ∧
          requests.length = 2) ∨
        ∃ stage cause, (extract client address).run h = .error ⟨some stage, cause⟩ after ∧
          requests.length = stage.requestCount ∧ stage.FailsFor cause) ∧
      (∀ first later, requests = first :: later →
        ∃ contract key, Strkey.decode .contract address = .ok contract ∧
          contract.bytes.length = 32 ∧ Ledger.Key.instanceOf contract.bytes = .ok key ∧
          first = request client h.sent key) ∧
      ∀ first second later, requests = first :: second :: later →
        ∃ entry others hash key,
          ((client.server (first :: h.sent)).result first).bind Rpc.entriesOf =
            .ok (entry :: others) ∧
          Ledger.codeHashOfText entry.content = .ok hash ∧ hash.bytes.length = 32 ∧
          Ledger.Key.codeOf hash.bytes = .ok key ∧
          second = request client (first :: h.sent) key := by
  obtain ⟨requests, outcome, hcourse, hdoes⟩ := extract_course hreplies address h.sent
  obtain ⟨log, hrun⟩ := hdoes h.log
  refine ⟨requests, ⟨requests.reverse ++ h.sent, log⟩, rfl, ?_, ?_, ?_⟩
  · rcases hcourse.ends hreplies with ⟨extraction, rfl, hcount⟩ | ⟨stage, cause, rfl, hcount, hfor⟩
    · exact .inl ⟨extraction, hrun, hcount⟩
    · exact .inr ⟨stage, cause, hrun, hcount, hfor⟩
  · rintro first later rfl
    obtain ⟨contract, hdecode, hfirst⟩ := hcourse.first_eq
    refine ⟨contract, _, hdecode, contract.length_eq, ?_, hfirst⟩
    rw [Ledger.Key.instanceOf, Hash.ofBytes_bytes]
    rfl
  · rintro first second later rfl
    obtain ⟨contract, entry, others, hash, rfl, hreply, htake, hsecond⟩ := hcourse.second_eq
    refine ⟨entry, others, hash, _, hreply, htake, hash.length_eq, ?_, hsecond⟩
    rw [Ledger.Key.codeOf, Hash.ofBytes_bytes]
    rfl

/-- The instance record of a contract, bare. -/
def sampleRecord : String :=
  "AAAABgAAAAAAAAABpaWlpaWlpaWlpaWlpaWlpaWlpaWlpaWlpaWlpaWlpaUAAAAUAAAAAQAAABMAAAAApaWlpaWlpaWl" ++
    "paWlpaWlpaWlpaWlpaWlpaWlpaWlpaUAAAAA"

/-- A server that has the instance record and then is out of service. -/
def sampleClient : Client where
  url := .str "https://ledger.test"
  timeout := .int 30
  server
    | [_] =>
      .ofJson (.obj [("result", .obj [("entries", .arr [.obj [("xdr", .str sampleRecord)]])])])
    | _ => .received ⟨503, "Service Unavailable", "https://ledger.test/", .unreadable "no text"⟩

lemma sampleClient_replies : sampleClient.Replies := by
  intro sent reason
  rcases sent with _ | ⟨first, _ | ⟨second, later⟩⟩
  · nofun
  · nofun
  · nofun

theorem extract_staged_sample :
    sampleClient.Replies ∧
      ∃ cause after,
        (extract sampleClient "CDLZFC3SYJYDZT7K67VZ75HPJVIEUVNIXF47ZG2FB2RMQQVU2HHGCYSC").run .empty =
          .error ⟨some .fetchCode, cause⟩ after ∧ after.sent.length = 2 := by
  have hstage : (match (extract sampleClient
      "CDLZFC3SYJYDZT7K67VZ75HPJVIEUVNIXF47ZG2FB2RMQQVU2HHGCYSC").run .empty with
      | .ok _ _ => none
      | .error failure _ => failure.stage) = some .fetchCode := by decide +kernel
  obtain ⟨requests, after, hsent, hend, -⟩ := extract_staged sampleClient_replies
    "CDLZFC3SYJYDZT7K67VZ75HPJVIEUVNIXF47ZG2FB2RMQQVU2HHGCYSC" .empty
  refine ⟨sampleClient_replies, ?_⟩
  rcases hend with ⟨extraction, hrun, -⟩ | ⟨stage, cause, hrun, hcount, -⟩
  · rw [hrun] at hstage
    cases hstage
  · rw [hrun] at hstage
    obtain rfl := Option.some.inj hstage
    refine ⟨cause, after, hrun, ?_⟩
    rw [hsent, List.length_append, List.length_reverse, hcount]
    rfl

end ContractInterface.Fetch
