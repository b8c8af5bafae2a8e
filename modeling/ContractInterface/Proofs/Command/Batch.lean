/-
# Batches

A batch fetches the contracts of a list one after the other from one client, and puts down what
becomes of each.  Against a script of replies, whatever the replies are, no contract ends the batch
or takes replies from the ones behind it.  The main results are

* `runBatch_run`: a batch puts down how each fetch ends alone, with the replies that are left over;
* `Batch.tellsResults` and `Batch.tellsFailures`: what is put down of such an end;
* `runBatch_isolated`: so every contract has its one place in the document, and the exit status
  tells whether a contract failed.
-/
import ContractInterface.Command
import ContractInterface.Proofs.Fetch.Script
import ContractInterface.Proofs.Strkey.Inverse

namespace ContractInterface.Command

open Fetch (Cause Extraction Failure Settles Stage alone eachAlone)

variable {script : List Rpc.Reply}

/-! ### What a batch puts down -/

/-- The document of an address whose fetch succeeds. -/
def resultOf? (item : String × Except Failure Extraction) : Option Json :=
  match item with
  | (_, .ok extraction) => some extraction.toJson
  | (_, .error _) => none

/-- The document of an address whose fetch fails. -/
def failureOf? (item : String × Except Failure Extraction) : Option Json :=
  match item with
  | (_, .ok _) => none
  | (address, .error failure) => some (failureToJson address failure.stage failure.cause)

/-- What becomes of addresses, given how their fetches end. -/
def Batch.ofEnds (ends : List (String × Except Failure Extraction)) : Batch where
  results := ends.filterMap resultOf?
  failures := ends.filterMap failureOf?

/-- Every address has one place in a batch. -/
lemma Batch.length_ofEnds (ends : List (String × Except Failure Extraction)) :
    (ofEnds ends).results.length + (ofEnds ends).failures.length = ends.length := by
  induction ends with
  | nil => rfl
  | cons item ends ih =>
    obtain ⟨address, outcome⟩ := item
    simp only [ofEnds] at ih ⊢
    cases outcome with
    | ok extraction =>
      simp only [List.filterMap_cons, resultOf?, failureOf?, List.length_cons]
      omega
    | error failure =>
      simp only [List.filterMap_cons, resultOf?, failureOf?, List.length_cons]
      omega

/-- An address with its interface, if its fetch succeeds. -/
def succeeded? (item : String × Except Failure Extraction) : Option (String × Extraction) :=
  item.2.toOption.map (item.1, ·)

/-- An address with its failure, if its fetch fails. -/
def failed? (item : String × Except Failure Extraction) : Option (String × Failure) :=
  match item.2 with
  | .ok _ => none
  | .error failure => some (item.1, failure)

/-- A document tells of an address with its interface: the address, the hash and the size of the
code, and the interface. -/
def TellsResult (item : String × Extraction) (document : Json) : Prop :=
  document = .obj [("contract_id", .str item.1), ("wasm_hash", .str item.2.codeHash.toHex),
    ("wasm_size", .int item.2.codeSize), ("spec", item.2.spec.toJson)]

/-- A document tells of an address with its failure: the address, the stage that failed, and the
wording. -/
inductive TellsFailure : String × Failure → Json → Prop where
  | stage (address : String) (stage : Stage) (cause : Cause) :
    TellsFailure (address, ⟨some stage, cause⟩)
      (.obj [("contract_id", .str address), ("stage", .str stage.name),
        ("error", .str cause.message)])

lemma Batch.tellsResults {ends : List (String × Except Failure Extraction)}
    (hends : ∀ item ∈ ends, Settles item.1 item.2) :
    List.Forall₂ TellsResult (ends.filterMap succeeded?) (ofEnds ends).results := by
  induction ends with
  | nil => exact .nil
  | cons item ends ih =>
    obtain ⟨hitem, hrest⟩ := List.forall_mem_cons.1 hends
    obtain ⟨address, outcome⟩ := item
    cases hitem with
    | failed hfor => exact ih hrest
    | @found extraction haddress =>
      refine .cons ?_ (ih hrest)
      rw [TellsResult, ← haddress]
      rfl

lemma Batch.tellsFailures {ends : List (String × Except Failure Extraction)}
    (hends : ∀ item ∈ ends, Settles item.1 item.2) :
    List.Forall₂ TellsFailure (ends.filterMap failed?) (ofEnds ends).failures := by
  induction ends with
  | nil => exact .nil
  | cons item ends ih =>
    obtain ⟨hitem, hrest⟩ := List.forall_mem_cons.1 hends
    obtain ⟨address, outcome⟩ := item
    cases hitem with
    | found haddress => exact ih hrest
    | failed hfor => exact .cons (.stage ..) (ih hrest)

/-! ### Running a batch -/

/-- A fetch that is carried out ends as it does, and leaves its history. -/
lemma attempt_run {α : Type} {fetch : Fetch.Action α} {p : Progress} {outcome : Except Failure α}
    {history : Fetch.History} (h : fetch.run p.history = Fetch.Action.ended outcome history) :
    (attempt fetch).run p = .ok outcome { p with history } := by
  simp only [attempt, EStateM.run_bind, EStateM.run_get, h]
  cases outcome with
  | ok value => rfl
  | error failure => rfl

lemma attempt_of_ok {α : Type} {fetch : Fetch.Action α} {p : Progress} {value : α}
    {history : Fetch.History} (h : fetch.run p.history = .ok value history) :
    (attempt fetch).run p = .ok (.ok value) { p with history } :=
  attempt_run (show fetch.run p.history = Fetch.Action.ended (.ok value) history from h)

lemma attempt_of_error {α : Type} {fetch : Fetch.Action α} {p : Progress} {failure : Failure}
    {history : Fetch.History} (h : fetch.run p.history = .error failure history) :
    (attempt fetch).run p = .ok (.error failure) { p with history } :=
  attempt_run (show fetch.run p.history = Fetch.Action.ended (.error failure) history from h)

/-- An address that is fetched has its place in front of the batch of the others, if its fetch
settles. -/
lemma runBatch_cons {client : Rpc.Client} {address : String} {rest : List String}
    {p p' p'' : Progress} {outcome : Except Failure Extraction}
    {ends : List (String × Except Failure Extraction)}
    (hsettles : Settles address outcome)
    (hattempt : (attempt (Fetch.extract client address)).run p = .ok outcome p')
    (hrest : (runBatch client rest).run p' = .ok (.ofEnds ends) p'') :
    (runBatch client (address :: rest)).run p =
      .ok (.ofEnds ((address, outcome) :: ends)) p'' := by
  rw [runBatch, EStateM.run_bind, hattempt]
  cases outcome with
  | ok extraction =>
    simp only [EStateM.run_bind, hrest]
    rfl
  | error failure =>
    simp only [hsettles.isStaged, if_true, EStateM.run_bind, hrest]
    rfl

/-- **A batch puts down how each fetch ends alone.**  The batch goes on behind the requests that
were sent before it, and numbers its own on from those. -/
theorem runBatch_run (hscript : ∀ reply ∈ script, ∀ breakdown, reply ≠ .broken breakdown)
    (url timeout : Json) (addresses : List String) (p : Progress) :
    ∃ (requests : List Rpc.Request) (log : List Fetch.LogLine),
      requests.map (·.number) = List.range' (p.history.sent.length + 1) requests.length ∧
      (runBatch ⟨url, timeout, .ofScript script⟩ addresses).run p =
        .ok (.ofEnds (eachAlone url timeout (script.drop p.history.sent.length) addresses))
          { p with history := ⟨requests.reverse ++ p.history.sent, log⟩ } := by
  -- The replies that are left over are those behind the requests sent so far.
  induction addresses generalizing p with
  | nil => exact ⟨[], p.history.log, rfl, rfl⟩
  | cons address rest ih =>
    obtain ⟨requests, outcome, halone, hnumbers, hsettles, hdoes⟩ :=
      Fetch.extract_alone hscript address p.history.sent
    obtain ⟨log, hrun⟩ := hdoes p.history.log
    let p' : Progress := { p with history := ⟨requests.reverse ++ p.history.sent, log⟩ }
    have hcount : p'.history.sent.length = p.history.sent.length + requests.length := by
      rw [List.length_append, List.length_reverse, Nat.add_comm]
    obtain ⟨later, log', hlater, hrest⟩ := ih p'
    refine ⟨requests ++ later, log', ?_, ?_⟩
    · rw [List.map_append, hnumbers, hlater, hcount, List.length_append, Nat.add_right_comm,
        List.range'_append_1]
    · rw [Fetch.eachAlone_cons halone, List.drop_drop, ← hcount, List.reverse_append,
        List.append_assoc]
      exact runBatch_cons hsettles (attempt_run hrun) hrest

/-! ### Reporting a batch -/

/-- Whether an output can be delivered: it is printed, or it goes to a file that can be written. -/
def Surroundings.Delivers (around : Surroundings) (output : Option String) : Prop :=
  ∀ path, given? output = some path → Files.checkWritable around.node path = .ok ()

/-- A document has been delivered: its text is printed, or is what the output file holds. -/
def Delivered (document : Json) (output : Option String) (p after : Progress) : Prop :=
  match given? output with
  | none => after = { p with printed := p.printed ++ document.render (.lines 2) ++ "\n" }
  | some path => after = { p with
      written := p.written.filter (·.1 ≠ Files.normalize path) ++
        [(Files.normalize path, document.render (.lines 2) ++ "\n")] }

lemma deliver_run {around : Surroundings} {output : Option String} (h : around.Delivers output)
    (document : Json) (p : Progress) :
    ∃ after, (deliver around document output).run p = .ok (.ok ()) after ∧
      Delivered document output p after := by
  simp only [deliver, Delivered]
  cases hpath : given? output with
  | none => exact ⟨_, rfl, rfl⟩
  | some path =>
    simp only [h path hpath]
    exact ⟨_, rfl, rfl⟩

lemma reportBatch_run {around : Surroundings} {client : Rpc.Client} {addresses : List String}
    {output : Option String} {batch : Batch} {p p' after : Progress}
    (hbatch : (runBatch client addresses).run p = .ok batch p')
    (hdeliver : (deliver around batch.toJson output).run p' = .ok (.ok ()) after) :
    (reportBatch around client addresses output).run p = .ok batch.status after := by
  rw [reportBatch, EStateM.run_bind, hbatch]
  simp only [EStateM.run_bind, hdeliver]
  rfl

lemma Batch.status_eq_one_iff {batch : Batch} : batch.status = 1 ↔ batch.failures ≠ [] := by
  rw [status]
  cases batch.failures with
  | nil => simp
  | cons failure failures => simp

lemma Batch.status_eq_zero_iff {batch : Batch} : batch.status = 0 ↔ batch.failures = [] := by
  rw [status]
  cases batch.failures with
  | nil => simp
  | cons failure failures => simp

/-- **The contracts of a batch do not get in each other's way.**  Let a batch be run from a client
that has sent nothing, and whose server replies from a script, with whatever answers, refusals and
bodies that are no answers.  The batch does not end early: each address has one place, among the
results if its fetch succeeds alone, with the replies that the addresses before it have left over,
and among the failures, with the stage and the wording, if it does not; both are in the order of the
addresses.  The requests of the whole batch are numbered from one on.  Wherever the document can be
delivered, it is delivered, and the exit status is one if there are failures and zero if there are
none. -/
theorem runBatch_isolated (hscript : ∀ reply ∈ script, ∀ breakdown, reply ≠ .broken breakdown)
    (url timeout : Json) (addresses : List String) {p : Progress} (hp : p.history.sent = []) :
    let client : Rpc.Client := ⟨url, timeout, .ofScript script⟩
    let ends := eachAlone url timeout script addresses
    ∃ batch after,
      (runBatch client addresses).run p = .ok batch after ∧
      after = { p with history := after.history } ∧
      ends.map (·.1) = addresses ∧
      List.Forall₂ TellsResult (ends.filterMap succeeded?) batch.results ∧
      List.Forall₂ TellsFailure (ends.filterMap failed?) batch.failures ∧
      batch.results.length + batch.failures.length = addresses.length ∧
      after.history.sent.reverse.map (·.body.get? "id") =
        (List.range' 1 after.history.sent.length).map (some <| .int ·) ∧
      ∀ around output, Surroundings.Delivers around output →
        ∃ status delivered,
          (reportBatch around client addresses output).run p = .ok status delivered ∧
          Delivered (.obj [("results", .arr batch.results), ("failures", .arr batch.failures)])
            output after delivered ∧
          (status = 1 ↔ batch.failures ≠ []) ∧ (status = 0 ↔ batch.failures = []) := by
  intro client ends
  obtain ⟨requests, log, hnumbers, hrun⟩ := runBatch_run hscript url timeout addresses p
  rw [hp, List.length_nil] at hnumbers hrun
  rw [List.append_nil, List.drop_zero] at hrun
  have haddresses := Fetch.map_fst_eachAlone url timeout script addresses
  have hends := Fetch.settles_eachAlone hscript url timeout addresses
  refine ⟨_, _, hrun, rfl, haddresses, Batch.tellsResults hends, Batch.tellsFailures hends,
    ?_, ?_, ?_⟩
  · rw [Batch.length_ofEnds, ← List.length_map (·.1), haddresses]
  · have hids : requests.map (·.body.get? "id") =
        (requests.map (·.number)).map fun number : Nat => some (Json.int number) := by
      rw [List.map_map]
      rfl
    rw [List.reverse_reverse, List.length_reverse, hids, hnumbers]
  · intro around output hdelivers
    obtain ⟨delivered, hdeliver, hdelivered⟩ := deliver_run hdelivers _ _
    exact ⟨_, delivered, reportBatch_run hrun hdeliver, hdelivered, Batch.status_eq_one_iff,
      Batch.status_eq_zero_iff⟩

/-- The record of code with an empty interface, bare. -/
def sampleCodeRecord : String :=
  "AAAABwAAAAClpaWlpaWlpaWlpaWlpaWlpaWlpaWlpaWlpaWlpaWlpQAAABkAYXNtAQAAAAAPDmNvbnRyYWN0c3BlY3Yw" ++
    "AAAA"

/-- The reply that gives one record, by the text of its content. -/
def replyOf (content : String) : Rpc.Reply :=
  .ofJson (.obj [("result", .obj [("entries", .arr [.obj [("xdr", .str content)]])])])

/-- A script in which one contract is served behind an error, and another one is not. -/
def sampleScript : List Rpc.Reply :=
  [.ofJson (.obj [("error", .obj [("code", .int (-32600))])]), replyOf Fetch.sampleRecord,
    replyOf sampleCodeRecord, replyOf Fetch.sampleRecord, .failed "timed out"]

/-- Addresses that fail at every stage at which the script can make them fail, and one that does
not. -/
def sampleAddresses : List String :=
  [Strkey.sampleAddress, "nonsense", Strkey.sampleAddress, Strkey.sampleAddress]

/-- Surroundings without a file, in which nothing is set. -/
def sampleSurroundings : Surroundings where
  node := fun _ => .missing
  reader := fun _ => .ok (.other false)
  environment := ⟨none, none, none⟩
  server := .ofScript []

/-- The members of a document that have certain names, as texts. -/
def membersOf (names : List String) (document : Json) : List String :=
  names.filterMap fun name => (document.get? name).map Json.display

/-- What the documents of a batch hold, as texts. -/
def Batch.shown (batch : Batch) : List (List String) × List (List String) :=
  (batch.results.map (membersOf ["contract_id", "wasm_hash", "wasm_size", "spec"]),
    batch.failures.map (membersOf ["contract_id", "stage", "error"]))

theorem runBatch_isolated_sample :
    (∀ reply ∈ sampleScript, ∀ breakdown, reply ≠ .broken breakdown) ∧
      ∃ batch after delivered,
        (runBatch ⟨.str "https://ledger.test", .int 30, .ofScript sampleScript⟩
          sampleAddresses).run ⟨"", "", [], .empty⟩ = .ok batch after ∧
        (reportBatch sampleSurroundings
          ⟨.str "https://ledger.test", .int 30, .ofScript sampleScript⟩ sampleAddresses
          none).run ⟨"", "", [], .empty⟩ = .ok 1 delivered ∧
        batch.results.length + batch.failures.length = 4 ∧
        batch.shown =
          ([["CDLZFC3SYJYDZT7K67VZ75HPJVIEUVNIXF47ZG2FB2RMQQVU2HHGCYSC",
              "a5a5a5a5a5a5a5a5a5a5a5a5a5a5a5a5a5a5a5a5a5a5a5a5a5a5a5a5a5a5a5a5", "25",
              "\x7b'name': None, 'functions': [], 'types': [], 'errors': [], " ++
                "'raw_spec_entries': []\x7d"]],
            [["CDLZFC3SYJYDZT7K67VZ75HPJVIEUVNIXF47ZG2FB2RMQQVU2HHGCYSC", "fetch_instance",
                "RPC error: -32600 - "],
              ["nonsense", "decode_address",
                "Invalid strkey length: expected 56 characters, got 8"],
              ["CDLZFC3SYJYDZT7K67VZ75HPJVIEUVNIXF47ZG2FB2RMQQVU2HHGCYSC", "fetch_code",
                "getLedgerEntries request to https://ledger.test failed: timed out"]]) := by
  have hscript : ∀ reply ∈ sampleScript, ∀ breakdown, reply ≠ .broken breakdown := by
    simp [sampleScript, replyOf, Rpc.Reply.ofJson]
  refine ⟨hscript, ?_⟩
  obtain ⟨batch, after, hrun, -, -, -, hfailures, hcount, -, hstatus⟩ :=
    runBatch_isolated hscript (.str "https://ledger.test") (.int 30) sampleAddresses
      (show (⟨"", "", [], .empty⟩ : Progress).history.sent = [] from rfl)
  obtain ⟨status, delivered, hreport, -, hone, -⟩ :=
    hstatus sampleSurroundings none nofun
  have hfailed : batch.failures ≠ [] := by
    intro hnone
    rw [hnone, List.forall₂_nil_right_iff] at hfailures
    have hsome : (eachAlone (.str "https://ledger.test") (.int 30) sampleScript
        sampleAddresses).filterMap failed? ≠ [] := by
      rw [← List.length_pos_iff]
      decide +kernel
    exact hsome hfailures
  rw [hone.2 hfailed] at hreport
  have hshown : some batch.shown =
      match (runBatch ⟨.str "https://ledger.test", .int 30, .ofScript sampleScript⟩
        sampleAddresses).run ⟨"", "", [], .empty⟩ with
      | .ok batch _ => some batch.shown
      | .error _ _ => none := by
    rw [hrun]
  exact ⟨batch, after, delivered, hrun, hreport, hcount,
    Option.some.inj (hshown.trans (by decide +kernel))⟩

end ContractInterface.Command
