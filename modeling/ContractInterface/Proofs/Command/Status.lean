/-
# With which status the command ends

Once its arguments are accepted, and if its output can be written, the command ends with status 0 or
1, or it passes a failure on.  Of the failures of fetches it passes on only that a request could not
be sent; all else that is passed on comes from around them.  The main results are

* `runBatch_ends` and `runBatch_of_breaksOff`: what becomes of a batch, from any server;
* `perform_of_passesOn`, `perform_of_fails` and `perform_cases`: how the command ends;
* `run_status_iff`: so it is known when it ends with which status, and when with none.
-/
import ContractInterface.Proofs.Command.Batch
import ContractInterface.Proofs.Command.Configuration
import ContractInterface.Proofs.Fetch.Told
import ContractInterface.Settings.Document

namespace ContractInterface

namespace Command

open Fetch (Extraction Failure History)

/-! ### Failures that are told -/

lemma status_ne_escaped {code : Nat} : ¬∃ escape, Ending.status code = .escaped escape := by
  rintro ⟨escape, h⟩
  cases h

lemma status_one_ne_zero : Ending.status 1 ≠ .status 0 :=
  fun h => Nat.one_ne_zero (Ending.status.inj h)

lemma complain_run {α : Type} (text : String) (p : Progress) :
    ∃ after, (Action.complain text : Action α).run p = .error (.status 1) after :=
  ⟨_, rfl⟩

/-- The command complains about a failed fetch, unless a request of it could not be sent. -/
lemma giveUp_run {α : Type} {failure : Failure} (h : failure.Told) (hsent : ¬failure.Unsent)
    (p : Progress) : ∃ after, (giveUp failure : Action α).run p = .error (.status 1) after := by
  cases h with
  | stage stage hstaged => exact complain_run _ p
  | exchange breakdown =>
    cases breakdown with
    | system reason => exact complain_run _ p
    | unsendable reason => exact absurd ⟨reason, rfl⟩ hsent

/-- The command passes on that a request could not be sent. -/
lemma giveUp_of_unsent {α : Type} {failure : Failure} (h : failure.Unsent) (p : Progress) :
    ∃ escape, (giveUp failure : Action α).run p = .error (.escaped escape) p := by
  obtain ⟨reason, rfl⟩ := h
  exact ⟨_, rfl⟩

/-- That a request could not be sent is no failure of a stage. -/
lemma not_isStaged_of_unsent {failure : Failure} (h : failure.Unsent) :
    failure.cause.isStaged = false := by
  obtain ⟨reason, rfl⟩ := h
  rfl

/-! ### Batches -/

/-- Of some contracts, which are fetched one after the other, the fetch of one fails. -/
inductive SomeFails (client : Rpc.Client) : History → List String → Prop where
  | here {h after : History} {address : String} {rest : List String} {failure : Failure}
    (hrun : (Fetch.extract client address).run h = .error failure after) :
    SomeFails client h (address :: rest)
  | later {h after : History} {address : String} {rest : List String} {extraction : Extraction}
    (hrun : (Fetch.extract client address).run h = .ok extraction after)
    (hrest : SomeFails client after rest) : SomeFails client h (address :: rest)

/-- Of some contracts, which are fetched one after the other, one has a request that cannot be sent,
and those before it are put down. -/
inductive BreaksOff (client : Rpc.Client) : History → List String → Prop where
  | here {h after : History} {address : String} {rest : List String} {failure : Failure}
    (hrun : (Fetch.extract client address).run h = .error failure after)
    (hunsent : failure.Unsent) : BreaksOff client h (address :: rest)
  | behindResult {h after : History} {address : String} {rest : List String}
    {extraction : Extraction} (hrun : (Fetch.extract client address).run h = .ok extraction after)
    (hrest : BreaksOff client after rest) : BreaksOff client h (address :: rest)
  | behindFailure {h after : History} {address : String} {rest : List String} {failure : Failure}
    (hrun : (Fetch.extract client address).run h = .error failure after)
    (hstaged : failure.cause.isStaged = true) (hrest : BreaksOff client after rest) :
    BreaksOff client h (address :: rest)

variable {client : Rpc.Client}

lemma not_someFails_nil {h : History} : ¬SomeFails client h [] :=
  nofun

/-- Behind a fetch that succeeds, it is one of the others that fails. -/
lemma someFails_cons_iff {h after : History} {address : String} {rest : List String}
    {extraction : Extraction} (hrun : (Fetch.extract client address).run h = .ok extraction after) :
    SomeFails client h (address :: rest) ↔ SomeFails client after rest := by
  constructor
  · rintro (hfails | ⟨hrun', hrest⟩)
    · rw [hrun] at hfails
      cases hfails
    · rw [hrun] at hrun'
      obtain ⟨-, rfl⟩ := EStateM.Result.ok.inj hrun'
      exact hrest
  · exact .later hrun

section Step

variable {address : String} {rest : List String} {p : Progress} {history : History}

/-- Behind a contract that is fetched, the batch goes on. -/
lemma runBatch_of_ok {extraction : Extraction}
    (hrun : (Fetch.extract client address).run p.history = .ok extraction history) :
    (runBatch client (address :: rest)).run p =
      (do
        let batch ← runBatch client rest
        return { batch with results := extraction.toJson :: batch.results } :
        Action Batch).run { p with history } := by
  rw [runBatch, EStateM.run_bind, attempt_of_ok hrun]

/-- Behind a contract of which a stage fails, the batch goes on. -/
lemma runBatch_of_staged {failure : Failure}
    (hrun : (Fetch.extract client address).run p.history = .error failure history)
    (hstaged : failure.cause.isStaged = true) :
    (runBatch client (address :: rest)).run p =
      (do
        let batch ← runBatch client rest
        return { batch with
          failures := failureToJson address failure.stage failure.cause :: batch.failures } :
        Action Batch).run { p with history } := by
  rw [runBatch, EStateM.run_bind, attempt_of_error hrun]
  simp only [hstaged, if_true]

/-- Any other failure ends the batch. -/
lemma runBatch_of_unstaged {failure : Failure}
    (hrun : (Fetch.extract client address).run p.history = .error failure history)
    (hstaged : failure.cause.isStaged = false) :
    (runBatch client (address :: rest)).run p =
      (giveUp failure : Action Batch).run { p with history } := by
  rw [runBatch, EStateM.run_bind, attempt_of_error hrun]
  simp only [hstaged, Bool.false_eq_true, if_false]

end Step

/-- **A batch in which a request cannot be sent is passed on.** -/
theorem runBatch_of_breaksOff {h : History} {addresses : List String}
    (hbreaks : BreaksOff client h addresses) (p : Progress) (hp : p.history = h) :
    ∃ escape after, (runBatch client addresses).run p = .error (.escaped escape) after := by
  subst hp
  generalize hh : p.history = h at hbreaks
  induction hbreaks generalizing p with
  | here hrun hunsent =>
    subst hh
    rw [runBatch_of_unstaged hrun (not_isStaged_of_unsent hunsent)]
    obtain ⟨escape, hend⟩ := giveUp_of_unsent hunsent _
    exact ⟨escape, _, hend⟩
  | @behindResult _ history _ _ _ hrun _ ih =>
    subst hh
    obtain ⟨escape, after, hrest⟩ := ih { p with history } rfl
    refine ⟨escape, after, ?_⟩
    rw [runBatch_of_ok hrun, EStateM.run_bind, hrest]
  | @behindFailure _ history _ _ _ hrun hstaged _ ih =>
    subst hh
    obtain ⟨escape, after, hrest⟩ := ih { p with history } rfl
    refine ⟨escape, after, ?_⟩
    rw [runBatch_of_staged hrun hstaged, EStateM.run_bind, hrest]

/-- **A batch puts down a failure, or ends with a complaint, exactly if some contract fails**,
unless it breaks off. -/
theorem runBatch_ends (client : Rpc.Client) (addresses : List String) (p : Progress) :
    (∃ batch after, (runBatch client addresses).run p = .ok batch after ∧
      (batch.failures ≠ [] ↔ SomeFails client p.history addresses)) ∨
    (∃ after, (runBatch client addresses).run p = .error (.status 1) after) ∧
      SomeFails client p.history addresses ∨
    BreaksOff client p.history addresses := by
  induction addresses generalizing p with
  | nil => exact .inl ⟨_, p, rfl, iff_of_false (fun h => h rfl) not_someFails_nil⟩
  | cons address rest ih =>
    cases hfetch : (Fetch.extract client address).run p.history with
    | ok extraction history =>
      rw [runBatch_of_ok hfetch, EStateM.run_bind, someFails_cons_iff hfetch]
      rcases ih { p with history } with
        ⟨batch, after, hrest, hfails⟩ | ⟨⟨after, hrest⟩, hfails⟩ | hbreaks
      · rw [hrest]
        exact .inl ⟨_, after, rfl, hfails⟩
      · rw [hrest]
        exact .inr (.inl ⟨⟨after, rfl⟩, hfails⟩)
      · exact .inr (.inr (.behindResult hfetch hbreaks))
    | error failure history =>
      have hsome : SomeFails client p.history (address :: rest) := .here hfetch
      cases hstaged : failure.cause.isStaged with
      | true =>
        rw [runBatch_of_staged hfetch hstaged, EStateM.run_bind]
        rcases ih { p with history } with
          ⟨batch, after, hrest, -⟩ | ⟨⟨after, hrest⟩, -⟩ | hbreaks
        · rw [hrest]
          exact .inl ⟨_, after, rfl, iff_of_true (List.cons_ne_nil _ _) hsome⟩
        · rw [hrest]
          exact .inr (.inl ⟨⟨after, rfl⟩, hsome⟩)
        · exact .inr (.inr (.behindFailure hfetch hstaged hbreaks))
      | false =>
        by_cases hunsent : failure.Unsent
        · exact .inr (.inr (.here hfetch hunsent))
        · obtain ⟨after, hend⟩ : ∃ after, (giveUp failure : Action Batch).run { p with history } =
              .error (.status 1) after :=
            giveUp_run (Fetch.tells_extract client address hfetch) hunsent _
          rw [runBatch_of_unstaged hfetch hstaged]
          exact .inr (.inl ⟨⟨after, hend⟩, hsome⟩)

/-! ### The parts of the command -/

/-- The ending of a run of the command. -/
def endingOf : EStateM.Result Ending Progress Nat → Ending
  | .ok code _ => .status code
  | .error ending _ => ending

section Parts

variable {around : Surroundings} {arguments : Arguments}

lemma conclude_run (hdelivers : around.Delivers arguments.output) (document : Json) (spec : Spec)
    (p : Progress) : endingOf ((conclude around arguments document spec).run p) = .status 0 := by
  obtain ⟨after, hdeliver, -⟩ := deliver_run hdelivers document p
  rw [conclude, EStateM.run_bind, hdeliver]
  cases arguments.schemas with
  | none => rfl
  | some language => rfl

/-- The code in a file has an interface, or the command complains. -/
lemma runFile_ending (hdelivers : around.Delivers arguments.output) {path : String} {wasm : Bytes}
    (hread : Files.read around.node path = .ok wasm) (p : Progress) :
    (∃ spec, Spec.extract true wasm = .ok spec) ∧
        endingOf ((runFile around arguments path).run p) = .status 0 ∨
      (∃ error, Spec.extract true wasm = .error error) ∧
        endingOf ((runFile around arguments path).run p) = .status 1 := by
  rw [runFile, hread]
  dsimp only
  cases hspec : Spec.extract true wasm with
  | ok spec =>
    have hfetch : (Fetch.specOfCode wasm).run p.history =
        Fetch.Action.ended (.ok spec) p.history := by
      rw [Fetch.specOfCode, hspec]
      rfl
    rw [EStateM.run_bind, attempt_run hfetch]
    exact .inl ⟨⟨spec, rfl⟩, conclude_run hdelivers spec.toJson spec _⟩
  | error error =>
    have hfails : (Fetch.specOfCode wasm).Does p.history.sent []
        (.error ⟨some .parseSpec, .spec error⟩) := by
      rw [Fetch.specOfCode, hspec]
      exact Fetch.Action.does_within_error .parseSpec rfl
    obtain ⟨log, hfetch⟩ := hfails p.history.log
    rw [EStateM.run_bind, attempt_run hfetch]
    exact .inr ⟨⟨error, rfl⟩, rfl⟩

/-- The command complains about a file of code that cannot be read. -/
lemma runFile_of_unread {path : String} {error : FileError}
    (hread : Files.read around.node path = .error error) (p : Progress) :
    endingOf ((runFile around arguments path).run p) = .status 1 := by
  rw [runFile, hread]
  rfl

section Contract

variable {address : String} {p : Progress} {history : History}

/-- A contract that is fetched is delivered. -/
lemma runAddress_of_ok (hdelivers : around.Delivers arguments.output) {client : Rpc.Client}
    (hcontract : arguments.contractId = some address) {extraction : Extraction}
    (hrun : (Fetch.extract client address).run p.history = .ok extraction history) :
    endingOf ((runAddress around arguments client).run p) = .status 0 := by
  have hfetch : (Fetch.extract client (some address)).run p.history = .ok extraction history := hrun
  rw [runAddress, hcontract, EStateM.run_bind, attempt_of_ok hfetch]
  exact conclude_run hdelivers extraction.toJson extraction.spec _

/-- The command gives up on a contract that is not fetched. -/
lemma runAddress_of_error {client : Rpc.Client} (hcontract : arguments.contractId = some address)
    {failure : Failure}
    (hrun : (Fetch.extract client address).run p.history = .error failure history) :
    (runAddress around arguments client).run p =
      (giveUp failure : Action Nat).run { p with history } := by
  have hfetch : (Fetch.extract client (some address)).run p.history = .error failure history := hrun
  rw [runAddress, hcontract, EStateM.run_bind, attempt_of_error hfetch]

end Contract

/-- Where no contract is named, there is none to be fetched. -/
lemma runAddress_of_none (client : Rpc.Client) (hcontract : arguments.contractId = none)
    (p : Progress) :
    endingOf ((runAddress around arguments client).run p) = .escaped (.fetch .noAddress) := by
  rw [runAddress, hcontract]
  rfl

/-- The command complains about a file of addresses that cannot be read. -/
lemma runAddresses_of_unread {client : Rpc.Client} {path : String} {error : FileError}
    (hread : Files.read around.node path = .error error) (p : Progress) :
    endingOf ((runAddresses around arguments client path).run p) = .status 1 := by
  rw [runAddresses, hread]
  rfl

/-- A file of addresses that is no text is passed on. -/
lemma runAddresses_of_notText {client : Rpc.Client} {path : String} {contents : Bytes}
    {defect : Utf8.Defect} (hread : Files.read around.node path = .ok contents)
    (htext : addressesOf contents = .error defect) (p : Progress) :
    endingOf ((runAddresses around arguments client path).run p) = .escaped (.notText defect) := by
  simp only [runAddresses, hread, htext]
  rfl

/-- The contracts of a list are all fetched, or the status tells that one was not, or a request
cannot be sent. -/
lemma runAddresses_ending (hdelivers : around.Delivers arguments.output) (client : Rpc.Client)
    {path : String} {contents : Bytes} {addresses : List String}
    (hread : Files.read around.node path = .ok contents)
    (haddresses : addressesOf contents = .ok addresses) (p : Progress) :
    ¬SomeFails client p.history addresses ∧
        endingOf ((runAddresses around arguments client path).run p) = .status 0 ∨
      SomeFails client p.history addresses ∧
        endingOf ((runAddresses around arguments client path).run p) = .status 1 ∨
      BreaksOff client p.history addresses := by
  simp only [runAddresses, hread, haddresses]
  rcases runBatch_ends client addresses p with
    ⟨batch, after, hbatch, hfails⟩ | ⟨⟨after, hbatch⟩, hfails⟩ | hbreaks
  · obtain ⟨delivered, hdeliver, -⟩ := deliver_run hdelivers batch.toJson after
    rw [reportBatch_run hbatch hdeliver, ← hfails]
    by_cases hnone : batch.failures = []
    · refine .inl ⟨not_not.2 hnone, ?_⟩
      rw [endingOf, Batch.status_eq_zero_iff.2 hnone]
    · refine .inr (.inl ⟨hnone, ?_⟩)
      rw [endingOf, Batch.status_eq_one_iff.2 hnone]
  · refine .inr (.inl ⟨hfails, ?_⟩)
    rw [reportBatch, EStateM.run_bind, hbatch]
    rfl
  · exact .inr (.inr hbreaks)

/-- A list with a contract whose request cannot be sent is passed on. -/
lemma runAddresses_of_breaksOff {client : Rpc.Client} {path : String} {contents : Bytes}
    {addresses : List String} (hread : Files.read around.node path = .ok contents)
    (haddresses : addressesOf contents = .ok addresses) {p : Progress}
    (hbreaks : BreaksOff client p.history addresses) :
    ∃ escape,
      endingOf ((runAddresses around arguments client path).run p) = .escaped escape := by
  obtain ⟨escape, after, hbatch⟩ := runBatch_of_breaksOff hbreaks p rfl
  refine ⟨escape, ?_⟩
  simp only [runAddresses, hread, haddresses]
  rw [reportBatch, EStateM.run_bind, hbatch]
  rfl

end Parts

/-! ### The whole command -/

/-- What is around the command once its log file is open, if one is named. -/
def Surroundings.logged (around : Surroundings) (logFile : Option String) :
    Except FileError Surroundings :=
  match given? logFile with
  | none => .ok around
  | some path =>
    match Files.checkWritable around.node (Files.straighten path) with
    | .error error => .error error
    | .ok () =>
      if around.node (Files.straighten path) = .missing then
        .ok { around with node := Files.withFile around.node (Files.straighten path) }
      else .ok around

/-- Opening the log file sends nothing; a log file that cannot be opened is passed on. -/
lemma openLog_run (around : Surroundings) (logFile : Option String) (p : Progress) :
    ∃ after, after.history = p.history ∧
      (openLog around logFile).run p =
        match around.logged logFile with
        | .ok around' => .ok around' after
        | .error error => .error (.escaped (.file error)) after := by
  rw [openLog, Surroundings.logged]
  cases given? logFile with
  | none => exact ⟨p, rfl, rfl⟩
  | some path =>
    dsimp only
    cases Files.checkWritable around.node (Files.straighten path) with
    | error error => exact ⟨p, rfl, rfl⟩
    | ok done =>
      dsimp only
      split_ifs
      · let created := (Files.straighten path, "")
        exact ⟨{ p with written := p.written.filter (·.1 ≠ created.1) ++ [created] }, rfl, rfl⟩
      · exact ⟨p, rfl, rfl⟩

/-- The log file is open, and there is a configuration. -/
structure Ready (around : Surroundings) (arguments : Arguments) (logged : Surroundings)
    (config : Config) : Prop where
  logged_eq : around.logged arguments.logFile = .ok logged
  configure_eq : configure logged arguments = .ok config

/-- The command passes a failure on: it cannot open its log file, does not know of an error of its
configuration, reads a list of addresses that is no text, is not told what to read, or has a request
that cannot be sent. -/
inductive PassesOn (around : Surroundings) (arguments : Arguments) : Prop where
  | logFile {error : FileError} (hlog : around.logged arguments.logFile = .error error)
  | configuration {logged : Surroundings} (hlog : around.logged arguments.logFile = .ok logged)
    (h : Oversight logged arguments)
  | notText {logged : Surroundings} {config : Config} {path : String} {contents : Bytes}
    {defect : Utf8.Defect} (hready : Ready around arguments logged config)
    (hwasm : given? arguments.wasm = none) (hpath : given? arguments.addresses = some path)
    (hread : Files.read logged.node path = .ok contents)
    (htext : Utf8.decode contents = .error defect)
  | noSource {logged : Surroundings} {config : Config}
    (hready : Ready around arguments logged config) (hwasm : given? arguments.wasm = none)
    (haddresses : given? arguments.addresses = none) (hcontract : arguments.contractId = none)
  | unsentListed {logged : Surroundings} {config : Config} {path : String} {contents : Bytes}
    {addresses : List String} (hready : Ready around arguments logged config)
    (hwasm : given? arguments.wasm = none) (hpath : given? arguments.addresses = some path)
    (hread : Files.read logged.node path = .ok contents)
    (haddresses : addressesOf contents = .ok addresses)
    (hbreaks : BreaksOff (clientOf logged config) .empty addresses)
  | unsent {logged : Surroundings} {config : Config} {address : String} {failure : Failure}
    {after : History} (hready : Ready around arguments logged config)
    (hwasm : given? arguments.wasm = none) (haddresses : given? arguments.addresses = none)
    (hcontract : arguments.contractId = some address)
    (hfetch : (Fetch.extract (clientOf logged config) address).run .empty = .error failure after)
    (hunsent : failure.Unsent)

/-- There is no configuration, the file that is named cannot be read, or the interface of a contract
is not found. -/
inductive Fails (around : Surroundings) (arguments : Arguments) : Prop where
  | configuration {logged : Surroundings} {error : ConfigError}
    (hlog : around.logged arguments.logFile = .ok logged)
    (hconfigure : configure logged arguments = .error error)
  | unreadCode {logged : Surroundings} {config : Config} {path : String} {error : FileError}
    (hready : Ready around arguments logged config) (hwasm : given? arguments.wasm = some path)
    (hread : Files.read logged.node path = .error error)
  | noInterface {logged : Surroundings} {config : Config} {path : String} {wasm : Bytes}
    {error : Spec.ExtractionError} (hready : Ready around arguments logged config)
    (hwasm : given? arguments.wasm = some path) (hread : Files.read logged.node path = .ok wasm)
    (hspec : Spec.extract true wasm = .error error)
  | unreadList {logged : Surroundings} {config : Config} {path : String} {error : FileError}
    (hready : Ready around arguments logged config) (hwasm : given? arguments.wasm = none)
    (hpath : given? arguments.addresses = some path)
    (hread : Files.read logged.node path = .error error)
  | listed {logged : Surroundings} {config : Config} {path : String} {contents : Bytes}
    {addresses : List String} (hready : Ready around arguments logged config)
    (hwasm : given? arguments.wasm = none) (hpath : given? arguments.addresses = some path)
    (hread : Files.read logged.node path = .ok contents)
    (haddresses : addressesOf contents = .ok addresses)
    (hfails : SomeFails (clientOf logged config) .empty addresses)
  | contract {logged : Surroundings} {config : Config} {address : String} {failure : Failure}
    {after : History} (hready : Ready around arguments logged config)
    (hwasm : given? arguments.wasm = none) (haddresses : given? arguments.addresses = none)
    (hcontract : arguments.contractId = some address)
    (hfetch : (Fetch.extract (clientOf logged config) address).run .empty = .error failure after)

section Whole

variable {around logged : Surroundings} {arguments : Arguments}

lemma addressesOf_eq_error_iff {contents : Bytes} {defect : Utf8.Defect} :
    addressesOf contents = .error defect ↔ Utf8.decode contents = .error defect := by
  rw [addressesOf]
  cases Utf8.decode contents with
  | ok text => exact iff_of_false nofun nofun
  | error found =>
    constructor
    · exact fun h => congrArg Except.error (Except.error.inj h)
    · exact fun h => congrArg Except.error (Except.error.inj h)

lemma perform_of_unlogged {error : FileError}
    (hlog : around.logged arguments.logFile = .error error) (p : Progress) :
    endingOf ((perform around arguments).run p) = .escaped (.file error) := by
  obtain ⟨after, -, hrun⟩ := openLog_run around arguments.logFile p
  rw [hlog] at hrun
  rw [perform, EStateM.run_bind, hrun]
  rfl

lemma perform_of_unconfigured {error : ConfigError}
    (hlog : around.logged arguments.logFile = .ok logged)
    (hconfigure : configure logged arguments = .error error) (p : Progress) :
    endingOf ((perform around arguments).run p) =
      if reports error then .status 1 else .escaped (.config error) := by
  obtain ⟨after, -, hrun⟩ := openLog_run around arguments.logFile p
  rw [hlog] at hrun
  rw [perform, EStateM.run_bind, hrun]
  simp only [hconfigure]
  split_ifs <;> rfl

lemma perform_of_ready {config : Config} (hready : Ready around arguments logged config)
    (p : Progress) :
    ∃ after, after.history = p.history ∧
      (perform around arguments).run p =
        (carryOut logged arguments (clientOf logged config)).run after := by
  obtain ⟨after, hhistory, hrun⟩ := openLog_run around arguments.logFile p
  rw [hready.logged_eq] at hrun
  refine ⟨after, hhistory, ?_⟩
  rw [perform, EStateM.run_bind, hrun]
  simp only [hready.configure_eq]

lemma carryOut_of_wasm {client : Rpc.Client} {path : String}
    (hwasm : given? arguments.wasm = some path) :
    carryOut around arguments client = runFile around arguments path := by
  rw [carryOut, hwasm]

lemma carryOut_of_addresses {client : Rpc.Client} {path : String}
    (hwasm : given? arguments.wasm = none) (hpath : given? arguments.addresses = some path) :
    carryOut around arguments client = runAddresses around arguments client path := by
  rw [carryOut, hwasm, hpath]

lemma carryOut_of_none {client : Rpc.Client} (hwasm : given? arguments.wasm = none)
    (haddresses : given? arguments.addresses = none) :
    carryOut around arguments client = runAddress around arguments client := by
  rw [carryOut, hwasm, haddresses]

/-- What is passed on ends the command. -/
lemma perform_of_passesOn {p : Progress} (hp : p.history = .empty) (h : PassesOn around arguments) :
    ∃ escape, endingOf ((perform around arguments).run p) = .escaped escape := by
  cases h with
  | logFile hlog => exact ⟨_, perform_of_unlogged hlog p⟩
  | configuration hlog h =>
    obtain ⟨error, hconfigure, hreports⟩ := configure_passesOn_iff.2 h
    refine ⟨.config error, ?_⟩
    rw [perform_of_unconfigured hlog hconfigure, hreports]
    rfl
  | notText hready hwasm hpath hread htext =>
    obtain ⟨after, -, hrun⟩ := perform_of_ready hready p
    rw [hrun, carryOut_of_addresses hwasm hpath]
    exact ⟨_, runAddresses_of_notText hread (addressesOf_eq_error_iff.2 htext) after⟩
  | noSource hready hwasm haddresses hcontract =>
    obtain ⟨after, -, hrun⟩ := perform_of_ready hready p
    rw [hrun, carryOut_of_none hwasm haddresses]
    exact ⟨_, runAddress_of_none _ hcontract after⟩
  | unsentListed hready hwasm hpath hread haddresses hbreaks =>
    obtain ⟨after, hhistory, hrun⟩ := perform_of_ready hready p
    rw [hrun, carryOut_of_addresses hwasm hpath]
    rw [← hp, ← hhistory] at hbreaks
    exact runAddresses_of_breaksOff hread haddresses hbreaks
  | unsent hready hwasm haddresses hcontract hfetch hunsent =>
    obtain ⟨after, hhistory, hrun⟩ := perform_of_ready hready p
    rw [← hp, ← hhistory] at hfetch
    obtain ⟨escape, hend⟩ := giveUp_of_unsent hunsent _
    refine ⟨escape, ?_⟩
    rw [hrun, carryOut_of_none hwasm haddresses, runAddress_of_error hcontract hfetch, hend]
    rfl

variable {p : Progress}
  (hdelivers : ∀ logged, around.logged arguments.logFile = .ok logged →
    logged.Delivers arguments.output)

include hdelivers

/-- What fails and is not passed on ends the command with status 1. -/
lemma perform_of_fails (hp : p.history = .empty) (h : Fails around arguments) :
    PassesOn around arguments ∨ endingOf ((perform around arguments).run p) = .status 1 := by
  cases h with
  | @configuration logged error hlog hconfigure =>
    cases hreports : reports error with
    | false =>
      exact .inl (.configuration hlog (configure_passesOn_iff.1 ⟨error, hconfigure, hreports⟩))
    | true =>
      right
      rw [perform_of_unconfigured hlog hconfigure, hreports]
      rfl
  | unreadCode hready hwasm hread =>
    obtain ⟨after, -, hrun⟩ := perform_of_ready hready p
    rw [hrun, carryOut_of_wasm hwasm]
    exact .inr (runFile_of_unread hread after)
  | noInterface hready hwasm hread hspec =>
    obtain ⟨after, -, hrun⟩ := perform_of_ready hready p
    rw [hrun, carryOut_of_wasm hwasm]
    rcases runFile_ending (hdelivers _ hready.logged_eq) hread after with
      ⟨⟨spec, hspec'⟩, -⟩ | ⟨-, hend⟩
    · rw [hspec] at hspec'
      cases hspec'
    · exact .inr hend
  | unreadList hready hwasm hpath hread =>
    obtain ⟨after, -, hrun⟩ := perform_of_ready hready p
    rw [hrun, carryOut_of_addresses hwasm hpath]
    exact .inr (runAddresses_of_unread hread after)
  | listed hready hwasm hpath hread haddresses hfails =>
    obtain ⟨after, hhistory, hrun⟩ := perform_of_ready hready p
    rw [hrun, carryOut_of_addresses hwasm hpath]
    rcases runAddresses_ending (hdelivers _ hready.logged_eq) _ hread haddresses after with
      ⟨hnone, -⟩ | ⟨-, hend⟩ | hbreaks
    · rw [hhistory, hp] at hnone
      exact absurd hfails hnone
    · exact .inr hend
    · rw [hhistory, hp] at hbreaks
      exact .inl (.unsentListed hready hwasm hpath hread haddresses hbreaks)
  | @contract _ _ _ failure _ hready hwasm haddresses hcontract hfetch =>
    by_cases hunsent : failure.Unsent
    · exact .inl (.unsent hready hwasm haddresses hcontract hfetch hunsent)
    right
    have htold : failure.Told := Fetch.tells_extract _ _ hfetch
    obtain ⟨after, hhistory, hrun⟩ := perform_of_ready hready p
    rw [← hp, ← hhistory] at hfetch
    obtain ⟨after', hend⟩ := giveUp_run htold hunsent _
    rw [hrun, carryOut_of_none hwasm haddresses, runAddress_of_error hcontract hfetch, hend]
    rfl

/-- The command passes something on, or something fails, or it ends with status 0. -/
lemma perform_cases (hp : p.history = .empty) :
    PassesOn around arguments ∨ Fails around arguments ∨
      endingOf ((perform around arguments).run p) = .status 0 := by
  cases hlog : around.logged arguments.logFile with
  | error error => exact .inl (.logFile hlog)
  | ok logged =>
    cases hconfigure : configure logged arguments with
    | error error => exact .inr (.inl (.configuration hlog hconfigure))
    | ok config =>
      have hready : Ready around arguments logged config := ⟨hlog, hconfigure⟩
      obtain ⟨after, hhistory, hrun⟩ := perform_of_ready hready p
      rw [hp] at hhistory
      rw [hrun]
      cases hwasm : given? arguments.wasm with
      | some path =>
        cases hread : Files.read logged.node path with
        | error error => exact .inr (.inl (.unreadCode hready hwasm hread))
        | ok wasm =>
          rw [carryOut_of_wasm hwasm]
          rcases runFile_ending (hdelivers _ hlog) hread after with
            ⟨-, hend⟩ | ⟨⟨error, hspec⟩, -⟩
          · exact .inr (.inr hend)
          · exact .inr (.inl (.noInterface hready hwasm hread hspec))
      | none =>
        cases haddresses : given? arguments.addresses with
        | some path =>
          cases hread : Files.read logged.node path with
          | error error => exact .inr (.inl (.unreadList hready hwasm haddresses hread))
          | ok contents =>
            cases hlist : addressesOf contents with
            | error defect =>
              exact .inl (.notText hready hwasm haddresses hread
                (addressesOf_eq_error_iff.1 hlist))
            | ok addresses =>
              rw [carryOut_of_addresses hwasm haddresses]
              rcases runAddresses_ending (hdelivers _ hlog) _ hread hlist after with
                ⟨-, hend⟩ | ⟨hfails, -⟩ | hbreaks
              · exact .inr (.inr hend)
              · rw [hhistory] at hfails
                exact .inr (.inl (.listed hready hwasm haddresses hread hlist hfails))
              · rw [hhistory] at hbreaks
                exact .inl (.unsentListed hready hwasm haddresses hread hlist hbreaks)
        | none =>
          cases hcontract : arguments.contractId with
          | none => exact .inl (.noSource hready hwasm haddresses hcontract)
          | some address =>
            rw [carryOut_of_none hwasm haddresses]
            cases hfetch : (Fetch.extract (clientOf logged config) address).run .empty with
            | ok extraction history =>
              rw [← hhistory] at hfetch
              exact .inr (.inr (runAddress_of_ok (hdelivers _ hlog) hcontract hfetch))
            | error failure history =>
              exact .inr (.inl (.contract hready hwasm haddresses hcontract hfetch))

end Whole

/-- Once the arguments are accepted, the command ends as what they ask for does. -/
lemma run_ending {words : List String} {arguments : Arguments}
    (hparse : Arguments.parse words = .ok arguments) (around : Surroundings) :
    (run around words).ending =
      endingOf ((perform around arguments).run ⟨"", "", [], .empty⟩) := by
  simp only [run, hparse]
  cases (perform around arguments).run ⟨"", "", [], .empty⟩ <;> rfl

/-- The status with which the command ends, if it ends with one. -/
def Ending.status? : Ending → Option Nat
  | .status code => some code
  | _ => none

lemma Ending.status?_eq_some_iff {ending : Ending} {code : Nat} :
    ending.status? = some code ↔ ending = .status code := by
  cases ending <;> simp [status?]

/-- A folder with one file, and a server that is gone. -/
def holding (path : String) (contents : Bytes) : Surroundings where
  node := Files.ofList [(path, contents)]
  reader := Settings.flatReader
  environment := ⟨none, none, none⟩
  server := .ofScript []

/-- A network that no request reaches, and to which none is sent that is to wait for less than no
time. -/
def unreachable : Rpc.Server
  | [] => .failed "nothing was asked"
  | request :: _ =>
    if request.timeout.quoted.startsWith "-" then .broken (.unsendable "no such timeout")
    else .failed "no connection"

end Command

end ContractInterface
