/-
# Fetching from a script of replies

A script fixes what a server replies, one reply for each request, whatever is asked; when the
replies have run out it refuses.  A fetch behind other requests then reads the replies that these
have left over, and ends as if it were the first to read them.  The main results are

* `Course.numbered`: a fetch numbers its requests on from those before it;
* `Course.settles`: a fetch ends with the interface at its address, or a stage of it fails;
* `extract_alone`: a fetch behind other requests ends as it does alone, with the replies that are
  left over, and takes as many of them.
-/
import ContractInterface.Proofs.Fetch.Staging

namespace ContractInterface

namespace Rpc

/-- The server that gives the replies of a script one after the other, and then refuses. -/
def Server.ofScript (script : List Reply) : Server := fun sent =>
  script.getD (sent.length - 1) (.failed "no scripted response")

variable {url timeout : Json} {script : List Reply}

/-- A script replies if none of its replies is a failure outside the exchange. -/
lemma Client.replies_ofScript (hscript : ∀ reply ∈ script, ∀ breakdown, reply ≠ .broken breakdown) :
    (⟨url, timeout, .ofScript script⟩ : Client).Replies := by
  intro sent breakdown
  change script.getD (sent.length - 1) (.failed "no scripted response") ≠ .broken breakdown
  rw [List.getD_eq_getElem?_getD]
  cases hreply : script[sent.length - 1]? with
  | none => nofun
  | some reply => exact hscript reply (List.mem_of_getElem? hreply) breakdown

/-- What a client reads does not depend on what was sent before, but for the replies that are
gone. -/
lemma Client.entries_ofScript (url timeout : Json) (script : List Reply) {α : Type} [Label α]
    {sent before later : List Request} (hsent : sent.length = before.length + later.length)
    (keys : List α) :
    (entries ⟨url, timeout, .ofScript script⟩ sent keys).1 =
      (entries ⟨url, timeout, .ofScript (script.drop before.length)⟩ later keys).1 := by
  have hreply : Server.ofScript script (next ⟨url, timeout, .ofScript script⟩ sent
        "getLedgerEntries" (.obj [("keys", .arr (keys.map Label.toJson))]) :: sent) =
      Server.ofScript (script.drop before.length)
        (next ⟨url, timeout, .ofScript (script.drop before.length)⟩ later "getLedgerEntries"
          (.obj [("keys", .arr (keys.map Label.toJson))]) :: later) := by
    simp only [Server.ofScript, List.length_cons, Nat.add_sub_cancel,
      List.getD_eq_getElem?_getD, List.getElem?_drop, hsent]
  simp only [entries, call, hreply]
  -- The two requests differ in their numbers only, which no result depends on.
  cases Server.ofScript (script.drop before.length) _ <;> rfl

end Rpc

namespace Fetch

open Rpc (Client Reply Request)

variable {client : Client} {address : String} {sent requests : List Request}
  {outcome : Except Failure Extraction}

/-- A fetch numbers its requests on from those before it. -/
lemma Course.numbered (h : Course client address sent requests outcome) :
    requests.map (·.number) = List.range' (sent.length + 1) requests.length := by
  cases h with
  | noAddress hdecode => rfl
  | noInstance hdecode hinstance => rfl
  | noCode hdecode hfirst hinstance hcode | coded hdecode hfirst hinstance hcode =>
    subst hfirst
    rfl

/-- The ends of a fetch to which no exchange breaks down: the interface at the address, or the
failure of a stage for one of its causes. -/
inductive Settles (address : String) : Except Failure Extraction → Prop where
  | found {extraction : Extraction} (haddress : extraction.address = address) :
    Settles address (.ok extraction)
  | failed {stage : Stage} {cause : Cause} (hfor : stage.FailsFor cause) :
    Settles address (.error ⟨some stage, cause⟩)

lemma Settles.isStaged {failure : Failure} (h : Settles address (.error failure)) :
    failure.cause.isStaged = true := by
  cases h with
  | failed hfor => exact hfor.isStaged

/-- A fetch from a server that replies settles. -/
lemma Course.settles (hreplies : client.Replies)
    (h : Course client address sent requests outcome) : Settles address outcome := by
  rcases h.ends hreplies with ⟨extraction, rfl, -⟩ | ⟨stage, cause, rfl, -, hfor⟩
  · exact .found h.address_eq
  · exact .failed hfor

section Transfer

variable {client' : Client} {sent' : List Request}

/-- A lookup ends as one that reads the same. -/
lemma LooksUp.transfer {α : Type} {what : String} {key : Ledger.Key}
    {take : String → Except Ledger.EntryError α} {outcome : Except Cause α}
    (hsame : (client'.entries sent' [key.toText]).1 = (client.entries sent [key.toText]).1)
    (h : LooksUp client sent what key take outcome) :
    LooksUp client' sent' what key take outcome := by
  cases h with
  | unanswered hreply => exact .unanswered (hsame.trans hreply)
  | missing hreply => exact .missing (hsame.trans hreply)
  | refused hreply htake => exact .refused (hsame.trans hreply) htake
  | found hreply htake => exact .found (hsame.trans hreply) htake

/-- A fetch ends as one that reads the same after the same number of its own requests, and sends as
many. -/
lemma Course.transfer
    (hsame : ∀ earlier earlier' : List Request, earlier.length = earlier'.length →
      ∀ key : Ledger.Key, (client'.entries (earlier' ++ sent') [key.toText]).1 =
        (client.entries (earlier ++ sent) [key.toText]).1)
    (h : Course client address sent requests outcome) :
    ∃ requests', Course client' address sent' requests' outcome ∧
      requests'.length = requests.length := by
  cases h with
  | noAddress hdecode => exact ⟨[], .noAddress hdecode, rfl⟩
  | noInstance hdecode hinstance =>
    exact ⟨_, .noInstance hdecode (hinstance.transfer (hsame [] [] rfl _)), rfl⟩
  | @noCode contract hash cause first hdecode hfirst hinstance hcode =>
    let first' := request client' sent' (.contractInstance contract)
    exact ⟨_, .noCode hdecode rfl (hinstance.transfer (hsame [] [] rfl _))
      (hcode.transfer (hsame [first] [first'] rfl _)), rfl⟩
  | @coded contract hash wasm first hdecode hfirst hinstance hcode =>
    let first' := request client' sent' (.contractInstance contract)
    exact ⟨_, .coded hdecode rfl (hinstance.transfer (hsame [] [] rfl _))
      (hcode.transfer (hsame [first] [first'] rfl _)), rfl⟩

end Transfer

/-! ### Fetches alone -/

/-- How a fetch ends that is the first to read a script, and the number of replies it takes. -/
def alone (url timeout : Json) (script : List Reply) (address : String) :
    Except Failure Extraction × Nat :=
  match (extract ⟨url, timeout, .ofScript script⟩ address).run .empty with
  | .ok extraction after => (.ok extraction, after.sent.length)
  | .error failure after => (.error failure, after.sent.length)

/-- How the fetches of some addresses end, each of them alone, with the replies that those before
it have left over. -/
def eachAlone (url timeout : Json) :
    List Reply → List String → List (String × Except Failure Extraction)
  | _, [] => []
  | script, address :: rest =>
    let (outcome, taken) := alone url timeout script address
    (address, outcome) :: eachAlone url timeout (script.drop taken) rest

lemma map_fst_eachAlone (url timeout : Json) (script : List Reply) (addresses : List String) :
    (eachAlone url timeout script addresses).map (·.1) = addresses := by
  induction addresses generalizing script with
  | nil => rfl
  | cons address rest ih =>
    rw [eachAlone, List.map_cons, ih]

variable {url timeout : Json} {script : List Reply}

lemma eachAlone_cons {address : String} {outcome : Except Failure Extraction} {taken : Nat}
    (h : alone url timeout script address = (outcome, taken)) (rest : List String) :
    eachAlone url timeout script (address :: rest) =
      (address, outcome) :: eachAlone url timeout (script.drop taken) rest := by
  rw [eachAlone, h]

/-- **A fetch reads the replies that are left over, and no others.**  Behind other requests a fetch
ends as it does alone with the replies that these requests have left over; it sends as many requests
as it takes replies alone, and numbers them on. -/
theorem extract_alone (hscript : ∀ reply ∈ script, ∀ breakdown, reply ≠ .broken breakdown)
    (address : String) (sent : List Request) :
    ∃ requests outcome,
      alone url timeout (script.drop sent.length) address = (outcome, requests.length) ∧
      requests.map (·.number) = List.range' (sent.length + 1) requests.length ∧
      Settles address outcome ∧
      (extract ⟨url, timeout, .ofScript script⟩ address).Does sent requests outcome := by
  have hreplies : (⟨url, timeout, .ofScript script⟩ : Client).Replies :=
    Client.replies_ofScript hscript
  have hreplies' : (⟨url, timeout, .ofScript (script.drop sent.length)⟩ : Client).Replies :=
    Client.replies_ofScript fun reply hreply => hscript reply (List.mem_of_mem_drop hreply)
  obtain ⟨requests, outcome, hcourse, hdoes⟩ := extract_course hreplies address sent
  obtain ⟨requests', hcourse', hcount⟩ :
      ∃ requests', Course ⟨url, timeout, .ofScript (script.drop sent.length)⟩ address []
        requests' outcome ∧ requests'.length = requests.length := by
    refine hcourse.transfer fun earlier earlier' hlength key => ?_
    refine (Client.entries_ofScript url timeout script ?_ _).symm
    rw [List.length_append, List.append_nil, hlength, Nat.add_comm]
  refine ⟨requests, outcome, ?_, hcourse.numbered, hcourse.settles hreplies, hdoes⟩
  obtain ⟨log, hrun⟩ := hcourse'.does hreplies' []
  rw [List.append_nil] at hrun
  cases outcome with
  | ok extraction =>
    simp only [alone, History.empty, hrun, Action.ended, List.length_reverse, hcount]
  | error failure =>
    simp only [alone, History.empty, hrun, Action.ended, List.length_reverse, hcount]

/-- A fetch alone settles. -/
lemma settles_alone (hscript : ∀ reply ∈ script, ∀ breakdown, reply ≠ .broken breakdown)
    (url timeout : Json) (address : String) :
    Settles address (alone url timeout script address).1 := by
  obtain ⟨requests, outcome, halone, -, hsettles, -⟩ :=
    @extract_alone url timeout script hscript address []
  rw [List.length_nil, List.drop_zero] at halone
  rwa [halone]

/-- Each of the fetches of some addresses settles. -/
lemma settles_eachAlone (hscript : ∀ reply ∈ script, ∀ breakdown, reply ≠ .broken breakdown)
    (url timeout : Json) (addresses : List String) :
    ∀ item ∈ eachAlone url timeout script addresses, Settles item.1 item.2 := by
  induction addresses generalizing script with
  | nil => exact fun _ h => absurd h List.not_mem_nil
  | cons address rest ih =>
    rw [eachAlone, List.forall_mem_cons]
    exact ⟨settles_alone hscript url timeout address,
      ih fun reply hreply => hscript reply (List.mem_of_mem_drop hreply)⟩

end Fetch

end ContractInterface
