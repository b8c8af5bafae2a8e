/-
# Fetching from an honest ledger

A ledger holds records under the texts of their keys.  A server is honest about it if it answers
each lookup of a record that is held with that record, bare or in an envelope, and with whatever
else it likes to say about it.  The main results are

* `Rpc.Server.entries_of_answersFrom`: what a client reads of such an answer;
* `extract_honest`: the interface of a contract is fetched if the ledger holds the instance of the
  contract and the code that the instance names.
-/
import ContractInterface.Proofs.Bytes.Hex
import ContractInterface.Proofs.Fetch.Staging
import ContractInterface.Proofs.Ledger.Served
import ContractInterface.Proofs.Spec.RawEntries
import ContractInterface.Proofs.Strkey.Inverse

namespace ContractInterface

/-! ### Honest servers -/

namespace Ledger

/-- What a ledger holds: under the text of a key, the record of that key. -/
abbrev Store := String → Option EntryData

end Ledger

namespace Rpc

open Ledger (EntryData Served Store)

/-- A reply that gives one record, by the text of its content.  It may say more, about the record
and about itself, but no error. -/
def Reply.Gives (reply : Reply) (content : String) : Prop :=
  ∃ envelope result item, reply.Brings (.obj envelope) ∧
    (envelope.lookup "error" = none ∨ envelope.lookup "error" = some .null) ∧
    envelope.lookup "result" = some (.obj result) ∧
    result.lookup "entries" = some (.arr [.obj item]) ∧
    item.lookup "xdr" = some (.str content)

/-- A server that answers from a ledger: asked for the record under a key that the ledger holds one
for, it gives that record, in one of the two forms.  Nothing is said about its other replies. -/
def Server.AnswersFrom (server : Server) (store : Store) : Prop :=
  ∀ (request : Request) (sent : List Request) (key : String) (data : EntryData),
    request.method = "getLedgerEntries" →
      request.params = .obj [("keys", .arr [.str key])] → store key = some data →
        ∃ served : Served, (server (request :: sent)).Gives (Base64.encode (served.encode data))

lemma resultOf_of_gives {reply : Reply} {content : String} (h : reply.Gives content)
    (request : Request) : ∃ result item, reply.result request = .ok (.obj result) ∧
      result.lookup "entries" = some (.arr [.obj item]) ∧
      item.lookup "xdr" = some (.str content) := by
  obtain ⟨envelope, result, item, hbrings, herror, hresult, hentries, hcontent⟩ := h
  exact ⟨result, item, Reply.result_of_grants ⟨envelope, hbrings, herror, hresult⟩, hentries,
    hcontent⟩

lemma entriesOf_of_lookup {result item : List (String × Json)} {content : String}
    (hentries : result.lookup "entries" = some (.arr [.obj item]))
    (hcontent : item.lookup "xdr" = some (.str content)) :
    ∃ entry, entriesOf (.obj result) = .ok [entry] ∧ entry.content = content := by
  let entry : Entry := {
    content
    key := (item.lookup "key").getD (.str "")
    lastModified := (item.lookup "lastModifiedLedgerSeq").getD .null
    liveUntil := (item.lookup "liveUntilLedgerSeq").getD .null }
  have hreads : entry.Reads (.obj item) := ⟨item, rfl, hcontent, rfl, rfl, rfl⟩
  refine ⟨entry, entriesOf_eq_ok_iff.2 ?_, rfl⟩
  rw [hentries]
  exact .items (.cons hreads .nil)

/-- A client that asks for a record the ledger holds reads that record alone. -/
lemma Server.entries_of_answersFrom {client : Client} {store : Store}
    (hserver : client.server.AnswersFrom store) {key : String} {data : EntryData}
    (hdata : store key = some data) (sent : List Request) :
    ∃ (served : Served) (entry : Entry), (client.entries sent [key]).1 = .ok [entry] ∧
      entry.content = Base64.encode (served.encode data) := by
  let request := client.next sent "getLedgerEntries" (.obj [("keys", .arr [.str key])])
  obtain ⟨served, hgives⟩ := hserver request sent key data rfl rfl hdata
  obtain ⟨result, item, hresult, hentries, hcontent⟩ := resultOf_of_gives hgives request
  obtain ⟨entry, hentry, hsame⟩ := entriesOf_of_lookup hentries hcontent
  refine ⟨served, entry, ?_, hsame⟩
  change ((client.server (request :: sent)).result request).bind entriesOf = .ok [entry]
  rw [hresult]
  exact hentry

end Rpc

/-! ### The two lookups -/

namespace Fetch

open Rpc (Client Request)
open Ledger (ContractCode ContractData EntryData Key Served Store)

variable {α : Type} {client : Client} {sent : List Request} {what : String} {key : Key}
  {take : String → Except Ledger.EntryError α} {store : Store}

/-- The lookup of a record that the ledger holds finds what can be taken from both its forms. -/
lemma looksUp_of_answersFrom (hserver : client.server.AnswersFrom store) {data : EntryData}
    (hdata : store key.toText = some data) {value : α}
    (htake : ∀ served : Served, take (Base64.encode (served.encode data)) = .ok value) :
    LooksUp client sent what key take (.ok value) := by
  obtain ⟨served, entry, hreply, hcontent⟩ := Rpc.Server.entries_of_answersFrom hserver hdata sent
  refine .found hreply ?_
  rw [hcontent]
  exact htake served

/-- The code that an instance names is read from either form of its record. -/
lemma codeHashOfText_served {data : ContractData} (hfits : data.Fits) {hash : Hash}
    {storage : Option (List (Ledger.Value × Ledger.Value))}
    (hval : data.val = .contractInstance (.wasm hash) storage) (served : Served) :
    Ledger.codeHashOfText (Base64.encode (served.encode (.contractData data))) = .ok hash := by
  have hread := EntryData.ofText_encode (show (EntryData.contractData data).Fits from hfits) served
  rw [Ledger.codeHashOfText, hread]
  change (EntryData.contractData data).codeHash = .ok hash
  rw [EntryData.codeHash, hval]

/-- Code is read from either form of its record. -/
lemma codeOfText_served {record : ContractCode} (hfits : record.Fits) (served : Served) :
    Ledger.codeOfText (Base64.encode (served.encode (.contractCode record))) = .ok record.code := by
  have hread :=
    EntryData.ofText_encode (show (EntryData.contractCode record).Fits from hfits) served
  rw [Ledger.codeOfText, hread]
  rfl

/-! ### The fetch -/

/-- **The interface of a contract is fetched from an honest ledger.**  Let a server answer from a
ledger that holds, under the keys that a fetch asks for, the instance of a contract and the code
that this instance names.  Whatever else the two records say and in whichever form they are sent, a
fetch of the address of the contract gives that address, the hash of the code, which is shown as
lowercase hexadecimal text, the size of the code, and the interface in the code; or, if the code has
none, the reason for this as a failure of the last stage. -/
theorem extract_honest {client : Client} {store : Store}
    (hserver : client.server.AnswersFrom store) {contract hash : Hash} {data : ContractData}
    {storage : Option (List (Ledger.Value × Ledger.Value))} {record : ContractCode}
    (hinstance : store (Key.contractInstance contract).toText = some (.contractData data))
    (hval : data.val = .contractInstance (.wasm hash) storage) (hdata : data.Fits)
    (hcode : store (Key.contractCode hash).toText = some (.contractCode record))
    (hrecord : record.Fits) (history : History) :
    ∃ address after, Strkey.encode .contract contract.bytes = .ok address ∧
      match Spec.extract true record.code with
      | .error error =>
        (extract client address).run history = .error ⟨some .parseSpec, .spec error⟩ after
      | .ok spec =>
        ∃ extraction, (extract client address).run history = .ok extraction after ∧
          extraction.address = address ∧ extraction.codeHash = hash ∧
          Hex.decode? extraction.codeHash.toHex = some hash.bytes ∧
          (∀ c ∈ extraction.codeHash.toHex.toList, c ∈ Hex.lowercase) ∧
          extraction.codeSize = record.code.length ∧ extraction.spec = spec := by
  have hencode : Strkey.encode .contract contract.bytes =
      .ok (Strkey.encodeWith Strkey.Version.contract.byte contract.bytes) :=
    Strkey.encode_eq_ok_iff.2 ⟨contract.length_eq, rfl⟩
  have hdecode := Strkey.decode_encodeWith .contract contract
  let first := request client history.sent (.contractInstance contract)
  have hhash : LooksUp client history.sent "Contract" (.contractInstance contract)
      Ledger.codeHashOfText (.ok hash) :=
    looksUp_of_answersFrom hserver hinstance (codeHashOfText_served hdata hval)
  have hfound : LooksUp client (first :: history.sent) "WASM code" (.contractCode hash)
      Ledger.codeOfText (.ok record.code) :=
    looksUp_of_answersFrom hserver hcode (codeOfText_served hrecord)
  obtain ⟨log, hrun⟩ := does_extract_of_code
    (does_codeHash hdecode (hhash.does .fetchInstance)) (hfound.does .fetchCode) history.log
  cases hspec : Spec.extract true record.code with
  | error error =>
    rw [hspec] at hrun
    exact ⟨_, _, hencode, hrun⟩
  | ok spec =>
    rw [hspec] at hrun
    exact ⟨_, _, hencode, _, hrun, rfl, rfl, Hex.decode?_encode hash.bytes,
      fun c hc => Hex.mem_lowercase_of_mem_encode hc, rfl, rfl⟩

/-- The server that answers from a ledger, with each record in a form of its own. -/
def serverOf (store : Store) (form : EntryData → Served) : Rpc.Server
  | [] => .failed "nothing was asked"
  | request :: _ =>
    match request.params.get? "keys" with
    | some (.arr [.str key]) =>
      let items := (store key).toList.map fun data =>
        Json.obj [("key", .str key), ("xdr", .str (Base64.encode ((form data).encode data)))]
      .ofJson (.obj [("id", .int request.number), ("error", .null),
        ("result", .obj [("entries", .arr items), ("latestLedger", .int 1)])])
    | _ => .failed "no lookup"

lemma serverOf_answersFrom (store : Store) (form : EntryData → Served) :
    (serverOf store form).AnswersFrom store := by
  intro request sent key data _ hparams hdata
  refine ⟨form data, ?_⟩
  have hkeys : request.params.get? "keys" = some (.arr [.str key]) := by
    rw [hparams]
    rfl
  simp only [serverOf, hkeys, hdata, Option.toList_some, List.map_cons, List.map_nil]
  exact ⟨_, _, _, Rpc.Reply.brings_ofJson _, .inr rfl, rfl, rfl, rfl⟩

/-- The contract in the sample ledger. -/
def sampleContract : Hash :=
  ⟨Strkey.samplePayload, rfl⟩

/-- Its instance, with a text in its storage that is no UTF-8. -/
def sampleData : ContractData where
  contract := .contract sampleContract
  key := .ledgerKeyContractInstance
  durability := .persistent
  val := .contractInstance (.wasm Ledger.sampleHash) (some [
    (.symbol [65], .vec (some [.string [195, 40], .map none]))])

/-- Its code, with what it costs. -/
def sampleCode : ContractCode where
  costInputs := some (List.replicate 10 1)
  hash := Ledger.sampleHash
  code := Wasm.encode (Spec.sampleCustoms.map (·.toSection))

/-- The ledger that holds both. -/
def sampleStore : Store := fun key =>
  if key = (Key.contractInstance sampleContract).toText then some (.contractData sampleData)
  else if key = (Key.contractCode Ledger.sampleHash).toText then some (.contractCode sampleCode)
  else none

/-- Instances are sent in envelopes, and code is sent bare. -/
def sampleForm : EntryData → Served
  | .contractData _ => .envelope 1 (.sponsored (some Ledger.sampleHash))
  | _ => .bare

theorem extract_honest_sample :
    (serverOf sampleStore sampleForm).AnswersFrom sampleStore ∧ sampleData.Fits ∧
      sampleCode.Fits ∧ ∃ extraction after,
      (extract ⟨.str "https://ledger.test", .int 30, serverOf sampleStore sampleForm⟩
        Strkey.sampleAddress).run .empty = .ok extraction after ∧
        extraction.codeHash = Ledger.sampleHash ∧ extraction.spec = Spec.sampleSpec := by
  have hdata : sampleData.Fits := by decide +kernel
  have hrecord : sampleCode.Fits := by decide +kernel
  have hcode : sampleStore (Key.contractCode Ledger.sampleHash).toText =
      some (.contractCode sampleCode) := by
    have hapart : (Key.contractCode Ledger.sampleHash).toText ≠
        (Key.contractInstance sampleContract).toText := by decide +kernel
    rw [sampleStore, if_neg hapart, if_pos rfl]
  have haddress : Strkey.encode .contract sampleContract.bytes = .ok Strkey.sampleAddress := by
    decide +kernel
  have hserver := serverOf_answersFrom sampleStore sampleForm
  refine ⟨hserver, hdata, hrecord, ?_⟩
  let client : Client := ⟨.str "https://ledger.test", .int 30, serverOf sampleStore sampleForm⟩
  have hclient : client.server.AnswersFrom sampleStore := hserver
  obtain ⟨address, after, hencode, hend⟩ :=
    extract_honest hclient (if_pos rfl) rfl hdata hcode hrecord .empty
  rw [haddress] at hencode
  obtain rfl := Except.ok.inj hencode
  have hspec : Spec.extract true sampleCode.code = .ok Spec.sampleSpec := Spec.extract_sample
  rw [hspec] at hend
  obtain ⟨extraction, hrun, -, hhash, -, -, -, hfound⟩ := hend
  exact ⟨extraction, after, hrun, hhash, hfound⟩

end Fetch

end ContractInterface
