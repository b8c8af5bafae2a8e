/-
# What replies can make a lookup report

A reply from a server that is not cut off makes a call report a failure of the exchange, never one
outside of it; and a record that is not the one looked for is of another kind, so none that has the
kind looked for lacks a body.  The main results are

* `Rpc.Client.entries_ne_broken`: the first of these, for the records under some keys;
* `Ledger.codeHashOfText_ne_same` and `Ledger.codeOfText_ne_same`: the second, for the two records
  that a fetch looks for.
-/
import ContractInterface.Proofs.Ledger.Records
import ContractInterface.Proofs.Rpc.Replies

namespace ContractInterface

/-! ### Calls -/

namespace Rpc

/-- A server to which no exchange breaks down: it responds, or the request fails on its way. -/
def Client.Replies (client : Client) : Prop :=
  ∀ sent breakdown, client.server sent ≠ .broken breakdown

/-- A call to a server that replies never fails outside the exchange. -/
theorem Client.entries_ne_broken {client : Client} (hreplies : client.Replies) {α : Type} [Label α]
    (sent : List Request) (keys : List α) (breakdown : Breakdown) :
    (client.entries sent keys).1 ≠ .error (.broken breakdown) := by
  let request := client.next sent "getLedgerEntries" (.obj [("keys", .arr (keys.map Label.toJson))])
  intro h
  obtain ⟨breakdown', hbroken, -⟩ :=
    ((Reply.classified (client.server (request :: sent)) request).outside_iff _).1 ⟨h, rfl⟩
  exact hreplies (request :: sent) breakdown' hbroken

end Rpc

/-! ### Records -/

namespace Ledger

open Xdr Xdr.Cursor Xdr.Reader

/-- A record of which only the kind is known is of a kind whose body is not read. -/
lemma EntryData.not_mem_decoded_of_ofText {text : String} {kind : EntryKind}
    (h : EntryData.ofText text = .ok (.undecoded kind)) : kind ∉ EntryKind.decoded := by
  rw [ofText] at h
  split at h
  · cases h
  rw [ofBytes] at h
  split at h
  · cases h
  split at h
  · rename_i envelope hread
    obtain ⟨c, hread⟩ := value_eq_ok.1 hread
    obtain ⟨hfits, -⟩ := Envelope.read_eq_ok.1 hread
    rw [Except.ok.inj h] at hfits
    exact hfits.elim
  · split at h
    · rename_i data hread
      obtain rfl := Except.ok.inj h
      obtain ⟨c, hread⟩ := value_eq_ok.1 hread
      rcases EntryData.readBare_eq_ok.1 hread with ⟨hfits, -⟩ | ⟨kind', hnot, hkind, -⟩
      · exact hfits.elim
      · obtain rfl := EntryData.undecoded.inj hkind
        exact hnot
    · cases h

lemma EntryData.ofText_ne_unexpected (text : String) (expected observed : EntryKind) :
    EntryData.ofText text ≠ .error (.unexpectedEntry expected observed) := by
  intro h
  rw [ofText] at h
  split at h
  · cases h
  rw [ofBytes] at h
  split at h
  · cases h
  split at h
  · cases h
  · split at h <;> cases h

/-- What is looked for in a record is not refused for the kind that is wanted, if only the lack of a
body could be a reason for this. -/
lemma EntryData.bind_ne_same {α : Type} {take : EntryData → Except EntryError α} {kind : EntryKind}
    (htake : ∀ data, take data = .error (.unexpectedEntry kind kind) →
      data = .undecoded kind ∧ kind ∈ EntryKind.decoded) (text : String) :
    (EntryData.ofText text).bind take ≠ .error (.unexpectedEntry kind kind) := by
  cases hread : EntryData.ofText text with
  | error error =>
    rintro ⟨⟩
    exact EntryData.ofText_ne_unexpected text kind kind hread
  | ok data =>
    intro h
    obtain ⟨rfl, hdecoded⟩ := htake data h
    exact EntryData.not_mem_decoded_of_ofText hread hdecoded

/-- A record that is refused as an instance for its kind is of another kind. -/
theorem codeHashOfText_ne_same (text : String) (kind : EntryKind) :
    codeHashOfText text ≠ .error (.unexpectedEntry kind kind) := by
  refine EntryData.bind_ne_same ?_ text
  intro data h
  cases data with
  | contractData record =>
    simp only [EntryData.codeHash] at h
    split at h <;> cases h
  | contractCode record | ttl record => cases h
  | undecoded found =>
    obtain ⟨rfl, rfl⟩ := EntryError.unexpectedEntry.inj (Except.error.inj h)
    exact ⟨rfl, by decide⟩

/-- A record that is refused as code for its kind is of another kind. -/
theorem codeOfText_ne_same (text : String) (kind : EntryKind) :
    codeOfText text ≠ .error (.unexpectedEntry kind kind) := by
  refine EntryData.bind_ne_same ?_ text
  intro data h
  cases data with
  | contractCode record => cases h
  | contractData record | ttl record => cases h
  | undecoded found =>
    obtain ⟨rfl, rfl⟩ := EntryError.unexpectedEntry.inj (Except.error.inj h)
    exact ⟨rfl, by decide⟩

end Ledger

end ContractInterface
