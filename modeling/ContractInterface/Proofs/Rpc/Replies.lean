/-
# What replies say

A reply reports an error, answers with records, or does neither; it is never two of these at once,
whatever else stands beside the error or the result.  Responses with a status from 400 to 599 are
refused, and no other status matters.  The main results are

* `entriesOf_eq_ok_iff`: the records that a result lists;
* `Reply.classified`: a call ends as the reply to it says.
-/
import ContractInterface.Rpc
import Mathlib.Data.List.Forall2

namespace ContractInterface.Rpc

/-! ### Failures -/

/-- What a call fails for. -/
inductive Error.Kind where
  /-- The server reports an error. -/
  | reported
  /-- The exchange with the server gives neither an answer nor an error. -/
  | exchange
  /-- The exchange breaks down outside of the network. -/
  | outside
deriving DecidableEq, Repr

/-- The kind of an error. -/
def Error.kind : Error → Error.Kind
  | .reported .. => .reported
  | .broken _ => .outside
  | .requestFailed .. | .unreadableBody .. | .notEnvelope _ | .malformedError _ | .noResult
  | .noEntries | .noContent => .exchange

/-! ### Records -/

/-- A value in the list of records is read as a record: it is an object with a content that is a
text, and what else is missing has a value in its place. -/
def Entry.Reads (item : Json) (entry : Entry) : Prop :=
  ∃ members, item = .obj members ∧ members.lookup "xdr" = some (.str entry.content) ∧
    entry.key = (members.lookup "key").getD (.str "") ∧
    entry.lastModified = (members.lookup "lastModifiedLedgerSeq").getD .null ∧
    entry.liveUntil = (members.lookup "liveUntilLedgerSeq").getD .null

lemma Entry.ofJson_eq_ok_iff {item : Json} {entry : Entry} :
    Entry.ofJson item = .ok entry ↔ entry.Reads item := by
  constructor
  · intro h
    unfold Entry.ofJson at h
    split at h
    · rename_i members
      split at h
      · rename_i content hcontent
        obtain rfl := Except.ok.inj h
        exact ⟨members, rfl, hcontent, rfl, rfl, rfl⟩
      · cases h
    · cases h
  · rintro ⟨members, rfl, hcontent, hkey, hmodified, hlive⟩
    simp only [Entry.ofJson, hcontent, ← hkey, ← hmodified, ← hlive]

lemma Entry.ofJson_error {item : Json} {error : Error} (h : Entry.ofJson item = .error error) :
    error = .noContent := by
  unfold Entry.ofJson at h
  split at h
  · split at h
    · cases h
    · exact (Except.error.inj h).symm
  · exact (Except.error.inj h).symm

lemma mapM_ofJson_eq_ok_iff {items : List Json} {entries : List Entry} :
    items.mapM Entry.ofJson = .ok entries ↔ List.Forall₂ Entry.Reads items entries := by
  induction items generalizing entries with
  | nil =>
    rw [List.mapM_nil, List.forall₂_nil_left_iff]
    exact ⟨fun h => (Except.ok.inj h).symm, fun h => congrArg _ h.symm⟩
  | cons item items ih =>
    rw [List.mapM_cons, List.forall₂_cons_left_iff]
    constructor
    · intro h
      cases hitem : Entry.ofJson item with
      | error error =>
        rw [hitem] at h
        cases h
      | ok entry =>
        cases hitems : items.mapM Entry.ofJson with
        | error error =>
          rw [hitem, hitems] at h
          cases h
        | ok later =>
          rw [hitem, hitems] at h
          exact ⟨entry, later, Entry.ofJson_eq_ok_iff.1 hitem, ih.1 hitems,
            (Except.ok.inj h).symm⟩
    · rintro ⟨entry, later, hitem, hitems, rfl⟩
      rw [Entry.ofJson_eq_ok_iff.2 hitem, ih.2 hitems]
      rfl

lemma mapM_ofJson_error {items : List Json} {error : Error}
    (h : items.mapM Entry.ofJson = .error error) : error = .noContent := by
  induction items with
  | nil => cases h
  | cons item items ih =>
    rw [List.mapM_cons] at h
    cases hitem : Entry.ofJson item with
    | error error' =>
      rw [hitem] at h
      exact (Except.error.inj h) ▸ Entry.ofJson_error hitem
    | ok entry =>
      cases hitems : items.mapM Entry.ofJson with
      | error error' =>
        rw [hitem, hitems] at h
        exact ih (hitems.trans h)
      | ok later =>
        rw [hitem, hitems] at h
        cases h

/-- The records that a value lists.  A value that does not count as given lists none, whatever its
type. -/
inductive Lists : Json → List Entry → Prop where
  | absent {value : Json} (h : value.isTruthy = false) : Lists value []
  | items {items : List Json} {entries : List Entry} (h : List.Forall₂ Entry.Reads items entries) :
    Lists (.arr items) entries

lemma entriesOf_eq_ok_iff {result : List (String × Json)} {entries : List Entry} :
    entriesOf (.obj result) = .ok entries ↔
      Lists ((result.lookup "entries").getD .null) entries := by
  have hget : (Json.obj result).get? "entries" = result.lookup "entries" := rfl
  rw [entriesOf, hget]
  generalize (result.lookup "entries").getD .null = value
  cases htruthy : value.isTruthy with
  | false =>
    rw [if_neg Bool.false_ne_true]
    constructor
    · intro h
      obtain rfl := Except.ok.inj h
      exact .absent htruthy
    · intro h
      cases h with
      | absent => rfl
      | @items items _ hitems =>
        -- An array that does not count as given has no items.
        obtain rfl : items = [] := by simpa [Json.isTruthy] using htruthy
        rw [List.forall₂_nil_left_iff.1 hitems]
  | true =>
    rw [if_pos rfl]
    constructor
    · intro h
      split at h
      · exact .items (mapM_ofJson_eq_ok_iff.1 h)
      · cases h
    · intro h
      cases h with
      | absent hfalse =>
        rw [hfalse] at htruthy
        cases htruthy
      | items hitems => exact mapM_ofJson_eq_ok_iff.2 hitems

lemma kind_of_entriesOf {result : Json} {error : Error} (h : entriesOf result = .error error) :
    error.kind = .exchange := by
  unfold entriesOf at h
  extract_lets value at h
  clear_value value
  split at h
  · split at h
    · rw [mapM_ofJson_error h]
      rfl
    · rw [← Except.error.inj h]
      rfl
  · cases h

/-! ### Replies -/

lemma Response.refusal?_eq_none_iff {response : Response} :
    response.refusal? = none ↔ ¬(400 ≤ response.status ∧ response.status < 600) := by
  simp only [refusal?]
  split
  · exact iff_of_false (Option.some_ne_none _) (by omega)
  · split
    · exact iff_of_false (Option.some_ne_none _) (by omega)
    · exact iff_of_true rfl (by omega)

/-- A reply brings a JSON value: it is a response that holds the value, and that is not refused for
its status. -/
def Reply.Brings (reply : Reply) (value : Json) : Prop :=
  ∃ response, reply = .received response ∧ ¬(400 ≤ response.status ∧ response.status < 600) ∧
    response.body = .json value

/-- A reply reports an error: it brings an object in which there is an error that is an object. -/
def Reply.Reports (reply : Reply) (error : Error) : Prop :=
  ∃ envelope details, reply.Brings (.obj envelope) ∧
    envelope.lookup "error" = some (.obj details) ∧
    error = .reported ((details.lookup "code").getD (.int 0))
      ((details.lookup "message").getD (.str "")).display

/-- A reply has a result: it brings an object without an error in which there is a result that is
an object. -/
def Reply.Grants (reply : Reply) (result : List (String × Json)) : Prop :=
  ∃ envelope, reply.Brings (.obj envelope) ∧
    (envelope.lookup "error" = none ∨ envelope.lookup "error" = some .null) ∧
    envelope.lookup "result" = some (.obj result)

/-- A reply answers with some records: it has a result that lists them. -/
def Reply.Answers (reply : Reply) (entries : List Entry) : Prop :=
  ∃ result, reply.Grants result ∧ Lists ((result.lookup "entries").getD .null) entries

section Reply

variable {reply : Reply} {request : Request}

lemma Reply.brings_ofJson (value : Json) : (Reply.ofJson value).Brings value :=
  ⟨_, rfl, fun h => absurd (show 400 ≤ 200 from h.1) (by decide), rfl⟩

lemma Reply.result_of_brings {value : Json} (h : reply.Brings value) :
    reply.result request = resultOf request.method value := by
  obtain ⟨response, rfl, hstatus, hbody⟩ := h
  simp only [Reply.result, Response.refusal?_eq_none_iff.2 hstatus, hbody, Body.result]

lemma Reply.result_of_grants {result : List (String × Json)} (h : reply.Grants result) :
    reply.result request = .ok (.obj result) := by
  obtain ⟨envelope, hbrings, herror | herror, hresult⟩ := h
  · simp only [Reply.result_of_brings hbrings, resultOf, herror, hresult]
  · simp only [Reply.result_of_brings hbrings, resultOf, herror, hresult]

lemma Reply.result_of_reports {error : Error} (h : reply.Reports error) :
    reply.result request = .error error := by
  obtain ⟨envelope, details, hbrings, hdetails, rfl⟩ := h
  simp only [Reply.result_of_brings hbrings, resultOf, hdetails]

/-- A reply that brings nothing is a failed exchange, or the exchange breaks down. -/
lemma Reply.brings_cases (reply : Reply) (request : Request) :
    (∃ value, reply.Brings value) ∨
      (∃ error, reply.result request = .error error ∧ error.kind = .exchange) ∨
      ∃ breakdown, reply = .broken breakdown := by
  cases reply with
  | failed reason => exact .inr (.inl ⟨_, rfl, rfl⟩)
  | broken breakdown => exact .inr (.inr ⟨breakdown, rfl⟩)
  | received response =>
    cases hrefused : response.refusal? with
    | some reason =>
      refine .inr (.inl ⟨.requestFailed request.method request.url reason, ?_, rfl⟩)
      simp only [Reply.result, hrefused]
    | none =>
      cases hbody : response.body with
      | json value =>
        exact .inl ⟨value, response, rfl, Response.refusal?_eq_none_iff.1 hrefused, hbody⟩
      | unreadable reason =>
        refine .inr (.inl ⟨.unreadableBody request.method reason, ?_, rfl⟩)
        simp only [Reply.result, hrefused, hbody, Body.result]

/-- An object without an error has a result, or else the exchange has failed. -/
lemma grants_or_noResult {envelope : List (String × Json)} (hbrings : reply.Brings (.obj envelope))
    (herror : envelope.lookup "error" = none ∨ envelope.lookup "error" = some .null)
    (method : String) : (∃ result, reply.Grants result) ∨
      resultOf method (.obj envelope) = .error .noResult := by
  cases hresult : envelope.lookup "result" with
  | none =>
    right
    rcases herror with herror | herror <;> simp only [resultOf, herror, hresult]
  | some value =>
    cases value with
    | obj result => exact .inl ⟨result, envelope, hbrings, herror, hresult⟩
    | _ =>
      right
      rcases herror with herror | herror <;> simp only [resultOf, herror, hresult]

/-- A value that a reply brings is a result or reports an error, or the exchange has failed. -/
lemma Reply.result_cases_of_brings {value : Json} (hbrings : reply.Brings value)
    (request : Request) :
    (∃ result, reply.Grants result) ∨ (∃ error, reply.Reports error) ∨
      ∃ error, reply.result request = .error error ∧ error.kind = .exchange := by
  rw [Reply.result_of_brings hbrings]
  cases value with
  | obj envelope =>
    by_cases hnone : envelope.lookup "error" = none ∨ envelope.lookup "error" = some .null
    · rcases grants_or_noResult hbrings hnone request.method with hgrants | hfailed
      · exact .inl hgrants
      · exact .inr (.inr ⟨_, hfailed, rfl⟩)
    · cases herror : envelope.lookup "error" with
      | none => exact absurd (.inl herror) hnone
      | some error =>
        cases error with
        | null => exact absurd (.inr herror) hnone
        | obj details => exact .inr (.inl ⟨_, envelope, details, hbrings, herror, rfl⟩)
        | _ =>
          refine .inr (.inr ⟨.malformedError request.method, ?_, rfl⟩)
          simp only [resultOf, herror]
  | _ => exact .inr (.inr ⟨_, rfl, rfl⟩)

/-- A reply has a result or reports an error, or the exchange has failed, or it broke down. -/
lemma Reply.result_cases (reply : Reply) (request : Request) :
    (∃ result, reply.Grants result) ∨ (∃ error, reply.Reports error) ∨
      (∃ error, reply.result request = .error error ∧ error.kind = .exchange) ∨
      ∃ breakdown, reply = .broken breakdown := by
  rcases reply.brings_cases request with ⟨value, hbrings⟩ | hfailed | hbroken
  · rcases Reply.result_cases_of_brings hbrings request with hgrants | hreports | hfailed
    · exact .inl hgrants
    · exact .inr (.inl hreports)
    · exact .inr (.inr (.inl hfailed))
  · exact .inr (.inr (.inl hfailed))
  · exact .inr (.inr (.inr hbroken))

/-- The records that a reply to a request gives, or why it gives none. -/
def Reply.entries (reply : Reply) (request : Request) : Except Error (List Entry) :=
  (reply.result request).bind entriesOf

lemma Reply.Reports.kind_eq {error : Error} (h : reply.Reports error) : error.kind = .reported := by
  obtain ⟨envelope, details, -, -, rfl⟩ := h
  rfl

lemma Reply.entries_of_reports {error : Error} (h : reply.Reports error) :
    reply.entries request = .error error := by
  rw [Reply.entries, Reply.result_of_reports h]
  rfl

lemma Reply.entries_of_answers {entries : List Entry} (h : reply.Answers entries) :
    reply.entries request = .ok entries := by
  obtain ⟨result, hgrants, hlists⟩ := h
  rw [Reply.entries, Reply.result_of_grants hgrants]
  exact entriesOf_eq_ok_iff.2 hlists

/-- A reply answers or reports an error, or the exchange has failed, or it broke down. -/
lemma Reply.entries_cases (reply : Reply) (request : Request) :
    (∃ entries, reply.Answers entries) ∨ (∃ error, reply.Reports error) ∨
      (∃ error, reply.entries request = .error error ∧ error.kind = .exchange) ∨
      ∃ breakdown, reply = .broken breakdown := by
  rcases reply.result_cases request with
    ⟨result, hgrants⟩ | hreports | ⟨error, herror, hkind⟩ | hbroken
  · have hentries : reply.entries request = entriesOf (.obj result) := by
      rw [Reply.entries, Reply.result_of_grants hgrants]
      rfl
    cases hlisted : entriesOf (.obj result) with
    | ok entries => exact .inl ⟨entries, result, hgrants, entriesOf_eq_ok_iff.1 hlisted⟩
    | error error =>
      exact .inr (.inr (.inl ⟨error, hentries.trans hlisted, kind_of_entriesOf hlisted⟩))
  · exact .inr (.inl hreports)
  · refine .inr (.inr (.inl ⟨error, ?_, hkind⟩))
    rw [Reply.entries, herror]
    rfl
  · exact .inr (.inr (.inr hbroken))

/-- The errors that can come of a reply. -/
lemma Reply.error_cases {error : Error} (h : reply.entries request = .error error) :
    reply.Reports error ∨ error.kind = .exchange ∨
      ∃ breakdown, reply = .broken breakdown ∧ error = .broken breakdown := by
  rcases reply.entries_cases request with
    ⟨entries, hanswers⟩ | ⟨reported, hreports⟩ | ⟨failure, hfailure, hkind⟩ | ⟨breakdown, rfl⟩
  · rw [Reply.entries_of_answers hanswers] at h
    cases h
  · rw [Reply.entries_of_reports hreports] at h
    exact .inl (Except.error.inj h ▸ hreports)
  · rw [hfailure] at h
    exact .inr (.inl (Except.error.inj h ▸ hkind))
  · exact .inr (.inr ⟨breakdown, rfl, (Except.error.inj h).symm⟩)

/-- What a call ends in, by the reply to it: the error that the reply reports, if it reports one,
and the records that it answers with, if it does so.  Otherwise the exchange has failed, unless it
broke down outside of the network. -/
structure Classified (reply : Reply) (outcome : Except Error (List Entry)) : Prop where
  reported_iff : ∀ error, (outcome = .error error ∧ error.kind = .reported) ↔ reply.Reports error
  answered_iff : ∀ entries, outcome = .ok entries ↔ reply.Answers entries
  outside_iff : ∀ error, (outcome = .error error ∧ error.kind = .outside) ↔
    ∃ breakdown, reply = .broken breakdown ∧ error = .broken breakdown
  exchange_iff : (∃ error, outcome = .error error ∧ error.kind = .exchange) ↔
    (¬∃ error, reply.Reports error) ∧ (¬∃ entries, reply.Answers entries) ∧
      ¬∃ breakdown, reply = .broken breakdown

lemma Reply.classified (reply : Reply) (request : Request) :
    Classified reply (reply.entries request) where
  reported_iff error := by
    constructor
    · rintro ⟨h, hkind⟩
      rcases Reply.error_cases h with hreports | hexchange | ⟨breakdown, -, rfl⟩
      · exact hreports
      · rw [hexchange] at hkind
        cases hkind
      · cases hkind
    · intro h
      exact ⟨Reply.entries_of_reports h, h.kind_eq⟩
  answered_iff entries := by
    constructor
    · intro h
      rcases reply.entries_cases request with
        ⟨entries', hanswers⟩ | ⟨error, hreports⟩ | ⟨error, herror, -⟩ | ⟨breakdown, rfl⟩
      · rw [Reply.entries_of_answers hanswers] at h
        exact Except.ok.inj h ▸ hanswers
      · rw [Reply.entries_of_reports hreports] at h
        cases h
      · rw [herror] at h
        cases h
      · cases h
    · exact Reply.entries_of_answers
  outside_iff error := by
    constructor
    · rintro ⟨h, hkind⟩
      rcases Reply.error_cases h with hreports | hexchange | hbroken
      · rw [hreports.kind_eq] at hkind
        cases hkind
      · rw [hexchange] at hkind
        cases hkind
      · exact hbroken
    · rintro ⟨breakdown, rfl, rfl⟩
      exact ⟨rfl, rfl⟩
  exchange_iff := by
    constructor
    · rintro ⟨error, h, hkind⟩
      refine ⟨?_, ?_, ?_⟩
      · rintro ⟨reported, hreports⟩
        rw [Reply.entries_of_reports hreports] at h
        obtain rfl := Except.error.inj h
        rw [hreports.kind_eq] at hkind
        cases hkind
      · rintro ⟨entries, hanswers⟩
        rw [Reply.entries_of_answers hanswers] at h
        cases h
      · rintro ⟨breakdown, rfl⟩
        obtain rfl := Except.error.inj h
        cases hkind
    · rintro ⟨hreports, hanswers, hbroken⟩
      rcases reply.entries_cases request with h | h | h | h
      · exact absurd h hanswers
      · exact absurd h hreports
      · exact h
      · exact absurd h hbroken

end Reply

end ContractInterface.Rpc
