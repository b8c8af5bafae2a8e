/-
# What an extraction does

An extraction ends in one of four ways: the bytes are no module, the module has no section with an
interface, an entry cannot be read, or all entries are collected and the interface is finished.
`Extractor.Runs` says what each of them reports and what has been collected by then.  The main
results are

* `Extractor.extract_runs`: every extraction is one of these, whatever the extractor had collected;
* `extract_eq_ok`: the interface of a module is what its sections write;
* `Collected.gather_eq`: what has been collected, entry by entry.
-/
import ContractInterface.Proofs.Bytes.Base64
import ContractInterface.Proofs.Spec.Collection
import ContractInterface.Proofs.Spec.Metadata
import ContractInterface.Proofs.Wasm.Module

namespace ContractInterface.Spec

open Xdr Xdr.Cursor

/-! ### What entries contribute -/

namespace Collected

/-- What a list of collected values grows by, if it grows by some `part` of each entry. -/
lemma gather_field {β : Type} {field : Collected → List β} {part : Entry → List β}
    (hadd : ∀ collected entry, field ((collected.add entry).addRaw entry.encode) =
      field collected ++ part entry)
    (collected : Collected) (entries : List Entry) :
    field (collected.gather entries) = field collected ++ entries.flatMap part := by
  induction entries generalizing collected with
  | nil => rw [gather_nil, List.flatMap_nil, List.append_nil]
  | cons entry entries ih =>
    rw [gather_cons, ih, hadd, List.flatMap_cons, List.append_assoc]

/-- What an entry adds to nothing. -/
def ofEntry (entry : Entry) : Collected :=
  empty.add entry

/-- An entry adds to anything what it adds to nothing. -/
lemma add_eq (collected : Collected) (entry : Entry) :
    collected.add entry =
      { functions := collected.functions ++ (ofEntry entry).functions
        types := collected.types ++ (ofEntry entry).types
        errors := collected.errors ++ (ofEntry entry).errors
        events := collected.events ++ (ofEntry entry).events
        rawEntries := collected.rawEntries } := by
  cases entry with
  | function doc name inputs output =>
    by_cases hname : isReserved (Utf8.decodeLossy name) <;> simp [ofEntry, add, empty, hname]
  | _ => simp [ofEntry, add, empty]

/-- **What has been collected from entries**: what each of them contributes, in their order, and
the text of the bytes of each. -/
theorem gather_eq (entries : List Entry) :
    empty.gather entries =
      { functions := entries.flatMap fun entry => (ofEntry entry).functions
        types := entries.flatMap fun entry => (ofEntry entry).types
        errors := entries.flatMap fun entry => (ofEntry entry).errors
        events := entries.flatMap fun entry => (ofEntry entry).events
        rawEntries := entries.map fun entry => Base64.encode entry.encode } := by
  have hfunctions := @gather_field _ (·.functions) (fun entry => (ofEntry entry).functions)
    (fun collected entry => by rw [addRaw, add_eq]) empty entries
  have htypes := @gather_field _ (·.types) (fun entry => (ofEntry entry).types)
    (fun collected entry => by rw [addRaw, add_eq]) empty entries
  have herrors := @gather_field _ (·.errors) (fun entry => (ofEntry entry).errors)
    (fun collected entry => by rw [addRaw, add_eq]) empty entries
  have hevents := @gather_field _ (·.events) (fun entry => (ofEntry entry).events)
    (fun collected entry => by rw [addRaw, add_eq]) empty entries
  have hraw := @gather_field _ (·.rawEntries) (fun entry => [Base64.encode entry.encode])
    (fun collected entry => by rw [addRaw, add_eq]) empty entries
  rw [← List.map_eq_flatMap] at hraw
  exact (Collected.mk.injEq ..).mpr ⟨hfunctions, htypes, herrors, hevents, hraw⟩

/-- The texts of the bytes of entries give these bytes back. -/
lemma decode_rawEntries_gather (entries : List Entry) :
    (empty.gather entries).rawEntries.mapM Base64.decode = .ok (entries.map Entry.encode) := by
  rw [gather_eq]
  induction entries with
  | nil => rfl
  | cons entry entries ih =>
    rw [List.map_cons, List.mapM_cons, Base64.decode_encode, ih]
    rfl

end Collected

/-! ### How an extraction ends -/

/-- An extraction from a module ends with an outcome, and with what has been collected by then. -/
inductive Extractor.Runs (validates : Bool) (wasm : Bytes) :
    Except ExtractionError Spec → Collected → Prop where
  | unreadable {fault : Wasm.Fault} (found : Wasm.contentsOf wasm specSection = .error fault) :
      Runs validates wasm (.error (.format fault)) .empty
  | absent (found : Wasm.contentsOf wasm specSection = .ok []) :
      Runs validates wasm (.error .noSection) .empty
  | broken {groups : List (List Entry)} {bytes : Bytes} {after : List Bytes} {entries : List Entry}
      {c : Cursor} {error : ExtractionError}
      (found : Wasm.contentsOf wasm specSection = .ok (groups.map encodeEntries ++ bytes :: after))
      (fits : ∀ entry ∈ groups.flatten ++ entries, entry.Fits)
      (passes : (Cursor.start bytes).Passes (encodeEntries entries) c)
      (stops : StopsAt c (.error error)) :
      Runs validates wasm (.error error) (Collected.empty.gather (groups.flatten ++ entries))
  | whole {groups : List (List Entry)} (nonempty : groups ≠ [])
      (found : Wasm.contentsOf wasm specSection = .ok (groups.map encodeEntries))
      (fits : ∀ entry ∈ groups.flatten, entry.Fits) :
      Runs validates wasm
        (finish ⟨validates, Collected.empty.gather groups.flatten⟩ wasm)
        (Collected.empty.gather groups.flatten)

namespace Extractor

/-- **Every extraction runs as described**, whatever the extractor had collected before. -/
theorem extract_runs (extractor : Extractor) (wasm : Bytes) :
    Runs extractor.validates wasm (extractor.extract wasm).1
      (extractor.extract wasm).2.collected := by
  rw [extract]
  rcases hfound : Wasm.contentsOf wasm specSection with fault | _ | ⟨bytes, sections⟩
  · exact .unreadable hfound
  · exact .absent hfound
  · rcases hrun : Collected.empty.readSections (bytes :: sections) with ⟨error | _, collected⟩
    · obtain ⟨groups, rest, after, entries, c, hsections, hfits, hpass, hstop, rfl⟩ :=
        Collected.readSections_eq_error hrun
      simp only [fresh, hrun]
      exact .broken (hfound.trans (congrArg _ hsections)) hfits hpass hstop
    · obtain ⟨groups, hfits, hsections, rfl⟩ := Collected.readSections_eq_ok.1 hrun
      have hnonempty : groups ≠ [] := by
        rintro rfl
        cases hsections
      simp only [fresh, hrun]
      exact .whole hnonempty (hfound.trans (congrArg _ hsections)) hfits

/-- What an extraction does depends on nothing that was collected before. -/
lemma extract_eq_fresh (extractor : Extractor) (wasm : Bytes) :
    extractor.extract wasm = (fresh extractor.validates).extract wasm := rfl

lemma validates_extract (extractor : Extractor) (wasm : Bytes) :
    (extractor.extract wasm).2.validates = extractor.validates := by
  rw [extract]
  rcases Wasm.contentsOf wasm specSection with fault | _ | ⟨bytes, sections⟩
  · rfl
  · rfl
  · rcases hrun : Collected.empty.readSections (bytes :: sections) with ⟨_ | _, collected⟩ <;>
      simp only [fresh, hrun]

variable {validates : Bool} {collected : Collected} {wasm : Bytes} {spec : Spec}

/-- An interface is finished under the name in the metadata, unless its references are checked and
one of them is to nothing. -/
lemma finish_of_name {name : Option String} (hname : contractName wasm = .ok name) :
    finish ⟨validates, collected⟩ wasm =
      (if validates then (collected.toSpec name).dangling? else none).elim
        (.ok (collected.toSpec name)) fun found => .error (.dangling found) := by
  rw [finish, hname]
  cases validates with
  | false => rfl
  | true =>
    rw [if_pos rfl]
    change (checkReferences (collected.toSpec name) >>= fun _ => pure (collected.toSpec name)) = _
    rw [checkReferences]
    cases (collected.toSpec name).dangling? <;> rfl

lemma finish_of_name_error {error : ExtractionError} (hname : contractName wasm = .error error) :
    finish ⟨validates, collected⟩ wasm = .error error := by
  rw [finish, hname]
  rfl

lemma finish_eq_ok :
    finish ⟨validates, collected⟩ wasm = .ok spec ↔
      ∃ name, contractName wasm = .ok name ∧ spec = collected.toSpec name ∧
        (validates = true → spec.dangling? = none) := by
  cases hname : contractName wasm with
  | error error =>
    rw [finish_of_name_error hname]
    constructor
    · rintro ⟨⟩
    · rintro ⟨name, ⟨⟩, -⟩
  | ok name =>
    rw [finish_of_name hname]
    cases validates with
    | false =>
      constructor
      · rintro ⟨⟩
        exact ⟨name, rfl, rfl, nofun⟩
      · rintro ⟨_, ⟨⟩, rfl, -⟩
        rfl
    | true =>
      rw [if_pos rfl]
      cases hdangling : (collected.toSpec name).dangling? with
      | none =>
        constructor
        · rintro ⟨⟩
          exact ⟨name, rfl, rfl, fun _ => hdangling⟩
        · rintro ⟨_, ⟨⟩, rfl, -⟩
          rfl
      | some found =>
        constructor
        · rintro ⟨⟩
        · rintro ⟨_, ⟨⟩, rfl, hnone⟩
          rw [hdangling] at hnone
          cases hnone rfl

/-- An interface that cannot be finished has metadata that cannot be read, or a reference to
nothing that was to be checked. -/
lemma finish_eq_error {error : ExtractionError}
    (h : finish ⟨validates, collected⟩ wasm = .error error) :
    contractName wasm = .error error ∨
      validates = true ∧ ∃ name found, contractName wasm = .ok name ∧
        (collected.toSpec name).dangling? = some found ∧ error = .dangling found := by
  cases hname : contractName wasm with
  | error error' =>
    rw [finish_of_name_error hname] at h
    cases h
    exact .inl rfl
  | ok name =>
    rw [finish_of_name hname] at h
    cases validates with
    | false => cases h
    | true =>
      rw [if_pos rfl] at h
      cases hdangling : (collected.toSpec name).dangling? with
      | none =>
        rw [hdangling] at h
        cases h
      | some found =>
        rw [hdangling] at h
        cases h
        exact .inr ⟨rfl, name, found, rfl, hdangling, rfl⟩

end Extractor

/-- **The interface of a module** is what its sections write, under the name in its metadata, if
there is such a section and no reference that is to be checked is to nothing. -/
theorem extract_eq_ok {validates : Bool} {wasm : Bytes} {spec : Spec} :
    extract validates wasm = .ok spec ↔
      ∃ (groups : List (List Entry)) (name : Option String), groups ≠ [] ∧
        (∀ entry ∈ groups.flatten, entry.Fits) ∧
        Wasm.contentsOf wasm specSection = .ok (groups.map encodeEntries) ∧
        contractName wasm = .ok name ∧
        spec = (Collected.empty.gather groups.flatten).toSpec name ∧
        (validates = true → spec.dangling? = none) := by
  constructor
  · intro h
    have hruns := (Extractor.fresh validates).extract_runs wasm
    rw [extract] at h
    -- of the four ends, only one has an interface
    generalize (Extractor.fresh validates).extract wasm = result at h hruns
    obtain ⟨outcome, extractor⟩ := result
    obtain rfl : outcome = .ok spec := h
    generalize extractor.collected = collected at hruns
    generalize houtcome : Except.ok spec = outcome at hruns
    cases hruns with
    | unreadable | absent | broken => cases houtcome
    | @whole groups hnonempty hfound hfits =>
      obtain ⟨name, hname, hspec, hchecked⟩ := Extractor.finish_eq_ok.1 houtcome.symm
      exact ⟨groups, name, hnonempty, hfits, hfound, hname, hspec, hchecked⟩
  · rintro ⟨groups, name, hnonempty, hfits, hfound, hname, hspec, hchecked⟩
    obtain ⟨entries, groups, rfl⟩ := List.exists_cons_of_ne_nil hnonempty
    have hread : Collected.empty.readSections ((entries :: groups).map encodeEntries) =
        (.ok (), Collected.empty.gather (entries :: groups).flatten) :=
      Collected.readSections_eq_ok.2 ⟨_, hfits, rfl, rfl⟩
    rw [extract, Extractor.extract, hfound]
    rw [List.map_cons] at hread ⊢
    simp only [Extractor.fresh, hread]
    exact Extractor.finish_eq_ok.2 ⟨name, hname, hspec, hchecked⟩

end ContractInterface.Spec
