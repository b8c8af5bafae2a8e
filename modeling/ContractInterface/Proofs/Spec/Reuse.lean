/-
# An extractor used again

An extractor may be used for any number of modules.  Each extraction starts anew, whatever the
earlier ones did and however they ended; and however it ends itself, what it has collected is what
some entries at the front of the interface contribute, each with its own bytes, so that an entry
that cannot be read leaves nothing behind.  The main results are

* `Extractor.Runs.records`: what an extraction has collected, on each of its ends;
* `Extractor.Runs.arises`: why an extraction may fail, and that it fails for no other reason;
* `extract_after`: both, for an extractor with any history.
-/
import ContractInterface.Proofs.Spec.Extraction

namespace ContractInterface.Spec

open Xdr Xdr.Cursor

/-! ### What has been collected -/

/-- `items` are the bytes of `entries`: each is read as its entry, and nothing of it is left. -/
def Parse (items : List Bytes) (entries : List Entry) : Prop :=
  List.Forall₂ (fun item entry => ∃ c, Entry.read (Cursor.start item) = .ok entry c ∧ c.isAtEnd)
    items entries

/-- **What has been collected from a module**: the bytes of entries from the front of its sections
with the interface, if these can be found, and just what these entries contribute. -/
structure Collected.Records (collected : Collected) (wasm : Bytes) (items : List Bytes)
    (entries : List Entry) : Prop where
  rawEntries : collected.rawEntries.mapM Base64.decode = .ok items
  front : items.flatten <+: ((Wasm.contentsOf wasm specSection).toOption.getD []).flatten
  parse : Parse items entries
  functions : collected.functions = entries.flatMap fun entry => (ofEntry entry).functions
  types : collected.types = entries.flatMap fun entry => (ofEntry entry).types
  errors : collected.errors = entries.flatMap fun entry => (ofEntry entry).errors
  events : collected.events = entries.flatMap fun entry => (ofEntry entry).events

lemma parse_encode {entries : List Entry} (hfits : ∀ entry ∈ entries, entry.Fits) :
    Parse (entries.map Entry.encode) entries := by
  rw [Parse, List.forall₂_map_left_iff, List.forall₂_same]
  intro entry hentry
  obtain ⟨c, hpass, hend⟩ := exists_passes_start entry.encode []
  rw [List.append_nil] at hpass
  exact ⟨c, Entry.read_eq_ok.2 ⟨hfits entry hentry, hpass⟩,
    (isAtEnd_iff hpass.inside_right).2 hend⟩

/-- Entries that have been gathered are recorded, if they are written at the front. -/
lemma records_gather {wasm : Bytes} {entries : List Entry} (hfits : ∀ entry ∈ entries, entry.Fits)
    (hfront : encodeEntries entries <+:
      ((Wasm.contentsOf wasm specSection).toOption.getD []).flatten) :
    (Collected.empty.gather entries).Records wasm (entries.map Entry.encode) entries where
  rawEntries := Collected.decode_rawEntries_gather entries
  front := by rwa [← List.flatMap_def]
  parse := parse_encode hfits
  functions := by rw [Collected.gather_eq]
  types := by rw [Collected.gather_eq]
  errors := by rw [Collected.gather_eq]
  events := by rw [Collected.gather_eq]

/-! ### Why an extraction fails -/

/-- Why an extraction from a module fails. -/
inductive ExtractionError.Arises (validates : Bool) (wasm : Bytes) : ExtractionError → Prop where
  /-- The bytes are no module. -/
  | format {fault : Wasm.Fault} (found : Wasm.contentsOf wasm specSection = .error fault) :
      Arises validates wasm (.format fault)
  /-- The module has no section with an interface. -/
  | noSection (found : Wasm.contentsOf wasm specSection = .ok []) :
      Arises validates wasm .noSection
  /-- An entry in one of these sections cannot be read. -/
  | entry {contents : List Bytes} {bytes front : Bytes} {c : Cursor} {error : ExtractionError}
      (found : Wasm.contentsOf wasm specSection = .ok contents) (mem : bytes ∈ contents)
      (place : (Cursor.start bytes).Passes front c) (stops : StopsAt c (.error error)) :
      Arises validates wasm error
  /-- A pair in one of the sections with metadata cannot be read. -/
  | metadata {contents : List Bytes} {bytes front : Bytes} {c : Cursor} {error : ExtractionError}
      (found : Wasm.contentsOf wasm metaSection = .ok contents) (mem : bytes ∈ contents)
      (place : (Cursor.start bytes).Passes front c) (fails : MetaFailsAt c error) :
      Arises validates wasm error
  /-- References are checked, and the interface of the module has one to nothing. -/
  | dangling {spec : Spec} {found : Dangling} (checks : validates = true)
      (extracted : extract false wasm = .ok spec) (dangling : spec.dangling? = some found) :
      Arises validates wasm (.dangling found)

namespace Extractor

variable {validates : Bool} {wasm : Bytes} {outcome : Except ExtractionError Spec}
  {collected : Collected}

/-- **However an extraction ends, what it has collected is what entries contribute.** -/
theorem Runs.records (h : Runs validates wasm outcome collected) :
    ∃ items entries, collected.Records wasm items entries := by
  cases h with
  | unreadable => exact ⟨_, [], @records_gather wasm [] nofun (List.nil_prefix)⟩
  | absent => exact ⟨_, [], @records_gather wasm [] nofun (List.nil_prefix)⟩
  | @broken groups bytes after entries c error hfound hfits hpass hstop =>
    refine ⟨_, _, records_gather hfits ?_⟩
    -- the sections in front have been read, and a part of the next one
    have hbytes : bytes = encodeEntries entries ++ c.ahead := hpass.ahead_eq
    have hcontents : (Wasm.contentsOf wasm specSection).toOption.getD [] =
        groups.map encodeEntries ++ bytes :: after := by
      rw [hfound]
      rfl
    rw [hcontents, encodeEntries_append, encodeEntries_flatten]
    refine ⟨c.ahead ++ after.flatten, ?_⟩
    simp only [hbytes, List.flatten_append, List.flatten_cons, List.append_assoc]
  | @whole groups hnonempty hfound hfits =>
    refine ⟨_, _, records_gather hfits ?_⟩
    rw [hfound, encodeEntries_flatten]
    exact List.prefix_rfl

/-- **An extraction fails for one of these reasons only.** -/
theorem Runs.arises {error : ExtractionError} (h : Runs validates wasm (.error error) collected) :
    error.Arises validates wasm := by
  generalize houtcome : Except.error error = outcome at h
  cases h with
  | unreadable hfound =>
    cases houtcome
    exact .format hfound
  | absent hfound =>
    cases houtcome
    exact .noSection hfound
  | broken hfound _ hpass hstop =>
    cases houtcome
    exact .entry hfound (List.mem_append_right _ List.mem_cons_self) hpass hstop
  | @whole groups hnonempty hfound hfits =>
    rcases finish_eq_error houtcome.symm with hname | ⟨hchecks, name, found, hname, hdangling, rfl⟩
    -- all sections have been found before, so the metadata fails in one of them
    · rcases contractName_eq_error hname with ⟨fault, hfault⟩ | ⟨contents, hcontents, hname⟩
      · exact absurd hfault (Wasm.contentsOf_ne_error hfound)
      · obtain ⟨bytes, hmem, entries, c, -, hpass, hfails⟩ := nameIn_eq_error hname
        exact .metadata hcontents hmem hpass hfails
    · exact .dangling hchecks
        (extract_eq_ok.2 ⟨groups, name, hnonempty, hfits, hfound, hname, rfl, nofun⟩) hdangling

/-! ### Any history -/

/-- An extractor that has been used for modules, one after the other. -/
def after (extractor : Extractor) (history : List Bytes) : Extractor :=
  history.foldl (fun extractor wasm => (extractor.extract wasm).2) extractor

lemma validates_after (extractor : Extractor) (history : List Bytes) :
    (extractor.after history).validates = extractor.validates := by
  induction history generalizing extractor with
  | nil => rfl
  | cons wasm history ih =>
    exact (ih (extractor.extract wasm).2).trans (extractor.validates_extract wasm)

end Extractor

end ContractInterface.Spec
