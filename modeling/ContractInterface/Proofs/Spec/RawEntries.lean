/-
# The raw entries of an interface

An interface carries the bytes of each entry of its module, as base64.  They are all that the
sections with the interface hold, and they are all that it takes: however they are put together
into sections again, the same interface comes out.  The main results are

* `rawEntries_partition`: the raw entries make up the sections, with nothing lost or repeated;
* `extract_regrouped`: raw entries in other sections give the same interface.
-/
import ContractInterface.Proofs.Spec.Extraction

namespace ContractInterface.Spec

open Xdr Xdr.Cursor

variable {validates : Bool} {wasm : Bytes} {spec : Spec}

/-- The raw entries of an interface are the written forms of the entries in its sections. -/
lemma exists_groups_of_extract (h : extract validates wasm = .ok spec) :
    ∃ groups : List (List Entry), (∀ entry ∈ groups.flatten, entry.Fits) ∧
      Wasm.contentsOf wasm specSection = .ok (groups.map encodeEntries) ∧
      spec.rawEntries.mapM Base64.decode = .ok (groups.flatten.map Entry.encode) := by
  obtain ⟨groups, name, -, hfits, hfound, -, rfl, -⟩ := extract_eq_ok.1 h
  exact ⟨groups, hfits, hfound, Collected.decode_rawEntries_gather groups.flatten⟩

/-- **The raw entries partition the sections with the interface.**  Put together in their order,
they are all these sections in the order of the module; each of them has some bytes, a multiple of
four. -/
theorem rawEntries_partition (h : extract validates wasm = .ok spec) :
    ∃ contents items : List Bytes, Wasm.contentsOf wasm specSection = .ok contents ∧
      spec.rawEntries.mapM Base64.decode = .ok items ∧ items.flatten = contents.flatten ∧
      ∀ item ∈ items, item ≠ [] ∧ 4 ∣ item.length := by
  obtain ⟨groups, -, hfound, hitems⟩ := exists_groups_of_extract h
  refine ⟨_, _, hfound, hitems, ?_, ?_⟩
  · rw [← encodeEntries_flatten, encodeEntries, List.flatMap_def]
  · intro item hitem
    obtain ⟨entry, -, rfl⟩ := List.mem_map.1 hitem
    have hlen := entry.four_le_length_encode
    exact ⟨List.ne_nil_of_length_pos (by omega), entry.four_dvd_length_encode⟩

/-- A function `f` and an error enumeration `E` with a case `A`. -/
def sampleEntries : List Entry :=
  [.function [] [102] [] none, .errorEnum ⟨[], [], [69]⟩ [⟨[], [65], 7⟩]]

/-- Metadata that names a contract `c`. -/
def sampleMetadata : MetaEntry :=
  ⟨[110, 97, 109, 101], [99]⟩

/-- The custom sections of a module that holds both. -/
def sampleCustoms : List Wasm.CustomSection :=
  [⟨specSection, encodeEntries sampleEntries⟩, ⟨metaSection, sampleMetadata.encode⟩]

/-- The interface of that module. -/
def sampleSpec : Spec where
  name := some "c"
  functions := [⟨"f", [], none, none⟩]
  types := []
  errors := [⟨"A", 7, none, some "E"⟩]
  rawEntries := ["AAAAAAAAAAAAAAABZgAAAAAAAAAAAAAA",
    "AAAABAAAAAAAAAAAAAAAAUUAAAAAAAABAAAAAAAAAAFBAAAAAAAABw=="]

lemma fits_sampleEntries : ∀ entry ∈ sampleEntries, entry.Fits := by decide

lemma fits_sampleCustoms : ∀ custom ∈ sampleCustoms, custom.Fits := by decide +kernel

lemma extract_sample :
    extract true (Wasm.encode (sampleCustoms.map (·.toSection))) = .ok sampleSpec := by
  have hfound := Wasm.contentsOf_encode_customs fits_sampleCustoms
  refine extract_eq_ok.2 ⟨[sampleEntries], some "c", by simp, ?_, hfound specSection, ?_, rfl,
    fun _ => rfl⟩
  · simpa using fits_sampleEntries
  · have hname : nameIn [sampleMetadata.encode] = .ok (some "c") := by
      have hpair : sampleMetadata.Fits := by decide
      exact @nameIn_eq_of_encode [[sampleMetadata]] (by simpa using hpair)
    exact contractName_eq_ok.2 ⟨_, hfound metaSection, hname⟩

theorem rawEntries_partition_sample :
    extract true (Wasm.encode (sampleCustoms.map (·.toSection))) = .ok sampleSpec ∧
      ∃ contents items : List Bytes,
        Wasm.contentsOf (Wasm.encode (sampleCustoms.map (·.toSection))) specSection =
          .ok contents ∧
        sampleSpec.rawEntries.mapM Base64.decode = .ok items ∧
        items.flatten = contents.flatten ∧ ∀ item ∈ items, item ≠ [] ∧ 4 ∣ item.length :=
  ⟨extract_sample, rawEntries_partition extract_sample⟩

/-! ### Raw entries in other sections -/

/-- Groups that make up a mapped list are mapped groups that make up the list. -/
lemma exists_groups_of_flatten_eq_map {α β : Type} {f : α → β} {groups : List (List β)}
    {values : List α} (h : groups.flatten = values.map f) :
    ∃ groups' : List (List α), groups = groups'.map (List.map f) ∧ groups'.flatten = values := by
  induction groups generalizing values with
  | nil =>
    obtain rfl := List.map_eq_nil_iff.1 h.symm
    exact ⟨[], rfl, rfl⟩
  | cons group groups ih =>
    obtain ⟨front, rest, rfl, rfl, hrest⟩ := List.map_eq_append_iff.1 h.symm
    obtain ⟨groups', rfl, rfl⟩ := ih hrest.symm
    exact ⟨front :: groups', rfl, rfl⟩

/-- **Raw entries in other sections give the same interface.**  Take a module whose sections with
the interface hold the raw entries in any groups, whose sections with metadata are those of the
original, and that has no other sections. -/
theorem extract_regrouped {items : List Bytes} {groups : List (List Bytes)}
    {found : List Wasm.Section} {wasm' : Bytes} (h : extract validates wasm = .ok spec)
    (hitems : spec.rawEntries.mapM Base64.decode = .ok items) (hgroups : groups.flatten = items)
    (hnonempty : groups ≠ []) (hwritten : Wasm.Written found wasm')
    (hspec : List.Forall₂
      (fun group s => Wasm.CustomSection.Written ⟨specSection, group.flatten⟩ s.payload)
      groups (found.filter (·.isNamed specSection)))
    (hmeta : found.filter (·.isNamed metaSection) =
      (Wasm.sections wasm).items.filter (·.isNamed metaSection))
    (hother : ∀ s ∈ found, s.isNamed specSection ∨ s.isNamed metaSection) :
    extract validates wasm' = .ok spec := by
  obtain ⟨original, name, -, hfits, -, hname, rfl, hchecked⟩ := extract_eq_ok.1 h
  -- the groups are the written forms of groups of the original entries
  have hdecoded := Collected.decode_rawEntries_gather original.flatten
  obtain rfl : items = original.flatten.map Entry.encode :=
    Except.ok.inj (hitems.symm.trans hdecoded)
  obtain ⟨regrouped, rfl, hflatten⟩ := exists_groups_of_flatten_eq_map hgroups
  rw [← hflatten] at hfits ⊢
  have hsections : (regrouped.map (List.map Entry.encode)).map List.flatten =
      regrouped.map encodeEntries := by
    rw [List.map_map]
    exact List.map_congr_left fun entries _ => (List.flatMap_def ..).symm
  -- all custom sections of the new module can be read
  have hfound (name : String) : Wasm.contentsOf wasm' name = .ok (Wasm.contentsIn name found) := by
    refine Wasm.contentsOf_of_written hwritten (fun s hs => ?_) name
    obtain ⟨custom, hcustom⟩ :=
      (hother s hs).elim Wasm.Section.exists_shows_of_isNamed Wasm.Section.exists_shows_of_isNamed
    exact ⟨some custom, hcustom⟩
  have hspecFound : Wasm.contentsOf wasm' specSection = .ok (regrouped.map encodeEntries) := by
    rw [hfound, ← hsections]
    exact congrArg _ (Wasm.contentsIn_of_written (List.forall₂_map_left_iff.2 hspec))
  have hnameFound : contractName wasm' = .ok name := by
    obtain ⟨contents, hcontents, hname⟩ := contractName_eq_ok.1 hname
    have hsame : Wasm.contentsIn metaSection found = contents := by
      rw [Wasm.contentsOf_eq_contentsIn hcontents, Wasm.contentsIn, hmeta]
      rfl
    exact contractName_eq_ok.2 ⟨contents, by rw [hfound, hsame], hname⟩
  rw [← hflatten] at hchecked
  exact extract_eq_ok.2 ⟨regrouped, name, by simpa using hnonempty, hfits, hspecFound, hnameFound,
    rfl, hchecked⟩

/-- The same entries in three sections, one of them empty, around the metadata. -/
def regroupedCustoms : List Wasm.CustomSection :=
  [⟨specSection, encodeEntries (sampleEntries.take 1)⟩, ⟨specSection, []⟩,
    ⟨metaSection, sampleMetadata.encode⟩, ⟨specSection, encodeEntries (sampleEntries.drop 1)⟩]

theorem extract_regrouped_sample :
    extract true (Wasm.encode (regroupedCustoms.map (·.toSection))) = .ok sampleSpec := by
  have hfits : ∀ custom ∈ regroupedCustoms, custom.Fits := by decide +kernel
  have hnamed (name : String) := Wasm.filter_isNamed_toSection hfits name
  have hitems : sampleSpec.rawEntries.mapM Base64.decode =
      .ok (sampleEntries.map Entry.encode) :=
    Collected.decode_rawEntries_gather sampleEntries
  have hsections := Wasm.sections_of_written (Wasm.written_encode_customs fits_sampleCustoms)
  refine extract_regrouped extract_sample hitems
    (rfl : List.flatten [[_], [], [_]] = _) (List.cons_ne_nil _ _)
    (Wasm.written_encode_customs hfits) ?_ ?_ ?_
  · rw [hnamed]
    obtain ⟨hfirst, hempty, -, hlast, -⟩ := by
      simpa only [regroupedCustoms, List.forall_mem_cons] using hfits
    exact .cons (Wasm.CustomSection.written_encode hfirst)
      (.cons (Wasm.CustomSection.written_encode hempty)
        (.cons (Wasm.CustomSection.written_encode hlast) .nil))
  · rw [hnamed, hsections, Wasm.filter_isNamed_toSection fits_sampleCustoms]
    rfl
  · intro s hs
    obtain ⟨custom, hcustom, rfl⟩ := List.mem_map.1 hs
    have hname : ∀ custom ∈ regroupedCustoms,
        custom.name = specSection ∨ custom.name = metaSection := by decide +kernel
    have hcases := hname custom hcustom
    rw [Wasm.CustomSection.isNamed_toSection (hfits custom hcustom),
      Wasm.CustomSection.isNamed_toSection (hfits custom hcustom)]
    simpa using hcases

end ContractInterface.Spec
