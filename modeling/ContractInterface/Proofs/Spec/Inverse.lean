/-
# Reading back what was written

A module may spread the entries of its interface over any number of sections, in their order and
each within one section, with metadata and sections of other kinds in between, and with any form of
the lengths.  Extraction gives back all of the entries that an interface shows.  The main results
are

* `contentsNamed_parts`: what a module holds under a name, part by part;
* `extract_written`: the interface that comes out of a written module.
-/
import ContractInterface.Proofs.Spec.Texts

namespace ContractInterface.Spec

/-! ### Modules with an interface -/

/-- What a section holds. -/
inductive Part where
  /-- Entries of the interface. -/
  | interface (entries : List (Entry String))
  /-- Pairs of the metadata. -/
  | metadata (pairs : List MetaEntry)
  /-- A custom section of another name. -/
  | other (custom : Wasm.CustomSection)
  /-- A section that is not custom. -/
  | plain (s : Wasm.Section)

namespace Part

/-- A part that a module may hold. -/
def Fits : Part → Prop
  | .interface entries => ∀ entry ∈ entries, entry.utf8.Fits
  | .metadata pairs => ∀ pair ∈ pairs, pair.Fits
  | .other custom => custom.name ≠ specSection ∧ custom.name ≠ metaSection
  | .plain s => s.id ≠ 0

/-- A section that holds a part. -/
inductive Written : Part → Wasm.Section → Prop where
  | interface {entries : List (Entry String)} {payload : Bytes}
      (written : Wasm.CustomSection.Written
        ⟨specSection, encodeEntries (entries.map (·.utf8))⟩ payload) :
      Written (.interface entries) ⟨0, payload⟩
  | metadata {pairs : List MetaEntry} {payload : Bytes}
      (written : Wasm.CustomSection.Written
        ⟨metaSection, pairs.flatMap MetaEntry.encode⟩ payload) :
      Written (.metadata pairs) ⟨0, payload⟩
  | other {custom : Wasm.CustomSection} {payload : Bytes} (written : custom.Written payload) :
      Written (.other custom) ⟨0, payload⟩
  | plain {s : Wasm.Section} : Written (.plain s) s

/-- The entries in a part, if it is one of the interface. -/
def entries? : Part → Option (List (Entry String))
  | .interface entries => some entries
  | _ => none

/-- The pairs in a part, if it is one of the metadata. -/
def pairs? : Part → Option (List MetaEntry)
  | .metadata pairs => some pairs
  | _ => none

/-- The custom section that a part is, if it is one. -/
def custom? : Part → Option Wasm.CustomSection
  | .interface entries => some ⟨specSection, encodeEntries (entries.map (·.utf8))⟩
  | .metadata pairs => some ⟨metaSection, pairs.flatMap MetaEntry.encode⟩
  | .other custom => some custom
  | .plain _ => none

lemma shows_of_written {part : Part} {s : Wasm.Section} (hfits : part.Fits)
    (h : part.Written s) : s.Shows part.custom? := by
  cases h with
  | interface hwritten | metadata hwritten | other hwritten =>
    exact ⟨rfl, Wasm.CustomSection.ofPayload_of_written hwritten⟩
  | plain => exact hfits

lemma fits_of_entries? {part : Part} {entries : List (Entry String)} (hfits : part.Fits)
    (h : part.entries? = some entries) : ∀ entry ∈ entries, entry.utf8.Fits := by
  cases part with
  | interface =>
    cases h
    exact hfits
  | _ => cases h

lemma fits_of_pairs? {part : Part} {pairs : List MetaEntry} (hfits : part.Fits)
    (h : part.pairs? = some pairs) : ∀ pair ∈ pairs, pair.Fits := by
  cases part with
  | metadata =>
    cases h
    exact hfits
  | _ => cases h

/-- The contents of a part under a name. -/
def contents? (name : String) (part : Part) : Option Bytes :=
  (part.custom?.filter (·.name = name)).map (·.contents)

lemma contents?_specSection {part : Part} (hfits : part.Fits) :
    part.contents? specSection =
      part.entries?.map fun entries => encodeEntries (entries.map (·.utf8)) := by
  cases part with
  | other custom =>
    have hname : decide (custom.name = specSection) = false := decide_eq_false hfits.1
    simp [contents?, custom?, entries?, Option.filter, hname]
  | _ => rfl

lemma contents?_metaSection {part : Part} (hfits : part.Fits) :
    part.contents? metaSection =
      part.pairs?.map fun pairs => pairs.flatMap MetaEntry.encode := by
  cases part with
  | other custom =>
    have hname : decide (custom.name = metaSection) = false := decide_eq_false hfits.2
    simp [contents?, custom?, pairs?, Option.filter, hname]
  | _ => rfl

end Part

variable {parts : List Part} {groups : List (List (Entry String))} {pairs : List MetaEntry}
  {found : List Wasm.Section} {wasm : Bytes}

/-! ### A module for any parts -/

namespace Part

/-- A section that holds a part, with the shortest lengths. -/
def encode : Part → Wasm.Section
  | .interface entries =>
    Wasm.CustomSection.toSection ⟨specSection, encodeEntries (entries.map (·.utf8))⟩
  | .metadata pairs => Wasm.CustomSection.toSection ⟨metaSection, pairs.flatMap MetaEntry.encode⟩
  | .other custom => custom.toSection
  | .plain s => s

/-- A part that a section is long enough for. -/
def Short (part : Part) : Prop :=
  match part.custom? with
  | some custom => custom.Fits
  | none => part.encode.payload.length < UInt32.size

instance : DecidablePred Fits
  | .interface entries => inferInstanceAs (Decidable (∀ entry ∈ entries, entry.utf8.Fits))
  | .metadata pairs => inferInstanceAs (Decidable (∀ pair ∈ pairs, pair.Fits))
  | .other custom => inferInstanceAs (Decidable
      (custom.name ≠ specSection ∧ custom.name ≠ metaSection))
  | .plain s => inferInstanceAs (Decidable (s.id ≠ 0))

instance : DecidablePred Short
  | .interface _ | .metadata _ | .other _ =>
    inferInstanceAs (Decidable (Wasm.CustomSection.Fits _))
  | .plain s => inferInstanceAs (Decidable (s.payload.length < UInt32.size))

lemma written_encode {part : Part} (h : part.Short) : part.Written part.encode := by
  cases part with
  | interface => exact .interface (Wasm.CustomSection.written_encode h)
  | metadata => exact .metadata (Wasm.CustomSection.written_encode h)
  | other => exact .other (Wasm.CustomSection.written_encode h)
  | plain => exact .plain

lemma length_encode_lt {part : Part} (h : part.Short) :
    part.encode.payload.length < UInt32.size := by
  cases part with
  | interface | metadata | other => exact Wasm.CustomSection.length_encode_lt h
  | plain => exact h

end Part

/-- Parts that sections are long enough for make a module. -/
lemma written_encode_parts (h : ∀ part ∈ parts, part.Short) :
    List.Forall₂ Part.Written parts (parts.map (·.encode)) ∧
      Wasm.Written (parts.map (·.encode)) (Wasm.encode (parts.map (·.encode))) := by
  constructor
  · rw [List.forall₂_map_right_iff, List.forall₂_same]
    exact fun part hpart => Part.written_encode (h part hpart)
  · refine Wasm.written_encode fun s hs => ?_
    obtain ⟨part, hpart, rfl⟩ := List.mem_map.1 hs
    exact Part.length_encode_lt (h part hpart)

/-! ### Extraction from a written module -/

/-- What a module holds under a name, part by part. -/
lemma contentsNamed_parts (name : String) (parts : List Part) :
    Wasm.contentsNamed name (parts.map (·.custom?)).reduceOption =
      parts.filterMap (·.contents? name) := by
  induction parts with
  | nil => rfl
  | cons part parts ih =>
    rw [List.map_cons, List.filterMap_cons]
    cases hcustom : part.custom? with
    | none =>
      rw [List.reduceOption_cons_of_none, ih, Part.contents?, hcustom]
      rfl
    | some custom =>
      rw [List.reduceOption_cons_of_some, Part.contents?, hcustom]
      by_cases hname : custom.name = name
      · simpa [Wasm.contentsNamed, Option.filter, hname] using ih
      · simpa [Wasm.contentsNamed, Option.filter, hname] using ih

/-- The interface that is shown of entries under a name. -/
def shownSpec (name : Option String) (entries : List (Entry String)) : Spec where
  name := name
  functions := entries.filterMap (·.function?)
  types := entries.filterMap (·.typeDecl?)
  errors := entries.flatMap (·.errorCases)
  rawEntries := entries.map fun entry => Base64.encode entry.utf8.encode

/-- What is collected from the bytes of entries is what is shown of them. -/
lemma toSpec_gather_utf8 (name : Option String) (entries : List (Entry String)) :
    (Collected.empty.gather (entries.map (·.utf8))).toSpec name = shownSpec name entries := by
  rw [Collected.gather_eq, Collected.toSpec, shownSpec, List.filterMap_eq_flatMap_toList,
    List.filterMap_eq_flatMap_toList, List.map_map]
  simp only [List.flatMap_map, Entry.functions_ofEntry, Entry.types_ofEntry,
    Entry.errors_ofEntry]
  rfl

/-- Each section of a written module shows the part that it holds. -/
lemma shows_parts (hfits : ∀ part ∈ parts, part.Fits)
    (hparts : List.Forall₂ Part.Written parts found) :
    List.Forall₂ Wasm.Section.Shows found (parts.map (·.custom?)) := by
  induction hparts with
  | nil => exact .nil
  | cons hpart _ ih =>
    obtain ⟨hfirst, hfits⟩ := List.forall_mem_cons.1 hfits
    exact .cons (Part.shows_of_written hfirst hpart) (ih hfits)

/-- **Extraction inverts writing.**  From a written module, in which parts of the interface hold
groups of entries, exactly what is shown of all these entries in their order comes out, under the
name in the pairs of its metadata. -/
theorem extract_written (hfits : ∀ part ∈ parts, part.Fits)
    (hgroups : parts.filterMap (·.entries?) = groups) (hnonempty : groups ≠ [])
    (hpairs : (parts.filterMap (·.pairs?)).flatten = pairs)
    (hparts : List.Forall₂ Part.Written parts found) (hwasm : Wasm.Written found wasm) :
    extract false wasm = .ok (shownSpec (MetaEntry.nameAmong pairs) groups.flatten) := by
  have hfound (name : String) :
      Wasm.contentsOf wasm name = .ok (parts.filterMap (·.contents? name)) := by
    rw [Wasm.contentsOf_of_shows hwasm (shows_parts hfits hparts), contentsNamed_parts]
  -- under the name of the interface stand the groups, and under that of the metadata the pairs
  have hspec : Wasm.contentsOf wasm specSection =
      .ok ((groups.map (List.map (·.utf8))).map encodeEntries) := by
    rw [hfound, List.filterMap_congr fun part h => Part.contents?_specSection (hfits part h),
      ← List.map_filterMap, hgroups, List.map_map]
    rfl
  have hname : contractName wasm = .ok (MetaEntry.nameAmong pairs) := by
    refine contractName_eq_ok.2 ⟨_, hfound metaSection, ?_⟩
    rw [List.filterMap_congr fun part h => Part.contents?_metaSection (hfits part h),
      ← List.map_filterMap, ← hpairs]
    refine nameIn_eq_of_encode fun pair hpair => ?_
    obtain ⟨pairs, hmem, hpair⟩ := List.mem_flatten.1 hpair
    obtain ⟨part, hpart, hsome⟩ := List.mem_filterMap.1 hmem
    exact Part.fits_of_pairs? (hfits part hpart) hsome pair hpair
  refine extract_eq_ok.2 ⟨groups.map (List.map (·.utf8)), _, by simpa using hnonempty, ?_, hspec,
    hname, ?_, nofun⟩
  · intro entry hentry
    rw [← List.map_flatten] at hentry
    obtain ⟨text, htext, rfl⟩ := List.mem_map.1 hentry
    obtain ⟨entries, hmem, htext⟩ := List.mem_flatten.1 htext
    rw [← hgroups] at hmem
    obtain ⟨part, hpart, hsome⟩ := List.mem_filterMap.1 hmem
    exact Part.fits_of_entries? (hfits part hpart) hsome text htext
  · rw [← List.map_flatten, toSpec_gather_utf8]

/-- Two functions, one of them of the host, and a structure. -/
def payEntries : List (Entry String) :=
  [.function "Pays." "pay" [⟨"", "to", .simple .muxedAddress⟩]
      (some (.result (.simple .val) (.simple .error))),
    .function "" "__check" [] none,
    .struct ⟨"", "", "Pair"⟩ [⟨"", "left", .option (.udt "Key")⟩, ⟨"", "hash", .bytesN 32⟩]]

/-- An entry of each of the other kinds. -/
def keyEntries : List (Entry String) :=
  [.union ⟨"A key.", "", "Key"⟩ [.void "" "Admin", .tuple "" "Of" [.simple .address]],
    .enum ⟨"", "", "Color"⟩ [⟨"", "Red", 1⟩, ⟨"", "Blue", 4294967295⟩],
    .errorEnum ⟨"", "", "Fault"⟩ [⟨"", "Late", 1⟩, ⟨"Too much.", "Much", 2⟩],
    .event ⟨"", "", "Paid"⟩ ["pay", "paid"] [⟨"", "amount", .simple .i128, 0⟩] 2]

/-- A module with these entries in two sections, metadata and other sections. -/
def mixedParts : List Part :=
  [.plain ⟨1, [0]⟩, .interface payEntries, .other ⟨"name", [1, 2]⟩,
   .metadata [⟨Utf8.encode "rust", Utf8.encode "1"⟩, ⟨Utf8.encode "name", Utf8.encode "c"⟩],
   .interface keyEntries]

theorem extract_written_mixed :
    extract false (Wasm.encode (mixedParts.map (·.encode))) = .ok
      { name := some "c"
        functions := [⟨"pay", [⟨"to", .primitive .address, none⟩],
          some (.result (.primitive .void) (.primitive .status)), some "Pays."⟩]
        types := [
          ⟨"Pair", .struct [⟨"left", .option (.custom "Key"), none⟩, ⟨"hash", .bytesN 32, none⟩],
            none⟩,
          ⟨"Key", .union [⟨"Admin", none, none⟩, ⟨"Of", some (.tuple [.primitive .address]), none⟩],
            some "A key."⟩,
          ⟨"Color", .enum [⟨"Red", 1, none⟩, ⟨"Blue", 4294967295, none⟩], none⟩]
        errors := [⟨"Late", 1, none, some "Fault"⟩, ⟨"Much", 2, some "Too much.", some "Fault"⟩]
        rawEntries := (payEntries ++ keyEntries).map fun entry =>
          Base64.encode entry.utf8.encode } := by
  have hfits : ∀ part ∈ mixedParts, part.Fits := by decide +kernel
  have hshort : ∀ part ∈ mixedParts, part.Short := by decide +kernel
  obtain ⟨hparts, hwasm⟩ := written_encode_parts hshort
  exact extract_written hfits rfl (List.cons_ne_nil _ _) rfl hparts hwasm

end ContractInterface.Spec
