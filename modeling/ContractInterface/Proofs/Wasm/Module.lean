/-
# The written forms of a module

A module is written as its magic and version, and then its sections one after the other, each with
the length of its payload in any of the forms of that number.  A custom section writes its name,
behind the length of the name, and then its contents.  The main results are

* `written_encode`: every list of sections of less than four gibibytes makes a module;
* `sections_of_written`: all sections of a written module are found;
* `contentsOf_of_shows`: of these, the contents of the custom sections of a name;
* `contentsOf_eq_ok`: nothing else makes a module whose custom sections can be read;
* `contentsOf_eq_contentsIn`: only the custom sections of a name matter to their contents.
-/
import Mathlib.Data.List.Forall2
import Mathlib.Data.List.ReduceOption
import ContractInterface.Proofs.Bytes.Utf8
import ContractInterface.Proofs.Wasm.Leb128
import ContractInterface.Wasm.Section

namespace ContractInterface.Wasm

/-! ### Custom sections -/

/-- `payload` holds the custom section: its name, behind the length of the name, and its
contents. -/
def CustomSection.Written (custom : CustomSection) (payload : Bytes) : Prop :=
  ∃ length, Leb128.Form (Utf8.encode custom.name).length length ∧
    payload = length ++ Utf8.encode custom.name ++ custom.contents

lemma split?_append (bytes rest : Bytes) :
    Bytes.split? bytes.length (bytes ++ rest) = some (bytes, rest) :=
  Bytes.split?_eq_some_iff.2 ⟨rfl, rfl⟩

/-- A written custom section is read back. -/
lemma CustomSection.ofPayload_of_written {custom : CustomSection} {payload : Bytes}
    (h : custom.Written payload) : ofPayload payload = .ok custom := by
  obtain ⟨length, hlength, rfl⟩ := h
  rw [ofPayload, List.append_assoc, Leb128.read_append hlength]
  simp only [split?_append, Utf8.decode_encode]

/-- The payload of a custom section with the shortest length of its name. -/
def CustomSection.encode (custom : CustomSection) : Bytes :=
  Leb128.encode (Utf8.encode custom.name).length ++ Utf8.encode custom.name ++ custom.contents

/-- A custom section that a module may hold. -/
def CustomSection.Fits (custom : CustomSection) : Prop :=
  5 + (Utf8.encode custom.name).length + custom.contents.length < UInt32.size

instance : DecidablePred CustomSection.Fits := fun custom => inferInstanceAs (Decidable
  (5 + (Utf8.encode custom.name).length + custom.contents.length < UInt32.size))

lemma CustomSection.written_encode {custom : CustomSection} (h : custom.Fits) :
    custom.Written custom.encode := by
  rw [Fits] at h
  exact ⟨_, Leb128.form_encode (by omega), rfl⟩

lemma CustomSection.length_encode_lt {custom : CustomSection} (h : custom.Fits) :
    custom.encode.length < UInt32.size := by
  rw [Fits] at h
  have hform : Leb128.Form _ _ :=
    @Leb128.form_encode (Utf8.encode custom.name).length (by omega)
  have hlen := hform.length_le
  simp only [encode, List.length_append]
  omega

/-- What a section shows: nothing if it is not custom, and else the custom section in it. -/
def Section.Shows (s : Section) : Option CustomSection → Prop
  | none => s.id ≠ 0
  | some custom => s.id = 0 ∧ CustomSection.ofPayload s.payload = .ok custom

lemma customIn_of_shows {sections : List Section} {shown : List (Option CustomSection)}
    (h : List.Forall₂ Section.Shows sections shown) :
    customIn none sections = ⟨shown.reduceOption, none⟩ := by
  induction h with
  | nil => rfl
  | @cons s custom sections shown hs _ ih =>
    cases custom with
    | none =>
      have hid : s.id ≠ 0 := hs
      rw [customIn, if_pos hid, ih, List.reduceOption_cons_of_none]
    | some custom =>
      rw [customIn, if_neg (not_not_intro hs.1), hs.2]
      simp only [ih, Run.cons, List.reduceOption_cons_of_some]

/-- If all custom sections can be read, each section shows something. -/
lemma exists_shows_of_customIn {sections : List Section} {stopped : Option Fault}
    {customs : List CustomSection} (h : customIn stopped sections = ⟨customs, none⟩) :
    stopped = none ∧ ∃ shown, List.Forall₂ Section.Shows sections shown ∧
      customs = shown.reduceOption := by
  induction sections generalizing customs with
  | nil =>
    obtain ⟨rfl, rfl⟩ := (Run.mk.injEq ..).mp h
    exact ⟨rfl, [], .nil, rfl⟩
  | cons s sections ih =>
    rw [customIn] at h
    split at h
    · rename_i hid
      obtain ⟨hstopped, shown, hshown, rfl⟩ := ih h
      exact ⟨hstopped, none :: shown, .cons hid hshown, rfl⟩
    · rename_i hid
      cases hpayload : CustomSection.ofPayload s.payload with
      | error fault =>
        rw [hpayload] at h
        cases h
      | ok custom =>
        rw [hpayload] at h
        rcases hrest : customIn stopped sections with ⟨items, stop⟩
        simp only [hrest, Run.cons, Run.mk.injEq] at h
        obtain ⟨rfl, rfl⟩ := h
        obtain ⟨hstopped, shown, hshown, rfl⟩ := ih hrest
        refine ⟨hstopped, some custom :: shown, .cons ⟨not_not.1 hid, hpayload⟩ hshown, ?_⟩
        rw [List.reduceOption_cons_of_some]

/-! ### Modules -/

/-- `bytes` hold the section: its id, the length of its payload in some form, and its payload. -/
def Section.Written (s : Section) (bytes : Bytes) : Prop :=
  ∃ length, Leb128.Form s.payload.length length ∧ bytes = s.id :: length ++ s.payload

/-- `wasm` is a module of the given sections. -/
def Written (sections : List Section) (wasm : Bytes) : Prop :=
  ∃ forms, List.Forall₂ Section.Written sections forms ∧ wasm = magic ++ version ++ forms.flatten

/-- The module of the given sections with the shortest lengths of their payloads. -/
def encode (found : List Section) : Bytes :=
  magic ++ version ++ found.flatMap fun s =>
    s.id :: Leb128.encode s.payload.length ++ s.payload

/-- Sections of less than four gibibytes make a module. -/
lemma written_encode {found : List Section} (h : ∀ s ∈ found, s.payload.length < UInt32.size) :
    Written found (encode found) := by
  refine ⟨found.map fun s => s.id :: Leb128.encode s.payload.length ++ s.payload, ?_, ?_⟩
  · rw [List.forall₂_map_right_iff, List.forall₂_same]
    exact fun s hs => ⟨_, Leb128.form_encode (h s hs), rfl⟩
  · rw [encode, List.flatMap_def]

/-- A written section is found, and reading goes on behind it. -/
lemma sectionsIn_append {s : Section} {bytes : Bytes} (h : s.Written bytes) (size : Nat)
    (rest : Bytes) :
    sectionsIn size (bytes ++ rest) = (sectionsIn size rest).cons s := by
  obtain ⟨length, hlength, rfl⟩ := h
  have hread := Leb128.read_append hlength (s.payload ++ rest)
  rw [← List.append_assoc] at hread
  rw [List.cons_append, List.cons_append, sectionsIn]
  split
  · rename_i hdefect
    rw [hread] at hdefect
    cases hdefect
  · rename_i found body hfound
    rw [hread] at hfound
    cases hfound
    split
    · rename_i hcut
      rw [split?_append] at hcut
      cases hcut
    · rename_i payload next hcut
      rw [split?_append] at hcut
      cases hcut
      rfl

/-- **All sections of a written module are found.** -/
theorem sections_of_written {found : List Section} {wasm : Bytes} (h : Written found wasm) :
    sections wasm = ⟨found, none⟩ := by
  obtain ⟨forms, hforms, rfl⟩ := h
  -- the size only tells offsets in faults, of which there are none
  have hin : ∀ size, sectionsIn size forms.flatten = ⟨found, none⟩ := by
    intro size
    induction hforms with
    | nil => rw [List.flatten_nil, sectionsIn]
    | cons hs _ ih => rw [List.flatten_cons, sectionsIn_append hs, ih]; rfl
  rw [sections, if_neg (by simp [magic, version]), if_neg (by simp [magic, version])]
  exact hin _

/-- The contents, among given custom sections, of those of a name. -/
def contentsNamed (name : String) (customs : List CustomSection) : List Bytes :=
  (customs.filter (·.name = name)).map (·.contents)

/-- The custom sections of a name can be found exactly if all sections of the module can be read
and each shows something. -/
theorem contentsOf_eq_ok {wasm : Bytes} {name : String} {contents : List Bytes} :
    contentsOf wasm name = .ok contents ↔
      (sections wasm).stopped = none ∧ ∃ shown,
        List.Forall₂ Section.Shows (sections wasm).items shown ∧
          contents = contentsNamed name shown.reduceOption := by
  rcases hrun : sections wasm with ⟨items, stopped⟩
  constructor
  · intro h
    rw [contentsOf, customSections, hrun] at h
    rcases hcustoms : customIn stopped items with ⟨customs, stop⟩
    simp only [hcustoms] at h
    cases stop with
    | some fault => cases h
    | none =>
      cases h
      obtain ⟨hstopped, shown, hshown, rfl⟩ := exists_shows_of_customIn hcustoms
      exact ⟨hstopped, shown, hshown, rfl⟩
  · rintro ⟨hstopped, shown, hshown, rfl⟩
    obtain rfl : stopped = none := hstopped
    rw [contentsOf, customSections, hrun]
    simp only [customIn_of_shows hshown]
    rfl

/-- Whether custom sections can be found does not depend on the name. -/
lemma contentsOf_ne_error {wasm : Bytes} {name name' : String} {contents : List Bytes}
    {fault : Fault} (h : contentsOf wasm name = .ok contents) :
    contentsOf wasm name' ≠ .error fault := by
  obtain ⟨hstopped, shown, hshown, -⟩ := contentsOf_eq_ok.1 h
  have hfound : contentsOf wasm name' = .ok (contentsNamed name' shown.reduceOption) :=
    contentsOf_eq_ok.2 ⟨hstopped, shown, hshown, rfl⟩
  rw [hfound]
  exact nofun

/-- **The contents of the custom sections of a name are found**, in the order of the module. -/
theorem contentsOf_of_shows {found : List Section} {shown : List (Option CustomSection)}
    {wasm : Bytes} (hwasm : Written found wasm) (h : List.Forall₂ Section.Shows found shown)
    (name : String) : contentsOf wasm name = .ok (contentsNamed name shown.reduceOption) := by
  rw [contentsOf_eq_ok, sections_of_written hwasm]
  exact ⟨rfl, shown, h, rfl⟩

/-! ### The custom sections of a name -/

namespace Section

/-- The custom section in a section, if it is custom and can be read. -/
def custom? (s : Section) : Option CustomSection :=
  if s.id = 0 then (CustomSection.ofPayload s.payload).toOption else none

/-- Whether a section is a custom section of a name. -/
def isNamed (name : String) (s : Section) : Bool :=
  s.custom?.any (·.name = name)

lemma custom?_of_shows {s : Section} {shown : Option CustomSection} (h : s.Shows shown) :
    s.custom? = shown := by
  rw [custom?]
  cases shown with
  | none => exact if_neg h
  | some custom =>
    rw [if_pos h.1, h.2]
    rfl

lemma exists_shows_of_isNamed {name : String} {s : Section} (h : s.isNamed name) :
    ∃ custom : CustomSection, s.Shows (some custom) := by
  rw [isNamed, custom?] at h
  split at h
  · rename_i hid
    rcases hpayload : CustomSection.ofPayload s.payload with fault | custom
    · rw [hpayload] at h
      cases h
    · exact ⟨custom, hid, hpayload⟩
  · cases h

end Section

/-- The contents of those of the given sections that are custom sections of a name. -/
def contentsIn (name : String) (found : List Section) : List Bytes :=
  ((found.filter (·.isNamed name)).filterMap (·.custom?)).map (·.contents)

lemma contentsNamed_eq_contentsIn {found : List Section} {shown : List (Option CustomSection)}
    (h : List.Forall₂ Section.Shows found shown) (name : String) :
    contentsNamed name shown.reduceOption = contentsIn name found := by
  induction h with
  | nil => rfl
  | @cons s custom found shown hs _ ih =>
    have hcustom := Section.custom?_of_shows hs
    cases custom with
    | none =>
      have hnamed : s.isNamed name = false := by rw [Section.isNamed, hcustom]; rfl
      rw [List.reduceOption_cons_of_none, ih, contentsIn, contentsIn,
        List.filter_cons_of_neg (by simp [hnamed])]
    | some custom =>
      rw [List.reduceOption_cons_of_some]
      by_cases hname : custom.name = name
      · have hnamed : s.isNamed name = true := by
          rw [Section.isNamed, hcustom]
          exact decide_eq_true hname
        rw [contentsIn, List.filter_cons_of_pos hnamed, List.filterMap_cons, hcustom,
          contentsNamed, List.filter_cons_of_pos (by simpa using hname)]
        exact congrArg (custom.contents :: ·) ih
      · have hnamed : ¬s.isNamed name = true := by
          rw [Section.isNamed, hcustom]
          simpa using hname
        rw [contentsIn, List.filter_cons_of_neg hnamed, contentsNamed,
          List.filter_cons_of_neg (by simpa using hname)]
        exact ih

/-- **Only the custom sections of a name matter to their contents**, if there are some to tell. -/
theorem contentsOf_eq_contentsIn {wasm : Bytes} {name : String} {contents : List Bytes}
    (h : contentsOf wasm name = .ok contents) :
    contents = contentsIn name (sections wasm).items := by
  obtain ⟨-, shown, hshown, rfl⟩ := contentsOf_eq_ok.1 h
  exact contentsNamed_eq_contentsIn hshown name

/-- In a written module of sections that can be read, the contents under a name are those of its
sections. -/
lemma contentsOf_of_written {found : List Section} {wasm : Bytes} (hwasm : Written found wasm)
    (h : ∀ s ∈ found, ∃ shown, s.Shows shown) (name : String) :
    contentsOf wasm name = .ok (contentsIn name found) := by
  have hshown : List.Forall₂ Section.Shows found (found.map (·.custom?)) := by
    rw [List.forall₂_map_right_iff, List.forall₂_same]
    intro s hs
    obtain ⟨shown, hshown⟩ := h s hs
    rwa [Section.custom?_of_shows hshown]
  rw [contentsOf_of_shows hwasm hshown, contentsNamed_eq_contentsIn hshown]

/-- Custom sections that hold given contents under a name. -/
lemma contentsIn_of_written {name : String} {found : List Section} {contents : List Bytes}
    (h : List.Forall₂ (fun bytes s => CustomSection.Written ⟨name, bytes⟩ s.payload) contents
      (found.filter (·.isNamed name))) : contentsIn name found = contents := by
  rw [contentsIn]
  have hcustom : ∀ s ∈ found.filter (·.isNamed name), s.id = 0 := by
    intro s hs
    obtain ⟨custom, hid, -⟩ := Section.exists_shows_of_isNamed (List.mem_filter.1 hs).2
    exact hid
  generalize found.filter (·.isNamed name) = named at h hcustom
  induction h with
  | nil => rfl
  | @cons bytes s contents named hs _ ih =>
    obtain ⟨hid, hcustom⟩ := List.forall_mem_cons.1 hcustom
    have hfound : s.custom? = some ⟨name, bytes⟩ :=
      Section.custom?_of_shows ⟨hid, CustomSection.ofPayload_of_written hs⟩
    rw [List.filterMap_cons, hfound]
    exact congrArg _ (ih hcustom)

/-! ### Modules of custom sections -/

/-- The section that holds a custom section. -/
def CustomSection.toSection (custom : CustomSection) : Section :=
  ⟨0, custom.encode⟩

lemma CustomSection.shows_toSection {custom : CustomSection} (h : custom.Fits) :
    custom.toSection.Shows (some custom) :=
  ⟨rfl, ofPayload_of_written (written_encode h)⟩

lemma CustomSection.isNamed_toSection {custom : CustomSection} (h : custom.Fits) (name : String) :
    custom.toSection.isNamed name = decide (custom.name = name) := by
  rw [Section.isNamed, Section.custom?_of_shows (shows_toSection h)]
  rfl

variable {customs : List CustomSection}

lemma filter_isNamed_toSection (h : ∀ custom ∈ customs, custom.Fits) (name : String) :
    (customs.map (·.toSection)).filter (·.isNamed name) =
      (customs.filter (·.name = name)).map (·.toSection) := by
  rw [List.filter_map]
  exact congrArg _ (List.filter_congr fun custom hcustom =>
    CustomSection.isNamed_toSection (h custom hcustom) name)

lemma written_encode_customs (h : ∀ custom ∈ customs, custom.Fits) :
    Written (customs.map (·.toSection)) (encode (customs.map (·.toSection))) := by
  refine written_encode fun s hs => ?_
  obtain ⟨custom, hcustom, rfl⟩ := List.mem_map.1 hs
  exact CustomSection.length_encode_lt (h custom hcustom)

/-- In a module of custom sections, the contents under a name are found. -/
lemma contentsOf_encode_customs (h : ∀ custom ∈ customs, custom.Fits) (name : String) :
    contentsOf (encode (customs.map (·.toSection))) name = .ok (contentsNamed name customs) := by
  have hshown : List.Forall₂ Section.Shows (customs.map (·.toSection)) (customs.map some) := by
    rw [List.forall₂_map_left_iff, List.forall₂_map_right_iff, List.forall₂_same]
    exact fun custom hcustom => CustomSection.shows_toSection (h custom hcustom)
  have hcustoms : (customs.map some).reduceOption = customs := by
    rw [List.reduceOption, List.filterMap_map]
    exact List.filterMap_some
  rw [contentsOf_of_shows (written_encode_customs h) hshown, hcustoms]

end ContractInterface.Wasm
