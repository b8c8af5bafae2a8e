/-
# Which byte strings are modules

A byte string is read to its end exactly if it is a module, and its sections are told by it.
Anything else is read up to the first place where no section is complete; so what has been found by
then is the longest run of sections that the byte string begins with.  The main results are

* `sections_eq_iff`: all of a byte string is read exactly if it is a module;
* `leads_iff`: the runs of sections at the front are the first parts of what is found;
* `CustomSection.ofPayload_eq_ok_iff`: a custom section is read exactly from its written forms;
* `contentsOf_eq_ok_iff`, `contentsOf_eq_error_iff`: when custom sections of a name are found.
-/
import Mathlib.Data.List.Infix
import Mathlib.Tactic.ByContra
import ContractInterface.Proofs.Wasm.Module

namespace ContractInterface.Wasm

/-! ### Custom sections -/

/-- A custom section is read exactly from what is written of it. -/
theorem CustomSection.ofPayload_eq_ok_iff {custom : CustomSection} {payload : Bytes} :
    ofPayload payload = .ok custom ↔ custom.Written payload := by
  constructor
  · intro h
    rw [ofPayload] at h
    split at h
    · cases h
    · rename_i length body hread
      obtain ⟨form, hform, rfl⟩ := Leb128.read_eq_ok_iff.1 hread
      split at h
      · cases h
      · rename_i name contents hcut
        obtain ⟨rfl, rfl⟩ := Bytes.split?_eq_some_iff.1 hcut
        split at h
        · cases h
        · rename_i text htext
          cases h
          obtain rfl := Utf8.decode_eq_ok_iff.1 htext
          exact ⟨form, hform, (List.append_assoc ..).symm⟩
  · exact ofPayload_of_written

/-- `payload` does not begin with a name. -/
inductive Misnamed (payload : Bytes) : Prop where
  /-- It does not even begin with the length of a name. -/
  | noLength (h : ∀ length form, Leb128.Form length form → ¬form <+: payload)
  /-- The name is longer than what follows its length. -/
  | overrun {length : Nat} {form rest : Bytes} (hform : Leb128.Form length form)
      (hpayload : payload = form ++ rest) (hshort : rest.length < length)
  /-- The name is not the bytes of a text. -/
  | notText {form name rest : Bytes} (hform : Leb128.Form name.length form)
      (hpayload : payload = form ++ name ++ rest) (hname : ∀ text, name ≠ Utf8.encode text)

/-- A custom section cannot be read exactly if its payload does not begin with a name. -/
theorem CustomSection.ofPayload_eq_error_iff {payload : Bytes} :
    (∃ fault, ofPayload payload = .error fault) ↔ Misnamed payload := by
  constructor
  · rintro ⟨fault, h⟩
    rw [ofPayload] at h
    split at h
    · rename_i defect hread
      refine .noLength fun length form hform hprefix => ?_
      obtain ⟨rest, rfl⟩ := hprefix
      rw [Leb128.read_append hform] at hread
      cases hread
    · rename_i length body hread
      obtain ⟨form, hform, rfl⟩ := Leb128.read_eq_ok_iff.1 hread
      split at h
      · rename_i hcut
        exact .overrun hform rfl (Bytes.split?_eq_none_iff.1 hcut)
      · rename_i name contents hcut
        obtain ⟨rfl, rfl⟩ := Bytes.split?_eq_some_iff.1 hcut
        split at h
        · rename_i defect hname
          refine .notText hform (List.append_assoc ..).symm ?_
          rintro text rfl
          rw [Utf8.decode_encode] at hname
          cases hname
        · cases h
  · intro h
    cases h with
    | noLength h =>
      cases hread : Leb128.read payload with
      | error defect => exact ⟨_, by rw [ofPayload, hread]⟩
      | ok found =>
        obtain ⟨form, hform, rfl⟩ := Leb128.read_eq_ok_iff.1 hread
        exact absurd (List.prefix_append form found.2) (h found.1 form hform)
    | overrun hform hpayload hshort =>
      refine ⟨.nameOverrun, ?_⟩
      rw [ofPayload, hpayload, Leb128.read_append hform]
      simp only [Bytes.split?_eq_none_iff.2 hshort]
    | @notText form name rest hform hpayload hname =>
      cases htext : Utf8.decode name with
      | error defect =>
        refine ⟨.nameNotText defect, ?_⟩
        rw [ofPayload, hpayload, List.append_assoc, Leb128.read_append hform]
        simp only [split?_append, htext]
      | ok text => exact absurd (Utf8.decode_eq_ok_iff.1 htext) (hname text)

/-- What a section holds: no custom section, or one that is written in its payload. -/
def Section.Holds (s : Section) : Option CustomSection → Prop
  | none => s.id ≠ 0
  | some custom => s.id = 0 ∧ custom.Written s.payload

lemma Section.shows_eq_holds : Section.Shows = Section.Holds := by
  funext s custom
  cases custom with
  | none => rfl
  | some custom => exact propext (and_congr_right fun _ => CustomSection.ofPayload_eq_ok_iff)

/-- A section holds nothing exactly if it is custom and misnamed. -/
lemma Section.exists_holds_iff {s : Section} :
    (∃ custom, s.Holds custom) ↔ ¬(s.id = 0 ∧ Misnamed s.payload) := by
  rw [← CustomSection.ofPayload_eq_error_iff]
  constructor
  · rintro ⟨custom, h⟩ ⟨hid, fault, hfault⟩
    cases custom with
    | none => exact h hid
    | some custom =>
      rw [CustomSection.ofPayload_eq_ok_iff.2 h.2] at hfault
      cases hfault
  · intro h
    by_cases hid : s.id = 0
    · rcases hpayload : CustomSection.ofPayload s.payload with fault | custom
      · exact absurd ⟨hid, fault, hpayload⟩ h
      · exact ⟨some custom, hid, CustomSection.ofPayload_eq_ok_iff.1 hpayload⟩
    · exact ⟨none, hid⟩

lemma exists_holds_of_mem {found : List Section} {shown : List (Option CustomSection)}
    (h : List.Forall₂ Section.Holds found shown) {s : Section} (hs : s ∈ found) :
    ∃ custom, s.Holds custom := by
  induction h with
  | nil => cases hs
  | cons hholds _ ih =>
    rcases List.mem_cons.1 hs with rfl | hs
    · exact ⟨_, hholds⟩
    · exact ih hs

/-! ### Sections -/

/-- Complete sections are found, and reading goes on behind them. -/
lemma sectionsIn_flatten_append {found : List Section} {forms : List Bytes}
    (h : List.Forall₂ Section.Written found forms) (size : Nat) (rest : Bytes) :
    sectionsIn size (forms.flatten ++ rest) =
      ⟨found ++ (sectionsIn size rest).items, (sectionsIn size rest).stopped⟩ := by
  induction h with
  | nil => rfl
  | cons hs _ ih =>
    rw [List.flatten_cons, List.append_assoc, sectionsIn_append hs, ih]
    rfl

/-- What is found are complete sections in front, and without a fault nothing is left. -/
lemma exists_forms_of_sectionsIn (size : Nat) (bytes : Bytes) :
    ∃ forms rest, List.Forall₂ Section.Written (sectionsIn size bytes).items forms ∧
      bytes = forms.flatten ++ rest ∧ ((sectionsIn size bytes).stopped = none → rest = []) := by
  fun_induction sectionsIn size bytes with
  | case1 => exact ⟨[], [], .nil, rfl, fun _ => rfl⟩
  | case2 id bytes defect hread => exact ⟨[], _, .nil, rfl, nofun⟩
  | case3 id bytes length body hread hcut => exact ⟨[], _, .nil, rfl, nofun⟩
  | case4 id bytes length body hread payload next hcut shorter ih =>
    obtain ⟨form, hform, rfl⟩ := Leb128.read_eq_ok_iff.1 hread
    obtain ⟨rfl, rfl⟩ := Bytes.split?_eq_some_iff.1 hcut
    obtain ⟨forms, rest, hforms, hnext, hend⟩ := ih
    refine ⟨(id :: form ++ payload) :: forms, rest, .cons ⟨form, hform, rfl⟩ hforms, ?_, hend⟩
    rw [List.flatten_cons, hnext]
    simp only [List.cons_append, List.append_assoc]

/-- `wasm` begins like a module of the given sections, whatever follows them. -/
def Leads (found : List Section) (wasm : Bytes) : Prop :=
  ∃ front, Written found front ∧ front <+: wasm

variable {wasm : Bytes} {found : List Section}

/-- Behind magic and version there are sections. -/
lemma sections_of_header (rest : Bytes) : ∃ size,
    sections (magic ++ version ++ rest) = sectionsIn size rest := by
  refine ⟨(magic ++ version ++ rest).length, ?_⟩
  rw [sections, if_neg (by simp [magic, version]), if_neg (by simp [magic, version])]
  rfl

/-- Without magic and version there are none. -/
lemma sections_of_no_header (h : ¬magic ++ version <+: wasm) :
    ∃ fault, sections wasm = ⟨[], some fault⟩ := by
  rw [sections]
  split_ifs with hmagic hversion
  · exact ⟨_, rfl⟩
  · exact ⟨_, rfl⟩
  · exfalso
    obtain ⟨-, hmagic⟩ := not_or.1 hmagic
    have hwasm : magic ++ (version ++ (wasm.drop 4).drop 4) = wasm := by
      rw [← not_not.1 hversion, List.take_append_drop, ← not_not.1 hmagic, List.take_append_drop]
    exact h ⟨(wasm.drop 4).drop 4, by rw [List.append_assoc, hwasm]⟩

lemma leads_nil_iff : Leads [] wasm ↔ magic ++ version <+: wasm := by
  constructor
  · rintro ⟨front, ⟨forms, hforms, rfl⟩, hfront⟩
    exact (List.prefix_append ..).trans hfront
  · intro h
    exact ⟨magic ++ version, ⟨[], .nil, (List.append_nil _).symm⟩, h⟩

/-- The sections that a module begins with are found first. -/
lemma prefix_of_leads (h : Leads found wasm) : found <+: (sections wasm).items := by
  obtain ⟨front, ⟨forms, hforms, rfl⟩, rest, rfl⟩ := h
  obtain ⟨size, hsize⟩ := sections_of_header (forms.flatten ++ rest)
  rw [List.append_assoc, hsize, sectionsIn_flatten_append hforms]
  exact List.prefix_append ..

/-- Behind magic and version, what is found are sections that the module begins with, and without
a fault it ends there. -/
lemma exists_written_of_header (h : magic ++ version <+: wasm) :
    ∃ front rest, Written (sections wasm).items front ∧ wasm = front ++ rest ∧
      ((sections wasm).stopped = none → rest = []) := by
  obtain ⟨bytes, rfl⟩ := h
  obtain ⟨size, hsize⟩ := sections_of_header bytes
  obtain ⟨forms, rest, hforms, hbytes, hend⟩ := exists_forms_of_sectionsIn size bytes
  rw [hsize]
  refine ⟨_, rest, ⟨forms, hforms, rfl⟩, ?_, hend⟩
  rw [hbytes, List.append_assoc _ forms.flatten]

/-- A run of sections may end earlier. -/
lemma Leads.of_prefix {first : List Section} (h : Leads found wasm) (hfirst : first <+: found) :
    Leads first wasm := by
  obtain ⟨front, ⟨forms, hforms, rfl⟩, hfront⟩ := h
  rw [List.prefix_iff_eq_take.1 hfirst]
  refine ⟨_, ⟨forms.take first.length, List.forall₂_take _ hforms, rfl⟩,
    List.IsPrefix.trans ?_ hfront⟩
  rw [List.prefix_append_right_inj]
  exact List.IsPrefix.flatten (List.take_prefix _ forms)

/-- The sections that a module begins with are the first ones found. -/
theorem leads_iff :
    Leads found wasm ↔ magic ++ version <+: wasm ∧ found <+: (sections wasm).items := by
  constructor
  · intro h
    exact ⟨leads_nil_iff.1 (h.of_prefix (List.nil_prefix)), prefix_of_leads h⟩
  · rintro ⟨hheader, hprefix⟩
    obtain ⟨front, rest, hfront, hwasm, -⟩ := exists_written_of_header hheader
    exact Leads.of_prefix ⟨front, hfront, rest, hwasm.symm⟩ hprefix

/-- All of a byte string is read exactly if it is a module, of the sections found. -/
theorem sections_eq_iff : sections wasm = ⟨found, none⟩ ↔ Written found wasm := by
  constructor
  · intro h
    by_cases hheader : magic ++ version <+: wasm
    · obtain ⟨front, rest, hfront, hwasm, hend⟩ := exists_written_of_header hheader
      rw [h] at hfront hend
      rw [hwasm, hend rfl, List.append_nil]
      exact hfront
    · obtain ⟨fault, hfault⟩ := sections_of_no_header hheader
      rw [h] at hfault
      cases hfault
  · exact sections_of_written

lemma stopped_eq_none_iff : (sections wasm).stopped = none ↔ ∃ found, Written found wasm := by
  constructor
  · intro h
    refine ⟨(sections wasm).items, sections_eq_iff.1 ?_⟩
    rw [← h]
  · rintro ⟨found, hwasm⟩
    rw [sections_of_written hwasm]

/-- The contents of the custom sections of a name are told of a module whose custom sections all
begin with names. -/
theorem contentsOf_eq_ok_iff {name : String} {contents : List Bytes} :
    contentsOf wasm name = .ok contents ↔
      ∃ found shown, Written found wasm ∧ List.Forall₂ Section.Holds found shown ∧
        contents = contentsNamed name shown.reduceOption := by
  rw [contentsOf_eq_ok, Section.shows_eq_holds]
  constructor
  · rintro ⟨hstopped, shown, hshown, hcontents⟩
    obtain ⟨found, hwasm⟩ := stopped_eq_none_iff.1 hstopped
    rw [sections_of_written hwasm] at hshown
    exact ⟨found, shown, hwasm, hshown, hcontents⟩
  · rintro ⟨found, shown, hwasm, hshown, hcontents⟩
    rw [sections_of_written hwasm]
    exact ⟨rfl, shown, hshown, hcontents⟩

/-- Otherwise there is a fault: the byte string is no module, or a custom section does not begin
with a name. -/
theorem contentsOf_eq_error_iff {name : String} :
    (∃ fault, contentsOf wasm name = .error fault) ↔
      (∀ found, ¬Written found wasm) ∨
        ∃ found, Written found wasm ∧ ∃ s ∈ found, s.id = 0 ∧ Misnamed s.payload := by
  constructor
  · rintro ⟨fault, hfault⟩
    by_cases hwasm : ∃ found, Written found wasm
    · right
      obtain ⟨found, hwasm⟩ := hwasm
      refine ⟨found, hwasm, ?_⟩
      by_contra hnamed
      have hshows : ∀ s ∈ found, ∃ custom, s.Shows custom := by
        intro s hs
        rw [Section.shows_eq_holds, Section.exists_holds_iff]
        exact fun hmisnamed => hnamed ⟨s, hs, hmisnamed⟩
      rw [contentsOf_of_written hwasm hshows] at hfault
      cases hfault
    · exact .inl (not_exists.1 hwasm)
  · intro h
    rcases hcontents : contentsOf wasm name with fault | contents
    · exact ⟨fault, rfl⟩
    · exfalso
      obtain ⟨found, shown, hwasm, hshown, -⟩ := contentsOf_eq_ok_iff.1 hcontents
      rcases h with hnone | ⟨found', hwasm', s, hs, hmisnamed⟩
      · exact hnone found hwasm
      · -- a module has its sections in one way only
        obtain rfl : found = found' := by
          have hsame := (sections_of_written hwasm).symm.trans (sections_of_written hwasm')
          exact congrArg Run.items hsame
        exact Section.exists_holds_iff.1 (exists_holds_of_mem hshown hs) hmisnamed

/-! ### Framing -/

/-- **Exactly the modules are read.**  All of a byte string is read, and gives certain sections,
exactly if it is a module of these sections: magic and version, and then for each section its id,
the length of its payload as a number of one to five bytes, the shortest form or not, and its
payload.  Anything else stops reading with a fault, and what was found before is the greatest run of
sections that the byte string begins with, or nothing where magic and version are wrong.  The custom
sections of a name are found if the byte string is a module in which every custom section begins
with a name; these are the contents behind the name, in order.  A byte string that is no module, or
a custom section of any name that does not begin with a name, leads to a fault. -/
theorem framing_exact (wasm : Bytes) :
    (∀ found, sections wasm = ⟨found, none⟩ ↔ Written found wasm) ∧
    ((∀ found, ¬Written found wasm) →
      (∃ fault, (sections wasm).stopped = some fault) ∧
      (magic ++ version <+: wasm →
        ∀ found, Leads found wasm ↔ found <+: (sections wasm).items) ∧
      (¬magic ++ version <+: wasm → (sections wasm).items = [])) ∧
    ∀ name,
      (∀ contents, contentsOf wasm name = .ok contents ↔
        ∃ found shown, Written found wasm ∧ List.Forall₂ Section.Holds found shown ∧
          contents = contentsNamed name shown.reduceOption) ∧
      ((∃ fault, contentsOf wasm name = .error fault) ↔
        (∀ found, ¬Written found wasm) ∨
          ∃ found, Written found wasm ∧ ∃ s ∈ found, s.id = 0 ∧ Misnamed s.payload) := by
  refine ⟨fun found => sections_eq_iff, fun hnone => ⟨?_, ?_, ?_⟩,
    fun name => ⟨fun contents => contentsOf_eq_ok_iff, contentsOf_eq_error_iff⟩⟩
  · rw [← Option.ne_none_iff_exists']
    exact fun hstopped => not_exists.2 hnone (stopped_eq_none_iff.1 hstopped)
  · intro hheader found
    rw [leads_iff, and_iff_right hheader]
  · intro hheader
    obtain ⟨fault, hfault⟩ := sections_of_no_header hheader
    rw [hfault]

/-- A custom section whose length takes more groups than it needs, and the beginning of another
section in which the byte string ends. -/
def cutModule : Bytes :=
  magic ++ version ++ [0, 0x83, 0x00, 1, 97, 7, 1, 5, 0]

theorem framing_exact_cut :
    (∀ found, ¬Written found cutModule) ∧ magic ++ version <+: cutModule ∧
      (∀ found, Leads found cutModule ↔ found <+: [⟨0, [1, 97, 7]⟩]) ∧
      ∃ fault, contentsOf cutModule "a" = .error fault := by
  obtain ⟨hwritten, hother, hcustom⟩ := framing_exact cutModule
  have hrun : sections cutModule = ⟨[⟨0, [1, 97, 7]⟩], some (.sectionOverrun 1 16)⟩ := by cbv
  have hnone : ∀ found, ¬Written found cutModule := by
    intro found h
    have hfound := (hwritten found).2 h
    rw [hrun] at hfound
    cases hfound
  have hheader : magic ++ version <+: cutModule := List.prefix_append ..
  have hleads := (hother hnone).2.1 hheader
  rw [hrun] at hleads
  exact ⟨hnone, hheader, hleads, (hcustom "a").2.2 (.inl hnone)⟩

end ContractInterface.Wasm
