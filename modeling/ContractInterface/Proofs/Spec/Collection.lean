/-
# What is collected from sections

Reading a section collects its entries one after the other, and stops at the end or at the first
place where no entry can be read.  Whatever stops it, what has been collected is exactly what the
entries read so far contribute, each with its own bytes.  The main results are

* `Collected.readFrom_spec`: the invariant of the loop over a section, for every outcome;
* `Collected.readSections_eq_ok`: sections are read to their ends exactly if each of them is a
  sequence of written entries;
* `Collected.readSections_eq_error`: where an entry cannot be read, those in front of it stay.
-/
import ContractInterface.Proofs.Spec.Reading
import ContractInterface.Spec.Extraction

namespace ContractInterface.Spec

open Xdr Xdr.Cursor

/-- The written forms of entries, one after the other. -/
def encodeEntries (entries : List Entry) : Bytes :=
  entries.flatMap Entry.encode

@[simp] lemma encodeEntries_nil : encodeEntries [] = [] := rfl

@[simp] lemma encodeEntries_cons (entry : Entry) (entries : List Entry) :
    encodeEntries (entry :: entries) = entry.encode ++ encodeEntries entries := rfl

@[simp] lemma encodeEntries_append (entries entries' : List Entry) :
    encodeEntries (entries ++ entries') = encodeEntries entries ++ encodeEntries entries' :=
  List.flatMap_append

lemma encodeEntries_flatten (groups : List (List Entry)) :
    encodeEntries groups.flatten = (groups.map encodeEntries).flatten := by
  induction groups with
  | nil => rfl
  | cons group groups ih => rw [List.flatten_cons, encodeEntries_append, ih]; rfl

/-- How reading entries ends at a place where there is no further one. -/
inductive StopsAt (c : Cursor) : Except ExtractionError Unit → Prop where
  | finished (atEnd : c.ahead = []) : StopsAt c (.ok ())
  | malformed {fault : WireFault} {c' : Cursor} (failed : Entry.read c = .error (.wire fault) c') :
      StopsAt c (.error (.malformedEntry c.offset fault))
  | violating {found : Violation} {c' : Cursor}
      (failed : Entry.read c = .error (.format found) c') : StopsAt c (.error (.violation found))

namespace Collected

/-- What has been collected, with what entries contribute and with their bytes. -/
def gather (collected : Collected) (entries : List Entry) : Collected :=
  entries.foldl (fun collected entry => (collected.add entry).addRaw entry.encode) collected

@[simp] lemma gather_nil (collected : Collected) : collected.gather [] = collected := rfl

@[simp] lemma gather_cons (collected : Collected) (entry : Entry) (entries : List Entry) :
    collected.gather (entry :: entries) =
      ((collected.add entry).addRaw entry.encode).gather entries := rfl

lemma gather_append (collected : Collected) (entries entries' : List Entry) :
    collected.gather (entries ++ entries') = (collected.gather entries).gather entries' :=
  List.foldl_append

variable {c c' : Cursor} {collected collected' : Collected}

/-- One step of the loop over a section: an entry that can be read is collected with its bytes. -/
lemma readFrom_step {steps : Nat} {entry : Entry} (h : Entry.read c = .ok entry c') :
    readFrom (steps + 1) c collected =
      readFrom steps c' ((collected.add entry).addRaw entry.encode) := by
  obtain ⟨-, hpass⟩ := Entry.read_eq_ok.1 h
  have hlen := entry.four_le_length_encode
  have hmore := hpass.not_isAtEnd (by omega)
  have hraw : c.ahead.take (c'.offset - c.offset) = entry.encode := by
    rw [hpass.offset_eq, Nat.add_sub_cancel_left, hpass.ahead_eq, List.take_left]
  rw [readFrom, if_neg hmore, EStateM.run, h]
  simp only [hraw]

/-- **The loop over a section.**  It reads entries that fit, one behind the other, and collects
what they contribute; then it stops where there is no further one. -/
theorem readFrom_spec {steps : Nat} (hin : c.offset ≤ c.size) (hsteps : c.ahead.length ≤ steps) :
    ∃ entries c₁, (∀ entry ∈ entries, entry.Fits) ∧ c.Passes (encodeEntries entries) c₁ ∧
      (readFrom steps c collected).2 = collected.gather entries ∧
      StopsAt c₁ (readFrom steps c collected).1 := by
  induction steps generalizing c collected with
  | zero =>
    exact ⟨[], c, by simp, Passes.refl hin, rfl,
      .finished (List.eq_nil_of_length_eq_zero (Nat.le_zero.1 hsteps))⟩
  | succ steps ih =>
    by_cases hend : c.isAtEnd
    · rw [readFrom, if_pos hend]
      exact ⟨[], c, by simp, Passes.refl hin, rfl, .finished ((isAtEnd_iff hin).1 hend)⟩
    · cases hread : Entry.read c with
      | ok entry c' =>
        obtain ⟨hfits, hpass⟩ := Entry.read_eq_ok.1 hread
        have hlen := entry.four_le_length_encode
        have hahead := hpass.length_ahead_eq
        -- the entry takes at least one of the steps that are left
        obtain ⟨entries, c₁, hall, hrest, hgather, hstop⟩ :=
          @ih c' ((collected.add entry).addRaw entry.encode) hpass.inside_right (by omega)
        rw [readFrom_step hread]
        exact ⟨entry :: entries, c₁, List.forall_mem_cons.2 ⟨hfits, hall⟩, hpass.trans hrest,
          hgather, hstop⟩
      | error fault c' =>
        rw [readFrom, if_neg hend, EStateM.run, hread]
        cases fault with
        | wire fault => exact ⟨[], c, by simp, Passes.refl hin, rfl, .malformed hread⟩
        | format found => exact ⟨[], c, by simp, Passes.refl hin, rfl, .violating hread⟩

/-- Written entries that fit are all collected. -/
lemma readFrom_encodeEntries {steps : Nat} {entries : List Entry}
    (hfits : ∀ entry ∈ entries, entry.Fits) (hpass : c.Passes (encodeEntries entries) c')
    (hend : c'.ahead = []) (hsteps : c.ahead.length ≤ steps) :
    readFrom steps c collected = (.ok (), collected.gather entries) := by
  induction entries generalizing c collected steps with
  | nil =>
    obtain ⟨hin, rfl⟩ := passes_nil_iff.1 hpass
    cases steps with
    | zero => rfl
    | succ steps =>
      rw [readFrom, if_pos ((isAtEnd_iff hin).2 hend)]
      rfl
  | cons entry entries ih =>
    obtain ⟨hentry, hfits⟩ := List.forall_mem_cons.1 hfits
    rw [encodeEntries_cons] at hpass
    obtain ⟨c₁, hhead, htail⟩ := passes_append_iff.1 hpass
    have hlen := entry.four_le_length_encode
    have hahead := hhead.length_ahead_eq
    obtain ⟨steps, rfl⟩ : ∃ n, steps = n + 1 := Nat.exists_eq_add_one.2 (by omega)
    rw [readFrom_step (Entry.read_eq_ok.2 ⟨hentry, hhead⟩)]
    exact ih hfits htail (by omega)

/-! ### Several sections -/

/-- A section of written entries is read to its end. -/
lemma readSections_cons {entries : List Entry} (hfits : ∀ entry ∈ entries, entry.Fits)
    (sections : List Bytes) :
    collected.readSections (encodeEntries entries :: sections) =
      (collected.gather entries).readSections sections := by
  obtain ⟨c', hpass, hend⟩ := exists_passes_start (encodeEntries entries) []
  rw [List.append_nil] at hpass
  have hrun : readFrom (encodeEntries entries).length (Cursor.start (encodeEntries entries))
      collected = (.ok (), collected.gather entries) :=
    readFrom_encodeEntries hfits hpass hend le_rfl
  rw [readSections, hrun]

/-- **Sections are read to their ends exactly if each is a sequence of written entries**, and then
what all these entries contribute has been collected. -/
theorem readSections_eq_ok {sections : List Bytes} :
    collected.readSections sections = (.ok (), collected') ↔
      ∃ groups : List (List Entry), (∀ entry ∈ groups.flatten, entry.Fits) ∧
        sections = groups.map encodeEntries ∧ collected' = collected.gather groups.flatten := by
  induction sections generalizing collected with
  | nil =>
    rw [readSections]
    constructor
    · rintro ⟨⟩
      exact ⟨[], by simp, rfl, rfl⟩
    · rintro ⟨groups, -, hgroups, rfl⟩
      obtain rfl := List.map_eq_nil_iff.1 hgroups.symm
      rfl
  | cons bytes sections ih =>
    constructor
    · intro h
      obtain ⟨entries, c₁, hfits, hpass, hgather, hstop⟩ :=
        @readFrom_spec _ collected bytes.length (start_inside bytes) le_rfl
      rw [readSections] at h
      rcases hrun : readFrom bytes.length (Cursor.start bytes) collected with ⟨_ | _, collected₁⟩
      · rw [hrun] at h
        cases h
      · rw [hrun] at h hgather hstop
        obtain ⟨groups, hgroups, rfl, rfl⟩ := ih.1 h
        obtain rfl := hgather
        cases hstop with
        | finished hend =>
          have hbytes := eq_of_passes_start hpass hend
          refine ⟨entries :: groups, ?_, ?_, ?_⟩
          · rw [List.flatten_cons]
            exact List.forall_mem_append.2 ⟨hfits, hgroups⟩
          · rw [List.map_cons, hbytes]
          · rw [List.flatten_cons, gather_append]
    · rintro ⟨groups, hfits, hgroups, rfl⟩
      obtain ⟨entries, groups, rfl, rfl, rfl⟩ := List.map_eq_cons_iff.1 hgroups.symm
      obtain ⟨hentries, hfits⟩ := List.forall_mem_append.1 hfits
      rw [readSections_cons hentries]
      exact ih.2 ⟨groups, hfits, rfl, by rw [List.flatten_cons, gather_append]⟩

/-- **Where an entry cannot be read, those in front of it stay**, and nothing else has been
collected: neither a part of that entry nor anything behind it. -/
theorem readSections_eq_error {sections : List Bytes} {error : ExtractionError}
    (h : collected.readSections sections = (.error error, collected')) :
    ∃ (groups : List (List Entry)) (bytes : Bytes) (after : List Bytes) (entries : List Entry)
      (c : Cursor), sections = groups.map encodeEntries ++ bytes :: after ∧
        (∀ entry ∈ groups.flatten ++ entries, entry.Fits) ∧
        (Cursor.start bytes).Passes (encodeEntries entries) c ∧ StopsAt c (.error error) ∧
        collected' = collected.gather (groups.flatten ++ entries) := by
  induction sections generalizing collected with
  | nil =>
    rw [readSections] at h
    cases h
  | cons bytes sections ih =>
    obtain ⟨entries, c₁, hfits, hpass, hgather, hstop⟩ :=
      @readFrom_spec _ collected bytes.length (start_inside bytes) le_rfl
    rw [readSections] at h
    rcases hrun : readFrom bytes.length (Cursor.start bytes) collected with ⟨_ | _, collected₁⟩
    · rw [hrun] at h hgather hstop
      cases h
      exact ⟨[], bytes, sections, entries, c₁, rfl, hfits, hpass, hstop, hgather⟩
    · rw [hrun] at h hgather hstop
      obtain rfl := hgather
      cases hstop with
      | finished hend =>
        -- this section has been read to its end, and a later one stops
        obtain ⟨groups, rest, after, entries', c, rfl, hall, hpass', hstop', rfl⟩ := ih h
        have hbytes := eq_of_passes_start hpass hend
        refine ⟨entries :: groups, rest, after, entries', c, ?_, ?_, hpass', hstop', ?_⟩
        · rw [List.map_cons, List.cons_append, hbytes]
        · rw [List.flatten_cons, List.append_assoc]
          exact List.forall_mem_append.2 ⟨hfits, hall⟩
        · rw [List.flatten_cons, List.append_assoc, gather_append _ entries]

end Collected

end ContractInterface.Spec
