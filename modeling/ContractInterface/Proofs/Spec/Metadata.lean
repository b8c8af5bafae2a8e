/-
# The name in the metadata of a module

Metadata is a sequence of pairs of a key and a value.  The first pair under the key `name` whose
value is not empty gives the contract its name, and nothing behind that pair is read.  The main
results are

* `nameIn_eq_of_encode`: the name in sections of written pairs;
* `nameIn_eq_error`: a failure is that of reading a pair.
-/
import ContractInterface.Proofs.Spec.Reading
import ContractInterface.Spec.Extraction

namespace ContractInterface.Spec

open Xdr Xdr.Cursor Xdr.Reader

namespace MetaEntry

/-- The written form of a pair. -/
def encode (entry : MetaEntry) : Bytes :=
  ofInt32 0 ++ ofCounted entry.key ++ ofCounted entry.value

/-- A pair that a module may hold. -/
structure Fits (entry : MetaEntry) : Prop where
  key : NameFits entry.key
  value : NameFits entry.value

instance : DecidablePred Fits := fun entry =>
  decidable_of_iff (NameFits entry.key ∧ NameFits entry.value)
    ⟨fun h => ⟨h.1, h.2⟩, fun h => ⟨h.1, h.2⟩⟩

variable {c c' : Cursor}

theorem read_eq_ok {entry : MetaEntry} :
    read c = .ok entry c' ↔ entry.Fits ∧ c.Passes entry.encode c' := by
  simp only [read, bind_eq_ok, int32_eq_ok, encode, List.append_assoc, passes_append_iff]
  constructor
  · rintro ⟨kind, c₁, h₁, h⟩
    split_ifs at h with hkind
    · simp [bind_eq_ok] at h
    · simp only [bind_eq_ok, readName_eq_ok, pure_eq_ok] at h
      obtain ⟨key, c₂, ⟨hkey, h₂⟩, value, c₃, ⟨hvalue, h₃⟩, rfl, rfl⟩ := h
      obtain rfl : kind = 0 := not_not.1 hkind
      exact ⟨⟨hkey, hvalue⟩, c₁, h₁, c₂, h₂, h₃⟩
  · rintro ⟨hfits, c₁, h₁, c₂, h₂, h₃⟩
    refine ⟨0, c₁, h₁, ?_⟩
    rw [if_neg (by simp)]
    simp only [bind_eq_ok, readName_eq_ok, pure_eq_ok]
    exact ⟨_, c₂, ⟨hfits.key, h₂⟩, _, c', ⟨hfits.value, h₃⟩, rfl, rfl⟩

lemma four_le_length_encode (entry : MetaEntry) : 4 ≤ entry.encode.length := by
  simp only [encode, List.length_append, length_ofInt32]
  omega

/-- What pairs name the contract: the first value under the key `name` that is not empty. -/
def nameAmong (entries : List MetaEntry) : Option String :=
  (entries.find? fun entry => Utf8.decodeLossy entry.key = "name" ∧ entry.value ≠ []).map
    fun entry => Utf8.decodeLossy entry.value

lemma nameAmong_eq_findSome? (entries : List MetaEntry) :
    nameAmong entries = entries.findSome? contractName? := by
  induction entries with
  | nil => rfl
  | cons entry entries ih =>
    by_cases h : Utf8.decodeLossy entry.key = "name" ∧ entry.value ≠ []
    · simp [nameAmong, contractName?, h]
    · have hnone : entry.contractName? = none := by
        rw [contractName?, if_neg]
        simpa using h
      rw [List.findSome?_cons, hnone, ← ih, nameAmong, List.find?_cons_of_neg (by simpa using h)]
      rfl

end MetaEntry

/-! ### The name in a section -/

/-- How reading pairs fails at a place. -/
inductive MetaFailsAt (c : Cursor) : ExtractionError → Prop where
  | malformed {fault : WireFault} {c' : Cursor}
      (failed : MetaEntry.read c = .error (.wire fault) c') : MetaFailsAt c (.malformedMeta fault)
  | violating {found : Violation} {c' : Cursor}
      (failed : MetaEntry.read c = .error (.format found) c') : MetaFailsAt c (.violation found)

variable {c c' : Cursor}

/-- One step of the search: it ends at a pair that names the contract, and else passes over it. -/
lemma nameFrom_step {steps : Nat} {entry : MetaEntry} (h : MetaEntry.read c = .ok entry c') :
    nameFrom (steps + 1) c =
      entry.contractName?.elim (nameFrom steps c') fun name => .ok (some name) := by
  obtain ⟨-, hpass⟩ := MetaEntry.read_eq_ok.1 h
  have hlen := entry.four_le_length_encode
  have hmore := hpass.not_isAtEnd (by omega)
  cases hname : entry.contractName? with
  | some name =>
    rw [nameFrom, if_neg hmore, EStateM.run, h]
    simp only [hname, Option.elim_some]
  | none =>
    rw [nameFrom, if_neg hmore, EStateM.run, h]
    simp only [hname, Option.elim_none]

/-- In a section of pairs, the first pair that names the contract is found. -/
lemma nameFrom_of_passes {steps : Nat} {entries : List MetaEntry}
    (hfits : ∀ entry ∈ entries, entry.Fits) (hpass : c.Passes (entries.flatMap MetaEntry.encode) c')
    (hend : c'.ahead = []) (hsteps : c.ahead.length ≤ steps) :
    nameFrom steps c = .ok (entries.findSome? MetaEntry.contractName?) := by
  induction entries generalizing c steps with
  | nil =>
    obtain ⟨hin, rfl⟩ := passes_nil_iff.1 hpass
    cases steps with
    | zero => rfl
    | succ steps =>
      rw [nameFrom, if_pos ((isAtEnd_iff hin).2 hend)]
      rfl
  | cons entry entries ih =>
    obtain ⟨hentry, hfits⟩ := List.forall_mem_cons.1 hfits
    rw [List.flatMap_cons] at hpass
    obtain ⟨c₁, hhead, htail⟩ := passes_append_iff.1 hpass
    have hlen := entry.four_le_length_encode
    have hahead := hhead.length_ahead_eq
    obtain ⟨steps, rfl⟩ : ∃ n, steps = n + 1 := Nat.exists_eq_add_one.2 (by omega)
    rw [nameFrom_step (MetaEntry.read_eq_ok.2 ⟨hentry, hhead⟩), List.findSome?_cons]
    cases entry.contractName? with
    | some name => rfl
    | none => exact ih hfits htail (by omega)

/-- A search that fails has passed over pairs that do not name the contract, and fails at the
place behind them. -/
lemma nameFrom_eq_error {steps : Nat} {error : ExtractionError} (hin : c.offset ≤ c.size)
    (h : nameFrom steps c = .error error) :
    ∃ (entries : List MetaEntry) (c₁ : Cursor),
      (∀ entry ∈ entries, entry.Fits ∧ entry.contractName? = none) ∧
      c.Passes (entries.flatMap MetaEntry.encode) c₁ ∧ MetaFailsAt c₁ error := by
  induction steps generalizing c with
  | zero => cases h
  | succ steps ih =>
    by_cases hend : c.isAtEnd
    · rw [nameFrom, if_pos hend] at h
      cases h
    · cases hread : MetaEntry.read c with
      | ok entry c' =>
        obtain ⟨hfits, hpass⟩ := MetaEntry.read_eq_ok.1 hread
        rw [nameFrom_step hread] at h
        cases hname : entry.contractName? with
        | some name =>
          rw [hname] at h
          cases h
        | none =>
          rw [hname] at h
          obtain ⟨entries, c₁, hall, hrest, hfails⟩ := ih hpass.inside_right h
          exact ⟨entry :: entries, c₁, List.forall_mem_cons.2 ⟨⟨hfits, hname⟩, hall⟩,
            hpass.trans hrest, hfails⟩
      | error fault c' =>
        rw [nameFrom, if_neg hend, EStateM.run, hread] at h
        cases fault with
        | wire fault =>
          cases h
          exact ⟨[], c, by simp, Passes.refl hin, .malformed hread⟩
        | format found =>
          cases h
          exact ⟨[], c, by simp, Passes.refl hin, .violating hread⟩

/-! ### The name in several sections -/

/-- **The name in sections of pairs is that of the first pair that names the contract**, however
the pairs are spread over the sections. -/
theorem nameIn_eq_of_encode {groups : List (List MetaEntry)}
    (hfits : ∀ entry ∈ groups.flatten, entry.Fits) :
    nameIn (groups.map fun entries => entries.flatMap MetaEntry.encode) =
      .ok (MetaEntry.nameAmong groups.flatten) := by
  rw [MetaEntry.nameAmong_eq_findSome?]
  induction groups with
  | nil => rfl
  | cons entries groups ih =>
    rw [List.flatten_cons] at hfits ⊢
    obtain ⟨hentries, hfits⟩ := List.forall_mem_append.1 hfits
    obtain ⟨c', hpass, hend⟩ := exists_passes_start (entries.flatMap MetaEntry.encode) []
    rw [List.append_nil] at hpass
    have hhead : nameFrom (entries.flatMap MetaEntry.encode).length
        (Cursor.start (entries.flatMap MetaEntry.encode)) =
          .ok (entries.findSome? MetaEntry.contractName?) :=
      nameFrom_of_passes hentries hpass hend le_rfl
    rw [List.map_cons, nameIn, hhead, List.findSome?_append]
    -- a name in the first section ends the search
    cases entries.findSome? MetaEntry.contractName? with
    | some name => rfl
    | none => exact ih hfits

/-- **A failure of the search is that of reading a pair** at some place in one of the sections. -/
theorem nameIn_eq_error {sections : List Bytes} {error : ExtractionError}
    (h : nameIn sections = .error error) :
    ∃ bytes ∈ sections, ∃ (entries : List MetaEntry) (c : Cursor),
      (∀ entry ∈ entries, entry.Fits ∧ entry.contractName? = none) ∧
      (Cursor.start bytes).Passes (entries.flatMap MetaEntry.encode) c ∧ MetaFailsAt c error := by
  induction sections with
  | nil => cases h
  | cons bytes sections ih =>
    rw [nameIn] at h
    cases hfrom : nameFrom bytes.length (Cursor.start bytes) with
    | error fault =>
      rw [hfrom] at h
      cases h
      exact ⟨bytes, List.mem_cons_self, nameFrom_eq_error (start_inside bytes) hfrom⟩
    | ok name? =>
      rw [hfrom] at h
      cases name? with
      | some name => cases h
      | none =>
        obtain ⟨bytes', hmem, hrest⟩ := ih h
        exact ⟨bytes', List.mem_cons_of_mem bytes hmem, hrest⟩

lemma contractName_eq_ok {wasm : Bytes} {name : Option String} :
    contractName wasm = .ok name ↔
      ∃ contents, Wasm.contentsOf wasm metaSection = .ok contents ∧ nameIn contents = .ok name := by
  rw [contractName]
  rcases Wasm.contentsOf wasm metaSection with fault | contents
  · constructor
    · rintro ⟨⟩
    · rintro ⟨contents, ⟨⟩, -⟩
  · constructor
    · intro h
      exact ⟨contents, rfl, h⟩
    · rintro ⟨contents', ⟨⟩, h⟩
      exact h

lemma contractName_eq_error {wasm : Bytes} {error : ExtractionError}
    (h : contractName wasm = .error error) :
    (∃ fault, Wasm.contentsOf wasm metaSection = .error fault) ∨
      ∃ contents, Wasm.contentsOf wasm metaSection = .ok contents ∧
        nameIn contents = .error error := by
  rw [contractName] at h
  rcases hfound : Wasm.contentsOf wasm metaSection with fault | contents
  · exact .inl ⟨fault, rfl⟩
  · rw [hfound] at h
    exact .inr ⟨contents, rfl, h⟩

end ContractInterface.Spec
