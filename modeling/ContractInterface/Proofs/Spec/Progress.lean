/-
# Reading a section comes to an end

A section is read entry by entry until exactly its end is reached.  So a read that stood still would
go on for ever, and so would one that went past the end.  Here these loops are taken for what they
are, without a bound on their turns.  The main results are

* `Loop.exists_ends`: a loop whose turns use something up comes to an end, and a bound that is large
  enough does not change it;
* `Entry.advances_of_read` and `MetaEntry.advances_of_read`: a read entry takes at least four bytes;
* `Collected.exists_ends` and `exists_nameEnds`: the loops over sections;
* `reading_progresses`: from the steps of a reader to the loops.
-/
import ContractInterface.Proofs.Spec.Collection
import ContractInterface.Proofs.Spec.Metadata
import ContractInterface.Proofs.Xdr.Progress

namespace ContractInterface

/-! ### Loops -/

namespace Loop

variable {σ ρ : Type}

/-- A loop comes to an end.  Every turn gives the result, or the state for the next turn; the turns
in front of the last are counted. -/
inductive Ends (turn : σ → ρ ⊕ σ) : σ → Nat → ρ → Prop where
  | stop {s : σ} {result : ρ} (h : turn s = .inl result) : Ends turn s 0 result
  | goOn {s s' : σ} {turns : Nat} {result : ρ} (h : turn s = .inr s')
    (hrest : Ends turn s' turns result) : Ends turn s (turns + 1) result

/-- A loop with a bound on its turns, and what it gives up with. -/
def bounded (turn : σ → ρ ⊕ σ) (giveUp : σ → ρ) : Nat → σ → ρ
  | 0, s => giveUp s
  | steps + 1, s => (turn s).elim id (bounded turn giveUp steps)

/-- **A loop comes to an end if every turn uses up at least four of a number.**  It gives what the
bounded loop gives, if the number is no larger than the bound, and if a loop with nothing left to
use up stops with what the bounded one gives up with. -/
theorem exists_ends {turn : σ → ρ ⊕ σ} {giveUp : σ → ρ} (Inside : σ → Prop) (left : σ → Nat)
    (hturn : ∀ s s', Inside s → turn s = .inr s' → Inside s' ∧ left s' + 4 ≤ left s)
    (hnone : ∀ s, Inside s → left s = 0 → turn s = .inl (giveUp s)) {steps : Nat}
    (s : σ) (hin : Inside s) (hsteps : left s ≤ steps) :
    ∃ turns, 4 * turns ≤ left s ∧ Ends turn s turns (bounded turn giveUp steps s) := by
  -- by induction on the bound: a turn lowers it by one, and what is left by more
  induction steps generalizing s with
  | zero => exact ⟨0, Nat.zero_le _, .stop (hnone s hin (Nat.le_zero.1 hsteps))⟩
  | succ steps ih =>
    cases hnext : turn s with
    | inl result =>
      rw [bounded, hnext]
      exact ⟨0, Nat.zero_le _, .stop hnext⟩
    | inr s' =>
      obtain ⟨hin', hless⟩ := hturn s s' hin hnext
      obtain ⟨turns, hturns, hends⟩ := ih s' hin' (by omega)
      rw [bounded, hnext]
      exact ⟨turns + 1, by omega, .goOn hnext hends⟩

end Loop

namespace Spec

open Xdr Xdr.Cursor

variable {c c' : Cursor}

/-! ### Entries -/

lemma MetaEntry.four_dvd_length_encode (entry : MetaEntry) : 4 ∣ entry.encode.length := by
  rw [encode, List.length_append, List.length_append, length_ofInt32]
  exact Nat.dvd_add (Nat.dvd_add (Nat.dvd_refl 4) (four_dvd_length_ofCounted _))
    (four_dvd_length_ofCounted _)

/-- A written entry is a word or more. -/
lemma exists_words_of_passes {bytes : Bytes} (hpass : c.Passes bytes c') (hlen : 4 ≤ bytes.length)
    (hwords : 4 ∣ bytes.length) : ∃ words, c'.offset = c.offset + 4 * (words + 1) := by
  obtain ⟨words, hlength⟩ := hwords
  obtain ⟨words, rfl⟩ : ∃ n, words = n + 1 := Nat.exists_eq_add_one.2 (by omega)
  exact ⟨words, by rw [hpass.offset_eq, hlength]⟩

/-- **Reading an entry takes at least four bytes.** -/
theorem Entry.advances_of_read {entry : Entry} (h : Entry.read c = .ok entry c') :
    c.Leads c' ∧ ∃ words, c'.offset = c.offset + 4 * (words + 1) := by
  obtain ⟨-, hpass⟩ := Entry.read_eq_ok.1 h
  exact ⟨hpass.leads,
    exists_words_of_passes hpass entry.four_le_length_encode entry.four_dvd_length_encode⟩

/-- **Reading an entry of the metadata takes at least four bytes.** -/
theorem MetaEntry.advances_of_read {entry : MetaEntry} (h : MetaEntry.read c = .ok entry c') :
    c.Leads c' ∧ ∃ words, c'.offset = c.offset + 4 * (words + 1) := by
  obtain ⟨-, hpass⟩ := MetaEntry.read_eq_ok.1 h
  exact ⟨hpass.leads,
    exists_words_of_passes hpass entry.four_le_length_encode entry.four_dvd_length_encode⟩

/-! ### The loops over a section -/

/-- A read that takes at least four bytes leaves so many bytes less ahead. -/
lemma length_ahead_add_four_le (hin : c.offset ≤ c.size) (hleads : c.Leads c')
    (hwords : ∃ words, c'.offset = c.offset + 4 * (words + 1)) :
    c'.ahead.length + 4 ≤ c.ahead.length := by
  obtain ⟨words, hwords⟩ := hwords
  have hlen := length_ahead hin
  have hlen' := length_ahead hleads.inside
  have hsize : c'.size = c.size := by rw [c'.size_eq, c.size_eq, hleads.data_eq]
  omega

/-- One turn of the loop that collects entries. -/
def Collected.turn : Cursor × Collected →
    (Except ExtractionError Unit × Collected) ⊕ (Cursor × Collected)
  | (cursor, collected) =>
    if cursor.isAtEnd then .inl (.ok (), collected)
    else match Entry.read cursor with
      | .ok entry next =>
        let raw := cursor.ahead.take (next.offset - cursor.offset)
        .inr (next, (collected.add entry).addRaw raw)
      | .error (.wire fault) _ => .inl (.error (.malformedEntry cursor.offset fault), collected)
      | .error (.format found) _ => .inl (.error (.violation found), collected)

lemma Collected.turn_of_isAtEnd (hend : c.isAtEnd = true) (collected : Collected) :
    turn (c, collected) = .inl (.ok (), collected) := by
  rw [turn, if_pos hend]

/-- The loop goes on only behind an entry. -/
lemma Collected.read_of_turn {collected : Collected} {s' : Cursor × Collected}
    (h : turn (c, collected) = .inr s') : ∃ entry, Entry.read c = .ok entry s'.1 := by
  rw [turn] at h
  split_ifs at h
  cases hread : Entry.read c with
  | ok entry next =>
    rw [hread] at h
    obtain rfl := Sum.inr.inj h
    exact ⟨entry, rfl⟩
  | error fault next =>
    rw [hread] at h
    cases fault <;> cases h

lemma Collected.readFrom_eq_bounded (steps : Nat) (cursor : Cursor) (collected : Collected) :
    readFrom steps cursor collected =
      Loop.bounded turn (fun s => (.ok (), s.2)) steps (cursor, collected) := by
  induction steps generalizing cursor collected with
  | zero => rfl
  | succ steps ih =>
    rw [readFrom, Loop.bounded, turn, EStateM.run]
    split_ifs with hend
    · rfl
    · cases Entry.read cursor with
      | ok entry next => exact ih next _
      | error fault next => cases fault <;> rfl

/-- **The loop over the entries of a section comes to an end**, and what has been collected then is
what is collected in as many steps as there are bytes ahead. -/
theorem Collected.exists_ends (hin : c.offset ≤ c.size) {steps : Nat}
    (hsteps : c.ahead.length ≤ steps) (collected : Collected) :
    ∃ turns, 4 * turns ≤ c.ahead.length ∧
      Loop.Ends turn (c, collected) turns (readFrom steps c collected) := by
  rw [readFrom_eq_bounded]
  refine Loop.exists_ends (fun s : Cursor × Collected => s.1.offset ≤ s.1.size)
    (fun s => s.1.ahead.length) ?_ ?_ (c, collected) hin hsteps
  · rintro ⟨c, collected⟩ s' hin hturn
    obtain ⟨entry, hread⟩ := read_of_turn hturn
    obtain ⟨hleads, hwords⟩ := Entry.advances_of_read hread
    exact ⟨hleads.inside, length_ahead_add_four_le hin hleads hwords⟩
  · rintro ⟨c, collected⟩ hin hnone
    exact turn_of_isAtEnd ((isAtEnd_iff hin).2 (List.eq_nil_of_length_eq_zero hnone)) collected

/-- One turn of the loop that looks for a name. -/
def nameTurn (cursor : Cursor) : Except ExtractionError (Option String) ⊕ Cursor :=
  if cursor.isAtEnd then .inl (.ok none)
  else match MetaEntry.read cursor with
    | .ok entry next =>
      match entry.contractName? with
      | some name => .inl (.ok (some name))
      | none => .inr next
    | .error (.wire fault) _ => .inl (.error (.malformedMeta fault))
    | .error (.format found) _ => .inl (.error (.violation found))

lemma nameFrom_eq_bounded (steps : Nat) (cursor : Cursor) :
    nameFrom steps cursor = Loop.bounded nameTurn (fun _ => .ok none) steps cursor := by
  induction steps generalizing cursor with
  | zero => rfl
  | succ steps ih =>
    rw [nameFrom, Loop.bounded, nameTurn, EStateM.run]
    split_ifs with hend
    · rfl
    · cases MetaEntry.read cursor with
      | ok entry next =>
        dsimp only
        cases entry.contractName? with
        | some name => rfl
        | none => exact ih next
      | error fault next => cases fault <;> rfl

lemma nameTurn_of_isAtEnd (hend : c.isAtEnd = true) : nameTurn c = .inl (.ok none) := by
  rw [nameTurn, if_pos hend]

/-- The search goes on only behind an entry. -/
lemma read_of_nameTurn (h : nameTurn c = .inr c') : ∃ entry, MetaEntry.read c = .ok entry c' := by
  rw [nameTurn] at h
  split_ifs at h
  cases hread : MetaEntry.read c with
  | ok entry next =>
    rw [hread] at h
    dsimp only at h
    cases hname : entry.contractName? with
    | some name =>
      rw [hname] at h
      cases h
    | none =>
      rw [hname] at h
      obtain rfl := Sum.inr.inj h
      exact ⟨entry, rfl⟩
  | error fault next =>
    rw [hread] at h
    cases fault <;> cases h

/-- **The search for a name in a section comes to an end**, and finds what is found in as many steps
as there are bytes ahead. -/
theorem exists_nameEnds (hin : c.offset ≤ c.size) {steps : Nat} (hsteps : c.ahead.length ≤ steps) :
    ∃ turns, 4 * turns ≤ c.ahead.length ∧ Loop.Ends nameTurn c turns (nameFrom steps c) := by
  rw [nameFrom_eq_bounded]
  refine Loop.exists_ends (fun c : Cursor => c.offset ≤ c.size) (fun c => c.ahead.length) ?_ ?_ c
    hin hsteps
  · intro c c' hin hturn
    obtain ⟨entry, hread⟩ := read_of_nameTurn hturn
    obtain ⟨hleads, hwords⟩ := MetaEntry.advances_of_read hread
    exact ⟨hleads.inside, length_ahead_add_four_le hin hleads hwords⟩
  · intro c hin hnone
    exact nameTurn_of_isAtEnd ((isAtEnd_iff hin).2 (List.eq_nil_of_length_eq_zero hnone))

/-- **Reading moves on, and so it comes to an end.**  Take any steps of a reader from an offset in a
byte string on, which counts from 0 at its front, whatever comes of each of them, and one step more.
The bytes stay the same, no step goes back or past the end, and a step that does not fail for a
fault of the representation moves on by whole words.  An entry of an interface, or of metadata,
takes one word at least.  So in every section the loops that stop only at exactly the end do stop,
after no more entries than there are words, and with the outcome that is given for the section. -/
theorem reading_progresses :
    (∀ (data : Bytes) (offset : Nat) (steps : List Step) (step : Step), offset ≤ data.length →
      let c := Step.afterAll steps (Cursor.place data offset)
      let c' := step.read.after c
      (c.data = data ∧ offset ≤ c.offset ∧ c.offset ≤ data.length) ∧
        (c'.data = data ∧ c.offset ≤ c'.offset ∧ c'.offset ≤ data.length) ∧
        ((∃ value words, step.read c = .ok value c' ∧ c'.offset = c.offset + 4 * words) ∨
          ∃ fault, step.read c = .error (.wire fault) c')) ∧
    (∀ c entry c', Entry.read c = .ok entry c' →
      c.Leads c' ∧ ∃ words, c'.offset = c.offset + 4 * (words + 1)) ∧
    (∀ c entry c', MetaEntry.read c = .ok entry c' →
      c.Leads c' ∧ ∃ words, c'.offset = c.offset + 4 * (words + 1)) ∧
    (∀ bytes collected, ∃ turns, 4 * turns ≤ bytes.length ∧
      Loop.Ends Collected.turn (Cursor.start bytes, collected) turns
        (Collected.readFrom bytes.length (Cursor.start bytes) collected)) ∧
    ∀ bytes, ∃ turns, 4 * turns ≤ bytes.length ∧
      Loop.Ends nameTurn (Cursor.start bytes) turns
        (nameFrom bytes.length (Cursor.start bytes)) := by
  refine ⟨?_, fun _ _ _ => Entry.advances_of_read, fun _ _ _ => MetaEntry.advances_of_read,
    fun bytes => Collected.exists_ends (start_inside bytes) le_rfl,
    fun bytes => exists_nameEnds (start_inside bytes) le_rfl⟩
  intro data offset steps step hinside c c'
  have hleads : (Cursor.place data offset).Leads c := Step.leads_afterAll steps hinside
  have hleads' : c.Leads c' := (Step.advances_read step).stays hleads.inside
  have hdata : c.data = data := hleads.data_eq
  have hdata' : c'.data = data := hleads'.data_eq.trans hdata
  have hin := hleads.inside
  have hin' := hleads'.inside
  rw [c.size_eq, hdata] at hin
  rw [c'.size_eq, hdata'] at hin'
  exact ⟨⟨hdata, hleads.le_offset, hin⟩, ⟨hdata', hleads'.le_offset, hin'⟩, step.read_cases c⟩

/-- A byte, a text of one byte with a wrong filling, and a number. -/
def unevenBytes : Bytes :=
  [7, 0, 0, 0, 1, 0x61, 0, 0, 1, 0, 0, 0, 5]

/-- An entry of metadata: a name. -/
def namingBytes : Bytes :=
  [0, 0, 0, 0] ++ ofCounted [0x6e, 0x61, 0x6d, 0x65] ++ ofCounted [0x61]

theorem reading_progresses_uneven :
    (1 ≤ unevenBytes.length ∧
      let c := Step.afterAll [.text none] (Cursor.place unevenBytes 1)
      let c' := Step.uint32.read.after c
      (c.offset = 9 ∧ c.data = unevenBytes) ∧ 9 ≤ c'.offset ∧ c'.offset ≤ unevenBytes.length) ∧
    ∃ entry c', MetaEntry.read (Cursor.start namingBytes) = .ok entry c' ∧
      ∃ words, c'.offset = 4 * (words + 1) := by
  obtain ⟨hplaces, -, hmeta, -⟩ := reading_progresses
  obtain ⟨⟨hdata, -⟩, ⟨-, hback, hend⟩, -⟩ :=
    hplaces unevenBytes 1 [.text none] .uint32 (by decide)
  refine ⟨⟨by decide, ⟨rfl, hdata⟩, hback, hend⟩, ?_⟩
  have hread : MetaEntry.read (Cursor.start namingBytes) =
      .ok ⟨[0x6e, 0x61, 0x6d, 0x65], [0x61]⟩ (Cursor.place namingBytes 20) := rfl
  obtain ⟨-, words, hwords⟩ := hmeta _ _ _ hread
  exact ⟨_, _, hread, words, hwords.trans (Nat.zero_add _)⟩

end Spec

end ContractInterface
