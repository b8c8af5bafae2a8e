/-
# Reading only moves on

A read that fails may have taken some bytes, and the next one goes on from there.  Whatever comes of
a read, it leads to a place in the same bytes that is not in front of the first one and not past the
end.  A read that succeeds moves on by whole words of four bytes.  Both hold of the primitives, and
of everything that is put together from reads of which they hold.  The main results are

* `Reader.StaysInside.bind` and `Reader.Advances.bind`: a read behind another one;
* `Reader.advances_optional` and `Reader.advances_array`: reads of something inside;
* `Step.advances_read`: every step of a reader;
* `Step.leads_afterAll`: so any number of steps, through failures.
-/
import ContractInterface.Proofs.Xdr.Reading
import ContractInterface.Xdr.Step

namespace ContractInterface.Xdr

namespace Cursor

/-- Reading leads from a place to one that is not in front of it, and not past the end. -/
structure Leads (c c' : Cursor) : Prop where
  data_eq : c'.data = c.data
  le_offset : c.offset ≤ c'.offset
  inside : c'.offset ≤ c'.size

variable {c c' c'' : Cursor}

lemma Leads.refl (h : c.offset ≤ c.size) : c.Leads c :=
  ⟨rfl, le_rfl, h⟩

lemma Leads.trans (h : c.Leads c') (h' : c'.Leads c'') : c.Leads c'' :=
  ⟨h'.data_eq.trans h.data_eq, h.le_offset.trans h'.le_offset, h'.inside⟩

lemma Passes.leads {bytes : Bytes} (h : c.Passes bytes c') : c.Leads c' where
  data_eq := h.data_eq
  le_offset := by
    rw [h.offset_eq]
    exact Nat.le_add_right _ _
  inside := h.inside_right

end Cursor

namespace Reader

open Cursor

variable {ε α β : Type}

/-- Where a read ends, whatever comes of it. -/
def after (read : Reader ε α) (c : Cursor) : Cursor :=
  match read c with
  | .ok _ c' | .error _ c' => c'

lemma after_of_ok {read : Reader ε α} {c c' : Cursor} {a : α} (h : read c = .ok a c') :
    read.after c = c' := by
  rw [after, h]

lemma after_of_error {read : Reader ε α} {c c' : Cursor} {fault : Fault ε}
    (h : read c = .error fault c') : read.after c = c' := by
  rw [after, h]

/-! ### Staying inside -/

/-- From any place inside, whatever comes of it, a read leads to a place inside. -/
def StaysInside (read : Reader ε α) : Prop :=
  ∀ ⦃c : Cursor⦄, c.offset ≤ c.size → c.Leads (read.after c)

/-- A read that stays where it is. -/
lemma staysInside_of_after {read : Reader ε α} (h : ∀ c, read.after c = c) : StaysInside read := by
  intro c hin
  rw [h]
  exact Leads.refl hin

lemma staysInside_pure (a : α) : StaysInside (pure a : Reader ε α) :=
  staysInside_of_after fun _ => rfl

lemma staysInside_get : StaysInside (get : Reader ε Cursor) :=
  staysInside_of_after fun _ => rfl

lemma staysInside_fail (fault : WireFault) : StaysInside (fail fault : Reader ε α) :=
  staysInside_of_after fun _ => rfl

/-- A read behind another one begins inside, since that one ended there. -/
lemma StaysInside.bind {x : Reader ε α} {f : α → Reader ε β} (hx : StaysInside x)
    (hf : ∀ a, StaysInside (f a)) : StaysInside (x >>= f) := by
  intro c hin
  have hfirst := hx hin
  cases hread : x c with
  | ok a c₁ =>
    rw [after_of_ok hread] at hfirst
    have hafter : (x >>= f).after c = (f a).after c₁ := by
      rw [after, bind_of_ok hread]
      rfl
    rw [hafter]
    exact hfirst.trans (hf a hfirst.inside)
  | error fault c₁ =>
    rw [after_of_error hread] at hfirst
    rw [after_of_error (bind_of_error hread)]
    exact hfirst

lemma staysInside_takeExactly (count : Nat) :
    StaysInside (takeExactly count : Reader ε { bytes : Bytes // bytes.length = count }) := by
  intro c hin
  cases hread : (takeExactly count : Reader ε _) c with
  | ok bytes c' =>
    rw [after_of_ok hread]
    exact (takeExactly_eq_ok.1 hread).leads
  | error fault c' =>
    -- nothing has been taken if there are not enough bytes
    have hstay : c = c' := by
      rw [takeExactly] at hread
      split_ifs at hread with hpast
      · exact (EStateM.Result.error.inj hread).2
      · split at hread
        · exact (EStateM.Result.error.inj hread).2
        · cases hread
    rw [after_of_error hread, ← hstay]
    exact Leads.refl hin

lemma staysInside_take (count : Nat) : StaysInside (take count : Reader ε Bytes) :=
  (staysInside_takeExactly count).bind fun _ => staysInside_pure _

lemma staysInside_skipPadding (length : Nat) :
    StaysInside (skipPadding length : Reader ε Unit) := by
  refine (staysInside_take _).bind fun fill => ?_
  split_ifs
  · exact staysInside_fail _
  · exact staysInside_pure _

/-! ### Advancing -/

/-- A read that stays inside, and moves on by whole words if it succeeds. -/
structure Advances (read : Reader ε α) : Prop where
  stays : StaysInside read
  aligned : ∀ ⦃c a c'⦄, read c = .ok a c' → ∃ words, c'.offset = c.offset + 4 * words

/-- What has been read stands in whole words. -/
lemma exists_words {c c' : Cursor} {bytes : Bytes} (h : c.Passes bytes c')
    (hwords : 4 ∣ bytes.length) : ∃ words, c'.offset = c.offset + 4 * words := by
  obtain ⟨words, hlen⟩ := hwords
  exact ⟨words, by rw [h.offset_eq, hlen]⟩

lemma advances_pure (a : α) : Advances (pure a : Reader ε α) := by
  refine ⟨staysInside_pure a, fun c b c' h => ⟨0, ?_⟩⟩
  rw [(pure_eq_ok.1 h).2]
  rfl

lemma advances_get : Advances (get : Reader ε Cursor) := by
  refine ⟨staysInside_get, fun c b c' h => ⟨0, ?_⟩⟩
  rw [(get_eq_ok.1 h).2]
  rfl

lemma advances_fail (fault : WireFault) : Advances (fail fault : Reader ε α) :=
  ⟨staysInside_fail fault, fun _ _ _ h => absurd h fail_ne_ok⟩

lemma Advances.bind {x : Reader ε α} {f : α → Reader ε β} (hx : Advances x)
    (hf : ∀ a, Advances (f a)) : Advances (x >>= f) where
  stays := hx.stays.bind fun a => (hf a).stays
  aligned := by
    intro c b c' h
    obtain ⟨a, c₁, hfirst, hsecond⟩ := bind_eq_ok.1 h
    obtain ⟨m, hm⟩ := hx.aligned hfirst
    obtain ⟨n, hn⟩ := (hf a).aligned hsecond
    exact ⟨m + n, by omega⟩

lemma Advances.map {read : Reader ε α} (h : Advances read) (f : α → β) : Advances (f <$> read) := by
  rw [map_eq_pure_bind]
  exact h.bind fun a => advances_pure (f a)

lemma advances_take {count : Nat} (hwords : 4 ∣ count) :
    Advances (take count : Reader ε Bytes) where
  stays := staysInside_take count
  aligned := by
    intro c bytes c' h
    obtain ⟨hlen, hpass⟩ := take_eq_ok.1 h
    rw [← hlen] at hwords
    exact exists_words hpass hwords

lemma advances_uint32 : Advances (uint32 : Reader ε UInt32) :=
  (advances_take (by decide)).bind fun _ => advances_pure _

lemma advances_int32 : Advances (int32 : Reader ε Int32) :=
  advances_uint32.bind fun _ => advances_pure _

lemma advances_uint64 : Advances (uint64 : Reader ε UInt64) :=
  (advances_take (by decide)).bind fun _ => advances_pure _

lemma advances_int64 : Advances (int64 : Reader ε Int64) :=
  advances_uint64.bind fun _ => advances_pure _

lemma advances_boolean : Advances (boolean : Reader ε Bool) := by
  refine advances_uint32.bind fun value => ?_
  split_ifs
  · exact advances_pure _
  · exact advances_pure _
  · exact advances_fail _

/-- The bytes and their filling are whole words together, though neither need be alone. -/
lemma advances_fixed (length : Nat) :
    Advances (fixed length : Reader ε { bytes : Bytes // bytes.length = length }) where
  stays := (staysInside_takeExactly length).bind fun _ =>
    (staysInside_skipPadding length).bind fun _ => staysInside_pure _
  aligned := fun _ bytes _ h => exists_words (fixed_eq_ok.1 h) (four_dvd_length_ofFixed bytes.val)

/-- A read that stops where something is wrong. -/
lemma advances_unless {wrong : Prop} [Decidable wrong] (fault : WireFault)
    {next : Unit → Reader ε α} (h : Advances (next ())) :
    Advances (if wrong then (fail fault >>= next : Reader ε α) else next ()) := by
  split_ifs
  · exact ⟨staysInside_of_after fun _ => rfl, fun _ _ _ h => nomatch h⟩
  · exact h

/-- A read that goes on only within a limit. -/
lemma advances_limited {limit : Option Int} {count : Nat} {fault : Int → WireFault}
    {next : Unit → Reader ε α} (h : Advances (next ())) :
    Advances (match limit with
      | some bound =>
        if bound < (count : Int) then (fail (fault bound) >>= next : Reader ε α) else next ()
      | none => next ()) := by
  cases limit with
  | none => exact h
  | some bound => exact advances_unless (fault bound) h

lemma advances_counted (limit : Option Int) : Advances (counted limit : Reader ε Bytes) :=
  advances_uint32.bind fun length =>
    advances_limited ((advances_fixed length.toNat).bind fun _ => advances_pure _)

lemma advances_optional {read : Reader ε α} (h : Advances read) : Advances (optional read) := by
  refine advances_boolean.bind fun present => ?_
  cases present with
  | false => exact advances_pure none
  | true => exact h.bind fun a => advances_pure (some a)

lemma advances_times {read : Reader ε α} (h : Advances read) (count : Nat) :
    Advances (times count read) := by
  induction count with
  | zero => exact advances_pure []
  | succ count ih => exact h.bind fun _ => ih.bind fun _ => advances_pure _

lemma advances_array {read : Reader ε α} (h : Advances read) (limit : Option Int) :
    Advances (array limit read) := by
  refine advances_uint32.bind fun count => advances_limited (advances_get.bind fun c => ?_)
  exact advances_unless _ (advances_times h count.toNat)

lemma advances_expectEnd : Advances (expectEnd : Reader ε Unit) := by
  refine advances_get.bind fun c => ?_
  split_ifs
  · exact advances_fail _
  · exact advances_pure _

end Reader

namespace Step

open Reader Cursor

/-- **Every step of a reader stays inside, and moves on by whole words if it succeeds.** -/
theorem advances_read (step : Step) : Advances step.read := by
  induction step with
  | uint32 => exact advances_uint32.map _
  | int32 => exact advances_int32.map _
  | uint64 => exact advances_uint64.map _
  | int64 => exact advances_int64.map _
  | boolean => exact advances_boolean.map _
  | fixed length =>
    cases length with
    | ofNat length => exact (advances_fixed length).map _
    | negSucc n => exact advances_get.bind fun _ => advances_fail _
  | counted limit | text limit => exact (advances_counted limit).map _
  | optional step ih =>
    refine (advances_optional ih).bind fun value => ?_
    cases value with
    | none => exact advances_pure _
    | some value => exact advances_pure _
  | array limit step ih => exact (advances_array ih limit).map _
  | atEnd => exact advances_get.bind fun _ => advances_pure _
  | expectEnd => exact advances_expectEnd.bind fun _ => advances_pure _

/-- Where a reader stands when it has taken some steps, whatever came of each of them. -/
def afterAll (steps : List Step) (c : Cursor) : Cursor :=
  steps.foldl (fun c step => step.read.after c) c

lemma leads_afterAll (steps : List Step) {c : Cursor} (hin : c.offset ≤ c.size) :
    c.Leads (afterAll steps c) := by
  induction steps generalizing c with
  | nil => exact Leads.refl hin
  | cons step steps ih =>
    have hfirst := (advances_read step).stays hin
    exact hfirst.trans (ih hfirst.inside)

/-- A step gives a value behind whole words, or it fails for a fault of the representation. -/
lemma read_cases (step : Step) (c : Cursor) :
    (∃ value words, step.read c = .ok value (step.read.after c) ∧
      (step.read.after c).offset = c.offset + 4 * words) ∨
    ∃ fault, step.read c = .error (.wire fault) (step.read.after c) := by
  cases hread : step.read c with
  | ok value c' =>
    obtain ⟨words, hwords⟩ := (advances_read step).aligned hread
    rw [after_of_ok hread]
    exact .inl ⟨value, words, rfl, hwords⟩
  | error fault c' =>
    rw [after_of_error hread]
    cases fault with
    | wire fault => exact .inr ⟨fault, rfl⟩
    | format fault => exact nomatch fault

end Step

end ContractInterface.Xdr
