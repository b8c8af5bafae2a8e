/-
# Reading from places that are counted from the front

A place may be given by an offset that counts from the front or from the end.  Where it counts from
the front, reading is the same in both accounts of it: two readers agree if they give the same and
stop at the same place, or fail with the same fault, and this is kept by all that puts readers
together.  The main results are

* `SignedReader.agrees_takeExactly`: the bytes that are taken from a place;
* `Step.agrees_readSigned`: so every step agrees with the reading that counts from the front only.
-/
import ContractInterface.Proofs.Xdr.Reading
import ContractInterface.Xdr.SignedCursor

namespace ContractInterface.Xdr

/-- A place, as one that might be counted from the end. -/
def Cursor.signed (c : Cursor) : SignedCursor :=
  ⟨c.data, c.offset⟩

lemma Cursor.remaining_signed (c : Cursor) : c.signed.remaining = c.remaining := by
  rw [remaining, c.size_eq]
  rfl

lemma Cursor.isAtEnd_signed (c : Cursor) : c.signed.isAtEnd = c.isAtEnd := by
  rw [isAtEnd, c.size_eq, SignedCursor.isAtEnd, Bool.eq_iff_iff, beq_iff_eq, beq_iff_eq]
  exact Int.ofNat_inj

/-- A fault of the representation, as one beside which there are others. -/
def Fault.signed : Fault Empty → Fault NumberFault
  | .wire fault => .wire fault

namespace SignedReader

variable {α β γ δ : Type}

/-- The end of a reading, as that of one whose place might be counted from the end.  The value is
given as what it is taken for. -/
def ended (give : α → β) :
    EStateM.Result (Fault Empty) Cursor α → EStateM.Result (Fault NumberFault) SignedCursor β
  | .ok value next => .ok (give value) next.signed
  | .error fault next => .error fault.signed next.signed

/-- Two readers agree: wherever the place is counted from the front, they end alike. -/
def Agrees (give : α → β) (reader : Reader Empty α) (signed : SignedReader β) : Prop :=
  ∀ c : Cursor, signed.run c.signed = ended give (reader.run c)

variable {give : α → β} {give' : γ → δ}

section Agrees

variable {x : Reader Empty α} {y : SignedReader β}

lemma agrees_pure (a : α) : Agrees give (pure a) (pure (give a)) :=
  fun _ => rfl

lemma agrees_fail (fault : WireFault) : Agrees give (Reader.fail fault) (fail fault) :=
  fun _ => rfl

lemma Agrees.bind {f : α → Reader Empty γ} {g : β → SignedReader δ} (h : Agrees give x y)
    (hf : ∀ a, Agrees give' (f a) (g (give a))) : Agrees give' (x >>= f) (y >>= g) := by
  intro c
  rw [EStateM.run_bind, EStateM.run_bind, h c]
  cases x.run c with
  | ok a next => exact hf a next
  | error fault next => rfl

lemma Agrees.map {f : α → γ} {g : β → δ} (h : Agrees give x y)
    (hf : ∀ a, give' (f a) = g (give a)) : Agrees give' (f <$> x) (g <$> y) := by
  rw [map_eq_pure_bind, map_eq_pure_bind]
  refine h.bind fun a => ?_
  rw [← hf]
  exact agrees_pure (f a)

/-- A value that is made of another one is taken for what is made of that. -/
lemma agrees_of_comp {f : α → γ} {g : γ → β} (h : Agrees (g ∘ f) x y) :
    Agrees g (x >>= fun a => pure (f a)) y := by
  intro c
  rw [h c, EStateM.run_bind]
  cases x.run c <;> rfl

/-- Readers that look at their place agree if they do so at each place. -/
lemma agrees_get_bind {f : Cursor → Reader Empty α} {g : SignedCursor → SignedReader β}
    (h : ∀ c : Cursor, Agrees give (f c) (g c.signed)) : Agrees give (get >>= f) (get >>= g) :=
  fun c => h c c

/-- Readers that stop with one fault in one case agree if they do so in the other. -/
lemma agrees_unless {wrong : Prop} [Decidable wrong] {fault : WireFault}
    {f : Unit → Reader Empty α} {g : Unit → SignedReader β} (h : Agrees give (f ()) (g ())) :
    Agrees give (if wrong then Reader.fail fault >>= f else f ())
      (if wrong then fail fault >>= g else g ()) := by
  split_ifs
  · exact fun _ => rfl
  · exact h

/-- Readers that stop with one fault beyond a limit agree if they do so within it. -/
lemma agrees_within {limit : Option Int} {size : Int} {fault : Int → WireFault}
    {f : Unit → Reader Empty α} {g : Unit → SignedReader β} (h : Agrees give (f ()) (g ())) :
    Agrees give
      (match limit with
      | some limit => if limit < size then Reader.fail (fault limit) >>= f else f ()
      | none => f ())
      (if limit.any (· < size) then fail (fault (limit.getD 0)) >>= g else g ()) := by
  cases limit with
  | none => exact h
  | some limit =>
    simp only [Option.any_some, decide_eq_true_eq, Option.getD_some]
    exact agrees_unless h

end Agrees

/-! ### Bytes and numbers -/

/-- The bytes up to a later place are those that have been passed. -/
lemma stretch_signed {c next : Cursor} {bytes : Bytes} (h : c.Passes bytes next) :
    SignedCursor.stretch c.data c.offset (c.offset + bytes.length : Nat) = bytes := by
  change (c.data.take (c.offset + bytes.length)).drop c.offset = bytes
  rw [List.drop_take, ← c.ahead_eq, h.ahead_eq, Nat.add_sub_cancel_left, List.take_left]

lemma signed_of_passes {c next : Cursor} {bytes : Bytes} (h : c.Passes bytes next) :
    next.signed = ⟨c.data, (c.offset + bytes.length : Nat)⟩ := by
  rw [Cursor.signed, h.data_eq, h.offset_eq]

/-- Too few bytes are a fault, in front of which nothing is taken. -/
lemma takeExactly_of_lt {c : Cursor} {count : Nat} (h : c.size < c.offset + count) :
    (Reader.takeExactly count : Reader Empty _).run c =
      .error (.wire (.unexpectedEnd count c.offset c.remaining)) c := by
  change Reader.takeExactly count c = _
  rw [Reader.takeExactly]
  split_ifs with hpast
  · rfl
  · split
    · rfl
    · rename_i taken rest hcut
      have hin : c.offset ≤ c.size := by simpa [Cursor.isPastEnd] using hpast
      have hpass := Cursor.passes_advance hin (Bytes.split?_eq_some_iff.1 hcut).2
      have hinside := hpass.inside_right
      rw [hpass.size_eq, hpass.offset_eq, (Bytes.split?_eq_some_iff.1 hcut).1] at hinside
      omega

/-- Enough bytes are taken. -/
lemma exists_takeExactly_of_le {c : Cursor} {count : Nat} (h : c.offset + count ≤ c.size) :
    ∃ bytes next, (Reader.takeExactly count : Reader Empty _).run c = .ok bytes next := by
  have hin : c.offset ≤ c.size := by omega
  have hlen := Cursor.length_ahead hin
  have hahead : c.ahead = c.ahead.take count ++ c.ahead.drop count :=
    (List.take_append_drop ..).symm
  have htaken : (c.ahead.take count).length = count := List.length_take_of_le (by omega)
  exact ⟨⟨_, htaken⟩, _, Reader.takeExactly_eq_ok.2 (Cursor.passes_advance hin hahead)⟩

theorem agrees_takeExactly (count : Nat) :
    Agrees Subtype.val (Reader.takeExactly count) (take count) := by
  intro c
  have hwrong : (count : Int) < 0 ∨ (c.signed.data.length : Int) < c.signed.offset + count ↔
      c.size < c.offset + count := by
    rw [show c.signed.data.length = c.size from c.size_eq.symm]
    change _ ∨ (c.size : Int) < (c.offset : Int) + count ↔ _
    omega
  simp only [take, EStateM.run_bind, EStateM.run_get, hwrong, c.remaining_signed]
  split_ifs with h
  · rw [takeExactly_of_lt h]
    rfl
  · obtain ⟨⟨bytes, rfl⟩, next, hread⟩ := exists_takeExactly_of_le (Nat.le_of_not_lt h)
    have hpass : c.Passes bytes next := Reader.takeExactly_eq_ok.1 hread
    rw [hread, ended, signed_of_passes hpass]
    exact congrArg (EStateM.Result.ok · _) (stretch_signed hpass)

lemma agrees_take (count : Nat) : Agrees id (Reader.take count) (take count) :=
  agrees_of_comp (agrees_takeExactly count)

/-- No place has a negative number of bytes behind it. -/
lemma agrees_take_negSucc (before : Nat) (f : Bytes → SignedReader β) :
    Agrees give
      (get >>= fun c => Reader.fail (.unexpectedEnd (.negSucc before) c.offset c.remaining))
      (take (.negSucc before) >>= f) := by
  rw [take, bind_assoc]
  refine agrees_get_bind fun c => ?_
  rw [if_pos (Or.inl (Int.negSucc_lt_zero before)), c.remaining_signed]
  exact fun _ => rfl

lemma agrees_number (width : Nat) : Agrees Bytes.toNat (Reader.take width) (number width) := by
  refine (agrees_takeExactly width).bind fun bytes => ?_
  rw [if_pos bytes.property]
  exact agrees_pure bytes.val

lemma agrees_uint32 : Agrees id Reader.uint32 uint32 :=
  (agrees_number 4).bind fun _ => agrees_pure _

lemma agrees_uint64 : Agrees id Reader.uint64 uint64 :=
  (agrees_number 8).bind fun _ => agrees_pure _

/-- A signed number of 32 bits is taken for the bits it is made of. -/
lemma agrees_int32 : Agrees Int32.toUInt32 Reader.int32 uint32 := by
  rw [← bind_pure uint32]
  exact agrees_uint32.bind fun n => agrees_pure n.toInt32

/-- A signed number of 64 bits is taken for the bits it is made of. -/
lemma agrees_int64 : Agrees Int64.toUInt64 Reader.int64 uint64 := by
  rw [← bind_pure uint64]
  exact agrees_uint64.bind fun n => agrees_pure n.toInt64

lemma agrees_boolean : Agrees id Reader.boolean boolean := by
  refine agrees_uint32.bind fun value => ?_
  rw [id_eq]
  split_ifs
  · exact agrees_pure false
  · exact agrees_pure true
  · exact agrees_fail _

/-! ### Byte strings, optional values and arrays -/

lemma agrees_fixed (length : Nat) : Agrees Subtype.val (Reader.fixed length) (fixed length) := by
  refine (agrees_takeExactly length).bind fun bytes => ?_
  rw [Reader.skipPadding, bind_assoc]
  refine (agrees_take (padding length)).bind fun fill => ?_
  rw [id_eq]
  split_ifs
  · exact fun _ => rfl
  · exact agrees_pure bytes

lemma agrees_counted (limit : Option Int) :
    Agrees id (Reader.counted limit) (counted limit) := by
  refine agrees_uint32.bind fun length => agrees_within ?_
  exact agrees_of_comp (agrees_fixed length.toNat)

lemma agrees_times {read : Reader Empty α} {read' : SignedReader α} (h : Agrees id read read')
    (count : Nat) :
    Agrees id (Reader.times count read) ((List.replicate count ()).mapM fun () => read') := by
  induction count with
  | zero => exact agrees_pure []
  | succ count ih =>
    rw [List.replicate_succ, List.mapM_cons]
    exact h.bind fun value => ih.bind fun values => agrees_pure (value :: values)

lemma agrees_array {read : Reader Empty α} {read' : SignedReader α} (h : Agrees id read read')
    (limit : Option Int) : Agrees id (Reader.array limit read) (array limit read') := by
  refine agrees_uint32.bind fun count => agrees_within (agrees_get_bind fun c => ?_)
  rw [c.remaining_signed]
  exact agrees_unless (agrees_times h count.toNat)

end SignedReader

namespace Step

open SignedReader

/-- Every step is read from a place that counts from the front as it is where no other place is
known: the values are the same, and so are the places where they stop, and the faults. -/
theorem agrees_readSigned (step : Step) : Agrees id step.read step.readSigned := by
  induction step with
  | uint32 => exact agrees_uint32.map fun _ => rfl
  | int32 => exact agrees_int32.map fun _ => rfl
  | uint64 => exact agrees_uint64.map fun _ => rfl
  | int64 => exact agrees_int64.map fun _ => rfl
  | boolean => exact agrees_boolean.map fun _ => rfl
  | fixed length =>
    cases length with
    | ofNat length => exact (agrees_fixed length).map fun _ => rfl
    | negSucc before =>
      rw [read, readSigned, map_eq_pure_bind, SignedReader.fixed, bind_assoc]
      exact agrees_take_negSucc before _
  | counted limit => exact (agrees_counted limit).map fun _ => rfl
  | text limit => exact (agrees_counted limit).map fun _ => rfl
  | optional step ih =>
    rw [read, readSigned, Reader.optional, bind_assoc]
    refine agrees_boolean.bind fun present => ?_
    cases present with
    | true =>
      rw [if_pos rfl, bind_assoc]
      exact ih.bind fun value => agrees_pure (Value.present value)
    | false => exact agrees_pure Value.absent
  | array limit step ih => exact (agrees_array ih limit).map fun _ => rfl
  | atEnd =>
    refine agrees_get_bind fun c => ?_
    rw [← c.isAtEnd_signed]
    exact agrees_pure _
  | expectEnd =>
    rw [read, Reader.expectEnd, bind_assoc]
    refine agrees_get_bind fun c => ?_
    rw [c.isAtEnd_signed, c.remaining_signed]
    split_ifs
    · exact fun _ => rfl
    · exact agrees_pure Value.nothing

end Step

end ContractInterface.Xdr
