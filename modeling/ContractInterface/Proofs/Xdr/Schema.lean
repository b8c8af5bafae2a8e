/-
# Schemas are canonical

A schema is a step that says what a value is made of.  The writer has no arrays and no optional
values; they are written piece by piece, a count or a truth value in front.  An optional value is
given as the value alone, so a missing value inside a present one cannot be told from a missing one,
and a schema has no optional values directly inside optional values.  The main results are

* `reads_given`: a schema is read exactly in front of the written form of a value in its range;
* `writes_pieces`: the writer makes this form of the pieces of the value;
* `read_schema`: what the writer writes is read back, and what is read is what the writer writes;
* `read_schema_nested`: optional values directly inside optional values are an exception.
-/
import ContractInterface.Proofs.Bytes.Utf8
import ContractInterface.Proofs.Xdr.Reading
import ContractInterface.Proofs.Xdr.Writing
import ContractInterface.Xdr.Step

namespace ContractInterface.Xdr

variable {α β : Type}

/-! ### Values as they are given -/

namespace Value

mutual

/-- The value as it is given: an optional one alone, if it is there. -/
def given : Value α → Value α
  | .present value => given value
  | .items values => .items (givenItems values)
  | value => value

/-- The values as they are given. -/
def givenItems : List (Value α) → List (Value α)
  | [] => []
  | value :: values => given value :: givenItems values

end

mutual

/-- A value with other texts. -/
def map (f : α → β) : Value α → Value β
  | .uint32 n => .uint32 n
  | .int32 n => .int32 n
  | .uint64 n => .uint64 n
  | .int64 n => .int64 n
  | .boolean b => .boolean b
  | .bytes content => .bytes content
  | .text content => .text (f content)
  | .absent => .absent
  | .present value => .present (map f value)
  | .items values => .items (mapItems f values)
  | .nothing => .nothing

/-- Values with other texts. -/
def mapItems (f : α → β) : List (Value α) → List (Value β)
  | [] => []
  | value :: values => map f value :: mapItems f values

end

lemma givenItems_eq_map (values : List (Value α)) : givenItems values = values.map given := by
  induction values with
  | nil => rfl
  | cons value values ih => rw [givenItems, ih, List.map_cons]

lemma mapItems_eq_map (f : α → β) (values : List (Value α)) :
    mapItems f values = values.map (map f) := by
  induction values with
  | nil => rfl
  | cons value values ih => rw [mapItems, ih, List.map_cons]

mutual

/-- Texts that are changed and changed back. -/
lemma map_map_of_leftInverse {f : α → β} {g : β → α} (h : Function.LeftInverse g f) :
    ∀ value : Value α, (value.map f).map g = value
  | .text content => congrArg Value.text (h content)
  | .present value => congrArg Value.present (map_map_of_leftInverse h value)
  | .items values => congrArg Value.items (mapItems_mapItems_of_leftInverse h values)
  | .uint32 _ | .int32 _ | .uint64 _ | .int64 _ | .boolean _ | .bytes _ | .absent | .nothing => rfl

lemma mapItems_mapItems_of_leftInverse {f : α → β} {g : β → α} (h : Function.LeftInverse g f) :
    ∀ values : List (Value α), mapItems g (mapItems f values) = values
  | [] => rfl
  | value :: values => congrArg₂ List.cons (map_map_of_leftInverse h value)
      (mapItems_mapItems_of_leftInverse h values)

end

mutual

lemma map_id : ∀ value : Value α, value.map id = value
  | .text _ => rfl
  | .present value => congrArg Value.present (map_id value)
  | .items values => congrArg Value.items (mapItems_id values)
  | .uint32 _ | .int32 _ | .uint64 _ | .int64 _ | .boolean _ | .bytes _ | .absent | .nothing => rfl

lemma mapItems_id : ∀ values : List (Value α), mapItems id values = values
  | [] => rfl
  | value :: values => congrArg₂ List.cons (map_id value) (mapItems_id values)

end

lemma map_eq_absent_iff {f : α → β} {value : Value α} :
    value.map f = .absent ↔ value = .absent := by
  cases value <;> simp [map]

end Value

/-! ### Schemas -/

namespace Step

/-- Whether a step is one for an optional value. -/
def isOptional : Step → Bool
  | .optional _ => true
  | _ => false

/-- A step that is made of values only: every element of an array takes some bytes, and no optional
value is directly inside another one. -/
def IsSchema : Step → Prop
  | .optional step => step.IsSchema ∧ step.isOptional = false
  | .array _ step => step.IsSchema ∧ step ≠ .fixed 0
  | .atEnd | .expectEnd => False
  | _ => True

/-- A value, as it is given, that a schema allows. -/
def InRange : Step → Value → Prop
  | .uint32, .uint32 _ | .int32, .int32 _ | .uint64, .uint64 _ | .int64, .int64 _
  | .boolean, .boolean _ => True
  | .fixed length, .bytes bytes => length = bytes.length
  | .counted limit, .bytes bytes | .text limit, .text bytes =>
    Reader.FitsCount limit bytes.length
  | .optional step, value => value = .absent ∨ step.InRange value
  | .array limit step, .items values =>
    Reader.FitsCount limit values.length ∧ ∀ value ∈ values, step.InRange value
  | _, _ => False

/-- The written form of a value. -/
def form : Step → Value → Bytes
  | .uint32, .uint32 n => ofUInt32 n
  | .int32, .int32 n => ofInt32 n
  | .uint64, .uint64 n => ofUInt64 n
  | .int64, .int64 n => ofInt64 n
  | .boolean, .boolean b => ofBool b
  | .fixed _, .bytes bytes => ofFixed bytes
  | .counted _, .bytes bytes | .text _, .text bytes => ofCounted bytes
  | .optional _, .absent => ofBool false
  | .optional step, value => ofBool true ++ step.form value
  | .array _ step, .items values => ofArray step.form values
  | _, _ => []

/-- The pieces of a value, where `text` makes a piece of a text. -/
def pieces (text : α → Piece) : Step → Value α → List Piece
  | .uint32, .uint32 n => [.uint32 n.toNat]
  | .int32, .int32 n => [.int32 n.toInt]
  | .uint64, .uint64 n => [.uint64 n.toNat]
  | .int64, .int64 n => [.int64 n.toInt]
  | .boolean, .boolean b => [.boolean b]
  | .fixed length, .bytes bytes => [.fixed bytes (some length)]
  | .counted _, .bytes bytes => [.counted bytes]
  | .text _, .text content => [text content]
  | .optional _, .absent => [.boolean false]
  | .optional step, value => .boolean true :: step.pieces text value
  | .array _ step, .items values =>
    .uint32 values.length :: values.flatMap (step.pieces text)
  | _, _ => []

end Step

/-! ### Reading -/

namespace Reader

variable {ε : Type} {c c' : Cursor}

lemma map_eq_ok {f : α → β} {read : Reader ε α} {b : β} :
    (f <$> read) c = .ok b c' ↔ ∃ a, read c = .ok a c' ∧ f a = b := by
  rw [map_eq_pure_bind, bind_eq_ok]
  simp only [pure_eq_ok]
  constructor
  · rintro ⟨a, _, h, rfl, rfl⟩
    exact ⟨a, h, rfl⟩
  · rintro ⟨a, h, rfl⟩
    exact ⟨a, c', h, rfl, rfl⟩

/-- Values that are changed after they have all been read may be changed as they are read. -/
lemma map_times (f : α → β) (read : Reader ε α) (count : Nat) :
    List.map f <$> times count read = times count (f <$> read) := by
  induction count with
  | zero => rfl
  | succ count ih =>
    simp only [times, map_bind, map_pure, bind_map_left, ← ih, List.map_cons]

lemma map_array (f : α → β) (limit : Option Int) (read : Reader ε α) :
    List.map f <$> array limit read = array limit (f <$> read) := by
  have hlast (count : UInt32) : List.map f <$> (do
        if (← get).remaining < count.toNat * 4 then fail (.arrayOverrun count)
        times count.toNat read : Reader ε (List α)) = (do
        if (← get).remaining < count.toNat * 4 then fail (.arrayOverrun count)
        times count.toNat (f <$> read)) := by
    simp only [← map_times, map_bind, apply_ite (List.map f <$> ·)]
  rw [array, array, map_bind]
  refine bind_congr fun count => ?_
  cases limit with
  | none => exact hlast count
  | some limit =>
    simp only [apply_ite (List.map f <$> ·), map_bind, hlast]

lemma map_optional (f : α → β) (read : Reader ε α) :
    Option.map f <$> optional read = optional (f <$> read) := by
  simp only [optional, map_bind, bind_map_left]
  refine bind_congr fun present => ?_
  cases present <;> simp

end Reader

namespace Step

open Reader

variable {step : Step} {value : Value}

/-- The law of a step that reads one value and says what it is. -/
lemma reads_wrap {wrap : α → Value} {read : Reader Empty α} {Fits : α → Prop} {encode : α → Bytes}
    (hstep : step.read = wrap <$> read) (hread : Reads read Fits encode)
    (hgiven : ∀ a, (wrap a).given = wrap a)
    (hrange : ∀ value, step.InRange value ↔ ∃ a, wrap a = value ∧ Fits a)
    (hform : ∀ a, step.form (wrap a) = encode a) :
    Reads (Value.given <$> step.read) step.InRange step.form := by
  intro c value c'
  simp only [hstep, map_eq_ok, hread.eq_ok, hrange]
  constructor
  · rintro ⟨_, ⟨a, ⟨hfits, hpass⟩, rfl⟩, rfl⟩
    rw [hgiven, hform]
    exact ⟨⟨a, rfl, hfits⟩, hpass⟩
  · rintro ⟨⟨a, rfl, hfits⟩, hpass⟩
    rw [hform] at hpass
    exact ⟨wrap a, ⟨a, ⟨hfits, hpass⟩, rfl⟩, hgiven a⟩

/-- The same for a step that allows whatever it reads. -/
lemma reads_wrap_all {wrap : α → Value} {read : Reader Empty α} {encode : α → Bytes}
    (hstep : step.read = wrap <$> read)
    (hread : ∀ {c a c'}, read c = .ok a c' ↔ c.Passes (encode a) c')
    (hgiven : ∀ a, (wrap a).given = wrap a)
    (hrange : ∀ value, step.InRange value ↔ ∃ a, wrap a = value)
    (hform : ∀ a, step.form (wrap a) = encode a) :
    Reads (Value.given <$> step.read) step.InRange step.form := by
  have hall : Reads read (fun _ => True) encode := fun c a c' => by rw [hread, true_and]
  exact reads_wrap hstep hall hgiven (by simpa using hrange) hform

/-- A value that is not optional is not a missing one. -/
lemma ne_absent (hrange : step.InRange value) (h : step.isOptional = false) : value ≠ .absent := by
  rintro rfl
  cases step <;> first | exact hrange | cases h

lemma form_optional (h : value ≠ .absent) :
    (optional step).form value = ofBool true ++ step.form value := by
  cases value <;> first | rfl | exact absurd rfl h

/-- A value of a schema takes at least four bytes, unless it is a byte string of length zero. -/
lemma four_le_length_form (hschema : step.IsSchema) (hne : step ≠ .fixed 0)
    (hrange : step.InRange value) : 4 ≤ (step.form value).length := by
  cases step with
  | fixed length =>
    cases value with
    | bytes bytes =>
      have hlength : length = bytes.length := hrange
      have hpos : 0 < bytes.length := by
        by_contra hzero
        exact hne (by rw [hlength, Nat.eq_zero_of_not_pos hzero]; rfl)
      rw [form, ofFixed, List.length_append, List.length_replicate, padding]
      omega
    | _ => exact hrange.elim
  | optional step =>
    by_cases habsent : value = .absent
    · rw [habsent]
      exact Nat.le_refl 4
    · rw [form_optional habsent, List.length_append, ofBool, length_ofUInt32]
      omega
  | array limit step =>
    cases value with
    | items values =>
      rw [form, ofArray, List.length_append, length_ofUInt32]
      omega
    | _ => exact hrange.elim
  | counted limit | text limit =>
    cases value <;> first | exact four_le_length_ofCounted _ | exact hrange.elim
  | atEnd | expectEnd => exact hschema.elim
  | _ => cases value <;> first | exact hrange.elim | simp [form, ofInt32, ofUInt64, ofInt64, ofBool]

/-- The law of an optional value, from that of the value. -/
lemma reads_given_optional (hread : Reads (Value.given <$> step.read) step.InRange step.form)
    (hinner : step.isOptional = false) :
    Reads (Value.given <$> (Step.optional step).read) (Step.optional step).InRange
      (Step.optional step).form := by
  have hstep : Value.given <$> (Step.optional step).read =
      (fun found => found.elim .absent id) <$> Reader.optional (Value.given <$> step.read) := by
    rw [read, ← map_optional]
    simp only [map_eq_pure_bind, bind_assoc, pure_bind]
    refine bind_congr fun found => ?_
    cases found <;> rfl
  intro c value c'
  simp only [hstep, map_eq_ok, hread.optional.eq_ok]
  constructor
  · rintro ⟨found, ⟨hrange, hpass⟩, rfl⟩
    cases found with
    | none => exact ⟨.inl rfl, hpass⟩
    | some found =>
      have hfound := hrange found rfl
      refine ⟨.inr hfound, ?_⟩
      rw [Option.elim_some, id, form_optional (ne_absent hfound hinner)]
      exact hpass
  · rintro ⟨hrange | hrange, hpass⟩
    · subst hrange
      exact ⟨none, ⟨nofun, hpass⟩, rfl⟩
    · rw [form_optional (ne_absent hrange hinner)] at hpass
      refine ⟨some value, ⟨?_, hpass⟩, rfl⟩
      rintro _ ⟨⟩
      exact hrange

/-- The law of an array, from that of its elements. -/
lemma reads_given_array (hread : Reads (Value.given <$> step.read) step.InRange step.form)
    (hmin : ∀ value, step.InRange value → 4 ≤ (step.form value).length) (limit : Option Int) :
    Reads (Value.given <$> (Step.array limit step).read) (Step.array limit step).InRange
      (Step.array limit step).form := by
  have hstep : Value.given <$> (Step.array limit step).read =
      .items <$> Reader.array limit (Value.given <$> step.read) := by
    rw [read, ← map_array]
    simp only [map_eq_pure_bind, bind_assoc, pure_bind, Value.given, Value.givenItems_eq_map]
  intro c value c'
  simp only [hstep, map_eq_ok, array_eq_ok_of_fits hread hmin]
  constructor
  · rintro ⟨values, h, rfl⟩
    exact h
  · intro h
    cases value with
    | items values => exact ⟨values, h, rfl⟩
    | _ => exact h.1.elim

/-- **A schema is read exactly in front of the written form of a value in its range.** -/
theorem reads_given (h : step.IsSchema) :
    Reads (Value.given <$> step.read) step.InRange step.form := by
  induction step with
  | uint32 =>
    refine reads_wrap_all rfl uint32_eq_ok (fun _ => rfl) (fun value => ?_) fun _ => rfl
    cases value <;> simp [InRange]
  | int32 =>
    refine reads_wrap_all rfl int32_eq_ok (fun _ => rfl) (fun value => ?_) fun _ => rfl
    cases value <;> simp [InRange]
  | uint64 =>
    refine reads_wrap_all rfl uint64_eq_ok (fun _ => rfl) (fun value => ?_) fun _ => rfl
    cases value <;> simp [InRange]
  | int64 =>
    refine reads_wrap_all rfl int64_eq_ok (fun _ => rfl) (fun value => ?_) fun _ => rfl
    cases value <;> simp [InRange]
  | boolean =>
    refine reads_wrap_all rfl boolean_eq_ok (fun _ => rfl) (fun value => ?_) fun _ => rfl
    cases value <;> simp [InRange]
  | fixed length =>
    cases length with
    | ofNat length =>
      refine reads_wrap_all rfl fixed_eq_ok (fun _ => rfl) (fun value => ?_) fun _ => rfl
      cases value <;> simp [InRange, eq_comm]
    | negSucc n =>
      intro c value c'
      have hrange : ¬(fixed (.negSucc n)).InRange value := by
        cases value <;> simp [InRange]
      simp only [hrange, false_and, iff_false, map_eq_ok]
      rintro ⟨a, h, -⟩
      simp [read, bind_eq_ok] at h
  | counted limit =>
    refine reads_wrap rfl (fun _ _ _ => counted_eq_ok) (fun _ => rfl) (fun value => ?_) fun _ => rfl
    cases value <;> simp [InRange]
  | text limit =>
    refine reads_wrap rfl (fun _ _ _ => counted_eq_ok) (fun _ => rfl) (fun value => ?_) fun _ => rfl
    cases value <;> simp [InRange]
  | optional step ih => exact reads_given_optional (ih h.1) h.2
  | array limit step ih =>
    obtain ⟨hstep, hne⟩ := h
    exact reads_given_array (ih hstep) (fun value => four_le_length_form hstep hne) limit
  | atEnd | expectEnd => exact h.elim

end Step

/-! ### Writing -/

namespace Step

open Writer

variable {text : α → Piece} {bytesOf : α → Bytes} {step : Step} {value : Value α}

lemma pieces_optional (h : value ≠ .absent) :
    (optional step).pieces text value = .boolean true :: step.pieces text value := by
  cases value <;> first | rfl | exact absurd rfl h

/-- **The writer makes the written form of a value from its pieces.** -/
theorem writes_pieces
    (htext : ∀ content, (text content).encode = Piece.encodeCounted (bytesOf content))
    (h : step.InRange (value.map bytesOf)) :
    Writes (step.pieces text value) (step.form (value.map bytesOf)) := by
  induction step generalizing value with
  | optional step ih =>
    by_cases habsent : value = .absent
    · subst habsent
      exact writes_singleton rfl
    · have hne : value.map bytesOf ≠ .absent := mt Value.map_eq_absent_iff.1 habsent
      rw [pieces_optional habsent, form_optional hne]
      exact (ih (h.resolve_left hne)).cons rfl
  | array limit step ih =>
    cases value with
    | items values =>
      rw [Value.map, Value.mapItems_eq_map] at h ⊢
      obtain ⟨hcount, hvalues⟩ := h
      rw [List.length_map] at hcount
      rw [pieces, form, ofArray, List.length_map, List.flatMap_map]
      refine (writes_flatMap fun value hvalue => ih ?_).cons (Piece.encode_count hcount)
      exact hvalues _ (List.mem_map_of_mem hvalue)
    | _ => exact h.elim
  | fixed length =>
    cases value with
    | bytes bytes =>
      have hlength : (bytes.length : Int) = length := Eq.symm h
      exact writes_singleton (if_pos hlength)
    | _ => exact h.elim
  | counted limit =>
    cases value with
    | bytes bytes => exact writes_singleton (Piece.encodeCounted_eq_ok h)
    | _ => exact h.elim
  | text limit =>
    cases value with
    | text content =>
      exact writes_singleton ((htext content).trans (Piece.encodeCounted_eq_ok h))
    | _ => exact h.elim
  | uint32 =>
    cases value with
    | uint32 n => exact writes_singleton (Piece.encode_uint32 n)
    | _ => exact h.elim
  | int32 =>
    cases value with
    | int32 n => exact writes_singleton (Piece.encode_int32 n)
    | _ => exact h.elim
  | uint64 =>
    cases value with
    | uint64 n => exact writes_singleton (Piece.encode_uint64 n)
    | _ => exact h.elim
  | int64 =>
    cases value with
    | int64 n => exact writes_singleton (Piece.encode_int64 n)
    | _ => exact h.elim
  | boolean =>
    cases value with
    | boolean b => exact writes_singleton rfl
    | _ => exact h.elim
  | atEnd | expectEnd => cases value <;> exact h.elim

end Step

/-! ### Both directions -/

namespace Cursor

lemma passes_place (before bytes after : Bytes) :
    (place (before ++ bytes ++ after) before.length).Passes bytes
      (place (before ++ bytes ++ after) (before.length + bytes.length)) := by
  rw [passes_place_iff, List.append_assoc, List.drop_left, List.length_append]
  exact ⟨Nat.le_add_right .., List.prefix_append .., rfl⟩

/-- What has been passed stands at its place. -/
lemma exists_append_of_passes {data bytes : Bytes} {offset : Nat} {next : Cursor}
    (h : (place data offset).Passes bytes next) :
    ∃ before after, data = before ++ bytes ++ after ∧ before.length = offset ∧
      next = place data (offset + bytes.length) := by
  obtain ⟨hinside, ⟨after, hafter⟩, hnext⟩ := passes_place_iff.1 h
  refine ⟨data.take offset, after, ?_, List.length_take_of_le hinside, hnext⟩
  rw [List.append_assoc, hafter, List.take_append_drop]

end Cursor

open Reader Writer in
/-- **Schemas are canonical.**  What the writer makes of a value in the range of a schema is read
back, wherever it stands, and reading stops right behind it.  Conversely, if a schema is read
anywhere, the value that is given is in its range, and what has been read is what the writer makes
of it, where a text is taken as its bytes.  Offsets count from 0 at the front. -/
theorem read_schema {step : Step} (h : step.IsSchema) :
    (∀ (value : Value String) (before after : Bytes), step.InRange (value.map Utf8.encode) →
      ∃ form found, Writer.write {} (step.pieces .text value) = (.ok (), ⟨form⟩) ∧
        step.read (Cursor.place (before ++ form ++ after) before.length) =
          .ok found (Cursor.place (before ++ form ++ after) (before.length + form.length)) ∧
        found.given.map Utf8.decodeLossy = value) ∧
    ∀ (data : Bytes) (offset : Nat) (found : Value) (next : Cursor),
      step.read (Cursor.place data offset) = .ok found next →
      step.InRange found.given ∧
        ∃ before form after, data = before ++ form ++ after ∧ before.length = offset ∧
          next = Cursor.place data (offset + form.length) ∧
          Writer.write {} (step.pieces .counted found.given) = (.ok (), ⟨form⟩) := by
  constructor
  · intro value before after hrange
    have hwrites := @Step.writes_pieces _ .text Utf8.encode step value (fun _ => rfl) hrange
    have hpass := Cursor.passes_place before (step.form (value.map Utf8.encode)) after
    obtain ⟨found, hread, hgiven⟩ := map_eq_ok.1 ((Step.reads_given h).2 ⟨hrange, hpass⟩)
    refine ⟨_, found, hwrites {}, hread, ?_⟩
    rw [hgiven, Value.map_map_of_leftInverse Utf8.decodeLossy_encode]
  · intro data offset found next hread
    obtain ⟨hrange, hpass⟩ := (Step.reads_given h).1 (map_eq_ok.2 ⟨found, hread, rfl⟩)
    obtain ⟨before, after, hdata, hoffset, hnext⟩ := Cursor.exists_append_of_passes hpass
    have hself : found.given.map id = found.given := Value.map_id _
    have hwrites := @Step.writes_pieces _ .counted id step found.given (fun _ => rfl)
      (by rwa [hself])
    rw [hself] at hwrites
    exact ⟨hrange, before, _, after, hdata, hoffset, hnext, hwrites {}⟩

/-- Up to two lists of short texts, each of which may be missing. -/
def sampleSchema : Step :=
  .array (some 2) (.optional (.array none (.text (some 4))))

theorem read_schema_sample :
    sampleSchema.IsSchema ∧
      (∃ form found,
        Writer.write {} (sampleSchema.pieces .text (.items [.absent, .items [.text "né"]])) =
          (.ok (), ⟨form⟩) ∧
        sampleSchema.read (Cursor.place ([7] ++ form ++ []) 1) =
          .ok found (Cursor.place ([7] ++ form ++ []) (1 + form.length)) ∧
        found.given.map Utf8.decodeLossy = .items [.absent, .items [.text "né"]]) ∧
      ∃ before form after, [9, 0, 0, 0, 0, 8] = before ++ form ++ after ∧ before.length = 1 ∧
        Cursor.place [9, 0, 0, 0, 0, 8] 5 =
          Cursor.place [9, 0, 0, 0, 0, 8] (1 + form.length) ∧
        Writer.write {} (sampleSchema.pieces .counted (.items [])) = (.ok (), ⟨form⟩) := by
  have hschema : sampleSchema.IsSchema := by simp [sampleSchema, Step.IsSchema, Step.isOptional]
  have hrange : sampleSchema.InRange
      ((Value.items [.absent, .items [.text "né"]]).map Utf8.encode) := by
    have htext : Reader.FitsCount (some 4) (Utf8.encode "né").length := ⟨by decide, by simp; decide⟩
    have hinner : Reader.FitsCount none 1 := ⟨by decide, nofun⟩
    have houter : Reader.FitsCount (some 2) 2 := ⟨by decide, by simp⟩
    refine ⟨houter, List.forall_mem_cons.2 ⟨.inl rfl, List.forall_mem_singleton.2 (.inr ?_)⟩⟩
    exact ⟨hinner, List.forall_mem_singleton.2 htext⟩
  have hread : sampleSchema.read (Cursor.place [9, 0, 0, 0, 0, 8] 1) =
      .ok (.items []) (Cursor.place [9, 0, 0, 0, 0, 8] 5) := rfl
  exact ⟨hschema, (read_schema hschema).1 _ [7] [] hrange,
    ((read_schema hschema).2 _ 1 _ _ hread).2⟩

/-- **Optional values directly inside optional values are an exception.**  Eight bytes are read as a
missing value inside a present one, which is given as a missing value; that is written with four. -/
theorem read_schema_nested :
    (Step.optional (.optional .uint32)).read (Cursor.place [0, 0, 0, 1, 0, 0, 0, 0] 0) =
        .ok (.present .absent) (Cursor.place [0, 0, 0, 1, 0, 0, 0, 0] 8) ∧
      (Value.present .absent : Value).given = .absent ∧
      Writer.write {} ((Step.optional (.optional .uint32)).pieces .counted .absent) =
        (.ok (), ⟨[0, 0, 0, 0]⟩) :=
  ⟨rfl, rfl, rfl⟩

end ContractInterface.Xdr
