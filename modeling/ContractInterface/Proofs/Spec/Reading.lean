/-
# Reading an interface exactly as it is written

The readers of types and of entries succeed exactly in front of the written form of something that
fits, give it back and stop right behind it.  The main results are

* `TypeDef.readWithin_eq_ok`: the law for types, by induction on the levels that are left;
* `Entry.read_eq_ok`: the law for entries, put together from the laws of their parts.
-/
import ContractInterface.Proofs.Spec.Form
import ContractInterface.Proofs.Xdr.Reading

namespace ContractInterface.Spec

open Xdr Xdr.Cursor Xdr.Reader

variable {c c' : Cursor}

/-! ### Types -/

lemma SimpleType.code_eq_written (type : SimpleType) : type.code = type.written := by
  cases type <;> rfl

namespace TypeCode

lemma ofNumber?_number (code : TypeCode) : ofNumber? code.number = some code := by
  cases code with
  | simple type => cases type <;> rfl
  | _ => rfl

lemma eq_number_of_ofNumber? {number : Int32} {code : TypeCode}
    (h : ofNumber? number = some code) : number = code.number := by
  have hfound : code.number = number := by simpa using List.find?_some h
  exact hfound.symm

end TypeCode

lemma fitsCount_tuple_iff {count : Nat} : FitsCount tupleLimit count ↔ count ≤ 12 :=
  fitsCount_some_iff rfl (by decide)

namespace TypeDef

/-- What is read behind the code of a type. -/
def readBody (levels : Nat) : TypeCode → Reader TypeDef
  | .simple type => return .simple type
  | .option => return .option (← readWithin levels)
  | .result => do
    let ok ← readWithin levels
    let err ← readWithin levels
    return .result ok err
  | .vec => return .vec (← readWithin levels)
  | .map => do
    let key ← readWithin levels
    let value ← readWithin levels
    return .map key value
  | .tuple => return .tuple (← Xdr.Reader.array tupleLimit (readWithin levels))
  | .bytesN => return .bytesN (← Xdr.Reader.uint32)
  | .udt => return .udt (← Xdr.Reader.counted none)

lemma readWithin_succ_eq_ok {levels : Nat} {type : TypeDef} :
    readWithin (levels + 1) c = .ok type c' ↔
      ∃ code c₁, c.Passes (ofInt32 (TypeCode.number code)) c₁ ∧
        readBody levels code c₁ = .ok type c' := by
  simp only [readWithin, bind_eq_ok, int32_eq_ok]
  constructor
  · rintro ⟨number, c₁, hnumber, h⟩
    cases hcode : TypeCode.ofNumber? number with
    | none =>
      rw [hcode] at h
      exact absurd h reject_ne_ok
    | some code =>
      rw [TypeCode.eq_number_of_ofNumber? hcode] at hnumber
      rw [hcode] at h
      refine ⟨code, c₁, hnumber, ?_⟩
      cases code <;> exact h
  · rintro ⟨code, c₁, hnumber, h⟩
    refine ⟨code.number, c₁, hnumber, ?_⟩
    rw [TypeCode.ofNumber?_number]
    cases code <;> exact h

/-- A type with so many levels inside that reading it opens no more than the levels left. -/
def FitsWithin (levels : Nat) (type : TypeDef) : Prop :=
  type.Bounded ∧ type.height < levels

lemma tupleFits_iff {levels : Nat} {members : List TypeDef} :
    (tuple members).FitsWithin (levels + 1) ↔
      FitsCount tupleLimit members.length ∧ ∀ member ∈ members, member.FitsWithin levels := by
  simp only [FitsWithin, Bounded, height, heightOf_lt_iff, boundedAll_iff, fitsCount_tuple_iff]
  constructor
  · rintro ⟨⟨hlen, hbounded⟩, hheight⟩
    exact ⟨hlen, fun member h => ⟨hbounded member h, hheight member h⟩⟩
  · rintro ⟨hlen, hmembers⟩
    exact ⟨⟨hlen, fun member h => (hmembers member h).1⟩, fun member h => (hmembers member h).2⟩

section

variable {levels : Nat} (hread : Reads (readWithin levels) (FitsWithin levels) encode)

include hread

/-- What is read behind a code is the rest of a type of that code. -/
lemma readBody_sound {code : TypeCode} {type : TypeDef} {c₁ : Cursor}
    (hcode : c.Passes (ofInt32 code.number) c₁) (h : readBody levels code c₁ = .ok type c') :
    type.FitsWithin (levels + 1) ∧ c.Passes type.encode c' := by
  cases code with
  | simple type =>
    obtain ⟨rfl, rfl⟩ := pure_eq_ok.1 h
    rw [TypeCode.number, type.code_eq_written] at hcode
    exact ⟨⟨trivial, Nat.succ_pos _⟩, hcode⟩
  | option | vec =>
    simp only [readBody, bind_eq_ok, hread.eq_ok, pure_eq_ok] at h
    obtain ⟨inner, c₂, ⟨⟨hbounded, hheight⟩, hinner⟩, rfl, rfl⟩ := h
    exact ⟨⟨hbounded, Nat.succ_lt_succ hheight⟩, hcode.trans hinner⟩
  | result | map =>
    simp only [readBody, bind_eq_ok, hread.eq_ok, pure_eq_ok] at h
    obtain ⟨first, c₂, ⟨hfirst, hpass⟩, second, c₃, ⟨hsecond, hpass'⟩, rfl, rfl⟩ := h
    have hheight := Nat.max_lt.2 ⟨hfirst.2, hsecond.2⟩
    exact ⟨⟨⟨hfirst.1, hsecond.1⟩, Nat.succ_lt_succ hheight⟩,
      (hcode.trans hpass).trans hpass'⟩
  | tuple =>
    simp only [readBody, bind_eq_ok, array_eq_ok hread four_le_length_encode, pure_eq_ok] at h
    obtain ⟨members, c₂, ⟨hmembers, hpass⟩, rfl, rfl⟩ := h
    -- the members are one level further in
    rw [encode_tuple]
    exact ⟨tupleFits_iff.2 hmembers, hcode.trans hpass⟩
  | bytesN =>
    simp only [readBody, bind_eq_ok, uint32_eq_ok, pure_eq_ok] at h
    obtain ⟨size, c₂, hpass, rfl, rfl⟩ := h
    exact ⟨⟨trivial, Nat.succ_pos _⟩, hcode.trans hpass⟩
  | udt =>
    simp only [readBody, bind_eq_ok, counted_eq_ok, pure_eq_ok] at h
    obtain ⟨name, c₂, ⟨hname, hpass⟩, rfl, rfl⟩ := h
    exact ⟨⟨hname.lt_bound, Nat.succ_pos _⟩, hcode.trans hpass⟩

/-- The rest of a type is read behind its code. -/
lemma readBody_complete {type : TypeDef} (hfits : type.FitsWithin (levels + 1))
    (h : c.Passes type.encode c') :
    ∃ code c₁, c.Passes (ofInt32 (TypeCode.number code)) c₁ ∧
      readBody levels code c₁ = .ok type c' := by
  obtain ⟨hbounded, hheight⟩ := hfits
  cases type with
  | simple type =>
    rw [encode, ← type.code_eq_written] at h
    exact ⟨.simple type, c', h, rfl⟩
  | option inner =>
    obtain ⟨c₁, hcode, hinner⟩ := passes_append_iff.1 h
    have hfits : inner.FitsWithin levels := ⟨hbounded, Nat.lt_of_succ_lt_succ hheight⟩
    refine ⟨.option, c₁, hcode, ?_⟩
    simp only [readBody, bind_eq_ok, hread.eq_ok, pure_eq_ok]
    exact ⟨inner, c', ⟨hfits, hinner⟩, rfl, rfl⟩
  | vec element =>
    obtain ⟨c₁, hcode, helement⟩ := passes_append_iff.1 h
    have hfits : element.FitsWithin levels := ⟨hbounded, Nat.lt_of_succ_lt_succ hheight⟩
    refine ⟨.vec, c₁, hcode, ?_⟩
    simp only [readBody, bind_eq_ok, hread.eq_ok, pure_eq_ok]
    exact ⟨element, c', ⟨hfits, helement⟩, rfl, rfl⟩
  | result ok err =>
    simp only [encode, List.append_assoc, passes_append_iff] at h
    obtain ⟨c₁, hcode, c₂, hok, herr⟩ := h
    have hlevels := Nat.max_lt.1 (Nat.lt_of_succ_lt_succ hheight)
    refine ⟨.result, c₁, hcode, ?_⟩
    simp only [readBody, bind_eq_ok, hread.eq_ok, pure_eq_ok]
    exact ⟨ok, c₂, ⟨⟨hbounded.1, hlevels.1⟩, hok⟩, err, c', ⟨⟨hbounded.2, hlevels.2⟩, herr⟩,
      rfl, rfl⟩
  | map key value =>
    simp only [encode, List.append_assoc, passes_append_iff] at h
    obtain ⟨c₁, hcode, c₂, hkey, hvalue⟩ := h
    have hlevels := Nat.max_lt.1 (Nat.lt_of_succ_lt_succ hheight)
    refine ⟨.map, c₁, hcode, ?_⟩
    simp only [readBody, bind_eq_ok, hread.eq_ok, pure_eq_ok]
    exact ⟨key, c₂, ⟨⟨hbounded.1, hlevels.1⟩, hkey⟩, value, c',
      ⟨⟨hbounded.2, hlevels.2⟩, hvalue⟩, rfl, rfl⟩
  | tuple members =>
    rw [encode_tuple] at h
    obtain ⟨c₁, hcode, hmembers⟩ := passes_append_iff.1 h
    have hfits := tupleFits_iff.1 ⟨hbounded, hheight⟩
    refine ⟨.tuple, c₁, hcode, ?_⟩
    simp only [readBody, bind_eq_ok, array_eq_ok hread four_le_length_encode, pure_eq_ok]
    exact ⟨members, c', ⟨hfits, hmembers⟩, rfl, rfl⟩
  | bytesN size =>
    obtain ⟨c₁, hcode, hsize⟩ := passes_append_iff.1 h
    refine ⟨.bytesN, c₁, hcode, ?_⟩
    simp only [readBody, bind_eq_ok, uint32_eq_ok, pure_eq_ok]
    exact ⟨size, c', hsize, rfl, rfl⟩
  | udt name =>
    obtain ⟨c₁, hcode, hname⟩ := passes_append_iff.1 h
    refine ⟨.udt, c₁, hcode, ?_⟩
    simp only [readBody, bind_eq_ok, counted_eq_ok, pure_eq_ok]
    exact ⟨name, c', ⟨⟨hbounded, by simp⟩, hname⟩, rfl, rfl⟩

end

/-- **The law for types.**  With given levels left, exactly the types are read that open no more
levels. -/
theorem readWithin_eq_ok {levels : Nat} {type : TypeDef} :
    readWithin levels c = .ok type c' ↔ type.FitsWithin levels ∧ c.Passes type.encode c' := by
  induction levels generalizing type c c' with
  | zero =>
    rw [readWithin]
    simp [FitsWithin]
  | succ levels ih =>
    -- the parts of a type are read with one level less, for which the law is known
    have hread : Reads (readWithin levels) (FitsWithin levels) encode := fun _ _ _ => ih
    rw [readWithin_succ_eq_ok]
    constructor
    · rintro ⟨code, c₁, hcode, h⟩
      exact readBody_sound hread hcode h
    · rintro ⟨hfits, h⟩
      exact readBody_complete hread hfits h

theorem read_eq_ok {type : TypeDef} :
    read c = .ok type c' ↔ type.Fits ∧ c.Passes type.encode c' := by
  have hfits : type.FitsWithin (maxTypeDepth + 1) ↔ type.Fits :=
    ⟨fun h => ⟨h.1, Nat.le_of_lt_succ h.2⟩, fun h => ⟨h.bounded, Nat.lt_succ_of_le h.height_le⟩⟩
  rw [← hfits]
  exact readWithin_eq_ok

end TypeDef

/-! ### Parts of entries -/

lemma readDoc_eq_ok {doc : Bytes} :
    readDoc c = .ok doc c' ↔ DocFits doc ∧ c.Passes (ofCounted doc) c' := by
  have hfits : FitsCount docLimit doc.length ↔ doc.length ≤ 1024 :=
    fitsCount_some_iff rfl (by decide)
  rw [readDoc, counted_eq_ok, hfits, DocFits]

lemma readName_eq_ok {name : Bytes} :
    readName c = .ok name c' ↔ NameFits name ∧ c.Passes (ofCounted name) c' := by
  rw [readName, counted_eq_ok, fitsCount_none_iff, NameFits]

/-- An array without a limit has the law of its elements. -/
lemma array_none_eq_ok {α : Type} {read : Reader α} {Fits : α → Prop} {encode : α → Bytes}
    (hread : Reads read Fits encode) (hmin : ∀ value, 4 ≤ (encode value).length)
    {values : List α} :
    Xdr.Reader.array none read c = .ok values c' ↔
      ArrayFits Fits values ∧ c.Passes (ofArray encode values) c' := by
  rw [array_eq_ok hread hmin, fitsCount_none_iff]
  exact and_congr_left fun _ => ⟨fun h => ⟨h.1, h.2⟩, fun h => ⟨h.length_lt, h.fits⟩⟩

theorem FieldEntry.read_eq_ok {field : FieldEntry} :
    read c = .ok field c' ↔ field.Fits ∧ c.Passes field.encode c' := by
  simp only [read, bind_eq_ok, readDoc_eq_ok, readName_eq_ok, TypeDef.read_eq_ok, pure_eq_ok,
    encode, List.append_assoc, passes_append_iff]
  constructor
  · rintro ⟨doc, c₁, ⟨hdoc, h₁⟩, name, c₂, ⟨hname, h₂⟩, type, c₃, ⟨htype, h₃⟩, rfl, rfl⟩
    exact ⟨⟨hdoc, hname, htype⟩, c₁, h₁, c₂, h₂, h₃⟩
  · rintro ⟨hfits, c₁, h₁, c₂, h₂, h₃⟩
    exact ⟨_, c₁, ⟨hfits.doc, h₁⟩, _, c₂, ⟨hfits.name, h₂⟩, _, c', ⟨hfits.type, h₃⟩, rfl, rfl⟩

/-- The law for the types of a tuple. -/
lemma tupleTypes_eq_ok {types : List TypeDef} :
    Xdr.Reader.array tupleLimit TypeDef.read c = .ok types c' ↔
      (types.length ≤ 12 ∧ ∀ type ∈ types, type.Fits) ∧
        c.Passes (ofArray TypeDef.encode types) c' := by
  rw [array_eq_ok (fun _ _ _ => TypeDef.read_eq_ok) TypeDef.four_le_length_encode,
    fitsCount_tuple_iff]

theorem CaseEntry.read_eq_ok {entry : CaseEntry} :
    read c = .ok entry c' ↔ entry.Fits ∧ c.Passes entry.encode c' := by
  simp only [read, bind_eq_ok, int32_eq_ok, readDoc_eq_ok, readName_eq_ok]
  constructor
  · rintro ⟨kind, c₁, hkind, doc, c₂, ⟨hdoc, h₂⟩, name, c₃, ⟨hname, h₃⟩, h⟩
    split_ifs at h with hvoid htuple
    · obtain ⟨rfl, rfl⟩ := pure_eq_ok.1 h
      subst hvoid
      exact ⟨⟨hdoc, hname⟩, (hkind.trans h₂).trans h₃⟩
    · simp only [bind_eq_ok, tupleTypes_eq_ok, pure_eq_ok] at h
      obtain ⟨types, c₄, ⟨htypes, h₄⟩, rfl, rfl⟩ := h
      subst htuple
      exact ⟨⟨hdoc, hname, htypes⟩, ((hkind.trans h₂).trans h₃).trans h₄⟩
    · exact absurd h reject_ne_ok
  · rintro ⟨hfits, h⟩
    cases entry with
    | void doc name =>
      simp only [encode, List.append_assoc, passes_append_iff] at h
      obtain ⟨c₁, hkind, c₂, h₂, h₃⟩ := h
      exact ⟨0, c₁, hkind, doc, c₂, ⟨hfits.1, h₂⟩, name, c', ⟨hfits.2, h₃⟩, rfl⟩
    | tuple doc name types =>
      simp only [encode, List.append_assoc, passes_append_iff] at h
      obtain ⟨c₁, hkind, c₂, h₂, c₃, h₃, h₄⟩ := h
      obtain ⟨hdoc, hname, htypes⟩ := hfits
      refine ⟨1, c₁, hkind, doc, c₂, ⟨hdoc, h₂⟩, name, c₃, ⟨hname, h₃⟩, ?_⟩
      rw [if_neg (by decide), if_pos rfl]
      simp only [bind_eq_ok, tupleTypes_eq_ok, pure_eq_ok]
      exact ⟨types, c', ⟨htypes, h₄⟩, rfl, rfl⟩

theorem VariantEntry.read_eq_ok {variant : VariantEntry} :
    read c = .ok variant c' ↔ variant.Fits ∧ c.Passes variant.encode c' := by
  simp only [read, bind_eq_ok, readDoc_eq_ok, readName_eq_ok, uint32_eq_ok, pure_eq_ok, encode,
    List.append_assoc, passes_append_iff]
  constructor
  · rintro ⟨doc, c₁, ⟨hdoc, h₁⟩, name, c₂, ⟨hname, h₂⟩, value, c₃, h₃, rfl, rfl⟩
    exact ⟨⟨hdoc, hname⟩, c₁, h₁, c₂, h₂, h₃⟩
  · rintro ⟨hfits, c₁, h₁, c₂, h₂, h₃⟩
    exact ⟨_, c₁, ⟨hfits.doc, h₁⟩, _, c₂, ⟨hfits.name, h₂⟩, _, c', h₃, rfl, rfl⟩

theorem Header.read_eq_ok {header : Header} :
    read c = .ok header c' ↔ header.Fits ∧ c.Passes header.encode c' := by
  simp only [read, bind_eq_ok, readDoc_eq_ok, readName_eq_ok, pure_eq_ok, encode,
    List.append_assoc, passes_append_iff]
  constructor
  · rintro ⟨doc, c₁, ⟨hdoc, h₁⟩, lib, c₂, ⟨hlib, h₂⟩, name, c₃, ⟨hname, h₃⟩, rfl, rfl⟩
    exact ⟨⟨hdoc, hlib, hname⟩, c₁, h₁, c₂, h₂, h₃⟩
  · rintro ⟨hfits, c₁, h₁, c₂, h₂, h₃⟩
    exact ⟨_, c₁, ⟨hfits.doc, h₁⟩, _, c₂, ⟨hfits.lib, h₂⟩, _, c', ⟨hfits.name, h₃⟩, rfl, rfl⟩

theorem EventParamEntry.read_eq_ok {param : EventParamEntry} :
    read c = .ok param c' ↔ param.Fits ∧ c.Passes param.encode c' := by
  simp only [read, bind_eq_ok, readDoc_eq_ok, readName_eq_ok, TypeDef.read_eq_ok, int32_eq_ok,
    pure_eq_ok, encode, List.append_assoc, passes_append_iff]
  constructor
  · rintro ⟨doc, c₁, ⟨hdoc, h₁⟩, name, c₂, ⟨hname, h₂⟩, type, c₃, ⟨htype, h₃⟩, location, c₄, h₄,
      rfl, rfl⟩
    exact ⟨⟨hdoc, hname, htype⟩, c₁, h₁, c₂, h₂, c₃, h₃, h₄⟩
  · rintro ⟨hfits, c₁, h₁, c₂, h₂, c₃, h₃, h₄⟩
    exact ⟨_, c₁, ⟨hfits.doc, h₁⟩, _, c₂, ⟨hfits.name, h₂⟩, _, c₃, ⟨hfits.type, h₃⟩, _, c', h₄,
      rfl, rfl⟩

/-! ### Entries -/

namespace Entry

/-- What is read behind the kind of an entry. -/
def readBody (kind : Int32) : Reader Entry :=
  match kind.toInt with
  | 0 => readFunction
  | 1 => return .struct (← Header.read) (← Xdr.Reader.array none FieldEntry.read)
  | 2 => return .union (← Header.read) (← Xdr.Reader.array none CaseEntry.read)
  | 3 => return .enum (← Header.read) (← Xdr.Reader.array none VariantEntry.read)
  | 4 => return .errorEnum (← Header.read) (← Xdr.Reader.array none VariantEntry.read)
  | 5 => readEvent
  | _ => Xdr.Reader.reject (.unknownEntryKind kind)

/-- The law for what is read behind one kind of entry. -/
def ReadsBody (read : Reader Entry) (kind : Int32) : Prop :=
  ∀ {c entry c'}, read c = .ok entry c' ↔
    entry.kind = kind ∧ entry.Fits ∧ c.Passes entry.encodeBody c'

lemma readsBody_function : ReadsBody readFunction 0 := by
  intro c entry c'
  have hcount : ∀ {count : Nat}, FitsCount (some 1) count ↔ count ≤ 1 :=
    fitsCount_some_iff rfl (by decide)
  simp only [readFunction, bind_eq_ok, readDoc_eq_ok, readName_eq_ok, pure_eq_ok,
    array_eq_ok (fun _ _ _ => TypeDef.read_eq_ok) TypeDef.four_le_length_encode, hcount,
    array_none_eq_ok (fun _ _ _ => FieldEntry.read_eq_ok) FieldEntry.four_le_length_encode]
  constructor
  · rintro ⟨doc, c₁, ⟨hdoc, h₁⟩, name, c₂, ⟨hname, h₂⟩, inputs, c₃, ⟨hinputs, h₃⟩, outputs, c₄,
      ⟨⟨hlen, htypes⟩, h₄⟩, rfl, rfl⟩
    -- an array of at most one type is an optional type
    obtain ⟨output, rfl⟩ : ∃ output : Option TypeDef, outputs = output.toList := by
      match outputs, hlen with
      | [], _ => exact ⟨none, rfl⟩
      | [type], _ => exact ⟨some type, rfl⟩
    rw [Option.head?_toList]
    exact ⟨rfl, ⟨hdoc, hname, hinputs, fun type h => htypes type (Option.mem_toList.2 h)⟩,
      ((h₁.trans h₂).trans h₃).trans h₄⟩
  · rintro ⟨hkind, hfits, h⟩
    obtain ⟨doc, name, inputs, output, rfl⟩ :
        ∃ doc name inputs output, entry = .function doc name inputs output := by
      cases entry <;> simp_all [kind]
    obtain ⟨hdoc, hname, hinputs, houtput⟩ := hfits
    simp only [encodeBody, List.append_assoc, passes_append_iff] at h
    obtain ⟨c₁, h₁, c₂, h₂, c₃, h₃, h₄⟩ := h
    have hlen : output.toList.length ≤ 1 := by cases output <;> simp
    have htypes : ∀ type ∈ output.toList, type.Fits := fun type h =>
      houtput type (Option.mem_toList.1 h)
    exact ⟨doc, c₁, ⟨hdoc, h₁⟩, name, c₂, ⟨hname, h₂⟩, inputs, c₃, ⟨hinputs, h₃⟩,
      output.toList, c', ⟨⟨hlen, htypes⟩, h₄⟩, by rw [Option.head?_toList], rfl⟩

lemma readsBody_event : ReadsBody readEvent 5 := by
  intro c entry c'
  have hcount : ∀ {count : Nat}, FitsCount topicLimit count ↔ count ≤ 2 :=
    fitsCount_some_iff rfl (by decide)
  simp only [readEvent, bind_eq_ok, Header.read_eq_ok, int32_eq_ok, pure_eq_ok,
    array_eq_ok (fun _ _ _ => readName_eq_ok) four_le_length_ofCounted, hcount,
    array_none_eq_ok (fun _ _ _ => EventParamEntry.read_eq_ok)
      EventParamEntry.four_le_length_encode]
  constructor
  · rintro ⟨header, c₁, ⟨hheader, h₁⟩, topics, c₂, ⟨htopics, h₂⟩, params, c₃, ⟨hparams, h₃⟩,
      dataFormat, c₄, h₄, rfl, rfl⟩
    exact ⟨rfl, ⟨hheader, htopics, hparams⟩, ((h₁.trans h₂).trans h₃).trans h₄⟩
  · rintro ⟨hkind, hfits, h⟩
    obtain ⟨header, topics, params, dataFormat, rfl⟩ :
        ∃ header topics params dataFormat, entry = .event header topics params dataFormat := by
      cases entry <;> simp_all [kind]
    obtain ⟨hheader, htopics, hparams⟩ := hfits
    simp only [encodeBody, List.append_assoc, passes_append_iff] at h
    obtain ⟨c₁, h₁, c₂, h₂, c₃, h₃, h₄⟩ := h
    exact ⟨header, c₁, ⟨hheader, h₁⟩, topics, c₂, ⟨htopics, h₂⟩, params, c₃, ⟨hparams, h₃⟩,
      dataFormat, c', h₄, rfl, rfl⟩

/-- The law for the kinds of entry that are a header and an array. -/
lemma readsBody_declaration {α : Type} {read : Reader α} {Fits : α → Prop} {encode : α → Bytes}
    (hread : Reads read Fits encode) (hmin : ∀ value, 4 ≤ (encode value).length)
    {make : Header → List α → Entry} {kind : Int32}
    (hkind : ∀ entry : Entry, entry.kind = kind ↔ ∃ header items, entry = make header items)
    (hfits : ∀ header items, (make header items).Fits ↔ header.Fits ∧ ArrayFits Fits items)
    (hbody : ∀ header items,
      (make header items).encodeBody = header.encode ++ ofArray encode items) :
    ReadsBody (do return make (← Header.read) (← Xdr.Reader.array none read)) kind := by
  intro c entry c'
  simp only [bind_eq_ok, Header.read_eq_ok, array_none_eq_ok hread hmin, pure_eq_ok, hkind]
  constructor
  · rintro ⟨header, c₁, ⟨hheader, h₁⟩, items, c₂, ⟨hitems, h₂⟩, rfl, rfl⟩
    refine ⟨⟨header, items, rfl⟩, (hfits header items).2 ⟨hheader, hitems⟩, ?_⟩
    rw [hbody]
    exact h₁.trans h₂
  · rintro ⟨⟨header, items, rfl⟩, h, hpass⟩
    obtain ⟨hheader, hitems⟩ := (hfits header items).1 h
    rw [hbody, passes_append_iff] at hpass
    obtain ⟨c₁, h₁, h₂⟩ := hpass
    exact ⟨header, c₁, ⟨hheader, h₁⟩, items, c', ⟨hitems, h₂⟩, rfl, rfl⟩

/-- The law for what is read behind any kind. -/
lemma readsBody (kind : Int32) : ReadsBody (readBody kind) kind := by
  rw [readBody]
  split
  case h_1 h =>
    obtain rfl : kind = 0 := Int32.toInt.inj h
    exact readsBody_function
  case h_2 h =>
    obtain rfl : kind = 1 := Int32.toInt.inj h
    exact readsBody_declaration (fun _ _ _ => FieldEntry.read_eq_ok)
      FieldEntry.four_le_length_encode (fun entry => by cases entry <;> simp [Entry.kind])
      (fun _ _ => Iff.rfl) (fun _ _ => rfl)
  case h_3 h =>
    obtain rfl : kind = 2 := Int32.toInt.inj h
    exact readsBody_declaration (fun _ _ _ => CaseEntry.read_eq_ok)
      CaseEntry.four_le_length_encode (fun entry => by cases entry <;> simp [Entry.kind])
      (fun _ _ => Iff.rfl) (fun _ _ => rfl)
  case h_4 h =>
    obtain rfl : kind = 3 := Int32.toInt.inj h
    exact readsBody_declaration (fun _ _ _ => VariantEntry.read_eq_ok)
      VariantEntry.four_le_length_encode (fun entry => by cases entry <;> simp [Entry.kind])
      (fun _ _ => Iff.rfl) (fun _ _ => rfl)
  case h_5 h =>
    obtain rfl : kind = 4 := Int32.toInt.inj h
    exact readsBody_declaration (fun _ _ _ => VariantEntry.read_eq_ok)
      VariantEntry.four_le_length_encode (fun entry => by cases entry <;> simp [Entry.kind])
      (fun _ _ => Iff.rfl) (fun _ _ => rfl)
  case h_6 h =>
    obtain rfl : kind = 5 := Int32.toInt.inj h
    exact readsBody_event
  case h_7 h₀ h₁ h₂ h₃ h₄ h₅ =>
    intro c entry c'
    simp only [reject_ne_ok, false_iff, not_and]
    rintro rfl
    cases entry
    case function => exact absurd rfl h₀
    case struct => exact absurd rfl h₁
    case union => exact absurd rfl h₂
    case enum => exact absurd rfl h₃
    case errorEnum => exact absurd rfl h₄
    case event => exact absurd rfl h₅

lemma readBody_eq_ok {kind : Int32} {entry : Entry} :
    readBody kind c = .ok entry c' ↔
      entry.kind = kind ∧ entry.Fits ∧ c.Passes entry.encodeBody c' :=
  readsBody kind

/-- **The law for entries.** -/
theorem read_eq_ok {entry : Entry} :
    read c = .ok entry c' ↔ entry.Fits ∧ c.Passes entry.encode c' := by
  -- the reader is the kind, and then `readBody` of it
  change (Xdr.Reader.int32 >>= readBody) c = _ ↔ _
  simp only [bind_eq_ok, int32_eq_ok, readBody_eq_ok, encode, passes_append_iff]
  constructor
  · rintro ⟨_, c₁, h₁, rfl, hfits, h₂⟩
    exact ⟨hfits, c₁, h₁, h₂⟩
  · rintro ⟨hfits, c₁, h₁, h₂⟩
    exact ⟨entry.kind, c₁, h₁, rfl, hfits, h₂⟩

end Entry

end ContractInterface.Spec
