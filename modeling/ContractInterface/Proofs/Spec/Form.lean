/-
# The written form of an interface

Each type and each entry has one written form, `encode`, and `Fits` says which of them have one
that a module may hold: descriptions of at most 1024 bytes, tuples of at most twelve members, types
nested at most 64 deep, and lengths that their 32-bit counts can say.  What fits is decidable.
-/
import ContractInterface.Proofs.Xdr.Form
import ContractInterface.Spec.Entry

namespace ContractInterface.Spec

open Xdr

/-! ### Types -/

/-- The code that a type without parts is written with. -/
def SimpleType.written : SimpleType → Int32
  | .val => 0
  | .bool => 1
  | .void => 2
  | .error => 3
  | .u32 => 4
  | .i32 => 5
  | .u64 => 6
  | .i64 => 7
  | .timepoint => 8
  | .duration => 9
  | .u128 => 10
  | .i128 => 11
  | .u256 => 12
  | .i256 => 13
  | .bytes => 14
  | .string => 16
  | .symbol => 17
  | .address => 19
  | .muxedAddress => 20

namespace TypeDef

mutual

/-- The written form of a type: its code, and the written forms of its parts. -/
def encode : TypeDef → Bytes
  | .simple type => ofInt32 type.written
  | .option inner => ofInt32 1000 ++ encode inner
  | .result ok err => ofInt32 1001 ++ encode ok ++ encode err
  | .vec element => ofInt32 1002 ++ encode element
  | .map key value => ofInt32 1004 ++ encode key ++ encode value
  | .tuple members =>
    ofInt32 1005 ++ ofUInt32 (UInt32.ofNat members.length) ++ encodeMembers members
  | .bytesN size => ofInt32 1006 ++ ofUInt32 size
  | .udt name => ofInt32 2000 ++ ofCounted name

/-- The written forms of the members of a tuple, one after the other. -/
def encodeMembers : List TypeDef → Bytes
  | [] => []
  | member :: members => encode member ++ encodeMembers members

end

mutual

/-- The number of levels inside a type: none in a type without parts or in an empty tuple. -/
def height {α : Type} : TypeDef α → Nat
  | .simple _ | .bytesN _ | .udt _ => 0
  | .option inner | .vec inner => height inner + 1
  | .result first second | .map first second => max (height first) (height second) + 1
  | .tuple members => heightOf members

/-- The number of levels inside a tuple of given members. -/
def heightOf {α : Type} : List (TypeDef α) → Nat
  | [] => 0
  | member :: members => max (height member + 1) (heightOf members)

end

mutual

/-- Whether the tuples and the names in a type keep to their limits. -/
def Bounded : TypeDef → Prop
  | .simple _ | .bytesN _ => True
  | .option inner | .vec inner => Bounded inner
  | .result first second | .map first second => Bounded first ∧ Bounded second
  | .tuple members => members.length ≤ 12 ∧ BoundedAll members
  | .udt name => name.length < UInt32.size

/-- Whether all members of a tuple keep to their limits. -/
def BoundedAll : List TypeDef → Prop
  | [] => True
  | member :: members => Bounded member ∧ BoundedAll members

end

/-- A type that a module may hold. -/
structure Fits (type : TypeDef) : Prop where
  bounded : type.Bounded
  height_le : type.height ≤ 64

lemma encodeMembers_eq_flatMap (members : List TypeDef) :
    encodeMembers members = members.flatMap encode := by
  induction members with
  | nil => rfl
  | cons member members ih => rw [encodeMembers, ih, List.flatMap_cons]

lemma encode_tuple (members : List TypeDef) :
    (tuple members).encode = ofInt32 1005 ++ ofArray encode members := by
  rw [encode, encodeMembers_eq_flatMap, ofArray, List.append_assoc]

lemma boundedAll_iff {members : List TypeDef} :
    BoundedAll members ↔ ∀ member ∈ members, member.Bounded := by
  induction members with
  | nil => simp [BoundedAll]
  | cons member members ih => rw [BoundedAll, ih, List.forall_mem_cons]

lemma heightOf_lt_iff {α : Type} {members : List (TypeDef α)} {levels : Nat} :
    heightOf members < levels + 1 ↔ ∀ member ∈ members, member.height < levels := by
  induction members with
  | nil => simp [heightOf]
  | cons member members ih =>
    rw [heightOf, List.forall_mem_cons, ← ih]
    omega

lemma four_le_length_encode (type : TypeDef) : 4 ≤ type.encode.length := by
  cases type <;> simp only [encode, List.length_append, length_ofInt32] <;> omega

mutual

lemma four_dvd_length_encode : ∀ type : TypeDef, 4 ∣ type.encode.length
  | .simple type => by simp [encode]
  | .option inner | .vec inner => by
    have hinner := four_dvd_length_encode inner
    rw [encode, List.length_append, length_ofInt32]
    omega
  | .result first second | .map first second => by
    have hfirst := four_dvd_length_encode first
    have hsecond := four_dvd_length_encode second
    rw [encode, List.length_append, List.length_append, length_ofInt32]
    omega
  | .tuple members => by
    have hmembers := four_dvd_length_encodeMembers members
    rw [encode, List.length_append, List.length_append, length_ofInt32, length_ofUInt32]
    omega
  | .bytesN size => by
    rw [encode, List.length_append, length_ofInt32, length_ofUInt32]
    omega
  | .udt name => by
    have hname := four_dvd_length_ofCounted name
    rw [encode, List.length_append, length_ofInt32]
    omega

lemma four_dvd_length_encodeMembers : ∀ members : List TypeDef, 4 ∣ (encodeMembers members).length
  | [] => by simp [encodeMembers]
  | member :: members => by
    rw [encodeMembers, List.length_append]
    exact Nat.dvd_add (four_dvd_length_encode member) (four_dvd_length_encodeMembers members)

end

end TypeDef

/-! ### Parts of entries -/

/-- A description that a module may hold. -/
def DocFits (doc : Bytes) : Prop :=
  doc.length ≤ 1024

/-- A name that a module may hold. -/
def NameFits (name : Bytes) : Prop :=
  name.length < UInt32.size

/-- An array that a module may hold, of elements that each fit. -/
structure ArrayFits {α : Type} (Fits : α → Prop) (values : List α) : Prop where
  length_lt : values.length < UInt32.size
  fits : ∀ value ∈ values, Fits value

namespace FieldEntry

/-- The written form of a field. -/
def encode (field : FieldEntry) : Bytes :=
  ofCounted field.doc ++ ofCounted field.name ++ field.type.encode

/-- A field that a module may hold. -/
structure Fits (field : FieldEntry) : Prop where
  doc : DocFits field.doc
  name : NameFits field.name
  type : field.type.Fits

end FieldEntry

namespace CaseEntry

/-- The written form of a case of a union: its kind, its description and its name, and the types
of a case that has them. -/
def encode : CaseEntry → Bytes
  | .void doc name => ofInt32 0 ++ ofCounted doc ++ ofCounted name
  | .tuple doc name types =>
    ofInt32 1 ++ ofCounted doc ++ ofCounted name ++ ofArray TypeDef.encode types

/-- A case of a union that a module may hold. -/
def Fits : CaseEntry → Prop
  | .void doc name => DocFits doc ∧ NameFits name
  | .tuple doc name types =>
    DocFits doc ∧ NameFits name ∧ types.length ≤ 12 ∧ ∀ type ∈ types, type.Fits

end CaseEntry

namespace VariantEntry

/-- The written form of a value of an enumeration. -/
def encode (variant : VariantEntry) : Bytes :=
  ofCounted variant.doc ++ ofCounted variant.name ++ ofUInt32 variant.value

/-- A value of an enumeration that a module may hold. -/
structure Fits (variant : VariantEntry) : Prop where
  doc : DocFits variant.doc
  name : NameFits variant.name

end VariantEntry

namespace Header

/-- The written form of what begins a declaration. -/
def encode (header : Header) : Bytes :=
  ofCounted header.doc ++ ofCounted header.lib ++ ofCounted header.name

/-- What may begin a declaration in a module. -/
structure Fits (header : Header) : Prop where
  doc : DocFits header.doc
  lib : NameFits header.lib
  name : NameFits header.name

end Header

namespace EventParamEntry

/-- The written form of a value of an event. -/
def encode (param : EventParamEntry) : Bytes :=
  ofCounted param.doc ++ ofCounted param.name ++ param.type.encode ++ ofInt32 param.location

/-- A value of an event that a module may hold. -/
structure Fits (param : EventParamEntry) : Prop where
  doc : DocFits param.doc
  name : NameFits param.name
  type : param.type.Fits

end EventParamEntry

/-! ### Entries -/

namespace Entry

/-- The number of the kind of an entry. -/
def kind {α : Type} : Entry α → Int32
  | .function .. => 0
  | .struct .. => 1
  | .union .. => 2
  | .enum .. => 3
  | .errorEnum .. => 4
  | .event .. => 5

/-- The written forms of the parts of an entry. -/
def encodeBody : Entry → Bytes
  | .function doc name inputs output =>
    ofCounted doc ++ ofCounted name ++ ofArray FieldEntry.encode inputs ++
      ofArray TypeDef.encode output.toList
  | .struct header fields => header.encode ++ ofArray FieldEntry.encode fields
  | .union header cases => header.encode ++ ofArray CaseEntry.encode cases
  | .enum header variants => header.encode ++ ofArray VariantEntry.encode variants
  | .errorEnum header cases => header.encode ++ ofArray VariantEntry.encode cases
  | .event header prefixTopics params dataFormat =>
    header.encode ++ ofArray ofCounted prefixTopics ++ ofArray EventParamEntry.encode params ++
      ofInt32 dataFormat

/-- The written form of an entry: its kind, and the written forms of its parts. -/
def encode (entry : Entry) : Bytes :=
  ofInt32 entry.kind ++ entry.encodeBody

/-- An entry that a module may hold. -/
def Fits : Entry → Prop
  | .function doc name inputs output =>
    DocFits doc ∧ NameFits name ∧ ArrayFits FieldEntry.Fits inputs ∧ ∀ type ∈ output, type.Fits
  | .struct header fields => header.Fits ∧ ArrayFits FieldEntry.Fits fields
  | .union header cases => header.Fits ∧ ArrayFits CaseEntry.Fits cases
  | .enum header variants => header.Fits ∧ ArrayFits VariantEntry.Fits variants
  | .errorEnum header cases => header.Fits ∧ ArrayFits VariantEntry.Fits cases
  | .event header prefixTopics params _ =>
    header.Fits ∧ (prefixTopics.length ≤ 2 ∧ ∀ topic ∈ prefixTopics, NameFits topic) ∧
      ArrayFits EventParamEntry.Fits params

end Entry

/-! ### Deciding what fits -/

namespace TypeDef

mutual

def decidableBounded : (type : TypeDef) → Decidable type.Bounded
  | .simple _ | .bytesN _ => isTrue trivial
  | .option inner | .vec inner => decidableBounded inner
  | .result first second | .map first second =>
    have := decidableBounded first
    have := decidableBounded second
    inferInstanceAs (Decidable (first.Bounded ∧ second.Bounded))
  | .tuple members =>
    have := decidableBoundedAll members
    inferInstanceAs (Decidable (members.length ≤ 12 ∧ BoundedAll members))
  | .udt name => inferInstanceAs (Decidable (name.length < UInt32.size))

def decidableBoundedAll : (members : List TypeDef) → Decidable (BoundedAll members)
  | [] => isTrue trivial
  | member :: members =>
    have := decidableBounded member
    have := decidableBoundedAll members
    inferInstanceAs (Decidable (member.Bounded ∧ BoundedAll members))

end

instance (type : TypeDef) : Decidable type.Bounded :=
  decidableBounded type

instance (type : TypeDef) : Decidable type.Fits :=
  decidable_of_iff (type.Bounded ∧ type.height ≤ 64) ⟨fun h => ⟨h.1, h.2⟩, fun h => ⟨h.1, h.2⟩⟩

end TypeDef

instance (doc : Bytes) : Decidable (DocFits doc) :=
  inferInstanceAs (Decidable (doc.length ≤ 1024))

instance (name : Bytes) : Decidable (NameFits name) :=
  inferInstanceAs (Decidable (name.length < UInt32.size))

instance {α : Type} {Fits : α → Prop} [DecidablePred Fits] (values : List α) :
    Decidable (ArrayFits Fits values) :=
  decidable_of_iff (values.length < UInt32.size ∧ ∀ value ∈ values, Fits value)
    ⟨fun h => ⟨h.1, h.2⟩, fun h => ⟨h.1, h.2⟩⟩

instance : DecidablePred FieldEntry.Fits := fun field =>
  decidable_of_iff (DocFits field.doc ∧ NameFits field.name ∧ field.type.Fits)
    ⟨fun h => ⟨h.1, h.2.1, h.2.2⟩, fun h => ⟨h.1, h.2, h.3⟩⟩

instance : DecidablePred CaseEntry.Fits
  | .void doc name => inferInstanceAs (Decidable (DocFits doc ∧ NameFits name))
  | .tuple doc name types => inferInstanceAs (Decidable
      (DocFits doc ∧ NameFits name ∧ types.length ≤ 12 ∧ ∀ type ∈ types, type.Fits))

instance : DecidablePred VariantEntry.Fits := fun variant =>
  decidable_of_iff (DocFits variant.doc ∧ NameFits variant.name)
    ⟨fun h => ⟨h.1, h.2⟩, fun h => ⟨h.1, h.2⟩⟩

instance : DecidablePred Header.Fits := fun header =>
  decidable_of_iff (DocFits header.doc ∧ NameFits header.lib ∧ NameFits header.name)
    ⟨fun h => ⟨h.1, h.2.1, h.2.2⟩, fun h => ⟨h.1, h.2, h.3⟩⟩

instance : DecidablePred EventParamEntry.Fits := fun param =>
  decidable_of_iff (DocFits param.doc ∧ NameFits param.name ∧ param.type.Fits)
    ⟨fun h => ⟨h.1, h.2.1, h.2.2⟩, fun h => ⟨h.1, h.2, h.3⟩⟩

instance : DecidablePred Entry.Fits
  | .function doc name inputs output => inferInstanceAs (Decidable
      (DocFits doc ∧ NameFits name ∧ ArrayFits FieldEntry.Fits inputs ∧
        ∀ type ∈ output, type.Fits))
  | .struct header fields => inferInstanceAs (Decidable
      (header.Fits ∧ ArrayFits FieldEntry.Fits fields))
  | .union header cases => inferInstanceAs (Decidable
      (header.Fits ∧ ArrayFits CaseEntry.Fits cases))
  | .enum header variants | .errorEnum header variants => inferInstanceAs (Decidable
      (header.Fits ∧ ArrayFits VariantEntry.Fits variants))
  | .event header prefixTopics params _ => inferInstanceAs (Decidable
      (header.Fits ∧ (prefixTopics.length ≤ 2 ∧ ∀ topic ∈ prefixTopics, NameFits topic) ∧
        ArrayFits EventParamEntry.Fits params))

/-! ### Lengths -/

lemma FieldEntry.four_le_length_encode (field : FieldEntry) : 4 ≤ field.encode.length := by
  have hdoc := four_le_length_ofCounted field.doc
  simp only [encode, List.length_append]
  omega

lemma CaseEntry.four_le_length_encode (entry : CaseEntry) : 4 ≤ entry.encode.length := by
  cases entry <;> simp only [encode, List.length_append, length_ofInt32] <;> omega

lemma VariantEntry.four_le_length_encode (variant : VariantEntry) : 4 ≤ variant.encode.length := by
  simp only [encode, List.length_append, length_ofUInt32]
  omega

lemma EventParamEntry.four_le_length_encode (param : EventParamEntry) :
    4 ≤ param.encode.length := by
  simp only [encode, List.length_append, length_ofInt32]
  omega

lemma Entry.four_le_length_encode (entry : Entry) : 4 ≤ entry.encode.length := by
  simp only [encode, List.length_append, length_ofInt32]
  omega

lemma FieldEntry.four_dvd_length_encode (field : FieldEntry) : 4 ∣ field.encode.length := by
  have hdoc := four_dvd_length_ofCounted field.doc
  have hname := four_dvd_length_ofCounted field.name
  have htype := field.type.four_dvd_length_encode
  simp only [encode, List.length_append]
  omega

lemma CaseEntry.four_dvd_length_encode (entry : CaseEntry) : 4 ∣ entry.encode.length := by
  cases entry with
  | void doc name =>
    have hdoc := four_dvd_length_ofCounted doc
    have hname := four_dvd_length_ofCounted name
    simp only [encode, List.length_append, length_ofInt32]
    omega
  | tuple doc name types =>
    have hdoc := four_dvd_length_ofCounted doc
    have hname := four_dvd_length_ofCounted name
    have htypes := four_dvd_length_ofArray TypeDef.four_dvd_length_encode types
    simp only [encode, List.length_append, length_ofInt32]
    omega

lemma VariantEntry.four_dvd_length_encode (variant : VariantEntry) :
    4 ∣ variant.encode.length := by
  have hdoc := four_dvd_length_ofCounted variant.doc
  have hname := four_dvd_length_ofCounted variant.name
  simp only [encode, List.length_append, length_ofUInt32]
  omega

lemma Header.four_dvd_length_encode (header : Header) : 4 ∣ header.encode.length := by
  have hdoc := four_dvd_length_ofCounted header.doc
  have hlib := four_dvd_length_ofCounted header.lib
  have hname := four_dvd_length_ofCounted header.name
  simp only [encode, List.length_append]
  omega

lemma EventParamEntry.four_dvd_length_encode (param : EventParamEntry) :
    4 ∣ param.encode.length := by
  have hdoc := four_dvd_length_ofCounted param.doc
  have hname := four_dvd_length_ofCounted param.name
  have htype := param.type.four_dvd_length_encode
  simp only [encode, List.length_append, length_ofInt32]
  omega

/-- Entries are cut at multiples of four bytes. -/
lemma Entry.four_dvd_length_encode (entry : Entry) : 4 ∣ entry.encode.length := by
  rw [encode, List.length_append, length_ofInt32]
  cases entry with
  | function doc name inputs output =>
    have hdoc := four_dvd_length_ofCounted doc
    have hname := four_dvd_length_ofCounted name
    have hinputs := four_dvd_length_ofArray FieldEntry.four_dvd_length_encode inputs
    have houtput := four_dvd_length_ofArray TypeDef.four_dvd_length_encode output.toList
    simp only [encodeBody, List.length_append]
    omega
  | struct header fields =>
    have hheader := header.four_dvd_length_encode
    have hfields := four_dvd_length_ofArray FieldEntry.four_dvd_length_encode fields
    simp only [encodeBody, List.length_append]
    omega
  | union header cases =>
    have hheader := header.four_dvd_length_encode
    have hcases := four_dvd_length_ofArray CaseEntry.four_dvd_length_encode cases
    simp only [encodeBody, List.length_append]
    omega
  | enum header variants | errorEnum header variants =>
    have hheader := header.four_dvd_length_encode
    have hvariants := four_dvd_length_ofArray VariantEntry.four_dvd_length_encode variants
    simp only [encodeBody, List.length_append]
    omega
  | event header prefixTopics params dataFormat =>
    have hheader := header.four_dvd_length_encode
    have htopics := four_dvd_length_ofArray four_dvd_length_ofCounted prefixTopics
    have hparams := four_dvd_length_ofArray EventParamEntry.four_dvd_length_encode params
    simp only [encodeBody, List.length_append, length_ofInt32]
    omega

end ContractInterface.Spec
