/-
# What an interface shows of entries with texts

Entries hold bytes where they are read.  Here their names and descriptions are texts, which a
module writes as UTF-8, and the parts of an interface are told from the texts: an empty description
is none, a case with types carries a tuple, an arbitrary value shows as none, both kinds of address
are one and an error is a status.  The main results are

* `TypeDef.toTypeRef_map`: the type that is shown;
* `Entry.functions_ofEntry`, `Entry.types_ofEntry`, `Entry.errors_ofEntry`: what an entry adds.
-/
import ContractInterface.Proofs.Bytes.Utf8
import ContractInterface.Proofs.Spec.Extraction

namespace ContractInterface.Spec

/-! ### Texts as bytes -/

namespace TypeDef

variable {α β : Type}

mutual

/-- A type with other names. -/
def mapText (f : α → β) : TypeDef α → TypeDef β
  | .simple type => .simple type
  | .option inner => .option (mapText f inner)
  | .result ok err => .result (mapText f ok) (mapText f err)
  | .vec element => .vec (mapText f element)
  | .map key value => .map (mapText f key) (mapText f value)
  | .tuple members => .tuple (mapTexts f members)
  | .bytesN size => .bytesN size
  | .udt name => .udt (f name)

/-- Types with other names. -/
def mapTexts (f : α → β) : List (TypeDef α) → List (TypeDef β)
  | [] => []
  | member :: members => mapText f member :: mapTexts f members

end

end TypeDef

variable {α β : Type}

/-- A field with other texts. -/
def FieldEntry.mapText (f : α → β) (field : FieldEntry α) : FieldEntry β :=
  ⟨f field.doc, f field.name, field.type.mapText f⟩

/-- A case of a union with other texts. -/
def CaseEntry.mapText (f : α → β) : CaseEntry α → CaseEntry β
  | .void doc name => .void (f doc) (f name)
  | .tuple doc name types => .tuple (f doc) (f name) (TypeDef.mapTexts f types)

/-- A value of an enumeration with other texts. -/
def VariantEntry.mapText (f : α → β) (variant : VariantEntry α) : VariantEntry β :=
  ⟨f variant.doc, f variant.name, variant.value⟩

/-- A header with other texts. -/
def Header.mapText (f : α → β) (header : Header α) : Header β :=
  ⟨f header.doc, f header.lib, f header.name⟩

/-- A value of an event with other texts. -/
def EventParamEntry.mapText (f : α → β) (param : EventParamEntry α) : EventParamEntry β :=
  ⟨f param.doc, f param.name, param.type.mapText f, param.location⟩

/-- An entry with other texts. -/
def Entry.mapText (f : α → β) : Entry α → Entry β
  | .function doc name inputs output =>
    .function (f doc) (f name) (inputs.map (·.mapText f)) (output.map (·.mapText f))
  | .struct header fields => .struct (header.mapText f) (fields.map (·.mapText f))
  | .union header cases => .union (header.mapText f) (cases.map (·.mapText f))
  | .enum header variants => .enum (header.mapText f) (variants.map (·.mapText f))
  | .errorEnum header cases => .errorEnum (header.mapText f) (cases.map (·.mapText f))
  | .event header prefixTopics params dataFormat =>
    .event (header.mapText f) (prefixTopics.map f) (params.map (·.mapText f)) dataFormat

/-- The entry that a module holds for an entry with texts. -/
def Entry.utf8 (entry : Entry String) : Entry :=
  entry.mapText Utf8.encode

/-! ### What is shown -/

/-- The primitive type that is shown for a type without parts. -/
def SimpleType.shown : SimpleType → Primitive
  | .val | .void => .void
  | .error => .status
  | .address | .muxedAddress => .address
  | .bool => .bool
  | .u32 => .u32
  | .i32 => .i32
  | .u64 => .u64
  | .i64 => .i64
  | .u128 => .u128
  | .i128 => .i128
  | .u256 => .u256
  | .i256 => .i256
  | .timepoint => .timepoint
  | .duration => .duration
  | .bytes => .bytes
  | .string => .string
  | .symbol => .symbol

namespace TypeDef

mutual

/-- The type that is shown. -/
def shown : TypeDef String → TypeRef
  | .simple type => .primitive type.shown
  | .option inner => .option (shown inner)
  | .result ok err => .result (shown ok) (shown err)
  | .vec element => .vec (shown element)
  | .map key value => .map (shown key) (shown value)
  | .tuple members => .tuple (shownAll members)
  | .bytesN size => .bytesN size.toNat
  | .udt name => .custom name

/-- The types that are shown. -/
def shownAll : List (TypeDef String) → List TypeRef
  | [] => []
  | member :: members => shown member :: shownAll members

end

end TypeDef

/-- The description that is shown: an empty one is none. -/
def docShown (doc : String) : Option String :=
  if doc = "" then none else some doc

/-- The field that is shown. -/
def FieldEntry.shown (field : FieldEntry String) : FieldDecl :=
  ⟨field.name, field.type.shown, docShown field.doc⟩

/-- The case that is shown; one with types carries a tuple of them. -/
def CaseEntry.shown : CaseEntry String → Case
  | .void doc name => ⟨name, none, docShown doc⟩
  | .tuple doc name types => ⟨name, some (.tuple (TypeDef.shownAll types)), docShown doc⟩

/-- The value of an enumeration that is shown. -/
def VariantEntry.shown (variant : VariantEntry String) : Variant :=
  ⟨variant.name, variant.value.toNat, docShown variant.doc⟩

/-- The case of an error enumeration that is shown, with the name of the enumeration. -/
def VariantEntry.shownError (enumName : String) (variant : VariantEntry String) : ErrorCase :=
  ⟨variant.name, variant.value.toNat, docShown variant.doc, some enumName⟩

/-- The declared type that is shown under a header. -/
def Header.shown (header : Header String) (definition : Definition) : TypeDecl :=
  ⟨header.name, definition, docShown header.doc⟩

namespace Entry

/-- The function that an entry declares, unless its name begins with two underscores. -/
def function? : Entry String → Option FunctionDecl
  | .function doc name inputs output =>
    if ['_', '_'] <+: name.toList then none
    else some ⟨name, inputs.map (·.shown), output.map (·.shown), docShown doc⟩
  | _ => none

/-- The type that an entry declares. -/
def typeDecl? : Entry String → Option TypeDecl
  | .struct header fields => some (header.shown (.struct (fields.map (·.shown))))
  | .union header cases => some (header.shown (.union (cases.map (·.shown))))
  | .enum header variants => some (header.shown (.enum (variants.map (·.shown))))
  | _ => none

/-- The cases of errors that an entry declares. -/
def errorCases : Entry String → List ErrorCase
  | .errorEnum header cases => cases.map (·.shownError header.name)
  | _ => []

end Entry

/-! ### What is shown is what the bytes show -/

lemma SimpleType.toPrimitive_eq_shown (type : SimpleType) : type.toPrimitive = type.shown := by
  cases type <;> rfl

namespace TypeDef

mutual

/-- **The type that an interface shows** is told from the texts. -/
theorem toTypeRef_mapText : ∀ type : TypeDef String,
    (type.mapText Utf8.encode).toTypeRef = type.shown
  | .simple type => by rw [mapText, toTypeRef, shown, type.toPrimitive_eq_shown]
  | .option inner => by rw [mapText, toTypeRef, shown, toTypeRef_mapText inner]
  | .result ok err => by
    rw [mapText, toTypeRef, shown, toTypeRef_mapText ok, toTypeRef_mapText err]
  | .vec element => by rw [mapText, toTypeRef, shown, toTypeRef_mapText element]
  | .map key value => by
    rw [mapText, toTypeRef, shown, toTypeRef_mapText key, toTypeRef_mapText value]
  | .tuple members => by rw [mapText, toTypeRef, shown, toTypeRefs_mapTexts members]
  | .bytesN size => by rw [mapText, toTypeRef, shown]
  | .udt name => by rw [mapText, toTypeRef, shown, Utf8.decodeLossy_encode]

lemma toTypeRefs_mapTexts : ∀ members : List (TypeDef String),
    toTypeRefs (mapTexts Utf8.encode members) = shownAll members
  | [] => rfl
  | member :: members => by
    rw [mapTexts, toTypeRefs, shownAll, toTypeRef_mapText member, toTypeRefs_mapTexts members]

end

end TypeDef

lemma docText?_encode (doc : String) : docText? (Utf8.encode doc) = docShown doc := by
  rw [docText?, docShown, Utf8.decodeLossy_encode]
  exact if_congr (by rw [List.isEmpty_iff, Utf8.encode_eq_nil_iff]) rfl rfl

lemma FieldEntry.toField_mapText (field : FieldEntry String) :
    (field.mapText Utf8.encode).toField = field.shown := by
  rw [mapText, toField, shown, Utf8.decodeLossy_encode, docText?_encode,
    TypeDef.toTypeRef_mapText]

lemma CaseEntry.toCase_mapText (entry : CaseEntry String) :
    (entry.mapText Utf8.encode).toCase = entry.shown := by
  cases entry with
  | void doc name => rw [mapText, toCase, shown, Utf8.decodeLossy_encode, docText?_encode]
  | tuple doc name types =>
    rw [mapText, toCase, shown, Utf8.decodeLossy_encode, docText?_encode,
      TypeDef.toTypeRefs_mapTexts]

lemma VariantEntry.toVariant_mapText (variant : VariantEntry String) :
    (variant.mapText Utf8.encode).toVariant = variant.shown := by
  rw [mapText, toVariant, shown, Utf8.decodeLossy_encode, docText?_encode]

lemma VariantEntry.toErrorCase_mapText (enumName : String) (variant : VariantEntry String) :
    (variant.mapText Utf8.encode).toErrorCase enumName = variant.shownError enumName := by
  rw [mapText, toErrorCase, shownError, Utf8.decodeLossy_encode, docText?_encode]

lemma Header.declare_mapText (header : Header String) (definition : Definition) :
    (header.mapText Utf8.encode).declare definition = header.shown definition := by
  rw [mapText, declare, shown, Utf8.decodeLossy_encode, docText?_encode]

/-- Elements that are shown one by one. -/
lemma map_map_eq_of_eq {γ : Type} {f : α → β} {g : β → γ} {h : α → γ} (hfg : ∀ a, g (f a) = h a)
    (values : List α) : (values.map f).map g = values.map h := by
  rw [List.map_map]
  exact List.map_congr_left fun a _ => hfg a

lemma isReserved_iff (name : String) : isReserved name = true ↔ ['_', '_'] <+: name.toList :=
  List.isPrefixOf_iff_prefix

namespace Entry

/-- An entry adds the function that it declares. -/
lemma functions_ofEntry (entry : Entry String) :
    (Collected.ofEntry entry.utf8).functions = entry.function?.toList := by
  cases entry with
  | function doc name inputs output =>
    have hinputs := map_map_eq_of_eq FieldEntry.toField_mapText inputs
    have houtput : (output.map (·.mapText Utf8.encode)).map (·.toTypeRef) =
        output.map (·.shown) := by
      rw [Option.map_map]
      exact Option.map_congr fun type _ => type.toTypeRef_mapText
    rw [utf8, mapText, Collected.ofEntry, Collected.add, Utf8.decodeLossy_encode, function?,
      hinputs, houtput, docText?_encode]
    by_cases hname : ['_', '_'] <+: name.toList
    · rw [if_pos ((isReserved_iff name).2 hname), if_pos hname]
      rfl
    · rw [if_neg (mt (isReserved_iff name).1 hname), if_neg hname]
      rfl
  | _ => rfl

/-- An entry adds the type that it declares. -/
lemma types_ofEntry (entry : Entry String) :
    (Collected.ofEntry entry.utf8).types = entry.typeDecl?.toList := by
  cases entry with
  | function doc name inputs output =>
    rw [utf8, mapText, Collected.ofEntry, Collected.add]
    split_ifs <;> rfl
  | struct header fields =>
    have hfields := map_map_eq_of_eq FieldEntry.toField_mapText fields
    rw [utf8, mapText, Collected.ofEntry, Collected.add, hfields, header.declare_mapText]
    rfl
  | union header cases =>
    have hcases := map_map_eq_of_eq CaseEntry.toCase_mapText cases
    rw [utf8, mapText, Collected.ofEntry, Collected.add, hcases, header.declare_mapText]
    rfl
  | enum header variants =>
    have hvariants := map_map_eq_of_eq VariantEntry.toVariant_mapText variants
    rw [utf8, mapText, Collected.ofEntry, Collected.add, hvariants, header.declare_mapText]
    rfl
  | _ => rfl

/-- An entry adds the cases of errors that it declares. -/
lemma errors_ofEntry (entry : Entry String) :
    (Collected.ofEntry entry.utf8).errors = entry.errorCases := by
  cases entry with
  | function doc name inputs output =>
    rw [utf8, mapText, Collected.ofEntry, Collected.add]
    split_ifs <;> rfl
  | errorEnum header cases =>
    have hcases := map_map_eq_of_eq (VariantEntry.toErrorCase_mapText header.name) cases
    rw [utf8, mapText, Collected.ofEntry, Collected.add, Header.mapText,
      Utf8.decodeLossy_encode, hcases]
    rfl
  | _ => rfl

end Entry

end ContractInterface.Spec
