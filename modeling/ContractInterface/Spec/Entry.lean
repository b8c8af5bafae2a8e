/-
# Entries of an interface

A module writes its interface as a sequence of entries of six kinds.  Names and descriptions in
them are bytes unless another kind is given.  An entry adds to what is collected from a module: a
function, a declared type, the cases of an error enumeration or an event.  Functions whose names
begin with two underscores belong to the host and are left out.
-/
import ContractInterface.Bytes.Base64
import ContractInterface.Spec
import ContractInterface.Spec.TypeDef

namespace ContractInterface.Spec

/-- A field of a structure or a parameter of a function, as a module writes it. -/
structure FieldEntry (α : Type := Bytes) where
  doc : α
  name : α
  type : TypeDef α
deriving Repr

/-- A case of a union, as a module writes it. -/
inductive CaseEntry (α : Type := Bytes) where
  | void (doc name : α)
  | tuple (doc name : α) (types : List (TypeDef α))
deriving Repr

/-- A value of an enumeration, as a module writes it. -/
structure VariantEntry (α : Type := Bytes) where
  doc : α
  name : α
  value : UInt32
deriving DecidableEq, Repr

/-- What begins the declaration of a type: its description, the library that it comes from and
its name. -/
structure Header (α : Type := Bytes) where
  doc : α
  lib : α
  name : α
deriving DecidableEq, Repr

/-- A value that an event reports, as a module writes it. -/
structure EventParamEntry (α : Type := Bytes) where
  doc : α
  name : α
  type : TypeDef α
  location : Int32
deriving Repr

/-- An entry, as a module writes it. -/
inductive Entry (α : Type := Bytes) where
  | function (doc name : α) (inputs : List (FieldEntry α)) (output : Option (TypeDef α))
  | struct (header : Header α) (fields : List (FieldEntry α))
  | union (header : Header α) (cases : List (CaseEntry α))
  | enum (header : Header α) (variants : List (VariantEntry α))
  | errorEnum (header : Header α) (cases : List (VariantEntry α))
  | event (header : Header α) (prefixTopics : List α) (params : List (EventParamEntry α))
      (dataFormat : Int32)
deriving Repr

/-- The greatest length of a description in bytes. -/
def docLimit : Int := 1024

/-- The greatest number of topics that stand in front of an event. -/
def topicLimit : Int := 2

/-- Reads a description. -/
def readDoc : Reader Bytes :=
  Xdr.Reader.counted docLimit

/-- Reads a name. -/
def readName : Reader Bytes :=
  Xdr.Reader.counted none

/-- Reads a field. -/
def FieldEntry.read : Reader FieldEntry := do
  let doc ← readDoc
  let name ← readName
  let type ← TypeDef.read
  return { doc, name, type }

/-- Reads a case of a union; its name is read before its kind is looked at. -/
def CaseEntry.read : Reader CaseEntry := do
  let kind ← Xdr.Reader.int32
  let doc ← readDoc
  let name ← readName
  if kind = 0 then return .void doc name
  else if kind = 1 then
    return .tuple doc name (← Xdr.Reader.array tupleLimit TypeDef.read)
  else Xdr.Reader.reject (.unknownCaseKind kind (Utf8.decodeLossy name))

/-- Reads a value of an enumeration. -/
def VariantEntry.read : Reader VariantEntry := do
  let doc ← readDoc
  let name ← readName
  let value ← Xdr.Reader.uint32
  return { doc, name, value }

/-- Reads what begins a declaration. -/
def Header.read : Reader Header := do
  let doc ← readDoc
  let lib ← readName
  let name ← readName
  return { doc, lib, name }

/-- Reads a value of an event. -/
def EventParamEntry.read : Reader EventParamEntry := do
  let doc ← readDoc
  let name ← readName
  let type ← TypeDef.read
  let location ← Xdr.Reader.int32
  return { doc, name, type, location }

namespace Entry

/-- Reads a function. -/
def readFunction : Reader Entry := do
  let doc ← readDoc
  let name ← readName
  let inputs ← Xdr.Reader.array none FieldEntry.read
  let outputs ← Xdr.Reader.array (some 1) TypeDef.read
  return .function doc name inputs outputs.head?

/-- Reads an event. -/
def readEvent : Reader Entry := do
  let header ← Header.read
  let prefixTopics ← Xdr.Reader.array topicLimit readName
  let params ← Xdr.Reader.array none EventParamEntry.read
  let dataFormat ← Xdr.Reader.int32
  return .event header prefixTopics params dataFormat

/-- Reads an entry. -/
def read : Reader Entry := do
  let kind ← Xdr.Reader.int32
  match kind.toInt with
  | 0 => readFunction
  | 1 => return .struct (← Header.read) (← Xdr.Reader.array none FieldEntry.read)
  | 2 => return .union (← Header.read) (← Xdr.Reader.array none CaseEntry.read)
  | 3 => return .enum (← Header.read) (← Xdr.Reader.array none VariantEntry.read)
  | 4 => return .errorEnum (← Header.read) (← Xdr.Reader.array none VariantEntry.read)
  | 5 => readEvent
  | _ => Xdr.Reader.reject (.unknownEntryKind kind)

end Entry

/-- An event of a contract. -/
structure Event where
  name : String
  prefixTopics : List String
  params : List (String × TypeRef)
deriving Repr, Inhabited

/-- What has been collected from the entries of a module. -/
structure Collected where
  functions : List FunctionDecl
  types : List TypeDecl
  errors : List ErrorCase
  events : List Event
  rawEntries : List String
deriving Repr, Inhabited

namespace Collected

/-- Nothing. -/
def empty : Collected := ⟨[], [], [], [], []⟩

end Collected

/-- A description as text, if there is one. -/
def docText? (doc : Bytes) : Option String :=
  if doc.isEmpty then none else some (Utf8.decodeLossy doc)

/-- The field that an interface shows. -/
def FieldEntry.toField (entry : FieldEntry) : FieldDecl where
  name := Utf8.decodeLossy entry.name
  type := entry.type.toTypeRef
  doc := docText? entry.doc

/-- The case that an interface shows; one with types carries a tuple of them. -/
def CaseEntry.toCase : CaseEntry → Case
  | .void doc name => ⟨Utf8.decodeLossy name, none, docText? doc⟩
  | .tuple doc name types =>
    ⟨Utf8.decodeLossy name, some (.tuple (TypeDef.toTypeRefs types)), docText? doc⟩

/-- The value of an enumeration that an interface shows. -/
def VariantEntry.toVariant (entry : VariantEntry) : Variant where
  name := Utf8.decodeLossy entry.name
  value := entry.value.toNat
  doc := docText? entry.doc

/-- The case of an error enumeration that an interface shows. -/
def VariantEntry.toErrorCase (enumName : String) (entry : VariantEntry) : ErrorCase where
  name := Utf8.decodeLossy entry.name
  code := entry.value.toNat
  doc := docText? entry.doc
  enumName := some enumName

/-- The declaration of a type under a header. -/
def Header.declare (header : Header) (definition : Definition) : TypeDecl where
  name := Utf8.decodeLossy header.name
  definition := definition
  doc := docText? header.doc

/-- Whether a function belongs to the host. -/
def isReserved (name : String) : Bool :=
  ['_', '_'].isPrefixOf name.toList

/-- Adds what an entry contributes. -/
def Collected.add (collected : Collected) : Entry → Collected
  | .function doc name inputs output =>
    let name := Utf8.decodeLossy name
    if isReserved name then collected
    else { collected with
      functions := collected.functions ++
        [⟨name, inputs.map (·.toField), output.map (·.toTypeRef), docText? doc⟩] }
  | .struct header fields => { collected with
      types := collected.types ++ [header.declare (.struct (fields.map (·.toField)))] }
  | .union header cases => { collected with
      types := collected.types ++ [header.declare (.union (cases.map (·.toCase)))] }
  | .enum header variants => { collected with
      types := collected.types ++ [header.declare (.enum (variants.map (·.toVariant)))] }
  | .errorEnum header cases => { collected with
      errors := collected.errors ++
        cases.map (VariantEntry.toErrorCase (Utf8.decodeLossy header.name)) }
  | .event header topics params _ => { collected with
      events := collected.events ++
        [⟨Utf8.decodeLossy header.name, topics.map Utf8.decodeLossy,
          params.map fun param => (Utf8.decodeLossy param.name, param.type.toTypeRef)⟩] }

/-- Adds the bytes of an entry. -/
def Collected.addRaw (collected : Collected) (bytes : Bytes) : Collected :=
  { collected with rawEntries := collected.rawEntries ++ [Base64.encode bytes] }

end ContractInterface.Spec
