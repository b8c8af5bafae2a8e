/-
# Interfaces as JSON

The document form of types, declarations and whole interfaces, and how a document is read back.
An empty description is written as none.  Reading looks at the members of an object one after the
other and stops at the first that is not as it should be.  Which values may stand for names and
descriptions depends on the labels that are read.
-/
import ContractInterface.Json.Access
import ContractInterface.Json.Printer
import ContractInterface.Spec

namespace ContractInterface

/-- Why a document does not stand for a type or an interface. -/
inductive DocumentError where
  /-- A value does not hold what is looked for in it. -/
  | mismatch (found : Json.Mismatch)
  /-- No kind of type has the name. -/
  | unknownKind (kind : Json)
  /-- A kind that takes parts stands without them. -/
  | notPrimitive (kind : TypeKind)
  /-- A value is neither the name of a primitive type nor an object of one member. -/
  | notAType (value : Json)
  /-- A primitive type stands with parts. -/
  | takesNoPayload (kind : TypeKind)
  /-- A definition has no member, or several. -/
  | notOneDefinition (count : Nat)
  /-- No kind of definition has the name. -/
  | unknownDefinition (kind : String)
deriving Repr

/-- The wording of an error. -/
def DocumentError.message : DocumentError → String
  | .mismatch found => found.message
  | .unknownKind kind => kind.quoted ++ " is not a valid TypeKind"
  | .notPrimitive kind => s!"{kind.name} is not a primitive type"
  | .notAType value => "Malformed type reference: " ++ value.quoted
  | .takesNoPayload kind => s!"{kind.name} does not take a payload"
  | .notOneDefinition 0 => "not enough values to unpack (expected 1, got 0)"
  | .notOneDefinition _ => "too many values to unpack (expected 1)"
  | .unknownDefinition kind => s!"Unknown type definition {kind}"

/-- What reading a document gives. -/
abbrev Reading (α : Type) := Except DocumentError α

/-- The result of taking a value apart. -/
def Reading.ofAccess {α : Type} (result : Except Json.Mismatch α) : Reading α :=
  result.mapError .mismatch

/-- The value of a member that has to be there. -/
def Reading.member (value : Json) (name : String) : Reading Json :=
  ofAccess (value.member name)

/-- The value of a member that may be missing or null. -/
def Reading.memberIfGiven (value : Json) (name : String) : Reading (Option Json) := do
  match ← ofAccess (value.optionalMember name) with
  | none | some .null => return none
  | some found => return some found

/-- The label that a value is. -/
def Reading.label {α : Type} [Label α] (value : Json) : Reading α :=
  ofAccess (Label.ofJson? value |>.elim (.error .wrongShape) .ok)

/-- The label of a member that has to be there. -/
def Reading.labelOf {α : Type} [Label α] (value : Json) (name : String) : Reading α := do
  label (← member value name)

/-- The label of a member that may be missing or null. -/
def Reading.labelIfGiven {α : Type} [Label α] (value : Json) (name : String) :
    Reading (Option α) := do
  (← memberIfGiven value name).mapM label

/-- The integer of a member that has to be there. -/
def Reading.integer (value : Json) (name : String) : Reading Int := do
  ofAccess (← member value name).integer

/-- The parts of a member that has to be there. -/
def Reading.parts (value : Json) (name : String) : Reading (List Json) := do
  ofAccess (← member value name).parts

/-- The parts of a member; a missing one has none. -/
def Reading.partsIfGiven (value : Json) (name : String) : Reading (List Json) := do
  match ← ofAccess (value.optionalMember name) with
  | none => return []
  | some found => ofAccess found.parts

namespace TypeKind

/-- The kind that a document names. -/
def ofJson (value : Json) : Reading TypeKind :=
  match value.text?.bind ofName? with
  | some kind => .ok kind
  | none => .error (.unknownKind value)

end TypeKind

namespace TypeRef

mutual

/-- The document form of a type. -/
def toJson : TypeRef → Json
  | .primitive p => .str p.name
  | .option inner => .obj [("Option", toJson inner)]
  | .result ok err => .obj [("Result", .obj [("ok", toJson ok), ("err", toJson err)])]
  | .vec element => .obj [("Vec", toJson element)]
  | .map key value => .obj [("Map", .obj [("key", toJson key), ("value", toJson value)])]
  | .tuple members => .obj [("Tuple", .arr (jsonOf members))]
  | .bytesN size => .obj [("BytesN", .int size)]
  | .custom name => .obj [("Custom", .str name)]

/-- The document forms of a list of types. -/
def jsonOf : List TypeRef → List Json
  | [] => []
  | member :: members => toJson member :: jsonOf members

end

/-- The primitive type of a name. -/
def ofName (name : String) : Reading TypeRef := do
  match ← TypeKind.ofJson (.str name) with
  | .primitive p => return .primitive p
  | kind => throw (.notPrimitive kind)

mutual

/-- The type that a document stands for. -/
def ofJson : Json → Reading TypeRef
  | .str name => ofName name
  | .obj [(tag, body)] => do
    match ← TypeKind.ofJson (.str tag) with
    | .option => return .option (← ofJson body)
    | .vec => return .vec (← ofJson body)
    | .result =>
      let (ok, err) ← ofPair "ok" "err" body
      return .result ok err
    | .map =>
      let (key, value) ← ofPair "key" "value" body
      return .map key value
    | .tuple => return .tuple (← ofParts body)
    | .bytesN => return .bytesN (← Reading.ofAccess body.integer)
    | .custom => return .custom body.display
    | .primitive p => throw (.takesNoPayload (.primitive p))
  | value => .error (.notAType value)

/-- The two types under two names in an object; the first is read before the second is looked
for. -/
def ofPair (first second : String) : Json → Reading (TypeRef × TypeRef)
  | .obj members => do
    let a ← ofMember first members
    let b ← ofMember second members
    return (a, b)
  | _ => .error (.mismatch .wrongShape)

/-- The type under a name in the members of an object. -/
def ofMember (name : String) : List (String × Json) → Reading TypeRef
  | [] => .error (.mismatch (.missing name))
  | (key, value) :: rest => if name = key then ofJson value else ofMember name rest

/-- The types that the parts of a value stand for. -/
def ofParts : Json → Reading (List TypeRef)
  | .arr items => ofItems items
  | .str text => text.toList.mapM fun c => ofName c.toString
  | .obj members => members.mapM fun (name, _) => ofName name
  | _ => .error (.mismatch .wrongShape)

/-- The types that a list of documents stands for. -/
def ofItems : List Json → Reading (List TypeRef)
  | [] => .ok []
  | item :: items => do
    let type ← ofJson item
    let types ← ofItems items
    return type :: types

end

end TypeRef

section Labels

variable {α : Type} [Label α]

/-- The document form of a label that may be missing. -/
def labelToJson (label : Option α) : Json :=
  label.elim .null Label.toJson

/-- The document form of a description. -/
def docToJson (doc : Option α) : Json :=
  labelToJson (doc.filter Label.isGiven)

/-- The document form of a type that may be missing. -/
def typeToJson (type : Option TypeRef) : Json :=
  type.elim .null (·.toJson)

namespace FieldDecl

/-- The document form of a field. -/
def toJson (field : FieldDecl α) : Json :=
  .obj [("name", Label.toJson field.name), ("doc", docToJson field.doc),
    ("type_ref", field.type.toJson)]

/-- The field that a document stands for. -/
def ofJson (value : Json) : Reading (FieldDecl α) := do
  let name ← Reading.labelOf value "name"
  let type ← TypeRef.ofJson (← Reading.member value "type_ref")
  let doc ← Reading.labelIfGiven value "doc"
  return { name, type, doc }

end FieldDecl

namespace FunctionDecl

/-- The document form of a function. -/
def toJson (function : FunctionDecl α) : Json :=
  .obj [("name", Label.toJson function.name), ("doc", docToJson function.doc),
    ("inputs", .arr (function.inputs.map (·.toJson))), ("output", typeToJson function.output)]

/-- The function that a document stands for. -/
def ofJson (value : Json) : Reading (FunctionDecl α) := do
  let output ← Reading.memberIfGiven value "output"
  let name ← Reading.labelOf value "name"
  let inputs ← (← Reading.partsIfGiven value "inputs").mapM FieldDecl.ofJson
  let output ← output.mapM TypeRef.ofJson
  let doc ← Reading.labelIfGiven value "doc"
  return { name, inputs, output, doc }

end FunctionDecl

namespace Variant

/-- The document form of a value of an enumeration. -/
def toJson (variant : Variant α) : Json :=
  .obj [("name", Label.toJson variant.name), ("doc", docToJson variant.doc),
    ("value", .int variant.value)]

/-- The value of an enumeration that a document stands for. -/
def ofJson (value : Json) : Reading (Variant α) := do
  let name ← Reading.labelOf value "name"
  let number ← Reading.integer value "value"
  let doc ← Reading.labelIfGiven value "doc"
  return { name, value := number, doc }

end Variant

namespace Case

/-- The document form of a case of a union. -/
def toJson (case : Case α) : Json :=
  .obj [("name", Label.toJson case.name), ("doc", docToJson case.doc),
    ("type_ref", typeToJson case.payload)]

/-- The case of a union that a document stands for. -/
def ofJson (value : Json) : Reading (Case α) := do
  let name ← Reading.labelOf value "name"
  let payload ← (← Reading.memberIfGiven value "type_ref").mapM TypeRef.ofJson
  let doc ← Reading.labelIfGiven value "doc"
  return { name, payload, doc }

end Case

namespace Definition

/-- The document form of a definition. -/
def toJson : Definition α → Json
  | .struct fields => .obj [("Struct", .obj [("fields", .arr (fields.map (·.toJson)))])]
  | .enum variants => .obj [("Enum", .obj [("variants", .arr (variants.map (·.toJson)))])]
  | .union cases => .obj [("Union", .obj [("cases", .arr (cases.map (·.toJson)))])]

/-- The definition that a document stands for. -/
def ofJson (value : Json) : Reading (Definition α) := do
  match ← Reading.ofAccess value.members with
  | [("Struct", body)] =>
    return .struct (← (← Reading.parts body "fields").mapM FieldDecl.ofJson)
  | [("Enum", body)] => return .enum (← (← Reading.parts body "variants").mapM Variant.ofJson)
  | [("Union", body)] => return .union (← (← Reading.parts body "cases").mapM Case.ofJson)
  | [(kind, _)] => throw (.unknownDefinition kind)
  | members => throw (.notOneDefinition members.length)

end Definition

namespace TypeDecl

/-- The document form of a declared type. -/
def toJson (decl : TypeDecl α) : Json :=
  .obj [("name", Label.toJson decl.name), ("doc", docToJson decl.doc),
    ("definition", decl.definition.toJson)]

/-- The declared type that a document stands for. -/
def ofJson (value : Json) : Reading (TypeDecl α) := do
  let definition ← Definition.ofJson (← Reading.member value "definition")
  let name ← Reading.labelOf value "name"
  let doc ← Reading.labelIfGiven value "doc"
  return { name, definition, doc }

end TypeDecl

namespace ErrorCase

/-- The document form of a case of an error enumeration. -/
def toJson (case : ErrorCase α) : Json :=
  .obj [("name", Label.toJson case.name), ("doc", docToJson case.doc), ("code", .int case.code),
    ("enum", labelToJson case.enumName)]

/-- The case of an error enumeration that a document stands for. -/
def ofJson (value : Json) : Reading (ErrorCase α) := do
  let name ← Reading.labelOf value "name"
  let code ← Reading.integer value "code"
  let doc ← Reading.labelIfGiven value "doc"
  let enumName ← Reading.labelIfGiven value "enum"
  return { name, code, doc, enumName }

end ErrorCase

namespace Spec

/-- The document form of an interface. -/
def toJson (spec : Spec α) : Json :=
  .obj [("name", labelToJson spec.name), ("functions", .arr (spec.functions.map (·.toJson))),
    ("types", .arr (spec.types.map (·.toJson))), ("errors", .arr (spec.errors.map (·.toJson))),
    ("raw_spec_entries", .arr (spec.rawEntries.map Label.toJson))]

/-- The text of the document form of an interface, with each part on a line of its own. -/
def toText (spec : Spec α) (indent : Nat) : String :=
  spec.toJson.render (.lines indent)

/-- The number of blanks for each level, where nothing else is asked for. -/
def defaultIndent : Nat := 2

/-- The interface that a document stands for. -/
def ofJson (value : Json) : Reading (Spec α) := do
  let name ← Reading.labelIfGiven value "name"
  let functions ← (← Reading.partsIfGiven value "functions").mapM FunctionDecl.ofJson
  let types ← (← Reading.partsIfGiven value "types").mapM TypeDecl.ofJson
  let errors ← (← Reading.partsIfGiven value "errors").mapM ErrorCase.ofJson
  let rawEntries ← (← Reading.partsIfGiven value "raw_spec_entries").mapM Reading.label
  return { name, functions, types, errors, rawEntries }

end Spec

end Labels

end ContractInterface
