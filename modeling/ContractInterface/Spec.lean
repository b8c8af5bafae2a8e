/-
# The interface of a contract

What a contract offers and declares: its functions, its structures, enumerations and unions, and
the cases of its error enumerations, each in the order of declaration.  Names and descriptions are
labels; they are texts unless another kind of label is given.
-/
import ContractInterface.Label
import ContractInterface.TypeRef

namespace ContractInterface

/-- A field of a structure or a parameter of a function. -/
structure FieldDecl (α : Type := String) where
  name : α
  type : TypeRef
  doc : Option α
deriving Repr, Inhabited

/-- Whether a value has to be given for a field. -/
def FieldDecl.isRequired {α : Type} (field : FieldDecl α) : Bool :=
  !field.type.isOption

/-- A function of a contract. -/
structure FunctionDecl (α : Type := String) where
  name : α
  inputs : List (FieldDecl α)
  output : Option TypeRef
  doc : Option α
deriving Repr, Inhabited

/-- A value of an enumeration. -/
structure Variant (α : Type := String) where
  name : α
  value : Int
  doc : Option α
deriving DecidableEq, Repr, Inhabited

/-- A case of a union, with what it carries. -/
structure Case (α : Type := String) where
  name : α
  payload : Option TypeRef
  doc : Option α
deriving Repr, Inhabited

/-- What a declared type is. -/
inductive Definition (α : Type := String) where
  | struct (fields : List (FieldDecl α))
  | enum (variants : List (Variant α))
  | union (cases : List (Case α))
deriving Repr, Inhabited

/-- A type that a contract declares. -/
structure TypeDecl (α : Type := String) where
  name : α
  definition : Definition α
  doc : Option α
deriving Repr, Inhabited

/-- The types that a declaration mentions: those of its fields, or of what its cases carry. -/
def TypeDecl.types {α : Type} (decl : TypeDecl α) : List TypeRef :=
  match decl.definition with
  | .struct fields => fields.map (·.type)
  | .enum _ => []
  | .union cases => cases.filterMap (·.payload)

/-- A case of an error enumeration. -/
structure ErrorCase (α : Type := String) where
  name : α
  code : Int
  doc : Option α
  enumName : Option α
deriving DecidableEq, Repr, Inhabited

/-- The interface of a contract. -/
structure Spec (α : Type := String) where
  name : Option α
  functions : List (FunctionDecl α)
  types : List (TypeDecl α)
  errors : List (ErrorCase α)
  /-- The entries that the interface was read from, as base64. -/
  rawEntries : List α
deriving Repr, Inhabited

namespace Spec

variable {α : Type} [Label α]

/-- The first function of a name. -/
def function? {β : Type} [Label β] (spec : Spec α) (name : β) : Option (FunctionDecl α) :=
  spec.functions.find? fun function => Label.same function.name name

/-- The first declared type of a name. -/
def type? {β : Type} [Label β] (spec : Spec α) (name : β) : Option (TypeDecl α) :=
  spec.types.find? fun decl => Label.same decl.name name

/-- The names that a contract declares: those of its types and of its error enumerations. -/
def declaredNames (spec : Spec α) : List α :=
  (spec.types.map (·.name) ++
    (spec.errors.filterMap (·.enumName)).filter Label.isGiven).eraseDupsBy Label.same

/-- Where an interface mentions a type. -/
inductive Place (α : Type := String) where
  /-- A parameter of a function. -/
  | input (function parameter : α)
  /-- What a function returns. -/
  | output (function : α)
  /-- The declaration of a type. -/
  | declaration (name : α)
deriving DecidableEq, Repr

/-- A place in a document: a text for a place in a function, and else the name of the type. -/
def Place.toJson : Place α → Json
  | .input function parameter => .str (Label.shown function ++ "." ++ Label.shown parameter)
  | .output function => .str (Label.shown function ++ " -> output")
  | .declaration name => Label.toJson name

/-- The types that a function mentions, each with the place where it does. -/
def functionUses (function : FunctionDecl α) : List (Place α × TypeRef) :=
  function.inputs.map (fun input => (.input function.name input.name, input.type)) ++
    function.output.toList.map fun output => (.output function.name, output)

/-- The types that an interface mentions, each with the place where it does. -/
def uses (spec : Spec α) : List (Place α × TypeRef) :=
  spec.functions.flatMap functionUses ++
    spec.types.flatMap fun decl => decl.types.map fun type => (.declaration decl.name, type)

/-- A name that is mentioned but not declared, and the place where it is. -/
structure Dangling (α : Type := String) where
  name : String
  place : Place α
deriving DecidableEq, Repr

/-- The wording for a dangling name. -/
def Dangling.message (d : Dangling α) : String :=
  s!"Type '{d.name}' referenced by '{d.place.toJson.display}' is not declared in the contract spec"

/-- The first name in an interface that is mentioned but not declared. -/
def dangling? (spec : Spec α) : Option (Dangling α) :=
  let declared := spec.declaredNames
  spec.uses.findSome? fun (place, type) =>
    (type.customNames.find? fun name => !declared.any (Label.isNamed · name)).map fun name =>
      ⟨name, place⟩

end Spec

end ContractInterface
