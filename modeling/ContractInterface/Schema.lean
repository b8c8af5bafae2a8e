/-
# Schemas of an interface

The declared types in the order of their schemas, and the modules with the schemas in both target
languages.  An interface from a document has schemas only if its types have names, and if texts
stand where the characters of a description or of a name are needed.
-/
import ContractInterface.Schema.Pydantic
import ContractInterface.Schema.Zod

namespace ContractInterface

/-- The schemas of an interface. -/
structure Schemas (α : Type := String) where
  order : List (TypeDecl α)
  pydantic : String
  zod : String
deriving Repr

namespace Schemas

variable {α : Type} [Label α]

/-- The schemas of an interface. -/
def ofSpec (spec : Spec α) : Schemas α where
  order := Schema.dependencyOrder spec.types
  pydantic := Schema.pydanticModule spec
  zod := Schema.zodModule spec

/-- The descriptions in the schemas of a declared type. -/
def docsOfType (decl : TypeDecl α) : List (Option α) :=
  decl.doc :: match decl.definition with
    | .struct fields => fields.map (·.doc)
    | .enum _ => []
    | .union cases => cases.map (·.doc)

/-- The descriptions in the schema of the parameters of a function. -/
def docsOfFunction (function : FunctionDecl α) : List (Option α) :=
  function.doc :: function.inputs.map (·.doc)

/-- Whether texts stand in a function where the characters of them are needed, which is so only if
it has parameters. -/
def fitsFunction (function : FunctionDecl α) : Bool :=
  function.inputs.isEmpty ||
    (Label.text? function.name).isSome && (docsOfFunction function).all Label.isText

/-- The schemas of an interface from a document. -/
def ofSpec? (spec : Spec α) : Except Label.Fault (Schemas α) :=
  if spec.types.any fun decl => (Label.key? decl.name).isNone then .error .notName
  else if spec.types.all (fun decl => (docsOfType decl).all Label.isText) &&
      spec.functions.all fitsFunction then .ok (ofSpec spec)
  else .error .notText

end Schemas

end ContractInterface
