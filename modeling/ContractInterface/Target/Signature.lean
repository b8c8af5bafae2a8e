/-
# Function signatures

The functions of a contract as a client in one of two target languages sees them: the type and
the validator of each parameter and of what is returned.
-/
import ContractInterface.Target.Pydantic
import ContractInterface.Target.TypeScript
import ContractInterface.Target.Zod

namespace ContractInterface.Target

/-- A language that interfaces are described for. -/
inductive Language where
  | typescript
  | python
deriving DecidableEq, Repr

namespace Language

/-- The name of a language. -/
def name : Language → String
  | .typescript => "typescript"
  | .python => "python"

/-- The language of a given name. -/
def ofName? (name : String) : Option Language :=
  [Language.typescript, .python].find? (·.name = name)

/-- The type of the values of a contract type. -/
def typeText : Language → TypeRef → String
  | .typescript => toTypeScript
  | .python => toPython

/-- The validator of a contract type. -/
def validator : Language → TypeRef → String
  | .typescript => toZod []
  | .python => toPydantic

/-- The type of a function that returns nothing. -/
def noOutput : Language → String
  | .typescript => "void"
  | .python => "None"

/-- The declaration of a field. -/
def declaration {α : Type} [Label α] : Language → FieldDecl α → String
  | .typescript => zodField []
  | .python => pydanticField

end Language

/-- A parameter as a client sees it. -/
structure Parameter (α : Type := String) where
  name : α
  typeText : String
  validator : String
  declaration : String
  isRequired : Bool
  doc : Option α
deriving DecidableEq, Repr

/-- The view of a field in a language. -/
def Parameter.ofField {α : Type} [Label α] (language : Language) (field : FieldDecl α) :
    Parameter α where
  name := field.name
  typeText := language.typeText field.type
  validator := language.validator field.type
  declaration := language.declaration field
  isRequired := field.isRequired
  doc := field.doc

/-- A function as a client sees it. -/
structure Signature (α : Type := String) where
  name : α
  params : List (Parameter α)
  outputType : String
  outputValidator : Option String
  doc : Option α
deriving DecidableEq, Repr

/-- The view of a function in a language. -/
def Signature.ofFunction {α : Type} [Label α] (language : Language) (function : FunctionDecl α) :
    Signature α where
  name := function.name
  params := function.inputs.map (Parameter.ofField language)
  outputType := (function.output.map language.typeText).getD language.noOutput
  outputValidator := function.output.map language.validator
  doc := function.doc

/-- The functions of a contract in a language, in order of declaration. -/
def signatures {α : Type} [Label α] (language : Language) (spec : Spec α) : List (Signature α) :=
  spec.functions.map (Signature.ofFunction language)

/-- The view of a field from a document, in which the description may be no text. -/
def parameter? {α : Type} [Label α] (language : Language) (field : FieldDecl α) :
    Except Label.Fault (Parameter α) :=
  if Label.isText field.doc then .ok (.ofField language field) else .error .notText

/-- The functions of an interface from a document, if the descriptions of all parameters are
texts. -/
def signatures? {α : Type} [Label α] (language : Language) (spec : Spec α) :
    Except Label.Fault (List (Signature α)) :=
  if spec.functions.all fun function => function.inputs.all fun input => Label.isText input.doc then
    .ok (signatures language spec)
  else .error .notText

end ContractInterface.Target
