/-
# Pydantic modules

A Python module with a Pydantic model for each declared type, each after those it refers to where
cycles allow, and one for the parameters of each function that has any.  A union has a model for
each of its cases and is an alias for all of them.
-/
import ContractInterface.Schema.Name
import ContractInterface.Schema.Order
import ContractInterface.Target.Pydantic

namespace ContractInterface.Schema

open Target

variable {α : Type} [Label α]

/-- Lines, each with its end. -/
def block (lines : List String) : String :=
  "\n".intercalate lines ++ "\n"

/-- The first lines of a module. -/
def pydanticHeader : String :=
  block ["from __future__ import annotations", "",
    "from typing import Dict, List, Literal, Optional, Tuple, Union", "",
    "from pydantic import BaseModel, ConfigDict, Field"]

/-- The line that describes a model, if there is a description. -/
def docLines (doc : Option α) : List String :=
  if Label.hasDoc doc then ["    \"\"\"" ++ escapeDoc doc ++ "\"\"\""] else []

/-- The line that makes the values of a model constants. -/
def frozenLine : String := "    model_config = ConfigDict(frozen=True)"

/-- The first line of a model. -/
def classLine (name : String) : String :=
  "class " ++ name ++ "(BaseModel):"

/-- A model with given fields. -/
def pydanticModel (name : String) (fields : List (FieldDecl α)) (doc : Option α) : String :=
  let body := docLines doc ++ fields.map fun field => "    " ++ pydanticField field
  block (classLine name :: if body.isEmpty then ["    pass"] else body)

/-- The name of the model of a case. -/
def caseName (decl : String) (case : Case α) : String :=
  decl ++ "_" ++ Label.shown case.name

/-- The model of a case of a union. -/
def pydanticCase (decl : String) (case : Case α) : String :=
  let name := "\"" ++ Label.shown case.name ++ "\""
  let tag := "    tag: Literal[" ++ name ++ "] = " ++ name
  let values := case.payload.toList.map fun payload =>
    "    " ++ pydanticDeclaration "values" payload case.doc
  block (classLine (caseName decl case) :: docLines case.doc ++ frozenLine :: tag :: values)

/-- The models of a declared type. -/
def pydanticType (decl : TypeDecl α) : String :=
  let name := Label.shown decl.name
  let schema := name ++ "Schema"
  match decl.definition with
  | .struct fields => pydanticModel schema fields decl.doc
  | .enum variants =>
    let tags := ", ".intercalate (variants.map fun v => "\"" ++ Label.shown v.name ++ "\"")
    block (classLine schema :: docLines decl.doc ++
      [frozenLine, "    tag: Literal[" ++ tags ++ "]"])
  | .union [] => pydanticModel schema [] decl.doc
  | .union cases =>
    let union := schema ++ " = Union[" ++ ", ".intercalate (cases.map (caseName name)) ++ "]\n"
    "\n\n".intercalate (cases.map (pydanticCase name) ++ [union])

/-- The model of the parameters of a function, if it has any. -/
def pydanticParameters? (function : FunctionDecl α) : Option String :=
  if function.inputs.isEmpty then none
  else
    let name := pascalCase (Label.shown function.name)
    some (pydanticModel (name ++ "Params") function.inputs function.doc)

/-- The module of an interface. -/
def pydanticModule (spec : Spec α) : String :=
  "\n\n".intercalate (pydanticHeader :: (dependencyOrder spec.types).map pydanticType ++
    spec.functions.filterMap pydanticParameters?)

end ContractInterface.Schema
