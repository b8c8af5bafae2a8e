/-
# Zod modules

A TypeScript module with one Zod schema for each declared type, each after those it refers to
where cycles allow, and one for the parameters of each function that has any.  A reference to a
schema that is not defined yet is lazy.
-/
import ContractInterface.Schema.Name
import ContractInterface.Schema.Order
import ContractInterface.Target.Zod

namespace ContractInterface.Schema

open Target

variable {α : Type} [Label α]

/-- The first line of a module. -/
def zodHeader : String := "import \x7b z \x7d from 'zod';\n"

/-- The validator of objects with given fields. -/
def zodObject (pending : List String) (fields : List (FieldDecl α)) : String :=
  if fields.isEmpty then "z.object(\x7b\x7d)"
  else
    "z.object(\x7b\n" ++
      String.join (fields.map fun field => "  " ++ zodField pending field ++ ",\n") ++ "\x7d)"

/-- The validator of a case of a union. -/
def zodCase (pending : List String) (case : Case α) : String :=
  let values := case.payload.elim "" fun payload => ", values: " ++ toZod pending payload
  "z.object(\x7b tag: z.literal('" ++ Label.shown case.name ++ "')" ++ values ++ " \x7d)"

/-- The validator of a definition. -/
def zodDefinition (pending : List String) : Definition α → String
  | .struct fields => zodObject pending fields
  | .enum variants =>
    "z.enum([" ++ ", ".intercalate (variants.map fun v => "'" ++ Label.shown v.name ++ "'") ++ "])"
  | .union [] => "z.never()"
  | .union [case] => zodCase pending case
  | .union cases =>
    "z.union([\n" ++ String.join (cases.map fun case => "  " ++ zodCase pending case ++ ",\n") ++
      "])"

/-- The comment in front of a declaration. -/
def zodComment (doc : Option α) : String :=
  if Label.hasDoc doc then "/** " ++ escapeDoc doc ++ " */\n" else ""

/-- The schema of a declared type. -/
def zodType (pending : List String) (decl : TypeDecl α) : String :=
  zodComment decl.doc ++ "export const " ++ Label.shown decl.name ++ "Schema = " ++
    zodDefinition pending decl.definition ++ ";\n"

/-- The schemas of declared types in order; each is defined once it is written. -/
def zodTypes (pending : List String) : List (TypeDecl α) → List String
  | [] => []
  | decl :: rest =>
    zodType pending decl :: zodTypes (pending.filter (!Label.isNamed decl.name ·)) rest

/-- The schema of the parameters of a function, if it has any. -/
def zodParameters? (function : FunctionDecl α) : Option String :=
  if function.inputs.isEmpty then none
  else some ("export const " ++ pascalCase (Label.shown function.name) ++ "ParamsSchema = " ++
    zodObject [] function.inputs ++ ";\n")

/-- The module of an interface. -/
def zodModule (spec : Spec α) : String :=
  let pending := spec.types.filterMap (Label.text? ·.name)
  "\n".intercalate (zodHeader :: zodTypes pending (dependencyOrder spec.types) ++
    spec.functions.filterMap zodParameters?)

end ContractInterface.Schema
