/-
# Names of schemas

The schema of a declared type is named after it, and the parameters of a function after the
function in Pascal case: the parts between underscores are joined, each with a capital in front.
-/
import ContractInterface.Label
import ContractInterface.Text.Uppercase

namespace ContractInterface.Schema

/-- A part of a name with its first character in capitals. -/
def capitalize : List Char → List Char
  | [] => []
  | c :: rest => Text.upperChar c ++ rest

/-- A name in Pascal case. -/
def pascalCase (name : String) : String :=
  String.ofList ((Text.splitAt '_' name.toList).flatMap capitalize)

/-- A name from a document, which may be no text, in Pascal case. -/
def pascalCase? {α : Type} [Label α] (name : α) : Except Label.Fault String :=
  match Label.text? name with
  | some name => .ok (pascalCase name)
  | none => .error .notText

end ContractInterface.Schema
