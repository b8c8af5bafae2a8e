/-
# Descriptions in generated code

A description is put between double quotes: backslashes and double quotes are escaped, and every
line feed, with the carriage return before it if there is one, becomes a blank.
-/
import ContractInterface.Label

namespace ContractInterface.Target

/-- The characters of a description as they stand between double quotes. -/
def escapeChars : List Char → List Char
  | [] => []
  | '\r' :: '\n' :: rest => ' ' :: escapeChars rest
  | '\n' :: rest => ' ' :: escapeChars rest
  | '\\' :: rest => '\\' :: '\\' :: escapeChars rest
  | '"' :: rest => '\\' :: '"' :: escapeChars rest
  | c :: rest => c :: escapeChars rest

/-- A description as it stands between double quotes; one that is missing or no text is empty. -/
def escapeDoc {α : Type} [Label α] (doc : Option α) : String :=
  match doc.bind Label.text? with
  | none => ""
  | some text => String.ofList (escapeChars text.toList)

/-- A description from a document, which may be no text, as it stands between double quotes. -/
def escapeDoc? {α : Type} [Label α] (doc : Option α) : Except Label.Fault String :=
  if Label.isText doc then .ok (escapeDoc doc) else .error .notText

end ContractInterface.Target
