/-
# Characters of a text

Operations on the characters of a text, first character first.
-/

namespace ContractInterface.Text

/-- Whether `part` occurs in a sequence of characters. -/
def occursIn (part : List Char) : List Char → Bool
  | [] => part.isEmpty
  | c :: rest => part.isPrefixOf (c :: rest) || occursIn part rest

/-- Cuts a sequence of characters at every separator. -/
def splitAt (separator : Char) : List Char → List (List Char)
  | [] => [[]]
  | c :: rest =>
    match splitAt separator rest with
    | [] => [[c]]
    | part :: parts => if c = separator then [] :: part :: parts else (c :: part) :: parts

/-- A sequence of characters without the characters of a class at its ends. -/
def trim (drop : Char → Bool) (chars : List Char) : List Char :=
  ((chars.dropWhile drop).reverse.dropWhile drop).reverse

end ContractInterface.Text
