/-
# Lines

A text is read with one kind of line break: a carriage return, alone or before a line feed,
reads as a line feed.  It is then cut into lines at the line feeds and at the other characters
that end a line.
-/
import ContractInterface.Text.Basic

namespace ContractInterface.Text

/-- Reads each carriage return, with the line feed after it if there is one, as a line feed. -/
def unifyBreaks : List Char → List Char
  | [] => []
  | '\r' :: '\n' :: rest => '\n' :: unifyBreaks rest
  | '\r' :: rest => '\n' :: unifyBreaks rest
  | c :: rest => c :: unifyBreaks rest

/-- Whether a character ends a line. -/
def endsLine (c : Char) : Bool :=
  let n := c.toNat
  (0x0A ≤ n && n ≤ 0x0D) || (0x1C ≤ n && n ≤ 0x1E) || n == 0x85 || n == 0x2028 || n == 0x2029

/-- The lines of a sequence of characters without carriage returns.  What follows the last line
end is a line only if it is not empty. -/
def lines : List Char → List (List Char)
  | [] => []
  | c :: rest =>
    if endsLine c then [] :: lines rest
    else match lines rest with
      | [] => [[c]]
      | line :: more => (c :: line) :: more

end ContractInterface.Text
