/-
# Layout of settings files

A settings file is read character by character.  Three characters break a line.  A comment goes
from a number sign to the end of its line.  Three dashes or three points at the front of a line,
before a separator, mark where a document begins or ends.  A value may go over several lines: a
single break in it reads as a space, and of several breaks the first one goes.
-/
import ContractInterface.Text.Basic

namespace ContractInterface.Settings

/-! ## Characters -/

/-- Whether a character is one of the blanks inside a line. -/
def isSpace (c : Char) : Bool :=
  c = ' ' || c = '\t'

/-- Whether a character breaks a line. -/
def isBreak (c : Char) : Bool :=
  c = '\n' || c = '\u2028' || c = '\u2029'

/-- Whether a character may occur in a settings file: no control character but tab and line feed,
and no noncharacter at the end of the first plane. -/
def isAllowed (c : Char) : Bool :=
  let n := c.toNat
  c = '\t' || c = '\n' || (0x20 ≤ n && n ≤ 0x7E) || (0xA0 ≤ n && n ≤ 0xFFFD) || 0x10000 ≤ n

/-- Reads the next-line character as a line feed. -/
def asLineFeed (c : Char) : Char :=
  if c.toNat = 0x85 then '\n' else c

/-- The characters of a text, without the mark of byte order that may stand in front, and with one
character for a new line. -/
def charsOf (text : String) : List Char :=
  match text.toList with
  | '\uFEFF' :: rest => rest.map asLineFeed
  | chars => chars.map asLineFeed

/-- Whether a separator is next, or the end. -/
def atSeparator (chars : List Char) : Bool :=
  chars.head?.all fun c => isSpace c || isBreak c

/-- Whether the mark of a document is next. -/
def atMark : List Char → Bool
  | '-' :: '-' :: '-' :: rest => atSeparator rest
  | '.' :: '.' :: '.' :: rest => atSeparator rest
  | _ => false

/-! ## What follows -/

/-- What is left of a file behind a value, without the spaces, comments and breaks in front. -/
structure Rest where
  /-- The column, if nothing but spaces stands before it on its line. -/
  column : Option Nat
  /-- The characters that are left. -/
  chars : List Char
deriving DecidableEq, Repr

/-- Passes over spaces, comments and breaks.  A tab is none of them. -/
def skip (comment : Bool) (column : Option Nat) : List Char → Rest
  | [] => ⟨column, []⟩
  | c :: rest =>
    if isBreak c then skip false (some 0) rest
    else if comment || c = '#' then skip true column rest
    else if c = ' ' then skip false (column.map (· + 1)) rest
    else ⟨column, c :: rest⟩

namespace Rest

/-- What is left behind the mark that begins a document, which may be missing. -/
def afterBegin (start : Rest) : Rest :=
  match start with
  | ⟨some 0, '-' :: '-' :: '-' :: rest⟩ => if atSeparator rest then skip false none rest else start
  | _ => start

/-- Whether there is no value here: the file ends, or a mark begins the line. -/
def isEmpty (rest : Rest) : Bool :=
  rest.chars.isEmpty || (rest.column = some 0 && atMark rest.chars)

/-- Whether the document ends here, and no other one follows. -/
def isEnd (rest : Rest) : Bool :=
  match rest with
  | ⟨_, []⟩ => true
  | ⟨some 0, '.' :: '.' :: '.' :: rest⟩ => atSeparator rest && (skip false none rest).chars.isEmpty
  | _ => false

end Rest

/-! ## Values over several lines -/

/-- What stands between two words of a value. -/
inductive Gap where
  /-- Blanks on one line, or nothing. -/
  | blanks (chars : List Char)
  /-- Breaks: the first one, unless a backslash takes it away, the breaks after it, and the column
  that the last line has come to. -/
  | breaks (first : Option Char) (more : List Char) (column : Nat)
deriving DecidableEq, Repr

namespace Gap

/-- No gap at all. -/
def nothing : Gap := .blanks []

/-- A gap with a blank behind it.  Blanks beside a break are dropped. -/
def addBlank (c : Char) : Gap → Gap
  | .blanks chars => .blanks (chars ++ [c])
  | .breaks first more column => .breaks first more (column + 1)

/-- A gap with a break behind it. -/
def addBreak (c : Char) : Gap → Gap
  | .blanks _ => .breaks (some c) [] 0
  | .breaks first more _ => .breaks first (more ++ [c]) 0

/-- The column behind the gap, if it goes to another line. -/
def column : Gap → Option Nat
  | .blanks _ => none
  | .breaks _ _ column => some column

/-- The characters that a gap stands for.  A line feed that is followed by other breaks goes, one
that stands alone is a space, and another break stays. -/
def text : Gap → List Char
  | .blanks chars => chars
  | .breaks (some '\n') [] _ => [' ']
  | .breaks (some '\n') more _ => more
  | .breaks first more _ => first.toList ++ more

/-- Whether the mark of a document comes behind the gap, which no value goes beyond. -/
def meetsMark (gap : Gap) (chars : List Char) : Bool :=
  gap.column = some 0 && atMark chars

end Gap

end ContractInterface.Settings
