/-
# Values without quotes in settings

A value without quotes ends before a comment, at a colon that is followed by a separator, at a tab,
and where a line is not indented as far as it has to be.  What begins with a character that has a
meaning of its own is no such value.
-/
import ContractInterface.Settings.Layout

namespace ContractInterface.Settings

/-- The characters that no value without quotes begins with. -/
def indicators : List Char :=
  ['\t', ',', '[', ']', '\x7b', '\x7d', '#', '&', '*', '!', '|', '>', '\'', '"', '%', '@', '\x60']

/-- Whether a value without quotes may begin here. -/
def startsPlain : List Char → Bool
  | [] => false
  | c :: rest => if c ∈ ['-', '?', ':'] then !atSeparator rest else c ∉ indicators

/-- Whether a value without quotes ends in front of a character. -/
def endsPlain (indent : Nat) (gap : Gap) (c : Char) (rest : List Char) : Bool :=
  c = '\t' || (c = ':' && atSeparator rest) || (c = '#' && gap ≠ .nothing) ||
    gap.column.any (· < indent) || gap.meetsMark (c :: rest)

/-- The text of a value without quotes, and what follows.  Its further lines are indented at least
as far as `indent` says. -/
def plain (indent : Nat) (gap : Gap) : List Char → List Char × Rest
  | [] => ([], ⟨gap.column, []⟩)
  | c :: rest =>
    if c = ' ' then plain indent (gap.addBlank c) rest
    else if isBreak c then plain indent (gap.addBreak c) rest
    else if endsPlain indent gap c rest then ([], skip false gap.column (c :: rest))
    else
      let (text, after) := plain indent .nothing rest
      (gap.text ++ c :: text, after)

end ContractInterface.Settings
