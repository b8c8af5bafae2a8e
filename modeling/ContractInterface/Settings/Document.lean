/-
# Settings files

A settings file is a flat document: names with values, or a list of values, or a single value.  A
name begins its line, and all names stand in one column; the value is on the same line behind a
colon, or on the lines below, indented further, or missing.  A value is a scalar, quoted or not, or
an empty list or mapping.  Of two values for one name the later counts.  Settings files may take
other forms than this one; `flatReader` reads those that take it.
-/
import ContractInterface.Json.Printer
import ContractInterface.Settings.Plain
import ContractInterface.Settings.Quoted
import ContractInterface.Settings.Scalar
import ContractInterface.Settings.Value
import ContractInterface.Text.Lines

namespace ContractInterface.Settings

/-- What a settings file holds. -/
inductive Document where
  /-- Names with values. -/
  | mapping (members : List (String × Json))
  /-- A list with at least one item. -/
  | list
  /-- A single value. -/
  | value (value : Json)

/-! ## Values -/

/-- A scalar as it is written. -/
inductive Scalar where
  | plain (text : String)
  | quoted (text : String)
deriving DecidableEq, Repr

/-- The value that a scalar stands for.  Only one without quotes is read by its spelling. -/
def Scalar.value : Scalar → Json
  | .plain text => plainScalar text
  | .quoted text => .str text

/-- The name that a scalar stands for.  Where it reads as something else than text, the name is
the usual spelling of that. -/
def Scalar.name (scalar : Scalar) : String :=
  match scalar.value with
  | .str text => text
  | value => value.render .inline

/-- The scalar in front, and what follows. -/
def scalar? (indent : Nat) (chars : List Char) : Option (Scalar × Rest) :=
  if startsPlain chars then
    let (text, rest) := plain indent .nothing chars
    some (.plain (String.ofList text), rest)
  else
    (quoted? chars).map fun (text, rest) => (.quoted (String.ofList text), skip false none rest)

/-- The value in front, and what follows. -/
def value? (indent : Nat) (chars : List Char) : Option (Json × Rest) :=
  match chars with
  | '[' :: rest =>
    match (skip false none rest).chars with
    | ']' :: rest => some (.arr [], skip false none rest)
    | _ => none
  | '\x7b' :: rest =>
    match (skip false none rest).chars with
    | '\x7d' :: rest => some (.obj [], skip false none rest)
    | _ => none
  | chars => (scalar? indent chars).map fun (scalar, rest) => (scalar.value, rest)

/-! ## Names with values -/

/-- The greatest distance of the colon from the front of its name. -/
def maxNameLength : Nat := 1024

/-- The name in front, and what follows its colon, which is on the same line. -/
def name? (chars : List Char) : Option (String × List Char) := do
  let (line, below) := chars.span (!isBreak ·)
  let (scalar, rest) ← scalar? 0 line
  match rest.chars with
  | ':' :: after =>
    if atSeparator after ∧ line.length ≤ maxNameLength + rest.chars.length then
      some (scalar.name, after ++ below)
    else none
  | _ => none

/-- The value of a name that stands in a column, null if there is none, and what follows. -/
def memberValue? (column : Nat) (rest : Rest) : Option (Json × Rest) :=
  if rest.isEmpty || rest.column.any (· ≤ column) then some (.null, rest)
  else value? (column + 1) rest.chars

/-- The names that stand in a column, with their values, after those found before, and what
follows.  The fuel is a bound on the number of lines. -/
def members? (column : Nat) :
    (fuel : Nat) → List (String × Json) → Rest → Option (List (String × Json) × Rest)
  | 0, found, rest => some (found, rest)
  | fuel + 1, found, rest =>
    if rest.isEmpty || rest.column ≠ some column then some (found, rest)
    else do
      let (name, after) ← name? rest.chars
      let (value, rest) ← memberValue? column (skip false none after)
      members? column fuel (Json.insertMember name value found) rest

/-! ## Documents -/

/-- Whether an item of a list is next. -/
def startsItem : List Char → Bool
  | '-' :: rest => atSeparator rest
  | _ => false

/-- What a file holds from its first value on, and what follows.  The items of a list count for
nothing, so that they are not taken apart. -/
def content? (start : Rest) : Option (Document × Rest) :=
  if start.isEmpty then some (.value .null, start)
  else match start.column with
    | none => (value? 0 start.chars).map fun (value, rest) => (.value value, rest)
    | some column =>
      if startsItem start.chars then some (.list, ⟨none, []⟩)
      else if (name? start.chars).isSome then
        (members? column start.chars.length [] start).map fun (members, rest) =>
          (.mapping members, rest)
      else (value? 0 start.chars).map fun (value, rest) => (.value value, rest)

/-- What a settings file holds, unless it is not written in the form described above. -/
def document? (text : String) : Option Document := do
  let chars := charsOf text
  if chars.all isAllowed then
    let (document, rest) ← content? (skip false (some 0) chars).afterBegin
    if rest.isEnd then return document else none
  else none

/-! ## The reader -/

/-- The text of a settings file.  The file is read in portions, and a sequence that its end cuts
off is found only after the last of them; its position is counted from there. -/
def textOf (contents : Bytes) : Except Unread String :=
  match Utf8.decode contents with
  | .ok text => .ok (String.ofList (Text.unifyBreaks text.toList))
  | .error defect =>
    .error (.notText
      (if defect.reason = .unexpectedEnd then { defect with position := 0 } else defect))

/-- The reader of flat documents. -/
def flatReader : Reader := fun contents => do
  match document? (← textOf contents) with
  | none => throw (.malformed "malformed settings")
  | some (.mapping members) =>
    return .mapping (members.map fun (name, value) => (name, .json value))
  | some .list => return .other true
  | some (.value value) => return .other value.isTruthy

end ContractInterface.Settings
