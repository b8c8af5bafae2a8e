/-
# Quoted values in settings

A value in single quotes has each quote in it doubled.  A value in double quotes has escapes with a
backslash.  Both may go over several lines; a backslash before a break takes the break away.
-/
import ContractInterface.Bytes.Hex
import ContractInterface.Settings.Layout

namespace ContractInterface.Settings

/-! ## Single quotes -/

/-- The text of a value in single quotes, behind the first of them, and what follows. -/
def singleQuoted? (gap : Gap) : List Char → Option (List Char × List Char)
  | [] => none
  | '\'' :: '\'' :: rest => do
    let (text, rest) ← singleQuoted? .nothing rest
    return (gap.text ++ '\'' :: text, rest)
  | '\'' :: rest => some (gap.text, rest)
  | c :: rest =>
    if isSpace c then singleQuoted? (gap.addBlank c) rest
    else if isBreak c then singleQuoted? (gap.addBreak c) rest
    else if gap.meetsMark (c :: rest) then none
    else do
      let (text, rest) ← singleQuoted? .nothing rest
      return (gap.text ++ c :: text, rest)

/-! ## Double quotes -/

/-- The character that a one-letter escape stands for. -/
def escape? : Char → Option Char
  | '0' => some '\x00'
  | 'a' => some '\x07'
  | 'b' => some '\x08'
  | 't' => some '\t'
  | '\t' => some '\t'
  | 'n' => some '\n'
  | 'v' => some '\x0B'
  | 'f' => some '\x0C'
  | 'r' => some '\r'
  | 'e' => some '\x1B'
  | ' ' => some ' '
  | '"' => some '"'
  | '/' => some '/'
  | '\\' => some '\\'
  | 'N' => some (Char.ofNat 0x85)
  | '_' => some (Char.ofNat 0xA0)
  | 'L' => some (Char.ofNat 0x2028)
  | 'P' => some (Char.ofNat 0x2029)
  | _ => none

/-- The number of hexadecimal digits behind a letter that begins a numeric escape. -/
def escapeWidth? : Char → Option Nat
  | 'x' => some 2
  | 'u' => some 4
  | 'U' => some 8
  | _ => none

/-- The character whose number has exactly `width` hexadecimal digits, and what follows them. -/
def numbered? : (width : Nat) → (n : Nat) → List Char → Option (Char × List Char)
  | 0, n, rest => if n.isValidChar then some (Char.ofNat n, rest) else none
  | width + 1, n, c :: rest => do numbered? width (n * 16 + (← Hex.value? c)) rest
  | _ + 1, _, [] => none

/-- The character that an escape stands for, behind its backslash, and what follows. -/
def escaped? : List Char → Option (Char × List Char)
  | [] => none
  | c :: rest =>
    match escapeWidth? c with
    | some width => numbered? width 0 rest
    | none => (escape? c).map (·, rest)

/-- The text of a value in double quotes, behind the first of them, and what follows.  The fuel is
a bound on the number of characters. -/
def doubleQuoted? : (fuel : Nat) → Gap → List Char → Option (List Char × List Char)
  | _, gap, '"' :: rest => some (gap.text, rest)
  | fuel + 1, gap, c :: rest =>
    if isSpace c then doubleQuoted? fuel (gap.addBlank c) rest
    else if isBreak c then doubleQuoted? fuel (gap.addBreak c) rest
    else if gap.meetsMark (c :: rest) then none
    else if c = '\\' ∧ rest.head?.any isBreak then do
      let (text, rest) ← doubleQuoted? fuel (.breaks none [] 0) (rest.drop 1)
      return (gap.text ++ text, rest)
    else do
      let (c, rest) ← if c = '\\' then escaped? rest else some (c, rest)
      let (text, rest) ← doubleQuoted? fuel .nothing rest
      return (gap.text ++ c :: text, rest)
  | _, _, _ => none

/-- The text of a value in quotes, and what follows. -/
def quoted? : List Char → Option (List Char × List Char)
  | '\'' :: rest => singleQuoted? .nothing rest
  | '"' :: rest => doubleQuoted? rest.length .nothing rest
  | _ => none

end ContractInterface.Settings
