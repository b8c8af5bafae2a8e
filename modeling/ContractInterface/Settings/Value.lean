/-
# Values of settings

What a settings file holds is read by a reader that is given.  It finds names with values, or
something else, or a reason why there is nothing to be found.  Most values are such as JSON has too.
-/
import ContractInterface.Bytes.Utf8
import ContractInterface.Json.Quoted

namespace ContractInterface

/-- A value in the settings. -/
inductive Setting where
  /-- A value that JSON can hold. -/
  | json (value : Json)
  /-- Bytes. -/
  | bytes (contents : Bytes)
  /-- Any other value, such as a date or a set: how it is shown, and whether it counts as given. -/
  | other (shown : String) (counts : Bool)
deriving Repr

namespace Setting

/-- Whether a value counts as given. -/
def isTruthy : Setting → Bool
  | .json value => value.isTruthy
  | .bytes contents => !contents.isEmpty
  | .other _ counts => counts

/-- A value as JSON; one that JSON cannot hold is the text that it is shown as. -/
def toJson : Setting → Json
  | .json value => value
  | .bytes contents => .str (Text.quotedBytes contents)
  | .other shown _ => .str shown

end Setting

namespace Settings

/-- Why a reader finds nothing in a settings file. -/
inductive Unread where
  /-- The file is not text. -/
  | notText (defect : Utf8.Defect)
  /-- A value has the form of one and is none, such as a day that no month has. -/
  | noValue (reason : String)
  /-- The file is not written in the form it should be. -/
  | malformed (reason : String)
deriving DecidableEq, Repr

/-- The wording of a reason. -/
def Unread.message : Unread → String
  | .notText defect => defect.message
  | .noValue reason | .malformed reason => reason

/-- What a reader finds in a settings file. -/
inductive Found where
  /-- Names with values; a name that is no text is left out. -/
  | mapping (members : List (String × Setting))
  /-- Something else, and whether it counts as given. -/
  | other (counts : Bool)
deriving Repr

/-- A reader of settings files. -/
abbrev Reader := Bytes → Except Unread Found

end Settings

end ContractInterface
