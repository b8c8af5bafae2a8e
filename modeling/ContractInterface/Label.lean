/-
# Labels

A label is what an interface has for a name or a description.  In the interface of a module labels
are texts.  A document may hold any other value in their place, which is kept as it is: it is
written as an expression where a text is made of it, and it is refused only where a text is needed.
Numbers of one size are one name, however they are written.
-/
import ContractInterface.Json.Quoted

namespace ContractInterface

/-- What names and descriptions may be made of. -/
class Label (α : Type) where
  /-- The value of a label in a document. -/
  toJson : α → Json
  /-- The label that a value in a document is, if it is one. -/
  ofJson? : Json → Option α

instance : Label String where
  toJson := .str
  ofJson? := Json.text?

instance : Label Json where
  toJson := id
  ofJson? := some

instance {α : Type} [Label α] : Label (Option α) where
  toJson label := label.elim .null Label.toJson
  ofJson?
    | .null => some none
    | value => some <$> Label.ofJson? value

namespace Label

/-- Why an interface in a document cannot be used because of its labels. -/
inductive Fault where
  /-- A list or an object stands where a name is looked up. -/
  | notName
  /-- The names are values that have no order among them. -/
  | notComparable
  /-- A value that is no text stands where the characters of one are needed. -/
  | notText
deriving DecidableEq, Repr

variable {α : Type} [Label α]

/-- A label inside a text. -/
def shown (label : α) : String :=
  (toJson label).display

/-- The text that a label is, if it is one. -/
def text? (label : α) : Option String :=
  (toJson label).text?

/-- Whether a label counts as given: an empty text and the like do not. -/
def isGiven (label : α) : Bool :=
  (toJson label).isTruthy

/-- Whether there is a description. -/
def hasDoc (doc : Option α) : Bool :=
  doc.any isGiven

/-- Whether a description is a text, or there is none. -/
def isText (doc : Option α) : Bool :=
  doc.all fun label => !isGiven label || (text? label).isSome

/-! ## Names -/

/-- What names are told apart by. -/
inductive Key where
  | nothing
  /-- A number as a quotient in lowest terms; truth values are numbers. -/
  | number (num : Int) (den : Nat)
  | text (s : String)
deriving DecidableEq, Repr

/-- A quotient in lowest terms. -/
def Key.ofRatio (negative : Bool) (num den : Nat) : Key :=
  let size : Int := (num / num.gcd den : Nat)
  .number (if negative then -size else size) (den / num.gcd den)

/-- What a value is told apart by as a name; lists and objects are no names. -/
def Key.ofJson? : Json → Option Key
  | .null => some .nothing
  | .bool b => some (.number (if b then 1 else 0) 1)
  | .int n => some (.number n 1)
  | .float x => x.size?.map fun (num, den) => .ofRatio x.isNegative num den
  | .str s => some (.text s)
  | .arr _ | .obj _ => none

/-- Whether a key comes before another or is the same: numbers by their size, texts by their
characters.  Other keys have no order. -/
def Key.le? : Key → Key → Option Bool
  | .number m d, .number n e => some (m * e ≤ n * d)
  | .text s, .text t => some (s ≤ t)
  | _, _ => none

/-- What a label is told apart by as a name. -/
def key? (label : α) : Option Key :=
  Key.ofJson? (toJson label)

/-- Whether a label is a given text. -/
def isNamed (label : α) (name : String) : Bool :=
  text? label = some name

/-- Whether two labels are the same name. -/
def same {β : Type} [Label β] (a : α) (b : β) : Bool :=
  key? a = key? b

/-- Names in ascending order. -/
def ascending (names : List α) : Except Fault (List α) :=
  let le? (a b : α) : Option Bool := do (← key? a).le? (← key? b)
  if names.any fun name => (key? name).isNone then .error .notName
  else if 1 < names.length && names.any fun a => names.any fun b => (le? a b).isNone then
    .error .notComparable
  else .ok (names.mergeSort fun a b => (le? a b).getD true)

/-! ## Texts as labels -/

/-- A text is shown as it is. -/
@[simp] theorem shown_string (s : String) : shown s = s := rfl

/-- A text is a text. -/
@[simp] theorem text?_string (s : String) : text? s = some s := rfl

/-- Texts are told apart by their characters. -/
@[simp] theorem key?_string (s : String) : key? s = some (.text s) := rfl

/-- A text counts as given unless it is empty. -/
@[simp] theorem isGiven_string (s : String) : isGiven s = (s != "") := rfl

/-- A text is named by itself only. -/
@[simp] theorem isNamed_string (s name : String) : isNamed s name = decide (s = name) := by
  simp [isNamed]

/-- Two texts are the same name if they are equal. -/
@[simp] theorem same_string (s t : String) : same s t = decide (s = t) := by
  simp [same]

/-- A description that is a text is no other value. -/
@[simp] theorem isText_string (doc : Option String) : isText doc = true := by
  cases doc <;> simp [isText]

end Label

end ContractInterface
