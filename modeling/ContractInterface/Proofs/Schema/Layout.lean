/-
# What the schemas of types are made of

A module of schemas is text in which names of schemas stand: some where a schema is declared, and
others where a declared type is mentioned as the type of a value.  A layout keeps these apart.
Writing the layout of a type gives its validator or its annotation, so what is proved of layouts
holds of these.  The main results are

* `written_zodParts` and `written_pydanticParts`: what is written is what the layout says;
* `mentioned_typeParts`: a type mentions the declared names that occur in it outside the errors of
  results, each where it occurs, and nothing else.
-/
import Mathlib.Data.List.Basic
import Mathlib.Tactic.Simps.Basic
import ContractInterface.Target.Pydantic
import ContractInterface.Target.Zod

namespace ContractInterface.Schema

open Target

/-! ### Parts -/

/-- A part of a module. -/
inductive Part where
  | text (s : String)
  /-- The name of a schema where the schema is declared. -/
  | declares (name : String)
  /-- The schema of a declared type where it is the type of a value; it may be put off until the
  module is loaded. -/
  | mentions (name : String) (deferred : Bool)
deriving DecidableEq, Repr

/-- The text of a part. -/
def Part.written : Part → String
  | .text s => s
  | .declares name => name
  | .mentions name false => name ++ "Schema"
  | .mentions name true => "z.lazy(() => " ++ name ++ "Schema)"

/-- The text of some parts. -/
def written (parts : List Part) : String :=
  String.join (parts.map Part.written)

/-- The declared type that a part mentions, and whether it is put off. -/
def Part.mention? : Part → Option (String × Bool)
  | .mentions name deferred => some (name, deferred)
  | _ => none

/-- The name of the schema that a part declares. -/
def Part.declared? : Part → Option String
  | .declares name => some name
  | _ => none

/-- The declared types that are mentioned, and whether they are put off. -/
def mentioned (parts : List Part) : List (String × Bool) :=
  parts.filterMap Part.mention?

/-- The names of the declared types that are mentioned. -/
def names (parts : List Part) : List String :=
  (mentioned parts).map (·.1)

/-- The names of the schemas that are declared. -/
def declared (parts : List Part) : List String :=
  parts.filterMap Part.declared?

/-- Parts with a text between them. -/
def separated (separator : String) (parts : List (List Part)) : List Part :=
  [Part.text separator].intercalate parts

section Parts

variable {β : Type} (s : String) (name : String) (deferred : Bool) (parts parts' : List Part)

@[simp] lemma written_nil : written [] = "" := rfl

@[simp] lemma written_cons (part : Part) :
    written (part :: parts) = part.written ++ written parts :=
  String.join_cons

@[simp] lemma written_append : written (parts ++ parts') = written parts ++ written parts' := by
  rw [written, List.map_append, String.join_append]
  rfl

@[simp] lemma written_flatMap (f : β → List Part) (items : List β) :
    written (items.flatMap f) = String.join (items.map fun item => written (f item)) := by
  induction items with
  | nil => rfl
  | cons item items ih =>
    rw [List.flatMap_cons, written_append, ih, List.map_cons, String.join_cons]

@[simp] lemma written_separated (parts : List (List Part)) :
    written (separated s parts) = s.intercalate (parts.map written) := by
  rw [separated]
  induction parts with
  | nil => rfl
  | cons first rest ih =>
    cases rest with
    | nil => simp
    | cons second rest =>
      rw [List.intercalate_cons_cons, List.map_cons, List.map_cons, String.intercalate_cons_cons,
        written_append, written_append, ih]
      simp [Part.written]

/-- What is collected from parts does not depend on the texts between them. -/
lemma filterMap_separated {f : Part → Option β} (hf : ∀ s, f (.text s) = none)
    (parts : List (List Part)) :
    (separated s parts).filterMap f = parts.flatMap fun parts => parts.filterMap f := by
  rw [separated]
  induction parts with
  | nil => rfl
  | cons first rest ih =>
    cases rest with
    | nil => simp
    | cons second rest =>
      rw [List.intercalate_cons_cons, List.filterMap_append, List.filterMap_append, ih,
        List.filterMap_cons_none (hf s)]
      simp

@[simp] lemma mentioned_nil : mentioned [] = [] := rfl

@[simp] lemma mentioned_text : mentioned (.text s :: parts) = mentioned parts := rfl

@[simp] lemma mentioned_declares : mentioned (.declares name :: parts) = mentioned parts := rfl

@[simp] lemma mentioned_mentions :
    mentioned (.mentions name deferred :: parts) = (name, deferred) :: mentioned parts := rfl

@[simp] lemma mentioned_append :
    mentioned (parts ++ parts') = mentioned parts ++ mentioned parts' :=
  List.filterMap_append

@[simp] lemma mentioned_flatMap (f : β → List Part) (items : List β) :
    mentioned (items.flatMap f) = items.flatMap fun item => mentioned (f item) :=
  List.filterMap_flatMap

@[simp] lemma mentioned_separated (parts : List (List Part)) :
    mentioned (separated s parts) = parts.flatMap mentioned :=
  filterMap_separated s (fun _ => rfl) parts

lemma names_eq_of_mentioned {parts : List Part} {shown : List String} {deferred : String → Bool}
    (h : mentioned parts = shown.map fun name => (name, deferred name)) : names parts = shown := by
  rw [names, h, List.map_map]
  exact List.map_id shown

@[simp] lemma declared_nil : declared [] = [] := rfl

@[simp] lemma declared_text : declared (.text s :: parts) = declared parts := rfl

@[simp] lemma declared_declares : declared (.declares name :: parts) = name :: declared parts := rfl

@[simp] lemma declared_mentions :
    declared (.mentions name deferred :: parts) = declared parts := rfl

@[simp] lemma declared_append : declared (parts ++ parts') = declared parts ++ declared parts' :=
  List.filterMap_append

@[simp] lemma declared_flatMap (f : β → List Part) (items : List β) :
    declared (items.flatMap f) = items.flatMap fun item => declared (f item) :=
  List.filterMap_flatMap

@[simp] lemma declared_separated (parts : List (List Part)) :
    declared (separated s parts) = parts.flatMap declared :=
  filterMap_separated s (fun _ => rfl) parts

end Parts

/-! ### Mentions in types -/

mutual

/-- The declared names that occur in a type outside the errors of results, in order. -/
def shownNames : TypeRef → List String
  | .primitive _ => []
  | .option inner => shownNames inner
  | .result ok _ => shownNames ok
  | .vec element => shownNames element
  | .map key value => shownNames key ++ shownNames value
  | .tuple members => shownNamesOf members
  | .bytesN _ => []
  | .custom name => [name]

/-- The names that occur in a list of types. -/
def shownNamesOf : List TypeRef → List String
  | [] => []
  | member :: members => shownNames member ++ shownNamesOf members

end

mutual

/-- A name that is shown occurs in the type. -/
lemma mem_customNames_of_mem_shownNames {name : String} (type : TypeRef)
    (h : name ∈ shownNames type) : name ∈ type.customNames := by
  cases type with
  | primitive p => cases h
  | option inner => exact mem_customNames_of_mem_shownNames inner h
  | result ok err =>
    have hok := mem_customNames_of_mem_shownNames ok h
    rw [TypeRef.customNames] at hok ⊢
    simp only [TypeRef.nodes, List.filterMap_cons, TypeRef.customName?, List.filterMap_append]
    exact List.mem_append_left _ hok
  | vec element => exact mem_customNames_of_mem_shownNames element h
  | map key value =>
    rw [TypeRef.customNames]
    simp only [TypeRef.nodes, List.filterMap_cons, TypeRef.customName?, List.filterMap_append]
    rcases List.mem_append.1 h with hkey | hvalue
    · exact List.mem_append_left _ (mem_customNames_of_mem_shownNames key hkey)
    · exact List.mem_append_right _ (mem_customNames_of_mem_shownNames value hvalue)
  | tuple members => exact mem_customNamesOf_of_mem_shownNamesOf members h
  | bytesN size => cases h
  | custom name' => exact h

lemma mem_customNamesOf_of_mem_shownNamesOf {name : String} (members : List TypeRef)
    (h : name ∈ shownNamesOf members) :
    name ∈ (TypeRef.nodesOf members).filterMap TypeRef.customName? := by
  cases members with
  | nil => cases h
  | cons member members =>
    rw [TypeRef.nodesOf, List.filterMap_append]
    rcases List.mem_append.1 h with hmember | hmembers
    · exact List.mem_append_left _ (mem_customNames_of_mem_shownNames member hmember)
    · exact List.mem_append_right _ (mem_customNamesOf_of_mem_shownNamesOf members hmembers)

end

/-- What cases show is what their payloads show. -/
lemma flatMap_shownNames_payload {α : Type} (cases : List (Case α)) :
    (cases.filterMap (·.payload)).flatMap shownNames =
      cases.flatMap fun case => case.payload.toList.flatMap shownNames := by
  rw [List.filterMap_eq_flatMap_toList, List.flatMap_assoc]

/-- How a language words the types of values. -/
structure Wording where
  primitive : Primitive → String
  bytesN : Int → String
  /-- What stands in front of the inner type of an option, and behind it; and so on. -/
  option : String × String
  vec : String × String
  map : String × String
  tuple : String × String

/-- The wording of validators. -/
@[simps]
def zodWording : Wording where
  primitive := Primitive.toZod
  bytesN size := zodText (size * 2)
  option := ("", ".nullable()")
  vec := ("z.array(", ")")
  map := ("z.map(", ")")
  tuple := ("z.tuple([", "])")

/-- The wording of annotations. -/
@[simps]
def pydanticWording : Wording where
  primitive := Primitive.toPydantic
  bytesN _ := "str"
  option := ("Optional[", "]")
  vec := ("List[", "]")
  map := ("Dict[", "]")
  tuple := ("Tuple[", "]")

/-- Parts between two texts. -/
def enclosed (ends : String × String) (parts : List Part) : List Part :=
  .text ends.1 :: parts ++ [.text ends.2]

mutual

/-- The layout of a type, where some of the declared types are put off. -/
def typeParts (wording : Wording) (pending : List String) : TypeRef → List Part
  | .primitive p => [.text (wording.primitive p)]
  | .option inner => enclosed wording.option (typeParts wording pending inner)
  | .result ok _ => typeParts wording pending ok
  | .vec element => enclosed wording.vec (typeParts wording pending element)
  | .map key value =>
    enclosed wording.map
      (typeParts wording pending key ++ .text ", " :: typeParts wording pending value)
  | .tuple members => enclosed wording.tuple (separated ", " (typePartsOf wording pending members))
  | .bytesN size => [.text (wording.bytesN size)]
  | .custom name => [.mentions name (name ∈ pending)]

/-- The layouts of a list of types. -/
def typePartsOf (wording : Wording) (pending : List String) : List TypeRef → List (List Part)
  | [] => []
  | member :: members => typeParts wording pending member :: typePartsOf wording pending members

end

@[simp] lemma written_enclosed (ends : String × String) (parts : List Part) :
    written (enclosed ends parts) = ends.1 ++ written parts ++ ends.2 := by
  simp [enclosed, Part.written, String.append_assoc]

@[simp] lemma mentioned_enclosed (ends : String × String) (parts : List Part) :
    mentioned (enclosed ends parts) = mentioned parts := by
  simp [enclosed]

@[simp] lemma declared_enclosed (ends : String × String) (parts : List Part) :
    declared (enclosed ends parts) = declared parts := by
  simp [enclosed]

mutual

/-- A type declares nothing. -/
@[simp] lemma declared_typeParts (wording : Wording) (pending : List String) (type : TypeRef) :
    declared (typeParts wording pending type) = [] := by
  cases type with
  | option inner => simp [typeParts, declared_typeParts wording pending inner]
  | result ok err => simp [typeParts, declared_typeParts wording pending ok]
  | vec element => simp [typeParts, declared_typeParts wording pending element]
  | map key value =>
    simp [typeParts, declared_typeParts wording pending key,
      declared_typeParts wording pending value]
  | tuple members => simpa [typeParts] using declared_typePartsOf wording pending members
  | primitive p => simp [typeParts]
  | bytesN size => simp [typeParts]
  | custom name => simp [typeParts]

lemma declared_typePartsOf (wording : Wording) (pending : List String) (members : List TypeRef) :
    ∀ parts ∈ typePartsOf wording pending members, declared parts = [] := by
  cases members with
  | nil => simp [typePartsOf]
  | cons member members =>
    simpa [typePartsOf, declared_typeParts wording pending member] using
      declared_typePartsOf wording pending members

end

mutual

/-- A type mentions the declared names that occur in it outside the errors of results. -/
lemma mentioned_typeParts (wording : Wording) (pending : List String) (type : TypeRef) :
    mentioned (typeParts wording pending type) =
      (shownNames type).map fun name => (name, decide (name ∈ pending)) := by
  cases type with
  | primitive p => simp [typeParts, shownNames]
  | option inner => simp [typeParts, shownNames, mentioned_typeParts wording pending inner]
  | result ok err => simp [typeParts, shownNames, mentioned_typeParts wording pending ok]
  | vec element => simp [typeParts, shownNames, mentioned_typeParts wording pending element]
  | map key value =>
    simp [typeParts, shownNames, mentioned_typeParts wording pending key,
      mentioned_typeParts wording pending value]
  | tuple members => simp [typeParts, shownNames, mentioned_typePartsOf wording pending members]
  | bytesN size => simp [typeParts, shownNames]
  | custom name => simp [typeParts, shownNames]

lemma mentioned_typePartsOf (wording : Wording) (pending : List String) (members : List TypeRef) :
    (typePartsOf wording pending members).flatMap mentioned =
      (shownNamesOf members).map fun name => (name, decide (name ∈ pending)) := by
  cases members with
  | nil => simp [typePartsOf, shownNamesOf]
  | cons member members =>
    simp [typePartsOf, shownNamesOf, mentioned_typeParts wording pending member,
      mentioned_typePartsOf wording pending members]

end

mutual

/-- The layout of a validator is the validator. -/
lemma written_zodParts (pending : List String) (type : TypeRef) :
    written (typeParts zodWording pending type) = toZod pending type := by
  cases type with
  | primitive p => simp [typeParts, toZod, Part.written]
  | option inner => simp [typeParts, toZod, written_zodParts pending inner]
  | result ok err => simp [typeParts, toZod, written_zodParts pending ok]
  | vec element => simp [typeParts, toZod, written_zodParts pending element]
  | map key value =>
    simp [typeParts, toZod, Part.written, written_zodParts pending key,
      written_zodParts pending value, String.append_assoc]
  | tuple members => simp [typeParts, toZod, written_zodPartsOf pending members]
  | bytesN size => simp [typeParts, toZod, Part.written]
  | custom name =>
    by_cases h : name ∈ pending <;> simp [typeParts, toZod, zodReference, Part.written, h]

lemma written_zodPartsOf (pending : List String) (members : List TypeRef) :
    (typePartsOf zodWording pending members).map written = toZods pending members := by
  cases members with
  | nil => simp [typePartsOf, toZods]
  | cons member members =>
    simp [typePartsOf, toZods, written_zodParts pending member,
      written_zodPartsOf pending members]

end

mutual

/-- The layout of an annotation is the annotation. -/
lemma written_pydanticParts (type : TypeRef) :
    written (typeParts pydanticWording [] type) = toPydantic type := by
  rw [toPydantic]
  cases type with
  | primitive p => simp [typeParts, toHint, Part.written]
  | option inner =>
    simp [typeParts, toHint, written_pydanticParts inner, toPydantic]
  | result ok err => simp [typeParts, toHint, written_pydanticParts ok, toPydantic]
  | vec element =>
    simp [typeParts, toHint, written_pydanticParts element, toPydantic]
  | map key value =>
    simp [typeParts, toHint, Part.written, written_pydanticParts key,
      written_pydanticParts value, toPydantic, String.append_assoc]
  | tuple members => simp [typeParts, toHint, written_pydanticPartsOf members]
  | bytesN size => simp [typeParts, toHint, Part.written]
  | custom name => simp [typeParts, toHint, Part.written]

lemma written_pydanticPartsOf (members : List TypeRef) :
    (typePartsOf pydanticWording [] members).map written =
      toHints Primitive.toPydantic (· ++ "Schema") members := by
  cases members with
  | nil => simp [typePartsOf, toHints]
  | cons member members =>
    simp [typePartsOf, toHints, written_pydanticParts member, toPydantic,
      written_pydanticPartsOf members]

end

end ContractInterface.Schema
