/-
# What Pydantic modules are made of

The layouts of the models of an interface.  The main results are

* `pydanticModule_eq_written`: the layouts of the blocks are what the module is made of;
* `mentioned_pydanticTypeParts` and `mem_declared_pydanticTypeParts`: the block of a type mentions
  the declared names that occur in the type outside the errors of results, and declares its schema.
-/
import ContractInterface.Proofs.Schema.Layout
import ContractInterface.Schema.Pydantic

namespace ContractInterface.Schema

open Target

variable {α : Type} [Label α]

/-! ### Layouts -/

/-- The layout of lines, each with its end. -/
def linesParts (lines : List (List Part)) : List Part :=
  separated "\n" lines ++ [.text "\n"]

/-- Lines that neither declare nor mention a schema. -/
def textLines (lines : List String) : List (List Part) :=
  lines.map fun line => [.text line]

/-- The layout of the first line of a model. -/
def classParts (name : String) : List Part :=
  [.text "class ", .declares name, .text "(BaseModel):"]

/-- The layout of the line that declares a field of a given name. -/
def pydanticLineParts (name : String) (type : TypeRef) (doc : Option α) : List Part :=
  let default := if type.isOption then "None" else "..."
  let arguments := default :: lengthArguments type ++ ["description=\"" ++ escapeDoc doc ++ "\""]
  enclosed ("    " ++ name ++ ": ", " = Field(" ++ ", ".intercalate arguments ++ ")")
    (typeParts pydanticWording [] type)

/-- The layout of the line of a field. -/
def pydanticFieldParts (field : FieldDecl α) : List Part :=
  pydanticLineParts (Label.shown field.name) field.type field.doc

/-- The layout of a model with given fields. -/
def pydanticModelParts (name : String) (fields : List (FieldDecl α)) (doc : Option α) : List Part :=
  let body := textLines (docLines doc) ++ fields.map pydanticFieldParts
  linesParts (classParts name :: if body.isEmpty then textLines ["    pass"] else body)

/-- The layout of the model of a case of a union. -/
def pydanticCaseParts (decl : String) (case : Case α) : List Part :=
  let name := "\"" ++ Label.shown case.name ++ "\""
  let tag := "    tag: Literal[" ++ name ++ "] = " ++ name
  linesParts (classParts (caseName decl case) ::
    textLines (docLines case.doc ++ [frozenLine, tag]) ++
      case.payload.toList.map fun payload => pydanticLineParts "values" payload case.doc)

/-- The layout of the models of a declared type. -/
def pydanticTypeParts (decl : TypeDecl α) : List Part :=
  let name := Label.shown decl.name
  let schema := name ++ "Schema"
  match decl.definition with
  | .struct fields => pydanticModelParts schema fields decl.doc
  | .enum variants =>
    let tags := ", ".intercalate (variants.map fun v => "\"" ++ Label.shown v.name ++ "\"")
    linesParts (classParts schema ::
      textLines (docLines decl.doc ++ [frozenLine, "    tag: Literal[" ++ tags ++ "]"]))
  | .union [] => pydanticModelParts schema [] decl.doc
  | .union cases =>
    let union := " = Union[" ++ ", ".intercalate (cases.map (caseName name)) ++ "]\n"
    separated "\n\n" (cases.map (pydanticCaseParts name) ++ [[.declares schema, .text union]])

/-- The layout of the model of the parameters of a function, if it has any. -/
def pydanticParametersParts? (function : FunctionDecl α) : Option (List Part) :=
  if function.inputs.isEmpty then none
  else
    let name := pascalCase (Label.shown function.name)
    some (pydanticModelParts (name ++ "Params") function.inputs function.doc)

/-- The layouts of the models of an interface. -/
def pydanticBlocks (spec : Spec α) : List (List Part) :=
  (dependencyOrder spec.types).map pydanticTypeParts ++
    spec.functions.filterMap pydanticParametersParts?

lemma written_linesParts (lines : List (List Part)) :
    written (linesParts lines) = block (lines.map written) := by
  simp [linesParts, block, Part.written]

lemma written_textLines (lines : List String) : (textLines lines).map written = lines := by
  rw [textLines, List.map_map]
  refine (List.map_congr_left fun line _ => ?_).trans (List.map_id lines)
  simp [Part.written]

lemma written_classParts (name : String) : written (classParts name) = classLine name := by
  simp [classParts, classLine, Part.written, String.append_assoc]

lemma written_pydanticLineParts (name : String) (type : TypeRef) (doc : Option α) :
    written (pydanticLineParts name type doc) = "    " ++ pydanticDeclaration name type doc := by
  simp only [pydanticLineParts, pydanticDeclaration, written_enclosed, written_pydanticParts,
    String.append_assoc]

lemma written_pydanticModelParts (name : String) (fields : List (FieldDecl α)) (doc : Option α) :
    written (pydanticModelParts name fields doc) = pydanticModel name fields doc := by
  have hfields : (fields.map pydanticFieldParts).map written =
      fields.map fun field => "    " ++ pydanticField field := by
    rw [List.map_map]
    exact List.map_congr_left fun field _ => written_pydanticLineParts _ _ _
  have hbody : (textLines (docLines doc) ++ fields.map pydanticFieldParts).map written =
      docLines doc ++ fields.map fun field => "    " ++ pydanticField field := by
    rw [List.map_append, written_textLines, hfields]
  simp only [pydanticModelParts, pydanticModel, written_linesParts, List.map_cons,
    written_classParts, ← hbody, List.isEmpty_map]
  split
  · rw [written_textLines]
  · rfl

lemma written_pydanticCaseParts (decl : String) (case : Case α) :
    written (pydanticCaseParts decl case) = pydanticCase decl case := by
  have hvalues : (case.payload.toList.map fun payload =>
      pydanticLineParts "values" payload case.doc).map written =
      case.payload.toList.map fun payload =>
        "    " ++ pydanticDeclaration "values" payload case.doc := by
    rw [List.map_map]
    exact List.map_congr_left fun payload _ => written_pydanticLineParts _ _ _
  simp only [pydanticCaseParts, pydanticCase, written_linesParts, List.map_append, List.map_cons,
    written_classParts, written_textLines, hvalues, List.cons_append, List.append_assoc,
    List.nil_append]

lemma written_pydanticTypeParts (decl : TypeDecl α) :
    written (pydanticTypeParts decl) = pydanticType decl := by
  rw [pydanticTypeParts, pydanticType]
  match decl.definition with
  | .struct fields => exact written_pydanticModelParts _ fields decl.doc
  | .enum variants =>
    simp only [written_linesParts, List.map_cons, written_classParts, written_textLines,
      List.cons_append]
  | .union [] => exact written_pydanticModelParts _ [] decl.doc
  | .union (case :: cases) =>
    have hcases : ((case :: cases).map (pydanticCaseParts (Label.shown decl.name))).map written =
        (case :: cases).map (pydanticCase (Label.shown decl.name)) := by
      rw [List.map_map]
      exact List.map_congr_left fun case _ => written_pydanticCaseParts _ case
    rw [written_separated, List.map_append, hcases]
    simp only [List.map_cons, List.map_nil, written_cons, written_nil, Part.written,
      String.append_empty, String.append_assoc]

lemma written_pydanticParametersParts? (function : FunctionDecl α) :
    (pydanticParametersParts? function).map written = pydanticParameters? function := by
  rw [pydanticParametersParts?, pydanticParameters?]
  split
  · rfl
  · exact congrArg some (written_pydanticModelParts _ _ _)

/-- **The layouts of the models are what the module is made of.** -/
theorem pydanticModule_eq_written (spec : Spec α) :
    pydanticModule spec =
      "\n\n".intercalate (pydanticHeader :: (pydanticBlocks spec).map written) := by
  have htypes : ((dependencyOrder spec.types).map pydanticTypeParts).map written =
      (dependencyOrder spec.types).map pydanticType := by
    rw [List.map_map]
    exact List.map_congr_left fun decl _ => written_pydanticTypeParts decl
  have hparameters : (spec.functions.filterMap pydanticParametersParts?).map written =
      spec.functions.filterMap pydanticParameters? := by
    rw [List.map_filterMap]
    exact congrArg (fun f => spec.functions.filterMap f) (funext written_pydanticParametersParts?)
  rw [pydanticModule, pydanticBlocks, List.map_append, htypes, hparameters, List.cons_append]

/-! ### What a block mentions and declares -/

lemma mentioned_linesParts (lines : List (List Part)) :
    mentioned (linesParts lines) = lines.flatMap mentioned := by
  simp [linesParts]

lemma mentioned_textLines (lines : List String) : (textLines lines).flatMap mentioned = [] := by
  simp [textLines, List.flatMap_map]

lemma mentioned_classParts (name : String) : mentioned (classParts name) = [] := rfl

lemma mentioned_pydanticLineParts (name : String) (type : TypeRef) (doc : Option α) :
    mentioned (pydanticLineParts name type doc) =
      (shownNames type).map fun name => (name, false) := by
  simp [pydanticLineParts, mentioned_typeParts]

lemma mentioned_pydanticModelParts (name : String) (fields : List (FieldDecl α))
    (doc : Option α) :
    mentioned (pydanticModelParts name fields doc) =
      (fields.flatMap (shownNames ·.type)).map fun name => (name, false) := by
  have hbody : (textLines (docLines doc) ++ fields.map pydanticFieldParts).flatMap mentioned =
      (fields.flatMap (shownNames ·.type)).map fun name => (name, false) := by
    rw [List.flatMap_append, mentioned_textLines, List.flatMap_map, List.map_flatMap]
    exact List.flatMap_congr fun field _ => mentioned_pydanticLineParts _ _ _
  simp only [pydanticModelParts, mentioned_linesParts, List.flatMap_cons, mentioned_classParts,
    List.nil_append]
  split
  · rename_i hnone
    rw [mentioned_textLines, ← hbody, List.isEmpty_iff.1 hnone]
    rfl
  · exact hbody

lemma mentioned_pydanticCaseParts (decl : String) (case : Case α) :
    mentioned (pydanticCaseParts decl case) =
      (case.payload.toList.flatMap shownNames).map fun name => (name, false) := by
  simp only [pydanticCaseParts, mentioned_linesParts, List.flatMap_append, List.flatMap_cons,
    mentioned_classParts, mentioned_textLines, List.nil_append, List.flatMap_map,
    mentioned_pydanticLineParts, List.map_flatMap]

/-- The block of a declared type mentions what its fields or its cases show. -/
lemma mentioned_pydanticTypeParts (decl : TypeDecl α) :
    mentioned (pydanticTypeParts decl) =
      (decl.types.flatMap shownNames).map fun name => (name, false) := by
  rw [pydanticTypeParts, TypeDecl.types]
  match decl.definition with
  | .struct fields => simp [mentioned_pydanticModelParts, List.flatMap_map]
  | .enum variants =>
    simp [mentioned_linesParts, mentioned_classParts, mentioned_textLines]
  | .union [] => simp [mentioned_pydanticModelParts]
  | .union (case :: cases) =>
    rw [flatMap_shownNames_payload]
    simp [mentioned_pydanticCaseParts, List.flatMap_map, List.map_flatMap]

/-- The block of the parameters of a function mentions what these show. -/
lemma mentioned_pydanticParametersParts? {function : FunctionDecl α} {parts : List Part}
    (h : pydanticParametersParts? function = some parts) :
    mentioned parts =
      (function.inputs.flatMap (shownNames ·.type)).map fun name => (name, false) := by
  rw [pydanticParametersParts?] at h
  split at h
  · cases h
  · rw [← Option.some.inj h]
    exact mentioned_pydanticModelParts _ _ _

lemma mem_declared_linesParts {name : String} {line : List Part} {lines : List (List Part)}
    (hline : line ∈ lines) (h : name ∈ declared line) : name ∈ declared (linesParts lines) := by
  rw [linesParts, declared_append, declared_separated]
  exact List.mem_append_left _ (List.mem_flatMap.2 ⟨line, hline, h⟩)

lemma mem_declared_classParts (name : String) : name ∈ declared (classParts name) :=
  List.mem_singleton_self name

/-- The block of a declared type declares the schema of this type. -/
lemma mem_declared_pydanticTypeParts (decl : TypeDecl α) :
    Label.shown decl.name ++ "Schema" ∈ declared (pydanticTypeParts decl) := by
  rw [pydanticTypeParts]
  match decl.definition with
  | .struct fields | .union [] | .enum variants =>
    exact mem_declared_linesParts List.mem_cons_self (mem_declared_classParts _)
  | .union (case :: cases) =>
    rw [declared_separated, List.flatMap_append]
    exact List.mem_append_right _ List.mem_cons_self

end ContractInterface.Schema
