/-
# Statements of Pydantic modules

A module of models is a list of declarations, each a model with the statements in its body or a
union of models.  A statement may give a name a type, which is an expression, and a value.  The main
results are

* `pydanticModule_eq_text`: the module is the text of its declarations;
* `mem_emptyWords_declarations`: the brackets behind `Literal` are empty for enumerations without
  values, those behind `Tuple` for tuples without members, and no others are;
* `annotations_wellFormed_iff`: which annotations are well-formed.
-/
import ContractInterface.Proofs.Schema.Closed
import ContractInterface.Proofs.Spec.Placed
import ContractInterface.Proofs.Target.Expression

namespace ContractInterface.Schema

open Target

/-! ### Declarations and their texts -/

/-- A statement in the body of a model. -/
inductive Statement where
  /-- A text that describes the model. -/
  | description (text : String)
  /-- A statement without effect, in a body without others. -/
  | skip
  /-- A name is given a type or a value. -/
  | assign (target : String) (type : Option Expression) (value : Option String)

/-- The line of a statement. -/
def Statement.line : Statement → String
  | .description text => "    \"\"\"" ++ text ++ "\"\"\""
  | .skip => "    pass"
  | .assign target type value =>
    "    " ++ target ++ (type.elim "" fun type => ": " ++ type.text) ++
      value.elim "" (" = " ++ ·)

/-- The name that a statement gives a type or a value. -/
def Statement.target? : Statement → Option String
  | .assign target _ _ => some target
  | _ => none

/-- The type that a statement gives a name. -/
def Statement.type? : Statement → Option Expression
  | .assign _ type _ => type
  | _ => none

/-- A declaration of a module. -/
inductive Declaration where
  | model (name : String) (body : List Statement)
  /-- A name for the union of some models. -/
  | union (name : String) (type : Expression)

namespace Declaration

/-- The name that is declared. -/
def name : Declaration → String
  | .model name _ | .union name _ => name

/-- The text of a declaration. -/
def text : Declaration → String
  | .model name body => block (classLine name :: body.map Statement.line)
  | .union name type => name ++ " = " ++ type.text ++ "\n"

/-- The names that the statements of a declaration give types or values. -/
def targets : Declaration → List String
  | .model _ body => body.filterMap Statement.target?
  | .union .. => []

/-- The type expressions in a declaration. -/
def expressions : Declaration → List Expression
  | .model _ body => body.filterMap Statement.type?
  | .union _ type => [type]

/-- The names in a declaration with nothing between the brackets behind them. -/
def emptyWords (declaration : Declaration) : List String :=
  declaration.expressions.flatMap Expression.emptyWords

end Declaration

/-! ### The declarations of an interface -/

section Declarations

variable {α : Type} [Label α]

/-- The statement of a description, if there is one. -/
def docStatements (doc : Option α) : List Statement :=
  if Label.hasDoc doc then [.description (escapeDoc doc)] else []

/-- The statement that makes the values of a model constants. -/
def frozenStatement : Statement := .assign "model_config" none (some "ConfigDict(frozen=True)")

/-- The type of some texts. -/
def literalType (texts : List String) : Expression :=
  .subscript "Literal" (texts.map fun text => .name ("\"" ++ text ++ "\""))

/-- The statement that limits the tag of a model to some texts, and may give it one. -/
def tagStatement (texts : List String) (value : Option String) : Statement :=
  .assign "tag" (some (literalType texts)) value

/-- What a field is given as its value. -/
def fieldValue (type : TypeRef) (doc : Option α) : String :=
  let default := if type.isOption then "None" else "..."
  let arguments := default :: lengthArguments type ++ ["description=\"" ++ escapeDoc doc ++ "\""]
  "Field(" ++ ", ".intercalate arguments ++ ")"

/-- The statement that declares a field of a given name. -/
def fieldStatement (name : String) (type : TypeRef) (doc : Option α) : Statement :=
  .assign name (some (Rendering.pydantic.hintTree type)) (some (fieldValue type doc))

/-- The statements of a model with given fields. -/
def fieldsBody (fields : List (FieldDecl α)) (doc : Option α) : List Statement :=
  let body := docStatements doc ++
    fields.map fun field => fieldStatement (Label.shown field.name) field.type field.doc
  if body.isEmpty then [.skip] else body

/-- A model with given fields. -/
def fieldsModel (name : String) (fields : List (FieldDecl α)) (doc : Option α) : Declaration :=
  .model name (fieldsBody fields doc)

/-- The model of a case of a union. -/
def caseModel (decl : String) (case : Case α) : Declaration :=
  let name := Label.shown case.name
  let tag := tagStatement [name] (some ("\"" ++ name ++ "\""))
  let values := case.payload.toList.map fun payload => fieldStatement "values" payload case.doc
  .model (caseName decl case) (docStatements case.doc ++ frozenStatement :: tag :: values)

/-- The declarations of a declared type. -/
def declarationsOfType (decl : TypeDecl α) : List Declaration :=
  let name := Label.shown decl.name
  let schema := name ++ "Schema"
  match decl.definition with
  | .struct fields => [fieldsModel schema fields decl.doc]
  | .enum variants =>
    let tag := tagStatement (variants.map (Label.shown ·.name)) none
    [.model schema (docStatements decl.doc ++ [frozenStatement, tag])]
  | .union [] => [fieldsModel schema [] decl.doc]
  | .union cases =>
    let models := (cases.map (caseName name)).map .name
    cases.map (caseModel name) ++ [.union schema (.subscript "Union" models)]

/-- The declaration of the parameters of a function, if it has any. -/
def parametersModel? (function : FunctionDecl α) : Option Declaration :=
  if function.inputs.isEmpty then none
  else
    let name := pascalCase (Label.shown function.name)
    some (fieldsModel (name ++ "Params") function.inputs function.doc)

/-- The declarations of an interface. -/
def declarations (spec : Spec α) : List Declaration :=
  (dependencyOrder spec.types).flatMap declarationsOfType ++
    spec.functions.filterMap parametersModel?

/-! ### The module is the text of its declarations -/

/-- Texts put together group by group are put together at once. -/
lemma intercalate_intercalate {separator : String} {groups : List (List String)}
    (h : ∀ group ∈ groups, group ≠ []) :
    separator.intercalate (groups.map separator.intercalate) =
      separator.intercalate groups.flatten := by
  induction groups with
  | nil => rfl
  | cons group rest ih =>
    rw [List.forall_mem_cons] at h
    cases rest with
    | nil => simp
    | cons next rest =>
      have hnext : (next :: rest).flatten ≠ [] := by
        rw [List.flatten_cons]
        exact List.append_ne_nil_of_left_ne_nil (h.2 next List.mem_cons_self) _
      rw [List.map_cons, List.map_cons, String.intercalate_cons_cons, ← List.map_cons, ih h.2,
        List.flatten_cons (L := next :: rest), String.intercalate_append_of_ne_nil h.1 hnext]

lemma map_line_docStatements (doc : Option α) :
    (docStatements doc).map Statement.line = docLines doc := by
  rw [docStatements, docLines]
  split <;> rfl

lemma line_frozenStatement : frozenStatement.line = frozenLine := by decide

lemma line_fieldStatement (name : String) (type : TypeRef) (doc : Option α) :
    (fieldStatement name type doc).line = "    " ++ pydanticDeclaration name type doc := by
  have hassign : " = Field(" = " = " ++ "Field(" := rfl
  have htype : (Rendering.pydantic.hintTree type).text = toPydantic type :=
    Rendering.text_hintTree (.inr rfl) type
  rw [pydanticDeclaration, hassign]
  simp only [fieldStatement, fieldValue, Statement.line, Option.elim_some, htype,
    String.append_assoc]

lemma text_literalType (texts : List String) :
    (literalType texts).text =
      "Literal[" ++ ", ".intercalate (texts.map fun text => "\"" ++ text ++ "\"") ++ "]" := by
  have hbracket : "Literal" ++ "[" = "Literal[" := rfl
  rw [literalType, Expression.text_subscript, List.map_map, hbracket]
  simp only [Function.comp_def, Expression.text_name]

lemma line_tagStatement (texts : List String) (value : Option String) :
    (tagStatement texts value).line =
      "    tag: Literal[" ++ ", ".intercalate (texts.map fun text => "\"" ++ text ++ "\"") ++ "]" ++
        value.elim "" (" = " ++ ·) := by
  have hstart : "    tag: Literal[" = "    " ++ "tag" ++ (": " ++ "Literal[") := rfl
  rw [hstart]
  simp only [tagStatement, Statement.line, Option.elim_some, text_literalType,
    String.append_assoc]

lemma text_fieldsModel (name : String) (fields : List (FieldDecl α)) (doc : Option α) :
    (fieldsModel name fields doc).text = pydanticModel name fields doc := by
  have hbody : (docStatements doc ++ fields.map fun field =>
      fieldStatement (Label.shown field.name) field.type field.doc).map Statement.line =
      docLines doc ++ fields.map fun field => "    " ++ pydanticField field := by
    rw [List.map_append, map_line_docStatements, List.map_map]
    exact congrArg _ (List.map_congr_left fun field _ => line_fieldStatement _ _ _)
  rw [fieldsModel, fieldsBody, pydanticModel, Declaration.text, ← hbody, List.isEmpty_map]
  split <;> rfl

lemma text_caseModel (decl : String) (case : Case α) :
    (caseModel decl case).text = pydanticCase decl case := by
  have hvalues : (case.payload.toList.map fun payload =>
      fieldStatement "values" payload case.doc).map Statement.line =
      case.payload.toList.map fun payload =>
        "    " ++ pydanticDeclaration "values" payload case.doc := by
    rw [List.map_map]
    exact List.map_congr_left fun payload _ => line_fieldStatement _ _ _
  have htag : "]" ++ " = " = "] = " := rfl
  rw [caseModel, pydanticCase, Declaration.text, List.map_append, List.map_cons, List.map_cons,
    map_line_docStatements, line_frozenStatement, line_tagStatement, hvalues, ← htag]
  simp only [List.map_singleton, String.intercalate_singleton, Option.elim_some, List.cons_append,
    String.append_assoc]

lemma text_union (name : String) (models : List String) :
    (Declaration.union name (.subscript "Union" (models.map .name))).text =
      name ++ " = Union[" ++ ", ".intercalate models ++ "]\n" := by
  have hstart : " = Union[" = " = " ++ ("Union" ++ "[") := rfl
  have hend : "]\n" = "]" ++ "\n" := rfl
  have hmodels : (models.map Expression.name).map Expression.text = models := by
    rw [List.map_map]
    exact (List.map_congr_left fun name _ => Expression.text_name name).trans (List.map_id models)
  rw [Declaration.text, Expression.text_subscript, hmodels, hstart, hend]
  simp only [String.append_assoc]

/-- The declarations of a type, one after the other, are its models. -/
lemma text_declarationsOfType (decl : TypeDecl α) :
    "\n\n".intercalate ((declarationsOfType decl).map Declaration.text) = pydanticType decl := by
  rw [declarationsOfType, pydanticType]
  cases decl.definition with
  | struct fields => exact String.intercalate_singleton.trans (text_fieldsModel _ fields decl.doc)
  | enum variants =>
    simp only [String.intercalate_singleton, Declaration.text, List.map_append, List.map_cons,
      map_line_docStatements, line_frozenStatement, line_tagStatement,
      List.map_map, Function.comp_def, Option.elim_none, String.append_empty, List.map_nil,
      List.cons_append]
  | union cases =>
    cases cases with
    | nil => exact String.intercalate_singleton.trans (text_fieldsModel _ [] decl.doc)
    | cons case cases =>
      have hmodels : ((case :: cases).map (caseModel (Label.shown decl.name))).map
          Declaration.text = (case :: cases).map (pydanticCase (Label.shown decl.name)) := by
        rw [List.map_map]
        exact List.map_congr_left fun case _ => text_caseModel _ case
      have hunion := text_union (Label.shown decl.name ++ "Schema")
        ((case :: cases).map (caseName (Label.shown decl.name)))
      simp only [List.map_append, hmodels, List.map_singleton, hunion]

lemma text_parametersModel? (function : FunctionDecl α) :
    (parametersModel? function).map Declaration.text = pydanticParameters? function := by
  rw [parametersModel?, pydanticParameters?]
  split
  · rfl
  · exact congrArg some (text_fieldsModel _ _ _)

lemma declarationsOfType_ne_nil (decl : TypeDecl α) : declarationsOfType decl ≠ [] := by
  rw [declarationsOfType]
  cases decl.definition with
  | struct fields => simp
  | enum variants => simp
  | union cases => cases cases <;> simp

/-- **A module is the text of its declarations.** -/
theorem pydanticModule_eq_text (spec : Spec α) :
    pydanticModule spec =
      "\n\n".intercalate (pydanticHeader :: (declarations spec).map Declaration.text) := by
  -- the declarations of a type are one block of the module, so the texts are taken block by block
  let blocks : List (List String) := [pydanticHeader] ::
    (dependencyOrder spec.types).map (fun decl => (declarationsOfType decl).map Declaration.text) ++
      (spec.functions.filterMap parametersModel?).map fun model => [model.text]
  have hne : ∀ texts ∈ blocks, texts ≠ [] := by
    simp only [blocks, List.cons_append, List.forall_mem_cons, List.forall_mem_append,
      List.forall_mem_map, ne_eq, List.map_eq_nil_iff, List.cons_ne_nil, not_false_eq_true,
      true_and, implies_true, and_true]
    exact fun decl _ => declarationsOfType_ne_nil decl
  have hblocks : blocks.map (String.intercalate "\n\n") =
      pydanticHeader :: (dependencyOrder spec.types).map pydanticType ++
        spec.functions.filterMap pydanticParameters? := by
    have hparameters : spec.functions.filterMap pydanticParameters? =
        (spec.functions.filterMap parametersModel?).map Declaration.text := by
      rw [List.map_filterMap]
      exact congrArg (fun f => spec.functions.filterMap f)
        (funext fun function => (text_parametersModel? function).symm)
    simp only [blocks, List.cons_append, List.map_cons, List.map_append, List.map_map,
      Function.comp_def, String.intercalate_singleton, text_declarationsOfType, hparameters]
  have hflatten : blocks.flatten = pydanticHeader :: (declarations spec).map Declaration.text := by
    simp only [blocks, List.cons_append, List.flatten_cons, List.nil_append, List.flatten_append,
      ← List.flatMap_def, ← List.map_eq_flatMap, declarations, List.map_append, List.map_flatMap]
  rw [pydanticModule, ← hblocks, intercalate_intercalate hne, hflatten]

/-! ### What is collected from statements -/

section Collected

variable {β : Type} {f : Statement → Option β}

lemma filterMap_docStatements (hdescription : ∀ text, f (.description text) = none)
    (doc : Option α) : (docStatements doc).filterMap f = [] := by
  rw [docStatements]
  split
  · exact List.filterMap_cons_none (hdescription _)
  · rfl

/-- What is collected from the statements of a model comes from its fields, where a description and
an empty body give nothing. -/
lemma filterMap_fieldsBody (hskip : f .skip = none)
    (hdescription : ∀ text, f (.description text) = none) (fields : List (FieldDecl α))
    (doc : Option α) :
    (fieldsBody fields doc).filterMap f =
      fields.filterMap fun field =>
        f (fieldStatement (Label.shown field.name) field.type field.doc) := by
  have hbody : (docStatements doc ++ fields.map fun field =>
      fieldStatement (Label.shown field.name) field.type field.doc).filterMap f =
      fields.filterMap fun field =>
        f (fieldStatement (Label.shown field.name) field.type field.doc) := by
    rw [List.filterMap_append, filterMap_docStatements hdescription, List.filterMap_map]
    rfl
  rw [fieldsBody, ← hbody]
  split
  · rename_i hempty
    rw [List.isEmpty_iff.mp hempty]
    exact List.filterMap_cons_none hskip
  · rfl

end Collected

/-! ### Empty brackets -/

lemma expressions_fieldsModel (name : String) (fields : List (FieldDecl α)) (doc : Option α) :
    (fieldsModel name fields doc).expressions =
      fields.map fun field => Rendering.pydantic.hintTree field.type := by
  rw [fieldsModel, Declaration.expressions, filterMap_fieldsBody rfl fun _ => rfl]
  exact congrFun List.filterMap_eq_map fields

lemma expressions_caseModel (decl : String) (case : Case α) :
    (caseModel decl case).expressions =
      literalType [Label.shown case.name] ::
        case.payload.toList.map Rendering.pydantic.hintTree := by
  rw [caseModel, Declaration.expressions, List.filterMap_append,
    filterMap_docStatements fun _ => rfl]
  cases case.payload <;> rfl

lemma mem_emptyWords_literalType {word : String} {texts : List String} :
    word ∈ (literalType texts).emptyWords ↔ word = "Literal" ∧ texts = [] := by
  rw [literalType, Expression.emptyWords_subscript, List.isEmpty_map, List.flatMap_map]
  split <;> simp_all

lemma mem_emptyWords_hints {types : List TypeRef} {word : String} :
    word ∈ (types.map Rendering.pydantic.hintTree).flatMap Expression.emptyWords ↔
      word = "Tuple" ∧ ∃ type ∈ types, (outline type).hasEmptyTuple := by
  simp only [List.flatMap_map, List.mem_flatMap, Rendering.mem_emptyWords_hintTree]
  constructor
  · rintro ⟨type, htype, hword, htuple⟩
    exact ⟨hword, type, htype, htuple⟩
  · rintro ⟨hword, type, htype, htuple⟩
    exact ⟨type, htype, hword, htuple⟩

lemma mem_emptyWords_fieldsModel {name word : String} {fields : List (FieldDecl α)}
    {doc : Option α} :
    word ∈ (fieldsModel name fields doc).emptyWords ↔
      word = "Tuple" ∧ ∃ type ∈ fields.map (·.type), (outline type).hasEmptyTuple := by
  have hfields : (fields.map fun field => Rendering.pydantic.hintTree field.type) =
      (fields.map (·.type)).map Rendering.pydantic.hintTree := by
    rw [List.map_map]
    rfl
  rw [Declaration.emptyWords, expressions_fieldsModel, hfields, mem_emptyWords_hints]

lemma mem_emptyWords_caseModel {decl word : String} {case : Case α} :
    word ∈ (caseModel decl case).emptyWords ↔
      word = "Tuple" ∧ ∃ type ∈ case.payload, (outline type).hasEmptyTuple := by
  have htag : (literalType [Label.shown case.name]).emptyWords = [] := by
    rw [List.eq_nil_iff_forall_not_mem]
    simp [mem_emptyWords_literalType]
  rw [Declaration.emptyWords, expressions_caseModel, List.flatMap_cons, htag, List.nil_append,
    mem_emptyWords_hints]
  simp only [Option.mem_toList, Option.mem_def]

lemma emptyWords_union (name first : String) (rest : List String) :
    (Declaration.union name (.subscript "Union" ((first :: rest).map .name))).emptyWords = [] := by
  simp [Declaration.emptyWords, Declaration.expressions]

/-- In the models of a type brackets are empty for an enumeration without values, and for tuples
without members. -/
lemma mem_emptyWords_declarationsOfType {decl : TypeDecl α} {word : String} :
    word ∈ (declarationsOfType decl).flatMap Declaration.emptyWords ↔
      (word = "Literal" ∧ decl.definition = .enum []) ∨
        (word = "Tuple" ∧ ∃ type ∈ decl.types, (outline type).hasEmptyTuple) := by
  rw [declarationsOfType, TypeDecl.types]
  cases decl.definition with
  | struct fields =>
    simp only [List.flatMap_singleton, mem_emptyWords_fieldsModel, reduceCtorEq, and_false,
      false_or]
  | enum variants =>
    have hbody : (docStatements decl.doc ++ [frozenStatement,
        tagStatement (variants.map (Label.shown ·.name)) none]).filterMap Statement.type? =
        [literalType (variants.map (Label.shown ·.name))] := by
      rw [List.filterMap_append, filterMap_docStatements fun _ => rfl]
      rfl
    simp only [List.flatMap_singleton, Declaration.emptyWords, Declaration.expressions, hbody,
      mem_emptyWords_literalType, List.map_eq_nil_iff, Definition.enum.injEq, List.not_mem_nil,
      false_and, exists_false, and_false, or_false]
  | union cases =>
    cases cases with
    | nil =>
      simp only [List.flatMap_singleton, mem_emptyWords_fieldsModel, reduceCtorEq, and_false,
        false_or, List.map_nil, List.filterMap_nil]
    | cons case cases =>
      have hunion := emptyWords_union (Label.shown decl.name ++ "Schema")
        (caseName (Label.shown decl.name) case) (cases.map (caseName (Label.shown decl.name)))
      rw [← List.map_cons] at hunion
      simp only [List.flatMap_append, List.flatMap_singleton, hunion, List.append_nil,
        List.flatMap_map, List.mem_flatMap, mem_emptyWords_caseModel, List.mem_filterMap,
        reduceCtorEq, and_false, false_or]
      constructor
      · rintro ⟨case, hcase, hword, type, htype, htuple⟩
        exact ⟨hword, type, ⟨case, hcase, htype⟩, htuple⟩
      · rintro ⟨hword, type, ⟨case, hcase, htype⟩, htuple⟩
        exact ⟨case, hcase, hword, type, htype, htuple⟩

lemma mem_emptyWords_parameters {functions : List (FunctionDecl α)} {word : String} :
    word ∈ (functions.filterMap parametersModel?).flatMap Declaration.emptyWords ↔
      word = "Tuple" ∧ ∃ type ∈ functions.flatMap fun function => function.inputs.map (·.type),
        (outline type).hasEmptyTuple := by
  -- a function without parameters has no model, and a model without fields no annotations
  have hfunction (function : FunctionDecl α) :
      (parametersModel? function).toList.flatMap Declaration.emptyWords =
        (fieldsModel "" function.inputs function.doc).emptyWords := by
    rw [parametersModel?, Declaration.emptyWords, expressions_fieldsModel]
    split
    · rename_i hempty
      rw [List.isEmpty_iff.mp hempty]
      rfl
    · simp [Declaration.emptyWords, expressions_fieldsModel]
  rw [List.filterMap_eq_flatMap_toList, List.flatMap_assoc,
    List.flatMap_congr fun function _ => hfunction function]
  simp only [List.mem_flatMap, mem_emptyWords_fieldsModel]
  constructor
  · rintro ⟨function, hfunction, hword, type, htype, htuple⟩
    exact ⟨hword, type, ⟨function, hfunction, htype⟩, htuple⟩
  · rintro ⟨hword, type, ⟨function, hfunction, htype⟩, htuple⟩
    exact ⟨function, hfunction, hword, type, htype, htuple⟩

/-- In a module brackets are empty for enumerations without values, and for the tuples without
members in the types that it shows. -/
lemma mem_emptyWords_declarations {spec : Spec α} {word : String} :
    word ∈ (declarations spec).flatMap Declaration.emptyWords ↔
      (word = "Literal" ∧ ∃ decl ∈ dependencyOrder spec.types, decl.definition = .enum []) ∨
        (word = "Tuple" ∧ ∃ type ∈ shownTypes spec, (outline type).hasEmptyTuple) := by
  have htypes : word ∈ ((dependencyOrder spec.types).flatMap declarationsOfType).flatMap
      Declaration.emptyWords ↔
      (word = "Literal" ∧ ∃ decl ∈ dependencyOrder spec.types, decl.definition = .enum []) ∨
        (word = "Tuple" ∧ ∃ type ∈ (dependencyOrder spec.types).flatMap (·.types),
          (outline type).hasEmptyTuple) := by
    rw [List.flatMap_assoc]
    constructor
    · intro h
      obtain ⟨decl, hdecl, hword⟩ := List.mem_flatMap.mp h
      rcases mem_emptyWords_declarationsOfType.mp hword with ⟨hword, henum⟩ | ⟨hword, type, htype⟩
      · exact .inl ⟨hword, decl, hdecl, henum⟩
      · exact .inr ⟨hword, type, List.mem_flatMap.mpr ⟨decl, hdecl, htype.1⟩, htype.2⟩
    · rintro (⟨hword, decl, hdecl, henum⟩ | ⟨hword, type, htype, htuple⟩)
      · exact List.mem_flatMap.mpr
          ⟨decl, hdecl, mem_emptyWords_declarationsOfType.mpr (.inl ⟨hword, henum⟩)⟩
      · obtain ⟨decl, hdecl, htype⟩ := List.mem_flatMap.mp htype
        exact List.mem_flatMap.mpr
          ⟨decl, hdecl, mem_emptyWords_declarationsOfType.mpr (.inr ⟨hword, type, htype, htuple⟩)⟩
  rw [declarations, List.flatMap_append, List.mem_append, htypes, mem_emptyWords_parameters,
    shownTypes, or_assoc, ← and_or_left]
  simp only [List.mem_append, or_and_right, exists_or]

end Declarations

/-- **Annotations are well-formed but for enumerations without values and tuples without members.**
The hint of a type, and its annotation, is the text of the expression that its outline gives, and
of no other well-formed one; this expression is well-formed exactly if no tuple without members
occurs in the type outside the errors of results.  A Pydantic module is the text of declarations in
which the only brackets without anything between them are those of `Literal` for an enumeration
without values, and of `Tuple` in the annotation of a type in which there is such a tuple. -/
theorem annotations_wellFormed_iff {type : TypeRef}
    (h : ∀ name ∈ type.customNames, IsIdentifier name) (spec : Spec) :
    (∀ e : Expression, e.WellFormed ∧ e.text = toPython type ↔
      e = Rendering.python.hintTree type ∧ ¬(outline type).hasEmptyTuple) ∧
    (∀ e : Expression, e.WellFormed ∧ e.text = toPydantic type ↔
      e = Rendering.pydantic.hintTree type ∧ ¬(outline type).hasEmptyTuple) ∧
    pydanticModule spec =
      "\n\n".intercalate (pydanticHeader :: (declarations spec).map Declaration.text) ∧
    ∀ word, word ∈ (declarations spec).flatMap Declaration.emptyWords ↔
      (word = "Literal" ∧ ∃ decl ∈ dependencyOrder spec.types, decl.definition = .enum []) ∨
        (word = "Tuple" ∧ ∃ type ∈ shownTypes spec, (outline type).hasEmptyTuple) :=
  ⟨Rendering.wellFormed_text_iff (.inl rfl) h, Rendering.wellFormed_text_iff (.inr rfl) h,
    pydanticModule_eq_text spec, fun _ => mem_emptyWords_declarations⟩

/-- An interface with a union, and an enumeration without values. -/
def signalSpec : Spec where
  name := none
  functions := []
  types := [⟨"Signal", .union [⟨"On", some (.tuple [.primitive .u32]), none⟩, ⟨"Off", none, none⟩],
    none⟩, ⟨"Phase", .enum [], none⟩]
  errors := []
  rawEntries := []

/-- A type with a declared type in it, and an error that is not shown. -/
def signalsType : TypeRef :=
  .result (.map (.primitive .u64) (.vec (.custom "Signal"))) (.tuple [])

theorem annotations_wellFormed_iff_signals :
    (∀ name ∈ signalsType.customNames, IsIdentifier name) ∧
    (∃ e : Expression, e.WellFormed ∧ e.text = "Dict[int, List[Signal]]" ∧
      toPython signalsType = "Dict[int, List[Signal]]") ∧
    (declarations signalSpec).flatMap Declaration.emptyWords ⊆ ["Literal"] := by
  have h : ∀ name ∈ signalsType.customNames, IsIdentifier name := by decide
  obtain ⟨hpython, -, -, hempty⟩ := annotations_wellFormed_iff h signalSpec
  have htext : toPython signalsType = "Dict[int, List[Signal]]" := by decide
  obtain ⟨hwell, hsame⟩ := (hpython _).2 ⟨rfl, by decide⟩
  refine ⟨h, ⟨_, hwell, hsame.trans htext, htext⟩, fun word hword => ?_⟩
  rcases (hempty word).1 hword with ⟨rfl, -⟩ | ⟨-, type, htype, htuple⟩
  · exact List.mem_singleton_self _
  · have hnone : ∀ type ∈ shownTypes signalSpec, ¬(outline type).hasEmptyTuple := by decide
    exact absurd htuple (hnone type htype)

/-- An interface with an enumeration without values. -/
def phaseSpec : Spec where
  name := none
  functions := []
  types := [⟨"Phase", .enum [], none⟩]
  errors := []
  rawEntries := []

/-- **The exceptions occur.**  A tuple without members is read from a module, and its hint is the
text of no well-formed expression; and there is nothing between the brackets behind `Literal` in
the model of an enumeration without values. -/
theorem annotations_empty :
    Spec.TypeDef.readRefAt 0 (Xdr.Cursor.place [0, 0, 3, 237, 0, 0, 0, 0] 0) =
      .ok (.tuple []) (Xdr.Cursor.place [0, 0, 3, 237, 0, 0, 0, 0] 8) ∧
    toPython (.tuple []) = "Tuple[]" ∧ toPydantic (.tuple []) = "Tuple[]" ∧
    (∀ e : Expression, e.WellFormed → e.text ≠ "Tuple[]") ∧
    pydanticModule phaseSpec = pydanticHeader ++ "\n\nclass PhaseSchema(BaseModel):\n" ++
      "    model_config = ConfigDict(frozen=True)\n    tag: Literal[]\n" := by
  have hnames : ∀ name ∈ (TypeRef.tuple []).customNames, IsIdentifier name := by decide
  have hnone : ∀ e : Expression, e.WellFormed → e.text ≠ "Tuple[]" := fun e he htext =>
    ((Rendering.wellFormed_text_iff (.inl rfl) hnames e).mp ⟨he, htext⟩).2 (by decide)
  exact ⟨rfl, by decide, by decide, hnone, by decide +kernel⟩

end ContractInterface.Schema
