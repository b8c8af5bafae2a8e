/-
# Names that are keywords

A statement in the body of a model gives a name a type or a value.  The names of fields and
parameters are taken over as they are, so that a statement has a keyword for a name exactly where a
field or a parameter is named like one; no other statement does.  The main results are

* `targets_declarations`: the names that a module gives types or values;
* `keyword_mem_targets_iff`: which of them are keywords.
-/
import ContractInterface.Proofs.Schema.Statements

namespace ContractInterface.Schema

open Target

/-- The keywords of Python. -/
def keywords : List String :=
  ["False", "None", "True", "and", "as", "assert", "async", "await", "break", "class", "continue",
   "def", "del", "elif", "else", "except", "finally", "for", "from", "global", "if", "import", "in",
   "is", "lambda", "nonlocal", "not", "or", "pass", "raise", "return", "try", "while", "with",
   "yield"]

section Targets

variable {α : Type} [Label α]

/-- The names of the fields of a declared type. -/
def fieldNamesOfType (decl : TypeDecl α) : List String :=
  match decl.definition with
  | .struct fields => fields.map (Label.shown ·.name)
  | .enum _ | .union _ => []

/-- The names of the fields and the parameters that a module of models shows. -/
def fieldNames (spec : Spec α) : List String :=
  (dependencyOrder spec.types).flatMap fieldNamesOfType ++
    spec.functions.flatMap fun function => function.inputs.map (Label.shown ·.name)

/-- The names of the statements that no field and no parameter gives rise to. -/
def ownTargets : List String := ["model_config", "tag", "values"]

lemma targets_fieldsModel (name : String) (fields : List (FieldDecl α)) (doc : Option α) :
    (fieldsModel name fields doc).targets = fields.map (Label.shown ·.name) := by
  rw [fieldsModel, Declaration.targets, filterMap_fieldsBody rfl fun _ => rfl]
  exact congrFun List.filterMap_eq_map fields

lemma targets_caseModel_subset (decl : String) (case : Case α) :
    (caseModel decl case).targets ⊆ ownTargets := by
  rw [caseModel, Declaration.targets, List.filterMap_append, filterMap_docStatements fun _ => rfl]
  cases case.payload <;> simp [frozenStatement, tagStatement, fieldStatement, Statement.target?,
    ownTargets]

/-- Only the model of a structure has statements for what the contract names. -/
lemma targets_declarationsOfType (decl : TypeDecl α) :
    fieldNamesOfType decl ⊆ (declarationsOfType decl).flatMap Declaration.targets ∧
      (declarationsOfType decl).flatMap Declaration.targets ⊆
        ownTargets ++ fieldNamesOfType decl := by
  rw [declarationsOfType, fieldNamesOfType]
  cases decl.definition with
  | struct fields =>
    simp only [List.flatMap_singleton, targets_fieldsModel]
    exact ⟨List.Subset.refl _, List.subset_append_right _ _⟩
  | enum variants =>
    have hbody : (docStatements decl.doc ++ [frozenStatement,
        tagStatement (variants.map (Label.shown ·.name)) none]).filterMap Statement.target? =
        ["model_config", "tag"] := by
      rw [List.filterMap_append, filterMap_docStatements fun _ => rfl]
      rfl
    simp only [List.flatMap_singleton, Declaration.targets, hbody]
    exact ⟨List.nil_subset _, by decide⟩
  | union cases =>
    refine ⟨List.nil_subset _, ?_⟩
    cases cases with
    | nil =>
      simp only [List.flatMap_singleton, targets_fieldsModel]
      exact List.nil_subset _
    | cons case cases =>
      intro name hname
      rw [List.flatMap_append, List.flatMap_map, List.mem_append] at hname
      rcases hname with hname | hname
      · obtain ⟨case, -, hname⟩ := List.mem_flatMap.mp hname
        exact List.mem_append_left _ (targets_caseModel_subset _ case hname)
      · cases hname

lemma targets_parameters (functions : List (FunctionDecl α)) :
    (functions.filterMap parametersModel?).flatMap Declaration.targets =
      functions.flatMap fun function => function.inputs.map (Label.shown ·.name) := by
  rw [List.filterMap_eq_flatMap_toList, List.flatMap_assoc]
  refine List.flatMap_congr fun function _ => ?_
  rw [parametersModel?]
  split
  · rename_i hempty
    rw [List.isEmpty_iff.mp hempty]
    rfl
  · rw [Option.toList_some, List.flatMap_singleton, targets_fieldsModel]

/-- **The names that a module gives types or values** are those of fields and parameters, and
besides them at most those of its own statements. -/
theorem targets_declarations (spec : Spec α) :
    fieldNames spec ⊆ (declarations spec).flatMap Declaration.targets ∧
      (declarations spec).flatMap Declaration.targets ⊆ ownTargets ++ fieldNames spec := by
  rw [declarations, fieldNames, List.flatMap_append, List.flatMap_assoc, targets_parameters]
  constructor <;> intro name hname
  · refine List.mem_append.mpr ((List.mem_append.mp hname).imp_left fun hname => ?_)
    obtain ⟨decl, hdecl, hname⟩ := List.mem_flatMap.mp hname
    exact List.mem_flatMap.mpr ⟨decl, hdecl, (targets_declarationsOfType decl).1 hname⟩
  · rcases List.mem_append.mp hname with hname | hname
    · obtain ⟨decl, hdecl, hname⟩ := List.mem_flatMap.mp hname
      refine List.mem_append.mpr ?_
      refine (List.mem_append.mp ((targets_declarationsOfType decl).2 hname)).imp_right fun hname =>
        List.mem_append_left _ (List.mem_flatMap.mpr ⟨decl, hdecl, hname⟩)
    · exact List.mem_append_right _ (List.mem_append_right _ hname)

end Targets

/-- **A statement has a keyword for a name exactly where a field or a parameter is named so.**
Where the fields and the parameters of an interface have identifiers for names, each statement in
the bodies of the models gives an identifier a type or a value, and this is a keyword just if it is
the name of a field or a parameter. -/
theorem keyword_mem_targets_iff {spec : Spec} (h : ∀ name ∈ fieldNames spec, IsIdentifier name) :
    pydanticModule spec =
      "\n\n".intercalate (pydanticHeader :: (declarations spec).map Declaration.text) ∧
    (∀ name ∈ (declarations spec).flatMap Declaration.targets, IsIdentifier name) ∧
    ∀ keyword ∈ keywords,
      keyword ∈ (declarations spec).flatMap Declaration.targets ↔ keyword ∈ fieldNames spec := by
  obtain ⟨hnames, htargets⟩ := targets_declarations spec
  refine ⟨pydanticModule_eq_text spec, fun name hname => ?_, fun keyword hkeyword => ?_⟩
  · have hown : ∀ name ∈ ownTargets, IsIdentifier name := by decide
    exact (List.mem_append.mp (htargets hname)).elim (hown name) (h name)
  · -- the names of the module's own statements are no keywords
    have hfree : ∀ keyword ∈ keywords, keyword ∉ ownTargets := by decide
    refine ⟨fun hname => ?_, fun hname => hnames hname⟩
    exact (List.mem_append.mp (htargets hname)).resolve_left (hfree keyword hkeyword)

/-- An interface with a structure, a union with a payload, and a function with a parameter. -/
def vaultSpec : Spec where
  name := none
  functions := [⟨"deposit", [⟨"amount", .primitive .i128, none⟩], none, none⟩]
  types := [⟨"Position", .struct [⟨"owner", .primitive .address, none⟩], none⟩,
    ⟨"Slot", .union [⟨"Of", some (.tuple [.primitive .address]), none⟩], none⟩]
  errors := []
  rawEntries := []

theorem keyword_mem_targets_iff_vault :
    (∀ name ∈ fieldNames vaultSpec, IsIdentifier name) ∧
      "values" ∈ (declarations vaultSpec).flatMap Declaration.targets ∧
      ∀ keyword ∈ keywords, keyword ∉ (declarations vaultSpec).flatMap Declaration.targets := by
  have h : ∀ name ∈ fieldNames vaultSpec, IsIdentifier name := by decide
  have hfree : ∀ keyword ∈ keywords, keyword ∉ fieldNames vaultSpec := by decide
  refine ⟨h, by decide, fun keyword hkeyword hname => hfree keyword hkeyword ?_⟩
  exact ((keyword_mem_targets_iff h).2.2 keyword hkeyword).mp hname

/-- An interface with a function whose parameters tell where an amount comes from and goes to. -/
def transferSpec : Spec where
  name := none
  functions := [⟨"transfer", [⟨"from", .primitive .address, none⟩,
    ⟨"to", .primitive .address, none⟩, ⟨"amount", .primitive .i128, none⟩], none, none⟩]
  types := []
  errors := []
  rawEntries := []

/-- **Keywords occur.**  All names in the interface are identifiers, and its module has a line that
gives the keyword `from` a type. -/
theorem keyword_mem_targets_transfer :
    (∀ name ∈ fieldNames transferSpec, IsIdentifier name) ∧ "from" ∈ keywords ∧
      "from" ∈ (declarations transferSpec).flatMap Declaration.targets ∧
      pydanticModule transferSpec = pydanticHeader ++ "\n\nclass TransferParams(BaseModel):\n" ++
        "    from: str = Field(..., min_length=56, max_length=56, description=\"\")\n" ++
        "    to: str = Field(..., min_length=56, max_length=56, description=\"\")\n" ++
        "    amount: str = Field(..., description=\"\")\n" := by
  exact ⟨by decide, by decide, by decide, by decide +kernel⟩

end ContractInterface.Schema
