/-
# Modules of schemas are closed

Where nothing dangles in an interface, every schema that a module mentions is declared in the
module, but for those of error enumerations.  These count as declared, since results refer to them,
and have no schemas, since the errors of results are not shown; so a parameter, a field or a payload
must not have such a type.  The main results are

* `names_zodBlocks` and `names_pydanticBlocks`: both modules mention the declared names that occur
  outside the errors of results in fields, payloads and parameters, and no others;
* `modules_closed`: every schema that is mentioned is declared, unless it is that of an error
  enumeration;
* `modules_not_closed`: the exception is needed.
-/
import ContractInterface.Proofs.Schema.Pydantic
import ContractInterface.Proofs.Schema.Zod
import ContractInterface.Proofs.Spec.References

namespace ContractInterface.Schema

variable {α : Type}

/-! ### What a module mentions -/

/-- The types that a module of schemas shows: those of fields, what cases carry, and those of
parameters. -/
def shownTypes [Label α] (spec : Spec α) : List TypeRef :=
  (dependencyOrder spec.types).flatMap (·.types) ++
    spec.functions.flatMap fun function => function.inputs.map (·.type)

/-- The blocks of parameters mention what these show, if there is one wherever there are
parameters. -/
lemma names_parameters {parameters? : FunctionDecl α → Option (List Part)}
    (hnone : ∀ function, parameters? function = none → function.inputs = [])
    (hsome : ∀ function parts, parameters? function = some parts →
      names parts = function.inputs.flatMap (shownNames ·.type))
    (functions : List (FunctionDecl α)) :
    (functions.filterMap parameters?).flatMap names =
      (functions.flatMap fun function => function.inputs.map (·.type)).flatMap shownNames := by
  rw [List.filterMap_eq_flatMap_toList, List.flatMap_assoc, List.flatMap_assoc]
  refine List.flatMap_congr fun function _ => ?_
  rw [List.flatMap_map]
  cases hparts : parameters? function with
  | none =>
    rw [hnone function hparts]
    rfl
  | some parts =>
    rw [Option.toList_some, List.flatMap_singleton]
    exact hsome function parts hparts

variable [Label α]

/-- A Zod module mentions what the types that it shows show. -/
lemma names_zodBlocks (spec : Spec α) :
    (zodBlocks spec).flatMap names = (shownTypes spec).flatMap shownNames := by
  have htypes (pending : List String) (decls : List (TypeDecl α)) :
      ((zodTypeBlocks pending decls).map (·.2)).flatMap names =
        (decls.flatMap (·.types)).flatMap shownNames := by
    induction decls generalizing pending with
    | nil => rfl
    | cons decl rest ih =>
      rw [zodTypeBlocks, List.map_cons, List.flatMap_cons, ih, List.flatMap_cons,
        List.flatMap_append, names_eq_of_mentioned (mentioned_zodTypeParts pending decl)]
  have hparameters : (spec.functions.filterMap zodParametersParts?).flatMap names =
      (spec.functions.flatMap fun function => function.inputs.map (·.type)).flatMap shownNames := by
    refine names_parameters (fun function hnone => ?_)
      (fun function parts hparts => names_eq_of_mentioned (mentioned_zodParametersParts? hparts)) _
    rw [zodParametersParts?] at hnone
    exact List.isEmpty_iff.1 (by simpa using hnone)
  rw [zodBlocks, zodBlocksOfTypes, List.flatMap_append, htypes, hparameters, shownTypes,
    List.flatMap_append]

/-- A Pydantic module mentions what the types that it shows show. -/
lemma names_pydanticBlocks (spec : Spec α) :
    (pydanticBlocks spec).flatMap names = (shownTypes spec).flatMap shownNames := by
  have htypes : ((dependencyOrder spec.types).map pydanticTypeParts).flatMap names =
      ((dependencyOrder spec.types).flatMap (·.types)).flatMap shownNames := by
    rw [List.flatMap_map, List.flatMap_assoc]
    exact List.flatMap_congr fun decl _ => names_eq_of_mentioned (mentioned_pydanticTypeParts decl)
  have hparameters : (spec.functions.filterMap pydanticParametersParts?).flatMap names =
      (spec.functions.flatMap fun function => function.inputs.map (·.type)).flatMap shownNames := by
    refine names_parameters (fun function hnone => ?_)
      (fun function parts hparts =>
        names_eq_of_mentioned (mentioned_pydanticParametersParts? hparts)) _
    rw [pydanticParametersParts?] at hnone
    exact List.isEmpty_iff.1 (by simpa using hnone)
  rw [pydanticBlocks, List.flatMap_append, htypes, hparameters, shownTypes, List.flatMap_append]

/-! ### Closed modules -/

/-- Every schema that is mentioned is declared, but for those of some names. -/
def Closed (exempt : String → Prop) (blocks : List (List Part)) : Prop :=
  ∀ block ∈ blocks, ∀ name ∈ names block, ¬exempt name →
    ∃ other ∈ blocks, name ++ "Schema" ∈ declared other

instance (exempt : String → Prop) [DecidablePred exempt] (blocks : List (List Part)) :
    Decidable (Closed exempt blocks) :=
  inferInstanceAs (Decidable (∀ block ∈ blocks, ∀ name ∈ names block, ¬exempt name →
    ∃ other ∈ blocks, name ++ "Schema" ∈ declared other))

/-- A name that an error enumeration has, and no type. -/
def OnlyError (spec : Spec) (name : String) : Prop :=
  name ∈ spec.errorNames ∧ name ∉ spec.types.map (·.name)

variable {spec : Spec} {blocks : List (List Part)}

/-- The interface mentions the types that its module shows. -/
lemma mem_uses_of_mem_shownTypes {type : TypeRef} (h : type ∈ shownTypes spec) :
    ∃ place, (place, type) ∈ spec.uses := by
  rcases List.mem_append.1 h with hshown | hshown
  · obtain ⟨decl, hdecl, htype⟩ := List.mem_flatMap.1 hshown
    refine ⟨.declaration decl.name, List.mem_append_right _ (List.mem_flatMap.2 ⟨decl, ?_, ?_⟩)⟩
    · exact dependencyOrder_subset spec.types hdecl
    · exact List.mem_map_of_mem htype
  · obtain ⟨function, hfunction, htype⟩ := List.mem_flatMap.1 hshown
    obtain ⟨input, hinput, rfl⟩ := List.mem_map.1 htype
    refine ⟨.input function.name input.name,
      List.mem_append_left _ (List.mem_flatMap.2 ⟨function, hfunction, ?_⟩)⟩
    exact List.mem_append_left _ (List.mem_map_of_mem hinput)

/-- Every declared name is that of a declaration in the order. -/
lemma exists_mem_dependencyOrder {types : List TypeDecl} {name : String}
    (h : name ∈ types.map (·.name)) : ∃ decl ∈ dependencyOrder types, decl.name = name := by
  obtain ⟨decl, hdecl, rfl⟩ := List.mem_map.1 h
  obtain ⟨found, hfound, hkey⟩ :=
    mem_keys.1 (keys_subset_dependencyOrder types (List.mem_map_of_mem hdecl))
  exact ⟨found, hfound, Label.Key.text.inj (Option.some.inj hkey)⟩

/-- Blocks are closed if they mention what an interface shows, in which nothing dangles, and declare
the schemas of its types. -/
lemma closed_of_dangling?_eq_none (haccepted : spec.dangling? = none)
    (hnames : blocks.flatMap names = (shownTypes spec).flatMap shownNames)
    (hdeclared : ∀ decl ∈ dependencyOrder spec.types,
      ∃ block ∈ blocks, decl.name ++ "Schema" ∈ declared block) :
    Closed (OnlyError spec) blocks := by
  intro block hblock name hname hexempt
  have hshown : name ∈ (shownTypes spec).flatMap shownNames := by
    rw [← hnames]
    exact List.mem_flatMap.2 ⟨block, hblock, hname⟩
  obtain ⟨type, htype, hname⟩ := List.mem_flatMap.1 hshown
  obtain ⟨place, huse⟩ := mem_uses_of_mem_shownTypes htype
  have hmem : name ∈ spec.declaredNames := Spec.dangling?_eq_none_iff.1 haccepted place type huse
    name (mem_customNames_of_mem_shownNames type hname)
  have htypes : name ∈ spec.types.map (·.name) := by
    rcases Spec.mem_declaredNames_iff.1 hmem with htype | ⟨herror, -⟩
    · exact htype
    · exact not_not.1 fun hnot => hexempt ⟨herror, hnot⟩
  obtain ⟨decl, hdecl, rfl⟩ := exists_mem_dependencyOrder htypes
  exact hdeclared decl hdecl

/-- **Modules of schemas are closed, up to error enumerations.**  Let nothing dangle in an
interface.  Its two modules are their headers and their blocks.  The schemas that the blocks mention
are those of the declared names that occur in the types of fields, payloads and parameters, at any
depth, but not in the errors of results.  Each of them is declared in a block of the same module,
unless the name is that of an error enumeration and of no type. -/
theorem modules_closed (haccepted : spec.dangling? = none) :
    (zodModule spec = "\n".intercalate (zodHeader :: (zodBlocks spec).map written) ∧
      (zodBlocks spec).flatMap names = (shownTypes spec).flatMap shownNames ∧
      Closed (OnlyError spec) (zodBlocks spec)) ∧
    (pydanticModule spec =
        "\n\n".intercalate (pydanticHeader :: (pydanticBlocks spec).map written) ∧
      (pydanticBlocks spec).flatMap names = (shownTypes spec).flatMap shownNames ∧
      Closed (OnlyError spec) (pydanticBlocks spec)) := by
  refine ⟨⟨zodModule_eq_written spec, names_zodBlocks spec, ?_⟩,
    pydanticModule_eq_written spec, names_pydanticBlocks spec, ?_⟩
  · refine closed_of_dangling?_eq_none haccepted (names_zodBlocks spec) fun decl hdecl => ?_
    rw [← map_fst_zodTypeBlocks (spec.types.filterMap (Label.text? ·.name))
      (dependencyOrder spec.types)] at hdecl
    obtain ⟨⟨decl, parts⟩, hmem, rfl⟩ := List.mem_map.1 hdecl
    obtain ⟨front, back, hsplit⟩ := List.append_of_mem hmem
    obtain ⟨pending, rfl, -⟩ := zodTypeBlocks_eq_append hsplit
    refine ⟨_, List.mem_append_left _ (List.mem_map_of_mem hmem), ?_⟩
    rw [declared_zodTypeParts]
    exact List.mem_singleton_self _
  · refine closed_of_dangling?_eq_none haccepted (names_pydanticBlocks spec) fun decl hdecl => ?_
    exact ⟨_, List.mem_append_left _ (List.mem_map_of_mem hdecl),
      mem_declared_pydanticTypeParts decl⟩

/-- An interface whose only function may fail, and takes and gives a declared type. -/
def sampleSpec : Spec where
  name := none
  functions := [⟨"move", [⟨"steps", .vec (.custom "Step"), none⟩],
    some (.result (.custom "Step") (.custom "Failure")), none⟩]
  types := [⟨"Step", .struct [⟨"next", .option (.custom "Step"), none⟩], none⟩]
  errors := [⟨"NotFound", 1, none, some "Failure"⟩]
  rawEntries := []

theorem modules_closed_sample :
    sampleSpec.dangling? = none ∧ "Step" ∈ (shownTypes sampleSpec).flatMap shownNames ∧
      (∃ block ∈ zodBlocks sampleSpec, "StepSchema" ∈ declared block) ∧
      ∃ block ∈ pydanticBlocks sampleSpec, "StepSchema" ∈ declared block := by
  have haccepted : sampleSpec.dangling? = none := by decide
  have hshown : "Step" ∈ (shownTypes sampleSpec).flatMap shownNames := by decide
  have hexempt : ¬OnlyError sampleSpec "Step" := by
    rintro ⟨-, hnot⟩
    exact hnot List.mem_cons_self
  obtain ⟨⟨-, hzod, hzodClosed⟩, -, hpydantic, hpydanticClosed⟩ := modules_closed haccepted
  refine ⟨haccepted, hshown, ?_, ?_⟩
  · rw [← hzod] at hshown
    obtain ⟨block, hblock, hname⟩ := List.mem_flatMap.1 hshown
    exact hzodClosed block hblock "Step" hname hexempt
  · rw [← hpydantic] at hshown
    obtain ⟨block, hblock, hname⟩ := List.mem_flatMap.1 hshown
    exact hpydanticClosed block hblock "Step" hname hexempt

/-- An interface with a function that takes a value of an error enumeration. -/
def reportSpec : Spec where
  name := none
  functions := [⟨"report", [⟨"reason", .custom "Failure", none⟩], none, none⟩]
  types := []
  errors := [⟨"NotFound", 1, none, some "Failure"⟩]
  rawEntries := []

/-- **Error enumerations are an exception.**  Nothing dangles in the interface, and both its modules
mention the schema of the error enumeration, which neither declares. -/
theorem modules_not_closed :
    reportSpec.dangling? = none ∧
      (zodModule reportSpec = "import \x7b z \x7d from 'zod';\n\n" ++
          "export const ReportParamsSchema = z.object(\x7b\n" ++
          "  reason: FailureSchema.describe(\"\"),\n\x7d);\n" ∧
        ¬Closed (fun _ => False) (zodBlocks reportSpec)) ∧
      (pydanticModule reportSpec = pydanticHeader ++ "\n\nclass ReportParams(BaseModel):\n" ++
          "    reason: FailureSchema = Field(..., description=\"\")\n" ∧
        ¬Closed (fun _ => False) (pydanticBlocks reportSpec)) := by
  exact ⟨by decide, ⟨by decide +kernel, by decide⟩, by decide +kernel, by decide⟩

end ContractInterface.Schema
