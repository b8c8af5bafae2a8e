/-
# Names that modules declare

A module of schemas declares names that are made of those in the interface: the schema of a type is
named after it, the parameters of a function after the function in Pascal case, and in Pydantic the
model of a case after its union and the case with an underscore between them.  Pascal case forgets
underscores and capitals, and a name may hold an underscore of its own, so two names may become one.
The main results are

* `declared_zodBlocks` and `map_name_declarations`: the names that the modules declare;
* `not_mem_pascalCase`: no name in Pascal case holds an underscore;
* `nodup_zodNames_iff` and `nodup_modelNames_iff`: when the names of a module are told apart.
-/
import Mathlib.Data.List.Infix
import Mathlib.Data.List.Pairwise
import ContractInterface.Proofs.Schema.Statements

namespace ContractInterface.Text

/-! ### Parts and capitals -/

lemma splitAt_ne_nil (separator : Char) (chars : List Char) : splitAt separator chars ≠ [] := by
  cases chars with
  | nil => simp [splitAt]
  | cons c rest =>
    rw [splitAt]
    split
    · simp
    · split <;> simp

/-- The parts between separators hold none. -/
lemma not_mem_of_mem_splitAt {separator : Char} {chars part : List Char}
    (h : part ∈ splitAt separator chars) : separator ∉ part := by
  induction chars generalizing part with
  | nil =>
    rw [splitAt, List.mem_singleton] at h
    exact h ▸ List.not_mem_nil
  | cons c rest ih =>
    rw [splitAt] at h
    split at h
    · rename_i hrest
      exact absurd hrest (splitAt_ne_nil _ _)
    · rename_i first parts hrest
      rw [hrest] at ih
      split at h
      · rcases List.mem_cons.mp h with rfl | hpart
        · exact List.not_mem_nil
        · exact ih hpart
      · rename_i hne
        rcases List.mem_cons.mp h with rfl | hpart
        · exact List.not_mem_cons_of_ne_of_not_mem (Ne.symm hne) (ih List.mem_cons_self)
        · exact ih (List.mem_cons_of_mem _ hpart)

/-- Only an underscore is an underscore in capitals. -/
lemma eq_of_underscore_mem_capitals {n : Nat} (h : 0x5F ∈ capitals n) : n = 0x5F := by
  -- what a run takes to an underscore stands at one place, which is outside the run
  have hruns : ∀ run ∈ capitalRuns,
    ¬((run.1 : Int) ≤ 0x5F - run.2.2.2 ∧ 0x5F - run.2.2.2 ≤ run.2.1) := by decide +kernel
  have hsequences : ∀ entry ∈ capitalSequences, 0x5F ∉ entry.2 := by decide +kernel
  rw [capitals] at h
  split at h
  · rename_i first last step shift hfind
    have hwithin := List.find?_some hfind
    simp only [Bool.and_eq_true, decide_eq_true_eq] at hwithin
    refine absurd ?_ (hruns _ (List.mem_of_find?_eq_some hfind))
    rw [List.mem_singleton] at h
    dsimp only
    omega
  · cases hlookup : capitalSequences.lookup n with
    | none =>
      rw [hlookup, Option.getD_none, List.mem_singleton] at h
      exact h.symm
    | some sequence =>
      rw [hlookup, Option.getD_some] at h
      obtain ⟨front, back, hsplit, -⟩ := List.lookup_eq_some_iff.mp hlookup
      refine absurd h (hsequences (n, sequence) ?_)
      rw [hsplit]
      simp

lemma eq_of_underscore_mem_upperChar {c : Char} (h : '_' ∈ upperChar c) : c = '_' := by
  rw [upperChar] at h
  split at h
  · rename_i hascii
    have htable : ∀ n < 0x80, '_' = (Char.ofNat n).toUpper → Char.ofNat n = '_' := by decide
    have hcode := htable c.toNat hascii
    rw [Char.ofNat_toNat] at hcode
    exact hcode (List.mem_singleton.mp h)
  · obtain ⟨m, hm, hchar⟩ := List.mem_map.mp h
    have hcode : m = 0x5F := by
      by_cases hvalid : m.isValidChar
      · rw [Char.ofNat, dif_pos hvalid] at hchar
        exact congrArg Char.toNat hchar
      · rw [Char.ofNat, dif_neg hvalid] at hchar
        exact absurd hchar (by decide)
    rw [hcode] at hm
    rw [← Char.ofNat_toNat c, eq_of_underscore_mem_capitals hm]

end ContractInterface.Text

namespace ContractInterface.Schema

open Target

/-! ### The names -/

section Names

variable {α : Type} [Label α]

/-- The cases of a declared type, if it is a union. -/
def casesOf (decl : TypeDecl α) : List (Case α) :=
  match decl.definition with
  | .union cases => cases
  | .struct _ | .enum _ => []

/-- The name that the parameters of a function go by, if it has any. -/
def parameterName? (function : FunctionDecl α) : Option String :=
  if function.inputs.isEmpty then none else some (pascalCase (Label.shown function.name))

/-- The names that the parameters of functions go by. -/
def parameterNames (spec : Spec α) : List String :=
  spec.functions.filterMap parameterName?

/-- The names that the models of a declared type go by. -/
def modelNamesOfType (decl : TypeDecl α) : List String :=
  (casesOf decl).map (caseName (Label.shown decl.name)) ++ [Label.shown decl.name ++ "Schema"]

/-- A Zod module declares the schema of each type, and of the parameters of each function. -/
lemma declared_zodBlocks (spec : Spec α) :
    (zodBlocks spec).flatMap declared =
      (dependencyOrder spec.types).map (Label.shown ·.name ++ "Schema") ++
        (parameterNames spec).map (· ++ "ParamsSchema") := by
  -- what is pending changes from block to block, but not what a block declares
  have htypes (pending : List String) (decls : List (TypeDecl α)) :
      ((zodTypeBlocks pending decls).map (·.2)).flatMap declared =
        decls.map (Label.shown ·.name ++ "Schema") := by
    induction decls generalizing pending with
    | nil => rfl
    | cons decl rest ih =>
      rw [zodTypeBlocks, List.map_cons, List.flatMap_cons, ih, declared_zodTypeParts, List.map_cons,
        List.singleton_append]
  have hparameters (function : FunctionDecl α) :
      (zodParametersParts? function).toList.flatMap declared =
        ((parameterName? function).map (· ++ "ParamsSchema")).toList := by
    rw [zodParametersParts?, parameterName?]
    split
    · rfl
    · simp [declared_zodObjectParts]
  rw [zodBlocks, zodBlocksOfTypes, List.flatMap_append, htypes, parameterNames, List.map_filterMap]
  rw [List.filterMap_eq_flatMap_toList, List.filterMap_eq_flatMap_toList, List.flatMap_assoc,
    List.flatMap_congr fun function _ => hparameters function]

lemma map_name_declarationsOfType (decl : TypeDecl α) :
    (declarationsOfType decl).map Declaration.name = modelNamesOfType decl := by
  rw [declarationsOfType, modelNamesOfType, casesOf]
  cases decl.definition with
  | struct fields => rfl
  | enum variants => rfl
  | union cases =>
    cases cases with
    | nil => rfl
    | cons case cases =>
      rw [List.map_append, List.map_map]
      rfl

/-- A Pydantic module declares the models of each type, and those of parameters. -/
lemma map_name_declarations (spec : Spec α) :
    (declarations spec).map Declaration.name =
      (dependencyOrder spec.types).flatMap modelNamesOfType ++
        (parameterNames spec).map (· ++ "Params") := by
  have hparameters (function : FunctionDecl α) :
      (parametersModel? function).map Declaration.name =
        (parameterName? function).map (· ++ "Params") := by
    rw [parametersModel?, parameterName?]
    split <;> rfl
  rw [declarations, List.map_append, List.map_flatMap,
    List.flatMap_congr fun decl _ => map_name_declarationsOfType decl, List.map_filterMap,
    parameterNames, List.map_filterMap]
  exact congrArg _ (congrArg (fun f => spec.functions.filterMap f) (funext hparameters))

end Names

/-! ### Names that become one -/

/-- **No name in Pascal case holds an underscore.** -/
lemma not_mem_pascalCase (name : String) : '_' ∉ (pascalCase name).toList := by
  rw [pascalCase, String.toList_ofList]
  intro h
  obtain ⟨part, hpart, hmem⟩ := List.mem_flatMap.mp h
  have hnot := Text.not_mem_of_mem_splitAt hpart
  cases part with
  | nil => cases hmem
  | cons c rest =>
    rcases List.mem_append.mp hmem with hfirst | hrest
    · exact hnot (Text.eq_of_underscore_mem_upperChar hfirst ▸ List.mem_cons_self)
    · exact hnot (List.mem_cons_of_mem _ hrest)

/-- Two splittings of a text, of which one is at an underscore: one of the two is further on. -/
lemma append_underscore_eq_iff {first last other ending : String} :
    first ++ "_" ++ last = other ++ ending ↔
      (∃ rest, other = first ++ "_" ++ rest ∧ last = rest ++ ending) ∨
        ∃ rest, first = other ++ rest ∧ ending = rest ++ "_" ++ last := by
  constructor
  · intro h
    have hchars : first.toList ++ '_' :: last.toList = other.toList ++ ending.toList := by
      simpa using congrArg String.toList h
    rcases List.append_eq_append_iff.mp hchars with ⟨front, hother, hlast⟩ | ⟨back, hfirst, hending⟩
    · -- the other splitting is right in front of the underscore, or behind it
      rcases List.cons_eq_append_iff.mp hlast with ⟨rfl, hending⟩ | ⟨rest, rfl, hlast⟩
      · refine .inr ⟨"", ?_, ?_⟩
        · exact String.toList_inj.mp (by simpa using hother.symm)
        · exact String.toList_inj.mp (by simpa using hending)
      · refine .inl ⟨String.ofList rest, ?_, ?_⟩
        · exact String.toList_inj.mp (by simpa using hother)
        · exact String.toList_inj.mp (by simpa using hlast)
    · refine .inr ⟨String.ofList back, ?_, ?_⟩
      · exact String.toList_inj.mp (by simpa using hfirst)
      · exact String.toList_inj.mp (by simpa using hending)
  · rintro (⟨rest, rfl, rfl⟩ | ⟨rest, rfl, rfl⟩) <;> simp only [String.append_assoc]

/-- Two splittings of a text at underscores: one of the two is further on, or they are one. -/
lemma append_underscore_eq_append_underscore_iff {first last other last' : String}
    (hne : first ≠ other) :
    first ++ "_" ++ last = other ++ "_" ++ last' ↔
      (∃ rest, other = first ++ "_" ++ rest ∧ last = rest ++ "_" ++ last') ∨
        ∃ rest, first = other ++ "_" ++ rest ∧ last' = rest ++ "_" ++ last := by
  constructor
  · intro h
    have hright : other ++ "_" ++ last' = other ++ ("_" ++ last') := String.append_assoc
    rw [hright, append_underscore_eq_iff] at h
    rcases h with ⟨rest, hother, hlast⟩ | ⟨front, hfirst, hlast⟩
    · exact .inl ⟨rest, hother, by rw [hlast, String.append_assoc]⟩
    · have hchars : '_' :: last'.toList = front.toList ++ '_' :: last.toList := by
        simpa using congrArg String.toList hlast
      rcases List.cons_eq_append_iff.mp hchars with ⟨hfront, -⟩ | ⟨rest, hfront, hlast'⟩
      · rw [String.toList_eq_nil_iff.mp hfront, String.append_empty] at hfirst
        exact absurd hfirst hne
      · refine .inr ⟨String.ofList rest, ?_, ?_⟩
        · exact String.toList_inj.mp (by simp [hfirst, hfront])
        · exact String.toList_inj.mp (by simp [hlast'])
  · rintro (⟨rest, rfl, rfl⟩ | ⟨rest, rfl, rfl⟩) <;> simp only [String.append_assoc]

lemma ne_append_underscore (name rest : String) : name ≠ name ++ "_" ++ rest := by
  intro h
  have hlength := congrArg (·.toList.length) h
  simp at hlength

/-- The model of a case has the name of another declaration if the name of the other goes on with
that of its union, and the case with what is left. -/
lemma caseName_eq_iff {decl other ending : String} {case : Case} (h : '_' ∉ ending.toList) :
    caseName decl case = other ++ ending ↔
      ∃ rest, other = decl ++ "_" ++ rest ∧ case.name = rest ++ ending := by
  rw [caseName, Label.shown_string, append_underscore_eq_iff, or_iff_left]
  rintro ⟨rest, -, rfl⟩
  simp at h

/-! ### Names of the models of types -/

/-- The model of a case of one type goes by the name of a model of another type: the other type is
named after the first one and more, and the case after the rest of its name and more. -/
def Clashes (decl other : TypeDecl) : Prop :=
  ∃ rest, other.name = decl.name ++ "_" ++ rest ∧ ∃ case ∈ casesOf decl,
    case.name = rest ++ "Schema" ∨ ∃ case' ∈ casesOf other, case.name = rest ++ "_" ++ case'.name

/-- What the name of the other type goes on with is one of the ends of this name. -/
instance (decl other : TypeDecl) : Decidable (Clashes decl other) :=
  decidable_of_iff (∃ rest ∈ other.name.toList.tails.map String.ofList,
    other.name = decl.name ++ "_" ++ rest ∧ ∃ case ∈ casesOf decl,
      case.name = rest ++ "Schema" ∨
        ∃ case' ∈ casesOf other, case.name = rest ++ "_" ++ case'.name)
    ⟨fun ⟨rest, _, h⟩ => ⟨rest, h⟩, fun ⟨rest, hother, h⟩ => by
      refine ⟨rest, List.mem_map.mpr ⟨rest.toList, ?_, String.ofList_toList⟩, hother, h⟩
      rw [List.mem_tails, hother, String.toList_append]
      exact List.suffix_append _ _⟩

lemma mem_modelNamesOfType {decl : TypeDecl} {name : String} :
    name ∈ modelNamesOfType decl ↔
      (∃ case ∈ casesOf decl, caseName decl.name case = name) ∨ name = decl.name ++ "Schema" := by
  simp only [modelNamesOfType, List.mem_append, List.mem_map, List.mem_singleton,
    Label.shown_string]

lemma Clashes.name_ne {decl other : TypeDecl} (h : Clashes decl other) :
    decl.name ≠ other.name := by
  obtain ⟨rest, hother, -⟩ := h
  rw [hother]
  exact ne_append_underscore _ rest

lemma Clashes.exists_common {decl other : TypeDecl} (h : Clashes decl other) :
    ∃ name ∈ modelNamesOfType decl, name ∈ modelNamesOfType other := by
  obtain ⟨rest, hother, case, hcase, hname | ⟨case', hcase', hname⟩⟩ := h
  · refine ⟨_, mem_modelNamesOfType.mpr (.inl ⟨case, hcase, rfl⟩), ?_⟩
    rw [(caseName_eq_iff (by decide)).mpr ⟨rest, hother, hname⟩]
    exact mem_modelNamesOfType.mpr (.inr rfl)
  · refine ⟨_, mem_modelNamesOfType.mpr (.inl ⟨case, hcase, rfl⟩),
      mem_modelNamesOfType.mpr (.inl ⟨case', hcase', ?_⟩)⟩
    rw [caseName, caseName, Label.shown_string, Label.shown_string, hother, hname]
    simp only [String.append_assoc]

/-- Both types have a model named `Order_Log_Empty`. -/
example : Clashes ⟨"Order", .union [⟨"Log_Empty", none, none⟩], none⟩
    ⟨"Order_Log", .union [⟨"Empty", none, none⟩], none⟩ := by
  decide

/-- Types of different names have no model of one name exactly if neither clashes with the other. -/
lemma disjoint_modelNamesOfType_iff {decl other : TypeDecl} (hne : decl.name ≠ other.name) :
    (modelNamesOfType decl).Disjoint (modelNamesOfType other) ↔
      ¬Clashes decl other ∧ ¬Clashes other decl := by
  constructor
  · intro h
    refine ⟨fun hclash => ?_, fun hclash => ?_⟩
    · obtain ⟨name, hname, hname'⟩ := hclash.exists_common
      exact h hname hname'
    · obtain ⟨name, hname, hname'⟩ := hclash.exists_common
      exact h hname' hname
  · rintro ⟨hfree, hfree'⟩ name hname hname'
    -- two cases, a case and a schema on either side, and two schemas
    rcases mem_modelNamesOfType.mp hname with ⟨case, hcase, rfl⟩ | rfl <;>
      rcases mem_modelNamesOfType.mp hname' with ⟨case', hcase', heq⟩ | heq
    · rw [caseName, caseName, append_underscore_eq_append_underscore_iff hne.symm] at heq
      rcases heq with ⟨rest, hdecl, hlast⟩ | ⟨rest, hother, hlast⟩
      · exact hfree' ⟨rest, hdecl, case', hcase', .inr ⟨case, hcase, hlast⟩⟩
      · exact hfree ⟨rest, hother, case, hcase, .inr ⟨case', hcase', hlast⟩⟩
    · obtain ⟨rest, hother, hlast⟩ := (caseName_eq_iff (by decide)).mp heq
      exact hfree ⟨rest, hother, case, hcase, .inl hlast⟩
    · obtain ⟨rest, hdecl, hlast⟩ := (caseName_eq_iff (by decide)).mp heq
      exact hfree' ⟨rest, hdecl, case', hcase', .inl hlast⟩
    · exact hne ((String.append_left_inj _).mp heq)

/-- The models of a type have different names exactly if its cases have. -/
lemma nodup_modelNamesOfType_iff (decl : TypeDecl) :
    (modelNamesOfType decl).Nodup ↔ ((casesOf decl).map (·.name)).Nodup := by
  have hinjective : Function.Injective (decl.name ++ "_" ++ ·) := fun _ _ heq =>
    (String.append_right_inj _).mp heq
  have hnames : (casesOf decl).map (caseName (Label.shown decl.name)) =
      ((casesOf decl).map (·.name)).map (decl.name ++ "_" ++ ·) := by
    rw [List.map_map]
    rfl
  -- a case with the name of the schema would make the name of the type go on with itself
  have hschema : ∀ name ∈ (casesOf decl).map (caseName (Label.shown decl.name)),
      name ≠ decl.name ++ "Schema" := by
    rw [List.forall_mem_map]
    intro case _ heq
    obtain ⟨rest, hself, -⟩ := (caseName_eq_iff (by decide)).mp heq
    exact ne_append_underscore _ rest hself
  rw [modelNamesOfType, List.nodup_append, and_iff_left, hnames, List.nodup_map_iff hinjective]
  refine ⟨List.nodup_singleton _, fun name hname name' hname' => ?_⟩
  rw [List.mem_singleton.mp hname']
  exact hschema name hname

/-! ### Names of a module -/

section Modules

variable {spec : Spec}

lemma append_injective (ending : String) : Function.Injective (· ++ ending) := fun _ _ heq =>
  (String.append_left_inj ending).mp heq

/-- In a Zod module the names are told apart unless two functions go by one name, or a type is named
like the parameters of a function. -/
theorem nodup_zodNames_iff (h : (spec.types.map (·.name)).Nodup) :
    ((zodBlocks spec).flatMap declared).Nodup ↔
      (parameterNames spec).Nodup ∧
        ∀ name ∈ parameterNames spec, name ++ "Params" ∉ spec.types.map (·.name) := by
  have horder := (dependencyOrder_perm (nodup_keys h)).map (Label.shown ·.name ++ "Schema")
  have htypes : spec.types.map (Label.shown ·.name ++ "Schema") =
      (spec.types.map (·.name)).map (· ++ "Schema") := by
    rw [List.map_map]
    rfl
  have hending (name : String) : name ++ "ParamsSchema" = name ++ "Params" ++ "Schema" := by
    rw [String.append_assoc]
    rfl
  rw [declared_zodBlocks, (horder.append_right _).nodup_iff, htypes, List.nodup_append,
    List.nodup_map_iff (append_injective _), List.nodup_map_iff (append_injective _),
    and_iff_right h]
  refine and_congr_right fun _ => ?_
  simp only [List.forall_mem_map, hending, ne_eq, String.append_left_inj]
  constructor
  · intro hne name hname hmem
    obtain ⟨decl, hdecl, heq⟩ := List.mem_map.mp hmem
    exact hne decl hdecl name hname heq
  · intro hfree decl hdecl name hname heq
    exact hfree name hname (List.mem_map.mpr ⟨decl, hdecl, heq⟩)

/-- The models of types and those of parameters have different names. -/
lemma ne_of_mem_modelNamesOfType {decl : TypeDecl} {name parameters : String}
    (hname : name ∈ modelNamesOfType decl) (hparameters : parameters ∈ parameterNames spec) :
    name ≠ parameters ++ "Params" := by
  rintro rfl
  rcases mem_modelNamesOfType.mp hname with ⟨case, -, hcase⟩ | hschema
  · -- the name of a case holds an underscore, and a name in Pascal case does not
    obtain ⟨function, -, hfunction⟩ := List.mem_filterMap.mp hparameters
    have hunderscore : '_' ∈ (parameters ++ "Params").toList := by
      rw [← hcase, caseName]
      simp
    rw [String.toList_append, List.mem_append, or_iff_left (by decide)] at hunderscore
    rw [parameterName?] at hfunction
    split at hfunction
    · cases hfunction
    · rw [← Option.some.inj hfunction] at hunderscore
      exact not_mem_pascalCase _ hunderscore
  · have hlast := congrArg (·.toList.getLast?) hschema
    simp at hlast

/-- In a Pydantic module the names are told apart unless two functions go by one name, two cases of
one union do, or a union clashes with another type. -/
theorem nodup_modelNames_iff (h : (spec.types.map (·.name)).Nodup) :
    ((declarations spec).map Declaration.name).Nodup ↔
      (parameterNames spec).Nodup ∧
        (∀ decl ∈ spec.types, ((casesOf decl).map (·.name)).Nodup) ∧
        ∀ decl ∈ spec.types, ∀ other ∈ spec.types, ¬Clashes decl other := by
  have horder := (dependencyOrder_perm (nodup_keys h)).flatMap_right modelNamesOfType
  have hparameters : ∀ name ∈ spec.types.flatMap modelNamesOfType,
      ∀ name' ∈ (parameterNames spec).map (· ++ "Params"), name ≠ name' := by
    intro name hname
    obtain ⟨decl, -, hname⟩ := List.mem_flatMap.mp hname
    exact List.forall_mem_map.mpr fun parameters => ne_of_mem_modelNamesOfType hname
  -- no type clashes with itself, so it does not matter that pairs are of different types
  have hpairs : spec.types.Pairwise (Function.onFun List.Disjoint modelNamesOfType) ↔
      ∀ decl ∈ spec.types, ∀ other ∈ spec.types, ¬Clashes decl other := by
    constructor
    · intro hpairs decl hdecl other hother hclash
      have hsymm : Std.Symm (Function.onFun List.Disjoint (modelNamesOfType (α := String))) :=
        ⟨fun _ _ hdisjoint _ hname hname' => hdisjoint hname' hname⟩
      have hdisjoint := hpairs.forall hdecl hother fun heq => hclash.name_ne (heq ▸ rfl)
      exact ((disjoint_modelNamesOfType_iff hclash.name_ne).mp hdisjoint).1 hclash
    · intro hfree
      refine h.of_map.pairwise_of_forall_ne fun decl hdecl other hother hne => ?_
      have hname : decl.name ≠ other.name := mt (List.inj_on_of_nodup_map h hdecl hother) hne
      exact (disjoint_modelNamesOfType_iff hname).mpr
        ⟨hfree decl hdecl other hother, hfree other hother decl hdecl⟩
  rw [map_name_declarations, (horder.append_right _).nodup_iff, List.nodup_append,
    and_iff_left hparameters, List.nodup_map_iff (append_injective _), List.nodup_flatMap, hpairs]
  simp only [nodup_modelNamesOfType_iff]
  exact and_comm

end Modules

/-- **When the names that a module declares are told apart.**  Let the types of an interface have
different names.  In a Zod module no name is declared twice exactly if no two functions with
parameters have one name in Pascal case, and no type has such a name with `Params` behind it.  In a
Pydantic module no name is declared twice exactly if no two functions with parameters have one name
in Pascal case, no union has two cases of one name, and no union clashes with another type. -/
theorem declared_names_nodup_iff {spec : Spec} (h : (spec.types.map (·.name)).Nodup) :
    (zodModule spec = "\n".intercalate (zodHeader :: (zodBlocks spec).map written) ∧
      (((zodBlocks spec).flatMap declared).Nodup ↔
        (parameterNames spec).Nodup ∧
          ∀ name ∈ parameterNames spec, name ++ "Params" ∉ spec.types.map (·.name))) ∧
    pydanticModule spec =
      "\n\n".intercalate (pydanticHeader :: (declarations spec).map Declaration.text) ∧
    (((declarations spec).map Declaration.name).Nodup ↔
      (parameterNames spec).Nodup ∧
        (∀ decl ∈ spec.types, ((casesOf decl).map (·.name)).Nodup) ∧
        ∀ decl ∈ spec.types, ∀ other ∈ spec.types, ¬Clashes decl other) :=
  ⟨⟨zodModule_eq_written spec, nodup_zodNames_iff h⟩, pydanticModule_eq_text spec,
    nodup_modelNames_iff h⟩

/-- An interface in which a union goes on with the name of another one, but no case does. -/
def ordersSpec : Spec where
  name := none
  functions := [⟨"place_order", [⟨"order", .custom "Order", none⟩], none, none⟩]
  types := [⟨"Order", .union [⟨"Open", none, none⟩, ⟨"Closed", none, none⟩], none⟩,
    ⟨"Order_Log", .union [⟨"Empty", none, none⟩], none⟩]
  errors := []
  rawEntries := []

theorem declared_names_nodup_iff_orders :
    (ordersSpec.types.map (·.name)).Nodup ∧ ((zodBlocks ordersSpec).flatMap declared).Nodup ∧
      ((declarations ordersSpec).map Declaration.name).Nodup := by
  have h : (ordersSpec.types.map (·.name)).Nodup := by decide
  have hparameters : (parameterNames ordersSpec).Nodup := by decide +kernel
  obtain ⟨⟨-, hzod⟩, -, hpydantic⟩ := declared_names_nodup_iff h
  refine ⟨h, hzod.mpr ⟨hparameters, by decide +kernel⟩, hpydantic.mpr ⟨hparameters, ?_, ?_⟩⟩
  · decide
  · decide

/-- An interface in which the names of two functions differ only in how they part their words. -/
def adminSpec : Spec where
  name := none
  functions := [⟨"set_admin", [⟨"admin", .primitive .address, none⟩], none, none⟩,
    ⟨"setAdmin", [⟨"flag", .primitive .bool, none⟩], none, none⟩]
  types := []
  errors := []
  rawEntries := []

/-- **Names become one.**  The functions of the interface have different names, and each module
declares the parameters of both under one name. -/
theorem declared_names_not_nodup :
    (∀ function ∈ adminSpec.functions, IsIdentifier function.name) ∧
      (adminSpec.functions.map (·.name)).Nodup ∧ (adminSpec.types.map (·.name)).Nodup ∧
      ((zodBlocks adminSpec).flatMap declared = ["SetAdminParamsSchema", "SetAdminParamsSchema"] ∧
        ¬((zodBlocks adminSpec).flatMap declared).Nodup) ∧
      (declarations adminSpec).map Declaration.name = ["SetAdminParams", "SetAdminParams"] ∧
        ¬((declarations adminSpec).map Declaration.name).Nodup := by
  have hzod : (zodBlocks adminSpec).flatMap declared =
      ["SetAdminParamsSchema", "SetAdminParamsSchema"] := by decide +kernel
  have hpydantic : (declarations adminSpec).map Declaration.name =
      ["SetAdminParams", "SetAdminParams"] := by decide +kernel
  refine ⟨by decide, by decide, by decide, ⟨hzod, ?_⟩, hpydantic, ?_⟩
  · rw [hzod]
    decide
  · rw [hpydantic]
    decide

end ContractInterface.Schema
