/-
# Zod modules declare before they use

A reference to a schema fails when the module is loaded, unless the schema is declared above it or
the reference is lazy.  The types are written in an order in which each stands behind those it
mentions, up to cycles, and what is not written yet is pending; so a reference is lazy just where it
must be.  The main results are

* `zodModule_eq_written`: the layouts of the blocks are what the module is made of;
* `zodModule_declares_before_use`: a reference is lazy if and only if the type that it is for is
  declared, but not above, and then there is a cycle of references.
-/
import ContractInterface.Proofs.Schema.Layout
import ContractInterface.Proofs.Schema.Order
import ContractInterface.Schema.Zod

namespace ContractInterface.Schema

open Target
open Relation (TransGen)

variable {α : Type} [Label α]

/-! ### Layouts -/

/-- The layout of a member of an object validator. -/
def zodFieldParts (pending : List String) (field : FieldDecl α) : List Part :=
  let leaveOut := if field.type.isOption then ".optional()" else ""
  .text (Label.shown field.name ++ ": ") :: typeParts zodWording pending field.type ++
    [.text (leaveOut ++ ".describe(\"" ++ escapeDoc field.doc ++ "\")")]

/-- The layout of the validator of objects with given fields. -/
def zodObjectParts (pending : List String) (fields : List (FieldDecl α)) : List Part :=
  if fields.isEmpty then [.text "z.object(\x7b\x7d)"]
  else
    enclosed ("z.object(\x7b\n", "\x7d)")
      (fields.flatMap fun field => enclosed ("  ", ",\n") (zodFieldParts pending field))

/-- The layout of the validator of a case of a union. -/
def zodCaseParts (pending : List String) (case : Case α) : List Part :=
  enclosed ("z.object(\x7b tag: z.literal('" ++ Label.shown case.name ++ "')", " \x7d)")
    (case.payload.toList.flatMap fun payload =>
      .text ", values: " :: typeParts zodWording pending payload)

/-- The layout of the validator of a definition. -/
def zodDefinitionParts (pending : List String) : Definition α → List Part
  | .struct fields => zodObjectParts pending fields
  | .enum variants => [.text (zodDefinition pending (.enum variants))]
  | .union [] => [.text "z.never()"]
  | .union [case] => zodCaseParts pending case
  | .union cases =>
    enclosed ("z.union([\n", "])")
      (cases.flatMap fun case => enclosed ("  ", ",\n") (zodCaseParts pending case))

/-- The layout of the schema of a declared type. -/
def zodTypeParts (pending : List String) (decl : TypeDecl α) : List Part :=
  .text (zodComment decl.doc ++ "export const ") :: .declares (Label.shown decl.name ++ "Schema") ::
    enclosed (" = ", ";\n") (zodDefinitionParts pending decl.definition)

/-- The layouts of the schemas of declared types in order; each is defined once it is written. -/
def zodTypeBlocks (pending : List String) : List (TypeDecl α) → List (TypeDecl α × List Part)
  | [] => []
  | decl :: rest =>
    (decl, zodTypeParts pending decl) ::
      zodTypeBlocks (pending.filter (!Label.isNamed decl.name ·)) rest

/-- The layout of the schema of the parameters of a function, if it has any. -/
def zodParametersParts? (function : FunctionDecl α) : Option (List Part) :=
  if function.inputs.isEmpty then none
  else some (.text "export const " ::
    .declares (pascalCase (Label.shown function.name) ++ "ParamsSchema") ::
      enclosed (" = ", ";\n") (zodObjectParts [] function.inputs))

/-- The layouts of the schemas of the declared types of an interface. -/
def zodBlocksOfTypes (spec : Spec α) : List (TypeDecl α × List Part) :=
  zodTypeBlocks (spec.types.filterMap (Label.text? ·.name)) (dependencyOrder spec.types)

/-- The layouts of the schemas of an interface. -/
def zodBlocks (spec : Spec α) : List (List Part) :=
  (zodBlocksOfTypes spec).map (·.2) ++ spec.functions.filterMap zodParametersParts?

section Written

variable (pending : List String)

lemma written_zodFieldParts (field : FieldDecl α) :
    written (zodFieldParts pending field) = zodField pending field := by
  simp [zodFieldParts, zodField, Part.written, written_zodParts, String.append_assoc]

lemma written_zodObjectParts (fields : List (FieldDecl α)) :
    written (zodObjectParts pending fields) = zodObject pending fields := by
  rw [zodObjectParts, zodObject]
  split
  · rfl
  · rw [written_enclosed, written_flatMap]
    simp only [written_enclosed, written_zodFieldParts]

lemma written_zodCaseParts (case : Case α) :
    written (zodCaseParts pending case) = zodCase pending case := by
  have hvalues : written (case.payload.toList.flatMap fun payload =>
      .text ", values: " :: typeParts zodWording pending payload) =
      case.payload.elim "" fun payload => ", values: " ++ toZod pending payload := by
    cases case.payload with
    | none => rfl
    | some payload => simp [Part.written, written_zodParts]
  rw [zodCaseParts, written_enclosed, hvalues]
  rfl

lemma written_zodDefinitionParts (definition : Definition α) :
    written (zodDefinitionParts pending definition) = zodDefinition pending definition := by
  match definition with
  | .struct fields => exact written_zodObjectParts pending fields
  | .enum variants => simp [zodDefinitionParts, Part.written]
  | .union [] => rfl
  | .union [case] => exact written_zodCaseParts pending case
  | .union (case :: case' :: cases) =>
    simp [zodDefinitionParts, zodDefinition, written_zodCaseParts]

lemma written_zodTypeParts (decl : TypeDecl α) :
    written (zodTypeParts pending decl) = zodType pending decl := by
  have hname : "Schema = " = "Schema" ++ " = " := rfl
  rw [zodType, hname]
  simp only [zodTypeParts, written_cons, written_enclosed, Part.written, written_zodDefinitionParts,
    String.append_assoc]

lemma written_zodTypeBlocks (decls : List (TypeDecl α)) :
    (zodTypeBlocks pending decls).map (fun block => written block.2) = zodTypes pending decls := by
  induction decls generalizing pending with
  | nil => rfl
  | cons decl rest ih => rw [zodTypeBlocks, List.map_cons, ih, written_zodTypeParts, zodTypes]

lemma written_zodParametersParts? (function : FunctionDecl α) :
    (zodParametersParts? function).map written = zodParameters? function := by
  rw [zodParametersParts?, zodParameters?]
  split
  · rfl
  · have hname : "ParamsSchema = " = "ParamsSchema" ++ " = " := rfl
    rw [hname]
    simp only [Option.map_some, written_cons, written_enclosed, Part.written,
      written_zodObjectParts, String.append_assoc]

/-- **The layouts of the schemas are what the module is made of.** -/
theorem zodModule_eq_written (spec : Spec α) :
    zodModule spec = "\n".intercalate (zodHeader :: (zodBlocks spec).map written) := by
  have hparameters : (spec.functions.filterMap zodParametersParts?).map written =
      spec.functions.filterMap zodParameters? := by
    rw [List.map_filterMap]
    exact congrArg (fun f => spec.functions.filterMap f) (funext written_zodParametersParts?)
  rw [zodModule, zodBlocks, List.map_append, hparameters, List.map_map]
  exact congrArg (fun types => "\n".intercalate (zodHeader :: (types ++ _)))
    (written_zodTypeBlocks _ _).symm

end Written

/-! ### What a block mentions and declares -/

section Mentioned

variable (pending : List String)

lemma mentioned_zodFieldParts (field : FieldDecl α) :
    mentioned (zodFieldParts pending field) =
      (shownNames field.type).map fun name => (name, decide (name ∈ pending)) := by
  simp [zodFieldParts, mentioned_typeParts]

lemma mentioned_zodObjectParts (fields : List (FieldDecl α)) :
    mentioned (zodObjectParts pending fields) =
      (fields.flatMap (shownNames ·.type)).map fun name => (name, decide (name ∈ pending)) := by
  rw [zodObjectParts]
  split
  · rename_i hnone
    rw [List.isEmpty_iff.1 hnone]
    rfl
  · simp [mentioned_zodFieldParts, List.map_flatMap]

lemma mentioned_zodCaseParts (case : Case α) :
    mentioned (zodCaseParts pending case) =
      (case.payload.toList.flatMap shownNames).map fun name => (name, decide (name ∈ pending)) := by
  simp [zodCaseParts, mentioned_typeParts, List.map_flatMap]

/-- The block of a declared type mentions what its fields or its cases show, and puts off what is
pending. -/
lemma mentioned_zodTypeParts (decl : TypeDecl α) :
    mentioned (zodTypeParts pending decl) =
      (decl.types.flatMap shownNames).map fun name => (name, decide (name ∈ pending)) := by
  simp only [zodTypeParts, mentioned_text, mentioned_declares, mentioned_enclosed, TypeDecl.types]
  match decl.definition with
  | .struct fields => simp [zodDefinitionParts, mentioned_zodObjectParts, List.flatMap_map]
  | .enum variants => simp [zodDefinitionParts]
  | .union [] => simp [zodDefinitionParts]
  | .union [case] => simp [zodDefinitionParts, mentioned_zodCaseParts, flatMap_shownNames_payload]
  | .union (case :: case' :: cases) =>
    simp [zodDefinitionParts, mentioned_zodCaseParts, flatMap_shownNames_payload, List.map_flatMap]

lemma declared_zodObjectParts (fields : List (FieldDecl α)) :
    declared (zodObjectParts pending fields) = [] := by
  rw [zodObjectParts]
  split
  · rfl
  · simp [zodFieldParts]

lemma declared_zodCaseParts (case : Case α) : declared (zodCaseParts pending case) = [] := by
  simp [zodCaseParts]

/-- The block of a declared type declares the schema of this type. -/
lemma declared_zodTypeParts (decl : TypeDecl α) :
    declared (zodTypeParts pending decl) = [Label.shown decl.name ++ "Schema"] := by
  simp only [zodTypeParts, declared_text, declared_declares, declared_enclosed]
  match decl.definition with
  | .struct fields => simp [zodDefinitionParts, declared_zodObjectParts]
  | .enum variants => simp [zodDefinitionParts]
  | .union [] => simp [zodDefinitionParts]
  | .union [case] => simp [zodDefinitionParts, declared_zodCaseParts]
  | .union (case :: case' :: cases) => simp [zodDefinitionParts, declared_zodCaseParts]

end Mentioned

/-- The block of the parameters of a function mentions what these show, and puts nothing off. -/
lemma mentioned_zodParametersParts? {function : FunctionDecl α} {parts : List Part}
    (h : zodParametersParts? function = some parts) :
    mentioned parts =
      (function.inputs.flatMap (shownNames ·.type)).map fun name => (name, false) := by
  rw [zodParametersParts?] at h
  split at h
  · cases h
  · rw [← Option.some.inj h]
    simp [mentioned_zodObjectParts]

/-! ### Blocks in order -/

/-- Each declared type has its block, in the order of the declarations. -/
lemma map_fst_zodTypeBlocks (pending : List String) (decls : List (TypeDecl α)) :
    (zodTypeBlocks pending decls).map (·.1) = decls := by
  induction decls generalizing pending with
  | nil => rfl
  | cons decl rest ih => rw [zodTypeBlocks, List.map_cons, ih]

/-- Behind some blocks, what is pending is what was pending and is not declared in them. -/
lemma zodTypeBlocks_eq_append {pending : List String} {decls : List (TypeDecl α)}
    {front back : List (TypeDecl α × List Part)} {decl : TypeDecl α} {parts : List Part}
    (h : zodTypeBlocks pending decls = front ++ (decl, parts) :: back) :
    ∃ pending', parts = zodTypeParts pending' decl ∧
      ∀ name, name ∈ pending' ↔
        name ∈ pending ∧ ∀ block ∈ front, ¬Label.isNamed block.1.name name := by
  induction front generalizing pending decls with
  | nil =>
    cases decls with
    | nil => cases h
    | cons first rest =>
      rw [zodTypeBlocks, List.nil_append] at h
      obtain ⟨hblock, -⟩ := List.cons.inj h
      obtain ⟨rfl, rfl⟩ := Prod.mk.inj hblock
      exact ⟨pending, rfl, fun name => by simp⟩
  | cons block front ih =>
    cases decls with
    | nil => cases h
    | cons first rest =>
      rw [zodTypeBlocks, List.cons_append] at h
      obtain ⟨rfl, hrest⟩ := List.cons.inj h
      obtain ⟨pending', hparts, hpending⟩ := ih hrest
      refine ⟨pending', hparts, fun name => ?_⟩
      rw [hpending, List.mem_filter, List.forall_mem_cons, and_assoc, Bool.not_eq_true']
      simp

section Spec

variable {spec : Spec} {front back : List (TypeDecl × List Part)} {user : TypeDecl}
  {parts : List Part} {name : String} {deferred : Bool}

/-- A type is put off in the block of another one if it is declared, but not above. -/
lemma deferred_iff (hsplit : zodBlocksOfTypes spec = front ++ (user, parts) :: back)
    (hmention : (name, deferred) ∈ mentioned parts) :
    deferred = true ↔
      name ∈ spec.types.map (·.name) ∧ ∀ block ∈ front, block.1.name ≠ name := by
  obtain ⟨pending, rfl, hpending⟩ := zodTypeBlocks_eq_append hsplit
  rw [mentioned_zodTypeParts] at hmention
  obtain ⟨shown, -, hshown⟩ := List.mem_map.1 hmention
  obtain ⟨rfl, rfl⟩ := Prod.mk.inj hshown
  have hnames : spec.types.filterMap (Label.text? ·.name) = spec.types.map (·.name) := by
    rw [← List.filterMap_eq_map]
    rfl
  rw [decide_eq_true_iff, hpending, hnames]
  simp

/-- A block mentions what its type mentions. -/
lemma mentions_of_mem_mentioned {target : TypeDecl}
    (hsplit : zodBlocksOfTypes spec = front ++ (user, parts) :: back)
    (htarget : target ∈ spec.types) (hmention : (target.name, deferred) ∈ mentioned parts) :
    Mentions spec.types user target := by
  obtain ⟨pending, rfl, -⟩ := zodTypeBlocks_eq_append hsplit
  rw [mentioned_zodTypeParts] at hmention
  obtain ⟨shown, hshown, hsame⟩ := List.mem_map.1 hmention
  obtain ⟨rfl, -⟩ := Prod.mk.inj hsame
  obtain ⟨type, htype, hname⟩ := List.mem_flatMap.1 hshown
  exact ⟨htarget, target.name,
    List.mem_flatMap.2 ⟨type, htype, mem_customNames_of_mem_shownNames type hname⟩,
    decide_eq_true rfl⟩

/-- A type that is put off in the block of another one is mentioned there, and reaches it. -/
lemma reaches_of_deferred (hnames : (spec.types.map (·.name)).Nodup)
    (hsplit : zodBlocksOfTypes spec = front ++ (user, parts) :: back)
    (hmention : (name, true) ∈ mentioned parts) :
    ∃ target ∈ spec.types, target.name = name ∧ Mentions spec.types user target ∧
      TransGen (Mentions spec.types) target user := by
  obtain ⟨hdeclared, hfront⟩ := (deferred_iff hsplit hmention).1 rfl
  obtain ⟨target, htarget, rfl⟩ := List.mem_map.1 hdeclared
  have horder : dependencyOrder spec.types = front.map (·.1) ++ user :: back.map (·.1) := by
    rw [← map_fst_zodTypeBlocks _ (dependencyOrder spec.types)]
    exact (congrArg (List.map (·.1)) hsplit).trans List.map_append
  have hmentions := mentions_of_mem_mentioned hsplit htarget hmention
  refine ⟨target, htarget, rfl, hmentions, ?_⟩
  refine (before_or_reaches (nodup_keys hnames) horder hmentions).resolve_left fun hbefore => ?_
  obtain ⟨decl, hdecl, hkey⟩ := mem_keys.1 hbefore
  obtain ⟨block, hblock, rfl⟩ := List.mem_map.1 hdecl
  exact hfront block hblock (Label.Key.text.inj (Option.some.inj hkey))

/-- Each declared type has its block. -/
lemma map_fst_zodBlocksOfTypes_perm (hnames : (spec.types.map (·.name)).Nodup) :
    ((zodBlocksOfTypes spec).map (·.1)).Perm spec.types := by
  rw [zodBlocksOfTypes, map_fst_zodTypeBlocks]
  exact dependencyOrder_perm (nodup_keys hnames)

/-- Without cycles nothing is put off. -/
lemma deferred_eq_false_of_acyclic (hnames : (spec.types.map (·.name)).Nodup)
    (hacyclic : ∀ decl ∈ spec.types, ¬TransGen (Mentions spec.types) decl decl)
    {block : List Part} (hblock : block ∈ zodBlocks spec)
    (hmention : (name, deferred) ∈ mentioned block) : deferred = false := by
  rcases List.mem_append.1 hblock with htype | hfunction
  · obtain ⟨⟨user, parts⟩, hmem, rfl⟩ := List.mem_map.1 htype
    obtain ⟨front, back, hsplit⟩ := List.append_of_mem hmem
    have huser : user ∈ spec.types :=
      (map_fst_zodBlocksOfTypes_perm hnames).subset (List.mem_map_of_mem hmem)
    refine Bool.eq_false_iff.2 ?_
    rintro rfl
    obtain ⟨target, -, -, hmentions, hreach⟩ := reaches_of_deferred hnames hsplit hmention
    exact hacyclic user huser (.head hmentions hreach)
  · obtain ⟨function, -, hparts⟩ := List.mem_filterMap.1 hfunction
    rw [mentioned_zodParametersParts? hparts] at hmention
    obtain ⟨shown, -, hsame⟩ := List.mem_map.1 hmention
    exact (Prod.mk.inj hsame).2.symm

/-- **A reference to a schema stands behind the declaration of the schema, or is lazy.**  Let the
declared types of an interface have names of their own.  The module is the header and the blocks,
first those of the types, of which each has one, which declares its schema.  The block of a type
mentions just the declared names that occur in the type outside the errors of results.  A mention of
a declared type is bare if the block of that type stands above, and lazy otherwise; a name that no
type has is bare too.  A type that is mentioned lazily reaches the one that mentions it, so without
cycles nothing is lazy, and nothing is lazy in the parameters of a function. -/
theorem zodModule_declares_before_use (hnames : (spec.types.map (·.name)).Nodup) :
    zodModule spec = "\n".intercalate (zodHeader :: (zodBlocks spec).map written) ∧
    ((zodBlocksOfTypes spec).map (·.1)).Perm spec.types ∧
    (∀ front user parts back, zodBlocksOfTypes spec = front ++ (user, parts) :: back →
      declared parts = [user.name ++ "Schema"] ∧
      names parts = user.types.flatMap shownNames ∧
      ∀ name deferred, (name, deferred) ∈ mentioned parts →
        (name ∈ spec.types.map (·.name) →
          (deferred = false ↔ ∃ block ∈ front, block.1.name = name)) ∧
        (name ∉ spec.types.map (·.name) → deferred = false) ∧
        (deferred = true → ∃ target ∈ spec.types, target.name = name ∧
          TransGen (Mentions spec.types) target user)) ∧
    ((∀ decl ∈ spec.types, ¬TransGen (Mentions spec.types) decl decl) →
      ∀ block ∈ zodBlocks spec, ∀ mention ∈ mentioned block, mention.2 = false) ∧
    ∀ function ∈ spec.functions, ∀ parts, zodParametersParts? function = some parts →
      mentioned parts =
        (function.inputs.flatMap (shownNames ·.type)).map fun name => (name, false) := by
  refine ⟨zodModule_eq_written spec, map_fst_zodBlocksOfTypes_perm hnames, ?_,
    fun hacyclic block hblock mention hmention =>
      deferred_eq_false_of_acyclic hnames hacyclic hblock hmention,
    fun function _ parts hparts => mentioned_zodParametersParts? hparts⟩
  intro front user parts back hsplit
  obtain ⟨pending, hparts, -⟩ := zodTypeBlocks_eq_append hsplit
  refine ⟨?_, ?_, fun name deferred hmention => ⟨fun hdeclared => ?_, fun hother => ?_, ?_⟩⟩
  · rw [hparts, declared_zodTypeParts, Label.shown_string]
  · rw [hparts]
    exact names_eq_of_mentioned (mentioned_zodTypeParts pending user)
  · have hiff := deferred_iff hsplit hmention
    rw [← not_iff_not, Bool.not_eq_false, hiff]
    simp [hdeclared]
  · have hiff := deferred_iff hsplit hmention
    exact Bool.eq_false_iff.2 fun htrue => hother (hiff.1 htrue).1
  · rintro rfl
    obtain ⟨target, htarget, hname, -, hreach⟩ := reaches_of_deferred hnames hsplit hmention
    exact ⟨target, htarget, hname, hreach⟩

end Spec

/-- An interface with a cycle of types, one of which mentions itself and a name without a schema. -/
def cyclicSpec : Spec where
  name := none
  functions := [⟨"link", [⟨"node", .custom "Node", none⟩], none, none⟩]
  types := [
    ⟨"Node", .struct [⟨"next", .option (.custom "Edge"), none⟩], none⟩,
    ⟨"Edge", .union [⟨"To", some (.tuple [.custom "Node", .vec (.custom "Edge")]), none⟩,
      ⟨"Lost", some (.tuple [.custom "Unknown"]), none⟩], none⟩]
  errors := []
  rawEntries := []

theorem zodModule_declares_before_use_cyclic :
    (cyclicSpec.types.map (·.name)).Nodup ∧
      ∃ edge node, zodBlocksOfTypes cyclicSpec = [edge, node] ∧
        mentioned edge.2 = [("Node", true), ("Edge", true), ("Unknown", false)] ∧
        mentioned node.2 = [("Edge", false)] ∧
        ∃ target ∈ cyclicSpec.types, target.name = "Node" ∧
          TransGen (Mentions cyclicSpec.types) target edge.1 := by
  have hnames : (cyclicSpec.types.map (·.name)).Nodup := by decide
  have hmentioned : (zodBlocksOfTypes cyclicSpec).map (fun block => mentioned block.2) =
      [[("Node", true), ("Edge", true), ("Unknown", false)], [("Edge", false)]] := by
    decide +kernel
  obtain ⟨edge, node, hsplit⟩ : ∃ edge node, zodBlocksOfTypes cyclicSpec = [edge, node] :=
    ⟨_, _, rfl⟩
  rw [hsplit] at hmentioned
  obtain ⟨hedge, hrest⟩ := List.cons.inj hmentioned
  obtain ⟨hnode, -⟩ := List.cons.inj hrest
  obtain ⟨-, -, hblocks, -⟩ := zodModule_declares_before_use hnames
  obtain ⟨-, -, hmentions⟩ := hblocks [] edge.1 edge.2 [node] hsplit
  have hlazy : ("Node", true) ∈ mentioned edge.2 := by
    rw [show mentioned edge.2 = _ from hedge]
    exact List.mem_cons_self
  exact ⟨hnames, edge, node, hsplit, hedge, hnode, (hmentions "Node" true hlazy).2.2 rfl⟩

end ContractInterface.Schema
