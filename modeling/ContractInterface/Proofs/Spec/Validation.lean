/-
# Checking references

An extraction may check that every name that the interface mentions is declared.  The check changes
nothing else: it comes last, and refuses the interface for the first name that is mentioned and not
declared, in the order of functions with their parameters and results, then of declared types, and
from left to right in each type.  The main results are

* `dangling?_eq_some_iff`: what is reported is the first mention of a name that is not declared;
* `extract_true_eq`: checking the references is a last step;
* `extract_checked`: each way in which an extraction with the check may end, told from the
  extraction without it.
-/
import ContractInterface.Proofs.Spec.References
import ContractInterface.Proofs.Spec.Reuse

namespace ContractInterface

/-! ### Names that are mentioned -/

namespace TypeRef

mutual

/-- The declared names in a type, from left to right. -/
def mentioned : TypeRef → List String
  | .primitive _ | .bytesN _ => []
  | .option inner | .vec inner => mentioned inner
  | .result ok err => mentioned ok ++ mentioned err
  | .map key value => mentioned key ++ mentioned value
  | .tuple members => mentionedBy members
  | .custom name => [name]

/-- The declared names in a list of types. -/
def mentionedBy : List TypeRef → List String
  | [] => []
  | member :: members => mentioned member ++ mentionedBy members

end

mutual

/-- The names among all types inside a type are those in it, from left to right. -/
lemma customNames_eq_mentioned : ∀ type : TypeRef, type.customNames = type.mentioned
  | .primitive _ | .bytesN _ | .custom _ => rfl
  | .option inner | .vec inner => customNames_eq_mentioned inner
  | .result ok err => by
    rw [customNames, nodes, List.filterMap_cons_none rfl, List.filterMap_append, mentioned,
      ← customNames_eq_mentioned ok, ← customNames_eq_mentioned err, customNames, customNames]
  | .map key value => by
    rw [customNames, nodes, List.filterMap_cons_none rfl, List.filterMap_append, mentioned,
      ← customNames_eq_mentioned key, ← customNames_eq_mentioned value, customNames, customNames]
  | .tuple members => filterMap_nodesOf_eq_mentionedBy members

lemma filterMap_nodesOf_eq_mentionedBy :
    ∀ members : List TypeRef, (nodesOf members).filterMap customName? = mentionedBy members
  | [] => rfl
  | member :: members => by
    rw [nodesOf, List.filterMap_append, mentionedBy, ← customNames_eq_mentioned member,
      ← filterMap_nodesOf_eq_mentionedBy members, customNames]

end

end TypeRef

namespace Spec

/-- The names that a function mentions: those in its parameters, then those in its result. -/
def functionMentions (function : FunctionDecl) : List (Place × String) :=
  (function.inputs.flatMap fun input =>
      input.type.mentioned.map fun name => (.input function.name input.name, name)) ++
    function.output.toList.flatMap fun output =>
      output.mentioned.map fun name => (.output function.name, name)

/-- The names that a declared type mentions: those in its fields, or in what its cases carry. -/
def typeMentions (decl : TypeDecl) : List (Place × String) :=
  match decl.definition with
  | .struct fields => fields.flatMap fun field =>
    field.type.mentioned.map fun name => (.declaration decl.name, name)
  | .enum _ => []
  | .union cases => cases.flatMap fun case =>
    case.payload.toList.flatMap fun payload =>
      payload.mentioned.map fun name => (.declaration decl.name, name)

/-- The names that an interface mentions, each with the place where it does. -/
def mentions (spec : Spec) : List (Place × String) :=
  spec.functions.flatMap functionMentions ++ spec.types.flatMap typeMentions

/-- The place of a reference, as it is reported. -/
def Place.referrer : Place → String
  | .input function parameter => function ++ "." ++ parameter
  | .output function => function ++ " -> output"
  | .declaration name => name

variable {spec : Spec} {found : Dangling}

/-- A name that is mentioned and not declared, behind others that are declared. -/
def FirstDangling (spec : Spec) (found : Dangling) : Prop :=
  found.name ∉ spec.declaredNames ∧
    ∃ front back, spec.mentions = front ++ (found.place, found.name) :: back ∧
      ∀ mention ∈ front, mention.2 ∈ spec.declaredNames

/-- The names in the types that an interface mentions are those that it mentions. -/
lemma flatMap_uses_eq_mentions (spec : Spec) :
    (spec.uses.flatMap fun (place, type) => type.customNames.map fun name => (place, name)) =
      spec.mentions := by
  simp only [TypeRef.customNames_eq_mentioned]
  rw [uses, List.flatMap_append, List.flatMap_assoc, List.flatMap_assoc, mentions]
  congr 1
  · refine List.flatMap_congr fun function _ => ?_
    rw [functionUses, List.flatMap_append, List.flatMap_map, List.flatMap_map, functionMentions]
  · refine List.flatMap_congr fun decl _ => ?_
    rw [List.flatMap_map, TypeDecl.types, typeMentions]
    cases decl.definition with
    | struct fields => exact List.flatMap_map ..
    | enum variants => rfl
    | union cases => simp only [List.filterMap_eq_flatMap_toList, List.flatMap_assoc]

lemma dangling?_eq_find? (spec : Spec) :
    spec.dangling? = (spec.mentions.find? fun mention => mention.2 ∉ spec.declaredNames).map
      fun mention => ⟨mention.2, mention.1⟩ := by
  have hdeclared (name : String) : (!spec.declaredNames.any (Label.isNamed · name)) =
      decide (name ∉ spec.declaredNames) := by
    rw [Bool.eq_iff_iff, Bool.not_eq_true', ← Bool.not_eq_true, List.any_eq_true,
      decide_eq_true_iff]
    simp
  rw [← flatMap_uses_eq_mentions, List.find?_flatMap, dangling?, List.map_findSome?]
  refine congrArg (List.findSome? · spec.uses) (funext fun use => ?_)
  simp only [hdeclared, Function.comp_apply, List.find?_map, Option.map_map]
  rfl

/-- **What is reported is the first mention of a name that is not declared.** -/
theorem dangling?_eq_some_iff : spec.dangling? = some found ↔ spec.FirstDangling found := by
  rw [dangling?_eq_find?, Option.map_eq_some_iff, FirstDangling]
  constructor
  · rintro ⟨⟨place, name⟩, hfind, rfl⟩
    obtain ⟨hname, front, back, hmentions, hfront⟩ := List.find?_eq_some_iff_append.1 hfind
    exact ⟨of_decide_eq_true hname, front, back, hmentions, by simpa using hfront⟩
  · rintro ⟨hname, front, back, hmentions, hfront⟩
    refine ⟨(found.place, found.name), List.find?_eq_some_iff_append.2 ?_, rfl⟩
    exact ⟨decide_eq_true hname, front, back, hmentions, by simpa using hfront⟩

/-- Nothing is reported if every name that is mentioned is declared. -/
lemma dangling?_eq_none_iff_mentions :
    spec.dangling? = none ↔ ∀ mention ∈ spec.mentions, mention.2 ∈ spec.declaredNames := by
  rw [dangling?_eq_find?, Option.map_eq_none_iff, List.find?_eq_none]
  simp

/-! ### The last step of an extraction -/

section Extraction

variable {wasm : Bytes}

/-- **Checking the references is a last step**, behind everything that an extraction does without
it. -/
theorem extract_true_eq (wasm : Bytes) :
    extract true wasm = do
      let spec ← extract false wasm
      checkReferences spec
      return spec := by
  have hfinish (collected : Collected) : Extractor.finish ⟨true, collected⟩ wasm = (do
      let spec ← Extractor.finish ⟨false, collected⟩ wasm
      checkReferences spec
      return spec) := by
    rw [Extractor.finish, Extractor.finish]
    cases contractName wasm <;> rfl
  rw [extract, extract, Extractor.extract, Extractor.extract]
  rcases Wasm.contentsOf wasm specSection with fault | _ | ⟨bytes, sections⟩
  · rfl
  · rfl
  · simp only [Extractor.fresh]
    rcases Collected.empty.readSections (bytes :: sections) with ⟨error | _, collected⟩
    · rfl
    · exact hfinish collected

/-- Nothing dangles where references are not checked. -/
lemma extract_false_ne_dangling (found : Dangling) :
    extract false wasm ≠ .error (.dangling found) := by
  intro h
  have hruns := (Extractor.fresh false).extract_runs wasm
  rw [← extract, h] at hruns
  cases hruns.arises with
  | entry _ _ _ hstops => cases hstops
  | metadata _ _ _ hfails => cases hfails
  | dangling hchecks => cases hchecks

/-- How an extraction ends with and without the check: it fails for the same reason, or it gives an
interface that is kept or refused. -/
lemma extract_cases (wasm : Bytes) :
    (∃ error, extract false wasm = .error error ∧ extract true wasm = .error error ∧
      ∀ found, error ≠ .dangling found) ∨
    (∃ spec, extract false wasm = .ok spec ∧ extract true wasm = .ok spec ∧
      spec.dangling? = none) ∨
    ∃ spec found, extract false wasm = .ok spec ∧ extract true wasm = .error (.dangling found) ∧
      spec.dangling? = some found := by
  have hlast := extract_true_eq wasm
  cases hplain : extract false wasm with
  | error error =>
    rw [hplain] at hlast
    refine .inl ⟨error, rfl, hlast, ?_⟩
    rintro found rfl
    exact extract_false_ne_dangling found hplain
  | ok spec =>
    have hchecked : extract true wasm = (checkReferences spec).map fun _ => spec := by
      rw [hlast, hplain]
      change (checkReferences spec >>= fun _ => pure spec) = _
      cases checkReferences spec <;> rfl
    rw [checkReferences] at hchecked
    cases hdangling : spec.dangling? with
    | none =>
      rw [hdangling] at hchecked
      exact .inr (.inl ⟨spec, rfl, hchecked, hdangling⟩)
    | some found =>
      rw [hdangling] at hchecked
      exact .inr (.inr ⟨spec, found, rfl, hchecked, hdangling⟩)

/-- Some name that is mentioned is not declared if and only if one of them is the first. -/
lemma exists_firstDangling_iff :
    (∃ found, spec.FirstDangling found) ↔
      ∃ mention ∈ spec.mentions, mention.2 ∉ spec.declaredNames := by
  simp only [← dangling?_eq_some_iff, ← Option.isSome_iff_exists, ← Option.ne_none_iff_isSome, Ne,
    dangling?_eq_none_iff_mentions]
  push Not
  rfl

/-- A dangling name is reported if an interface comes out without the check and the name is the
first one in it. -/
lemma extract_eq_dangling_iff {found : Dangling} :
    extract true wasm = .error (.dangling found) ↔
      ∃ spec, extract false wasm = .ok spec ∧ spec.FirstDangling found := by
  simp only [← dangling?_eq_some_iff]
  rcases extract_cases wasm with ⟨error, hplain, hchecked, hother⟩ |
    ⟨spec, hplain, hchecked, hnone⟩ | ⟨spec, first, hplain, hchecked, hsome⟩
  · simp [hplain, hchecked, hother]
  · simp [hplain, hchecked, hnone]
  · simp [hplain, hchecked, hsome]

/-- A dangling name is reported if an interface comes out without the check in which there is
one. -/
lemma exists_extract_eq_dangling_iff :
    (∃ found, extract true wasm = .error (.dangling found)) ↔
      ∃ spec, extract false wasm = .ok spec ∧
        ∃ mention ∈ spec.mentions, mention.2 ∉ spec.declaredNames := by
  simp only [extract_eq_dangling_iff, ← exists_firstDangling_iff]
  rw [exists_comm]
  simp only [exists_and_left]

lemma message_eq_referrer (found : Dangling) :
    found.message = "Type '" ++ found.name ++ "' referenced by '" ++ found.place.referrer ++
      "' is not declared in the contract spec" := by
  obtain ⟨name, place⟩ := found
  cases place <;> rfl

/-- **Checking references only filters.**  With the check an interface comes out just if the same
one comes out without it and every name that it mentions is declared.  A dangling name is reported
just if an interface comes out without the check and the name is the first in it that is mentioned
and not declared; there is one if any name is so.  All other failures are those without the
check. -/
theorem extract_checked (wasm : Bytes) :
    (∀ spec, extract true wasm = .ok spec ↔ extract false wasm = .ok spec ∧
      ∀ mention ∈ spec.mentions, mention.2 ∈ spec.declaredNames) ∧
    (∀ found, extract true wasm = .error (.dangling found) ↔
      ∃ spec, extract false wasm = .ok spec ∧ spec.FirstDangling found) ∧
    ((∃ found, extract true wasm = .error (.dangling found)) ↔
      ∃ spec, extract false wasm = .ok spec ∧
        ∃ mention ∈ spec.mentions, mention.2 ∉ spec.declaredNames) ∧
    (∀ error, (extract true wasm = .error error ∧ ∀ found, error ≠ .dangling found) ↔
      extract false wasm = .error error) ∧
    ∀ found : Dangling, (ExtractionError.dangling found).message =
      "Type '" ++ found.name ++ "' referenced by '" ++ found.place.referrer ++
        "' is not declared in the contract spec" := by
  refine ⟨fun spec => ?_, fun found => extract_eq_dangling_iff, exists_extract_eq_dangling_iff,
    fun error => ?_, message_eq_referrer⟩
  · rw [← dangling?_eq_none_iff_mentions]
    rcases extract_cases wasm with ⟨error, hplain, hchecked, -⟩ |
      ⟨kept, hplain, hchecked, hnone⟩ | ⟨refused, first, hplain, hchecked, hsome⟩
    · simp [hplain, hchecked]
    · rw [hplain, hchecked]
      exact ⟨fun h => ⟨h, Except.ok.inj h ▸ hnone⟩, And.left⟩
    · simp only [hplain, hchecked, reduceCtorEq, Except.ok.injEq, false_iff, not_and]
      rintro rfl
      simp [hsome]
  · rcases extract_cases wasm with ⟨other, hplain, hchecked, hother⟩ |
      ⟨spec, hplain, hchecked, -⟩ | ⟨spec, first, hplain, hchecked, -⟩
    · rw [hplain, hchecked]
      exact ⟨And.left, fun h => ⟨h, Except.error.inj h ▸ hother⟩⟩
    · simp [hplain, hchecked]
    · simp only [hplain, hchecked, reduceCtorEq, Except.error.injEq, iff_false, not_and]
      rintro rfl hother
      exact hother first rfl

/-- A function and a structure that mention three names, one of which is declared. -/
def looseEntries : List Entry :=
  [.function [] [102] [⟨[], [97], .vec (.udt [83])⟩, ⟨[], [98], .map (.simple .u32) (.udt [66])⟩]
      (some (.udt [65])),
    .struct ⟨[], [], [83]⟩ [⟨[], [99], .udt [67]⟩]]

/-- The custom section of a module that holds both. -/
def looseCustoms : List Wasm.CustomSection :=
  [⟨specSection, encodeEntries looseEntries⟩]

/-- The first of three names that are not declared is reported: neither the one in the result of the
function nor the one in the structure. -/
theorem extract_checked_loose :
    extract true (Wasm.encode (looseCustoms.map (·.toSection))) =
      .error (.dangling ⟨"B", .input "f" "b"⟩) := by
  have hfits : ∀ custom ∈ looseCustoms, custom.Fits := by decide +kernel
  have hfound := Wasm.contentsOf_encode_customs hfits
  have hplain : extract false (Wasm.encode (looseCustoms.map (·.toSection))) =
      .ok ((Collected.empty.gather looseEntries).toSpec none) :=
    extract_eq_ok.2 ⟨[looseEntries], none, by simp, by decide, hfound specSection,
      contractName_eq_ok.2 ⟨_, hfound metaSection, rfl⟩, rfl, nofun⟩
  exact ((extract_checked _).2.1 _).2 ⟨_, hplain, by decide, [(.input "f" "a", "S")], _, rfl,
    by decide⟩

end Extraction

end Spec

end ContractInterface
