/-
# Names that are mentioned, and names that are declared

An interface declares the names of its types and of its error enumerations.  The main result is

* `dangling?_eq_none_iff`: nothing dangles if and only if every name that is mentioned, wherever and
  however deep, is declared.
-/
import Mathlib.Data.List.Basic
import ContractInterface.Spec

namespace ContractInterface.Spec

variable {spec : Spec} {name : String}

/-- The names of the error enumerations of an interface. -/
def errorNames (spec : Spec) : List String :=
  spec.errors.filterMap (·.enumName)

lemma mem_declaredNames_iff :
    name ∈ spec.declaredNames ↔
      name ∈ spec.types.map (·.name) ∨ name ∈ spec.errorNames ∧ name ≠ "" := by
  have hsame : (Label.same : String → String → Bool) = (· == ·) :=
    funext fun s => funext fun t => Label.same_string s t
  have hdeclared : spec.declaredNames =
      (spec.types.map (·.name) ++ spec.errorNames.filter Label.isGiven).eraseDups := by
    rw [declaredNames, hsame]
    rfl
  rw [hdeclared, List.mem_eraseDups, List.mem_append, List.mem_filter, Label.isGiven_string,
    bne_iff_ne]

/-- **Nothing dangles if and only if every name that is mentioned is declared.** -/
theorem dangling?_eq_none_iff :
    spec.dangling? = none ↔
      ∀ place type, (place, type) ∈ spec.uses → ∀ name ∈ type.customNames,
        name ∈ spec.declaredNames := by
  have hdeclared (name : String) :
      (spec.declaredNames.any fun label => Label.isNamed label name) = true ↔
        name ∈ spec.declaredNames := by
    rw [List.any_eq_true]
    simp
  rw [dangling?, List.findSome?_eq_none_iff, Prod.forall]
  refine forall₂_congr fun place type => imp_congr_right fun _ => ?_
  rw [Option.map_eq_none_iff, List.find?_eq_none]
  refine forall₂_congr fun name _ => ?_
  rw [Bool.not_eq_true', Bool.not_eq_false, hdeclared]

end ContractInterface.Spec
