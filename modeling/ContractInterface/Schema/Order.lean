/-
# The order of declarations

Declared types are put in an order in which each follows the types it mentions, as far as cycles
allow, and which otherwise keeps the order of declaration.  A walk goes through the declarations
and first visits the types that a declaration mentions; on a cycle the type reached first comes
last.  Where a name is declared several times, a mention of it means the last declaration, and
only the first one that is visited is kept.
-/
import ContractInterface.Spec

namespace ContractInterface.Schema

variable {α : Type} [Label α]

/-- The declared types that a declaration mentions, in order, by their last declaration. -/
def dependencies (types : List (TypeDecl α)) (decl : TypeDecl α) : List (TypeDecl α) :=
  (decl.types.flatMap (·.customNames)).filterMap fun name =>
    types.reverse.find? fun decl => Label.isNamed decl.name name

/-- The state of a walk: the names visited so far, and the declarations done, in order. -/
structure Walk (α : Type := String) where
  seen : List (Option Label.Key)
  done : List (TypeDecl α)

/-- Visits a declaration, unless its name is visited already: first those it mentions, one after the
other.  The depth of a visit is bounded by `depth`; every level visits a new name, so the number of
declarations is depth enough. -/
def visit (types : List (TypeDecl α)) : (depth : Nat) → Walk α → TypeDecl α → Walk α
  | 0, walk, _ => walk
  | depth + 1, walk, decl =>
    if Label.key? decl.name ∈ walk.seen then walk
    else
      let walk := (dependencies types decl).foldl (visit types depth)
        ⟨Label.key? decl.name :: walk.seen, walk.done⟩
      ⟨walk.seen, walk.done ++ [decl]⟩

/-- Visits declarations one after the other. -/
def visitAll (types : List (TypeDecl α)) (depth : Nat) (walk : Walk α)
    (decls : List (TypeDecl α)) : Walk α :=
  decls.foldl (visit types depth) walk

/-- The declarations in an order in which each follows those it mentions, up to cycles. -/
def dependencyOrder (types : List (TypeDecl α)) : List (TypeDecl α) :=
  (visitAll types (types.length + 1) ⟨[], []⟩ types).done

end ContractInterface.Schema
