/-
# Outlines of types

Every rendering of a type puts its text together from the texts of its parts, and shows a result
as what it holds on success.  The outline of a type is what is left to a rendering: a tree in which
results are replaced by what they hold, over the types without parts.  The main results are

* `Rendering.text_eq_fold`: each rendering folds the outline of a type;
* `Free.fold_eq_fold_iff`: a fold keeps outlines apart if what a layer builds shows the layer;
* `Reading.fold_eq_fold_iff`: so do texts that can be read as trees of such a kind.
-/
import Mathlib.Data.List.Basic
import Mathlib.Data.List.Forall2
import ContractInterface.Proofs.Schema.Layout
import ContractInterface.Target.Pydantic
import ContractInterface.Target.TypeScript
import ContractInterface.Target.Zod

namespace ContractInterface.Target

/-! ### Trees -/

/-- One layer of a tree: a way to put parts together. -/
inductive Layer (β : Type) where
  | option (inner : β)
  | vec (element : β)
  | map (key value : β)
  | tuple (members : List β)

namespace Layer

variable {α β γ : Type}

/-- What a layer puts together. -/
def parts : Layer β → List β
  | .option inner => [inner]
  | .vec element => [element]
  | .map key value => [key, value]
  | .tuple members => members

/-- A layer with something else in place of its parts. -/
def mapParts (f : α → β) : Layer α → Layer β
  | .option inner => .option (f inner)
  | .vec element => .vec (f element)
  | .map key value => .map (f key) (f value)
  | .tuple members => .tuple (members.map f)

/-- Two layers of one form with related parts. -/
inductive Rel (R : α → β → Prop) : Layer α → Layer β → Prop where
  | option {a : α} {b : β} (h : R a b) : Rel R (.option a) (.option b)
  | vec {a : α} {b : β} (h : R a b) : Rel R (.vec a) (.vec b)
  | map {a a' : α} {b b' : β} (h : R a b) (h' : R a' b') : Rel R (.map a a') (.map b b')
  | tuple {as : List α} {bs : List β} (h : List.Forall₂ R as bs) : Rel R (.tuple as) (.tuple bs)

lemma Rel.parts {R : α → β → Prop} {layer : Layer α} {layer' : Layer β} (h : Rel R layer layer') :
    List.Forall₂ R layer.parts layer'.parts := by
  cases h with
  | option h | vec h => exact .cons h .nil
  | map h h' => exact .cons h (.cons h' .nil)
  | tuple h => exact h

@[simp] lemma parts_mapParts (f : α → β) (layer : Layer α) :
    (layer.mapParts f).parts = layer.parts.map f := by
  cases layer <;> rfl

lemma mapParts_mapParts (f : α → β) (g : β → γ) (layer : Layer α) :
    (layer.mapParts f).mapParts g = layer.mapParts (g ∘ f) := by
  cases layer <;> simp [mapParts]

lemma mapParts_congr {f g : α → β} {layer : Layer α} (h : ∀ part ∈ layer.parts, f part = g part) :
    layer.mapParts f = layer.mapParts g := by
  cases layer <;> simp_all [mapParts, parts]

lemma rel_mapParts {R : β → γ → Prop} {f : α → β} {g : α → γ} {layer : Layer α}
    (h : ∀ part ∈ layer.parts, R (f part) (g part)) :
    Rel R (layer.mapParts f) (layer.mapParts g) := by
  cases layer with
  | option inner => exact .option (h inner List.mem_cons_self)
  | vec element => exact .vec (h element List.mem_cons_self)
  | map key value =>
    exact .map (h key List.mem_cons_self) (h value (List.mem_cons_of_mem _ List.mem_cons_self))
  | tuple members =>
    exact .tuple (List.forall₂_map_left_iff.mpr (List.forall₂_map_right_iff.mpr
      (List.forall₂_same.mpr h)))

/-- Two functions that agree on which members are the same agree on which lists are. -/
lemma map_eq_map_iff_of_agree {f : α → β} {g : α → γ} {as bs : List α}
    (h : ∀ a ∈ as, ∀ b ∈ bs, f a = f b ↔ g a = g b) :
    as.map f = bs.map f ↔ as.map g = bs.map g := by
  induction as generalizing bs with
  | nil => simp
  | cons a as ih =>
    cases bs with
    | nil => simp
    | cons b bs =>
      simp only [List.map_cons, List.cons.injEq]
      rw [h a List.mem_cons_self b List.mem_cons_self, ih fun a ha b hb =>
        h a (List.mem_cons_of_mem _ ha) b (List.mem_cons_of_mem _ hb)]

/-- Two functions that agree on which parts are the same agree on which layers are. -/
lemma mapParts_eq_mapParts_iff {f : α → β} {g : α → γ} {layer layer' : Layer α}
    (h : ∀ a ∈ layer.parts, ∀ b ∈ layer'.parts, f a = f b ↔ g a = g b) :
    layer.mapParts f = layer'.mapParts f ↔ layer.mapParts g = layer'.mapParts g := by
  cases layer <;> cases layer'
  case tuple.tuple =>
    simp only [mapParts, tuple.injEq]
    exact map_eq_map_iff_of_agree h
  all_goals simp_all [mapParts, parts]

end Layer

/-- A tree of layers. -/
inductive Outline (α : Type) where
  | leaf (x : α)
  | node (layer : Layer (Outline α))

namespace Outline

section Fold

variable {α β γ : Type}

/-- A property of all trees, by what trees are made of. -/
@[elab_as_elim, induction_eliminator]
theorem induction {motive : Outline α → Prop} (leaf : ∀ x, motive (.leaf x))
    (node : ∀ layer, (∀ part ∈ layer.parts, motive part) → motive (.node layer)) :
    ∀ tree, motive tree
  | .leaf x => leaf x
  | .node (.option inner) =>
    node (.option inner) (by simpa [Layer.parts] using induction leaf node inner)
  | .node (.vec element) =>
    node (.vec element) (by simpa [Layer.parts] using induction leaf node element)
  | .node (.map key value) => node (.map key value) (by
    simpa [Layer.parts] using ⟨induction leaf node key, induction leaf node value⟩)
  | .node (.tuple members) => node (.tuple members) fun member hmember =>
    have : member ∈ members := hmember
    induction leaf node member

mutual

/-- The value of a tree, given the values of leaves and how a layer is built from values. -/
def fold (leaf : α → β) (build : Layer β → β) : Outline α → β
  | .leaf x => leaf x
  | .node (.option inner) => build (.option (fold leaf build inner))
  | .node (.vec element) => build (.vec (fold leaf build element))
  | .node (.map key value) => build (.map (fold leaf build key) (fold leaf build value))
  | .node (.tuple members) => build (.tuple (folds leaf build members))

/-- The values of some trees. -/
def folds (leaf : α → β) (build : Layer β → β) : List (Outline α) → List β
  | [] => []
  | member :: members => fold leaf build member :: folds leaf build members

end

/-- A tree with something else at its leaves. -/
def relabel (f : α → β) : Outline α → Outline β :=
  fold (fun x => .leaf (f x)) .node

/-- What stands at the leaves of a tree, in order. -/
def leaves : Outline α → List α :=
  fold (fun x => [x]) fun layer => layer.parts.flatten

section Lemmas

variable (leaf : α → β) (build : Layer β → β) (f : α → β) (x : α) (layer : Layer (Outline α))

lemma folds_eq_map (members : List (Outline α)) :
    folds leaf build members = members.map (fold leaf build) := by
  induction members with
  | nil => rfl
  | cons member members ih => rw [folds, ih, List.map_cons]

@[simp] lemma fold_leaf : fold leaf build (.leaf x) = leaf x := by rw [fold]

@[simp] lemma fold_node :
    fold leaf build (.node layer) = build (layer.mapParts (fold leaf build)) := by
  cases layer with
  | tuple members => rw [fold, folds_eq_map, Layer.mapParts]
  | _ => rw [fold, Layer.mapParts]

@[simp] lemma relabel_leaf : relabel f (.leaf x) = .leaf (f x) := fold_leaf ..

@[simp] lemma relabel_node : relabel f (.node layer) = .node (layer.mapParts (relabel f)) :=
  fold_node ..

@[simp] lemma leaves_leaf : leaves (.leaf x) = [x] := fold_leaf ..

@[simp] lemma leaves_node : leaves (.node layer) = layer.parts.flatMap leaves := by
  rw [leaves, fold_node, Layer.parts_mapParts, List.flatMap]

/-- A relabelled tree has the value of the tree that it was, by what the new labels mean. -/
@[simp] lemma fold_relabel (leaf : β → γ) (build : Layer γ → γ) (tree : Outline α) :
    fold leaf build (relabel f tree) = fold (leaf ∘ f) build tree := by
  induction tree with
  | leaf x => simp
  | node layer ih =>
    rw [relabel_node, fold_node, fold_node, Layer.mapParts_mapParts]
    exact congrArg build (Layer.mapParts_congr ih)

lemma leaves_relabel (tree : Outline α) : leaves (relabel f tree) = (leaves tree).map f := by
  induction tree with
  | leaf x => simp
  | node layer ih =>
    rw [relabel_node, leaves_node, leaves_node, Layer.parts_mapParts, List.flatMap_map,
      List.map_flatMap]
    exact List.flatMap_congr ih

end Lemmas

end Fold

end Outline

/-! ### Folds that keep trees apart -/

section Free

variable {α β γ : Type} {P : α → Prop} {leaf : α → β} {build : Layer β → β} {Ok : β → Prop}
  {x y : Outline α}

/-- What a layer builds shows the layer, and is nothing that a leaf is; `Ok` is what is known of
values, and `P` of what stands at leaves. -/
structure Free (P : α → Prop) (leaf : α → β) (build : Layer β → β) (Ok : β → Prop) : Prop where
  ok_leaf : ∀ {a : α}, P a → Ok (leaf a)
  ok_build : ∀ {layer : Layer β}, (∀ part ∈ layer.parts, Ok part) → Ok (build layer)
  injective : ∀ {layer layer' : Layer β}, (∀ part ∈ layer.parts, Ok part) →
    (∀ part ∈ layer'.parts, Ok part) → build layer = build layer' → layer = layer'
  build_ne_leaf : ∀ {layer : Layer β} {a : α}, (∀ part ∈ layer.parts, Ok part) → P a →
    build layer ≠ leaf a

namespace Free

lemma ok_fold (h : Free P leaf build Ok) (hx : ∀ a ∈ x.leaves, P a) :
    Ok (x.fold leaf build) := by
  induction x with
  | leaf a => simpa using h.ok_leaf (hx a (by simp))
  | node layer ih =>
    rw [Outline.fold_node]
    refine h.ok_build ?_
    simp only [Outline.leaves_node, List.mem_flatMap] at hx
    simpa using fun part hpart => ih part hpart fun a ha => hx a ⟨part, hpart, ha⟩

/-- **Two trees have the same value exactly if they are the same up to leaves of one value.** -/
theorem fold_eq_fold_iff (h : Free P leaf build Ok) {g : α → γ}
    (hg : ∀ {a b : α}, P a → P b → (leaf a = leaf b ↔ g a = g b)) (hx : ∀ a ∈ x.leaves, P a)
    (hy : ∀ a ∈ y.leaves, P a) :
    x.fold leaf build = y.fold leaf build ↔ x.relabel g = y.relabel g := by
  have hok {layer : Layer (Outline α)} (hlayer : ∀ a ∈ (Outline.node layer).leaves, P a) :
      ∀ part ∈ (layer.mapParts (Outline.fold leaf build)).parts, Ok part := by
    simp only [Outline.leaves_node, List.mem_flatMap] at hlayer
    simpa using fun part hpart => h.ok_fold fun a ha => hlayer a ⟨part, hpart, ha⟩
  induction x generalizing y with
  | leaf a =>
    cases y with
    | leaf b => simpa using hg (hx a (by simp)) (hy b (by simp))
    | node layer' =>
      simpa using (h.build_ne_leaf (hok hy) (hx a (by simp))).symm
  | node layer ih =>
    cases y with
    | leaf b => simpa using h.build_ne_leaf (hok hx) (hy b (by simp))
    | node layer' =>
      have hbuild : build (layer.mapParts (Outline.fold leaf build)) =
          build (layer'.mapParts (Outline.fold leaf build)) ↔
            layer.mapParts (Outline.fold leaf build) = layer'.mapParts (Outline.fold leaf build) :=
        ⟨h.injective (hok hx) (hok hy), congrArg build⟩
      simp only [Outline.leaves_node, List.mem_flatMap] at hx hy
      simp only [Outline.fold_node, Outline.relabel_node, hbuild, Outline.node.injEq]
      exact Layer.mapParts_eq_mapParts_iff fun part hpart part' hpart' =>
        ih part hpart (fun a ha => hx a ⟨part, hpart, ha⟩) fun a ha => hy a ⟨part', hpart', ha⟩

/-- Trees are themselves such values. -/
lemma of_node (P : α → Prop) (f : α → γ) :
    Free P (fun a => Outline.leaf (f a)) Outline.node fun _ => True where
  ok_leaf _ := trivial
  ok_build _ := trivial
  injective _ _ heq := Outline.node.inj heq
  build_ne_leaf _ _ := nofun

end Free

/-- Texts of trees that are read as values: no text is read as two values, and texts are put
together as values are. -/
structure Reading (P : α → Prop) (text : α → String) (write : Layer String → String)
    (Reads : String → β → Prop) (leaf : α → β) (build : Layer β → β) : Prop where
  unique : ∀ {s : String} {b b' : β}, Reads s b → Reads s b' → b = b'
  reads_leaf : ∀ {a : α}, P a → Reads (text a) (leaf a)
  reads_build : ∀ {layer : Layer String} {layer' : Layer β}, Layer.Rel Reads layer layer' →
    Reads (write layer) (build layer')

namespace Reading

variable {text : α → String} {write : Layer String → String} {Reads : String → β → Prop}

lemma reads_fold (h : Reading P text write Reads leaf build) (hx : ∀ a ∈ x.leaves, P a) :
    Reads (x.fold text write) (x.fold leaf build) := by
  induction x with
  | leaf a => simpa using h.reads_leaf (hx a (by simp))
  | node layer ih =>
    rw [Outline.fold_node, Outline.fold_node]
    simp only [Outline.leaves_node, List.mem_flatMap] at hx
    exact h.reads_build (Layer.rel_mapParts fun part hpart =>
      ih part hpart fun a ha => hx a ⟨part, hpart, ha⟩)

/-- **Two trees have the same text exactly if they are the same up to leaves of one text.** -/
theorem fold_eq_fold_iff (h : Reading P text write Reads leaf build)
    (hfree : Free P leaf build Ok) {g : α → γ}
    (hleaf : ∀ {a b : α}, P a → P b → leaf a = leaf b → text a = text b)
    (hg : ∀ {a b : α}, P a → P b → (text a = text b ↔ g a = g b)) (hx : ∀ a ∈ x.leaves, P a)
    (hy : ∀ a ∈ y.leaves, P a) :
    x.fold text write = y.fold text write ↔ x.relabel g = y.relabel g := by
  constructor
  · intro heq
    have hvalue : x.fold leaf build = y.fold leaf build :=
      h.unique (h.reads_fold hx) (heq ▸ h.reads_fold hy)
    refine (hfree.fold_eq_fold_iff (fun ha hb => ?_) hx hy).mp hvalue
    rw [← hg ha hb]
    exact ⟨hleaf ha hb, fun htext => h.unique (h.reads_leaf ha) (htext ▸ h.reads_leaf hb)⟩
  · intro heq
    have htext : x.relabel text = y.relabel text :=
      ((Free.of_node P text).fold_eq_fold_iff (fun ha hb => by simpa using hg ha hb) hx hy).mpr heq
    have hwrite := congrArg (Outline.fold id write) htext
    rwa [Outline.fold_relabel, Outline.fold_relabel] at hwrite

end Reading

end Free

/-! ### Renderings of types -/

/-- A type without parts. -/
inductive Leaf where
  | primitive (p : Primitive)
  | bytesN (size : Int)
  | custom (name : String)
deriving DecidableEq, Repr

/-- The type that a leaf is. -/
def Leaf.type : Leaf → TypeRef
  | .primitive p => .primitive p
  | .bytesN size => .bytesN size
  | .custom name => .custom name

/-- The declared name that a leaf is, if it is one. -/
def Leaf.name? : Leaf → Option String
  | .custom name => some name
  | _ => none

mutual

/-- The outline of a type: each result is replaced by what it holds on success. -/
def outline : TypeRef → Outline Leaf
  | .primitive p => .leaf (.primitive p)
  | .option inner => .node (.option (outline inner))
  | .result ok _ => outline ok
  | .vec element => .node (.vec (outline element))
  | .map key value => .node (.map (outline key) (outline value))
  | .tuple members => .node (.tuple (outlines members))
  | .bytesN size => .leaf (.bytesN size)
  | .custom name => .leaf (.custom name)

/-- The outlines of some types. -/
def outlines : List TypeRef → List (Outline Leaf)
  | [] => []
  | member :: members => outline member :: outlines members

end

/-- A text that is generated for a type: a TypeScript type, its validator, a Python type hint or
its annotation. -/
inductive Rendering where
  | typeScript
  | zod
  | python
  | pydantic
deriving DecidableEq, Repr

namespace Rendering

/-- The text of a type; validators refer to schemas that are defined already. -/
def text : Rendering → TypeRef → String
  | .typeScript => toTypeScript
  | .zod => toZod []
  | .python => toPython
  | .pydantic => toPydantic

/-- The text of a type without parts. -/
def leafText (r : Rendering) (x : Leaf) : String := r.text x.type

/-- A hint from the hints of the parts of a layer. -/
def writeHint : Layer String → String
  | .option inner => "Optional[" ++ inner ++ "]"
  | .vec element => "List[" ++ element ++ "]"
  | .map key value => "Dict[" ++ key ++ ", " ++ value ++ "]"
  | .tuple members => "Tuple[" ++ ", ".intercalate members ++ "]"

/-- The text of a layer from the texts of its parts. -/
def write : Rendering → Layer String → String
  | .typeScript, .option inner => inner ++ " | null"
  | .typeScript, .vec element => arrayOf element
  | .typeScript, .map key value => "Map<" ++ key ++ ", " ++ value ++ ">"
  | .typeScript, .tuple members => "[" ++ ", ".intercalate members ++ "]"
  | .zod, .option inner => inner ++ ".nullable()"
  | .zod, .vec element => "z.array(" ++ element ++ ")"
  | .zod, .map key value => "z.map(" ++ key ++ ", " ++ value ++ ")"
  | .zod, .tuple members => "z.tuple([" ++ ", ".intercalate members ++ "])"
  | .python, layer | .pydantic, layer => writeHint layer

mutual

lemma toTypeScript_eq_fold : ∀ type : TypeRef,
    toTypeScript type = (outline type).fold typeScript.leafText typeScript.write
  | .primitive p => rfl
  | .option inner => by rw [toTypeScript, outline, toTypeScript_eq_fold inner]; rfl
  | .result ok _ => by rw [toTypeScript, outline, toTypeScript_eq_fold ok]
  | .vec element => by rw [toTypeScript, outline, toTypeScript_eq_fold element]; rfl
  | .map key value => by
    rw [toTypeScript, outline, toTypeScript_eq_fold key, toTypeScript_eq_fold value]; rfl
  | .tuple members => by rw [toTypeScript, outline, toTypeScripts_eq_folds members]; rfl
  | .bytesN _ => rfl
  | .custom _ => rfl

lemma toTypeScripts_eq_folds : ∀ members : List TypeRef,
    toTypeScripts members = Outline.folds typeScript.leafText typeScript.write (outlines members)
  | [] => rfl
  | member :: members => by
    rw [toTypeScripts, outlines, Outline.folds, toTypeScript_eq_fold member,
      toTypeScripts_eq_folds members]

end

mutual

lemma toZod_eq_fold : ∀ type : TypeRef,
    toZod [] type = (outline type).fold zod.leafText zod.write
  | .primitive p => rfl
  | .option inner => by rw [toZod, outline, toZod_eq_fold inner]; rfl
  | .result ok _ => by rw [toZod, outline, toZod_eq_fold ok]
  | .vec element => by rw [toZod, outline, toZod_eq_fold element]; rfl
  | .map key value => by rw [toZod, outline, toZod_eq_fold key, toZod_eq_fold value]; rfl
  | .tuple members => by rw [toZod, outline, toZods_eq_folds members]; rfl
  | .bytesN _ => rfl
  | .custom _ => rfl

lemma toZods_eq_folds : ∀ members : List TypeRef,
    toZods [] members = Outline.folds zod.leafText zod.write (outlines members)
  | [] => rfl
  | member :: members => by
    rw [toZods, outlines, Outline.folds, toZod_eq_fold member, toZods_eq_folds members]

end

section Hints

variable (primitive : Primitive → String) (named : String → String)

mutual

lemma toHint_eq_fold : ∀ type : TypeRef, toHint primitive named type =
    (outline type).fold (fun x => toHint primitive named x.type) writeHint
  | .primitive p => rfl
  | .option inner => by rw [toHint, outline, toHint_eq_fold inner]; rfl
  | .result ok _ => by rw [toHint, outline, toHint_eq_fold ok]
  | .vec element => by rw [toHint, outline, toHint_eq_fold element]; rfl
  | .map key value => by rw [toHint, outline, toHint_eq_fold key, toHint_eq_fold value]; rfl
  | .tuple members => by rw [toHint, outline, toHints_eq_folds members]; rfl
  | .bytesN _ => rfl
  | .custom _ => rfl

lemma toHints_eq_folds : ∀ members : List TypeRef, toHints primitive named members =
    Outline.folds (fun x => toHint primitive named x.type) writeHint (outlines members)
  | [] => rfl
  | member :: members => by
    rw [toHints, outlines, Outline.folds, toHint_eq_fold member, toHints_eq_folds members]

end

end Hints

/-- **Each rendering folds the outline of a type.** -/
theorem text_eq_fold (r : Rendering) (type : TypeRef) :
    r.text type = (outline type).fold r.leafText r.write := by
  cases r with
  | typeScript => exact toTypeScript_eq_fold type
  | zod => exact toZod_eq_fold type
  | python => exact toHint_eq_fold _ _ type
  | pydantic => exact toHint_eq_fold _ _ type

end Rendering

mutual

/-- The names at the leaves of an outline are the names that are shown. -/
lemma shownNames_eq_filterMap_leaves : ∀ type : TypeRef,
    Schema.shownNames type = (outline type).leaves.filterMap Leaf.name?
  | .primitive p => by simp [Schema.shownNames, outline, Leaf.name?]
  | .option inner => by
    simp [Schema.shownNames, outline, Layer.parts, shownNames_eq_filterMap_leaves inner]
  | .result ok _ => by rw [Schema.shownNames, outline, shownNames_eq_filterMap_leaves ok]
  | .vec element => by
    simp [Schema.shownNames, outline, Layer.parts, shownNames_eq_filterMap_leaves element]
  | .map key value => by
    simp [Schema.shownNames, outline, Layer.parts, shownNames_eq_filterMap_leaves key,
      shownNames_eq_filterMap_leaves value]
  | .tuple members => by
    rw [Schema.shownNames, outline, Outline.leaves_node, Layer.parts,
      shownNamesOf_eq_filterMap_leaves members]
  | .bytesN size => by simp [Schema.shownNames, outline, Leaf.name?]
  | .custom name => by simp [Schema.shownNames, outline, Leaf.name?]

lemma shownNamesOf_eq_filterMap_leaves : ∀ members : List TypeRef,
    Schema.shownNamesOf members =
      ((outlines members).flatMap Outline.leaves).filterMap Leaf.name?
  | [] => rfl
  | member :: members => by
    rw [Schema.shownNamesOf, outlines, List.flatMap_cons, List.filterMap_append,
      shownNames_eq_filterMap_leaves member, shownNamesOf_eq_filterMap_leaves members]

end

lemma mem_customNames_of_mem_leaves {type : TypeRef} {name : String}
    (h : Leaf.custom name ∈ (outline type).leaves) : name ∈ type.customNames := by
  refine Schema.mem_customNames_of_mem_shownNames type ?_
  rw [shownNames_eq_filterMap_leaves]
  exact List.mem_filterMap.mpr ⟨_, h, rfl⟩

end ContractInterface.Target
