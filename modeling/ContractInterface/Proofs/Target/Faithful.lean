/-
# Renderings are faithful

Two types have the same text in a rendering exactly if they are the same after each result is
replaced by what it holds and each type without parts by the one that the rendering has its word
from: the brackets, the separators and the marks of options cannot be mistaken, however types are
nested.  The main results are

* `Rendering.leafText_eq_iff`: which types without parts have one text;
* `Rendering.leafText_eq_number_iff`: which types without parts are validated as native numbers;
* `Rendering.text_eq_iff`: which types have one text, and that no wide integer has the validator
  of a native number.
-/
import Mathlib.Data.List.Nodup
import ContractInterface.Proofs.Json.Scalars
import ContractInterface.Proofs.Target.Brackets
import ContractInterface.Proofs.Target.Grammar
import ContractInterface.Proofs.Target.Outline

namespace ContractInterface.Target

namespace Rendering

/-! ### Types without parts -/

/-- The words of a rendering that the name of a declared type could be mistaken for.  Schemas have
names of their own, which end in a word that no other text ends in. -/
def keywords : Rendering → List String
  | .typeScript => ["boolean", "void", "number", "bigint", "string"]
  | .python => ["bool", "None", "int", "str", "bytes"]
  | .zod | .pydantic => []

/-- One of the types without parts that have the text of a given one. -/
def merge : Rendering → Leaf → Leaf
  | .typeScript, .primitive p =>
    match p with
    | .status | .u32 | .i32 => .primitive .u32
    | .u64 | .i64 | .timepoint | .duration | .u128 | .i128 | .u256 | .i256 => .primitive .u64
    | .bytes | .string | .symbol | .address => .primitive .string
    | .bool | .void => .primitive p
  | .zod, .primitive p =>
    match p with
    | .status | .u32 | .i32 => .primitive .u32
    | .u64 | .i64 | .timepoint | .duration | .u128 | .i128 | .u256 | .i256 | .bytes | .string
    | .symbol => .primitive .string
    | .address => .bytesN 28
    | .bool | .void => .primitive p
  | .python, .primitive p =>
    match p with
    | .status | .u32 | .i32 | .u64 | .i64 | .timepoint | .duration => .primitive .u32
    | .u128 | .i128 | .u256 | .i256 | .string | .symbol | .address => .primitive .string
    | .bool | .void | .bytes => .primitive p
  | .pydantic, .primitive p =>
    match p with
    | .status | .u32 | .i32 => .primitive .u32
    | .u64 | .i64 | .timepoint | .duration | .u128 | .i128 | .u256 | .i256 | .bytes | .string
    | .symbol | .address => .primitive .string
    | .bool | .void => .primitive p
  | .typeScript, .bytesN _ | .python, .bytesN _ | .pydantic, .bytesN _ => .primitive .string
  | .zod, .bytesN size => .bytesN size
  | _, .custom name => .custom name

/-- A name that a rendering keeps apart from its own words. -/
structure Allows (r : Rendering) (name : String) : Prop where
  isWord : IsWord name
  not_mem : name ∉ r.keywords

instance (r : Rendering) (name : String) : Decidable (r.Allows name) :=
  decidable_of_iff (IsWord name ∧ name ∉ r.keywords)
    ⟨fun ⟨hword, hmem⟩ => ⟨hword, hmem⟩, fun ⟨hword, hmem⟩ => ⟨hword, hmem⟩⟩

/-- A type without parts whose name, if it has one, is kept apart. -/
def AllowsLeaf (r : Rendering) (x : Leaf) : Prop :=
  ∀ name ∈ x.name?, r.Allows name

/-- The types without parts that no other one is merged into. -/
inductive Canonical (r : Rendering) : Leaf → Prop where
  | primitive {p : Primitive} (h : r.merge (.primitive p) = .primitive p) :
      Canonical r (.primitive p)
  | bytesN {size : Int} (h : r = .zod) : Canonical r (.bytesN size)
  | custom (name : String) : Canonical r (.custom name)

section Leaf

variable {r : Rendering} {x y : Leaf}

lemma leafText_merge (r : Rendering) (x : Leaf) : r.leafText (r.merge x) = r.leafText x := by
  cases r <;> cases x with
  | primitive p => cases p <;> rfl
  | bytesN size => rfl
  | custom name => rfl

lemma canonical_merge (r : Rendering) (x : Leaf) : r.Canonical (r.merge x) := by
  cases r <;> cases x with
  | primitive p => cases p <;> first | exact .primitive rfl | exact .bytesN rfl
  | bytesN size => first | exact .primitive rfl | exact .bytesN rfl
  | custom name => exact .custom name

lemma AllowsLeaf.merge (h : r.AllowsLeaf x) : r.AllowsLeaf (r.merge x) := by
  cases r <;> cases x with
  | primitive p => cases p <;> nofun
  | bytesN size => nofun
  | custom name => exact h

/-- Texts of different canonical primitive types differ. -/
lemma primitive_eq_of_leafText_eq {p q : Primitive} (hp : r.merge (.primitive p) = .primitive p)
    (hq : r.merge (.primitive q) = .primitive q)
    (h : r.leafText (.primitive p) = r.leafText (.primitive q)) : p = q := by
  have hnodup : ((Primitive.all.filter fun p => r.merge (.primitive p) = .primitive p).map
      fun p => r.leafText (.primitive p)).Nodup := by cases r <;> decide
  have hmem {p : Primitive} (hp : r.merge (.primitive p) = .primitive p) :
      p ∈ Primitive.all.filter fun p => r.merge (.primitive p) = .primitive p :=
    List.mem_filter.mpr ⟨by cases p <;> decide, decide_eq_true hp⟩
  exact List.inj_on_of_nodup_map hnodup (hmem hp) (hmem hq) h

/-- The name of a declared type is kept apart from the words for primitive types. -/
lemma leafText_custom_ne_primitive {name : String} (h : r.Allows name) (p : Primitive) :
    r.leafText (.custom name) ≠ r.leafText (.primitive p) := by
  have hschema {word : String} (hword : ¬"Schema".toList <:+ word.toList) :
      name ++ "Schema" ≠ word := by
    rintro rfl
    exact hword ⟨name.toList, by rw [String.toList_append]⟩
  cases r with
  | typeScript | python =>
    refine fun heq => h.not_mem ?_
    rw [show name = _ from heq]
    cases p <;> decide
  | zod | pydantic => exact hschema (by cases p <;> decide)

lemma toList_zodText (n : Int) :
    (zodText n).toList = "z.string().length(".toList ++ ((toString n).toList ++ [')']) := by
  rw [← List.append_assoc, ← String.toList_append]
  exact String.toList_append

/-- The length that texts are checked for is read off. -/
lemma zodText_inj {m n : Int} (h : zodText m = zodText n) : m = n := by
  have hdigits : (toString m).toList ++ [')'] = (toString n).toList ++ [')'] := by
    rw [← List.append_cancel_left_eq, ← toList_zodText, ← toList_zodText, h]
  have hend : Json.EndsNumber [')'] := Json.endsNumber_cons rfl
  have hread := Json.readNumber?_append m hend
  rw [hdigits, Json.readNumber?_append n hend] at hread
  simpa using hread.symm

lemma zodText_ne_of_canonical {p : Primitive} (hp : zod.merge (.primitive p) = .primitive p)
    (n : Int) : zodText n ≠ Primitive.toZod p := by
  intro h
  have hfront : "z.string().length(".toList <+: (Primitive.toZod p).toList := by
    rw [← h, toList_zodText]
    exact List.prefix_append _ _
  revert hp hfront
  cases p <;> decide

lemma zodText_ne_of_isWord {word : String} (h : IsWord word) (n : Int) : zodText n ≠ word := by
  rintro rfl
  exact h.not_mem ')' (by rw [toList_zodText]; simp) (by decide)

/-- The names of declared types, and of their schemas, are words. -/
lemma isWord_leafText_custom {name : String} (h : r.Allows name) :
    IsWord (r.leafText (.custom name)) := by
  have hschema : IsWord (name ++ "Schema") := h.isWord.append (by decide)
  cases r with
  | typeScript | python => exact h.isWord
  | zod | pydantic => exact hschema

lemma leafText_custom_inj {name name' : String}
    (h : r.leafText (.custom name) = r.leafText (.custom name')) : name = name' := by
  cases r with
  | typeScript | python => exact h
  | zod | pydantic => exact (String.append_left_inj _).mp h

/-- Texts of different canonical types differ. -/
lemma Canonical.eq_of_leafText_eq (hx : r.Canonical x) (hy : r.Canonical y)
    (hxr : r.AllowsLeaf x) (hyr : r.AllowsLeaf y) (h : r.leafText x = r.leafText y) : x = y := by
  cases hx with
  | @primitive p hp =>
    cases hy with
    | primitive hq => rw [primitive_eq_of_leafText_eq hp hq h]
    | bytesN hr =>
      subst hr
      exact absurd h.symm (zodText_ne_of_canonical hp _)
    | custom name => exact absurd h.symm (leafText_custom_ne_primitive (hyr name rfl) p)
  | @bytesN size hr =>
    subst hr
    cases hy with
    | primitive hq => exact absurd h (zodText_ne_of_canonical hq _)
    | @bytesN size' =>
      have hsize : size * 2 = size' * 2 := zodText_inj h
      rw [show size = size' by omega]
    | custom name =>
      exact absurd h (zodText_ne_of_isWord (isWord_leafText_custom (hyr name rfl)) _)
  | custom name =>
    cases hy with
    | @primitive q => exact absurd h (leafText_custom_ne_primitive (hxr name rfl) q)
    | bytesN hr =>
      subst hr
      exact absurd h.symm (zodText_ne_of_isWord (isWord_leafText_custom (hxr name rfl)) _)
    | custom name' => rw [leafText_custom_inj h]

/-- **Two types without parts have one text exactly if they are merged.** -/
theorem leafText_eq_iff (hx : r.AllowsLeaf x) (hy : r.AllowsLeaf y) :
    r.leafText x = r.leafText y ↔ r.merge x = r.merge y := by
  constructor
  · intro h
    rw [← leafText_merge r x, ← leafText_merge r y] at h
    exact (canonical_merge r x).eq_of_leafText_eq (canonical_merge r y) hx.merge hy.merge h
  · intro h
    rw [← leafText_merge r x, h, leafText_merge]

/-- Texts of types without parts are words, but for validators. -/
lemma isWord_leafText (hr : r ≠ .zod) (h : r.AllowsLeaf x) : IsWord (r.leafText x) := by
  cases x with
  | primitive p => cases r <;> first | exact absurd rfl hr | (cases p <;> decide)
  | bytesN size =>
    cases r with
    | zod => exact absurd rfl hr
    | typeScript => exact (by decide : IsWord "string")
    | python | pydantic => exact (by decide : IsWord "str")
  | custom name => exact isWord_leafText_custom (h name rfl)

end Leaf

/-! ### TypeScript types are read as trees -/

section TypeScript

open TypeScript (Alternative Written)

/-- The alternatives of a type from those of its parts. -/
def buildAlternatives : Layer (List Alternative) → List Alternative
  | .option inner => inner ++ [.name "null"]
  | .vec element => [.array element]
  | .map key value => [.map key value]
  | .tuple members => [.tuple members]

lemma reading_typeScript : Reading typeScript.AllowsLeaf typeScript.leafText typeScript.write
    (fun text types => Written .whole types text.toList)
    (fun x => [.name (typeScript.leafText x)]) buildAlternatives where
  unique h h' := h.unique h'
  reads_leaf h := .ofWord (isWord_leafText (by decide) h)
  reads_build h := by
    cases h with
    | option h =>
      rw [write, String.toList_append]
      exact h.option
    | vec h => exact h.arrayOf
    | map h h' => exact .mapOf h h'
    | tuple h => exact .tupleOf h.flip

lemma free_typeScript : Free typeScript.AllowsLeaf
    (fun x => [Alternative.name (typeScript.leafText x)]) buildAlternatives (· ≠ []) where
  ok_leaf _ := List.cons_ne_nil _ _
  ok_build {layer} _ := by cases layer <;> simp [buildAlternatives]
  injective {layer layer'} h h' heq := by
    cases layer <;> cases layer' <;> simp_all [buildAlternatives, Layer.parts,
      List.append_eq_singleton_iff, List.singleton_eq_append_iff]
  build_ne_leaf {layer x} h _ := by
    cases layer <;> simp_all [buildAlternatives, Layer.parts, List.append_eq_singleton_iff]

end TypeScript

/-! ### Other texts are read as pieces between brackets -/

variable {r : Rendering}

/-- The word in front of the items of a hint. -/
def hintWord {β : Type} : Layer β → String
  | .option _ => "Optional"
  | .vec _ => "List"
  | .map .. => "Dict"
  | .tuple _ => "Tuple"

/-- The words in front of the items of hints. -/
def hintWords : List String := ["Optional", "List", "Dict", "Tuple"]

lemma hintWord_mem {β : Type} (layer : Layer β) : hintWord layer ∈ hintWords := by
  cases layer <;> simp [hintWord, hintWords]

lemma isWord_hintWord {β : Type} (layer : Layer β) : IsWord (hintWord layer) := by
  have hwords : ∀ word ∈ hintWords, IsWord word := by decide
  exact hwords _ (hintWord_mem layer)

/-- The pieces of a hint from those of its parts. -/
def buildHint (layer : Layer (List Piece)) : List Piece :=
  call .square [] (hintWord layer) (joined layer.parts)

lemma toList_writeHint (layer : Layer String) :
    (writeHint layer).toList = (hintWord layer).toList ++
      '[' :: (", ".toList.intercalate (layer.parts.map String.toList) ++ [']']) := by
  cases layer <;> simp [writeHint, hintWord, Layer.parts, String.toList_intercalate]

lemma reading_hint (hr : r = .python ∨ r = .pydantic) : Reading r.AllowsLeaf r.leafText r.write
    (fun text pieces => Reads text.toList pieces) (fun x => chars (r.leafText x)) buildHint where
  unique h h' := h.unique h'
  reads_leaf h := .chars (isWord_leafText (by rcases hr with rfl | rfl <;> decide) h)
  reads_build {layer layer'} h := by
    have hwrite : r.write layer = writeHint layer := by rcases hr with rfl | rfl <;> rfl
    have hword : hintWord layer = hintWord layer' := by cases h <;> rfl
    rw [hwrite, toList_writeHint, hword]
    exact .call (b := .square) .nil (isWord_hintWord layer')
      (.joined (List.forall₂_map_left_iff.mpr h.parts))

lemma free_hint (hr : r = .python ∨ r = .pydantic) :
    Free r.AllowsLeaf (fun x => chars (r.leafText x)) buildHint IsItem where
  ok_leaf h := isItem_chars (isWord_leafText (by rcases hr with rfl | rfl <;> decide) h)
  ok_build {layer} _ := isItem_call List.not_mem_nil (isWord_hintWord layer)
  injective {layer layer'} h h' heq := by
    obtain ⟨-, hword, hparts⟩ := call_inj (by decide : SuffixFree hintWords) (hintWord_mem layer)
      (hintWord_mem layer') heq
    have hparts := joined_inj h h' hparts
    cases layer <;> cases layer' <;> simp_all [hintWord, Layer.parts]
  build_ne_leaf _ _ := call_ne_chars

/-! ### Validators are read as pieces, too -/

/-- The pieces of the check for the length of a text. -/
def zodTextPieces (length : Int) : List Piece :=
  call .round (call .round [] "z.string" []) ".length" (chars (toString length))

/-- The pieces of the validator of a type without parts. -/
def zodLeaf : Leaf → List Piece
  | .primitive p =>
    match p with
    | .bool => call .round [] "z.boolean" []
    | .void => call .round [] "z.void" []
    | .status | .u32 | .i32 => call .round [] "z.number" []
    | .address => zodTextPieces TypeRef.addressLength
    | .u64 | .i64 | .timepoint | .duration | .u128 | .i128 | .u256 | .i256 | .bytes | .string
    | .symbol => call .round [] "z.string" []
  | .bytesN size => zodTextPieces (size * 2)
  | .custom name => chars (name ++ "Schema")

/-- The word of the last call in a validator. -/
def zodWord {β : Type} : Layer β → String
  | .option _ => ".nullable"
  | .vec _ => "z.array"
  | .map .. => "z.map"
  | .tuple _ => "z.tuple"

/-- What stands in front of the last call in a validator. -/
def zodFront : Layer (List Piece) → List Piece
  | .option inner => inner
  | _ => []

/-- The arguments of the last call in a validator. -/
def zodArguments : Layer (List Piece) → List Piece
  | .option _ => []
  | .vec element => element
  | .map key value => joined [key, value]
  | .tuple members => [.group .square (joined members)]

/-- The pieces of a validator from those of its parts. -/
def buildZod (layer : Layer (List Piece)) : List Piece :=
  call .round (zodFront layer) (zodWord layer) (zodArguments layer)

/-- The words of calls in the validators of types without parts. -/
def zodLeafWords : List String := ["z.boolean", "z.void", "z.number", "z.string", ".length"]

/-- The words of calls in validators. -/
def zodWords : List String := zodLeafWords ++ [".nullable", "z.array", "z.map", "z.tuple"]

lemma isWord_of_mem_zodWords {word : String} (h : word ∈ zodWords) : IsWord word := by
  have hwords : ∀ word ∈ zodWords, IsWord word := by decide
  exact hwords word h

lemma reads_zodWord {word : String} (h : word ∈ zodWords) :
    Reads (word ++ "()").toList (call .round [] word []) := by
  rw [String.toList_append]
  exact .call (b := .round) .nil (isWord_of_mem_zodWords h) .nil

lemma not_mem_brackets_toString (n : Int) : ∀ c ∈ (toString n).toList, c ∉ Bracket.all := by
  intro c hc
  rcases Json.eq_sign_or_isDigit_of_mem_toString hc with rfl | hdigit
  · decide
  · intro hmem
    simp only [Bracket.all, List.mem_cons, List.not_mem_nil, or_false] at hmem
    rcases hmem with rfl | rfl | rfl | rfl <;> exact absurd hdigit (by decide)

lemma reads_zodText (length : Int) : Reads (zodText length).toList (zodTextPieces length) := by
  have hfront := reads_zodWord (by decide : "z.string" ∈ zodWords)
  rw [toList_zodText]
  exact .call (b := .round) hfront (by decide : IsWord ".length")
    (.map_char (not_mem_brackets_toString length))

lemma reads_zodLeaf {x : Leaf} (h : zod.AllowsLeaf x) :
    Reads (zod.leafText x).toList (zodLeaf x) := by
  cases x with
  | primitive p =>
    cases p with
    | bool => exact reads_zodWord (by decide : "z.boolean" ∈ zodWords)
    | void => exact reads_zodWord (by decide : "z.void" ∈ zodWords)
    | status | u32 | i32 => exact reads_zodWord (by decide : "z.number" ∈ zodWords)
    | address => exact reads_zodText _
    | _ => exact reads_zodWord (by decide : "z.string" ∈ zodWords)
  | bytesN size => exact reads_zodText _
  | custom name => exact .chars (isWord_leafText_custom (h name rfl))

lemma zodWord_mem {β : Type} (layer : Layer β) : zodWord layer ∈ zodWords := by
  cases layer <;> (rw [zodWord]; decide)

lemma zodWord_not_mem_zodLeafWords {β : Type} (layer : Layer β) :
    zodWord layer ∉ zodLeafWords := by
  cases layer <;> (rw [zodWord]; decide)

/-- A call of a word for types without parts. -/
def IsLeafCall (pieces : List Piece) : Prop :=
  ∃ front, ∃ word ∈ zodLeafWords, ∃ arguments, Piece.char ',' ∉ front ∧
    pieces = call .round front word arguments

lemma isLeafCall_of_mem {word : String} (h : word ∈ zodLeafWords) :
    IsLeafCall (call .round [] word []) :=
  ⟨[], word, h, [], List.not_mem_nil, rfl⟩

lemma isLeafCall_zodTextPieces (length : Int) : IsLeafCall (zodTextPieces length) := by
  have hfront : IsItem (call .round [] "z.string" []) :=
    isItem_call List.not_mem_nil (by decide : IsWord "z.string")
  exact ⟨_, ".length", by decide, _, hfront.comma_not_mem, rfl⟩

/-- The validator of a type without parts is the name of a schema, or a call. -/
lemma custom_or_isLeafCall (x : Leaf) :
    (∃ name, x = .custom name) ∨ IsLeafCall (zodLeaf x) := by
  cases x with
  | primitive p =>
    refine .inr ?_
    cases p with
    | bool => exact isLeafCall_of_mem (by decide : "z.boolean" ∈ zodLeafWords)
    | void => exact isLeafCall_of_mem (by decide : "z.void" ∈ zodLeafWords)
    | status | u32 | i32 => exact isLeafCall_of_mem (by decide : "z.number" ∈ zodLeafWords)
    | address => exact isLeafCall_zodTextPieces _
    | _ => exact isLeafCall_of_mem (by decide : "z.string" ∈ zodLeafWords)
  | bytesN size => exact .inr (isLeafCall_zodTextPieces _)
  | custom name => exact .inl ⟨name, rfl⟩

lemma reading_zod : Reading zod.AllowsLeaf zod.leafText zod.write
    (fun text pieces => Reads text.toList pieces) zodLeaf buildZod where
  unique h h' := h.unique h'
  reads_leaf := reads_zodLeaf
  reads_build {layer layer'} h := by
    have hword := isWord_of_mem_zodWords (zodWord_mem layer')
    cases h with
    | option h =>
      have hcall := Reads.call (b := .round) h hword .nil
      simpa [write, buildZod, zodFront, zodWord, zodArguments] using hcall
    | vec h =>
      have hcall := Reads.call (b := .round) .nil hword h
      simpa [write, buildZod, zodFront, zodWord, zodArguments] using hcall
    | map h h' =>
      have hcall := Reads.call (b := .round) .nil hword (.joined (.cons h (.cons h' .nil)))
      simpa [write, buildZod, zodFront, zodWord, zodArguments] using hcall
    | tuple h =>
      have hcall := Reads.call (b := .round) .nil hword
        (.group .square (.joined (List.forall₂_map_left_iff.mpr h)) .nil)
      simpa [write, buildZod, zodFront, zodWord, zodArguments, String.toList_intercalate]
        using hcall

lemma free_zod : Free zod.AllowsLeaf zodLeaf buildZod IsItem where
  ok_leaf {x} h := by
    rcases custom_or_isLeafCall x with ⟨name, rfl⟩ | ⟨front, word, hword, arguments, hfront, hx⟩
    · exact isItem_chars (isWord_leafText_custom (h name rfl))
    · rw [hx]
      exact isItem_call hfront (isWord_of_mem_zodWords (List.mem_append_left _ hword))
  ok_build {layer} h := by
    refine isItem_call ?_ (isWord_of_mem_zodWords (zodWord_mem layer))
    cases layer with
    | option inner => exact (h inner List.mem_cons_self).comma_not_mem
    | _ => exact List.not_mem_nil
  injective {layer layer'} h h' heq := by
    obtain ⟨hfront, hword, harguments⟩ := call_inj (by decide : SuffixFree zodWords)
      (zodWord_mem layer) (zodWord_mem layer') heq
    cases layer <;> cases layer'
    case option.option => exact congrArg Layer.option hfront
    case vec.vec => exact congrArg Layer.vec harguments
    case map.map => simpa [Layer.parts] using joined_inj h h' harguments
    case tuple.tuple =>
      have hjoined := (Piece.group.inj (List.cons.inj harguments).1).2
      exact congrArg Layer.tuple (joined_inj h h' hjoined)
    all_goals simp [zodWord] at hword
  build_ne_leaf {layer x} h hx := by
    rcases custom_or_isLeafCall x with ⟨name, rfl⟩ | ⟨front, word, hword, arguments, -, hx⟩
    · exact call_ne_chars
    · rw [hx]
      intro heq
      obtain ⟨-, hwords, -⟩ := call_inj (by decide : SuffixFree zodWords) (zodWord_mem layer)
        (List.mem_append_left _ hword) heq
      exact zodWord_not_mem_zodLeafWords layer (hwords ▸ hword)

/-! ### Types of one text -/

/-- A rendering of types whose names it keeps apart can be read back up to its merged leaves. -/
lemma fold_eq_fold_iff {x y : Outline Leaf} (hx : ∀ a ∈ x.leaves, r.AllowsLeaf a)
    (hy : ∀ a ∈ y.leaves, r.AllowsLeaf a) :
    x.fold r.leafText r.write = y.fold r.leafText r.write ↔
      x.relabel r.merge = y.relabel r.merge := by
  cases r with
  | typeScript =>
    refine reading_typeScript.fold_eq_fold_iff free_typeScript (fun _ _ heq => ?_)
      leafText_eq_iff hx hy
    simpa using heq
  | zod =>
    exact reading_zod.fold_eq_fold_iff free_zod
      (fun ha hb heq => String.toList_inj.mp
        ((reads_zodLeaf ha).text_unique (heq ▸ reads_zodLeaf hb))) leafText_eq_iff hx hy
  | python =>
    exact (reading_hint (.inl rfl)).fold_eq_fold_iff (free_hint (.inl rfl))
      (fun _ _ heq => chars_inj heq) leafText_eq_iff hx hy
  | pydantic =>
    exact (reading_hint (.inr rfl)).fold_eq_fold_iff (free_hint (.inr rfl))
      (fun _ _ heq => chars_inj heq) leafText_eq_iff hx hy

lemma allowsLeaf_of_mem_leaves {type : TypeRef} (h : ∀ name ∈ type.customNames, r.Allows name) :
    ∀ x ∈ (outline type).leaves, r.AllowsLeaf x := by
  rintro x hx name hname
  cases x with
  | custom name' =>
    cases hname
    exact h name (mem_customNames_of_mem_leaves hx)
  | _ => cases hname

/-- Integers of 64 bits and more. -/
def wideIntegers : List Primitive :=
  [.u64, .i64, .timepoint, .duration, .u128, .i128, .u256, .i256]

/-- The integers that are native numbers in a validator. -/
def nativeIntegers : List Primitive := [.status, .u32, .i32]

/-- The word for a native number, where a rendering gives validators. -/
def numberWord? : Rendering → Option String
  | .zod => some "z.number()"
  | .pydantic => some "int"
  | .typeScript | .python => none

/-- The validator of a native number is that of these integers, and of no other type without
parts. -/
lemma leafText_eq_number_iff {word : String} (hword : word ∈ r.numberWord?) {x : Leaf}
    (hx : r.AllowsLeaf x) : r.leafText x = word ↔ ∃ p ∈ nativeIntegers, x = .primitive p := by
  have hnumber : word = r.leafText (.primitive .u32) := by
    cases r with
    | zod | pydantic => exact (Option.some.inj hword).symm
    | typeScript | python => cases hword
  have hmerge : r.merge x = r.merge (.primitive .u32) ↔ ∃ p ∈ nativeIntegers, x = .primitive p := by
    cases r with
    | typeScript | python => cases hword
    | zod | pydantic =>
      cases x with
      | primitive p => cases p <;> decide
      | bytesN size => exact iff_of_false nofun nofun
      | custom name => exact iff_of_false nofun nofun
  have hallows : r.AllowsLeaf (.primitive .u32) := nofun
  rw [hnumber, leafText_eq_iff hx hallows, hmerge]

/-- **Two types have one text exactly if they are the same after each result is replaced by what it
holds and leaves of one text are merged.**  So types with one validator have, at each leaf, either
no wide integer or no native number.  The text of a type is put together from those of its leaves,
and in a validator the word for a native number stands for no other leaf than one of these. -/
theorem text_eq_iff (r : Rendering) {a b : TypeRef} (ha : ∀ name ∈ a.customNames, r.Allows name)
    (hb : ∀ name ∈ b.customNames, r.Allows name) :
    (r.text a = r.text b ↔ (outline a).relabel r.merge = (outline b).relabel r.merge) ∧
      (r = .zod ∨ r = .pydantic → r.text a = r.text b →
        List.Forall₂ (fun x y => ∀ p ∈ wideIntegers, ∀ q ∈ nativeIntegers,
          ¬(x = .primitive p ∧ y = .primitive q)) (outline a).leaves (outline b).leaves) ∧
      r.text a = (outline a).fold r.leafText r.write ∧
      ∀ word ∈ r.numberWord?, ∀ x ∈ (outline a).leaves,
        r.leafText x = word ↔ ∃ p ∈ nativeIntegers, x = .primitive p := by
  have hiff : r.text a = r.text b ↔ (outline a).relabel r.merge = (outline b).relabel r.merge := by
    rw [text_eq_fold, text_eq_fold]
    exact fold_eq_fold_iff (allowsLeaf_of_mem_leaves ha) (allowsLeaf_of_mem_leaves hb)
  refine ⟨hiff, fun hr heq => ?_, text_eq_fold r a, fun word hword x hx =>
    leafText_eq_number_iff hword (allowsLeaf_of_mem_leaves ha x hx)⟩
  have hleaves := congrArg Outline.leaves (hiff.mp heq)
  rw [Outline.leaves_relabel, Outline.leaves_relabel, ← List.forall₂_eq_eq_eq,
    List.forall₂_map_left_iff, List.forall₂_map_right_iff] at hleaves
  refine hleaves.imp ?_
  rintro _ _ hmerge p hp q hq ⟨rfl, rfl⟩
  have hapart : ∀ r ∈ [zod, pydantic], ∀ p ∈ wideIntegers, ∀ q ∈ nativeIntegers,
      r.merge (.primitive p) ≠ r.merge (.primitive q) := by decide
  exact hapart r (by simpa using hr) p hp q hq hmerge

/-- Optional big integers and symbols have one validator, inside a result as well. -/
theorem text_eq_iff_validators :
    (∀ name ∈ (TypeRef.map (.custom "Owner") (.vec (.option (.primitive .u64)))).customNames,
      zod.Allows name) ∧
    (∀ name ∈ (TypeRef.result (.map (.custom "Owner") (.vec (.option (.primitive .symbol))))
      (.custom "Error")).customNames, zod.Allows name) ∧
    zod.text (.map (.custom "Owner") (.vec (.option (.primitive .u64)))) =
      zod.text (.result (.map (.custom "Owner") (.vec (.option (.primitive .symbol))))
        (.custom "Error")) :=
  ⟨by decide, by decide, (text_eq_iff zod (by decide) (by decide)).1.mpr rfl⟩

end Rendering

end ContractInterface.Target
