/-
# Type expressions

A type expression of Python is a name, or a name with items between square brackets behind it.  The
hint of a contract type is written as such an expression: its tree is the outline of the type, in
which each result is replaced by what it holds on success.  The text shows the tree, and the
expression is well-formed unless a tuple without members leaves its brackets empty.  The main
results are

* `Expression.text_inj`: expressions with words for names are told apart by their texts;
* `text_hintTree`: the hint of a type is the text of its tree;
* `wellFormed_text_iff`: it is the text of no other well-formed expression.
-/
import ContractInterface.Proofs.Target.Faithful

namespace ContractInterface.Target

/-! ### Identifiers -/

/-- A text is an identifier: ASCII letters, digits and underscores, and first no digit. -/
structure IsIdentifier (name : String) : Prop where
  ne_nil : name.toList ≠ []
  not_isDigit : ∀ c ∈ name.toList.head?, ¬c.isDigit
  isAlphanum : ∀ c ∈ name.toList, c.isAlphanum ∨ c = '_'

instance (name : String) : Decidable (IsIdentifier name) :=
  decidable_of_iff (name.toList ≠ [] ∧ name.toList.head?.all (!·.isDigit) ∧
      name.toList.all fun c => c.isAlphanum || c == '_')
    ⟨fun ⟨hne, hhead, hall⟩ =>
        ⟨hne, by simpa [Option.all_eq_true] using hhead, by simpa using hall⟩,
      fun ⟨hne, hhead, hall⟩ =>
        ⟨hne, by simpa [Option.all_eq_true] using hhead, by simpa using hall⟩⟩

namespace IsIdentifier

variable {name : String}

/-- No identifier holds a character that ends a word. -/
lemma isWord (h : IsIdentifier name) : IsWord name where
  ne_nil := h.ne_nil
  not_mem c hc hmem := by
    have hdelimiters : delimiters.all fun d => !(d.isAlphanum || d == '_') := by decide
    have hnot := List.all_eq_true.mp hdelimiters c hmem
    rw [Bool.not_eq_true', Bool.or_eq_false_iff, beq_eq_false_iff_ne] at hnot
    rcases h.isAlphanum c hc with halphanum | hunderscore
    · rw [hnot.1] at halphanum
      exact Bool.false_ne_true halphanum
    · exact hnot.2 hunderscore

/-- An identifier goes on with letters. -/
lemma append {word : String} (h : IsIdentifier name) (hword : word.toList.all Char.isAlphanum) :
    IsIdentifier (name ++ word) where
  ne_nil := by simp [h.ne_nil]
  not_isDigit := by
    rw [String.toList_append, List.head?_append_of_ne_nil _ h.ne_nil]
    exact h.not_isDigit
  isAlphanum c hc := by
    rw [String.toList_append, List.mem_append] at hc
    exact hc.elim (h.isAlphanum c) fun hc => .inl (List.all_eq_true.mp hword c hc)

end IsIdentifier

/-! ### Expressions and their texts -/

/-- A type expression: a name, or a name with items between square brackets behind it. -/
inductive Expression where
  | name (word : String)
  | subscript (word : String) (items : List Expression)

namespace Expression

section Fold

variable {β : Type}

/-- A property of all expressions, by what they are made of. -/
@[elab_as_elim, induction_eliminator]
theorem induction {motive : Expression → Prop} (name : ∀ word, motive (.name word))
    (subscript : ∀ word items, (∀ item ∈ items, motive item) → motive (.subscript word items)) :
    ∀ e, motive e
  | .name word => name word
  | .subscript word items => subscript word items fun item hitem =>
    have : item ∈ items := hitem
    induction name subscript item

mutual

/-- The value of an expression, given the values of names and those of subscripts from the values
of their items. -/
def fold (name : String → β) (subscript : String → List β → β) : Expression → β
  | .name word => name word
  | .subscript word items => subscript word (folds name subscript items)

/-- The values of some expressions. -/
def folds (name : String → β) (subscript : String → List β → β) : List Expression → List β
  | [] => []
  | item :: items => fold name subscript item :: folds name subscript items

end

variable (name : String → β) (subscript : String → List β → β)

lemma folds_eq_map (items : List Expression) :
    folds name subscript items = items.map (fold name subscript) := by
  induction items with
  | nil => rfl
  | cons item items ih => rw [folds, ih, List.map_cons]

@[simp] lemma fold_name (word : String) : fold name subscript (.name word) = name word := by
  rw [fold]

@[simp] lemma fold_subscript (word : String) (items : List Expression) :
    fold name subscript (.subscript word items) =
      subscript word (items.map (fold name subscript)) := by
  rw [fold, folds_eq_map]

end Fold

/-- The text of an expression. -/
def text : Expression → String :=
  fold id fun word items => word ++ "[" ++ ", ".intercalate items ++ "]"

/-- The names in an expression. -/
def words : Expression → List String :=
  fold (fun word => [word]) fun word items => word :: items.flatten

/-- The names in an expression with nothing between the brackets behind them. -/
def emptyWords : Expression → List String :=
  fold (fun _ => []) fun word items => if items.isEmpty then [word] else items.flatten

/-- The pieces that an expression is read as. -/
def pieces : Expression → List Piece :=
  fold chars fun word items => call .square [] word (joined items)

section Lemmas

variable (word : String) (items : List Expression)

@[simp] lemma text_name : (name word).text = word := fold_name ..

@[simp] lemma text_subscript :
    (subscript word items).text = word ++ "[" ++ ", ".intercalate (items.map text) ++ "]" :=
  fold_subscript ..

@[simp] lemma words_name : (name word).words = [word] := fold_name ..

@[simp] lemma words_subscript : (subscript word items).words = word :: items.flatMap words :=
  fold_subscript ..

@[simp] lemma emptyWords_name : (name word).emptyWords = [] := fold_name ..

@[simp] lemma emptyWords_subscript : (subscript word items).emptyWords =
    if items.isEmpty then [word] else items.flatMap emptyWords := by
  rw [emptyWords, fold_subscript, List.isEmpty_map]
  rfl

@[simp] lemma pieces_name : (name word).pieces = chars word := fold_name ..

@[simp] lemma pieces_subscript :
    (subscript word items).pieces = call .square [] word (joined (items.map pieces)) :=
  fold_subscript ..

end Lemmas

/-- A well-formed expression: an identifier, or one with some well-formed items behind it. -/
inductive WellFormed : Expression → Prop where
  | name {word : String} (h : IsIdentifier word) : WellFormed (.name word)
  | subscript {word : String} {items : List Expression} (h : IsIdentifier word) (hne : items ≠ [])
      (hitems : ∀ item ∈ items, WellFormed item) : WellFormed (.subscript word items)

/-- An expression is well-formed if its names are identifiers and no brackets are empty. -/
lemma wellFormed_iff (e : Expression) :
    e.WellFormed ↔ (∀ word ∈ e.words, IsIdentifier word) ∧ e.emptyWords = [] := by
  induction e with
  | name word =>
    simp only [words_name, List.forall_mem_singleton, emptyWords_name, and_true]
    refine ⟨fun h => ?_, .name⟩
    cases h with
    | name hword => exact hword
  | subscript word items ih =>
    simp only [words_subscript, List.forall_mem_cons, List.forall_mem_flatMap, emptyWords_subscript,
      List.isEmpty_iff]
    constructor
    · intro h
      cases h with
      | subscript hword hne hitems =>
        rw [if_neg hne, List.flatMap_eq_nil_iff]
        exact ⟨⟨hword, fun item hitem => ((ih item hitem).mp (hitems item hitem)).1⟩,
          fun item hitem => ((ih item hitem).mp (hitems item hitem)).2⟩
    · rintro ⟨⟨hword, hwords⟩, hempty⟩
      split at hempty
      · cases hempty
      · rename_i hne
        rw [List.flatMap_eq_nil_iff] at hempty
        exact .subscript hword hne fun item hitem =>
          (ih item hitem).mpr ⟨hwords item hitem, hempty item hitem⟩

/-! ### Expressions are told apart by their texts -/

section Reading

variable {e e' : Expression}

lemma reads_text (h : ∀ word ∈ e.words, IsWord word) : Reads e.text.toList e.pieces := by
  induction e with
  | name word => simpa using Reads.chars (h word (by simp))
  | subscript word items ih =>
    simp only [words_subscript, List.forall_mem_cons, List.forall_mem_flatMap] at h
    have hitems : List.Forall₂ Reads (items.map fun item => item.text.toList)
        (items.map pieces) := by
      rw [List.forall₂_map_left_iff, List.forall₂_map_right_iff, List.forall₂_same]
      exact fun item hitem => ih item hitem (h.2 item hitem)
    have hcall := Reads.call (b := .square) .nil h.1 (.joined hitems)
    simpa [String.toList_intercalate, Function.comp_def] using hcall

lemma isItem_pieces (h : ∀ word ∈ e.words, IsWord word) : IsItem e.pieces := by
  cases e with
  | name word => simpa using isItem_chars (h word (by simp))
  | subscript word items =>
    rw [pieces_subscript]
    exact isItem_call List.not_mem_nil (h word (by simp))

/-- By induction: names are told apart by their characters, and items at the commas. -/
lemma pieces_inj (h : ∀ word ∈ e.words, IsWord word) (h' : ∀ word ∈ e'.words, IsWord word)
    (heq : e.pieces = e'.pieces) : e = e' := by
  induction e generalizing e' with
  | name word =>
    cases e' with
    | name word' =>
      rw [pieces_name, pieces_name] at heq
      exact congrArg name (chars_inj heq)
    | subscript word' items' =>
      rw [pieces_name, pieces_subscript] at heq
      exact absurd heq.symm call_ne_chars
  | subscript word items ih =>
    cases e' with
    | name word' =>
      rw [pieces_name, pieces_subscript] at heq
      exact absurd heq call_ne_chars
    | subscript word' items' =>
      simp only [words_subscript, List.forall_mem_cons, List.forall_mem_flatMap] at h h'
      rw [pieces_subscript, pieces_subscript, call, call, List.append_singleton_inj] at heq
      obtain ⟨hword, hgroup⟩ := heq
      have hitems : items.map pieces = items'.map pieces := by
        refine joined_inj ?_ ?_ (Piece.group.inj hgroup).2
        · exact List.forall_mem_map.mpr fun item hitem => isItem_pieces (h.2 item hitem)
        · exact List.forall_mem_map.mpr fun item hitem => isItem_pieces (h'.2 item hitem)
      have hagree : ∀ item ∈ items, ∀ item' ∈ items',
          item.pieces = item'.pieces ↔ id item = id item' := fun item hitem item' hitem' =>
        ⟨ih item hitem (h.2 item hitem) (h'.2 item' hitem'), congrArg pieces⟩
      have hsame := (Layer.map_eq_map_iff_of_agree hagree).mp hitems
      rw [List.map_id, List.map_id] at hsame
      rw [chars_inj hword, hsame]

/-- **Expressions with words for names are told apart by their texts.** -/
theorem text_inj (h : ∀ word ∈ e.words, IsWord word) (h' : ∀ word ∈ e'.words, IsWord word)
    (heq : e.text = e'.text) : e = e' :=
  pieces_inj h h' ((reads_text h).unique (heq ▸ reads_text h'))

end Reading

end Expression

/-! ### Hints are texts of expressions -/

/-- Whether a tuple without members occurs in a tree: no other layer is without parts. -/
def Outline.hasEmptyTuple {α : Type} : Outline α → Bool :=
  fold (fun _ => false) fun layer => layer.parts.isEmpty || layer.parts.any id

namespace Rendering

variable {r : Rendering} {type : TypeRef}

/-- The expression that the hint of a type is: a name for a type without parts, and otherwise a
name with the expressions of the parts behind it. -/
def hintTree (r : Rendering) (type : TypeRef) : Expression :=
  (outline type).fold (fun x => .name (r.leafText x)) fun layer =>
    .subscript (hintWord layer) layer.parts

lemma writeHint_eq (layer : Layer String) :
    writeHint layer = hintWord layer ++ "[" ++ ", ".intercalate layer.parts ++ "]" := by
  cases layer <;> simp [writeHint, hintWord, Layer.parts, String.append_assoc]

lemma hintWord_mapParts {β γ : Type} (f : β → γ) (layer : Layer β) :
    hintWord (layer.mapParts f) = hintWord layer := by
  cases layer <;> rfl

/-- **The hint of a type is the text of its expression.** -/
theorem text_hintTree (hr : r = .python ∨ r = .pydantic) (type : TypeRef) :
    (r.hintTree type).text = r.text type := by
  have hwrite : r.write = writeHint := by
    funext layer
    rcases hr with rfl | rfl <;> rfl
  rw [text_eq_fold, hintTree, hwrite]
  induction outline type with
  | leaf x => simp
  | node layer ih =>
    rw [Outline.fold_node, Outline.fold_node, Expression.text_subscript, writeHint_eq]
    simp only [hintWord_mapParts, Layer.parts_mapParts, List.map_map]
    exact congrArg (fun texts => hintWord layer ++ "[" ++ ", ".intercalate texts ++ "]")
      (List.map_congr_left ih)

lemma isIdentifier_hintWord {β : Type} (layer : Layer β) : IsIdentifier (hintWord layer) := by
  have hwords : ∀ word ∈ hintWords, IsIdentifier word := by decide
  exact hwords _ (hintWord_mem layer)

/-- In hints the text of a type without parts is an identifier. -/
lemma isIdentifier_leafText (hr : r = .python ∨ r = .pydantic) {x : Leaf}
    (h : ∀ name ∈ x.name?, IsIdentifier name) : IsIdentifier (r.leafText x) := by
  cases x with
  | primitive p => rcases hr with rfl | rfl <;> cases p <;> decide
  | bytesN size =>
    have hstr : IsIdentifier "str" := by decide
    rcases hr with rfl | rfl <;> exact hstr
  | custom name =>
    rcases hr with rfl | rfl
    · exact h name rfl
    · exact (h name rfl).append (by decide)

lemma isIdentifier_of_mem_words (hr : r = .python ∨ r = .pydantic)
    (h : ∀ name ∈ type.customNames, IsIdentifier name) :
    ∀ word ∈ (r.hintTree type).words, IsIdentifier word := by
  have hleaves : ∀ x ∈ (outline type).leaves, IsIdentifier (r.leafText x) := by
    refine fun x hx => isIdentifier_leafText hr fun name hname => ?_
    cases x with
    | custom name' =>
      cases hname
      exact h name (mem_customNames_of_mem_leaves hx)
    | _ => cases hname
  rw [hintTree]
  generalize outline type = tree at hleaves ⊢
  induction tree with
  | leaf x => simpa using hleaves
  | node layer ih =>
    simp only [Outline.leaves_node, List.forall_mem_flatMap] at hleaves
    simp only [Outline.fold_node, Expression.words_subscript, hintWord_mapParts,
      Layer.parts_mapParts, List.forall_mem_cons, List.forall_mem_flatMap, List.forall_mem_map]
    exact ⟨isIdentifier_hintWord layer, fun part hpart => ih part hpart (hleaves part hpart)⟩

lemma hintWord_of_parts_eq_nil {β : Type} {layer : Layer β} (h : layer.parts = []) :
    hintWord layer = "Tuple" := by
  cases layer with
  | tuple members => rfl
  | _ => cases h

/-- Only the brackets of a tuple without members are empty. -/
lemma mem_emptyWords_hintTree {word : String} :
    word ∈ (r.hintTree type).emptyWords ↔ word = "Tuple" ∧ (outline type).hasEmptyTuple := by
  rw [hintTree]
  induction outline type with
  | leaf x => simp [Outline.hasEmptyTuple]
  | node layer ih =>
    have hempty : (Outline.node layer).hasEmptyTuple =
        (layer.parts.isEmpty || layer.parts.any Outline.hasEmptyTuple) := by
      rw [Outline.hasEmptyTuple, Outline.fold_node, Layer.parts_mapParts, List.isEmpty_map,
        List.any_map]
      rfl
    rw [hempty, Outline.fold_node, Expression.emptyWords_subscript, hintWord_mapParts,
      Layer.parts_mapParts, List.isEmpty_map]
    -- no other layer than a tuple may be without parts
    by_cases hparts : layer.parts = []
    · simp [hparts, hintWord_of_parts_eq_nil hparts]
    · rw [if_neg (mt List.isEmpty_iff.mp hparts), List.flatMap_map, List.mem_flatMap,
        Bool.or_eq_true, List.isEmpty_iff, or_iff_right hparts, List.any_eq_true]
      constructor
      · rintro ⟨part, hpart, hword⟩
        obtain ⟨hword, htuple⟩ := (ih part hpart).mp hword
        exact ⟨hword, part, hpart, htuple⟩
      · rintro ⟨hword, part, hpart, htuple⟩
        exact ⟨part, hpart, (ih part hpart).mpr ⟨hword, htuple⟩⟩

/-- **The hint of a type is the text of a well-formed expression just if no tuple without members
occurs in it**, and then of no other one than its own. -/
theorem wellFormed_text_iff (hr : r = .python ∨ r = .pydantic)
    (h : ∀ name ∈ type.customNames, IsIdentifier name) (e : Expression) :
    e.WellFormed ∧ e.text = r.text type ↔
      e = r.hintTree type ∧ ¬(outline type).hasEmptyTuple := by
  have hwords := isIdentifier_of_mem_words hr h
  have hempty : (r.hintTree type).emptyWords = [] ↔ ¬(outline type).hasEmptyTuple := by
    rw [List.eq_nil_iff_forall_not_mem]
    simp [mem_emptyWords_hintTree]
  constructor
  · rintro ⟨he, htext⟩
    obtain ⟨hnames, -⟩ := e.wellFormed_iff.mp he
    obtain rfl : e = r.hintTree type := by
      refine Expression.text_inj (fun word hword => (hnames word hword).isWord)
        (fun word hword => (hwords word hword).isWord) ?_
      rw [htext, text_hintTree hr]
    exact ⟨rfl, hempty.mp ((Expression.wellFormed_iff _).mp he).2⟩
  · rintro ⟨rfl, hfull⟩
    exact ⟨(Expression.wellFormed_iff _).mpr ⟨hwords, hempty.mpr hfull⟩, text_hintTree hr type⟩

end Rendering

end ContractInterface.Target
