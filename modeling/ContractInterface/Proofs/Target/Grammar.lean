/-
# The grammar of TypeScript types

A type is read from its text by a grammar in which the suffix for arrays binds tighter than the
bar between alternatives.  The grammar is unambiguous, and the text of a contract type is read as
the tree that is meant: the parentheses stand wherever the element of an array needs them.  The
main results are

* `Written.unique`: no text is read as two trees;
* `written_toTypeScript_intended`: the text of a contract type is read as the tree that is meant;
* `written_toTypeScript_iff`: it is read as this tree and as no other.
-/
import Mathlib.Data.List.Basic
import Mathlib.Data.List.Forall2
import Mathlib.Logic.Function.Iterate
import ContractInterface.Proofs.Schema.Layout
import ContractInterface.Target.TypeScript

namespace ContractInterface

/-! ### Texts -/

namespace Text

lemma occursIn_iff_isInfix {part chars : List Char} :
    occursIn part chars = true ↔ part <:+: chars := by
  induction chars with
  | nil => simp [occursIn]
  | cons c chars ih =>
    rw [occursIn, Bool.or_eq_true, ih, List.isPrefixOf_iff_prefix, List.infix_cons_iff]

/-- Joined texts are the first one and the others, each behind a separator. -/
lemma intercalate_cons_eq_flatMap {α : Type} (separator first : List α) (others : List (List α)) :
    separator.intercalate (first :: others) = first ++ others.flatMap (separator ++ ·) := by
  induction others generalizing first with
  | nil => simp
  | cons second others ih =>
    rw [List.intercalate_cons_cons, ih, List.flatMap_cons, List.append_assoc, List.append_assoc]

lemma append_intercalate_cons {α : Type} (separator first : List α) (others : List (List α)) :
    separator ++ separator.intercalate (first :: others) =
      (first :: others).flatMap (separator ++ ·) := by
  rw [intercalate_cons_eq_flatMap, List.flatMap_cons, List.append_assoc]

end Text

namespace Target

/-- The characters that end a word. -/
def delimiters : List Char := ['<', '>', '[', ']', '(', ')', ',', ' ', '|']

/-- A text is a word, as each identifier is: not empty, and without characters that end a word. -/
structure IsWord (word : String) : Prop where
  ne_nil : word.toList ≠ []
  not_mem : ∀ c ∈ word.toList, c ∉ delimiters

instance (word : String) : Decidable (IsWord word) :=
  decidable_of_iff (word.toList ≠ [] ∧ word.toList.all (· ∉ delimiters) = true) <| by
    rw [List.all_eq_true]
    simp only [decide_eq_true_eq]
    exact ⟨fun ⟨hne, hmem⟩ => ⟨hne, hmem⟩, fun ⟨hne, hmem⟩ => ⟨hne, hmem⟩⟩

lemma IsWord.append {word word' : String} (h : IsWord word) (h' : IsWord word') :
    IsWord (word ++ word') where
  ne_nil := by simp [h.ne_nil]
  not_mem c hc := by
    rw [String.toList_append, List.mem_append] at hc
    exact hc.elim (h.not_mem c) (h'.not_mem c)

section Words

variable {rest rest' : List Char}

/-- Two words with an end of a word behind each. -/
lemma word_append_inj {w w' : List Char} (hw : ∀ c ∈ w, c ∉ delimiters)
    (hw' : ∀ c ∈ w', c ∉ delimiters) (hr : ∀ c ∈ rest.head?, c ∈ delimiters)
    (hr' : ∀ c ∈ rest'.head?, c ∈ delimiters) (h : w ++ rest = w' ++ rest') :
    w = w' ∧ rest = rest' := by
  induction w generalizing w' with
  | nil =>
    cases w' with
    | nil => exact ⟨rfl, h⟩
    | cons c w' => exact absurd (hr c (by simp [show rest = _ from h])) (hw' c List.mem_cons_self)
  | cons c w ih =>
    cases w' with
    | nil => exact absurd (hr' c (by simp [← show _ = rest' from h])) (hw c List.mem_cons_self)
    | cons c' w' =>
      obtain ⟨rfl, htail⟩ := List.cons.inj h
      obtain ⟨rfl, hrest⟩ := ih (fun d hd => hw d (List.mem_cons_of_mem _ hd))
        (fun d hd => hw' d (List.mem_cons_of_mem _ hd)) htail
      exact ⟨rfl, hrest⟩

/-- No word begins with a character that ends one. -/
lemma IsWord.append_ne_cons {word : String} (hw : IsWord word) {d : Char} (hd : d ∈ delimiters) :
    word.toList ++ rest ≠ d :: rest' := by
  intro h
  cases hchars : word.toList with
  | nil => exact hw.ne_nil hchars
  | cons c chars =>
    rw [hchars] at h
    obtain ⟨rfl, -⟩ := List.cons.inj h
    exact hw.not_mem c (by simp [hchars]) hd

end Words

namespace TypeScript

/-! ### Trees and their texts -/

/-- One of the alternatives of a type.  A type is the list of its alternatives. -/
inductive Alternative where
  | name (word : String)
  | map (key value : List Alternative)
  | tuple (members : List (List Alternative))
  | array (element : List Alternative)

/-- The array whose elements are of a type. -/
def arrayType (element : List Alternative) : List Alternative := [.array element]

/-- How tightly a piece of text binds: a primary one stands alone, suffixes bind it tighter than
bars do. -/
inductive Level where
  | primary
  | suffixed
  | whole

/-- The characters of a piece of text are read, at a level, as some alternatives. -/
inductive Written : Level → List Alternative → List Char → Prop where
  /-- A word is a name: one that is declared or one of the language. -/
  | name {word : String} (h : IsWord word) : Written .primary [.name word] word.toList
  | map {key value : List Alternative} {u v : List Char} (hu : Written .whole key u)
      (hv : Written .whole value v) :
      Written .primary [.map key value] ("Map<".toList ++ (u ++ (", ".toList ++ (v ++ ['>']))))
  | tuple {members : List (List Alternative)} {texts : List (List Char)}
      (h : List.Forall₂ (Written .whole) members texts) :
      Written .primary [.tuple members] ('[' :: (", ".toList.intercalate texts ++ [']']))
  /-- Parentheses hold a whole type together. -/
  | group {types : List Alternative} {u : List Char} (h : Written .whole types u) :
      Written .primary types ('(' :: (u ++ [')']))
  /-- Each suffix makes what stands in front of it the element of an array. -/
  | suffixed {types : List Alternative} {u : List Char} (n : Nat) (h : Written .primary types u) :
      Written .suffixed (arrayType^[n] types) (u ++ (List.replicate n "[]".toList).flatten)
  /-- The alternatives of a type are those of the pieces between its bars. -/
  | whole {parts : List (List Alternative)} {texts : List (List Char)} (hne : parts ≠ [])
      (h : List.Forall₂ (Written .suffixed) parts texts) :
      Written .whole parts.flatten (" | ".toList.intercalate texts)

/-! ### No text is read as two trees -/

/-- The characters that may follow a piece of text of a level. -/
def Level.followers : Level → List Char
  | .whole => [',', '>', ']', ')']
  | .suffixed => [' ', ',', '>', ']', ')']
  | .primary => ['[', ' ', ',', '>', ']', ')']

/-- What may follow a piece of text of a level. -/
def Ends (level : Level) (rest : List Char) : Prop :=
  ∀ c ∈ rest.head?, c ∈ level.followers

/-- However a piece of text of a level is read, and whatever may follow it does, the piece ends at
the same place and means the same. -/
def Unambiguous (level : Level) (u : List Char) : Prop :=
  ∀ ⦃types types' : List Alternative⦄ ⦃u' rest rest' : List Char⦄, Written level types u →
    Written level types' u' → Ends level rest → Ends level rest' → u ++ rest = u' ++ rest' →
      types = types' ∧ u = u'

section Ends

variable {level : Level} {c : Char} {rest : List Char}

@[simp] lemma ends_nil : Ends level [] := by simp [Ends]

@[simp] lemma ends_cons : Ends level (c :: rest) ↔ c ∈ level.followers := by simp [Ends]

lemma Ends.primary (h : Ends .suffixed rest) : Ends .primary rest := by
  cases rest with
  | nil => exact ends_nil
  | cons c rest => exact ends_cons.mpr (List.mem_cons_of_mem _ (ends_cons.mp h))

lemma Ends.suffixed (h : Ends .whole rest) : Ends .suffixed rest := by
  cases rest with
  | nil => exact ends_nil
  | cons c rest => exact ends_cons.mpr (List.mem_cons_of_mem _ (ends_cons.mp h))

/-- Every character that may follow a piece of text ends a word. -/
lemma mem_delimiters_of_mem_followers (h : c ∈ level.followers) : c ∈ delimiters := by
  cases level <;> revert h <;> simp [Level.followers, delimiters] <;> grind

end Ends

section Pieces

variable {types types' : List Alternative} {level : Level} {u rest rest' : List Char}

/-- A name is not the front of a map: behind the word of a map stands an angle bracket. -/
lemma word_append_ne_map {word : String} (hw : IsWord word) (hr : Ends .primary rest) :
    word.toList ++ rest ≠ "Map<".toList ++ rest' := by
  intro h
  have hword : word.toList ++ rest = "Map".toList ++ '<' :: rest' := h
  obtain ⟨-, rfl⟩ := word_append_inj hw.not_mem (by decide : IsWord "Map").not_mem
    (fun c hc => mem_delimiters_of_mem_followers (hr c hc)) (by simp [delimiters]) hword
  simp [Level.followers] at hr

lemma Written.exists_cons_primary (h : Written .primary types u) :
    ∃ c chars, u = c :: chars ∧ c ∉ Level.suffixed.followers := by
  cases h with
  | name hw =>
    obtain ⟨c, chars, hchars⟩ := List.exists_cons_of_ne_nil hw.ne_nil
    exact ⟨c, chars, hchars, fun hc =>
      hw.not_mem c (by simp [hchars]) (mem_delimiters_of_mem_followers hc)⟩
  | map hu hv => exact ⟨'M', _, rfl, by decide⟩
  | tuple h => exact ⟨'[', _, rfl, by decide⟩
  | group h => exact ⟨'(', _, rfl, by decide⟩

lemma Written.exists_cons_suffixed (h : Written .suffixed types u) :
    ∃ c chars, u = c :: chars ∧ c ∉ Level.suffixed.followers := by
  cases h with
  | suffixed n h =>
    obtain ⟨c, chars, rfl, hc⟩ := h.exists_cons_primary
    exact ⟨c, _, List.cons_append, hc⟩

/-- A piece of text begins with a character that cannot follow one. -/
lemma Written.exists_cons (h : Written level types u) :
    ∃ c chars, u = c :: chars ∧ c ∉ Level.suffixed.followers := by
  cases level with
  | primary => exact h.exists_cons_primary
  | suffixed => exact h.exists_cons_suffixed
  | whole =>
    cases h with
    | whole hne h =>
      cases h with
      | nil => exact absurd rfl hne
      | cons h hs =>
        obtain ⟨c, chars, rfl, hc⟩ := h.exists_cons_suffixed
        rw [Text.intercalate_cons_eq_flatMap, List.cons_append]
        exact ⟨c, _, rfl, hc⟩

/-- Pieces of text of a level, joined by separators that may follow a piece. -/
lemma joined_unique {parts parts' : List (List Alternative)} {texts texts' : List (List Char)}
    {d : Char} {separator : List Char} (hsep : separator.head? = some d)
    (hd : d ∈ level.followers) (hunique : ∀ u ∈ texts, Unambiguous level u)
    (hr : Ends level rest) (hr' : Ends level rest') (hrd : rest.head? ≠ some d)
    (hrd' : rest'.head? ≠ some d) (h : List.Forall₂ (Written level) parts texts)
    (h' : List.Forall₂ (Written level) parts' texts')
    (heq : texts.flatMap (separator ++ ·) ++ rest =
      texts'.flatMap (separator ++ ·) ++ rest') : parts = parts' ∧ texts = texts' := by
  have hends {texts : List (List Char)} {rest : List Char} (hr : Ends level rest) :
      Ends level (texts.flatMap (separator ++ ·) ++ rest) := by
    cases texts with
    | nil => exact hr
    | cons u texts => simpa [Ends, hsep] using hd
  induction h generalizing parts' texts' with
  | nil =>
    cases h' with
    | nil => exact ⟨rfl, rfl⟩
    | cons h' hs' =>
      -- what follows would begin with a separator
      refine absurd ?_ hrd
      rw [show rest = _ from heq]
      simp [hsep]
  | cons h hs ih =>
    cases h' with
    | nil =>
      refine absurd ?_ hrd'
      rw [← show _ = rest' from heq]
      simp [hsep]
    | cons h' hs' =>
      simp only [List.flatMap_cons, List.append_assoc, List.append_cancel_left_eq] at heq
      obtain ⟨rfl, rfl⟩ := hunique _ List.mem_cons_self h h' (hends hr) (hends hr') heq
      obtain ⟨rfl, rfl⟩ := ih (fun v hv => hunique v (List.mem_cons_of_mem _ hv)) hs'
        (List.append_cancel_left heq)
      exact ⟨rfl, rfl⟩

/-- The same of pieces that are joined as a list is, where no end of a piece begins one. -/
lemma intercalate_unique {parts parts' : List (List Alternative)} {texts texts' : List (List Char)}
    {d : Char} {separator : List Char} (hlevel : level.followers ⊆ Level.suffixed.followers)
    (hsep : separator.head? = some d) (hd : d ∈ level.followers)
    (hunique : ∀ u ∈ texts, Unambiguous level u)
    (hr : Ends level rest) (hr' : Ends level rest') (hrd : rest.head? ≠ some d)
    (hrd' : rest'.head? ≠ some d) (h : List.Forall₂ (Written level) parts texts)
    (h' : List.Forall₂ (Written level) parts' texts')
    (heq : separator.intercalate texts ++ rest =
      separator.intercalate texts' ++ rest') : parts = parts' ∧ texts = texts' := by
  -- no piece begins where another one may end, so no list is the empty one
  have hne {types : List Alternative} {u v rest : List Char} (h : Written level types u)
      (hr : Ends level rest) : rest ≠ u ++ v := by
    rintro rfl
    obtain ⟨c, chars, rfl, hc⟩ := h.exists_cons
    exact hc (hlevel (ends_cons.mp hr))
  cases h with
  | nil =>
    cases h' with
    | nil => exact ⟨rfl, rfl⟩
    | cons h' hs' =>
      rw [Text.intercalate_cons_eq_flatMap, List.append_assoc] at heq
      exact absurd heq (hne h' hr)
  | cons h hs =>
    cases h' with
    | nil =>
      rw [Text.intercalate_cons_eq_flatMap, List.append_assoc] at heq
      exact absurd heq.symm (hne h hr')
    | cons h' hs' =>
      refine joined_unique hsep hd hunique hr hr' hrd hrd' (.cons h hs) (.cons h' hs') ?_
      rw [← Text.append_intercalate_cons, ← Text.append_intercalate_cons, List.append_assoc,
        List.append_assoc, heq]

/-- Suffixes for arrays are counted, whatever other character follows them. -/
lemma brackets_append_inj {n m : Nat} (hr : rest.head? ≠ some '[') (hr' : rest'.head? ≠ some '[')
    (h : (List.replicate n "[]".toList).flatten ++ rest =
      (List.replicate m "[]".toList).flatten ++ rest') : n = m := by
  induction n generalizing m with
  | zero =>
    cases m with
    | zero => rfl
    | succ m => exact absurd (by simp [show rest = _ from h, List.replicate_succ]) hr
  | succ n ih =>
    cases m with
    | zero => exact absurd (by simp [← show _ = rest' from h, List.replicate_succ]) hr'
    | succ m =>
      rw [List.replicate_succ, List.replicate_succ, List.flatten_cons, List.flatten_cons,
        List.append_assoc, List.append_assoc] at h
      rw [ih (List.append_cancel_left h)]

lemma length_le_of_mem_intercalate {separator : List Char} {texts : List (List Char)}
    (hu : u ∈ texts) : u.length ≤ (separator.intercalate texts).length := by
  cases texts with
  | nil => exact absurd hu List.not_mem_nil
  | cons first others =>
    rw [Text.intercalate_cons_eq_flatMap, List.length_append, List.length_flatMap]
    rcases List.mem_cons.mp hu with rfl | hu
    · exact Nat.le_add_right _ _
    · obtain ⟨before, after, rfl⟩ := List.append_of_mem hu
      simp only [List.map_append, List.map_cons, List.sum_append, List.sum_cons, List.length_append]
      omega

end Pieces

section Unambiguous

variable {u : List Char}

/-- The first character says what a primary piece is, but for a map, whose word may be a name. -/
lemma Unambiguous.primary (ih : ∀ v, v.length < u.length → Unambiguous .whole v) :
    Unambiguous .primary u := by
  intro types types' u' rest rest' h h' hr hr' heq
  cases h with
  | name hw =>
    cases h' with
    | name hw' =>
      obtain ⟨hword, -⟩ := word_append_inj hw.not_mem hw'.not_mem
        (fun c hc => mem_delimiters_of_mem_followers (hr c hc))
        (fun c hc => mem_delimiters_of_mem_followers (hr' c hc)) heq
      rw [String.toList_inj.mp hword]
      exact ⟨rfl, rfl⟩
    | map => exact absurd heq (word_append_ne_map hw hr)
    | tuple => exact absurd heq (hw.append_ne_cons (by decide))
    | group => exact absurd heq (hw.append_ne_cons (by decide))
  | @map _ _ u v hu hv =>
    cases h' with
    | name hw' => exact absurd heq.symm (word_append_ne_map hw' hr')
    | map hu' hv' =>
      simp only [List.append_assoc, List.append_cancel_left_eq] at heq
      have hlength : u.length < ("Map<".toList ++ (u ++ (", ".toList ++ (v ++ ['>'])))).length ∧
          v.length < ("Map<".toList ++ (u ++ (", ".toList ++ (v ++ ['>'])))).length := by
        simp only [List.length_append, List.length_singleton]
        omega
      obtain ⟨rfl, rfl⟩ := ih _ hlength.1 hu hu' (by simp [Level.followers])
        (by simp [Level.followers]) heq
      simp only [List.append_cancel_left_eq] at heq
      obtain ⟨rfl, rfl⟩ := ih _ hlength.2 hv hv' (by simp [Level.followers])
        (by simp [Level.followers]) heq
      exact ⟨rfl, rfl⟩
    | tuple => simp at heq
    | group => simp at heq
  | tuple h =>
    cases h' with
    | name hw' => exact absurd heq.symm (hw'.append_ne_cons (by decide))
    | map => simp at heq
    | tuple h' =>
      simp only [List.cons_append, List.append_assoc, List.cons.injEq, true_and] at heq
      have hunique : ∀ v ∈ _, Unambiguous .whole v := fun v hv => ih v <| by
        rw [List.length_cons, List.length_append]
        exact Nat.lt_succ_of_le
          (Nat.le_trans (length_le_of_mem_intercalate hv) (Nat.le_add_right _ _))
      obtain ⟨rfl, rfl⟩ := intercalate_unique (d := ',') (by decide) rfl (by decide) hunique
        (by simp [Level.followers]) (by simp [Level.followers]) (by simp) (by simp) h h' heq
      exact ⟨rfl, rfl⟩
    | group => simp at heq
  | group h =>
    cases h' with
    | name hw' => exact absurd heq.symm (hw'.append_ne_cons (by decide))
    | map => simp at heq
    | tuple => simp at heq
    | group h' =>
      simp only [List.cons_append, List.append_assoc, List.cons.injEq, true_and] at heq
      obtain ⟨rfl, rfl⟩ := ih _ (by rw [List.length_cons, List.length_append]; omega) h h'
        (by simp [Level.followers])
        (by simp [Level.followers]) heq
      exact ⟨rfl, rfl⟩

lemma Unambiguous.suffixed (ih : ∀ v, v.length < u.length → Unambiguous .whole v) :
    Unambiguous .suffixed u := by
  intro types types' u' rest rest' h h' hr hr' heq
  have hends {n : Nat} {rest : List Char} (hr : Ends .suffixed rest) :
      Ends .primary ((List.replicate n "[]".toList).flatten ++ rest) := by
    cases n with
    | zero => exact hr.primary
    | succ n => simp [List.replicate_succ, Level.followers]
  have hhead {rest : List Char} (hr : Ends .suffixed rest) : rest.head? ≠ some '[' :=
    fun h => absurd (hr _ h) (by decide)
  cases h with
  | suffixed n h =>
  cases h' with
  | suffixed m h' =>
    rw [List.append_assoc, List.append_assoc] at heq
    obtain ⟨rfl, rfl⟩ := Unambiguous.primary
      (fun v hv => ih v (by rw [List.length_append]; omega)) h h' (hends hr) (hends hr') heq
    obtain rfl := brackets_append_inj (hhead hr) (hhead hr') (List.append_cancel_left heq)
    exact ⟨rfl, rfl⟩

lemma Unambiguous.whole (ih : ∀ v, v.length < u.length → Unambiguous .whole v) :
    Unambiguous .whole u := by
  intro types types' u' rest rest' h h' hr hr' heq
  have hhead {rest : List Char} (hr : Ends .whole rest) : rest.head? ≠ some ' ' :=
    fun h => absurd (hr _ h) (by decide)
  cases h with
  | whole hne h =>
  cases h' with
  | whole hne' h' =>
    have hunique : ∀ v ∈ _, Unambiguous .suffixed v := fun v hv =>
      Unambiguous.suffixed fun w hw =>
        ih w (Nat.lt_of_lt_of_le hw (length_le_of_mem_intercalate hv))
    obtain ⟨rfl, rfl⟩ := intercalate_unique (by decide) rfl (by decide) hunique hr.suffixed
      hr'.suffixed (hhead hr) (hhead hr') h h' heq
    exact ⟨rfl, rfl⟩

/-- By induction on the length of the text: brackets hold shorter texts. -/
lemma unambiguous_whole (u : List Char) : Unambiguous .whole u := by
  induction hn : u.length using Nat.strongRecOn generalizing u with
  | ind n ih => exact Unambiguous.whole fun v hv => ih v.length (hn ▸ hv) v rfl

/-- **The grammar is unambiguous.** -/
theorem Written.unique {types types' : List Alternative} (h : Written .whole types u)
    (h' : Written .whole types' u) : types = types' :=
  (unambiguous_whole u h h' ends_nil ends_nil rfl).1

end Unambiguous

/-! ### The tree that is meant -/

mutual

/-- The alternatives that a contract type has: those of an option are the ones of what it holds,
and null; an array has a complete type for its elements, and a result is what it holds on
success. -/
def intended : TypeRef → List Alternative
  | .primitive p => [.name (Primitive.toTypeScript p)]
  | .option inner => intended inner ++ [.name "null"]
  | .result ok _ => intended ok
  | .vec element => [.array (intended element)]
  | .map key value => [.map (intended key) (intended value)]
  | .tuple members => [.tuple (intendeds members)]
  | .bytesN _ => [.name "string"]
  | .custom name => [.name name]

/-- The alternatives of each of some contract types. -/
def intendeds : List TypeRef → List (List Alternative)
  | [] => []
  | member :: members => intended member :: intendeds members

end

namespace Written

variable {types : List Alternative} {u : List Char}

lemma bare (h : Written .primary types u) : Written .suffixed types u := by
  simpa using Written.suffixed 0 h

lemma array (h : Written .suffixed types u) :
    Written .suffixed (arrayType types) (u ++ "[]".toList) := by
  cases h with
  | suffixed n h =>
    have harray := Written.suffixed (n + 1) h
    rw [List.replicate_succ', List.flatten_append, ← List.append_assoc,
      Function.iterate_succ_apply'] at harray
    simpa using harray

lemma single (h : Written .suffixed types u) : Written .whole types u := by
  simpa using Written.whole (List.cons_ne_nil types []) (.cons h .nil)

lemma ofWord {word : String} (h : IsWord word) : Written .whole [.name word] word.toList :=
  single (bare (.name h))

/-- One more alternative stands behind a bar. -/
lemma option (h : Written .whole types u) :
    Written .whole (types ++ [.name "null"]) (u ++ " | null".toList) := by
  cases h with
  | whole hne h =>
    cases h with
    | nil => exact absurd rfl hne
    | cons h hs =>
      have hnull : Written .suffixed [.name "null"] "null".toList :=
        bare (.name (by decide))
      have hoption := Written.whole (List.cons_ne_nil _ _)
        (.cons h (List.rel_append hs (.cons hnull .nil)))
      rw [Text.intercalate_cons_eq_flatMap] at hoption ⊢
      simpa using hoption

/-- A type without a bar in its text has one alternative, which a suffix may follow. -/
lemma suffixed_of_not_occursIn (h : Written .whole types u)
    (hbar : Text.occursIn " | ".toList u = false) : Written .suffixed types u := by
  cases h with
  | whole hne h =>
    cases h with
    | nil => exact absurd rfl hne
    | cons h hs =>
      cases hs with
      | nil => simpa using h
      | cons h' hs =>
        refine absurd (Text.occursIn_iff_isInfix.mpr ?_) (Bool.eq_false_iff.mp hbar)
        rw [List.intercalate_cons_cons]
        exact ⟨_, _, rfl⟩

/-- The parentheses stand where they are needed: if there is a bar in the text of an element. -/
lemma arrayOf {element : String} (h : Written .whole types element.toList) :
    Written .whole [.array types] (arrayOf element).toList := by
  rw [Target.arrayOf]
  split
  case isTrue hbar =>
    simpa [arrayType] using single (array (bare (group h)))
  case isFalse hbar =>
    rw [String.toList_append]
    exact single (array (h.suffixed_of_not_occursIn (Bool.eq_false_iff.mpr hbar)))

lemma mapOf {key value : List Alternative} {k v : String} (hk : Written .whole key k.toList)
    (hv : Written .whole value v.toList) :
    Written .whole [.map key value] ("Map<" ++ k ++ ", " ++ v ++ ">").toList := by
  simpa using single (bare (map hk hv))

lemma tupleOf {members : List (List Alternative)} {texts : List String}
    (h : List.Forall₂ (fun types text => Written .whole types text.toList) members texts) :
    Written .whole [.tuple members] ("[" ++ ", ".intercalate texts ++ "]").toList := by
  simpa [String.toList_intercalate] using
    single (bare (tuple (List.forall₂_map_right_iff.mpr h)))

end Written

lemma isWord_toTypeScript (p : Primitive) : IsWord (Primitive.toTypeScript p) := by
  cases p <;> decide

mutual

/-- The text of a contract type is read as the tree that is meant, if the names that are shown are
words. -/
theorem written_toTypeScript_of_shownNames (type : TypeRef)
    (h : ∀ name ∈ Schema.shownNames type, IsWord name) :
    Written .whole (intended type) (toTypeScript type).toList := by
  cases type with
  | primitive p => exact .ofWord (isWord_toTypeScript p)
  | option inner =>
    rw [toTypeScript, String.toList_append]
    exact (written_toTypeScript_of_shownNames inner h).option
  | result ok err => exact written_toTypeScript_of_shownNames ok h
  | vec element => exact (written_toTypeScript_of_shownNames element h).arrayOf
  | map key value =>
    obtain ⟨hkey, hvalue⟩ := List.forall_mem_append.mp h
    exact .mapOf (written_toTypeScript_of_shownNames key hkey)
      (written_toTypeScript_of_shownNames value hvalue)
  | tuple members => exact .tupleOf (written_toTypeScripts_of_shownNames members h)
  | bytesN size => exact .ofWord (by decide : IsWord "string")
  | custom name => exact .ofWord (h name List.mem_cons_self)

lemma written_toTypeScripts_of_shownNames (members : List TypeRef)
    (h : ∀ name ∈ Schema.shownNamesOf members, IsWord name) :
    List.Forall₂ (fun types text => Written .whole types text.toList) (intendeds members)
      (toTypeScripts members) := by
  cases members with
  | nil => exact .nil
  | cons member members =>
    obtain ⟨hmember, hmembers⟩ := List.forall_mem_append.mp h
    exact .cons (written_toTypeScript_of_shownNames member hmember)
      (written_toTypeScripts_of_shownNames members hmembers)

end

/-- **The text of a contract type is read as the tree that is meant, and as no other.** -/
theorem written_toTypeScript_iff (type : TypeRef) (h : ∀ name ∈ type.customNames, IsWord name)
    (types : List Alternative) :
    Written .whole types (toTypeScript type).toList ↔ types = intended type := by
  have hintended := written_toTypeScript_of_shownNames type
    fun name hname => h name (Schema.mem_customNames_of_mem_shownNames type hname)
  constructor
  · exact fun hwritten => hwritten.unique hintended
  · rintro rfl
    exact hintended

/-- An option in a vector needs the parentheses, here behind a result and inside a map. -/
theorem written_toTypeScript_iff_nested :
    (∀ name ∈ (TypeRef.vec (.result (.option (.map (.custom "Config")
      (.vec (.option (.primitive .u64))))) (.custom "Error"))).customNames, IsWord name) ∧
    ∀ types, Written .whole types "(Map<Config, (bigint | null)[]> | null)[]".toList ↔
      types = [.array [.map [.name "Config"] [.array [.name "bigint", .name "null"]],
        .name "null"]] :=
  ⟨by decide, written_toTypeScript_iff
    (.vec (.result (.option (.map (.custom "Config") (.vec (.option (.primitive .u64)))))
      (.custom "Error"))) (by decide)⟩

end TypeScript

end Target

end ContractInterface
