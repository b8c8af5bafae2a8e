/-
# Brackets in texts

The brackets of a text cut it into pieces: characters, and groups of pieces between two brackets
of a kind.  What stands between brackets may be items behind each other, with commas between them.
The main results are

* `Reads.unique` and `Reads.text_unique`: a text has one list of pieces, which no other text has;
* `call_inj`: words in front of a group are told apart by their ends;
* `joined_inj`: items without commas are told apart at the commas between them.
-/
import ContractInterface.Proofs.Target.Grammar

namespace ContractInterface.Target

/-! ### Pieces -/

/-- A kind of brackets. -/
inductive Bracket where
  | round
  | square

namespace Bracket

/-- The bracket in front of a group. -/
@[simp]
def opening : Bracket → Char
  | .round => '('
  | .square => '['

/-- The bracket behind a group. -/
@[simp]
def closing : Bracket → Char
  | .round => ')'
  | .square => ']'

/-- The brackets of all kinds. -/
def all : List Char := ['(', ')', '[', ']']

lemma opening_mem (b : Bracket) : b.opening ∈ all := by cases b <;> decide

lemma closing_mem (b : Bracket) : b.closing ∈ all := by cases b <;> decide

lemma opening_ne_closing (b b' : Bracket) : b.opening ≠ b'.closing := by
  cases b <;> cases b' <;> decide

lemma opening_inj {b b' : Bracket} (h : b.opening = b'.opening) : b = b' := by
  cases b <;> cases b' <;> first | rfl | exact absurd h (by decide)

end Bracket

/-- A piece of a text. -/
inductive Piece where
  | char (c : Char)
  | group (b : Bracket) (inner : List Piece)

/-- The pieces that the brackets of a text cut it into. -/
inductive Reads : List Char → List Piece → Prop where
  | nil : Reads [] []
  | char {c : Char} {u : List Char} {ps : List Piece} (hc : c ∉ Bracket.all) (h : Reads u ps) :
      Reads (c :: u) (.char c :: ps)
  | group (b : Bracket) {u v : List Char} {ps qs : List Piece} (hu : Reads u ps)
      (hv : Reads v qs) : Reads (b.opening :: (u ++ b.closing :: v)) (.group b ps :: qs)

/-- What may follow pieces: nothing, or a bracket behind a group. -/
def Closes (rest : List Char) : Prop :=
  ∀ c ∈ rest.head?, ∃ b : Bracket, c = b.closing

lemma closes_nil : Closes [] := nofun

lemma closes_closing (b : Bracket) {rest : List Char} : Closes (b.closing :: rest) := by
  rintro _ ⟨⟩
  exact ⟨b, rfl⟩

lemma not_closes_cons {c : Char} {rest : List Char} (hc : c ∉ Bracket.all) :
    ¬Closes (c :: rest) := by
  intro h
  obtain ⟨b, rfl⟩ := h c rfl
  exact hc b.closing_mem

lemma not_closes_opening (b : Bracket) {rest : List Char} : ¬Closes (b.opening :: rest) := by
  intro h
  obtain ⟨b', hb⟩ := h _ rfl
  exact b.opening_ne_closing b' hb

namespace Reads

variable {u v : List Char} {ps qs : List Piece}

/-- Pieces in front of the end of a group, or of the text, end there whatever they are. -/
lemma append_inj {rest rest' : List Char} (h : Reads u ps) (h' : Reads v qs)
    (hr : Closes rest) (hr' : Closes rest') (heq : u ++ rest = v ++ rest') :
    ps = qs ∧ u = v := by
  induction h generalizing v qs rest rest' with
  | nil =>
    cases h' with
    | nil => exact ⟨rfl, rfl⟩
    | char hc h' =>
      obtain rfl : rest = _ := heq
      exact absurd hr (not_closes_cons hc)
    | group b' hu' hv' =>
      obtain rfl : rest = _ := heq
      exact absurd hr (not_closes_opening b')
  | char hc h ih =>
    cases h' with
    | nil =>
      obtain rfl : _ = rest' := heq
      exact absurd hr' (not_closes_cons hc)
    | char hc' h' =>
      obtain ⟨rfl, htail⟩ := List.cons.inj heq
      obtain ⟨rfl, rfl⟩ := ih h' hr hr' htail
      exact ⟨rfl, rfl⟩
    | group b' hu' hv' =>
      obtain ⟨rfl, -⟩ := List.cons.inj heq
      exact absurd b'.opening_mem hc
  | group b hu hv ihu ihv =>
    cases h' with
    | nil =>
      obtain rfl : _ = rest' := heq
      exact absurd hr' (not_closes_opening b)
    | char hc' h' =>
      obtain ⟨rfl, -⟩ := List.cons.inj heq
      exact absurd b.opening_mem hc'
    | group b' hu' hv' =>
      simp only [List.cons_append, List.append_assoc, List.cons.injEq] at heq
      obtain ⟨hb, htail⟩ := heq
      obtain rfl := Bracket.opening_inj hb
      -- the group ends at the same place, as its bracket may follow either of the two
      obtain ⟨rfl, rfl⟩ := ihu hu' (closes_closing b) (closes_closing b) htail
      obtain ⟨rfl, rfl⟩ := ihv hv' hr hr' (List.cons.inj (List.append_cancel_left htail)).2
      exact ⟨rfl, rfl⟩

/-- **A text has one list of pieces.** -/
theorem unique (h : Reads u ps) (h' : Reads u qs) : ps = qs :=
  (h.append_inj h' closes_nil closes_nil rfl).1

/-- **A list of pieces is that of one text.** -/
theorem text_unique (h : Reads u ps) (h' : Reads v ps) : u = v := by
  induction h generalizing v with
  | nil => cases h'; rfl
  | char hc h ih =>
    cases h' with
    | char hc' h' => rw [ih h']
  | group b hu hv ihu ihv =>
    cases h' with
    | group b hu' hv' => rw [ihu hu', ihv hv']

lemma append (h : Reads u ps) (h' : Reads v qs) : Reads (u ++ v) (ps ++ qs) := by
  induction h with
  | nil => exact h'
  | char hc h ih => exact .char hc ih
  | group b hu hv ihu ihv =>
    rw [List.cons_append, List.append_assoc, List.cons_append]
    exact .group b hu ihv

end Reads

/-! ### Words -/

/-- The characters of a text, as pieces. -/
def chars (word : String) : List Piece := word.toList.map .char

lemma char_injective : Function.Injective Piece.char := fun _ _ => Piece.char.inj

lemma Reads.map_char {cs : List Char} (h : ∀ c ∈ cs, c ∉ Bracket.all) :
    Reads cs (cs.map .char) := by
  induction cs with
  | nil => exact .nil
  | cons c cs ih =>
    exact .char (h c List.mem_cons_self) (ih fun d hd => h d (List.mem_cons_of_mem _ hd))

lemma chars_inj {word word' : String} (h : chars word = chars word') : word = word' :=
  String.toList_inj.mp (List.map_injective_iff.mpr char_injective h)

/-- A text whose characters end those of another one is an end of it. -/
lemma isSuffix_of_append_chars {mid : List Piece} {word word' : String}
    (h : chars word' = mid ++ chars word) : word.toList <:+ word'.toList := by
  obtain ⟨front, last, hword', -, hlast⟩ := List.map_eq_append_iff.mp h
  exact ⟨front, by rw [hword', List.map_injective_iff.mpr char_injective hlast]⟩

/-- A group behind a word, and whatever stands in front of it. -/
def call (b : Bracket) (front : List Piece) (word : String) (inner : List Piece) : List Piece :=
  front ++ chars word ++ [.group b inner]

/-- No word has a bracket in it. -/
lemma Reads.chars {word : String} (h : IsWord word) : Reads word.toList (chars word) := by
  have hsubset : Bracket.all ⊆ delimiters := by decide
  exact .map_char fun c hc hb => h.not_mem c hc (hsubset hb)

lemma Reads.call {b : Bracket} {u v : List Char} {front inner : List Piece} {word : String}
    (hu : Reads u front) (hword : IsWord word) (hv : Reads v inner) :
    Reads (u ++ word.toList ++ b.opening :: (v ++ [b.closing])) (call b front word inner) :=
  (hu.append (.chars hword)).append (.group b hv .nil)

/-- None of the words ends in another one. -/
def SuffixFree (words : List String) : Prop :=
  ∀ w ∈ words, ∀ w' ∈ words, w.toList <:+ w'.toList → w = w'

instance (words : List String) : Decidable (SuffixFree words) :=
  inferInstanceAs (Decidable (∀ w ∈ words, ∀ w' ∈ words, w.toList <:+ w'.toList → w = w'))

section Call

variable {b b' : Bracket} {front front' inner inner' : List Piece} {word word' : String}

/-- **Words in front of a group are told apart by their ends.** -/
theorem call_inj {words : List String} (hwords : SuffixFree words) (hw : word ∈ words)
    (hw' : word' ∈ words) (h : call b front word inner = call b' front' word' inner') :
    front = front' ∧ word = word' ∧ inner = inner' := by
  rw [call, call, List.append_singleton_inj] at h
  obtain ⟨hfront, hgroup⟩ := h
  have hword : word = word' := by
    rcases List.append_eq_append_iff.mp hfront with ⟨mid, -, hmid⟩ | ⟨mid, -, hmid⟩
    · exact (hwords _ hw' _ hw (isSuffix_of_append_chars hmid)).symm
    · exact hwords _ hw _ hw' (isSuffix_of_append_chars hmid)
  subst hword
  exact ⟨List.append_cancel_right hfront, rfl, (Piece.group.inj hgroup).2⟩

lemma call_ne_chars : call b front word inner ≠ chars word' := by
  intro h
  have hmem : Piece.group b inner ∈ chars word' := by rw [← h, call]; simp
  simp [chars] at hmem

end Call

/-! ### Items -/

/-- Pieces that may stand as an item between commas. -/
structure IsItem (ps : List Piece) : Prop where
  ne_nil : ps ≠ []
  comma_not_mem : Piece.char ',' ∉ ps

lemma isItem_chars {word : String} (h : IsWord word) : IsItem (chars word) where
  ne_nil := by simpa [chars] using h.ne_nil
  comma_not_mem hmem := by
    obtain ⟨c, hc, hcomma⟩ := List.mem_map.mp hmem
    exact h.not_mem c hc (by rw [Piece.char.inj hcomma]; decide)

lemma isItem_call {b : Bracket} {front inner : List Piece} {word : String}
    (hfront : Piece.char ',' ∉ front) (hword : IsWord word) :
    IsItem (call b front word inner) where
  ne_nil := by simp [call]
  comma_not_mem := by simp [call, hfront, (isItem_chars hword).comma_not_mem]

/-- Items with commas between them. -/
def joined (items : List (List Piece)) : List Piece := (chars ", ").intercalate items

lemma joined_cons_cons (item second : List Piece) (items : List (List Piece)) :
    joined (item :: second :: items) =
      item ++ .char ',' :: .char ' ' :: joined (second :: items) := by
  rw [joined, List.intercalate_cons_cons, List.append_assoc]
  rfl

lemma Reads.joined {texts : List (List Char)} {items : List (List Piece)}
    (h : List.Forall₂ Reads texts items) :
    Reads (", ".toList.intercalate texts) (joined items) := by
  have hcomma : Reads ", ".toList (Target.chars ", ") := .map_char (by simp [Bracket.all])
  cases h with
  | nil => exact .nil
  | cons h hs =>
    rw [Target.joined, Text.intercalate_cons_eq_flatMap, Text.intercalate_cons_eq_flatMap]
    refine h.append ?_
    induction hs with
    | nil => exact .nil
    | cons h hs ih => exact (hcomma.append h).append ih

/-- Two lists are cut at the first place of an element. -/
lemma append_cons_inj_of_not_mem {α : Type} {a : α} {as bs rest rest' : List α} (ha : a ∉ as)
    (hb : a ∉ bs) (h : as ++ a :: rest = bs ++ a :: rest') : as = bs ∧ rest = rest' := by
  rcases List.append_eq_append_iff.mp h with ⟨mid, rfl, hmid⟩ | ⟨mid, rfl, hmid⟩
  · cases mid with
    | nil => exact ⟨by simp, by simpa using hmid⟩
    | cons c mid => exact absurd (by simp [(List.cons.inj hmid).1]) hb
  · cases mid with
    | nil => exact ⟨by simp, by simpa using hmid.symm⟩
    | cons c mid => exact absurd (by simp [(List.cons.inj hmid).1]) ha

/-- **Items are told apart at the commas between them.** -/
theorem joined_inj {items items' : List (List Piece)} (h : ∀ item ∈ items, IsItem item)
    (h' : ∀ item ∈ items', IsItem item) (heq : joined items = joined items') : items = items' := by
  induction items generalizing items' with
  | nil =>
    cases items' with
    | nil => rfl
    | cons item' items' =>
      rw [joined, joined, Text.intercalate_cons_eq_flatMap] at heq
      exact absurd (List.append_eq_nil_iff.mp heq.symm).1 (h' item' List.mem_cons_self).ne_nil
  | cons item items ih =>
    cases items' with
    | nil =>
      rw [joined, joined, Text.intercalate_cons_eq_flatMap] at heq
      exact absurd (List.append_eq_nil_iff.mp heq).1 (h item List.mem_cons_self).ne_nil
    | cons item' items' =>
      have hitem := (h item List.mem_cons_self).comma_not_mem
      have hitem' := (h' item' List.mem_cons_self).comma_not_mem
      cases items with
      | nil =>
        cases items' with
        | nil => simpa [joined] using heq
        | cons second' items' =>
          rw [joined, joined, List.intercalate_singleton, List.intercalate_cons_cons] at heq
          exact absurd (by simp [heq, chars]) hitem
      | cons second items =>
        cases items' with
        | nil =>
          rw [joined, joined, List.intercalate_singleton, List.intercalate_cons_cons] at heq
          exact absurd (by simp [← heq, chars]) hitem'
        | cons second' items' =>
          rw [joined_cons_cons, joined_cons_cons] at heq
          obtain ⟨rfl, htail⟩ := append_cons_inj_of_not_mem hitem hitem' heq
          rw [ih (fun i hi => h i (List.mem_cons_of_mem _ hi))
            (fun i hi => h' i (List.mem_cons_of_mem _ hi)) (List.cons.inj htail).2]

end ContractInterface.Target
