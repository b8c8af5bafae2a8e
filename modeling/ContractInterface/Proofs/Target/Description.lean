/-
# Descriptions survive escaping

A description stands in generated code as the body of a literal, in which a backslash is the escape
of a backslash or of a quote.  It is escaped by four replacements, one after the other, none of
which disturbs what another one has written.  So the body reads back as the description with its
line breaks replaced, and the literal ends at the quotes that are written behind the body.  The main
results are

* `escapeChars_eq_replaceAll`: escaping is the four replacements;
* `readBody_escapeChars`: a body reads back;
* `readLiteral_append`: a body that reads back ends at the quotes behind it;
* `doc_within_literal`: no description ends the literal that it stands in.
-/
import Mathlib.Data.List.Basic
import ContractInterface.Schema.Pydantic
import ContractInterface.Target.Zod

namespace ContractInterface

/-! ### Replacing a part of a text -/

namespace Text

/-- Replaces a part wherever it occurs; `skip` characters of an occurrence are still to pass. -/
def replaceFrom (part new : List Char) : (skip : Nat) → List Char → List Char
  | _, [] => []
  | skip + 1, _ :: rest => replaceFrom part new skip rest
  | 0, c :: rest =>
    if part.isPrefixOf (c :: rest) then new ++ replaceFrom part new (part.length - 1) rest
    else c :: replaceFrom part new 0 rest

/-- A sequence of characters with a part replaced wherever it occurs, from the left and without
overlaps. -/
def replaceAll (part new chars : List Char) : List Char :=
  replaceFrom part new 0 chars

section Replace

variable {part new rest : List Char} {c d : Char}

lemma replaceAll_cons_of_not_isPrefix (h : ¬part <+: c :: rest) :
    replaceAll part new (c :: rest) = c :: replaceAll part new rest := by
  rw [replaceAll, replaceFrom, if_neg (by rwa [List.isPrefixOf_iff_prefix])]
  rfl

/-- An occurrence of two characters is replaced. -/
@[simp] lemma replaceAll_pair :
    replaceAll [c, d] new (c :: d :: rest) = new ++ replaceAll [c, d] new rest := by
  simp [replaceAll, replaceFrom]

/-- A single character is replaced at each of its places. -/
lemma replaceAll_singleton (chars : List Char) :
    replaceAll [d] new chars = chars.flatMap fun c => if c = d then new else [c] := by
  induction chars with
  | nil => rfl
  | cons c rest ih =>
    rw [List.flatMap_cons, ← ih]
    by_cases h : c = d
    · subst h
      simp [replaceAll, replaceFrom]
    · have hprefix : ¬[d] <+: c :: rest := fun hp => h (List.cons_prefix_cons.mp hp).1.symm
      rw [if_neg h, replaceAll_cons_of_not_isPrefix hprefix]
      rfl

end Replace

end Text

namespace Target

open Text (replaceAll replaceAll_singleton replaceAll_cons_of_not_isPrefix)

/-! ### Escaping is four replacements -/

/-- Characters with a blank in place of each line break: each line feed, with the carriage return
before it if there is one. -/
def flattened (chars : List Char) : List Char :=
  replaceAll ['\n'] [' '] (replaceAll ['\r', '\n'] [' '] chars)

/-- A backslash or a quote behind a backslash, and any other character. -/
def quoted (c : Char) : List Char :=
  if c = '\\' then ['\\', '\\'] else if c = '"' then ['\\', '"'] else [c]

section Flattened

variable {c : Char} {rest : List Char}

lemma flattened_crlf : flattened ('\r' :: '\n' :: rest) = ' ' :: flattened rest := by
  simp [flattened, replaceAll_singleton]

lemma flattened_cons (h : c = '\r' → rest.head? ≠ some '\n') :
    flattened (c :: rest) = (if c = '\n' then ' ' else c) :: flattened rest := by
  have hprefix : ¬['\r', '\n'] <+: c :: rest := by
    intro hp
    obtain ⟨rfl, hrest⟩ := List.cons_prefix_cons.mp hp
    obtain ⟨back, rfl⟩ := hrest
    exact h rfl rfl
  rw [flattened, replaceAll_cons_of_not_isPrefix hprefix, flattened]
  simp only [replaceAll_singleton, List.flatMap_cons]
  split <;> rfl

lemma flattened_of_ne (hreturn : c ≠ '\r') (hfeed : c ≠ '\n') :
    flattened (c :: rest) = c :: flattened rest := by
  rw [flattened_cons fun h => absurd h hreturn, if_neg hfeed]

lemma flattened_feed : flattened ('\n' :: rest) = ' ' :: flattened rest :=
  flattened_cons fun h => absurd h (by decide)

end Flattened

lemma replaceAll_quotes (chars : List Char) :
    replaceAll ['"'] ['\\', '"'] (replaceAll ['\\'] ['\\', '\\'] chars) = chars.flatMap quoted := by
  rw [replaceAll_singleton, replaceAll_singleton, List.flatMap_assoc]
  refine List.flatMap_congr fun c _ => ?_
  rw [quoted]
  split
  · rfl
  · simp

/-- No line feed is put in front of characters by escaping them. -/
lemma head?_flatMap_quoted {chars : List Char} (h : chars.head? ≠ some '\n') :
    (chars.flatMap quoted).head? ≠ some '\n' := by
  cases chars with
  | nil => exact nofun
  | cons c rest =>
    rw [List.flatMap_cons, quoted]
    split
    · simp
    · split
      · simp
      · simpa using h

/-- **Escaping is four replacements**, one after the other. -/
theorem escapeChars_eq_replaceAll (chars : List Char) :
    escapeChars chars = replaceAll ['\n'] [' '] (replaceAll ['\r', '\n'] [' ']
      (replaceAll ['"'] ['\\', '"'] (replaceAll ['\\'] ['\\', '\\'] chars))) := by
  rw [replaceAll_quotes]
  change escapeChars chars = flattened (chars.flatMap quoted)
  fun_induction escapeChars chars with
  | case1 => rfl
  | case2 rest ih => rw [ih]; exact flattened_crlf.symm
  | case3 rest ih => rw [ih]; exact flattened_feed.symm
  | case4 rest ih | case5 rest ih =>
    rw [ih, ← flattened_of_ne (by decide) (by decide), ← flattened_of_ne (by decide) (by decide)]
    rfl
  | case6 c rest hcrlf hfeed hslash hquote ih =>
    have hsingle : quoted c = [c] := by rw [quoted, if_neg hslash, if_neg hquote]
    -- a carriage return without a line feed behind it is kept, and escaping puts none there
    have hhead : c = '\r' → (rest.flatMap quoted).head? ≠ some '\n' := by
      intro hc
      refine head?_flatMap_quoted fun hrest => ?_
      obtain ⟨back, rfl⟩ := List.head?_eq_some_iff.mp hrest
      exact hcrlf back hc rfl
    rw [ih, List.flatMap_cons, hsingle, List.singleton_append, flattened_cons hhead, if_neg hfeed]

/-! ### Reading a literal -/

/-- The text that the body of a literal stands for.  Only backslashes and quotes are escaped, and no
quote stands alone. -/
def readBody : List Char → Option (List Char)
  | [] => some []
  | '\\' :: '\\' :: rest => (readBody rest).map ('\\' :: ·)
  | '\\' :: '"' :: rest => (readBody rest).map ('"' :: ·)
  | '\\' :: _ => none
  | '"' :: _ => none
  | c :: rest => (readBody rest).map (c :: ·)

/-- Reads a literal up to the first quotes that close it: the text that it stands for, and what is
behind it. -/
def readLiteral (quotes : List Char) : List Char → Option (List Char × List Char)
  | [] => none
  | '\\' :: '\\' :: rest => (readLiteral quotes rest).map (Prod.map ('\\' :: ·) id)
  | '\\' :: '"' :: rest => (readLiteral quotes rest).map (Prod.map ('"' :: ·) id)
  | '\\' :: _ => none
  | c :: rest =>
    if quotes.isPrefixOf (c :: rest) then some ([], (c :: rest).drop quotes.length)
    else (readLiteral quotes rest).map (Prod.map (c :: ·) id)

section Reading

variable {c : Char} {rest body value back quotes : List Char}

lemma readBody_cons (hslash : c ≠ '\\') (hquote : c ≠ '"') :
    readBody (c :: rest) = (readBody rest).map (c :: ·) := by
  rw [readBody]
  · exact fun _ h => absurd h hslash
  · exact fun _ h => absurd h hslash
  · exact hslash
  · exact hquote

/-- **A description reads back from its escaped form**, but for its line breaks. -/
theorem readBody_escapeChars (chars : List Char) :
    readBody (escapeChars chars) = some (flattened chars) := by
  fun_induction escapeChars chars with
  | case1 => rfl
  | case2 rest ih =>
    rw [flattened_crlf, readBody_cons (by decide) (by decide), ih, Option.map_some]
  | case3 rest ih =>
    rw [flattened_feed, readBody_cons (by decide) (by decide), ih, Option.map_some]
  | case4 rest ih | case5 rest ih =>
    rw [flattened_of_ne (by decide) (by decide), readBody, ih, Option.map_some]
  | case6 c rest hcrlf hfeed hslash hquote ih =>
    have hhead : c = '\r' → rest.head? ≠ some '\n' := by
      intro hc hrest
      obtain ⟨back, rfl⟩ := List.head?_eq_some_iff.mp hrest
      exact hcrlf back hc rfl
    rw [flattened_cons hhead, if_neg hfeed, readBody_cons hslash hquote, ih, Option.map_some]

lemma readLiteral_close (hquotes : quotes.head? = some '"') :
    readLiteral quotes (quotes ++ back) = some ([], back) := by
  obtain ⟨more, rfl⟩ := List.head?_eq_some_iff.mp hquotes
  have hprefix : ('"' :: more).isPrefixOf ('"' :: (more ++ back)) = true :=
    List.isPrefixOf_iff_prefix.mpr (List.prefix_append ('"' :: more) back)
  rw [List.cons_append, readLiteral, if_pos hprefix]
  · simp
  all_goals simp

lemma readLiteral_cons (hquotes : quotes.head? = some '"') (hslash : c ≠ '\\') (hquote : c ≠ '"') :
    readLiteral quotes (c :: rest) = (readLiteral quotes rest).map (Prod.map (c :: ·) id) := by
  obtain ⟨more, rfl⟩ := List.head?_eq_some_iff.mp hquotes
  have hprefix : ¬('"' :: more).isPrefixOf (c :: rest) = true := by
    rw [List.isPrefixOf_iff_prefix, List.cons_prefix_cons]
    exact fun h => hquote h.1.symm
  rw [readLiteral, if_neg hprefix]
  all_goals simp [hslash]

/-- **A body that reads back ends at the quotes behind it**, one or several. -/
theorem readLiteral_append (hquotes : quotes.head? = some '"') (h : readBody body = some value) :
    readLiteral quotes (body ++ (quotes ++ back)) = some (value, back) := by
  fun_induction readBody body generalizing value with
  | case1 => rw [← Option.some.inj h]; exact readLiteral_close hquotes
  | case2 rest ih | case3 rest ih =>
    obtain ⟨value, hvalue, rfl⟩ := Option.map_eq_some_iff.mp h
    rw [List.cons_append, List.cons_append, readLiteral, ih hvalue]
    rfl
  -- a body with a lone backslash or a quote does not read back
  | case4 => cases h
  | case5 => cases h
  | case6 c rest _ _ hslash hquote ih =>
    obtain ⟨value, hvalue, rfl⟩ := Option.map_eq_some_iff.mp h
    rw [List.cons_append, readLiteral_cons hquotes hslash hquote, ih hvalue]
    rfl

end Reading

/-! ### Descriptions in generated code -/

/-- A text in which a literal between given quotes stands for a value: what is in front of the
literal, and what is behind it. -/
def HoldsLiteral (quotes front value back text : List Char) : Prop :=
  ∃ rest, text = front ++ (quotes ++ rest) ∧ readLiteral quotes rest = some (value, back)

section Docs

variable {α : Type} [Label α]

/-- The text of a description; one that is missing or no text is empty. -/
def docText (doc : Option α) : String :=
  (doc.bind Label.text?).getD ""

lemma toList_escapeDoc (doc : Option α) :
    (escapeDoc doc).toList = escapeChars (docText doc).toList := by
  rw [escapeDoc, docText]
  cases doc.bind Label.text? with
  | none => rfl
  | some text => exact String.toList_ofList

lemma readBody_escapeDoc (doc : Option α) :
    readBody (escapeDoc doc).toList = some (flattened (docText doc).toList) := by
  rw [toList_escapeDoc, readBody_escapeChars]

/-- The escaped form of a description is the body of a literal, whatever the quotes are. -/
lemma holdsLiteral_escapeDoc (quotes front back : String) (doc : Option α)
    (hquotes : quotes.toList.head? = some '"') :
    HoldsLiteral quotes.toList front.toList (flattened (docText doc).toList) back.toList
      (front ++ (quotes ++ (escapeDoc doc ++ (quotes ++ back)))).toList := by
  simp only [String.toList_append]
  exact ⟨_, rfl, readLiteral_append hquotes (readBody_escapeDoc doc)⟩

/-- What stands in front of the literal in a member of a validator. -/
lemma exists_zodField_eq (pending : List String) (name : α) (type : TypeRef) (doc : Option α) :
    ∃ front : String, zodField pending ⟨name, type, doc⟩ =
      front ++ ".describe(" ++ ("\"" ++ (escapeDoc doc ++ ("\"" ++ ")"))) := by
  have hopen : ".describe(\"" = ".describe(" ++ "\"" := rfl
  have hclose : "\")" = "\"" ++ ")" := rfl
  refine ⟨Label.shown name ++ ": " ++ toZod pending type ++
    if type.isOption then ".optional()" else "", ?_⟩
  rw [zodField, hopen, hclose]
  simp only [String.append_assoc]

/-- What stands in front of the literal in the declaration of a field. -/
lemma exists_pydanticDeclaration_eq (name : String) (type : TypeRef) (doc : Option α) :
    ∃ front : String, pydanticDeclaration name type doc =
      front ++ ", description=" ++ ("\"" ++ (escapeDoc doc ++ ("\"" ++ ")"))) := by
  have hcomma : ", description=" = ", " ++ "description=" := rfl
  have hopen : "description=\"" = "description=" ++ "\"" := rfl
  generalize hdefault : (if type.isOption then "None" else "...") = default
  refine ⟨name ++ ": " ++ toPydantic type ++ " = Field(" ++
    ", ".intercalate (default :: lengthArguments type), ?_⟩
  rw [pydanticDeclaration, hdefault, hcomma, hopen]
  simp only [String.intercalate_append_of_ne_nil (List.cons_ne_nil _ _) (List.cons_ne_nil _ _),
    String.intercalate_singleton, String.append_assoc]

/-- **No description ends the literal that it stands in.**  The escaped form of a description comes
from it by four replacements.  As the body of a literal it reads back as the description with a
blank for each line break, and it holds no other quotes and no lone backslash.  So the literal that
describes a member of a validator, a field of a model, or a model, stands for this text, and it is
followed by what is written behind it. -/
theorem doc_within_literal (doc : Option α) :
    (escapeDoc doc).toList = replaceAll ['\n'] [' '] (replaceAll ['\r', '\n'] [' ']
        (replaceAll ['"'] ['\\', '"'] (replaceAll ['\\'] ['\\', '\\'] (docText doc).toList))) ∧
    readBody (escapeDoc doc).toList = some (flattened (docText doc).toList) ∧
    (∀ pending name type, ∃ front : String,
      HoldsLiteral ['"'] (front ++ ".describe(").toList (flattened (docText doc).toList) [')']
        (zodField pending (⟨name, type, doc⟩ : FieldDecl α)).toList) ∧
    (∀ name type, ∃ front : String,
      HoldsLiteral ['"'] (front ++ ", description=").toList (flattened (docText doc).toList) [')']
        (pydanticDeclaration name type doc).toList) ∧
    ∀ line ∈ Schema.docLines doc, HoldsLiteral ['"', '"', '"'] "    ".toList
      (flattened (docText doc).toList) [] line.toList := by
  refine ⟨?_, readBody_escapeDoc doc, fun pending name type => ?_, fun name type => ?_,
    fun line hline => ?_⟩
  · rw [toList_escapeDoc, escapeChars_eq_replaceAll]
  · obtain ⟨front, hfield⟩ := exists_zodField_eq pending name type doc
    rw [hfield]
    exact ⟨front, holdsLiteral_escapeDoc "\"" _ _ doc rfl⟩
  · obtain ⟨front, hfield⟩ := exists_pydanticDeclaration_eq name type doc
    rw [hfield]
    exact ⟨front, holdsLiteral_escapeDoc "\"" _ _ doc rfl⟩
  · have hquotes : "    \"\"\"" = "    " ++ "\"\"\"" := rfl
    rw [Schema.docLines] at hline
    split at hline
    · rw [List.mem_singleton.mp hline, hquotes, String.append_assoc, String.append_assoc]
      exact holdsLiteral_escapeDoc "\"\"\"" _ "" doc rfl
    · cases hline

/-- Quotes, a backslash in front of quotes or at the end, and line breaks of either kind. -/
theorem doc_within_literal_quotes :
    "    \"\"\"end \\\"\\\"\\\", \\\\\\\" and \\\\\"\"\"" ∈
      Schema.docLines (some "end \"\"\",\r\n\\\" and\n\\") ∧
    HoldsLiteral ['"', '"', '"'] "    ".toList "end \"\"\", \\\" and \\".toList []
      "    \"\"\"end \\\"\\\"\\\", \\\\\\\" and \\\\\"\"\"".toList := by
  have hline : "    \"\"\"end \\\"\\\"\\\", \\\\\\\" and \\\\\"\"\"" ∈
      Schema.docLines (some "end \"\"\",\r\n\\\" and\n\\") := by decide
  obtain ⟨-, -, -, -, hlines⟩ := doc_within_literal (some "end \"\"\",\r\n\\\" and\n\\")
  exact ⟨hline, hlines _ hline⟩

end Docs

end Target

end ContractInterface
