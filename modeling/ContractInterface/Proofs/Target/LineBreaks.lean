/-
# Line breaks in declarations

Both target languages end a line at a line feed and at a carriage return.  The words of a
declaration hold neither of them, so the line breaks in a declaration are those of the names in it
and those that are left of its description.  Escaping takes every line feed out of a description,
with the carriage return before it, and it leaves the other carriage returns.  The main results are

* `lineBreaks_escapeDoc`: what is left of the line breaks of a description;
* `lineBreaks_typeParts`: the line breaks in the text of a type are those of its names;
* `lineBreaks_declaration`: a declaration with plain names is on one line exactly if its description
  has no carriage return without a line feed behind it.
-/
import ContractInterface.Proofs.Json.Scalars
import ContractInterface.Proofs.Schema.Layout
import ContractInterface.Proofs.Target.Description

namespace ContractInterface.Target

open Schema (Wording Part shownNames shownNamesOf typeParts typePartsOf written zodWording
  pydanticWording)

/-! ### Line breaks of texts -/

/-- Whether a character ends a line of source text. -/
def isLineBreak (c : Char) : Bool := c = '\r' || c = '\n'

/-- The line breaks in a text, in order. -/
def lineBreaks (text : String) : List Char := text.toList.filter isLineBreak

section Texts

variable (s t : String)

@[simp] lemma lineBreaks_append : lineBreaks (s ++ t) = lineBreaks s ++ lineBreaks t := by
  simp [lineBreaks]

lemma lineBreaks_intercalate (separator : String) (hseparator : lineBreaks separator = [])
    (texts : List String) :
    lineBreaks (separator.intercalate texts) = texts.flatMap lineBreaks := by
  induction texts with
  | nil => simp [lineBreaks]
  | cons first rest ih =>
    cases rest with
    | nil => simp
    | cons second rest =>
      rw [String.intercalate_cons_cons, lineBreaks_append, lineBreaks_append, ih, hseparator]
      simp

lemma lineBreaks_toString (n : Int) : lineBreaks (toString n) = [] := by
  refine List.filter_eq_nil_iff.mpr fun c hc => ?_
  rcases Json.eq_sign_or_isDigit_of_mem_toString hc with rfl | hdigit
  · decide
  · intro hbreak
    rw [isLineBreak, Bool.or_eq_true, decide_eq_true_iff, decide_eq_true_iff] at hbreak
    rcases hbreak with rfl | rfl <;> exact absurd hdigit (by decide)

end Texts

/-! ### Descriptions -/

/-- The number of carriage returns without a line feed behind them. -/
def loneReturns : List Char → Nat
  | [] => 0
  | '\r' :: '\n' :: rest => loneReturns rest
  | c :: rest => (if c = '\r' then 1 else 0) + loneReturns rest

/-- Escaping leaves carriage returns without a line feed behind them, and no other line breaks. -/
lemma filter_isLineBreak_escapeChars (chars : List Char) :
    (escapeChars chars).filter isLineBreak = List.replicate (loneReturns chars) '\r' := by
  fun_induction escapeChars chars with
  | case1 => rfl
  | case2 rest ih => rw [List.filter_cons_of_neg (by decide), ih, loneReturns]
  | case3 rest ih =>
    rw [List.filter_cons_of_neg (by decide), ih, loneReturns, if_neg (by decide), Nat.zero_add]
    exact fun _ hchar => absurd hchar (by decide)
  | case4 rest ih | case5 rest ih =>
    rw [List.filter_cons_of_neg (by decide), List.filter_cons_of_neg (by decide), ih, loneReturns,
      if_neg (by decide), Nat.zero_add]
    exact fun _ hchar => absurd hchar (by decide)
  | case6 c rest hcrlf hfeed hslash hquote ih =>
    have hcount : loneReturns (c :: rest) = (if c = '\r' then 1 else 0) + loneReturns rest := by
      rw [loneReturns]
      exact hcrlf
    rw [hcount]
    by_cases hreturn : c = '\r'
    · subst hreturn
      rw [List.filter_cons_of_pos (by decide), ih, if_pos rfl, Nat.add_comm, List.replicate_succ]
    · have hplain : ¬isLineBreak c = true := by
        simpa [isLineBreak, hreturn] using (hfeed : ¬c = '\n')
      rw [List.filter_cons_of_neg hplain, ih, if_neg hreturn, Nat.zero_add]

/-- What there are no carriage returns without a line feed behind them means. -/
lemma loneReturns_eq_zero_iff {chars : List Char} : loneReturns chars = 0 ↔
    ∀ front back, chars = front ++ '\r' :: back → back.head? = some '\n' := by
  fun_induction loneReturns chars with
  | case1 => simp
  | case2 rest ih =>
    rw [ih]
    constructor
    · intro h front back heq
      match front, heq with
      | [], heq => rw [← (List.cons.inj heq).2]; rfl
      | [_], heq => exact absurd (List.cons.inj (List.cons.inj heq).2).1 (by decide)
      | _ :: _ :: front, heq => exact h front back (List.cons.inj (List.cons.inj heq).2).2
    · rintro h front back rfl
      exact h ('\r' :: '\n' :: front) back rfl
  | case3 c rest hcrlf ih =>
    rw [Nat.add_eq_zero_iff, ih]
    constructor
    · rintro ⟨hc, h⟩ front back heq
      match front, heq with
      | [], heq => simp [(List.cons.inj heq).1] at hc
      | _ :: front, heq => exact h front back (List.cons.inj heq).2
    · intro h
      refine ⟨if_neg fun hc => ?_, fun front back heq => h (c :: front) back (by rw [heq]; rfl)⟩
      obtain ⟨back, hback⟩ := List.head?_eq_some_iff.mp (h [] rest (by rw [hc]; rfl))
      exact hcrlf back hc hback

section Docs

variable {α : Type} [Label α]

/-- **What is left of the line breaks of a description** are the carriage returns without a line
feed behind them. -/
theorem lineBreaks_escapeDoc (doc : Option α) :
    lineBreaks (escapeDoc doc) = List.replicate (loneReturns (docText doc).toList) '\r' := by
  rw [lineBreaks, toList_escapeDoc, filter_isLineBreak_escapeChars]

end Docs

/-! ### Types -/

/-- The words of a language for types hold no line breaks. -/
structure OneLine (wording : Wording) : Prop where
  primitive : ∀ p, lineBreaks (wording.primitive p) = []
  bytesN : ∀ size, lineBreaks (wording.bytesN size) = []
  ends : ∀ ends ∈ [wording.option, wording.vec, wording.map, wording.tuple],
    lineBreaks ends.1 = [] ∧ lineBreaks ends.2 = []

lemma lineBreaks_zodText (length : Int) : lineBreaks (zodText length) = [] := by
  have htext : zodText length = "z.string().length(" ++ toString length ++ ")" := rfl
  rw [htext, lineBreaks_append, lineBreaks_append, lineBreaks_toString]
  decide

lemma oneLine_zodWording : OneLine zodWording where
  primitive p := by cases p <;> decide
  bytesN size := lineBreaks_zodText (size * 2)
  ends := by decide

lemma oneLine_pydanticWording : OneLine pydanticWording where
  primitive p := by cases p <;> decide
  bytesN _ := (by decide : lineBreaks "str" = [])
  ends := by decide

lemma lineBreaks_enclosed {wording : Wording} (hwording : OneLine wording)
    {ends : String × String}
    (hends : ends ∈ [wording.option, wording.vec, wording.map, wording.tuple]) (parts : List Part) :
    lineBreaks (written (Schema.enclosed ends parts)) = lineBreaks (written parts) := by
  obtain ⟨hopen, hclose⟩ := hwording.ends ends hends
  rw [Schema.written_enclosed, lineBreaks_append, lineBreaks_append, hopen, hclose,
    List.nil_append, List.append_nil]

lemma lineBreaks_mentions (name : String) (deferred : Bool) :
    lineBreaks (Part.mentions name deferred).written = lineBreaks name := by
  have hsuffix : lineBreaks "Schema" = [] := by decide
  have hlazy : lineBreaks "z.lazy(() => " = [] := by decide
  have hclose : lineBreaks "Schema)" = [] := by decide
  cases deferred with
  | false => rw [Part.written, lineBreaks_append, hsuffix, List.append_nil]
  | true =>
    rw [Part.written, lineBreaks_append, lineBreaks_append, hlazy, hclose, List.nil_append,
      List.append_nil]

mutual

/-- **The line breaks in the text of a type** are those of the names that it shows. -/
theorem lineBreaks_typeParts {wording : Wording} (hwording : OneLine wording)
    (pending : List String) (type : TypeRef) :
    lineBreaks (written (typeParts wording pending type)) =
      (shownNames type).flatMap lineBreaks := by
  cases type with
  | primitive p => simp [typeParts, shownNames, Part.written, hwording.primitive p]
  | option inner =>
    rw [typeParts, lineBreaks_enclosed hwording (by simp),
      lineBreaks_typeParts hwording pending inner, shownNames]
  | result ok err => rw [typeParts, lineBreaks_typeParts hwording pending ok, shownNames]
  | vec element =>
    rw [typeParts, lineBreaks_enclosed hwording (by simp),
      lineBreaks_typeParts hwording pending element, shownNames]
  | map key value =>
    have hcomma : lineBreaks ", " = [] := by decide
    rw [typeParts, lineBreaks_enclosed hwording (by simp), Schema.written_append,
      Schema.written_cons, lineBreaks_append, lineBreaks_append,
      lineBreaks_typeParts hwording pending key, lineBreaks_typeParts hwording pending value,
      shownNames, List.flatMap_append, Part.written, hcomma, List.nil_append]
  | tuple members =>
    rw [typeParts, lineBreaks_enclosed hwording (by simp), Schema.written_separated,
      lineBreaks_intercalate _ (by decide), lineBreaks_typePartsOf hwording pending members,
      shownNames]
  | bytesN size => simp [typeParts, shownNames, Part.written, hwording.bytesN size]
  | custom name => simp [typeParts, shownNames, lineBreaks_mentions]

lemma lineBreaks_typePartsOf {wording : Wording} (hwording : OneLine wording)
    (pending : List String) (members : List TypeRef) :
    ((typePartsOf wording pending members).map written).flatMap lineBreaks =
      (shownNamesOf members).flatMap lineBreaks := by
  cases members with
  | nil => rfl
  | cons member members =>
    rw [typePartsOf, List.map_cons, List.flatMap_cons, lineBreaks_typeParts hwording pending member,
      lineBreaks_typePartsOf hwording pending members, shownNamesOf, List.flatMap_append]

end

/-! ### Declarations -/

section Declarations

variable {α : Type} [Label α]

lemma lineBreaks_zodField (pending : List String) (field : FieldDecl α) :
    lineBreaks (zodField pending field) = lineBreaks (Label.shown field.name) ++
      (shownNames field.type).flatMap lineBreaks ++ lineBreaks (escapeDoc field.doc) := by
  have hcolon : lineBreaks ": " = [] := by decide
  have hleave : lineBreaks (if field.type.isOption then ".optional()" else "") = [] := by
    split <;> decide
  have hopen : lineBreaks ".describe(\"" = [] := by decide
  have hclose : lineBreaks "\")" = [] := by decide
  rw [zodField, ← Schema.written_zodParts]
  simp only [lineBreaks_append, hcolon, hleave, hopen, hclose, List.append_nil,
    lineBreaks_typeParts oneLine_zodWording]

lemma lineBreaks_lengthArguments (type : TypeRef) :
    (lengthArguments type).flatMap lineBreaks = [] := by
  rw [lengthArguments]
  cases (givenType type).textLength? with
  | none => rfl
  | some length =>
    have hmin : lineBreaks (s!"min_length={length}") = lineBreaks (toString length) :=
      lineBreaks_append "min_length=" (toString length)
    have hmax : lineBreaks (s!"max_length={length}") = lineBreaks (toString length) :=
      lineBreaks_append "max_length=" (toString length)
    simp only [List.flatMap_cons, List.flatMap_nil, hmin, hmax, lineBreaks_toString,
      List.append_nil]

lemma lineBreaks_pydanticDeclaration (name : String) (type : TypeRef) (doc : Option α) :
    lineBreaks (pydanticDeclaration name type doc) = lineBreaks name ++
      (shownNames type).flatMap lineBreaks ++ lineBreaks (escapeDoc doc) := by
  have hcolon : lineBreaks ": " = [] := by decide
  have hfield : lineBreaks " = Field(" = [] := by decide
  have hdefault : lineBreaks (if type.isOption then "None" else "...") = [] := by
    split <;> decide
  have hopen : lineBreaks "description=\"" = [] := by decide
  have hquote : lineBreaks "\"" = [] := by decide
  have hclose : lineBreaks ")" = [] := by decide
  rw [pydanticDeclaration, ← Schema.written_pydanticParts]
  simp only [lineBreaks_append, lineBreaks_intercalate ", " (by decide), List.flatMap_cons,
    List.flatMap_append, List.flatMap_nil, hcolon, hfield, hdefault, hopen, hquote, hclose,
    lineBreaks_lengthArguments, List.append_nil, List.nil_append,
    lineBreaks_typeParts oneLine_pydanticWording]

/-- **The line breaks in a declaration** whose name and type names hold none are the carriage
returns of the description that have no line feed behind them.  So both declarations of a field or
a parameter are on one line exactly if each carriage return in the description has a line feed
behind it. -/
theorem lineBreaks_declaration {field : FieldDecl α}
    (hname : lineBreaks (Label.shown field.name) = [])
    (htype : ∀ name ∈ field.type.customNames, lineBreaks name = []) (pending : List String) :
    ∀ declaration ∈ [zodField pending field, pydanticField field],
      lineBreaks declaration = List.replicate (loneReturns (docText field.doc).toList) '\r' ∧
        (lineBreaks declaration = [] ↔ ∀ front back,
          (docText field.doc).toList = front ++ '\r' :: back → back.head? = some '\n') := by
  have hnames : (shownNames field.type).flatMap lineBreaks = [] :=
    List.flatMap_eq_nil_iff.mpr fun name hshown =>
      htype name (Schema.mem_customNames_of_mem_shownNames field.type hshown)
  have hboth : ∀ declaration ∈ [zodField pending field, pydanticField field],
      lineBreaks declaration = List.replicate (loneReturns (docText field.doc).toList) '\r' := by
    intro declaration hdeclaration
    rw [List.mem_pair] at hdeclaration
    rcases hdeclaration with rfl | rfl
    · rw [lineBreaks_zodField, hname, hnames, lineBreaks_escapeDoc, List.nil_append,
        List.nil_append]
    · rw [pydanticField, lineBreaks_pydanticDeclaration, hname, hnames, lineBreaks_escapeDoc,
        List.nil_append, List.nil_append]
  intro declaration hdeclaration
  refine ⟨hboth declaration hdeclaration, ?_⟩
  rw [hboth declaration hdeclaration, List.replicate_eq_nil_iff, loneReturns_eq_zero_iff]

/-- A field whose description has line feeds, one of them behind a carriage return. -/
def payeeField : FieldDecl :=
  ⟨"payee", .option (.custom "Account"), some "Who is paid,\r\nif \"anyone\" is\n"⟩

theorem lineBreaks_declaration_payee :
    lineBreaks (Label.shown payeeField.name) = [] ∧
      (∀ name ∈ payeeField.type.customNames, lineBreaks name = []) ∧
      ∀ declaration ∈ [zodField ["Account"] payeeField, pydanticField payeeField],
        lineBreaks declaration = [] := by
  have hname : lineBreaks (Label.shown payeeField.name) = [] := by decide
  have htype : ∀ name ∈ payeeField.type.customNames, lineBreaks name = [] := by decide
  have hcount : loneReturns (docText payeeField.doc).toList = 0 := by decide
  refine ⟨hname, htype, fun declaration hdeclaration => ?_⟩
  rw [(lineBreaks_declaration hname htype ["Account"] declaration hdeclaration).1, hcount]
  rfl

/-- A field whose description has a carriage return alone. -/
def payerField : FieldDecl :=
  ⟨"payer", .custom "Account", some "Who pays.\rNever twice."⟩

/-- **Carriage returns break declarations.**  The name and the type name of a field hold no line
breaks, and the literal that describes the field has one in it. -/
theorem lineBreaks_declaration_payer :
    lineBreaks (Label.shown payerField.name) = [] ∧
      (∀ name ∈ payerField.type.customNames, lineBreaks name = []) ∧
      zodField [] payerField = "payer: AccountSchema.describe(\"Who pays.\rNever twice.\")" ∧
      pydanticField payerField =
        "payer: AccountSchema = Field(..., description=\"Who pays.\rNever twice.\")" ∧
      '\r' ∈ (zodField [] payerField).toList ∧ '\r' ∈ (pydanticField payerField).toList := by
  decide

end Declarations

end ContractInterface.Target
