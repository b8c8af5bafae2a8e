/-
# Comments in Zod modules

The description of a declared type stands in a block comment in front of its schema.  Such a comment
ends at the first closing mark behind its opening mark, and a description is escaped for a literal,
which does nothing to a closing mark.  So a description that holds one ends the comment, and what is
behind the mark in the description is code of the module.  The main results are

* `readComment_eq_some_iff`: a comment ends at the first closing mark;
* `closing_infix_escapeChars_iff`: escaping neither makes nor removes a closing mark;
* `zodType_comment_iff`: the comment ends at the mark that is written for it exactly if the
  description holds none.
-/
import ContractInterface.Proofs.Target.Description
import ContractInterface.Schema.Zod

namespace ContractInterface.Schema

open Target

/-! ### Block comments -/

/-- The mark that closes a block comment. -/
def closing : List Char := ['*', '/']

/-- Reads a block comment behind its opening mark: what is in it, and what is behind it. -/
def readComment : List Char → Option (List Char × List Char)
  | [] => none
  | '*' :: '/' :: rest => some ([], rest)
  | c :: rest => (readComment rest).map (Prod.map (c :: ·) id)

/-- A text that begins with a block comment: what is in the comment, and what is behind it. -/
def OpensWithComment (inside behind text : List Char) : Prop :=
  ∃ rest, text = '/' :: '*' :: rest ∧ readComment rest = some (inside, behind)

lemma closing_infix_cons_iff {c : Char} {chars : List Char} :
    closing <:+: c :: chars ↔ c = '*' ∧ chars.head? = some '/' ∨ closing <:+: chars := by
  rw [List.infix_cons_iff, closing, List.cons_prefix_cons]
  cases chars with
  | nil => simp
  | cons d chars => simp [List.cons_prefix_cons, eq_comm]

/-- **A comment ends at the first closing mark.** -/
theorem readComment_eq_some_iff {text inside behind : List Char} :
    readComment text = some (inside, behind) ↔
      text = inside ++ (closing ++ behind) ∧ ¬closing <:+: inside := by
  fun_induction readComment text generalizing inside with
  | case1 => simp [closing]
  | case2 rest =>
    constructor
    · rintro ⟨⟩
      exact ⟨rfl, by decide⟩
    · rintro ⟨heq, hinside⟩
      match inside, heq with
      | [], heq => rw [(List.cons.inj (List.cons.inj heq).2).2]; rfl
      | [_], heq => exact absurd (List.cons.inj (List.cons.inj heq).2).1 (by decide)
      | a :: b :: inside, heq =>
        obtain ⟨rfl, htail⟩ := List.cons.inj heq
        obtain ⟨rfl, -⟩ := List.cons.inj htail
        exact absurd (closing_infix_cons_iff.mpr (.inl ⟨rfl, rfl⟩)) hinside
  | case3 c rest hopen ih =>
    constructor
    · intro h
      obtain ⟨⟨inside, behind⟩, hrest, hpair⟩ := Option.map_eq_some_iff.mp h
      obtain ⟨rfl, rfl⟩ := Prod.mk.inj hpair
      obtain ⟨rfl, hinside⟩ := ih.mp hrest
      refine ⟨rfl, fun hclosing => ?_⟩
      rcases closing_infix_cons_iff.mp hclosing with ⟨hc, hhead⟩ | hclosing
      · obtain ⟨more, rfl⟩ := List.head?_eq_some_iff.mp hhead
        exact hopen _ hc rfl
      · exact hinside hclosing
    · rintro ⟨heq, hinside⟩
      cases inside with
      | nil =>
        obtain ⟨rfl, rfl⟩ := List.cons.inj heq
        exact absurd rfl (hopen behind rfl)
      | cons a inside =>
        obtain ⟨rfl, rfl⟩ := List.cons.inj heq
        have hrest := ih.mpr ⟨rfl, fun h => hinside (closing_infix_cons_iff.mpr (.inr h))⟩
        rw [hrest]
        rfl

lemma opensWithComment_iff {rest inside behind : List Char} :
    OpensWithComment inside behind ('/' :: '*' :: rest) ↔
      rest = inside ++ (closing ++ behind) ∧ ¬closing <:+: inside := by
  rw [← readComment_eq_some_iff]
  constructor
  · rintro ⟨rest', heq, hread⟩
    rwa [(List.cons.inj (List.cons.inj heq).2).2]
  · exact fun hread => ⟨rest, rfl, hread⟩

/-- Text with a closing mark is split at the first one. -/
lemma exists_first_closing {text : List Char} (h : closing <:+: text) :
    ∃ inside behind, text = inside ++ (closing ++ behind) ∧ ¬closing <:+: inside := by
  suffices hread : ∃ pair, readComment text = some pair by
    obtain ⟨⟨inside, behind⟩, hread⟩ := hread
    exact ⟨inside, behind, readComment_eq_some_iff.mp hread⟩
  fun_induction readComment text with
  | case1 => simp [closing] at h
  | case2 rest => exact ⟨_, rfl⟩
  | case3 c rest hopen ih =>
    rcases closing_infix_cons_iff.mp h with ⟨hc, hhead⟩ | hrest
    · obtain ⟨more, rfl⟩ := List.head?_eq_some_iff.mp hhead
      exact absurd rfl (hopen more hc)
    · obtain ⟨pair, hpair⟩ := ih hrest
      rw [hpair]
      exact ⟨_, rfl⟩

/-! ### Escaped descriptions -/

/-- Descriptions are escaped part by part, where no line break is cut in two. -/
lemma escapeChars_append {front back : List Char} (h : back.head? ≠ some '\n') :
    escapeChars (front ++ back) = escapeChars front ++ escapeChars back := by
  fun_induction escapeChars front with
  | case1 => rfl
  | case2 rest ih | case3 rest ih | case4 rest ih | case5 rest ih =>
    simp only [List.cons_append, escapeChars, ih]
  | case6 c rest hcrlf hfeed hslash hquote ih =>
    rw [List.cons_append, List.cons_append, ← ih, escapeChars]
    · intro more hc hrest
      cases rest with
      | nil => exact h (by rw [← List.nil_append back, hrest]; rfl)
      | cons d rest => exact hcrlf rest hc (by rw [(List.cons.inj hrest).1])
    · exact hfeed
    · exact hslash
    · exact hquote

lemma head?_escapeChars_eq_slash_iff {chars : List Char} :
    (escapeChars chars).head? = some '/' ↔ chars.head? = some '/' := by
  fun_cases escapeChars chars <;> simp

/-- **Escaping neither makes nor removes a closing mark.** -/
theorem closing_infix_escapeChars_iff {chars : List Char} :
    closing <:+: escapeChars chars ↔ closing <:+: chars := by
  fun_induction escapeChars chars with
  | case1 => rfl
  | case2 rest ih | case3 rest ih | case4 rest ih | case5 rest ih =>
    simp [closing_infix_cons_iff, ih]
  | case6 c rest hcrlf hfeed hslash hquote ih =>
    rw [closing_infix_cons_iff, closing_infix_cons_iff, ih, head?_escapeChars_eq_slash_iff]

/-! ### Comments of declared types -/

section Comments

variable {α : Type} [Label α] {pending : List String} {decl : TypeDecl α}

/-- What is written behind the comment of a declared type: a line break, and then the declaration as
it is without a description. -/
def behindComment (pending : List String) (decl : TypeDecl α) : String :=
  "\n" ++ zodType pending { decl with doc := none }

/-- The comment of a declared type stands between its marks, with a blank on each side. -/
lemma zodType_eq_append (hdoc : Label.hasDoc decl.doc = true) :
    zodType pending decl = "/** " ++ escapeDoc decl.doc ++ " */" ++ behindComment pending decl := by
  have hcomment : zodComment decl.doc = "/** " ++ escapeDoc decl.doc ++ (" */" ++ "\n") :=
    if_pos hdoc
  have hnone : zodComment (none : Option α) = "" := rfl
  simp only [zodType, behindComment, hcomment, hnone, String.append_assoc, String.empty_append]

lemma toList_zodType (hdoc : Label.hasDoc decl.doc = true) :
    (zodType pending decl).toList = '/' :: '*' :: (('*' :: ' ' :: (escapeDoc decl.doc).toList) ++
      (' ' :: (closing ++ (behindComment pending decl).toList))) := by
  have hopen : "/** ".toList = ['/', '*', '*', ' '] := rfl
  have hclose : " */".toList = ' ' :: closing := rfl
  rw [zodType_eq_append hdoc]
  simp only [String.toList_append, hopen, hclose, List.cons_append, List.nil_append,
    List.append_assoc]

/-- The blank behind a description makes no closing mark. -/
lemma closing_infix_append_blank {chars : List Char} :
    closing <:+: chars ++ [' '] ↔ closing <:+: chars := by
  refine ⟨fun h => (List.infix_concat_iff.mp h).resolve_left fun hsuffix => ?_,
    fun h => h.trans (List.prefix_append chars [' ']).isInfix⟩
  have hlast := hsuffix.getLast (by decide)
  simp [closing] at hlast

/-- **The comment of a declared type ends at the mark that is written for it** exactly if its
description holds no closing mark.  A description that holds one ends the comment at the first such
mark, and what it says behind the mark stands in the module as code. -/
theorem zodType_comment_iff (hdoc : Label.hasDoc decl.doc = true) (pending : List String) :
    (OpensWithComment ("* " ++ escapeDoc decl.doc ++ " ").toList
        (behindComment pending decl).toList (zodType pending decl).toList ↔
      ¬closing <:+: (docText decl.doc).toList) ∧
    (closing <:+: (docText decl.doc).toList → ∃ front back,
      (docText decl.doc).toList = front ++ (closing ++ back) ∧ ¬closing <:+: front ∧
        OpensWithComment ('*' :: ' ' :: escapeChars front)
          (escapeChars back ++ (" */" ++ behindComment pending decl).toList)
          (zodType pending decl).toList) := by
  have hstar (chars : List Char) : closing <:+: '*' :: ' ' :: chars ↔ closing <:+: chars := by
    simp [closing_infix_cons_iff]
  have hinside : ("* " ++ escapeDoc decl.doc ++ " ").toList =
      '*' :: ' ' :: ((escapeDoc decl.doc).toList ++ [' ']) := by
    simp only [String.toList_append]
    rfl
  have hescaped : closing <:+: (escapeDoc decl.doc).toList ↔
      closing <:+: (docText decl.doc).toList := by
    rw [toList_escapeDoc, closing_infix_escapeChars_iff]
  constructor
  · rw [toList_zodType hdoc, opensWithComment_iff, hinside, hstar, closing_infix_append_blank,
      hescaped]
    simp
  · intro hclosing
    obtain ⟨front, back, hdocText, hfront⟩ := exists_first_closing hclosing
    refine ⟨front, back, hdocText, hfront, ?_⟩
    have hsplit : (escapeDoc decl.doc).toList =
        escapeChars front ++ (closing ++ escapeChars back) := by
      rw [toList_escapeDoc, hdocText, escapeChars_append (by simp [closing])]
      rfl
    have hbehind : (" */" ++ behindComment pending decl).toList =
        ' ' :: (closing ++ (behindComment pending decl).toList) := String.toList_append
    rw [toList_zodType hdoc, opensWithComment_iff, hsplit, hbehind]
    refine ⟨by simp, ?_⟩
    rwa [hstar, closing_infix_escapeChars_iff]

/-- A structure whose description has a line break in the middle of what would be a mark. -/
def shareDecl : TypeDecl :=
  ⟨"Share", .struct [⟨"amount", .primitive .i128, none⟩], some "Free is 2*\n/3 of it"⟩

theorem zodType_comment_iff_share :
    Label.hasDoc shareDecl.doc = true ∧ ¬closing <:+: (docText shareDecl.doc).toList ∧
      OpensWithComment "* Free is 2* /3 of it ".toList
        ("\nexport const ShareSchema = z.object(\x7b\n" ++
          "  amount: z.string().describe(\"\"),\n\x7d);\n").toList
        (zodType [] shareDecl).toList := by
  have hdoc : Label.hasDoc shareDecl.doc = true := by decide
  have hfree : ¬closing <:+: (docText shareDecl.doc).toList := by decide +kernel
  have hinside : "* " ++ escapeDoc shareDecl.doc ++ " " = "* Free is 2* /3 of it " := by
    decide +kernel
  have hbehind : behindComment [] shareDecl = "\nexport const ShareSchema = z.object(\x7b\n" ++
      "  amount: z.string().describe(\"\"),\n\x7d);\n" := by decide +kernel
  have hcomment := (zodType_comment_iff hdoc []).1.mpr hfree
  have hshown := congrArg₂ (fun inside behind : String =>
    OpensWithComment inside.toList behind.toList (zodType [] shareDecl).toList) hinside hbehind
  exact ⟨hdoc, hfree, hshown.mp hcomment⟩

/-- A structure whose description closes the comment and opens another one. -/
def heldDecl : TypeDecl :=
  ⟨"Held", .struct [], some "Held. */ alert(1); /* Or not."⟩

/-- **Descriptions leave their comments.**  The comment in front of the schema ends in the middle of
the description, and the module calls a function that the contract names. -/
theorem zodType_comment_held :
    Label.hasDoc heldDecl.doc = true ∧
      zodType [] heldDecl = "/** Held. */ alert(1); /* Or not. */\n" ++
        "export const HeldSchema = z.object(\x7b\x7d);\n" ∧
      OpensWithComment "* Held. ".toList (" alert(1); /* Or not. */\n" ++
        "export const HeldSchema = z.object(\x7b\x7d);\n").toList (zodType [] heldDecl).toList ∧
      ∀ inside, ¬OpensWithComment inside (behindComment [] heldDecl).toList
        (zodType [] heldDecl).toList := by
  have htext : zodType [] heldDecl = "/** Held. */ alert(1); /* Or not. */\n" ++
      "export const HeldSchema = z.object(\x7b\x7d);\n" := by decide +kernel
  have hread : readComment (zodType [] heldDecl).toList.tail.tail = some ("* Held. ".toList,
      (" alert(1); /* Or not. */\n" ++
        "export const HeldSchema = z.object(\x7b\x7d);\n").toList) := by decide +kernel
  have hopen : (zodType [] heldDecl).toList =
      '/' :: '*' :: (zodType [] heldDecl).toList.tail.tail := by decide +kernel
  refine ⟨by decide, htext, ⟨_, hopen, hread⟩, fun inside ⟨rest, hrest, hown⟩ => ?_⟩
  have htail : (zodType [] heldDecl).toList.tail.tail = rest := congrArg (·.tail.tail) hrest
  have hpair := hread.symm.trans ((congrArg readComment htail).trans hown)
  have hbehind := (Prod.mk.inj (Option.some.inj hpair)).2
  exact absurd hbehind (by decide +kernel)

end Comments

end ContractInterface.Schema
