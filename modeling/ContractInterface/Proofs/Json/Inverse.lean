/-
# JSON text is read back

The text of a value is cut into the tokens of the value, however it is laid out, and the machine
that reads tokens puts the value together again.  Values with fractions are left out, and so are
objects in which a name occurs twice, for the later one would count.  The main results are

* `cutInto_write`: the tokens in the text of a value;
* `foldlM_tokensOf`: what the machine makes of the tokens of a value;
* `parse?_render`: the value of a text that has been written.
-/
import ContractInterface.Proofs.Json.Scalars

namespace ContractInterface.Json

/-! ### Values that are read back -/

mutual

/-- A value without fractions, in whose objects no name occurs twice. -/
def Readable : Json → Prop
  | .null | .bool _ | .int _ | .str _ => True
  | .float _ => False
  | .arr items => ReadableItems items
  | .obj members => (members.map (·.1)).Nodup ∧ ReadableMembers members

/-- Items that are all read back. -/
def ReadableItems : List Json → Prop
  | [] => True
  | item :: items => Readable item ∧ ReadableItems items

/-- Members whose values are all read back. -/
def ReadableMembers : List (String × Json) → Prop
  | [] => True
  | (_, value) :: members => Readable value ∧ ReadableMembers members

end

lemma readableItems_iff {items : List Json} :
    ReadableItems items ↔ ∀ item ∈ items, item.Readable := by
  induction items with
  | nil => simp [ReadableItems]
  | cons item items ih => rw [ReadableItems, ih, List.forall_mem_cons]

/-! ### Tokens -/

mutual

/-- The tokens of a value, in front of those that follow. -/
def tokensOf (value : Json) (rest : List Token) : List Token :=
  match value with
  | .arr [] => .openArray :: .closeArray :: rest
  | .arr (item :: items) =>
    .openArray :: tokensOf item (tokensOfItems items (.closeArray :: rest))
  | .obj [] => .openObject :: .closeObject :: rest
  | .obj ((name, value) :: members) =>
    .openObject :: .scalar (.str name) :: .colon ::
      tokensOf value (tokensOfMembers members (.closeObject :: rest))
  | value => .scalar value :: rest

/-- The tokens of the items of an array after the first. -/
def tokensOfItems (items : List Json) (rest : List Token) : List Token :=
  match items with
  | [] => rest
  | item :: items => .comma :: tokensOf item (tokensOfItems items rest)

/-- The tokens of the members of an object after the first. -/
def tokensOfMembers (members : List (String × Json)) (rest : List Token) : List Token :=
  match members with
  | [] => rest
  | (name, value) :: members =>
    .comma :: .scalar (.str name) :: .colon :: tokensOf value (tokensOfMembers members rest)

end

/-- A text is cut into tokens, whatever fuel there is beyond its length. -/
def CutInto (chars : List Char) (tokens : List Token) : Prop :=
  ∀ fuel, chars.length ≤ fuel → tokens? fuel chars = some tokens

variable {chars rest : List Char} {tokens : List Token} {token : Token}

lemma cutInto_nil : CutInto [] [] := by
  rintro (_ | fuel) - <;> rfl

/-- Blanks in front of a text make no token. -/
lemma CutInto.space {c : Char} (hc : isSpace c = true) (h : CutInto rest tokens) :
    CutInto (c :: rest) tokens := by
  rintro (_ | fuel) hfuel
  · cases hfuel
  · rw [tokens?, if_pos hc]
    exact h fuel (Nat.le_of_succ_le_succ hfuel)

/-- A token in front of a text. -/
lemma CutInto.next {c : Char} (hc : isSpace c = false)
    (hread : readToken? (c :: (chars ++ rest)) = some (token, rest)) (h : CutInto rest tokens) :
    CutInto (c :: (chars ++ rest)) (token :: tokens) := by
  rintro (_ | fuel) hfuel
  · cases hfuel
  · rw [List.length_cons, List.length_append] at hfuel
    rw [tokens?, if_neg (by simp [hc]), hread]
    simp only [Option.bind_eq_bind, Option.bind_some, h fuel (by omega), Option.pure_def]

/-- A token of one character in front of a text. -/
lemma CutInto.mark {c : Char} (hc : isSpace c = false)
    (hread : readToken? (c :: rest) = some (token, rest)) (h : CutInto rest tokens) :
    CutInto (c :: rest) (token :: tokens) :=
  @CutInto.next [] rest tokens token c hc hread h

lemma CutInto.openArray (h : CutInto rest tokens) :
    CutInto ('[' :: rest) (.openArray :: tokens) :=
  h.mark rfl rfl

lemma CutInto.closeArray (h : CutInto rest tokens) :
    CutInto (']' :: rest) (.closeArray :: tokens) :=
  h.mark rfl rfl

lemma CutInto.openObject (h : CutInto rest tokens) :
    CutInto ('\x7b' :: rest) (.openObject :: tokens) :=
  h.mark rfl rfl

lemma CutInto.closeObject (h : CutInto rest tokens) :
    CutInto ('\x7d' :: rest) (.closeObject :: tokens) :=
  h.mark rfl rfl

lemma CutInto.comma (h : CutInto rest tokens) : CutInto (',' :: rest) (.comma :: tokens) :=
  h.mark rfl rfl

lemma CutInto.colon (h : CutInto rest tokens) :
    CutInto (':' :: ' ' :: rest) (.colon :: tokens) :=
  (h.space rfl).mark rfl rfl

/-- A line break and the blanks behind it make no token. -/
lemma CutInto.lineBreak (layout : Layout) (level : Nat) (h : CutInto rest tokens) :
    CutInto (layout.lineBreak level ++ rest) tokens := by
  cases layout with
  | inline => exact h
  | lines width =>
    refine CutInto.space rfl ?_
    generalize width * level = blanks
    induction blanks with
    | zero => exact h
    | succ blanks ih => exact ih.space rfl

lemma CutInto.separator (layout : Layout) (level : Nat) (h : CutInto rest tokens) :
    CutInto (layout.separator level ++ rest) (.comma :: tokens) := by
  cases layout with
  | inline => exact (h.space rfl).comma
  | lines width => exact (h.lineBreak (.lines width) level).comma

/-- A string is one token. -/
lemma CutInto.string (text : String) (h : CutInto rest tokens) :
    CutInto (writeString text ++ rest) (.scalar (.str text) :: tokens) := by
  have hwritten : writeString text ++ rest =
      '"' :: ((text.toList.flatMap escapeChar ++ ['"']) ++ rest) := rfl
  have hread : readToken? ('"' :: ((text.toList.flatMap escapeChar ++ ['"']) ++ rest)) =
      some (.scalar (.str text), rest) := by
    have hlen := length_le_length_flatMap_escapeChar text.toList
    rw [List.append_assoc, List.singleton_append, readToken?, readString?_append]
    · simp only [Option.bind_eq_bind, Option.bind_some, Option.pure_def, String.ofList_toList]
    · rw [List.length_append]
      omega
  rw [hwritten]
  exact h.next rfl hread

/-- A digit or a minus begins a number. -/
lemma readToken?_number {c : Char} (hc : c = '-' ∨ c.isDigit = true) (rest : List Char) :
    readToken? (c :: rest) = (readNumber? (c :: rest)).map fun (value, rest) =>
      (.scalar value, rest) := by
  rw [readToken?]
  all_goals
    rintro _ ⟨⟩
    exact absurd hc (by decide)

/-- An integer begins with a digit or a minus. -/
lemma exists_cons_toString (n : Int) :
    ∃ c chars, (toString n).toList = c :: chars ∧ (c = '-' ∨ c.isDigit = true) := by
  rw [toList_toString]
  split_ifs
  · exact ⟨'-', _, rfl, .inl rfl⟩
  · obtain ⟨d, ds, hd⟩ := List.exists_cons_of_ne_nil (@Nat.toDigits_ne_nil n.natAbs 10)
    exact ⟨d, ds, hd, .inr (isDigit_of_mem_toDigits (hd ▸ List.mem_cons_self))⟩

/-- An integer in front of what does not continue a number is one token. -/
lemma CutInto.integer (n : Int) (hrest : EndsNumber rest) (h : CutInto rest tokens) :
    CutInto ((toString n).toList ++ rest) (.scalar (.int n) :: tokens) := by
  have hread := readNumber?_append n hrest
  obtain ⟨c, chars, hchars, hc⟩ := exists_cons_toString n
  rw [hchars, List.cons_append] at hread ⊢
  have hspace : isSpace c = false := by
    rcases hc with rfl | hdigit
    · rfl
    · by_contra hspace
      simp only [isSpace, Bool.not_eq_false, Bool.or_eq_true, decide_eq_true_eq] at hspace
      rcases hspace with ((rfl | rfl) | rfl) | rfl <;> exact absurd hdigit (by decide)
  refine h.next hspace ?_
  rw [readToken?_number hc, hread]
  rfl

/-! ### The tokens of a value -/

lemma endsNumber_lineBreak (layout : Layout) (level : Nat) (h : EndsNumber rest) :
    EndsNumber (layout.lineBreak level ++ rest) := by
  cases layout with
  | inline => exact h
  | lines width => exact endsNumber_cons rfl

lemma endsNumber_separator (layout : Layout) (level : Nat) :
    EndsNumber (layout.separator level ++ rest) := by
  cases layout <;> exact endsNumber_cons rfl

lemma endsNumber_writeItems (layout : Layout) (level : Nat) (items : List Json)
    (h : EndsNumber rest) : EndsNumber (writeItems layout level items rest) := by
  cases items with
  | nil => exact h
  | cons item items => exact endsNumber_separator layout level

lemma endsNumber_writeMembers (layout : Layout) (level : Nat) (members : List (String × Json))
    (h : EndsNumber rest) : EndsNumber (writeMembers layout level members rest) := by
  cases members with
  | nil => exact h
  | cons first members =>
    obtain ⟨name, value⟩ := first
    rw [writeMembers, List.append_assoc]
    exact endsNumber_separator layout level

/-- The name of a member and its colon, in front of the value. -/
lemma CutInto.name (name : String) (h : CutInto rest tokens) :
    CutInto (writeString name ++ ':' :: ' ' :: rest) (.scalar (.str name) :: .colon :: tokens) :=
  h.colon.string name

mutual

/-- **The text of a value is cut into the tokens of the value.** -/
theorem cutInto_write (layout : Layout) : ∀ (level : Nat) (value : Json) {rest : List Char}
    {tokens : List Token}, value.Readable → EndsNumber rest → CutInto rest tokens →
      CutInto (write layout level value rest) (tokensOf value tokens)
  | _, .null, _, _, _, _, h => h.next rfl rfl
  | _, .bool true, _, _, _, _, h => h.next rfl rfl
  | _, .bool false, _, _, _, _, h => h.next rfl rfl
  | _, .int n, _, _, _, hrest, h => h.integer n hrest
  | _, .str text, _, _, _, _, h => h.string text
  | _, .arr [], _, _, _, _, h => h.closeArray.openArray
  | level, .arr (item :: items), rest, tokens, hvalue, _, h => by
    obtain ⟨hitem, hitems⟩ := hvalue
    have hend : EndsNumber (layout.lineBreak level ++ ']' :: rest) :=
      endsNumber_lineBreak layout level (endsNumber_cons rfl)
    have hclosed := h.closeArray.lineBreak layout level
    have hothers := cutInto_writeItems layout (level + 1) items hitems hend hclosed
    have hfirst := cutInto_write layout (level + 1) item hitem
      (endsNumber_writeItems layout (level + 1) items hend) hothers
    rw [write, tokensOf]
    exact (hfirst.lineBreak layout (level + 1)).openArray
  | _, .obj [], _, _, _, _, h => h.closeObject.openObject
  | level, .obj ((name, value) :: members), rest, tokens, hvalue, _, h => by
    obtain ⟨-, hvalue, hmembers⟩ := hvalue
    have hend : EndsNumber (layout.lineBreak level ++ '\x7d' :: rest) :=
      endsNumber_lineBreak layout level (endsNumber_cons rfl)
    have hclosed := h.closeObject.lineBreak layout level
    have hothers := cutInto_writeMembers layout (level + 1) members hmembers hend hclosed
    have hfirst := cutInto_write layout (level + 1) value hvalue
      (endsNumber_writeMembers layout (level + 1) members hend) hothers
    rw [write, tokensOf, List.append_assoc]
    exact ((hfirst.name name).lineBreak layout (level + 1)).openObject

lemma cutInto_writeItems (layout : Layout) : ∀ (level : Nat) (items : List Json)
    {rest : List Char} {tokens : List Token}, ReadableItems items → EndsNumber rest →
      CutInto rest tokens →
        CutInto (writeItems layout level items rest) (tokensOfItems items tokens)
  | _, [], _, _, _, _, h => h
  | level, item :: items, _, _, hitems, hrest, h => by
    obtain ⟨hitem, hitems⟩ := hitems
    have hothers := cutInto_writeItems layout level items hitems hrest h
    have hfirst := cutInto_write layout level item hitem
      (endsNumber_writeItems layout level items hrest) hothers
    rw [writeItems, tokensOfItems]
    exact hfirst.separator layout level

lemma cutInto_writeMembers (layout : Layout) : ∀ (level : Nat) (members : List (String × Json))
    {rest : List Char} {tokens : List Token}, ReadableMembers members → EndsNumber rest →
      CutInto rest tokens →
        CutInto (writeMembers layout level members rest) (tokensOfMembers members tokens)
  | _, [], _, _, _, _, h => h
  | level, (name, value) :: members, _, _, hmembers, hrest, h => by
    obtain ⟨hvalue, hmembers⟩ := hmembers
    have hothers := cutInto_writeMembers layout level members hmembers hrest h
    have hfirst := cutInto_write layout level value hvalue
      (endsNumber_writeMembers layout level members hrest) hothers
    rw [writeMembers, tokensOfMembers, List.append_assoc]
    exact (hfirst.name name).separator layout level

end

/-! ### What the machine makes of tokens -/

/-- A member whose name does not stand in front is added behind what does. -/
lemma insertMember_eq_append {name : String} {value : Json} {seen members : List (String × Json)}
    (h : ((seen ++ (name, value) :: members).map (·.1)).Nodup) :
    insertMember name value seen = seen ++ [(name, value)] := by
  induction seen with
  | nil => rfl
  | cons first seen ih =>
    obtain ⟨key, found⟩ := first
    rw [List.cons_append, List.map_cons, List.nodup_cons] at h
    obtain ⟨hkey, hseen⟩ := h
    have hne : key ≠ name := by
      rintro rfl
      exact hkey (List.mem_map.2 ⟨(key, value), by simp, rfl⟩)
    rw [insertMember, if_neg hne, ih hseen, List.cons_append]

mutual

/-- **The machine puts a value together from its tokens**, whatever parts are open. -/
theorem foldlM_tokensOf : ∀ (value : Json) (rest : List Token) (frames : List Frame)
    (mayClose : Bool), value.Readable →
      (tokensOf value rest).foldlM Machine.step? ⟨frames, .value mayClose⟩ =
        rest.foldlM Machine.step? ⟨frames, .after value⟩
  | .null, _, _, _, _ | .bool _, _, _, _, _ | .int _, _, _, _, _ | .str _, _, _, _, _ => rfl
  | .arr [], _, _, _, _ => rfl
  | .arr (item :: items), rest, frames, mayClose, hvalue => by
    obtain ⟨hitem, hitems⟩ := hvalue
    have hfirst := foldlM_tokensOf item (tokensOfItems items (.closeArray :: rest))
      (.array [] :: frames) true hitem
    have hothers := foldlM_tokensOfItems items rest frames [] item hitems
    exact hfirst.trans hothers
  | .obj [], _, _, _, _ => rfl
  | .obj ((name, value) :: members), rest, frames, mayClose, hvalue => by
    obtain ⟨hnames, hvalue, hmembers⟩ := hvalue
    have hfirst := foldlM_tokensOf value (tokensOfMembers members (.closeObject :: rest))
      (.object [] name :: frames) false hvalue
    have hothers := foldlM_tokensOfMembers members rest frames [] name value hnames hmembers
    exact hfirst.trans hothers

/-- The items of an array are added to those seen before. -/
lemma foldlM_tokensOfItems : ∀ (items : List Json) (rest : List Token) (frames : List Frame)
    (seen : List Json) (item : Json), ReadableItems items →
      (tokensOfItems items (.closeArray :: rest)).foldlM Machine.step?
          ⟨.array seen :: frames, .after item⟩ =
        rest.foldlM Machine.step? ⟨frames, .after (.arr (seen.reverse ++ item :: items))⟩
  | [], rest, frames, seen, item, _ => by
    rw [← List.reverse_cons]
    rfl
  | next :: items, rest, frames, seen, item, hitems => by
    obtain ⟨hnext, hitems⟩ := hitems
    have hfirst := foldlM_tokensOf next (tokensOfItems items (.closeArray :: rest))
      (.array (item :: seen) :: frames) false hnext
    have hothers := foldlM_tokensOfItems items rest frames (item :: seen) next hitems
    rw [List.reverse_cons, List.append_assoc, List.singleton_append] at hothers
    exact hfirst.trans hothers

/-- The members of an object are added behind those seen before. -/
lemma foldlM_tokensOfMembers : ∀ (members : List (String × Json)) (rest : List Token)
    (frames : List Frame) (seen : List (String × Json)) (name : String) (value : Json),
      ((seen ++ (name, value) :: members).map (·.1)).Nodup → ReadableMembers members →
        (tokensOfMembers members (.closeObject :: rest)).foldlM Machine.step?
            ⟨.object seen name :: frames, .after value⟩ =
          rest.foldlM Machine.step? ⟨frames, .after (.obj (seen ++ (name, value) :: members))⟩
  | [], rest, frames, seen, name, value, hnames, _ => by
    rw [← insertMember_eq_append hnames]
    rfl
  | (next, found) :: members, rest, frames, seen, name, value, hnames, hmembers => by
    obtain ⟨hfound, hmembers⟩ := hmembers
    have hsplit : seen ++ (name, value) :: (next, found) :: members =
        insertMember name value seen ++ (next, found) :: members := by
      rw [insertMember_eq_append hnames, List.append_assoc, List.singleton_append]
    have hfirst := foldlM_tokensOf found (tokensOfMembers members (.closeObject :: rest))
      (.object (insertMember name value seen) next :: frames) false hfound
    rw [hsplit] at hnames ⊢
    have hothers := foldlM_tokensOfMembers members rest frames (insertMember name value seen) next
      found hnames hmembers
    exact hfirst.trans hothers

end

/-- **The text of a value is read back as the value**, however it is laid out. -/
theorem parse?_render {value : Json} (h : value.Readable) (layout : Layout) :
    parse? (render layout value) = some value := by
  have hcut := cutInto_write layout 0 value h (show EndsNumber [] from nofun) cutInto_nil
  have hrun := foldlM_tokensOf value [] [] false h
  rw [parse?, render, String.toList_ofList]
  simp only [hcut _ (Nat.le_refl _), Option.bind_eq_bind, Option.bind_some, hrun]
  rfl

end ContractInterface.Json
