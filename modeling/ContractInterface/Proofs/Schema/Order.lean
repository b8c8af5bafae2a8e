/-
# What the walk through the declarations does

The walk is a depth-first search.  A name that is visited but whose declaration is not done yet is
open; the open declarations are those on the way to the one that is being visited, so each of them
reaches it.  A visit leaves open what was open before, and puts the declaration that it is for
behind everything that the declaration mentions, unless that is still open.  The main results are

* `Search` and `search_iff`: the search with no bound on its depth ends, and ends with the walk;
* `Visits` and `Search.visits`: what a visit keeps and what it adds;
* `dependencyOrder_perm`: the order loses no declaration and repeats none;
* `before_or_reaches`: a declaration stands behind those it mentions, up to cycles;
* `dependencyOrder_topological`: both, also where names are declared several times.
-/
import Mathlib.Data.List.Nodup
import Mathlib.Logic.Relation
import ContractInterface.Schema.Order

namespace ContractInterface.Schema

open Relation (ReflTransGen TransGen)

variable {α : Type} [Label α]

/-! ### Names and mentions -/

/-- What the names of declarations are told apart by. -/
def keys (decls : List (TypeDecl α)) : List (Option Label.Key) :=
  decls.map fun decl => Label.key? decl.name

lemma mem_keys {decls : List (TypeDecl α)} {key : Option Label.Key} :
    key ∈ keys decls ↔ ∃ decl ∈ decls, Label.key? decl.name = key :=
  List.mem_map

lemma keys_append (decls decls' : List (TypeDecl α)) :
    keys (decls ++ decls') = keys decls ++ keys decls' :=
  List.map_append

lemma mem_keys_singleton {decl : TypeDecl α} {key : Option Label.Key} :
    key ∈ keys [decl] ↔ key = Label.key? decl.name :=
  List.mem_singleton

/-- Texts are told apart by their characters. -/
lemma keys_eq_map (decls : List TypeDecl) :
    keys decls = (decls.map (·.name)).map fun name => some (.text name) := by
  rw [keys, List.map_map]
  rfl

/-- Declarations with names of their own have keys of their own. -/
lemma nodup_keys {decls : List TypeDecl} (h : (decls.map (·.name)).Nodup) : (keys decls).Nodup := by
  rw [keys_eq_map]
  refine h.map fun name name' hsame => ?_
  exact Label.Key.text.inj (Option.some.inj hsame)

/-- Declarations whose keys are told apart are told apart by them. -/
lemma eq_of_key_eq {types : List (TypeDecl α)} (hnodup : (keys types).Nodup)
    {decl decl' : TypeDecl α} (h : decl ∈ types) (h' : decl' ∈ types)
    (hkey : Label.key? decl.name = Label.key? decl'.name) : decl = decl' :=
  List.inj_on_of_nodup_map hnodup h h' hkey

/-- Among declarations whose keys are told apart, the one that has a key is found by it. -/
lemma mem_of_mem_keys {types decls : List (TypeDecl α)} (hnodup : (keys types).Nodup)
    (hdecls : decls ⊆ types) {decl : TypeDecl α} (hdecl : decl ∈ types)
    (hkey : Label.key? decl.name ∈ keys decls) : decl ∈ decls := by
  obtain ⟨found, hfound, hsame⟩ := mem_keys.1 hkey
  rwa [← eq_of_key_eq hnodup (hdecls hfound) hdecl hsame]

lemma singleton_subset {β : Type} {entry : β} {list : List β} (h : entry ∈ list) : [entry] ⊆ list :=
  List.cons_subset.2 ⟨h, List.nil_subset _⟩

/-- A declaration mentions a declared type, in a field or in what a case carries, at any depth. -/
def Mentions (types : List (TypeDecl α)) (user target : TypeDecl α) : Prop :=
  target ∈ types ∧ ∃ name ∈ user.types.flatMap (·.customNames), Label.isNamed target.name name

/-- A label that is a text has the key of this text. -/
lemma key?_of_isNamed {label : α} {name : String} (h : Label.isNamed label name) :
    Label.key? label = some (.text name) := by
  have htext : (Label.toJson label).text? = some name := of_decide_eq_true h
  rw [Label.key?]
  cases hjson : Label.toJson label with
  | str text =>
    rw [hjson] at htext
    exact congrArg (Option.map Label.Key.text) htext
  | _ =>
    rw [hjson] at htext
    cases htext

variable {types : List (TypeDecl α)} {decl target : TypeDecl α}

lemma mentions_of_mem_dependencies (h : target ∈ dependencies types decl) :
    Mentions types decl target := by
  obtain ⟨name, hname, hfind⟩ := List.mem_filterMap.1 h
  have hnamed : Label.isNamed target.name name := by simpa using List.find?_some hfind
  exact ⟨List.mem_reverse.1 (List.mem_of_find?_eq_some hfind), name, hname, hnamed⟩

lemma dependencies_subset : dependencies types decl ⊆ types :=
  fun _ htarget => (mentions_of_mem_dependencies htarget).1

/-- Where names are told apart, a mention means one declaration. -/
lemma mem_dependencies (hnodup : (keys types).Nodup) (h : Mentions types decl target) :
    target ∈ dependencies types decl := by
  obtain ⟨htarget, name, hname, hnamed⟩ := h
  refine List.mem_filterMap.2 ⟨name, hname, ?_⟩
  cases hfind : types.reverse.find? fun decl => Label.isNamed decl.name name with
  | none =>
    have hnot := List.find?_eq_none.1 hfind target (List.mem_reverse.2 htarget)
    exact absurd hnamed hnot
  | some found =>
    have hfound : found ∈ types := List.mem_reverse.1 (List.mem_of_find?_eq_some hfind)
    have hsame : Label.isNamed found.name name := by simpa using List.find?_some hfind
    rw [eq_of_key_eq hnodup hfound htarget
      ((key?_of_isNamed hsame).trans (key?_of_isNamed hnamed).symm)]

/-- Nothing reaches itself if the declarations go down in a rank wherever they mention one. -/
lemma acyclic_of_rank (rank : TypeDecl α → Nat)
    (hrank : ∀ user ∈ types, ∀ target, Mentions types user target → rank target < rank user) :
    ∀ decl ∈ types, ¬TransGen (Mentions types) decl decl := by
  have hdown (decl : TypeDecl α) (hdecl : decl ∈ types) (target : TypeDecl α)
      (h : TransGen (Mentions types) decl target) : target ∈ types ∧ rank target < rank decl := by
    induction h with
    | single hmentions => exact ⟨hmentions.1, hrank _ hdecl _ hmentions⟩
    | tail _ hmentions ih => exact ⟨hmentions.1, Nat.lt_trans (hrank _ ih.1 _ hmentions) ih.2⟩
  exact fun decl hdecl h => absurd (hdown decl hdecl decl h).2 (Nat.lt_irrefl _)

/-! ### Depth -/

/-- The number of declarations whose names are not visited. -/
def unseen (types : List (TypeDecl α)) (seen : List (Option Label.Key)) : Nat :=
  types.countP fun decl => !seen.contains (Label.key? decl.name)

lemma unseen_le {seen seen' : List (Option Label.Key)} (h : seen ⊆ seen') :
    unseen types seen' ≤ unseen types seen := by
  refine List.countP_mono_left fun decl _ hunseen => ?_
  rw [Bool.not_eq_true', ← Bool.not_eq_true, List.contains_iff_mem] at hunseen ⊢
  exact fun hseen => hunseen (h hseen)

/-- A visit to a new name leaves fewer names. -/
lemma unseen_cons_lt {seen : List (Option Label.Key)} (hdecl : decl ∈ types)
    (hnew : Label.key? decl.name ∉ seen) :
    unseen types (Label.key? decl.name :: seen) < unseen types seen := by
  obtain ⟨front, back, rfl⟩ := List.append_of_mem hdecl
  have hseen := List.subset_cons_self (Label.key? decl.name) seen
  have hfront : unseen front (Label.key? decl.name :: seen) ≤ unseen front seen := unseen_le hseen
  have hback : unseen back (Label.key? decl.name :: seen) ≤ unseen back seen := unseen_le hseen
  simp only [unseen, List.contains_eq_mem, List.countP_append, List.countP_cons, List.mem_cons,
    true_or, hnew, decide_true, decide_false, Bool.not_true, Bool.not_false, Bool.false_eq_true,
    if_true, if_false] at hfront hback ⊢
  omega

/-! ### The search -/

/-- The search with no bound on its depth: visits to declarations, one after the other, that lead
from a walk to another one.  A declaration whose name is visited is passed over; any other is done
after visits to all that it mentions. -/
inductive Search (types : List (TypeDecl α)) : Walk α → List (TypeDecl α) → Walk α → Prop
  | nil {walk : Walk α} : Search types walk [] walk
  | pass {walk walk' : Walk α} {decl : TypeDecl α} {rest : List (TypeDecl α)}
      (hseen : Label.key? decl.name ∈ walk.seen) (hrest : Search types walk rest walk') :
      Search types walk (decl :: rest) walk'
  | visit {walk middle walk' : Walk α} {decl : TypeDecl α} {rest : List (TypeDecl α)}
      (hnew : Label.key? decl.name ∉ walk.seen)
      (hinner : Search types ⟨Label.key? decl.name :: walk.seen, walk.done⟩
        (dependencies types decl) middle)
      (hrest : Search types ⟨middle.seen, middle.done ++ [decl]⟩ rest walk') :
      Search types walk (decl :: rest) walk'

/-- The search leads to one walk only. -/
lemma Search.unique {walk walk' walk'' : Walk α} {decls : List (TypeDecl α)}
    (h : Search types walk decls walk') (h' : Search types walk decls walk'') : walk' = walk'' := by
  induction h generalizing walk'' with
  | nil =>
    cases h'
    rfl
  | pass hseen _ ih =>
    cases h' with
    | pass _ hrest' => exact ih hrest'
    | visit hnew' => exact absurd hseen hnew'
  | visit hnew _ _ ihInner ihRest =>
    cases h' with
    | pass hseen' => exact absurd hseen' hnew
    | visit _ hinner' hrest' =>
      obtain rfl := ihInner hinner'
      exact ihRest hrest'

/-! ### Walks -/

/-- A name is open if it is visited, and its declaration is not done. -/
def Walk.Open (walk : Walk α) (key : Option Label.Key) : Prop :=
  key ∈ walk.seen ∧ key ∉ keys walk.done

/-- What has been done is declared, once, and visited. -/
structure Walk.Valid (types : List (TypeDecl α)) (walk : Walk α) : Prop where
  subset : walk.done ⊆ types
  nodup : (keys walk.done).Nodup
  seen : keys walk.done ⊆ walk.seen

lemma Walk.valid_start : Walk.Valid types ⟨[], []⟩ :=
  ⟨List.nil_subset _, List.nodup_nil, List.nil_subset _⟩

lemma Walk.Valid.enter {walk : Walk α} (h : walk.Valid types) :
    Walk.Valid types ⟨Label.key? decl.name :: walk.seen, walk.done⟩ :=
  ⟨h.subset, h.nodup, fun _ hkey => List.mem_cons_of_mem _ (h.seen hkey)⟩

/-- The open declarations are on the way to a declaration. -/
def Walk.LeadsTo (types : List (TypeDecl α)) (walk : Walk α) (decl : TypeDecl α) : Prop :=
  ∀ other ∈ types, walk.Open (Label.key? other.name) → TransGen (Mentions types) other decl

/-- Declarations stand behind those they mention, unless these reach them. -/
def Ordered (types done : List (TypeDecl α)) : Prop :=
  ∀ before decl after, done = before ++ decl :: after → ∀ target, Mentions types decl target →
    Label.key? target.name ∈ keys before ∨ TransGen (Mentions types) target decl

lemma Ordered.snoc {done : List (TypeDecl α)} (h : Ordered types done)
    (hlast : ∀ target, Mentions types decl target →
      Label.key? target.name ∈ keys done ∨ TransGen (Mentions types) target decl) :
    Ordered types (done ++ [decl]) := by
  intro before user after hsplit target htarget
  rcases List.eq_nil_or_concat after with rfl | ⟨after', last, rfl⟩
  · obtain ⟨rfl, hsame⟩ := List.append_inj' hsplit rfl
    obtain rfl := List.head_eq_of_cons_eq hsame
    exact hlast target htarget
  · rw [List.concat_eq_append, ← List.cons_append, ← List.append_assoc] at hsplit
    obtain ⟨hdone, -⟩ := List.append_inj' hsplit rfl
    exact h before user after' hdone target htarget

/-- What becomes of a walk by visits to some declarations. -/
structure Visits (types : List (TypeDecl α)) (walk walk' : Walk α) (decls : List (TypeDecl α)) :
    Prop where
  seen_subset : walk.seen ⊆ walk'.seen
  done_prefix : walk.done <+: walk'.done
  open_iff : ∀ key, walk'.Open key ↔ walk.Open key
  visited : ∀ decl ∈ decls, Label.key? decl.name ∈ walk'.seen
  valid : walk.Valid types → walk'.Valid types
  ordered : (keys types).Nodup → walk.Valid types → (∀ decl ∈ decls, walk.LeadsTo types decl) →
    Ordered types walk.done → Ordered types walk'.done

namespace Visits

variable {walk walk' walk'' : Walk α} {decls decls' : List (TypeDecl α)}

/-- A walk that stands still has visited what is visited already. -/
lemma refl (h : ∀ decl ∈ decls, Label.key? decl.name ∈ walk.seen) :
    Visits types walk walk decls where
  seen_subset := List.Subset.refl _
  done_prefix := List.prefix_rfl
  open_iff _ := Iff.rfl
  visited := h
  valid := id
  ordered _ _ _ := id

lemma trans (h : Visits types walk walk' decls) (h' : Visits types walk' walk'' decls') :
    Visits types walk walk'' (decls ++ decls') where
  seen_subset := List.Subset.trans h.seen_subset h'.seen_subset
  done_prefix := h.done_prefix.trans h'.done_prefix
  open_iff key := (h'.open_iff key).trans (h.open_iff key)
  visited decl hdecl := (List.mem_append.1 hdecl).elim
    (fun hdecl => h'.seen_subset (h.visited decl hdecl)) (h'.visited decl)
  valid := h'.valid ∘ h.valid
  ordered hnodup hvalid hleads hordered := by
    refine h'.ordered hnodup (h.valid hvalid) (fun decl hdecl other hother hopen => ?_)
      (h.ordered hnodup hvalid (fun decl hdecl => hleads decl (List.mem_append_left _ hdecl))
        hordered)
    exact hleads decl (List.mem_append_right _ hdecl) other hother ((h.open_iff _).1 hopen)

/-- Once a declaration is done, only its own name is no longer open. -/
lemma open_finish (hnew : Label.key? decl.name ∉ walk.seen)
    (h : Visits types ⟨Label.key? decl.name :: walk.seen, walk.done⟩ walk' decls)
    (key : Option Label.Key) :
    Walk.Open ⟨walk'.seen, walk'.done ++ [decl]⟩ key ↔ walk.Open key := by
  have hmiddle := h.open_iff key
  simp only [Walk.Open, keys_append, List.mem_append, mem_keys_singleton, List.mem_cons]
    at hmiddle ⊢
  constructor
  · rintro ⟨hseen, hnot⟩
    obtain ⟨hkey, hdone⟩ := hmiddle.1 ⟨hseen, fun hdone => hnot (.inl hdone)⟩
    exact ⟨hkey.resolve_left fun heq => hnot (.inr heq), hdone⟩
  · rintro ⟨hseen, hdone⟩
    obtain ⟨hseen', hdone'⟩ := hmiddle.2 ⟨.inr hseen, hdone⟩
    refine ⟨hseen', fun hkey => hkey.elim hdone' ?_⟩
    rintro rfl
    exact hnew hseen

/-- What is open when a declaration is done reaches it, or is it. -/
lemma ordered_finish (hdecl : decl ∈ types) (hnodup : (keys types).Nodup)
    (h : Visits types ⟨Label.key? decl.name :: walk.seen, walk.done⟩ walk'
      (dependencies types decl))
    (hvalid : Walk.Valid types ⟨Label.key? decl.name :: walk.seen, walk.done⟩)
    (hleads : walk.LeadsTo types decl) (hordered : Ordered types walk.done) :
    Ordered types (walk'.done ++ [decl]) := by
  have hreach (other : TypeDecl α) (hother : other ∈ types)
      (hopen : Walk.Open ⟨Label.key? decl.name :: walk.seen, walk.done⟩
        (Label.key? other.name)) :
      other = decl ∨ TransGen (Mentions types) other decl := by
    obtain ⟨hseen, hdone⟩ := hopen
    rcases List.mem_cons.1 hseen with hkey | hseen
    · exact .inl (eq_of_key_eq hnodup hother hdecl hkey)
    · exact .inr (hleads other hother ⟨hseen, hdone⟩)
  have hbefore : Ordered types walk'.done := by
    refine h.ordered hnodup hvalid (fun target htarget other hother hopen => ?_) hordered
    have hstep := TransGen.single (mentions_of_mem_dependencies htarget)
    rcases hreach other hother hopen with rfl | hreach
    · exact hstep
    · exact hreach.trans hstep
  refine hbefore.snoc fun target htarget => ?_
  have hseen := h.visited target (mem_dependencies hnodup htarget)
  by_cases hdone : Label.key? target.name ∈ keys walk'.done
  · exact .inl hdone
  · right
    rcases hreach target htarget.1 ((h.open_iff _).1 ⟨hseen, hdone⟩) with rfl | hreach
    · exact .single htarget
    · exact hreach

/-- A declaration with a new name is visited by visits to all that it mentions, and is then done. -/
lemma finish (hdecl : decl ∈ types) (hnew : Label.key? decl.name ∉ walk.seen)
    (h : Visits types ⟨Label.key? decl.name :: walk.seen, walk.done⟩ walk'
      (dependencies types decl)) :
    Visits types walk ⟨walk'.seen, walk'.done ++ [decl]⟩ [decl] := by
  refine ⟨List.Subset.trans (List.subset_cons_self _ _) h.seen_subset,
    h.done_prefix.trans (List.prefix_append _ _), open_finish hnew h, ?_, fun hvalid => ?_, ?_⟩
  · intro other hother
    rw [List.mem_singleton.1 hother]
    exact h.seen_subset List.mem_cons_self
  · -- The name is open while what the declaration mentions is visited, so nothing else that is done
    -- by then has this name.
    obtain ⟨hseen, hdone⟩ : walk'.Open (Label.key? decl.name) :=
      (h.open_iff _).2 ⟨List.mem_cons_self, fun hdone => hnew (hvalid.seen hdone)⟩
    have hbefore := h.valid hvalid.enter
    refine ⟨List.append_subset.2 ⟨hbefore.subset, singleton_subset hdecl⟩, ?_, ?_⟩
    · rw [keys_append]
      exact hbefore.nodup.append (List.nodup_singleton _) (List.disjoint_singleton.2 hdone)
    · rw [keys_append]
      exact List.append_subset.2 ⟨hbefore.seen, singleton_subset hseen⟩
  · intro hnodup hvalid hleads
    exact h.ordered_finish hdecl hnodup hvalid.enter (hleads decl (List.mem_singleton_self _))

end Visits

/-- **What the search keeps and what it adds**, by what was passed over and what was visited. -/
theorem Search.visits {walk walk' : Walk α} {decls : List (TypeDecl α)}
    (h : Search types walk decls walk') (hdecls : decls ⊆ types) :
    Visits types walk walk' decls := by
  induction h with
  | nil => exact .refl fun decl hdecl => absurd hdecl List.not_mem_nil
  | pass hseen _ ih =>
    obtain ⟨-, hrest⟩ := List.cons_subset.1 hdecls
    have hpass : Visits types _ _ [_] :=
      .refl fun other hother => by rwa [List.mem_singleton.1 hother]
    exact hpass.trans (ih hrest)
  | visit hnew _ _ ihInner ihRest =>
    obtain ⟨hdecl, hrest⟩ := List.cons_subset.1 hdecls
    exact (Visits.finish hdecl hnew (ihInner dependencies_subset)).trans (ihRest hrest)

/-- Visits that are deep enough for the names that are not visited yet make the search. -/
lemma search_visitAll {depth : Nat} {walk : Walk α} {decls : List (TypeDecl α)}
    (hdecls : decls ⊆ types) (hdepth : unseen types walk.seen < depth) :
    Search types walk decls (visitAll types depth walk decls) := by
  induction depth generalizing walk decls with
  | zero => omega
  | succ depth ih =>
    induction decls generalizing walk with
    | nil => exact .nil
    | cons decl rest ihRest =>
      obtain ⟨hdecl, hrest⟩ := List.cons_subset.1 hdecls
      rw [visitAll, List.foldl_cons, visit]
      by_cases hseen : Label.key? decl.name ∈ walk.seen
      · rw [if_pos hseen]
        exact .pass hseen (ihRest hrest hdepth)
      · rw [if_neg hseen]
        have hless := unseen_cons_lt hdecl hseen
        have hinner : Search types ⟨Label.key? decl.name :: walk.seen, walk.done⟩
            (dependencies types decl) _ :=
          ih dependencies_subset (Nat.lt_of_lt_of_le hless (Nat.le_of_lt_succ hdepth))
        have hstill : unseen types _ ≤ unseen types _ :=
          unseen_le (hinner.visits dependencies_subset).seen_subset
        exact .visit hseen hinner
          (ihRest hrest (Nat.lt_trans (Nat.lt_of_le_of_lt hstill hless) hdepth))

/-- **The search ends, in one way**: the walk through the declarations is the only one that it can
end with, and it ends with it. -/
theorem search_iff (types : List (TypeDecl α)) (walk : Walk α) :
    Search types ⟨[], []⟩ types walk ↔
      walk = visitAll types (types.length + 1) ⟨[], []⟩ types := by
  have hends : Search types ⟨[], []⟩ types (visitAll types (types.length + 1) ⟨[], []⟩ types) :=
    search_visitAll (List.Subset.refl _) (Nat.lt_succ_of_le List.countP_le_length)
  exact ⟨fun h => h.unique hends, fun h => h ▸ hends⟩

/-- **The walk visits every declaration.** -/
theorem visitAll_visits (types : List (TypeDecl α)) :
    Visits types ⟨[], []⟩ (visitAll types (types.length + 1) ⟨[], []⟩ types) types :=
  ((search_iff types _).2 rfl).visits (List.Subset.refl _)

/-! ### The order of the declarations -/

lemma valid_dependencyOrder (types : List (TypeDecl α)) :
    Walk.Valid types (visitAll types (types.length + 1) ⟨[], []⟩ types) :=
  (visitAll_visits types).valid Walk.valid_start

/-- The order has declared types only. -/
lemma dependencyOrder_subset (types : List (TypeDecl α)) : dependencyOrder types ⊆ types :=
  (valid_dependencyOrder types).subset

/-- The order has each name once. -/
lemma nodup_keys_dependencyOrder (types : List (TypeDecl α)) :
    (keys (dependencyOrder types)).Nodup :=
  (valid_dependencyOrder types).nodup

/-- The order has each name that is declared. -/
lemma keys_subset_dependencyOrder (types : List (TypeDecl α)) :
    keys types ⊆ keys (dependencyOrder types) := by
  intro key hkey
  obtain ⟨decl, hdecl, rfl⟩ := mem_keys.1 hkey
  by_contra hdone
  -- Nothing is open in the end, as nothing was in the beginning.
  have hopen := ((visitAll_visits types).open_iff _).1
    ⟨(visitAll_visits types).visited decl hdecl, hdone⟩
  exact absurd hopen.1 List.not_mem_nil

/-- **The order loses no declaration and repeats none**, if their names are told apart. -/
theorem dependencyOrder_perm (hnodup : (keys types).Nodup) :
    (dependencyOrder types).Perm types := by
  refine (List.perm_ext_iff_of_nodup (nodup_keys_dependencyOrder types).of_map hnodup.of_map).2 ?_
  refine fun decl => ⟨fun hdecl => dependencyOrder_subset types hdecl, fun hdecl => ?_⟩
  exact mem_of_mem_keys hnodup (dependencyOrder_subset types) hdecl
    (keys_subset_dependencyOrder types (List.mem_map_of_mem hdecl))

/-- **A declaration stands behind those it mentions, up to cycles**: a declared type that a
declaration mentions stands before it, or reaches it by mentions. -/
theorem before_or_reaches (hnodup : (keys types).Nodup) {before after : List (TypeDecl α)}
    (hsplit : dependencyOrder types = before ++ decl :: after) (h : Mentions types decl target) :
    Label.key? target.name ∈ keys before ∨ TransGen (Mentions types) target decl := by
  have hordered : Ordered types (dependencyOrder types) := by
    refine (visitAll_visits types).ordered hnodup Walk.valid_start ?_ ?_
    · exact fun decl _ other _ hopen => absurd hopen.1 List.not_mem_nil
    · exact fun before decl after hnil => by simp at hnil
  exact hordered before decl after hsplit target h

/-- A declared type that a declaration mentions stands before it in the order, or reaches it. -/
lemma sublist_or_reaches (hnodup : (keys types).Nodup) (hdecl : decl ∈ types)
    (h : Mentions types decl target) :
    [target, decl].Sublist (dependencyOrder types) ∨ TransGen (Mentions types) target decl := by
  obtain ⟨before, after, hsplit⟩ :=
    List.append_of_mem ((dependencyOrder_perm hnodup).mem_iff.2 hdecl)
  refine (before_or_reaches hnodup hsplit h).imp_left fun hkey => ?_
  have hbefore : before ⊆ types := by
    refine List.Subset.trans ?_ (dependencyOrder_subset types)
    rw [hsplit]
    exact List.subset_append_left _ _
  have htarget := mem_of_mem_keys hnodup hbefore h.1 hkey
  rw [hsplit]
  exact (List.singleton_sublist.2 htarget).append (List.singleton_sublist.2 List.mem_cons_self)

/-- Where names are texts, the order has each declared name once. -/
lemma nodup_names_dependencyOrder (types : List TypeDecl) :
    ((dependencyOrder types).map (·.name)).Nodup := by
  have hkeys := nodup_keys_dependencyOrder types
  rw [keys_eq_map] at hkeys
  exact hkeys.of_map

/-- Where names are texts, the order has just the declared names. -/
lemma mem_names_dependencyOrder (types : List TypeDecl) (name : String) :
    name ∈ (dependencyOrder types).map (·.name) ↔ name ∈ types.map (·.name) := by
  refine ⟨fun hname => List.map_subset _ (dependencyOrder_subset types) hname, fun hname => ?_⟩
  obtain ⟨decl, hdecl, rfl⟩ := List.mem_map.1 hname
  obtain ⟨found, hfound, hkey⟩ :=
    mem_keys.1 (keys_subset_dependencyOrder types (List.mem_map_of_mem hdecl))
  exact List.mem_map.2 ⟨found, hfound, Label.Key.text.inj (Option.some.inj hkey)⟩

/-- **The order loses nothing, and is topological up to cycles.**  The search ends, and what it has
done then is the order; the order has declared types only, and each declared name once.  If the
declared types have names of their own, a type that another one mentions stands before it, or
reaches it by mentions; so without cycles each type stands behind all that it mentions. -/
theorem dependencyOrder_topological (types : List TypeDecl) :
    (∀ done, (∃ seen, Search types ⟨[], []⟩ types ⟨seen, done⟩) ↔ done = dependencyOrder types) ∧
    dependencyOrder types ⊆ types ∧
    ((dependencyOrder types).map (·.name)).Nodup ∧
    (∀ name, name ∈ (dependencyOrder types).map (·.name) ↔ name ∈ types.map (·.name)) ∧
    ((types.map (·.name)).Nodup →
      (∀ user ∈ types, ∀ target, Mentions types user target →
        [target, user].Sublist (dependencyOrder types) ∨
          ReflTransGen (Mentions types) target user) ∧
      ((∀ decl ∈ types, ¬TransGen (Mentions types) decl decl) →
        ∀ user ∈ types, ∀ target, Mentions types user target →
          [target, user].Sublist (dependencyOrder types))) := by
  refine ⟨fun done => ⟨?_, ?_⟩, dependencyOrder_subset types, nodup_names_dependencyOrder types,
    mem_names_dependencyOrder types, fun hnames => ⟨?_, ?_⟩⟩
  · rintro ⟨seen, hsearch⟩
    exact congrArg Walk.done ((search_iff types _).1 hsearch)
  · rintro rfl
    exact ⟨_, (search_iff types _).2 rfl⟩
  · intro user huser target hmentions
    have hplaced := sublist_or_reaches (nodup_keys hnames) huser hmentions
    exact hplaced.imp_right TransGen.to_reflTransGen
  · intro hacyclic user huser target hmentions
    refine (sublist_or_reaches (nodup_keys hnames) huser hmentions).resolve_right fun hreach => ?_
    exact hacyclic user huser (.head hmentions hreach)

/-- Declarations of which each stands before those it mentions. -/
def linkedTypes : List TypeDecl :=
  [⟨"Holder", .struct [⟨"key", .custom "Key", none⟩, ⟨"top", .option (.custom "Node"), none⟩],
      none⟩,
    ⟨"Node", .struct [⟨"next", .vec (.option (.custom "Edge")), none⟩], none⟩,
    ⟨"Edge", .union [⟨"To", some (.tuple [.primitive .u32, .vec (.custom "Key")]), none⟩,
      ⟨"End", none, none⟩], none⟩,
    ⟨"Key", .struct [⟨"id", .primitive .u32, none⟩], none⟩]

theorem dependencyOrder_topological_linked :
    (linkedTypes.map (·.name)).Nodup ∧
      (∀ decl ∈ linkedTypes, ¬TransGen (Mentions linkedTypes) decl decl) ∧
      (∀ user ∈ linkedTypes, ∀ target, Mentions linkedTypes user target →
        [target, user].Sublist (dependencyOrder linkedTypes)) ∧
      (dependencyOrder linkedTypes).map (·.name) = ["Key", "Edge", "Node", "Holder"] := by
  have hnames : (linkedTypes.map (·.name)).Nodup := by decide
  have hrank : ∀ user ∈ linkedTypes, ∀ target ∈ linkedTypes,
      (∃ name ∈ user.types.flatMap (·.customNames), Label.isNamed target.name name) →
        ["Key", "Edge", "Node", "Holder"].idxOf target.name <
          ["Key", "Edge", "Node", "Holder"].idxOf user.name := by
    decide +kernel
  have hacyclic : ∀ decl ∈ linkedTypes, ¬TransGen (Mentions linkedTypes) decl decl :=
    acyclic_of_rank (fun decl => ["Key", "Edge", "Node", "Holder"].idxOf decl.name)
      fun user huser target h => hrank user huser target h.1 h.2
  obtain ⟨-, -, -, -, hordered⟩ := dependencyOrder_topological linkedTypes
  exact ⟨hnames, hacyclic, (hordered hnames).2 hacyclic, by decide +kernel⟩

end ContractInterface.Schema
