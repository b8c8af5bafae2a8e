/-
# What each declaration adds to the order

A visit to a declaration reaches just what can be reached from it through names that are not visited
yet, and all of that is done when the visit ends.  For the declarations at the top of the walk this
says which part of the order each of them adds; for the others, that the one of a cycle that is
reached first is done last.  The main results are

* `Search.seen_iff`: what a search visits;
* `Search.exists_blocks`: what the declarations at the top of a search add to the order;
* `Search.sublist_of_reachesNew`: what is done before a declaration that is reached;
* `dependencyOrder_blocks`: the order, by blocks.
-/
import Mathlib.Data.List.Cycle
import ContractInterface.Proofs.Schema.Order

namespace ContractInterface.Schema

open Relation (ReflTransGen)

variable {α : Type} [Label α] {types : List (TypeDecl α)}

/-! ### Paths through new names -/

/-- A declaration reaches another one by mentions, through names that are not visited. -/
def ReachesNew (types : List (TypeDecl α)) (seen : List (Option Label.Key))
    (user target : TypeDecl α) : Prop :=
  Label.key? user.name ∉ seen ∧
    ReflTransGen (fun user target => Mentions types user target ∧ Label.key? target.name ∉ seen)
      user target

lemma mem_of_reaches {user target : TypeDecl α} (huser : user ∈ types)
    (h : ReflTransGen (Mentions types) user target) : target ∈ types := by
  induction h with
  | refl => exact huser
  | tail _ hmentions _ => exact hmentions.1

namespace ReachesNew

variable {seen seen' : List (Option Label.Key)} {user target : TypeDecl α}

lemma reaches (h : ReachesNew types seen user target) :
    ReflTransGen (Mentions types) user target :=
  ReflTransGen.mono (fun _ _ hstep => hstep.1) _ _ h.2

lemma not_mem (h : ReachesNew types seen user target) : Label.key? target.name ∉ seen := by
  obtain ⟨hnew, hpath⟩ := h
  cases hpath with
  | refl => exact hnew
  | tail _ hstep => exact hstep.2

lemma mono (hseen : seen ⊆ seen') (h : ReachesNew types seen' user target) :
    ReachesNew types seen user target :=
  ⟨fun hmem => h.1 (hseen hmem),
    ReflTransGen.mono (fun _ _ hstep => ⟨hstep.1, fun hmem => hstep.2 (hseen hmem)⟩) _ _ h.2⟩

lemma head {next : TypeDecl α} (hnew : Label.key? user.name ∉ seen)
    (hmentions : Mentions types user next) (h : ReachesNew types seen next target) :
    ReachesNew types seen user target :=
  ⟨hnew, .head ⟨hmentions, h.1⟩ h.2⟩

/-- The members of a chain of mentions are reached from its first one. -/
lemma of_isChain {rest : List (TypeDecl α)} (hchain : List.IsChain (Mentions types) (user :: rest))
    (hnew : ∀ decl ∈ user :: rest, Label.key? decl.name ∉ seen) (htarget : target ∈ user :: rest) :
    ReachesNew types seen user target := by
  induction rest generalizing user with
  | nil =>
    obtain rfl := List.mem_singleton.1 htarget
    exact ⟨hnew _ htarget, .refl⟩
  | cons next rest ih =>
    obtain ⟨huser, hrest⟩ := List.forall_mem_cons.1 hnew
    obtain ⟨hmentions, hchain⟩ := List.isChain_cons_cons.1 hchain
    rcases List.mem_cons.1 htarget with rfl | htarget
    · exact ⟨huser, .refl⟩
    · exact .head huser hmentions (ih hchain hrest htarget)

end ReachesNew

/-- Of two ends of a list one is an end of the other. -/
lemma suffix_or_cons_suffix {β : Type} {first : β} {rest other list : List β}
    (h : first :: rest <:+ list) (hother : other <:+ list) :
    other <:+ rest ∨ first :: rest <:+ other := by
  rcases List.suffix_or_suffix_of_suffix hother h with hsuffix | hsuffix
  · rcases List.suffix_cons_iff.1 hsuffix with rfl | hsuffix
    · exact .inr List.suffix_rfl
    · exact .inl hsuffix
  · exact .inr hsuffix

/-! ### What a search visits -/

namespace Search

variable {walk walk' : Walk α} {decls : List (TypeDecl α)}

/-- The names that a search visits stand in front of those that were visited before. -/
lemma seen_suffix (h : Search types walk decls walk') : walk.seen <:+ walk'.seen := by
  induction h with
  | nil => exact List.suffix_rfl
  | pass _ _ ih => exact ih
  | visit _ _ _ ihInner ihRest => exact ((List.suffix_cons _ _).trans ihInner).trans ihRest

/-- A search visits a name once. -/
lemma nodup_seen (h : Search types walk decls walk') (hwalk : walk.seen.Nodup) :
    walk'.seen.Nodup := by
  induction h with
  | nil => exact hwalk
  | pass _ _ ih => exact ih hwalk
  | visit hnew _ _ ihInner ihRest => exact ihRest (ihInner (List.nodup_cons.2 ⟨hnew, hwalk⟩))

/-- What a newly visited declaration mentions is visited as well. -/
lemma closed (hnodup : (keys types).Nodup) (h : Search types walk decls walk')
    (hdecls : decls ⊆ types) {user target : TypeDecl α} (huser : user ∈ types)
    (hseen : Label.key? user.name ∈ walk'.seen) (hnew : Label.key? user.name ∉ walk.seen)
    (hmentions : Mentions types user target) : Label.key? target.name ∈ walk'.seen := by
  induction h with
  | nil => exact absurd hseen hnew
  | pass _ _ ih => exact ih (List.cons_subset.1 hdecls).2 hseen hnew
  | @visit walk middle walk' decl rest _ hinner hrest ihInner ihRest =>
    obtain ⟨hdecl, hrestSubset⟩ := List.cons_subset.1 hdecls
    by_cases hmiddle : Label.key? user.name ∈ middle.seen
    · refine hrest.seen_suffix.subset ?_
      by_cases hself : Label.key? user.name = Label.key? decl.name
      · obtain rfl := eq_of_key_eq hnodup huser hdecl hself
        exact (hinner.visits dependencies_subset).visited target (mem_dependencies hnodup hmentions)
      · exact ihInner dependencies_subset hmiddle fun hmem => (List.mem_cons.1 hmem).elim hself hnew
    · exact ihRest hrestSubset hseen hmiddle

/-- What is newly visited is reached through new names. -/
lemma exists_reachesNew (hnodup : (keys types).Nodup) (h : Search types walk decls walk')
    (hdecls : decls ⊆ types) {target : TypeDecl α} (htarget : target ∈ types)
    (hseen : Label.key? target.name ∈ walk'.seen) :
    Label.key? target.name ∈ walk.seen ∨
      ∃ root ∈ decls, ReachesNew types walk.seen root target := by
  induction h with
  | nil => exact .inl hseen
  | pass _ _ ih =>
    refine (ih (List.cons_subset.1 hdecls).2 hseen).imp_right ?_
    rintro ⟨root, hroot, hreach⟩
    exact ⟨root, List.mem_cons_of_mem _ hroot, hreach⟩
  | @visit walk middle walk' decl rest hnew hinner _ ihInner ihRest =>
    obtain ⟨hdecl, hrestSubset⟩ := List.cons_subset.1 hdecls
    rcases ihRest hrestSubset hseen with hmiddle | ⟨root, hroot, hreach⟩
    · rcases ihInner dependencies_subset hmiddle with hseen | ⟨next, hnext, hreach⟩
      · rcases List.mem_cons.1 hseen with hself | hseen
        · obtain rfl := eq_of_key_eq hnodup htarget hdecl hself
          exact .inr ⟨target, List.mem_cons_self, hnew, .refl⟩
        · exact .inl hseen
      · exact .inr ⟨decl, List.mem_cons_self, .head hnew (mentions_of_mem_dependencies hnext)
          (hreach.mono (List.subset_cons_self _ _))⟩
    · have hsubset := ((List.suffix_cons _ _).trans hinner.seen_suffix).subset
      exact .inr ⟨root, List.mem_cons_of_mem _ hroot, hreach.mono hsubset⟩

/-- What is reached through new names is visited. -/
lemma seen_of_reachesNew (hnodup : (keys types).Nodup) (h : Search types walk decls walk')
    (hdecls : decls ⊆ types) {root target : TypeDecl α} (hroot : root ∈ decls)
    (hreach : ReachesNew types walk.seen root target) : Label.key? target.name ∈ walk'.seen := by
  obtain ⟨hnew, hpath⟩ := hreach
  induction hpath with
  | refl => exact (h.visits hdecls).visited root hroot
  | @tail user target hpath hstep ih =>
    have hreach : ReachesNew types walk.seen root user := ⟨hnew, hpath⟩
    have huser : user ∈ types := mem_of_reaches (hdecls hroot) hreach.reaches
    exact h.closed hnodup hdecls huser ih hreach.not_mem hstep.1

/-- **A search visits what its declarations reach through new names.** -/
theorem seen_iff (hnodup : (keys types).Nodup) (h : Search types walk decls walk')
    (hdecls : decls ⊆ types) {target : TypeDecl α} (htarget : target ∈ types) :
    Label.key? target.name ∈ walk'.seen ↔
      Label.key? target.name ∈ walk.seen ∨
        ∃ root ∈ decls, ReachesNew types walk.seen root target := by
  refine ⟨h.exists_reachesNew hnodup hdecls htarget, ?_⟩
  rintro (hseen | ⟨root, hroot, hreach⟩)
  · exact h.seen_suffix.subset hseen
  · exact h.seen_of_reachesNew hnodup hdecls hroot hreach

end Search

/-! ### What a search adds -/

namespace Visits

variable {walk walk' : Walk α} {decls : List (TypeDecl α)} {decl : TypeDecl α}

/-- A declaration that is newly visited is done. -/
lemma mem_done (hnodup : (keys types).Nodup) (h : Visits types walk walk' decls)
    (hvalid : walk.Valid types) (hdecl : decl ∈ types) (hseen : Label.key? decl.name ∈ walk'.seen)
    (hnew : Label.key? decl.name ∉ walk.seen) : decl ∈ walk'.done := by
  have hkey : Label.key? decl.name ∈ keys walk'.done := by
    by_contra hdone
    exact hnew ((h.open_iff _).1 ⟨hseen, hdone⟩).1
  exact mem_of_mem_keys hnodup (h.valid hvalid).subset hdecl hkey

/-- Just the declarations that are newly visited are newly done. -/
lemma mem_new_iff (hnodup : (keys types).Nodup) (h : Visits types walk walk' decls)
    (hvalid : walk.Valid types) {new : List (TypeDecl α)} (hnew : walk'.done = walk.done ++ new)
    (hdecl : decl ∈ types) :
    decl ∈ new ↔ Label.key? decl.name ∈ walk'.seen ∧ Label.key? decl.name ∉ walk.seen := by
  have hvalid' := h.valid hvalid
  constructor
  · intro hmem
    have hkey : Label.key? decl.name ∈ keys new := List.mem_map_of_mem hmem
    have hkeys : keys walk'.done = keys walk.done ++ keys new := by rw [hnew, keys_append]
    have hdone : Label.key? decl.name ∈ keys walk'.done := hkeys ▸ List.mem_append_right _ hkey
    refine ⟨hvalid'.seen hdone, fun hseen => ?_⟩
    -- A name that was visited before was done by then, or is still open.
    by_cases hbefore : Label.key? decl.name ∈ keys walk.done
    · exact (List.nodup_append.1 (hkeys ▸ hvalid'.nodup)).2.2 _ hbefore _ hkey rfl
    · exact ((h.open_iff _).2 ⟨hseen, hbefore⟩).2 hdone
  · rintro ⟨hseen, hunseen⟩
    have hdone := h.mem_done hnodup hvalid hdecl hseen hunseen
    rw [hnew] at hdone
    refine (List.mem_append.1 hdone).resolve_left fun hbefore => ?_
    exact hunseen (hvalid.seen (List.mem_map_of_mem hbefore))

end Visits

/-- What a declaration adds to the order: all that it reaches and no earlier declaration does, once,
and itself at the end. -/
structure IsBlock (types earlier : List (TypeDecl α)) (root : TypeDecl α)
    (block : List (TypeDecl α)) : Prop where
  nodup : block.Nodup
  mem_iff : ∀ decl, decl ∈ block ↔ ReflTransGen (Mentions types) root decl ∧
    ∀ other ∈ earlier, ¬ReflTransGen (Mentions types) other decl
  getLast?_eq : block ≠ [] → block.getLast? = some root

/-- A walk between two declarations at the top: what is visited is what the earlier ones reach. -/
structure Walk.Settled (types : List (TypeDecl α)) (walk : Walk α) (earlier : List (TypeDecl α)) :
    Prop where
  valid : walk.Valid types
  seen_iff : ∀ decl ∈ types, Label.key? decl.name ∈ walk.seen ↔
    ∃ other ∈ earlier, ReflTransGen (Mentions types) other decl

/-- Where all that is visited is closed under mentions, a path to a new name has new names only. -/
lemma Walk.Settled.reachesNew_iff {walk : Walk α} {earlier : List (TypeDecl α)}
    (h : walk.Settled types earlier) {root decl : TypeDecl α} (hroot : root ∈ types) :
    ReachesNew types walk.seen root decl ↔
      ReflTransGen (Mentions types) root decl ∧ Label.key? decl.name ∉ walk.seen := by
  refine ⟨fun hreach => ⟨hreach.reaches, hreach.not_mem⟩, ?_⟩
  rintro ⟨hpath, hnew⟩
  induction hpath with
  | refl => exact ⟨hnew, .refl⟩
  | @tail user decl hpath hmentions ih =>
    have hunseen : Label.key? user.name ∉ walk.seen := by
      intro hseen
      obtain ⟨other, hother, hreach⟩ := (h.seen_iff user (mem_of_reaches hroot hpath)).1 hseen
      exact hnew ((h.seen_iff decl hmentions.1).2 ⟨other, hother, hreach.tail hmentions⟩)
    obtain ⟨hrootNew, hpathNew⟩ := ih hunseen
    exact ⟨hrootNew, hpathNew.tail ⟨hmentions, hnew⟩⟩

namespace Search

variable {walk walk' : Walk α} {root : TypeDecl α} {earlier : List (TypeDecl α)}

/-- What a search for one declaration adds ends with this declaration. -/
lemma getLast?_new (h : Search types walk [root] walk') {new : List (TypeDecl α)}
    (hnew : walk'.done = walk.done ++ new) (hne : new ≠ []) : new.getLast? = some root := by
  cases h with
  | pass _ hrest =>
    cases hrest
    exact absurd (List.self_eq_append_right.1 hnew) hne
  | @visit _ middle _ _ _ _ hinner hrest =>
    cases hrest
    obtain ⟨inner, hdone⟩ := Visits.done_prefix (hinner.visits dependencies_subset)
    have hsame : walk.done ++ (inner ++ [root]) = walk.done ++ new := by
      rw [← hnew, ← List.append_assoc]
      exact congrArg (· ++ [root]) hdone
    rw [← List.append_cancel_left hsame, List.getLast?_concat]

/-- What is visited once a search for one declaration has ended. -/
lemma seen_root_iff (hnodup : (keys types).Nodup) (h : Search types walk [root] walk')
    (hroot : root ∈ types) (hsettled : walk.Settled types earlier) {decl : TypeDecl α}
    (hdecl : decl ∈ types) :
    Label.key? decl.name ∈ walk'.seen ↔
      Label.key? decl.name ∈ walk.seen ∨ ReflTransGen (Mentions types) root decl := by
  rw [h.seen_iff hnodup (singleton_subset hroot) hdecl]
  simp only [List.mem_singleton, exists_eq_left, hsettled.reachesNew_iff hroot, or_and_left,
    Classical.em, and_true]

lemma settled (hnodup : (keys types).Nodup) (h : Search types walk [root] walk')
    (hroot : root ∈ types) (hsettled : walk.Settled types earlier) :
    walk'.Settled types (earlier ++ [root]) where
  valid := (h.visits (singleton_subset hroot)).valid hsettled.valid
  seen_iff decl hdecl := by
    rw [h.seen_root_iff hnodup hroot hsettled hdecl, hsettled.seen_iff decl hdecl]
    simp only [List.mem_append, List.mem_singleton, or_and_right, exists_or, exists_eq_left]

/-- A declaration at the top adds its block. -/
lemma isBlock (hnodup : (keys types).Nodup) (h : Search types walk [root] walk')
    (hroot : root ∈ types) (hsettled : walk.Settled types earlier) {block : List (TypeDecl α)}
    (hblock : walk'.done = walk.done ++ block) : IsBlock types earlier root block := by
  have hvisits := h.visits (singleton_subset hroot)
  have hvalid := hvisits.valid hsettled.valid
  have hmem {decl : TypeDecl α} (hdecl : decl ∈ types) : decl ∈ block ↔
      ReflTransGen (Mentions types) root decl ∧ Label.key? decl.name ∉ walk.seen := by
    rw [hvisits.mem_new_iff hnodup hsettled.valid hblock hdecl,
      h.seen_root_iff hnodup hroot hsettled hdecl, or_and_right, and_not_self_iff, false_or]
  have hearlier {decl : TypeDecl α} (hdecl : decl ∈ types) : Label.key? decl.name ∉ walk.seen ↔
      ∀ other ∈ earlier, ¬ReflTransGen (Mentions types) other decl := by
    rw [hsettled.seen_iff decl hdecl]
    simp only [not_exists, not_and]
  refine ⟨?_, fun decl => ⟨fun hdecl => ?_, ?_⟩, h.getLast?_new hblock⟩
  · have hdone := hvalid.nodup.of_map
    rw [hblock] at hdone
    exact hdone.of_append_right
  · have hdeclared : decl ∈ types := hvalid.subset (hblock ▸ List.mem_append_right _ hdecl)
    exact ((hmem hdeclared).1 hdecl).imp_right (hearlier hdeclared).1
  · rintro ⟨hreach, hnone⟩
    have hdeclared := mem_of_reaches hroot hreach
    exact (hmem hdeclared).2 ⟨hreach, (hearlier hdeclared).2 hnone⟩

/-- A search for several declarations begins with a search for the first one. -/
lemma uncons {rest : List (TypeDecl α)} (h : Search types walk (root :: rest) walk') :
    ∃ middle, Search types walk [root] middle ∧ Search types middle rest walk' := by
  cases h with
  | pass hseen hrest => exact ⟨walk, .pass hseen .nil, hrest⟩
  | visit hnew hinner hrest => exact ⟨_, .visit hnew hinner .nil, hrest⟩

/-- **The declarations at the top of a search add a block each**, one after the other. -/
theorem exists_blocks (hnodup : (keys types).Nodup) {roots : List (TypeDecl α)}
    (h : Search types walk roots walk') (hroots : roots ⊆ types)
    (hsettled : walk.Settled types earlier) :
    ∃ blocks : List (List (TypeDecl α)), blocks.length = roots.length ∧
      walk'.done = walk.done ++ blocks.flatten ∧
      ∀ i root block, roots[i]? = some root → blocks[i]? = some block →
        IsBlock types (earlier ++ roots.take i) root block := by
  induction roots generalizing walk earlier with
  | nil =>
    cases h
    exact ⟨[], rfl, (List.append_nil _).symm, fun i root block hroot => by simp at hroot⟩
  | cons root rest ih =>
    obtain ⟨hroot, hrest⟩ := List.cons_subset.1 hroots
    obtain ⟨middle, hfirst, hsearch⟩ := h.uncons
    obtain ⟨block, hblock⟩ :=
      Visits.done_prefix (hfirst.visits (singleton_subset hroot))
    have hisBlock := hfirst.isBlock hnodup hroot hsettled hblock.symm
    obtain ⟨blocks, hlength, hdone, hblocks⟩ :=
      ih hsearch hrest (hfirst.settled hnodup hroot hsettled)
    refine ⟨block :: blocks, congrArg Nat.succ hlength, ?_, fun i other otherBlock => ?_⟩
    · rw [hdone, ← hblock, List.flatten_cons, List.append_assoc]
    · cases i with
      | zero =>
        intro hother hotherBlock
        obtain rfl := Option.some.inj hother
        obtain rfl := Option.some.inj hotherBlock
        rwa [List.take_zero, List.append_nil]
      | succ i =>
        intro hother hotherBlock
        rw [List.take_succ_cons, List.append_cons]
        exact hblocks i other otherBlock hother hotherBlock

/-- When a visit to a declaration ends, what it reaches through new names stands before it. -/
lemma sublist_of_visit (hnodup : (keys types).Nodup) (hroot : root ∈ types) {middle : Walk α}
    (hnew : Label.key? root.name ∉ walk.seen)
    (hinner : Search types ⟨Label.key? root.name :: walk.seen, walk.done⟩
      (dependencies types root) middle)
    (hvalid : walk.Valid types) {target : TypeDecl α}
    (hreach : ReachesNew types walk.seen root target) (hne : target ≠ root) :
    [target, root].Sublist (middle.done ++ [root]) := by
  have hsearch : Search types walk [root] ⟨middle.seen, middle.done ++ [root]⟩ :=
    .visit hnew hinner .nil
  have hroots : [root] ⊆ types := singleton_subset hroot
  have htarget := mem_of_reaches hroot hreach.reaches
  have hseen := hsearch.seen_of_reachesNew hnodup hroots (List.mem_singleton_self _) hreach
  have hmem : target ∈ middle.done ++ [root] :=
    (hsearch.visits hroots).mem_done hnodup hvalid htarget hseen hreach.not_mem
  have hdone := (List.mem_append.1 hmem).resolve_right fun h => hne (List.mem_singleton.1 h)
  exact (List.singleton_sublist.2 hdone).append (List.Sublist.refl _)

/-- **What a declaration reaches when it is reached itself is done before it.** -/
theorem sublist_of_reachesNew (hnodup : (keys types).Nodup) {decls : List (TypeDecl α)}
    (h : Search types walk decls walk') (hdecls : decls ⊆ types) (hvalid : walk.Valid types)
    {user target : TypeDecl α} (huser : user ∈ types) {before : List (Option Label.Key)}
    (hmoment : Label.key? user.name :: before <:+ walk'.seen) (hstart : walk.seen <:+ before)
    (hreach : ReachesNew types before user target) (hne : target ≠ user) :
    [target, user].Sublist walk'.done := by
  induction h with
  | nil =>
    have hlong := hmoment.length_le
    have hshort := hstart.length_le
    rw [List.length_cons] at hlong
    omega
  | pass _ _ ih => exact ih (List.cons_subset.1 hdecls).2 hvalid hmoment hstart
  | @visit walk middle walk' decl rest hnew hinner hrest ihInner ihRest =>
    obtain ⟨hdecl, hrestSubset⟩ := List.cons_subset.1 hdecls
    -- The declaration is reached after this visit, within it, or it is the one that is visited.
    rcases suffix_or_cons_suffix hmoment hrest.seen_suffix with hafter | hwithin
    · have hvisits := Visits.finish hdecl hnew (hinner.visits dependencies_subset)
      exact ihRest hrestSubset (hvisits.valid hvalid) hmoment hafter
    · have hdone : middle.done ++ [decl] <+: walk'.done :=
        Visits.done_prefix (hrest.visits hrestSubset)
      refine List.Sublist.trans ?_ hdone.sublist
      rcases suffix_or_cons_suffix hwithin hinner.seen_suffix with hinside | hself
      · have hsublist := ihInner dependencies_subset hvalid.enter hwithin hinside
        exact hsublist.trans (List.sublist_append_left _ _)
      · obtain ⟨hkey, rfl⟩ :=
          List.cons.inj (hself.eq_of_length_le (Nat.succ_le_succ hstart.length_le))
        obtain rfl := eq_of_key_eq hnodup huser hdecl hkey
        exact sublist_of_visit hnodup huser hnew hinner hvalid hreach hne

end Search

/-! ### The order, by blocks -/

/-- The names in the order in which the walk reaches them. -/
def reached (types : List (TypeDecl α)) : List (Option Label.Key) :=
  (visitAll types (types.length + 1) ⟨[], []⟩ types).seen.reverse

lemma Walk.settled_start : Walk.Settled types ⟨[], []⟩ [] :=
  ⟨valid_start, fun decl _ => by simp⟩

/-- A cycle can be gone through from each of its members. -/
lemma exists_cons_of_mem_cycle {β : Type} {cycle : Cycle β} {first : β} (h : first ∈ cycle) :
    ∃ rest : List β, cycle = ↑(first :: rest) := by
  induction cycle using Quotient.inductionOn' with
  | h members =>
    obtain ⟨front, back, rfl⟩ := List.append_of_mem (Cycle.mem_coe_iff.1 h)
    exact ⟨back ++ front, Cycle.coe_eq_coe.2 List.isRotated_append⟩

/-- What a list has before a member is not behind it, if the list repeats nothing. -/
lemma not_mem_of_sublist {β : Type} {front back : List β} {first other : β}
    (hnodup : (front ++ first :: back).Nodup)
    (h : [other, first].Sublist (front ++ first :: back)) : other ∉ back := by
  obtain ⟨hfront, hback, hdisjoint⟩ := List.nodup_append.1 hnodup
  obtain ⟨left, right, hsplit, hleft, hright⟩ := List.sublist_append_iff.1 h
  cases left with
  | nil =>
    obtain rfl : right = [other, first] := hsplit.symm
    exact absurd (List.singleton_sublist.1 hright.tail) (List.nodup_cons.1 hback).1
  | cons _ left =>
    obtain ⟨rfl, -⟩ := List.cons.inj hsplit
    have hother := hleft.subset List.mem_cons_self
    exact fun hmem => hdisjoint _ hother _ (List.mem_cons_of_mem _ hmem) rfl

lemma subset_of_isChain {user : TypeDecl α} {rest : List (TypeDecl α)}
    (h : List.IsChain (Mentions types) (user :: rest)) : rest ⊆ types := by
  induction rest generalizing user with
  | nil => exact List.nil_subset _
  | cons next rest ih =>
    obtain ⟨hmentions, hrest⟩ := List.isChain_cons_cons.1 h
    exact List.cons_subset.2 ⟨hmentions.1, ih hrest⟩

/-- **The member of a cycle that is reached first is done last.** -/
theorem sublist_of_cycle (hnodup : (keys types).Nodup) {cycle : Cycle (TypeDecl α)}
    (hcycle : cycle.Chain (Mentions types)) {first other : TypeDecl α} (hfirst : first ∈ cycle)
    (hreached : ∀ decl ∈ cycle, decl ≠ first →
      [Label.key? first.name, Label.key? decl.name].Sublist (reached types))
    (hother : other ∈ cycle) (hne : other ≠ first) :
    [other, first].Sublist (dependencyOrder types) := by
  obtain ⟨rest, rfl⟩ := exists_cons_of_mem_cycle hfirst
  rw [Cycle.chain_coe_cons] at hcycle
  have hdeclared : first ∈ types :=
    subset_of_isChain hcycle (List.mem_append_right _ (List.mem_singleton_self _))
  have hsearch := (search_iff types _).2 rfl
  have hseen := (hsearch.visits (List.Subset.refl _)).visited first hdeclared
  obtain ⟨later, before, hsplit⟩ := List.append_of_mem hseen
  have hseenNodup := hsearch.nodup_seen List.nodup_nil
  -- No member is reached before the first one, so the cycle is a path through new names.
  have hnew : ∀ decl ∈ first :: rest, Label.key? decl.name ∉ before := by
    intro decl hdecl
    rw [hsplit] at hseenNodup
    by_cases hsame : decl = first
    · rw [hsame]
      exact (List.nodup_cons.1 hseenNodup.of_append_right).1
    · have hsublist := hreached decl (Cycle.mem_coe_iff.2 hdecl) hsame
      rw [reached, hsplit] at hsublist
      exact not_mem_of_sublist hseenNodup (List.reverse_sublist.1 (by simpa using hsublist))
  have hreach : ReachesNew types before first other := by
    refine .of_isChain ?_ hnew (Cycle.mem_coe_iff.1 hother)
    rw [← List.cons_append] at hcycle
    exact hcycle.left_of_append
  exact hsearch.sublist_of_reachesNew hnodup (List.Subset.refl _) Walk.valid_start hdeclared
    ⟨later, hsplit.symm⟩ (List.nil_suffix) hreach hne

/-- **The order by blocks**, of which each declaration adds one. -/
theorem dependencyOrder_eq_flatten (hnodup : (keys types).Nodup) :
    ∃ blocks : List (List (TypeDecl α)), blocks.length = types.length ∧
      dependencyOrder types = blocks.flatten ∧
      ∀ i root block, types[i]? = some root → blocks[i]? = some block →
        IsBlock types (types.take i) root block := by
  have hsearch := (search_iff types _).2 rfl
  obtain ⟨blocks, hlength, hdone, hblocks⟩ :=
    hsearch.exists_blocks hnodup (List.Subset.refl _) Walk.settled_start
  exact ⟨blocks, hlength, hdone.trans (List.nil_append _), hblocks⟩

/-- Without mentions between different declarations a block has its declaration only. -/
lemma IsBlock.eq_singleton {earlier block : List (TypeDecl α)} {root : TypeDecl α}
    (h : IsBlock types earlier root block) (hroot : root ∈ types) (hearlier : earlier ⊆ types)
    (hnew : root ∉ earlier)
    (hself : ∀ user ∈ types, ∀ target, Mentions types user target → target = user) :
    block = [root] := by
  have hreach {user target : TypeDecl α} (huser : user ∈ types)
      (hpath : ReflTransGen (Mentions types) user target) : target = user := by
    induction hpath with
    | refl => rfl
    | tail _ hmentions ih => exact (hself _ (ih ▸ huser) _ hmentions).trans ih
  refine List.perm_singleton.1 ((List.perm_ext_iff_of_nodup h.nodup (List.nodup_singleton _)).2 ?_)
  intro decl
  rw [h.mem_iff, List.mem_singleton]
  constructor
  · exact fun hmem => hreach hroot hmem.1
  · rintro rfl
    exact ⟨.refl, fun other hother hpath => hnew (hreach (hearlier hother) hpath ▸ hother)⟩

/-- Declarations without mentions between different ones keep their order. -/
lemma dependencyOrder_eq_self (hnodup : (keys types).Nodup)
    (hself : ∀ user ∈ types, ∀ target, Mentions types user target → target = user) :
    dependencyOrder types = types := by
  obtain ⟨blocks, hlength, horder, hblocks⟩ := dependencyOrder_eq_flatten hnodup
  have hsingle : blocks = types.map fun decl => [decl] := by
    refine List.ext_getElem (by rw [hlength, List.length_map]) fun i hi hi' => ?_
    have hroot : i < types.length := hlength ▸ hi
    have hblock := hblocks i types[i] blocks[i] (List.getElem?_eq_getElem hroot)
      (List.getElem?_eq_getElem hi)
    rw [List.getElem_map]
    have hnew : types[i] ∉ types.take i := by
      intro hmem
      obtain ⟨j, hj, hsame⟩ := List.mem_take_iff_getElem.1 hmem
      have hindex := hnodup.of_map.getElem_inj_iff.1 hsame
      omega
    exact hblock.eq_singleton (List.getElem_mem hroot) (List.take_subset _ _) hnew hself
  rw [horder, hsingle, ← List.flatMap_def, List.flatMap_singleton']

/-- **The order disturbs the order of declaration as little as it can.**  Let the declared types
have names of their own.  The order is put together from blocks, one for each declared type: what
this type reaches by mentions and no type declared earlier does, with this type at the end, if there
is anything.  Of the types on a cycle of mentions the one that is reached first stands behind all
others; and if no type mentions another one, nothing is moved. -/
theorem dependencyOrder_blocks {types : List TypeDecl} (hnames : (types.map (·.name)).Nodup) :
    (∃ blocks : List (List TypeDecl), blocks.length = types.length ∧
      dependencyOrder types = blocks.flatten ∧
      ∀ i root block, types[i]? = some root → blocks[i]? = some block →
        IsBlock types (types.take i) root block) ∧
    (∀ cycle : Cycle TypeDecl, cycle.Chain (Mentions types) → ∀ first ∈ cycle,
      (∀ other ∈ cycle, other ≠ first →
        [Label.key? first.name, Label.key? other.name].Sublist (reached types)) →
      ∀ other ∈ cycle, other ≠ first → [other, first].Sublist (dependencyOrder types)) ∧
    ((∀ user ∈ types, ∀ target, Mentions types user target → target = user) →
      dependencyOrder types = types) := by
  have hnodup := nodup_keys hnames
  refine ⟨dependencyOrder_eq_flatten hnodup, ?_, dependencyOrder_eq_self hnodup⟩
  intro cycle hcycle first hfirst hreached other hother hne
  exact sublist_of_cycle hnodup hcycle hfirst hreached hother hne

def nodeType : TypeDecl :=
  ⟨"Node", .struct [⟨"next", .vec (.custom "Edge"), none⟩, ⟨"key", .custom "Key", none⟩], none⟩

def edgeType : TypeDecl :=
  ⟨"Edge", .union [⟨"To", some (.tuple [.custom "Node", .option (.custom "Edge")]), none⟩,
    ⟨"End", none, none⟩], none⟩

/-- Declarations with a cycle that is entered from another declaration, and not where it is declared
first. -/
def knottedTypes : List TypeDecl :=
  [⟨"Graph", .struct [⟨"top", .option (.custom "Node"), none⟩, ⟨"key", .custom "Key", none⟩], none⟩,
    edgeType, nodeType, ⟨"Key", .struct [⟨"id", .primitive .u32, none⟩], none⟩]

/-- Declarations of which none mentions another one. -/
def loneTypes : List TypeDecl :=
  [⟨"Tree", .struct [⟨"children", .vec (.custom "Tree"), none⟩], none⟩,
    ⟨"Leaf", .struct [⟨"size", .primitive .u32, none⟩], none⟩]

theorem dependencyOrder_blocks_knotted :
    (knottedTypes.map (·.name)).Nodup ∧
      (∃ blocks : List (List TypeDecl), blocks.length = 4 ∧
        dependencyOrder knottedTypes = blocks.flatten ∧
        ∀ i root block, knottedTypes[i]? = some root → blocks[i]? = some block →
          IsBlock knottedTypes (knottedTypes.take i) root block) ∧
      Cycle.Chain (Mentions knottedTypes) ↑[edgeType, nodeType] ∧
      [edgeType, nodeType].Sublist (dependencyOrder knottedTypes) ∧
      dependencyOrder loneTypes = loneTypes := by
  have hnames : (knottedTypes.map (·.name)).Nodup := by decide
  have hcycle : Cycle.Chain (Mentions knottedTypes) ↑[edgeType, nodeType] := by
    have hedge : Mentions knottedTypes edgeType nodeType :=
      ⟨by simp [knottedTypes], "Node", by decide, by decide⟩
    have hnode : Mentions knottedTypes nodeType edgeType :=
      ⟨by simp [knottedTypes], "Edge", by decide, by decide⟩
    simpa using ⟨hedge, hnode⟩
  have hfirst : ∀ other ∈ (↑[edgeType, nodeType] : Cycle TypeDecl), other ≠ nodeType →
      [Label.key? nodeType.name, Label.key? other.name].Sublist (reached knottedTypes) := by
    intro other hother hne
    obtain rfl : other = edgeType := by simpa [hne] using hother
    decide +kernel
  have hlone : ∀ user ∈ loneTypes, ∀ target, Mentions loneTypes user target → target = user := by
    have hnamed : ∀ user ∈ loneTypes, ∀ target ∈ loneTypes,
        (∃ name ∈ user.types.flatMap (·.customNames), Label.isNamed target.name name) →
          target.name = user.name := by
      decide +kernel
    intro user huser target h
    exact List.inj_on_of_nodup_map (by decide) h.1 huser (hnamed user huser target h.1 h.2)
  obtain ⟨hblocks, hcycles, -⟩ := dependencyOrder_blocks hnames
  obtain ⟨-, -, hunmoved⟩ := @dependencyOrder_blocks loneTypes (by decide)
  refine ⟨hnames, hblocks, hcycle, ?_, hunmoved hlone⟩
  exact hcycles _ hcycle nodeType (by simp) hfirst edgeType (by simp) (by simp [edgeType, nodeType])

end ContractInterface.Schema
