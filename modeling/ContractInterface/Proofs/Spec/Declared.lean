/-
# Names that entries mention and declare

Structures, unions, enumerations and error enumerations declare their names.  An interface keeps
the name of an error enumeration in its cases only, so the name of one without cases is lost, and an
empty one counts as none.  Functions of the host and events mention nothing.  The main results are

* `mem_mentions_shownSpec_iff`: the names that an interface mentions are those in its entries;
* `mem_declaredNames_shownSpec_iff`: the names that it declares, without those that are lost;
* `extract_refuses_iff`: the check of references fails just if some name is mentioned that is lost
  wherever it is declared;
* `extract_refuses_declared`: it may fail although every name that is mentioned is declared.
-/
import ContractInterface.Proofs.Spec.Inverse
import ContractInterface.Proofs.Spec.Validation

namespace ContractInterface.Spec

/-! ### What entries mention -/

namespace TypeDef

mutual

/-- The names in a type of a module, from left to right. -/
def mentioned : TypeDef String → List String
  | .simple _ | .bytesN _ => []
  | .option inner | .vec inner => mentioned inner
  | .result ok err => mentioned ok ++ mentioned err
  | .map key value => mentioned key ++ mentioned value
  | .tuple members => mentionedBy members
  | .udt name => [name]

/-- The names in a list of types of a module. -/
def mentionedBy : List (TypeDef String) → List String
  | [] => []
  | member :: members => mentioned member ++ mentionedBy members

end

mutual

lemma mentioned_shown : ∀ type : TypeDef String, type.shown.mentioned = type.mentioned
  | .simple _ | .bytesN _ | .udt _ => rfl
  | .option inner | .vec inner => mentioned_shown inner
  | .result ok err => congrArg₂ _ (mentioned_shown ok) (mentioned_shown err)
  | .map key value => congrArg₂ _ (mentioned_shown key) (mentioned_shown value)
  | .tuple members => mentionedBy_shownAll members

lemma mentionedBy_shownAll :
    ∀ members : List (TypeDef String), TypeRef.mentionedBy (shownAll members) = mentionedBy members
  | [] => rfl
  | member :: members => congrArg₂ _ (mentioned_shown member) (mentionedBy_shownAll members)

end

end TypeDef

/-- The names in what a case of a union carries. -/
def CaseEntry.mentioned : CaseEntry String → List String
  | .void _ _ => []
  | .tuple _ _ types => TypeDef.mentionedBy types

namespace Entry

/-- The names that an entry mentions: in the parameters and the result of a function that is not one
of the host, in the fields of a structure and in the cases of a union. -/
def mentioned : Entry String → List String
  | .function _ name inputs output =>
    if ['_', '_'] <+: name.toList then []
    else inputs.flatMap (·.type.mentioned) ++ output.toList.flatMap (·.mentioned)
  | .struct _ fields => fields.flatMap (·.type.mentioned)
  | .union _ cases => cases.flatMap (·.mentioned)
  | .enum _ _ | .errorEnum _ _ | .event .. => []

/-- The name that an entry declares, if it is a structure, a union, an enumeration or an error
enumeration. -/
def declared? : Entry String → Option String
  | .struct header _ | .union header _ | .enum header _ | .errorEnum header _ => some header.name
  | .function .. | .event .. => none

/-- An error enumeration whose name an interface does not keep, since it has no case to keep it in,
or does not count, since it is empty. -/
def IsLost : Entry String → Prop
  | .errorEnum header cases => cases = [] ∨ header.name = ""
  | _ => False

instance : DecidablePred IsLost
  | .errorEnum header cases => inferInstanceAs (Decidable (cases = [] ∨ header.name = ""))
  | .function .. | .struct .. | .union .. | .enum .. | .event .. =>
    inferInstanceAs (Decidable False)

end Entry

variable {entries : List (Entry String)} {contract : Option String} {name : String}

/-! ### What an interface shows of it -/

/-- A description of places leaves the names as they are. -/
lemma map_snd_map_mk (place : Place) (names : List String) :
    (names.map fun name => (place, name)).map Prod.snd = names := by
  rw [List.map_map]
  exact List.map_id names

lemma names_functionMentions (function : FunctionDecl) :
    (functionMentions function).map Prod.snd =
      function.inputs.flatMap (·.type.mentioned) ++
        function.output.toList.flatMap (·.mentioned) := by
  simp only [functionMentions, List.map_append, List.map_flatMap, map_snd_map_mk]

lemma names_typeMentions (decl : TypeDecl) :
    (typeMentions decl).map Prod.snd = decl.types.flatMap (·.mentioned) := by
  rw [typeMentions, TypeDecl.types]
  cases decl.definition with
  | struct fields => simp only [List.map_flatMap, map_snd_map_mk, List.flatMap_map]
  | enum variants => rfl
  | union cases =>
    simp only [List.map_flatMap, map_snd_map_mk, List.filterMap_eq_flatMap_toList,
      List.flatMap_assoc]

namespace Entry

/-- An entry mentions what the function or the type mentions that is shown of it. -/
lemma names_shown (entry : Entry String) :
    (entry.function?.toList.flatMap functionMentions ++
      entry.typeDecl?.toList.flatMap typeMentions).map Prod.snd = entry.mentioned := by
  simp only [List.map_append, List.map_flatMap, names_functionMentions, names_typeMentions]
  cases entry with
  | function doc name inputs output =>
    have hinputs : (inputs.map (·.shown)).flatMap (·.type.mentioned) =
        inputs.flatMap (·.type.mentioned) := by
      rw [List.flatMap_map]
      exact List.flatMap_congr fun input _ => input.type.mentioned_shown
    rw [function?, mentioned]
    split_ifs
    · rfl
    · cases output with
      | none => simp [typeDecl?, hinputs]
      | some output => simp [typeDecl?, hinputs, output.mentioned_shown]
  | struct header fields =>
    have hfields : ((fields.map (·.shown)).map (·.type)).flatMap (·.mentioned) =
        fields.flatMap (·.type.mentioned) := by
      rw [List.map_map, List.flatMap_map]
      exact List.flatMap_congr fun field _ => field.type.mentioned_shown
    simpa [function?, typeDecl?, Header.shown, TypeDecl.types, mentioned] using hfields
  | union header cases =>
    have hcases : ((cases.map (·.shown)).filterMap (·.payload)).flatMap (·.mentioned) =
        cases.flatMap (·.mentioned) := by
      rw [List.filterMap_map, List.filterMap_eq_flatMap_toList, List.flatMap_assoc]
      refine List.flatMap_congr fun case _ => ?_
      cases case with
      | void => rfl
      | tuple doc name types =>
        exact (List.flatMap_singleton ..).trans (TypeDef.mentionedBy_shownAll types)
    simpa [function?, typeDecl?, Header.shown, TypeDecl.types, mentioned] using hcases
  | enum | errorEnum | event => rfl

end Entry

/-- **An interface mentions the names in its entries.** -/
theorem mem_mentions_shownSpec_iff :
    name ∈ (shownSpec contract entries).mentions.map Prod.snd ↔
      ∃ entry ∈ entries, name ∈ entry.mentioned := by
  have hsplit : (shownSpec contract entries).mentions =
      entries.flatMap (fun entry => entry.function?.toList.flatMap functionMentions) ++
        entries.flatMap fun entry => entry.typeDecl?.toList.flatMap typeMentions := by
    simp only [shownSpec, mentions, List.filterMap_eq_flatMap_toList, List.flatMap_assoc]
  simp only [hsplit, ← Entry.names_shown, List.map_append, List.map_flatMap, List.mem_append,
    List.mem_flatMap (l := entries), ← exists_or, ← and_or_left]

/-- The name of an entry is kept with the type that is shown of it, or with the cases of errors. -/
lemma Entry.kept_iff (entry : Entry String) :
    name ∈ entry.typeDecl?.toList.map (·.name) ∨
        name ∈ entry.errorCases.filterMap (·.enumName) ∧ name ≠ "" ↔
      entry.declared? = some name ∧ ¬entry.IsLost := by
  cases entry with
  | struct header | union header | enum header =>
    simp [typeDecl?, errorCases, declared?, IsLost, Header.shown, eq_comm]
  | errorEnum header cases =>
    have hnames : (cases.map (·.shownError header.name)).filterMap (·.enumName) =
        cases.map fun _ => header.name := by
      rw [List.filterMap_map, ← List.filterMap_eq_map]
      rfl
    rw [errorCases, hnames]
    constructor
    · rintro (htype | ⟨herror, hgiven⟩)
      · cases htype
      · obtain ⟨case, hcase, rfl⟩ := List.mem_map.1 herror
        exact ⟨rfl, not_or.2 ⟨List.ne_nil_of_mem hcase, hgiven⟩⟩
    · rintro ⟨hname, hkept⟩
      obtain ⟨hcases, hgiven⟩ := not_or.1 hkept
      obtain rfl : header.name = name := Option.some.inj hname
      obtain ⟨case, rest, rfl⟩ := List.exists_cons_of_ne_nil hcases
      exact .inr ⟨List.mem_cons_self, hgiven⟩
  | function | event => simp [typeDecl?, errorCases, declared?]

/-- **An interface declares the names of its entries**, except those that are lost. -/
theorem mem_declaredNames_shownSpec_iff :
    name ∈ (shownSpec contract entries).declaredNames ↔
      ∃ entry ∈ entries, entry.declared? = some name ∧ ¬entry.IsLost := by
  have htypes : (shownSpec contract entries).types.map (·.name) =
      entries.flatMap fun entry => entry.typeDecl?.toList.map (·.name) := by
    simp only [shownSpec, List.filterMap_eq_flatMap_toList, List.map_flatMap]
  have herrors : (shownSpec contract entries).errorNames =
      entries.flatMap fun entry => entry.errorCases.filterMap (·.enumName) := by
    simp only [errorNames, shownSpec, List.filterMap_flatMap]
  rw [mem_declaredNames_iff, htypes, herrors, List.mem_flatMap, List.mem_flatMap]
  simp only [← Entry.kept_iff, and_or_left, exists_or, ← and_assoc, exists_and_right]

/-! ### Modules of entries -/

/-- A module of sections, of which those with the interface hold groups of entries; it has no
metadata, and all its custom sections can be read. -/
structure HoldsEntries (groups : List (List (Entry String))) (found : List Wasm.Section)
    (wasm : Bytes) : Prop where
  module : Wasm.Written found wasm
  readable : ∀ s ∈ found, ∃ shown, s.Shows shown
  interface : List.Forall₂
    (fun entries s => Wasm.CustomSection.Written
      ⟨specSection, encodeEntries (entries.map (·.utf8))⟩ s.payload)
    groups (found.filter (·.isNamed specSection))
  noMetadata : found.filter (·.isNamed metaSection) = []
  nonempty : groups ≠ []
  fits : ∀ entry ∈ groups.flatten, entry.utf8.Fits

variable {groups : List (List (Entry String))} {found : List Wasm.Section} {wasm : Bytes}

/-- Without the check, the interface of such a module shows the entries. -/
lemma HoldsEntries.extract_eq (h : HoldsEntries groups found wasm) :
    extract false wasm = .ok (shownSpec none groups.flatten) := by
  have hfound (name : String) := Wasm.contentsOf_of_written h.module h.readable name
  have hspec : Wasm.contentsOf wasm specSection =
      .ok ((groups.map (List.map (·.utf8))).map encodeEntries) := by
    rw [hfound, List.map_map]
    exact congrArg _ (Wasm.contentsIn_of_written (List.forall₂_map_left_iff.2 h.interface))
  have hname : contractName wasm = .ok none := by
    refine contractName_eq_ok.2 ⟨[], ?_, rfl⟩
    rw [hfound, Wasm.contentsIn, h.noMetadata]
    rfl
  refine extract_eq_ok.2 ⟨groups.map (List.map (·.utf8)), none, by simpa using h.nonempty, ?_,
    hspec, hname, ?_, fun hchecks => absurd hchecks Bool.false_ne_true⟩
  · rw [← List.map_flatten, List.forall_mem_map]
    exact h.fits
  · rw [← List.map_flatten, toSpec_gather_utf8]

/-- **The check of references fails just if some name is mentioned that is lost wherever it is
declared.**  Where no error enumeration is lost, it fails just if a name is mentioned that no
structure, union, enumeration or error enumeration declares. -/
theorem extract_refuses_iff (h : HoldsEntries groups found wasm) :
    ((∃ dangling, extract true wasm = .error (.dangling dangling)) ↔
      ∃ name, (∃ entry ∈ groups.flatten, name ∈ entry.mentioned) ∧
        ∀ entry ∈ groups.flatten, entry.declared? = some name → entry.IsLost) ∧
    ((∀ entry ∈ groups.flatten, ¬entry.IsLost) →
      ((∃ dangling, extract true wasm = .error (.dangling dangling)) ↔
        ∃ name, (∃ entry ∈ groups.flatten, name ∈ entry.mentioned) ∧
          ∀ entry ∈ groups.flatten, entry.declared? ≠ some name)) := by
  have hrefused : (∃ dangling, extract true wasm = .error (.dangling dangling)) ↔
      ∃ name ∈ (shownSpec none groups.flatten).mentions.map Prod.snd,
        name ∉ (shownSpec none groups.flatten).declaredNames := by
    rw [exists_extract_eq_dangling_iff, h.extract_eq]
    simp only [Except.ok.injEq, exists_eq_left', List.mem_map, exists_exists_and_eq_and]
  have hlost : (∃ dangling, extract true wasm = .error (.dangling dangling)) ↔
      ∃ name, (∃ entry ∈ groups.flatten, name ∈ entry.mentioned) ∧
        ∀ entry ∈ groups.flatten, entry.declared? = some name → entry.IsLost := by
    simp only [hrefused, mem_mentions_shownSpec_iff, mem_declaredNames_shownSpec_iff, not_exists,
      not_and, not_not]
  refine ⟨hlost, fun hkept => hlost.trans (exists_congr fun name => and_congr_right fun _ => ?_)⟩
  exact forall₂_congr fun entry hentry =>
    imp_congr_right fun _ => iff_false_intro (hkept entry hentry)

/-- The custom section with the interface of entries. -/
def interfaceOf (entries : List (Entry String)) : Wasm.CustomSection :=
  ⟨specSection, encodeEntries (entries.map (·.utf8))⟩

/-- A module that holds entries and nothing else. -/
lemma holdsEntries_encode (entries : List (Entry String))
    (hfits : ∀ entry ∈ entries, entry.utf8.Fits)
    (hshort : (interfaceOf entries).Fits) :
    HoldsEntries [entries] [(interfaceOf entries).toSection]
      (Wasm.encode [(interfaceOf entries).toSection]) where
  module := @Wasm.written_encode_customs [interfaceOf entries] (by simpa using hshort)
  readable := by simpa using ⟨_, Wasm.CustomSection.shows_toSection hshort⟩
  interface := by
    have hnamed : (interfaceOf entries).toSection.isNamed specSection = true := by
      rw [Wasm.CustomSection.isNamed_toSection hshort]
      rfl
    rw [List.filter_cons_of_pos hnamed]
    exact .cons (Wasm.CustomSection.written_encode hshort) .nil
  noMetadata := by
    have hnamed : (interfaceOf entries).toSection.isNamed metaSection = false := by
      rw [Wasm.CustomSection.isNamed_toSection hshort]
      rfl
    rw [List.filter_cons_of_neg (by rw [hnamed]; exact Bool.false_ne_true)]
    rfl
  nonempty := List.cons_ne_nil _ _
  fits := by simpa using hfits

/-- A structure that mentions a union is refused without it, and not refused with it. -/
theorem extract_refuses_iff_pay :
    (∃ dangling, extract true (Wasm.encode [(interfaceOf payEntries).toSection]) =
        .error (.dangling dangling)) ∧
      ¬∃ dangling, extract true (Wasm.encode [(interfaceOf (payEntries ++ keyEntries)).toSection]) =
        .error (.dangling dangling) := by
  have hpay := holdsEntries_encode payEntries (by decide +kernel) (by decide +kernel)
  have hboth := holdsEntries_encode (payEntries ++ keyEntries) (by decide +kernel)
    (by decide +kernel)
  have hkept : ∀ entry ∈ [payEntries ++ keyEntries].flatten, ¬entry.IsLost := by decide
  rw [(extract_refuses_iff hpay).1, (extract_refuses_iff hboth).2 hkept]
  constructor
  · exact ⟨"Key", by decide, by decide⟩
  · rintro ⟨name, ⟨entry, hentry, hname⟩, hnone⟩
    have hkey : ∀ entry ∈ [payEntries ++ keyEntries].flatten, ∀ name ∈ entry.mentioned,
        name = "Key" := by decide
    have hdeclared : ∃ entry ∈ [payEntries ++ keyEntries].flatten,
        entry.declared? = some "Key" := by decide
    obtain rfl := hkey entry hentry name hname
    obtain ⟨other, hother, hsome⟩ := hdeclared
    exact hnone other hother hsome

/-- A function that may fail, with an error enumeration that has no case. -/
def runEntries : List (Entry String) :=
  [.function "" "run" [] (some (.result (.simple .void) (.udt "Failure"))),
    .errorEnum ⟨"", "", "Failure"⟩ []]

/-- **A name may be refused although it is declared.**  The module declares the only name that it
mentions, as that of an error enumeration without cases, and the check of references reports it. -/
theorem extract_refuses_declared :
    HoldsEntries [runEntries] [(interfaceOf runEntries).toSection]
        (Wasm.encode [(interfaceOf runEntries).toSection]) ∧
      (∀ entry ∈ runEntries, ∀ name ∈ entry.mentioned,
        ∃ other ∈ runEntries, other.declared? = some name) ∧
      extract true (Wasm.encode [(interfaceOf runEntries).toSection]) =
        .error (.dangling ⟨"Failure", .output "run"⟩) := by
  have hholds := holdsEntries_encode runEntries (by decide +kernel) (by decide +kernel)
  refine ⟨hholds, by decide, ?_⟩
  rw [extract_true_eq, hholds.extract_eq]
  rfl

end ContractInterface.Spec
