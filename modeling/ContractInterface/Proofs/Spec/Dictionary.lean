/-
# Interfaces are read back from documents

The document form of an interface is a JSON value that is read back from its text, and the interface
is read back from its document form, part by part: every type, however deep, every declaration with
its description, what is missing and what is there.  A description that is there but empty is
written as none, so none of the descriptions may be of that kind; those of a module never are.  The
main results are

* `TypeRef.ofJson_toJson`: a type is read back from its document form;
* `readable_toJson`: the document form of an interface is read back from its text;
* `toText_read_back`: an interface is read back from its text, in particular one that comes from a
  module.
-/
import ContractInterface.Proofs.Json.Inverse
import ContractInterface.Proofs.Spec.RawEntries
import ContractInterface.Spec.Dictionary

namespace ContractInterface

/-! ### Members of objects -/

namespace Reading

variable {members : List (String × Json)} {name : String}

lemma ok_bind {β γ : Type} (value : β) (next : β → Reading γ) :
    ((Except.ok value : Reading β) >>= next) = next value :=
  rfl

/-- Values that are each read back are read back from their document forms. -/
lemma mapM_map_eq_ok {β : Type} {write : β → Json} {read : Json → Reading β} {values : List β}
    (h : ∀ value ∈ values, read (write value) = .ok value) :
    (values.map write).mapM read = .ok values := by
  induction values with
  | nil => rfl
  | cons value values ih =>
    obtain ⟨hvalue, hvalues⟩ := List.forall_mem_cons.1 h
    rw [List.map_cons, List.mapM_cons, hvalue, ih hvalues]
    rfl

lemma member_eq_ok {value : Json} (h : members.lookup name = some value) :
    member (.obj members) name = .ok value := by
  simp only [member, Json.member, h]
  rfl

lemma members_eq_ok : ofAccess (Json.obj members).members = .ok members :=
  rfl

lemma labelOf_eq_ok {label : String} (h : members.lookup name = some (Label.toJson label)) :
    labelOf (.obj members) name = .ok label := by
  rw [labelOf, member_eq_ok h]
  rfl

lemma integer_eq_ok {n : Int} (h : members.lookup name = some (.int n)) :
    integer (.obj members) name = .ok n := by
  rw [integer, member_eq_ok h]
  rfl

lemma parts_eq_ok {items : List Json} (h : members.lookup name = some (.arr items)) :
    parts (.obj members) name = .ok items := by
  rw [parts, member_eq_ok h]
  rfl

lemma partsIfGiven_eq_ok {items : List Json} (h : members.lookup name = some (.arr items)) :
    partsIfGiven (.obj members) name = .ok items := by
  simp only [partsIfGiven, Json.optionalMember, h]
  rfl

/-- What is missing is written as null, and what is not is no null. -/
lemma memberIfGiven_eq_ok {β : Type} {write : β → Json} {value : Option β}
    (hwrite : ∀ value, write value ≠ .null)
    (h : members.lookup name = some (value.elim .null write)) :
    memberIfGiven (.obj members) name = .ok (value.map write) := by
  simp only [memberIfGiven, Json.optionalMember, h]
  cases value with
  | none => rfl
  | some value =>
    have hvalue := hwrite value
    rw [Option.elim_some, Option.map_some]
    cases hwritten : write value with
    | null => exact absurd hwritten hvalue
    | _ => rfl

lemma labelIfGiven_eq_ok {label : Option String}
    (h : members.lookup name = some (labelToJson label)) :
    labelIfGiven (.obj members) name = .ok label := by
  rw [labelIfGiven, @memberIfGiven_eq_ok _ _ _ Label.toJson label nofun h]
  cases label <;> rfl

/-- A description that is not empty is written as it is. -/
lemma labelIfGiven_doc_eq_ok {doc : Option String} (hdoc : doc ≠ some "")
    (h : members.lookup name = some (docToJson doc)) :
    labelIfGiven (.obj members) name = .ok doc := by
  refine labelIfGiven_eq_ok (h.trans ?_)
  cases doc with
  | none => rfl
  | some text =>
    have hgiven : Label.isGiven text = true := by
      rw [Label.isGiven_string, bne_iff_ne]
      rintro rfl
      exact hdoc rfl
    rw [docToJson, Option.filter_some_pos hgiven]

end Reading

/-! ### Types -/

namespace TypeKind

/-- A kind is told from its name. -/
lemma ofJson_name (kind : TypeKind) : ofJson (.str kind.name) = .ok kind := by
  cases kind with
  | primitive p => cases p <;> rfl
  | _ => rfl

end TypeKind

namespace TypeRef

lemma ofName_primitive (p : Primitive) : ofName p.name = .ok (.primitive p) := by
  rw [ofName, show p.name = (TypeKind.primitive p).name from rfl, TypeKind.ofJson_name]
  rfl

mutual

/-- **A type is read back from its document form.** -/
theorem ofJson_toJson : ∀ type : TypeRef, ofJson type.toJson = .ok type
  | .primitive p => ofName_primitive p
  | .option inner => by
    change ofJson (.obj [(TypeKind.option.name, inner.toJson)]) = _
    rw [ofJson, TypeKind.ofJson_name]
    simp only [ofJson_toJson inner]
    rfl
  | .result ok err => by
    change ofJson (.obj [(TypeKind.result.name, .obj [("ok", ok.toJson), ("err", err.toJson)])]) = _
    rw [ofJson, TypeKind.ofJson_name]
    simp only [ofPair, ofMember, ofJson_toJson ok, ofJson_toJson err]
    rfl
  | .vec element => by
    change ofJson (.obj [(TypeKind.vec.name, element.toJson)]) = _
    rw [ofJson, TypeKind.ofJson_name]
    simp only [ofJson_toJson element]
    rfl
  | .map key value => by
    change ofJson (.obj [(TypeKind.map.name,
      .obj [("key", key.toJson), ("value", value.toJson)])]) = _
    rw [ofJson, TypeKind.ofJson_name]
    simp only [ofPair, ofMember, ofJson_toJson key, ofJson_toJson value]
    rfl
  | .tuple members => by
    change ofJson (.obj [(TypeKind.tuple.name, .arr (jsonOf members))]) = _
    rw [ofJson, TypeKind.ofJson_name]
    simp only [ofParts, ofItems_jsonOf members]
    rfl
  | .bytesN _ | .custom _ => rfl

lemma ofItems_jsonOf : ∀ members : List TypeRef, ofItems (jsonOf members) = .ok members
  | [] => rfl
  | member :: members => by
    rw [jsonOf, ofItems, ofJson_toJson member, ofItems_jsonOf members]
    rfl

end

mutual

lemma readable_toJson : ∀ type : TypeRef, type.toJson.Readable
  | .primitive _ | .bytesN _ | .custom _ => by simp [toJson, Json.Readable, Json.ReadableMembers]
  | .option inner | .vec inner => by
    simpa [toJson, Json.Readable, Json.ReadableMembers] using readable_toJson inner
  | .result ok err => by
    simpa [toJson, Json.Readable, Json.ReadableMembers] using
      ⟨readable_toJson ok, readable_toJson err⟩
  | .map key value => by
    simpa [toJson, Json.Readable, Json.ReadableMembers] using
      ⟨readable_toJson key, readable_toJson value⟩
  | .tuple members => by
    simpa [toJson, Json.Readable, Json.ReadableMembers] using readableItems_jsonOf members

lemma readableItems_jsonOf : ∀ members : List TypeRef, Json.ReadableItems (jsonOf members)
  | [] => trivial
  | member :: members => ⟨readable_toJson member, readableItems_jsonOf members⟩

end

lemma toJson_ne_null (type : TypeRef) : type.toJson ≠ .null := by
  cases type <;> rw [toJson] <;> exact nofun

end TypeRef

/-- A type that may be missing is read back from a member. -/
lemma memberIfGiven_type_eq_ok {members : List (String × Json)} {name : String}
    {type : Option TypeRef} (h : members.lookup name = some (typeToJson type)) :
    Reading.memberIfGiven (.obj members) name = .ok (type.map (·.toJson)) :=
  Reading.memberIfGiven_eq_ok TypeRef.toJson_ne_null h

lemma mapM_ofJson_toJson (type : Option TypeRef) :
    (type.map (·.toJson)).mapM TypeRef.ofJson = .ok type := by
  cases type with
  | none => rfl
  | some type =>
    rw [Option.map_some, Option.mapM_some, TypeRef.ofJson_toJson]
    rfl

/-! ### Declarations -/

/-- The descriptions of a function and of its parameters. -/
def FunctionDecl.docs (function : FunctionDecl) : List (Option String) :=
  function.doc :: function.inputs.map (·.doc)

/-- The descriptions in a definition. -/
def Definition.docs : Definition → List (Option String)
  | .struct fields => fields.map (·.doc)
  | .enum variants => variants.map (·.doc)
  | .union cases => cases.map (·.doc)

/-- The descriptions of a declared type and of its parts. -/
def TypeDecl.docs (decl : TypeDecl) : List (Option String) :=
  decl.doc :: decl.definition.docs

/-- All descriptions in an interface. -/
def Spec.docs (spec : Spec) : List (Option String) :=
  spec.functions.flatMap (·.docs) ++ spec.types.flatMap (·.docs) ++ spec.errors.map (·.doc)

/-- Parts with descriptions are read back if each of them is, as long as no description is
empty. -/
lemma mapM_described_eq_ok {β : Type} {write : β → Json} {read : Json → Reading β}
    {doc : β → Option String}
    (hread : ∀ value, doc value ≠ some "" → read (write value) = .ok value)
    {values : List β} (h : some "" ∉ values.map doc) :
    (values.map write).mapM read = .ok values :=
  Reading.mapM_map_eq_ok fun value hvalue =>
    hread value fun hdoc => h (hdoc ▸ List.mem_map_of_mem hvalue)

lemma FieldDecl.ofJson_toJson {field : FieldDecl} (h : field.doc ≠ some "") :
    ofJson field.toJson = .ok field := by
  have hname : Reading.labelOf field.toJson "name" = .ok field.name := Reading.labelOf_eq_ok rfl
  have htype : Reading.member field.toJson "type_ref" = .ok field.type.toJson :=
    Reading.member_eq_ok rfl
  have hdoc : Reading.labelIfGiven field.toJson "doc" = .ok field.doc :=
    Reading.labelIfGiven_doc_eq_ok h rfl
  simp only [ofJson, hname, htype, field.type.ofJson_toJson, hdoc, Reading.ok_bind]
  rfl

lemma Variant.ofJson_toJson {variant : Variant} (h : variant.doc ≠ some "") :
    ofJson variant.toJson = .ok variant := by
  have hname : Reading.labelOf variant.toJson "name" = .ok variant.name :=
    Reading.labelOf_eq_ok rfl
  have hvalue : Reading.integer variant.toJson "value" = .ok variant.value :=
    Reading.integer_eq_ok rfl
  have hdoc : Reading.labelIfGiven variant.toJson "doc" = .ok variant.doc :=
    Reading.labelIfGiven_doc_eq_ok h rfl
  simp only [ofJson, hname, hvalue, hdoc, Reading.ok_bind]
  rfl

lemma Case.ofJson_toJson {case : Case} (h : case.doc ≠ some "") :
    ofJson case.toJson = .ok case := by
  have hname : Reading.labelOf case.toJson "name" = .ok case.name := Reading.labelOf_eq_ok rfl
  have hpayload : Reading.memberIfGiven case.toJson "type_ref" =
      .ok (case.payload.map (·.toJson)) := memberIfGiven_type_eq_ok rfl
  have hdoc : Reading.labelIfGiven case.toJson "doc" = .ok case.doc :=
    Reading.labelIfGiven_doc_eq_ok h rfl
  simp only [ofJson, hname, hpayload, mapM_ofJson_toJson, hdoc, Reading.ok_bind]
  rfl

lemma ErrorCase.ofJson_toJson {case : ErrorCase} (h : case.doc ≠ some "") :
    ofJson case.toJson = .ok case := by
  have hname : Reading.labelOf case.toJson "name" = .ok case.name := Reading.labelOf_eq_ok rfl
  have hcode : Reading.integer case.toJson "code" = .ok case.code := Reading.integer_eq_ok rfl
  have hdoc : Reading.labelIfGiven case.toJson "doc" = .ok case.doc :=
    Reading.labelIfGiven_doc_eq_ok h rfl
  have henum : Reading.labelIfGiven case.toJson "enum" = .ok case.enumName :=
    Reading.labelIfGiven_eq_ok rfl
  simp only [ofJson, hname, hcode, hdoc, henum, Reading.ok_bind]
  rfl

lemma FunctionDecl.ofJson_toJson {function : FunctionDecl} (h : some "" ∉ function.docs) :
    ofJson function.toJson = .ok function := by
  obtain ⟨hdoc, hinputs⟩ := not_or.1 (List.mem_cons.not.1 h)
  have hname : Reading.labelOf function.toJson "name" = .ok function.name :=
    Reading.labelOf_eq_ok rfl
  have hparts : Reading.partsIfGiven function.toJson "inputs" =
      .ok (function.inputs.map (·.toJson)) := Reading.partsIfGiven_eq_ok rfl
  have hfields := mapM_described_eq_ok (fun _ => FieldDecl.ofJson_toJson) hinputs
  have houtput : Reading.memberIfGiven function.toJson "output" =
      .ok (function.output.map (·.toJson)) := memberIfGiven_type_eq_ok rfl
  have hdoc : Reading.labelIfGiven function.toJson "doc" = .ok function.doc :=
    Reading.labelIfGiven_doc_eq_ok (Ne.symm hdoc) rfl
  simp only [ofJson, houtput, hname, hparts, hfields, mapM_ofJson_toJson, hdoc, Reading.ok_bind]
  rfl

lemma Definition.ofJson_toJson {definition : Definition} (h : some "" ∉ definition.docs) :
    ofJson definition.toJson = .ok definition := by
  cases definition with
  | struct fields =>
    have hparts : Reading.parts (.obj [("fields", .arr (fields.map (·.toJson)))]) "fields" =
        .ok (fields.map (·.toJson)) := Reading.parts_eq_ok rfl
    have hfields := mapM_described_eq_ok (fun _ => FieldDecl.ofJson_toJson) h
    rw [ofJson, toJson, Reading.members_eq_ok]
    simp only [hparts, hfields, Reading.ok_bind]
    rfl
  | enum variants =>
    have hparts : Reading.parts (.obj [("variants", .arr (variants.map (·.toJson)))]) "variants" =
        .ok (variants.map (·.toJson)) := Reading.parts_eq_ok rfl
    have hvariants := mapM_described_eq_ok (fun _ => Variant.ofJson_toJson) h
    rw [ofJson, toJson, Reading.members_eq_ok]
    simp only [hparts, hvariants, Reading.ok_bind]
    rfl
  | union cases =>
    have hparts : Reading.parts (.obj [("cases", .arr (cases.map (·.toJson)))]) "cases" =
        .ok (cases.map (·.toJson)) := Reading.parts_eq_ok rfl
    have hcases := mapM_described_eq_ok (fun _ => Case.ofJson_toJson) h
    rw [ofJson, toJson, Reading.members_eq_ok]
    simp only [hparts, hcases, Reading.ok_bind]
    rfl

lemma TypeDecl.ofJson_toJson {decl : TypeDecl} (h : some "" ∉ decl.docs) :
    ofJson decl.toJson = .ok decl := by
  obtain ⟨hdoc, hdefinition⟩ := not_or.1 (List.mem_cons.not.1 h)
  have hmember : Reading.member decl.toJson "definition" = .ok decl.definition.toJson :=
    Reading.member_eq_ok rfl
  have hname : Reading.labelOf decl.toJson "name" = .ok decl.name := Reading.labelOf_eq_ok rfl
  have hdoc : Reading.labelIfGiven decl.toJson "doc" = .ok decl.doc :=
    Reading.labelIfGiven_doc_eq_ok (Ne.symm hdoc) rfl
  simp only [ofJson, hmember, Definition.ofJson_toJson hdefinition, hname, hdoc, Reading.ok_bind]
  rfl

/-- **An interface is read back from its document form**, if none of its descriptions is empty. -/
theorem Spec.ofJson_toJson {spec : Spec} (h : some "" ∉ spec.docs) :
    ofJson spec.toJson = .ok spec := by
  simp only [docs, List.mem_append, List.mem_flatMap, not_or, not_exists, not_and] at h
  obtain ⟨⟨hfunctions, htypes⟩, herrors⟩ := h
  have hname : Reading.labelIfGiven spec.toJson "name" = .ok spec.name :=
    Reading.labelIfGiven_eq_ok rfl
  have hfunctionParts : Reading.partsIfGiven spec.toJson "functions" =
      .ok (spec.functions.map (·.toJson)) := Reading.partsIfGiven_eq_ok rfl
  have hfunctions := Reading.mapM_map_eq_ok fun function hmem =>
    FunctionDecl.ofJson_toJson (hfunctions function hmem)
  have htypeParts : Reading.partsIfGiven spec.toJson "types" =
      .ok (spec.types.map (·.toJson)) := Reading.partsIfGiven_eq_ok rfl
  have htypes := Reading.mapM_map_eq_ok fun decl hmem => TypeDecl.ofJson_toJson (htypes decl hmem)
  have herrorParts : Reading.partsIfGiven spec.toJson "errors" =
      .ok (spec.errors.map (·.toJson)) := Reading.partsIfGiven_eq_ok rfl
  have herrors := mapM_described_eq_ok (fun _ => ErrorCase.ofJson_toJson) herrors
  have hrawParts : Reading.partsIfGiven spec.toJson "raw_spec_entries" =
      .ok (spec.rawEntries.map Label.toJson) := Reading.partsIfGiven_eq_ok rfl
  have hraw : (spec.rawEntries.map Label.toJson).mapM Reading.label = .ok spec.rawEntries :=
    Reading.mapM_map_eq_ok fun _ _ => rfl
  simp only [ofJson, hname, hfunctionParts, hfunctions, htypeParts, htypes, herrorParts, herrors,
    hrawParts, hraw, Reading.ok_bind]
  rfl

/-! ### Document forms as text -/

/-- An array of values that are each read back. -/
lemma readable_arr_map {β : Type} {write : β → Json} (h : ∀ value, (write value).Readable)
    (values : List β) : (Json.arr (values.map write)).Readable := by
  rw [Json.Readable, Json.readableItems_iff, List.forall_mem_map]
  exact fun value _ => h value

lemma readable_labelToJson (label : Option String) : (labelToJson label).Readable := by
  cases label <;> exact trivial

lemma readable_docToJson (doc : Option String) : (docToJson doc).Readable :=
  readable_labelToJson _

lemma readable_typeToJson (type : Option TypeRef) : (typeToJson type).Readable := by
  cases type with
  | none => exact trivial
  | some type => exact type.readable_toJson

lemma readable_label (label : String) : (Label.toJson label).Readable :=
  trivial

lemma FieldDecl.readable_toJson (field : FieldDecl) : field.toJson.Readable := by
  rw [toJson, Json.Readable]
  exact ⟨by simp, readable_label _, readable_docToJson _, field.type.readable_toJson, trivial⟩

lemma Variant.readable_toJson (variant : Variant) : variant.toJson.Readable := by
  rw [toJson, Json.Readable]
  exact ⟨by simp, readable_label _, readable_docToJson _, trivial, trivial⟩

lemma Case.readable_toJson (case : Case) : case.toJson.Readable := by
  rw [toJson, Json.Readable]
  exact ⟨by simp, readable_label _, readable_docToJson _, readable_typeToJson _, trivial⟩

lemma ErrorCase.readable_toJson (case : ErrorCase) : case.toJson.Readable := by
  rw [toJson, Json.Readable]
  exact ⟨by simp, readable_label _, readable_docToJson _, trivial, readable_labelToJson _, trivial⟩

lemma FunctionDecl.readable_toJson (function : FunctionDecl) : function.toJson.Readable := by
  rw [toJson, Json.Readable]
  exact ⟨by simp, readable_label _, readable_docToJson _,
    readable_arr_map FieldDecl.readable_toJson _, readable_typeToJson _, trivial⟩

lemma Definition.readable_toJson (definition : Definition) : definition.toJson.Readable := by
  cases definition with
  | struct fields =>
    have hfields := readable_arr_map FieldDecl.readable_toJson fields
    simpa [toJson, Json.Readable, Json.ReadableMembers] using hfields
  | enum variants =>
    have hvariants := readable_arr_map Variant.readable_toJson variants
    simpa [toJson, Json.Readable, Json.ReadableMembers] using hvariants
  | union cases =>
    have hcases := readable_arr_map Case.readable_toJson cases
    simpa [toJson, Json.Readable, Json.ReadableMembers] using hcases

lemma TypeDecl.readable_toJson (decl : TypeDecl) : decl.toJson.Readable := by
  rw [toJson, Json.Readable]
  exact ⟨by simp, readable_label _, readable_docToJson _, decl.definition.readable_toJson, trivial⟩

/-- **The document form of an interface is read back from its text.** -/
theorem Spec.readable_toJson (spec : Spec) : spec.toJson.Readable := by
  rw [toJson, Json.Readable]
  exact ⟨by simp, readable_labelToJson _, readable_arr_map FunctionDecl.readable_toJson _,
    readable_arr_map TypeDecl.readable_toJson _, readable_arr_map ErrorCase.readable_toJson _,
    readable_arr_map readable_label _, trivial⟩

/-! ### Interfaces of modules -/

namespace Spec

/-- A description that is there is not empty. -/
@[simp] lemma docText?_ne_some_empty (doc : Bytes) : docText? doc ≠ some "" := by
  rw [docText?]
  split_ifs with hempty
  · exact nofun
  · rw [Ne, Option.some.injEq, Utf8.decodeLossy_eq_empty_iff, ← List.isEmpty_iff]
    exact hempty

@[simp] lemma some_empty_ne_docText? (doc : Bytes) : some "" ≠ docText? doc :=
  (docText?_ne_some_empty doc).symm

@[simp] lemma CaseEntry.doc_toCase_ne (case : CaseEntry) : case.toCase.doc ≠ some "" := by
  cases case <;> exact docText?_ne_some_empty _

namespace Collected

/-- No entry adds an empty description. -/
lemma some_empty_notMem_docs_ofEntry (entry : Entry) :
    some "" ∉ ((ofEntry entry).toSpec none).docs := by
  rw [ofEntry]
  cases entry with
  | function doc name inputs output =>
    rw [add]
    split_ifs <;> simp [toSpec, empty, docs, FunctionDecl.docs, FieldEntry.toField]
  | struct header fields =>
    simp [add, toSpec, empty, docs, TypeDecl.docs, Header.declare, Definition.docs,
      FieldEntry.toField]
  | union header cases =>
    simp [add, toSpec, empty, docs, TypeDecl.docs, Header.declare, Definition.docs]
  | enum header variants =>
    simp [add, toSpec, empty, docs, TypeDecl.docs, Header.declare, Definition.docs,
      VariantEntry.toVariant]
  | errorEnum header cases => simp [add, toSpec, empty, docs, VariantEntry.toErrorCase]
  | event => exact List.not_mem_nil

/-- A description that has been collected comes from an entry. -/
lemma exists_mem_docs_ofEntry {entries : List Entry} {name : Option String} {doc : Option String}
    (h : doc ∈ ((empty.gather entries).toSpec name).docs) :
    ∃ entry ∈ entries, doc ∈ ((ofEntry entry).toSpec none).docs := by
  rw [gather_eq] at h
  simp only [toSpec, docs, List.flatMap_assoc, List.map_flatMap, List.mem_append,
    List.mem_flatMap (l := entries)] at h ⊢
  rcases h with (⟨entry, hentry, h⟩ | ⟨entry, hentry, h⟩) | ⟨entry, hentry, h⟩
  · exact ⟨entry, hentry, .inl (.inl h)⟩
  · exact ⟨entry, hentry, .inl (.inr h)⟩
  · exact ⟨entry, hentry, .inr h⟩

end Collected

/-- No description in the interface of a module is empty. -/
lemma some_empty_notMem_docs_of_extract {validates : Bool} {wasm : Bytes} {spec : Spec}
    (h : extract validates wasm = .ok spec) : some "" ∉ spec.docs := by
  obtain ⟨groups, name, -, -, -, -, rfl, -⟩ := extract_eq_ok.1 h
  intro hdoc
  obtain ⟨entry, -, hentry⟩ := Collected.exists_mem_docs_ofEntry hdoc
  exact Collected.some_empty_notMem_docs_ofEntry entry hentry

/-- **Interfaces are read back from their text.**  The text of an interface, with any indentation,
is that of its document form, and the interface is read back from that, if none of its descriptions
is empty.  So it is for the interface of any module. -/
theorem toText_read_back :
    (∀ spec : Spec, some "" ∉ spec.docs → ∀ indent,
      Json.parse? (spec.toText indent) = some spec.toJson ∧ ofJson spec.toJson = .ok spec) ∧
    ∀ (validates : Bool) (wasm : Bytes) (spec : Spec), extract validates wasm = .ok spec →
      ∀ indent, Json.parse? (spec.toText indent) = some spec.toJson ∧
        ofJson spec.toJson = .ok spec := by
  have hread (spec : Spec) (hdocs : some "" ∉ spec.docs) (indent : Nat) :
      Json.parse? (spec.toText indent) = some spec.toJson ∧ ofJson spec.toJson = .ok spec :=
    ⟨Json.parse?_render spec.readable_toJson (.lines indent), ofJson_toJson hdocs⟩
  exact ⟨hread, fun _ _ spec hextract => hread spec (some_empty_notMem_docs_of_extract hextract)⟩

/-- An interface with types in types, a case without a payload, a function without a result, and
texts that are not ASCII. -/
def nestedSpec : Spec where
  name := some "Café \"1\""
  functions := [
    ⟨"store", [⟨"entries", .map (.bytesN 32) (.vec (.option (.custom "Kind"))), some "In 💰.\n"⟩],
      none, some "Stores."⟩,
    ⟨"load", [], some (.result (.tuple [.primitive .u32, .tuple []]) (.custom "Fault")), none⟩]
  types := [
    ⟨"Kind", .union [⟨"Nothing", none, none⟩, ⟨"Some", some (.tuple [.bytesN 0]), some "\t"⟩],
      none⟩,
    ⟨"Color", .enum [⟨"Red", 4294967295, none⟩], some "A color."⟩,
    ⟨"", .struct [], none⟩]
  errors := [⟨"Late", 1, none, some "Fault"⟩, ⟨"Lost", -1, some "?", none⟩]
  rawEntries := ["AAAA", ""]

theorem toText_read_back_nested :
    (some "" ∉ nestedSpec.docs ∧ Json.parse? (nestedSpec.toText 0) = some nestedSpec.toJson ∧
        ofJson nestedSpec.toJson = .ok nestedSpec) ∧
      extract true (Wasm.encode (sampleCustoms.map (·.toSection))) = .ok sampleSpec ∧
        Json.parse? (sampleSpec.toText 2) = some sampleSpec.toJson ∧
        ofJson sampleSpec.toJson = .ok sampleSpec := by
  have hdocs : some "" ∉ nestedSpec.docs := by decide
  exact ⟨⟨hdocs, toText_read_back.1 nestedSpec hdocs 0⟩, extract_sample,
    toText_read_back.2 true _ sampleSpec extract_sample 2⟩

end Spec

end ContractInterface
