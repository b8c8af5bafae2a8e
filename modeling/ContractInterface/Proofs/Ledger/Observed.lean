/-
# Which kind a refusal names

A record that is not of the kind that is looked for is refused under its own kind wherever its body
is read.  In an envelope, a record of any other kind is not read at all: the bytes are read again as
a bare record, whose tag is then the number of the ledger in which the record was last changed.  So
such a record is refused under its own kind only if this number happens to be the tag of that kind.
The main results are

* `EntryData.ofText_enveloped`: what becomes of a record in an envelope whose body is not read;
* `wrong_kind_named_iff`: when a refusal names the kind of a record in an envelope;
* `wrong_kind_unnamed`: it does not always.
-/
import ContractInterface.Proofs.Fetch.Reply
import ContractInterface.Proofs.Ledger.Served

namespace ContractInterface.Ledger

open Xdr Xdr.Cursor Xdr.Reader

variable {c c' : Cursor}

/-! ### Records of any kind in an envelope -/

/-- What a ledger may hold behind a kind: the body of a record that fits where it is read, and any
bytes where it is not. -/
def EntryKind.Holds (kind : EntryKind) (body : Bytes) : Prop :=
  kind ∈ EntryKind.decoded →
    ∃ data : EntryData, data.Fits ∧ data.kind = kind ∧ data.encodeBody = body

/-- The bytes that are sent for a record of a kind in its envelope. -/
def enveloped (lastModified : UInt32) (kind : EntryKind) (body : Bytes) (extension : Extension) :
    Bytes :=
  ofUInt32 lastModified ++ ofInt32 kind.written ++ body ++ extension.encode

lemma EntryData.kind_mem_decoded {data : EntryData} (hfits : data.Fits) :
    data.kind ∈ EntryKind.decoded := by
  cases data with
  | undecoded kind => exact hfits.elim
  | _ => simp [EntryData.kind, EntryKind.decoded]

/-! ### Reading a tag without a body -/

/-- A tag that no form is written with is refused. -/
lemma readTag_of_unknown {α : Type} {written : α → Int32} {all : List α}
    (h : Numbers written all) {part : TaggedPart} {tag : Int32} (hnone : ∀ form, written form ≠ tag)
    (hpass : c.Passes (ofInt32 tag) c') :
    readTag part all c = .error (.format (.unknownTag part tag)) c' := by
  rw [readTag, bind_of_ok (int32_eq_ok.2 hpass)]
  cases hfound : (if tag < 0 then none else all[tag.toInt.toNat]?) with
  | none => rfl
  | some form => exact absurd (h.getElem?_eq_some_iff.1 hfound) (hnone form)

/-- Behind the tag of a kind whose body is not read, `undecoded` goes on. -/
lemma EntryData.read_of_undecoded {undecoded : EntryKind → Reader EntryData} {kind : EntryKind}
    (hkind : kind ∉ EntryKind.decoded) (hpass : c.Passes (ofInt32 kind.written) c') :
    EntryData.read undecoded c = undecoded kind c' := by
  rw [read, bind_of_ok ((readTag_eq_ok numbers_entry).2 hpass)]
  cases kind with
  | contractData | contractCode | ttl => exact absurd (by decide) hkind
  | _ => rfl

/-- The number of a ledger, read as a tag. -/
lemma exists_passes_lastModified (lastModified : UInt32) (kind : EntryKind) (body : Bytes)
    (extension : Extension) :
    ∃ c₁, (start (enveloped lastModified kind body extension)).Passes
        (ofInt32 lastModified.toInt32) c₁ ∧
      ∃ c₂, c₁.Passes (ofInt32 kind.written) c₂ := by
  rw [enveloped, List.append_assoc, List.append_assoc]
  obtain ⟨c₁, hpass, hahead⟩ := exists_passes_start (ofUInt32 lastModified)
    (ofInt32 kind.written ++ (body ++ extension.encode))
  obtain ⟨c₂, hpass', -⟩ := exists_passes hpass.inside_right hahead
  exact ⟨c₁, hpass, c₂, hpass'⟩

section Undecoded

variable {kind : EntryKind} (hkind : kind ∉ EntryKind.decoded) (lastModified : UInt32)
  (body : Bytes) (extension : Extension)

include hkind

/-- In an envelope, a record whose body is not read is refused. -/
lemma Envelope.value_read_enveloped :
    Envelope.read.value (enveloped lastModified kind body extension) =
      .error (.format (.undecodedKind kind)) := by
  obtain ⟨c₁, hpass, c₂, hpass'⟩ := exists_passes_lastModified lastModified kind body extension
  have hdata : EntryData.read (fun kind => Xdr.Reader.reject (.undecodedKind kind)) c₁ =
      .error (.format (.undecodedKind kind)) c₂ := EntryData.read_of_undecoded hkind hpass'
  have hread : Envelope.read (start (enveloped lastModified kind body extension)) =
      .error (.format (.undecodedKind kind)) c₂ := by
    rw [Envelope.read, bind_of_ok (uint32_eq_ok.2 hpass), bind_of_error hdata]
  exact value_of_error hread

namespace EntryData

/-- **What becomes of a record in an envelope whose body is not read** is decided by its bytes as a
bare record. -/
theorem ofText_enveloped :
    EntryData.ofText (Base64.encode (enveloped lastModified kind body extension)) =
      match EntryData.readBare.value (enveloped lastModified kind body extension) with
      | .ok data => .ok data
      | .error fault => .error (.noRecord (.format (.undecodedKind kind)) fault) := by
  have hnonempty : (enveloped lastModified kind body extension).isEmpty = false := by
    rw [List.isEmpty_eq_false_iff, ← List.length_pos_iff]
    simp only [enveloped, List.length_append, length_ofUInt32]
    omega
  rw [ofText, Base64.decode_encode]
  simp only [ofBytes, hnonempty, Envelope.value_read_enveloped hkind lastModified body extension]
  rfl

variable {lastModified}

/-- The number of a ledger that is the tag of a kind whose body is not read makes the record one of
that kind. -/
lemma ofText_enveloped_of_written {other : EntryKind} (hother : other ∉ EntryKind.decoded)
    (htag : lastModified.toInt32 = other.written) :
    EntryData.ofText (Base64.encode (enveloped lastModified kind body extension)) =
      .ok (.undecoded other) := by
  obtain ⟨c₁, hpass, -⟩ := exists_passes_lastModified lastModified kind body extension
  rw [htag] at hpass
  have hbare : EntryData.readBare.value (enveloped lastModified kind body extension) =
      .ok (.undecoded other) :=
    value_eq_ok.2 ⟨c₁, readBare_eq_ok.2 (.inr ⟨other, hother, rfl, hpass⟩)⟩
  rw [ofText_enveloped hkind, hbare]

/-- The number of a ledger that is no tag makes the record none at all. -/
lemma ofText_enveloped_of_unknown
    (htag : ∀ other : EntryKind, lastModified.toInt32 ≠ other.written) :
    EntryData.ofText (Base64.encode (enveloped lastModified kind body extension)) =
      .error (.noRecord (.format (.undecodedKind kind))
        (.format (.unknownTag .entry lastModified.toInt32))) := by
  obtain ⟨c₁, hpass, -⟩ := exists_passes_lastModified lastModified kind body extension
  have hread : readTag .entry EntryKind.all (start (enveloped lastModified kind body extension)) =
      .error (.format (.unknownTag .entry lastModified.toInt32)) c₁ :=
    readTag_of_unknown numbers_entry (fun other => (htag other).symm) hpass
  have hbare : EntryData.readBare.value (enveloped lastModified kind body extension) =
      .error (.format (.unknownTag .entry lastModified.toInt32)) :=
    value_of_error (bind_of_error (bind_of_error hread))
  rw [ofText_enveloped hkind, hbare]

/-- Only the number of a ledger makes the record one of its own kind. -/
lemma exists_kind_iff :
    (∃ data, EntryData.ofText (Base64.encode (enveloped lastModified kind body extension)) =
      .ok data ∧ data.kind = kind) ↔ lastModified.toInt32 = kind.written := by
  constructor
  · rintro ⟨data, hread, rfl⟩
    rw [ofText_enveloped hkind] at hread
    split at hread
    · rename_i found hbare
      obtain rfl := Except.ok.inj hread
      obtain ⟨c₂, hbare⟩ := value_eq_ok.1 hbare
      rcases readBare_eq_ok.1 hbare with ⟨hfits, -⟩ | ⟨other, -, rfl, hpass⟩
      · exact absurd (kind_mem_decoded hfits) hkind
      · -- the same four bytes are the number of the ledger and the tag of the kind
        obtain ⟨c₁, hpass', -⟩ :=
          exists_passes_lastModified lastModified (undecoded other).kind body extension
        have hahead := hpass.ahead_eq.symm.trans hpass'.ahead_eq
        exact (ofInt32_injective (List.append_inj hahead (by simp)).1).symm
    · cases hread
  · intro htag
    exact ⟨_, ofText_enveloped_of_written hkind body extension hkind htag, rfl⟩

end EntryData

end Undecoded

/-! ### Refusals -/

/-- A part of a record that only one kind of record has: every other record is refused for it under
its own kind, and no record is for any other reason under a kind. -/
def RefusesByKind {α : Type} (expected : EntryKind) (take : EntryData → Except EntryError α) :
    Prop :=
  ∀ data kind, kind ≠ expected →
    (take data = .error (.unexpectedEntry expected kind) ↔ data.kind = kind)

lemma refusesByKind_codeHash : RefusesByKind .contractData EntryData.codeHash := by
  intro data kind hkind
  cases data with
  | contractData record =>
    refine ⟨fun h => ?_, fun h => absurd h.symm hkind⟩
    simp only [EntryData.codeHash] at h
    split at h <;> cases h
  | contractCode record | ttl record | undecoded found =>
    simp [EntryData.codeHash, EntryData.kind]

lemma refusesByKind_code : RefusesByKind .contractCode EntryData.code := by
  intro data kind hkind
  cases data with
  | contractCode record => exact ⟨nofun, fun h => absurd h.symm hkind⟩
  | contractData record | ttl record | undecoded found =>
    simp [EntryData.code, EntryData.kind]

namespace RefusesByKind

variable {α : Type} {expected : EntryKind} {take : EntryData → Except EntryError α}
  (htake : RefusesByKind expected take)

include htake

/-- A text is refused under a kind if it is read as a record of that kind. -/
lemma bind_eq_iff {text : String} {kind : EntryKind} (hne : kind ≠ expected) :
    (EntryData.ofText text).bind take = .error (.unexpectedEntry expected kind) ↔
      ∃ data, EntryData.ofText text = .ok data ∧ data.kind = kind := by
  cases hread : EntryData.ofText text with
  | error error =>
    refine ⟨?_, nofun⟩
    rintro ⟨⟩
    exact absurd hread (EntryData.ofText_ne_unexpected text expected kind)
  | ok data =>
    simp only [Except.ok.injEq, exists_eq_left']
    exact htake data kind hne

/-- A record in an envelope is refused under its own kind if its body is read, or if the number of
the ledger happens to be the tag of the kind. -/
lemma enveloped_iff {kind : EntryKind} {body : Bytes} (hbody : kind.Holds body)
    (hne : kind ≠ expected) (lastModified : UInt32) (extension : Extension) :
    (EntryData.ofText (Base64.encode (enveloped lastModified kind body extension))).bind take =
        .error (.unexpectedEntry expected kind) ↔
      kind ∈ EntryKind.decoded ∨ lastModified.toInt32 = kind.written := by
  rw [htake.bind_eq_iff hne]
  by_cases hkind : kind ∈ EntryKind.decoded
  · obtain ⟨data, hfits, rfl, rfl⟩ := hbody hkind
    have hserved : enveloped lastModified data.kind data.encodeBody extension =
        (Served.envelope lastModified extension).encode data := by
      simp only [enveloped, Served.encode, EntryData.encode, List.append_assoc]
    rw [hserved, EntryData.ofText_encode hfits]
    exact iff_of_true ⟨data, rfl, rfl⟩ (.inl hkind)
  · rw [EntryData.exists_kind_iff hkind]
    exact ⟨.inr, fun h => h.resolve_left hkind⟩

end RefusesByKind

/-- **When a refusal names the kind of a record in an envelope.**  A record of another kind than the
one that is looked for is refused under its own kind exactly if its body is read or the number of
the ledger in which it was last changed happens to be the tag of its kind.  Otherwise it is refused
under the kind whose tag that number is, if the body of this kind is not read either; and if the
number is no tag, the bytes are refused as no record at all. -/
theorem wrong_kind_named_iff {kind : EntryKind} {body : Bytes} (hbody : kind.Holds body)
    (lastModified : UInt32) (extension : Extension) :
    let text := Base64.encode (enveloped lastModified kind body extension)
    (kind ≠ .contractData →
      (codeHashOfText text = .error (.unexpectedEntry .contractData kind) ↔
        kind ∈ EntryKind.decoded ∨ lastModified.toInt32 = kind.written)) ∧
    (kind ≠ .contractCode →
      (codeOfText text = .error (.unexpectedEntry .contractCode kind) ↔
        kind ∈ EntryKind.decoded ∨ lastModified.toInt32 = kind.written)) ∧
    (kind ∉ EntryKind.decoded →
      (∀ other ∉ EntryKind.decoded, lastModified.toInt32 = other.written →
        codeHashOfText text = .error (.unexpectedEntry .contractData other) ∧
          codeOfText text = .error (.unexpectedEntry .contractCode other)) ∧
      ((∀ other : EntryKind, lastModified.toInt32 ≠ other.written) →
        EntryData.ofText text = .error (.noRecord (.format (.undecodedKind kind))
          (.format (.unknownTag .entry lastModified.toInt32))))) := by
  intro text
  refine ⟨fun hne => ?_, fun hne => ?_, fun hkind => ⟨fun other hother htag => ?_, fun htag => ?_⟩⟩
  · exact refusesByKind_codeHash.enveloped_iff hbody hne lastModified extension
  · exact refusesByKind_code.enveloped_iff hbody hne lastModified extension
  · have hread := EntryData.ofText_enveloped_of_written hkind body extension hother htag
    rw [codeHashOfText, codeOfText, hread]
    exact ⟨rfl, rfl⟩
  · exact EntryData.ofText_enveloped_of_unknown hkind body extension htag

/-- What stands behind the kind of a record of an account: its public key, its balance and the
number of its last transaction, and what else it may have, of which it has nothing. -/
def accountBody : Bytes :=
  ofInt32 0 ++ (List.replicate 28 0xA5 ++ ofUInt32 48) ++ ofInt64 10000000 ++ ofInt64 1 ++
    ofUInt32 0 ++ ofBool false ++ ofUInt32 0 ++ ofCounted [] ++ [1, 0, 0, 0] ++ ofUInt32 0 ++
    ofInt32 0

/-- What is sent for the account, last changed in a ledger of a given number. -/
def accountText (lastModified : UInt32) : String :=
  Base64.encode (enveloped lastModified .account accountBody .plain)

theorem wrong_kind_named_iff_account :
    EntryKind.account.Holds accountBody ∧
      codeHashOfText (accountText 0) = .error (.unexpectedEntry .contractData .account) ∧
      codeOfText (accountText 8) = .error (.unexpectedEntry .contractCode .configSetting) ∧
      EntryKind.ttl.Holds deceptiveTtl.encode ∧
      codeOfText (Base64.encode (enveloped 0 .ttl deceptiveTtl.encode (.sponsored none))) =
        .error (.unexpectedEntry .contractCode .ttl) := by
  have haccount : EntryKind.account.Holds accountBody := fun h => absurd h (by decide)
  have httl : EntryKind.ttl.Holds deceptiveTtl.encode :=
    fun _ => ⟨.ttl deceptiveTtl, trivial, rfl, rfl⟩
  refine ⟨haccount, ?_, ?_, httl, ?_⟩
  · exact ((wrong_kind_named_iff haccount 0 .plain).1 (by decide)).2 (.inr (by decide))
  · exact (((wrong_kind_named_iff haccount 8 .plain).2.2 (by decide)).1 .configSetting (by decide)
      (by decide)).2
  · exact ((wrong_kind_named_iff httl 0 (.sponsored none)).2.1 (by decide)).2 (.inl (by decide))

/-- **A refusal does not always name the kind of a record.**  A record of an account is refused as
no record, as one of another kind, or is taken for code, depending on the number of the ledger. -/
theorem wrong_kind_unnamed :
    EntryKind.account.Holds accountBody ∧
      codeHashOfText (accountText 54321) ≠ .error (.unexpectedEntry .contractData .account) ∧
      codeOfText (accountText 54321) ≠ .error (.unexpectedEntry .contractCode .account) ∧
      codeHashOfText (accountText 1) = .error (.unexpectedEntry .contractData .trustline) ∧
      codeOfText (accountText 7) = .ok (accountBody.drop 36 ++ ofInt32 0) := by
  have haccount : EntryKind.account.Holds accountBody := fun h => absurd h (by decide)
  exact ⟨haccount, by decide +kernel, by decide +kernel, by decide +kernel, by decide +kernel⟩

end ContractInterface.Ledger
