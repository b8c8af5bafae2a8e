/-
# Reading ledger records exactly as they are written

The readers of records succeed exactly in front of the written form of a record that fits, give it
back and stop right behind it.  Where the body of a record is not read, only its kind is.  The main
results are

* `EntryData.read_eq_ok`: the law for records, with what becomes of the kinds that are not read;
* `Envelope.read_eq_ok`: the law for records in their envelopes;
* `EntryData.readBare_eq_ok`: the law for bare records.
-/
import ContractInterface.Proofs.Ledger.Values

namespace ContractInterface.Ledger

open Xdr Xdr.Cursor Xdr.Reader

variable {c c' : Cursor}

/-! ### Bodies of records -/

theorem ContractData.read_eq_ok {record : ContractData} :
    ContractData.read c = .ok record c' ↔ record.Fits ∧ c.Passes record.encode c' := by
  simp only [read, bind_eq_ok, readZero_eq_ok, Address.read_eq_ok, Value.read_eq_ok,
    readTag_eq_ok numbers_durability, pure_eq_ok, encode, List.append_assoc, passes_append_iff]
  constructor
  · rintro ⟨_, c₁, h₁, contract, c₂, h₂, key, c₃, ⟨hkey, h₃⟩, durability, c₄, h₄, val, c₅,
      ⟨hval, h₅⟩, rfl, rfl⟩
    exact ⟨⟨hkey, hval⟩, c₁, h₁, c₂, h₂, c₃, h₃, c₄, h₄, h₅⟩
  · rintro ⟨hfits, c₁, h₁, c₂, h₂, c₃, h₃, c₄, h₄, h₅⟩
    exact ⟨(), c₁, h₁, _, c₂, h₂, _, c₃, ⟨hfits.key, h₃⟩, _, c₄, h₄, _, c', ⟨hfits.val, h₅⟩,
      rfl, rfl⟩

lemma ContractCode.readCosts_eq_ok {costs : Option (List UInt32)} :
    ContractCode.readCosts c = .ok costs c' ↔
      (∀ numbers ∈ costs, numbers.length = 10) ∧ c.Passes (encodeCosts costs) c' := by
  have hnumber : Reads (Xdr.Reader.uint32 : Reader UInt32) (fun _ => True) ofUInt32 := by
    intro c n c'
    rw [uint32_eq_ok, true_and]
  simp only [readCosts, bind_eq_ok, int32_eq_ok]
  constructor
  · rintro ⟨version, c₁, hversion, h⟩
    split_ifs at h with hzero hone
    · obtain ⟨rfl, rfl⟩ := pure_eq_ok.1 h
      subst hzero
      exact ⟨nofun, hversion⟩
    · subst hone
      simp only [bind_eq_ok, readZero_eq_ok, pure_eq_ok] at h
      obtain ⟨_, c₂, h₂, _, c₃, h₃, numbers, c₄, hnumbers, rfl, rfl⟩ := h
      obtain ⟨hlen, -, h₄⟩ := (times_eq_ok hnumber h₃.inside_right).1 hnumbers
      refine ⟨?_, ((hversion.trans h₂).trans h₃).trans h₄⟩
      rintro _ ⟨⟩
      exact hlen
    · exact absurd h reject_ne_ok
  · rintro ⟨hlen, h⟩
    cases costs with
    | none => exact ⟨0, c', h, rfl⟩
    | some numbers =>
      simp only [encodeCosts, List.append_assoc, passes_append_iff] at h
      obtain ⟨c₁, hversion, c₂, h₂, c₃, h₃, h₄⟩ := h
      refine ⟨1, c₁, hversion, ?_⟩
      rw [if_neg (by decide), if_pos rfl]
      simp only [bind_eq_ok, readZero_eq_ok, pure_eq_ok]
      refine ⟨(), c₂, h₂, (), c₃, h₃, numbers, c', ?_, rfl, rfl⟩
      exact (times_eq_ok hnumber h₃.inside_right).2 ⟨hlen numbers rfl, fun _ _ => trivial, h₄⟩

theorem ContractCode.read_eq_ok {record : ContractCode} :
    ContractCode.read c = .ok record c' ↔ record.Fits ∧ c.Passes record.encode c' := by
  simp only [read, bind_eq_ok, readCosts_eq_ok, hash_read_eq_ok, counted_eq_ok,
    fitsCount_none_iff, pure_eq_ok, encode, List.append_assoc, passes_append_iff]
  constructor
  · rintro ⟨costs, c₁, ⟨hcosts, h₁⟩, hash, c₂, h₂, code, c₃, ⟨hcode, h₃⟩, rfl, rfl⟩
    exact ⟨⟨hcosts, hcode⟩, c₁, h₁, c₂, h₂, h₃⟩
  · rintro ⟨hfits, c₁, h₁, c₂, h₂, h₃⟩
    exact ⟨_, c₁, ⟨hfits.costs, h₁⟩, _, c₂, h₂, _, c', ⟨hfits.code, h₃⟩, rfl, rfl⟩

theorem Ttl.read_eq_ok {record : Ttl} :
    Ttl.read c = .ok record c' ↔ c.Passes record.encode c' := by
  simp only [read, bind_eq_ok, hash_read_eq_ok, uint32_eq_ok, pure_eq_ok, encode,
    passes_append_iff]
  constructor
  · rintro ⟨keyHash, c₁, h₁, liveUntil, c₂, h₂, rfl, rfl⟩
    exact ⟨c₁, h₁, h₂⟩
  · rintro ⟨c₁, h₁, h₂⟩
    exact ⟨_, c₁, h₁, _, c', h₂, rfl, rfl⟩

/-! ### Records -/

/-- The kinds of record whose bodies are read. -/
def EntryKind.decoded : List EntryKind :=
  [.contractData, .contractCode, .ttl]

/-- **The law for records.**  A record of a kind whose body is read is read as it is written; the
other kinds are left to `undecoded`. -/
theorem EntryData.read_eq_ok {undecoded : EntryKind → Reader EntryData} {data : EntryData} :
    EntryData.read undecoded c = .ok data c' ↔
      data.Fits ∧ c.Passes data.encode c' ∨
        ∃ kind c₁, kind ∉ EntryKind.decoded ∧ c.Passes (ofInt32 (EntryKind.written kind)) c₁ ∧
          undecoded kind c₁ = .ok data c' := by
  simp only [read, bind_eq_ok, readTag_eq_ok numbers_entry]
  constructor
  · rintro ⟨kind, c₁, hkind, h⟩
    cases kind with
    | contractData =>
      simp only [bind_eq_ok, ContractData.read_eq_ok, pure_eq_ok] at h
      obtain ⟨record, c₂, ⟨hfits, hpass⟩, rfl, rfl⟩ := h
      exact .inl ⟨hfits, hkind.trans hpass⟩
    | contractCode =>
      simp only [bind_eq_ok, ContractCode.read_eq_ok, pure_eq_ok] at h
      obtain ⟨record, c₂, ⟨hfits, hpass⟩, rfl, rfl⟩ := h
      exact .inl ⟨hfits, hkind.trans hpass⟩
    | ttl =>
      simp only [bind_eq_ok, Ttl.read_eq_ok, pure_eq_ok] at h
      obtain ⟨record, c₂, hpass, rfl, rfl⟩ := h
      exact .inl ⟨trivial, hkind.trans hpass⟩
    | _ => exact .inr ⟨_, c₁, by decide, hkind, h⟩
  · rintro (⟨hfits, h⟩ | ⟨kind, c₁, hnot, hkind, h⟩)
    · obtain ⟨c₁, hkind, hbody⟩ := passes_append_iff.1 h
      refine ⟨data.kind, c₁, hkind, ?_⟩
      cases data with
      | contractData record =>
        simp only [EntryData.kind, bind_eq_ok, ContractData.read_eq_ok, pure_eq_ok]
        exact ⟨record, c', ⟨hfits, hbody⟩, rfl, rfl⟩
      | contractCode record =>
        simp only [EntryData.kind, bind_eq_ok, ContractCode.read_eq_ok, pure_eq_ok]
        exact ⟨record, c', ⟨hfits, hbody⟩, rfl, rfl⟩
      | ttl record =>
        simp only [EntryData.kind, bind_eq_ok, Ttl.read_eq_ok, pure_eq_ok]
        exact ⟨record, c', hbody, rfl, rfl⟩
      | undecoded kind => exact hfits.elim
    · refine ⟨kind, c₁, hkind, ?_⟩
      cases kind with
      | contractData | contractCode | ttl => exact absurd (by decide) hnot
      | _ => exact h

/-- The law for what follows a record in its envelope. -/
lemma Envelope.readSponsor_eq_ok {sponsor : Option Hash} :
    Envelope.readSponsor c = .ok sponsor c' ↔
      ∃ extension : Extension, extension.sponsor = sponsor ∧ c.Passes extension.encode c' := by
  have hkey : Reads (do
      readZero .publicKey
      Hash.read : Reader Hash) (fun _ => True) Extension.encodeKey := by
    intro c hash c'
    simp only [bind_eq_ok, readZero_eq_ok, hash_read_eq_ok, Extension.encodeKey,
      passes_append_iff, true_and]
    exact exists_const Unit
  simp only [readSponsor, bind_eq_ok, int32_eq_ok]
  constructor
  · rintro ⟨version, c₁, hversion, h⟩
    split_ifs at h with hzero hone
    · obtain ⟨rfl, rfl⟩ := pure_eq_ok.1 h
      subst hzero
      exact ⟨.plain, rfl, hversion⟩
    · subst hone
      simp only [bind_eq_ok, hkey.optional.eq_ok, readZero_eq_ok, pure_eq_ok] at h
      obtain ⟨paying, c₂, ⟨-, h₂⟩, _, c₃, h₃, rfl, rfl⟩ := h
      exact ⟨.sponsored paying, rfl, (hversion.trans h₂).trans h₃⟩
    · exact absurd h reject_ne_ok
  · rintro ⟨extension, rfl, h⟩
    cases extension with
    | plain => exact ⟨0, c', h, rfl⟩
    | sponsored sponsor =>
      simp only [Extension.encode, List.append_assoc, passes_append_iff] at h
      obtain ⟨c₁, hversion, c₂, h₂, h₃⟩ := h
      refine ⟨1, c₁, hversion, ?_⟩
      rw [if_neg (by decide), if_pos rfl]
      simp only [bind_eq_ok, hkey.optional.eq_ok, readZero_eq_ok, pure_eq_ok]
      exact ⟨sponsor, c₂, ⟨fun _ _ => trivial, h₂⟩, (), c', h₃, rfl, rfl⟩

/-- **The law for records in their envelopes.** -/
theorem Envelope.read_eq_ok {envelope : Envelope} :
    Envelope.read c = .ok envelope c' ↔
      envelope.data.Fits ∧ c'.isAtEnd = true ∧
        ∃ extension : Extension, extension.sponsor = envelope.sponsor ∧
          c.Passes ((Served.envelope envelope.lastModified extension).encode envelope.data) c' := by
  simp only [read, bind_eq_ok, uint32_eq_ok, EntryData.read_eq_ok, readSponsor_eq_ok,
    expectEnd_eq_ok, pure_eq_ok, reject_ne_ok, and_false, exists_false, or_false, Served.encode,
    List.append_assoc, passes_append_iff]
  constructor
  · rintro ⟨lastModified, c₁, h₁, data, c₂, ⟨hfits, h₂⟩, sponsor, c₃, ⟨extension, rfl, h₃⟩, _, c₄,
      ⟨hend, rfl⟩, rfl, rfl⟩
    exact ⟨hfits, hend, extension, rfl, c₁, h₁, c₂, h₂, h₃⟩
  · rintro ⟨hfits, hend, extension, hsponsor, c₁, h₁, c₂, h₂, h₃⟩
    exact ⟨_, c₁, h₁, _, c₂, ⟨hfits, h₂⟩, _, c', ⟨extension, hsponsor, h₃⟩, (), c', ⟨hend, rfl⟩,
      rfl, rfl⟩

/-- **The law for bare records.**  A kind whose body is not read is all that is read. -/
theorem EntryData.readBare_eq_ok {data : EntryData} :
    EntryData.readBare c = .ok data c' ↔
      data.Fits ∧ c'.isAtEnd = true ∧ c.Passes data.encode c' ∨
        ∃ kind, kind ∉ EntryKind.decoded ∧ data = .undecoded kind ∧
          c.Passes (ofInt32 (EntryKind.written kind)) c' := by
  simp only [readBare, bind_eq_ok, read_eq_ok]
  constructor
  · rintro ⟨found, c₁, hfound | ⟨kind, c₂, hnot, hkind, hundecoded⟩, h⟩
    · cases found with
      | undecoded kind => exact hfound.1.elim
      | contractData record | contractCode record | ttl record =>
        simp only [bind_eq_ok, expectEnd_eq_ok, pure_eq_ok] at h
        obtain ⟨_, c₂, ⟨hend, rfl⟩, rfl, rfl⟩ := h
        exact .inl ⟨hfound.1, hend, hfound.2⟩
    · obtain ⟨rfl, rfl⟩ := pure_eq_ok.1 hundecoded
      obtain ⟨rfl, rfl⟩ := pure_eq_ok.1 h
      exact .inr ⟨kind, hnot, rfl, hkind⟩
  · rintro (⟨hfits, hend, h⟩ | ⟨kind, hnot, rfl, h⟩)
    · refine ⟨data, c', .inl ⟨hfits, h⟩, ?_⟩
      cases data with
      | undecoded kind => exact hfits.elim
      | contractData record | contractCode record | ttl record =>
        simp only [bind_eq_ok, expectEnd_eq_ok, pure_eq_ok, true_and]
        exact ⟨(), c', ⟨hend, rfl⟩, rfl⟩
    · exact ⟨.undecoded kind, c', .inr ⟨kind, c', hnot, h, rfl⟩, rfl⟩

end ContractInterface.Ledger
