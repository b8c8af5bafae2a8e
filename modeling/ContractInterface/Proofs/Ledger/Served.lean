/-
# A record is read alike in both forms

A server may send a record bare or in an envelope, and does not say which.  The envelope is tried
first; no bare record passes for one.  Contract data and contract code have a number that is no tag
of their kind where the tag would stand in an envelope, and a lifetime is too short.  The main
results are

* `envelope_ne_bare`: no bytes are both a bare record and a record in an envelope;
* `EntryData.ofBytes_served`: a record is read from either form;
* `ofText_served`: so is what a fetch looks for in it.
-/
import ContractInterface.Proofs.Bytes.Base64
import ContractInterface.Proofs.Ledger.Records
import ContractInterface.Proofs.Ledger.Texts

namespace ContractInterface.Ledger

open Xdr Xdr.Cursor

/-! ### Lengths -/

lemma Address.thirtySix_le_length_encode (address : Address) : 36 ≤ address.encode.length := by
  cases address <;> simp only [encode, List.length_append, length_ofInt32, length_encode_hash] <;>
    omega

/-- No record is shorter than a lifetime. -/
lemma EntryData.forty_le_length_encode {data : EntryData} (hfits : data.Fits) :
    40 ≤ data.encode.length := by
  cases data with
  | contractData record =>
    have hcontract := record.contract.thirtySix_le_length_encode
    simp only [encode, encodeBody, ContractData.encode, List.length_append, length_ofInt32]
    omega
  | contractCode record =>
    have hcode := four_le_length_ofCounted record.code
    simp only [encode, encodeBody, ContractCode.encode, List.length_append, length_ofInt32,
      length_encode_hash]
    omega
  | ttl record =>
    simp [encode, encodeBody, Ttl.encode]
  | undecoded kind => exact hfits.elim

lemma EntryData.length_encode_ttl (record : Ttl) : (EntryData.ttl record).encode.length = 40 := by
  simp [encode, encodeBody, Ttl.encode]

/-! ### The two forms are apart -/

/-- The tag of a record whose body is read. -/
lemma EntryData.written_kind {data : EntryData} (hfits : data.Fits) :
    data.kind.written = 6 ∨ data.kind.written = 7 ∨ data.kind.written = 9 := by
  cases data with
  | contractData record => exact .inl rfl
  | contractCode record => exact .inr (.inl rfl)
  | ttl record => exact .inr (.inr rfl)
  | undecoded kind => exact hfits.elim

/-- Contract data and contract code begin with a version. -/
lemma EntryData.exists_version {data : EntryData} (hfits : data.Fits) (hkind : data.kind ≠ .ttl) :
    ∃ version : Int32, (version = 0 ∨ version = 1) ∧ ofInt32 version <+: data.encodeBody := by
  cases data with
  | contractData record =>
    refine ⟨0, .inl rfl, ?_⟩
    simp only [encodeBody, ContractData.encode, List.append_assoc]
    exact List.prefix_append _ _
  | contractCode record =>
    rcases hcosts : record.costInputs with _ | costs
    · refine ⟨0, .inl rfl, ?_⟩
      simp only [encodeBody, ContractCode.encode, hcosts, encodeCosts, List.append_assoc]
      exact List.prefix_append _ _
    · refine ⟨1, .inr rfl, ?_⟩
      simp only [encodeBody, ContractCode.encode, hcosts, encodeCosts, List.append_assoc]
      exact List.prefix_append _ _
  | ttl record => exact absurd rfl hkind
  | undecoded kind => exact hfits.elim

/-- **No bytes are both a bare record and a record in an envelope.** -/
theorem envelope_ne_bare {data data' : EntryData} (hfits : data.Fits) (hfits' : data'.Fits)
    (lastModified : UInt32) (extension : Extension) :
    (Served.envelope lastModified extension).encode data ≠ Served.bare.encode data' := by
  intro h
  by_cases hkind : data'.kind = .ttl
  · -- a lifetime is as short as any record, so nothing can be around it
    obtain ⟨record, rfl⟩ : ∃ record, data' = .ttl record := by
      cases data' with
      | ttl record => exact ⟨record, rfl⟩
      | undecoded kind => exact hfits'.elim
      | _ => cases hkind
    have hlen := congrArg List.length h
    have hlong := data.forty_le_length_encode hfits
    simp only [Served.encode, List.length_append, length_ofUInt32,
      EntryData.length_encode_ttl] at hlen
    omega
  · -- the tag of the record in the envelope stands where the other has its version
    obtain ⟨version, hversion, rest, hbody⟩ := data'.exists_version hfits' hkind
    simp only [Served.encode, EntryData.encode, ← hbody, List.append_assoc] at h
    have hhead : (ofUInt32 lastModified).length = (ofInt32 data'.kind.written).length := by
      rw [length_ofUInt32, length_ofInt32]
    have htail := (List.append_inj h hhead).2
    have htag := ofInt32_injective (List.append_inj htail (by simp)).1
    rw [← htag] at hversion
    rcases data.written_kind hfits with hsix | hseven | hnine
    · rw [hsix] at hversion
      exact absurd hversion (by decide)
    · rw [hseven] at hversion
      exact absurd hversion (by decide)
    · rw [hnine] at hversion
      exact absurd hversion (by decide)

/-! ### Reading either form -/

/-- Bytes that are passed whole. -/
lemma exists_passes_whole (bytes : Bytes) :
    ∃ c, (Cursor.start bytes).Passes bytes c ∧ c.isAtEnd = true := by
  obtain ⟨c, hpass, hend⟩ := exists_passes_start bytes []
  rw [List.append_nil] at hpass
  exact ⟨c, hpass, (isAtEnd_iff hpass.inside_right).2 hend⟩

/-- Bytes of a bare record are no record in an envelope. -/
lemma Envelope.value_read_bare {data : EntryData} (hfits : data.Fits) :
    ∃ fault, Envelope.read.value (Served.bare.encode data) = .error fault := by
  cases hread : Envelope.read.value (Served.bare.encode data) with
  | error fault => exact ⟨fault, rfl⟩
  | ok envelope =>
    obtain ⟨c, hread⟩ := Reader.value_eq_ok.1 hread
    obtain ⟨hfits', hend, extension, -, hpass⟩ := Envelope.read_eq_ok.1 hread
    have hnil : c.ahead = [] := (isAtEnd_iff hpass.inside_right).1 hend
    have hbytes := eq_of_passes_start hpass hnil
    exact absurd hbytes.symm (envelope_ne_bare hfits' hfits _ _)

/-- **A record is read from the bytes that are sent for it**, in either form. -/
theorem EntryData.ofBytes_served {data : EntryData} (hfits : data.Fits) (served : Served) :
    EntryData.ofBytes (served.encode data) = .ok data := by
  obtain ⟨c, hpass, hend⟩ := exists_passes_whole (served.encode data)
  have hlong := data.forty_le_length_encode hfits
  have hnonempty : (served.encode data).isEmpty = false := by
    rw [List.isEmpty_eq_false_iff, ← List.length_pos_iff]
    cases served <;> simp only [Served.encode, List.length_append] <;> omega
  rw [ofBytes, hnonempty]
  cases served with
  | envelope lastModified extension =>
    have hread : Envelope.read.value ((Served.envelope lastModified extension).encode data) =
        .ok ⟨lastModified, data, extension.sponsor⟩ :=
      Reader.value_eq_ok.2 ⟨c, Envelope.read_eq_ok.2 ⟨hfits, hend, extension, rfl, hpass⟩⟩
    simp [hread]
  | bare =>
    obtain ⟨fault, hfault⟩ := Envelope.value_read_bare hfits
    have hread : EntryData.readBare.value (Served.bare.encode data) = .ok data :=
      Reader.value_eq_ok.2 ⟨c, EntryData.readBare_eq_ok.2 (.inl ⟨hfits, hend, hpass⟩)⟩
    simp [hfault, hread]

lemma EntryData.ofText_encode {data : EntryData} (hfits : data.Fits) (served : Served) :
    EntryData.ofText (Base64.encode (served.encode data)) = .ok data := by
  rw [EntryData.ofText, Base64.decode_encode]
  exact ofBytes_served hfits served

/-- **What is read of a record does not depend on the form in which it is served.**  It shows the
record itself; of contract data with an instance the hash of its code is found, or that it has none
of its own; and of contract code the code. -/
theorem ofText_served {record : EntryData String} (hfits : record.utf8.Fits) (served : Served) :
    let text := Base64.encode (served.encode record.utf8)
    (EntryData.ofText text).map EntryData.shown = .ok record ∧
      (∀ data hash storage, record = .contractData data →
        data.val = .contractInstance (.wasm hash) storage → codeHashOfText text = .ok hash) ∧
      (∀ data storage, record = .contractData data →
        data.val = .contractInstance .stellarAsset storage →
          codeHashOfText text = .error .notWasm) ∧
      ∀ code, record = .contractCode code → codeOfText text = .ok code.code := by
  intro text
  have hread : EntryData.ofText text = .ok record.utf8 := EntryData.ofText_encode hfits served
  refine ⟨?_, ?_, ?_, ?_⟩
  · rw [hread]
    exact congrArg Except.ok record.shown_utf8
  · rintro data hash storage rfl hval
    have hcode : (EntryData.contractData data).utf8.codeHash = .ok hash := by
      rw [EntryData.utf8, EntryData.mapText, ContractData.mapText, hval]
      cases storage <;> rfl
    rw [codeHashOfText, hread]
    exact hcode
  · rintro data storage rfl hval
    have hcode : (EntryData.contractData data).utf8.codeHash = .error .notWasm := by
      rw [EntryData.utf8, EntryData.mapText, ContractData.mapText, hval]
      cases storage <;> rfl
    rw [codeHashOfText, hread]
    exact hcode
  · rintro code rfl
    rw [codeOfText, hread]
    rfl

/-- The hash of some code. -/
def sampleHash : Hash :=
  ⟨List.replicate 32 0xA5, rfl⟩

/-- The instance of a contract whose storage holds nested values and texts beyond ASCII. -/
def sampleInstance : ContractData String where
  contract := .contract sampleHash
  key := .ledgerKeyContractInstance
  durability := .persistent
  val := .contractInstance (.wasm sampleHash) (some [
    (.symbol "señal", .vec (some [.i128 (-1), .string "日本", .map none])),
    (.address (.muxedAccount 7 sampleHash), .error (.host .auth (-2)))])

/-- A lifetime whose hash begins like the tag of a lifetime, so that the bare record looks like an
envelope for as long as it goes on. -/
def deceptiveTtl : Ttl where
  keyHash := ⟨ofInt32 9 ++ List.replicate 28 0, rfl⟩
  liveUntil := 4294967295

theorem ofText_served_sample :
    (EntryData.contractData sampleInstance).utf8.Fits ∧
      codeHashOfText (Base64.encode ((Served.envelope 1 (.sponsored (some sampleHash))).encode
        (EntryData.contractData sampleInstance).utf8)) = .ok sampleHash ∧
      (EntryData.ofText (Base64.encode (Served.bare.encode (.ttl deceptiveTtl)))).map
        EntryData.shown = .ok (.ttl deceptiveTtl) := by
  have hinstance : (EntryData.contractData sampleInstance).utf8.Fits := by decide +kernel
  have httl : (EntryData.ttl deceptiveTtl : EntryData String).utf8.Fits := trivial
  exact ⟨hinstance, (ofText_served hinstance _).2.1 _ _ _ rfl rfl, (ofText_served httl .bare).1⟩

end ContractInterface.Ledger
