/-
# Reading contract values exactly as they are written

The reader of values succeeds exactly in front of the written form of a value that fits, gives it
back and stops right behind it.  The main results are

* `readTag_eq_ok`: the law for tags, for any table of forms that is numbered as they are written;
* `Address.read_eq_ok`: the law for addresses;
* `Value.readWithin_eq_ok`: the law for values, by induction on the levels that are left.
-/
import ContractInterface.Proofs.Ledger.Form
import ContractInterface.Proofs.Xdr.Reading

namespace ContractInterface.Ledger

open Xdr Xdr.Cursor Xdr.Reader

variable {c c' : Cursor}

/-! ### Tags -/

/-- A table of all forms of a part, each at the place that it is written with. -/
structure Numbers {α : Type} (written : α → Int32) (all : List α) : Prop where
  mem : ∀ form, form ∈ all
  written_getElem : ∀ (i : Nat) (h : i < all.length), (written all[i]).toInt = i

namespace Numbers

variable {α : Type} {written : α → Int32} {all : List α}

/-- The form at the place that a number names is the one that is written with the number. -/
lemma getElem?_eq_some_iff (h : Numbers written all) {tag : Int32} {form : α} :
    (if tag < 0 then none else all[tag.toInt.toNat]?) = some form ↔ written form = tag := by
  constructor
  · intro hform
    split_ifs at hform with hneg
    have hnonneg : 0 ≤ tag.toInt := by simpa [Int32.lt_iff_toInt_lt] using hneg
    obtain ⟨hlt, rfl⟩ := List.getElem?_eq_some_iff.1 hform
    apply Int32.toInt.inj
    rw [h.written_getElem _ hlt, Int.toNat_of_nonneg hnonneg]
  · rintro rfl
    obtain ⟨i, hlt, rfl⟩ := List.mem_iff_getElem.1 (h.mem form)
    have htag := h.written_getElem i hlt
    have hnonneg : ¬written all[i] < 0 := by simp [Int32.lt_iff_toInt_lt, htag]
    rw [if_neg hnonneg, htag, Int.toNat_natCast, List.getElem?_eq_getElem hlt]

end Numbers

/-- **The law for tags.** -/
theorem readTag_eq_ok {α : Type} {written : α → Int32} {all : List α}
    (h : Numbers written all) {part : TaggedPart} {form : α} :
    readTag part all c = .ok form c' ↔ c.Passes (ofInt32 (written form)) c' := by
  simp only [readTag, bind_eq_ok, int32_eq_ok]
  constructor
  · rintro ⟨tag, c₁, htag, hform⟩
    cases hfound : (if tag < 0 then none else all[tag.toInt.toNat]?) with
    | none =>
      rw [hfound] at hform
      exact absurd hform reject_ne_ok
    | some found =>
      rw [hfound] at hform
      obtain ⟨rfl, rfl⟩ := pure_eq_ok.1 hform
      rw [h.getElem?_eq_some_iff.1 hfound]
      exact htag
  · intro hpass
    refine ⟨written form, c', hpass, ?_⟩
    rw [h.getElem?_eq_some_iff.2 rfl]
    rfl

/-- The law for a version that can only be zero. -/
lemma readZero_eq_ok {part : TaggedPart} {done : Unit} :
    readZero part c = .ok done c' ↔ c.Passes (ofInt32 0) c' := by
  simp only [readZero, bind_eq_ok, int32_eq_ok]
  constructor
  · rintro ⟨version, c₁, hversion, h⟩
    split_ifs at h with hzero
    · exact absurd h reject_ne_ok
    · obtain ⟨-, rfl⟩ := pure_eq_ok.1 h
      rw [not_not.1 hzero] at hversion
      exact hversion
  · intro h
    exact ⟨0, c', h, by rw [if_neg (by decide)]; rfl⟩

lemma numbers_entry : Numbers EntryKind.written EntryKind.all :=
  ⟨fun kind => by cases kind <;> decide, by decide⟩

lemma numbers_address : Numbers AddressKind.written AddressKind.all :=
  ⟨fun kind => by cases kind <;> decide, by decide⟩

lemma numbers_value : Numbers ValueKind.written ValueKind.all :=
  ⟨fun kind => by cases kind <;> decide, by decide⟩

lemma numbers_source : Numbers writtenSource errorSources :=
  ⟨fun source => by rcases source with _ | part <;> [decide; (cases part <;> decide)], by decide⟩

lemma numbers_durability : Numbers Durability.written Durability.all :=
  ⟨fun durability => by cases durability <;> decide, by decide⟩

/-- The tag of an executable says whether it is stored code. -/
lemma numbers_executable : Numbers (fun stored => if stored then 0 else 1) [true, false] :=
  ⟨fun stored => by cases stored <;> decide, by decide⟩

/-! ### Parts of values -/

lemma hash_read_eq_ok {ε : Type} {hash : Hash} :
    (Hash.read : Xdr.Reader ε Hash) c = .ok hash c' ↔ c.Passes hash.encode c' := by
  simp only [Hash.read, bind_eq_ok, fixed_eq_ok, pure_eq_ok, Hash.encode]
  constructor
  · rintro ⟨bytes, c₁, h, rfl, rfl⟩
    exact h
  · intro h
    exact ⟨⟨hash.bytes, hash.length_eq⟩, c', h, rfl, rfl⟩

theorem Address.read_eq_ok {address : Address} :
    Address.read c = .ok address c' ↔ c.Passes address.encode c' := by
  simp only [read, bind_eq_ok, readTag_eq_ok numbers_address]
  constructor
  · rintro ⟨kind, c₁, hkind, h⟩
    cases kind with
    | account | claimableBalance =>
      simp only [bind_eq_ok, readZero_eq_ok, hash_read_eq_ok, pure_eq_ok] at h
      obtain ⟨_, c₂, hzero, hash, c₃, hhash, rfl, rfl⟩ := h
      exact (hkind.trans hzero).trans hhash
    | contract | liquidityPool =>
      simp only [bind_eq_ok, hash_read_eq_ok, pure_eq_ok] at h
      obtain ⟨hash, c₂, hhash, rfl, rfl⟩ := h
      exact hkind.trans hhash
    | muxedAccount =>
      simp only [bind_eq_ok, uint64_eq_ok, hash_read_eq_ok, pure_eq_ok] at h
      obtain ⟨id, c₂, hid, hash, c₃, hhash, rfl, rfl⟩ := h
      exact (hkind.trans hid).trans hhash
  · intro h
    refine ⟨address.kind, ?_⟩
    cases address with
    | account hash | claimableBalance hash =>
      simp only [encode, List.append_assoc, passes_append_iff] at h
      obtain ⟨c₁, hkind, c₂, hzero, hhash⟩ := h
      refine ⟨c₁, hkind, ?_⟩
      simp only [kind, bind_eq_ok, readZero_eq_ok, hash_read_eq_ok, pure_eq_ok]
      exact ⟨(), c₂, hzero, hash, c', hhash, rfl, rfl⟩
    | contract hash | liquidityPool hash =>
      obtain ⟨c₁, hkind, hhash⟩ := passes_append_iff.1 h
      refine ⟨c₁, hkind, ?_⟩
      simp only [kind, bind_eq_ok, hash_read_eq_ok, pure_eq_ok]
      exact ⟨hash, c', hhash, rfl, rfl⟩
    | muxedAccount id hash =>
      simp only [encode, List.append_assoc, passes_append_iff] at h
      obtain ⟨c₁, hkind, c₂, hid, hhash⟩ := h
      refine ⟨c₁, hkind, ?_⟩
      simp only [kind, bind_eq_ok, uint64_eq_ok, hash_read_eq_ok, pure_eq_ok]
      exact ⟨id, c₂, hid, hash, c', hhash, rfl, rfl⟩

theorem Executable.read_eq_ok {executable : Executable} :
    Executable.read c = .ok executable c' ↔ c.Passes executable.encode c' := by
  simp only [read, bind_eq_ok, readTag_eq_ok numbers_executable]
  constructor
  · rintro ⟨stored, c₁, hstored, h⟩
    cases stored with
    | true =>
      simp only [if_true, bind_eq_ok, hash_read_eq_ok, pure_eq_ok] at h
      obtain ⟨hash, c₂, hhash, rfl, rfl⟩ := h
      exact hstored.trans hhash
    | false =>
      obtain ⟨rfl, rfl⟩ := pure_eq_ok.1 h
      exact hstored
  · intro h
    cases executable with
    | wasm hash =>
      obtain ⟨c₁, hstored, hhash⟩ := passes_append_iff.1 h
      refine ⟨true, c₁, hstored, ?_⟩
      simp only [if_true, bind_eq_ok, hash_read_eq_ok, pure_eq_ok]
      exact ⟨hash, c', hhash, rfl, rfl⟩
    | stellarAsset => exact ⟨false, c', h, rfl⟩

theorem ErrorValue.read_eq_ok {error : ErrorValue} :
    ErrorValue.read c = .ok error c' ↔ c.Passes error.encode c' := by
  simp only [read, bind_eq_ok, readTag_eq_ok numbers_source]
  constructor
  · rintro ⟨source, c₁, hsource, h⟩
    cases source with
    | none =>
      simp only [bind_eq_ok, uint32_eq_ok, pure_eq_ok] at h
      obtain ⟨code, c₂, hcode, rfl, rfl⟩ := h
      exact hsource.trans hcode
    | some part =>
      simp only [bind_eq_ok, int32_eq_ok, pure_eq_ok] at h
      obtain ⟨code, c₂, hcode, rfl, rfl⟩ := h
      exact hsource.trans hcode
  · intro h
    cases error with
    | contract code =>
      obtain ⟨c₁, hsource, hcode⟩ := passes_append_iff.1 h
      refine ⟨none, c₁, hsource, ?_⟩
      simp only [bind_eq_ok, uint32_eq_ok, pure_eq_ok]
      exact ⟨code, c', hcode, rfl, rfl⟩
    | host part code =>
      obtain ⟨c₁, hsource, hcode⟩ := passes_append_iff.1 h
      refine ⟨some part, c₁, hsource, ?_⟩
      simp only [bind_eq_ok, int32_eq_ok, pure_eq_ok]
      exact ⟨code, c', hcode, rfl, rfl⟩

/-! ### Wide numbers -/

/-- A wide number has two halves. -/
lemma exists_eq_append {width : Nat} (n : BitVec (width + width)) :
    ∃ high low : BitVec width, n = high ++ low := by
  refine ⟨n.extractLsb' width width, n.extractLsb' 0 width, ?_⟩
  apply BitVec.eq_of_getLsbD_eq
  intro i hi
  rw [BitVec.getLsbD_append]
  by_cases h : i < width
  · simp [h]
  · have hhigh : i - width < width := by omega
    have hplace : width + (i - width) = i := by omega
    simp [h, hhigh, hplace]

/-- The law for a number that is read in two halves. -/
lemma halves_eq_ok {α : Type} {width : Nat} (size : Nat) (hwidth : width = 8 * size)
    {half : Reader α} (value : α → BitVec width)
    (hhalf : Reads half (fun _ => True) fun a => ofWide (value a))
    (hvalue : ∀ n, ∃ a, value a = n) {n : BitVec (width + width)} :
    (do
      let high ← half
      let low ← half
      return value high ++ value low : Reader (BitVec (width + width))) c = .ok n c' ↔
      c.Passes (ofWide n) c' := by
  simp only [bind_eq_ok, hhalf.eq_ok, true_and, pure_eq_ok]
  constructor
  · rintro ⟨high, c₁, hhigh, low, c₂, hlow, rfl, rfl⟩
    rw [ofWide_append hwidth]
    exact hhigh.trans hlow
  · intro h
    obtain ⟨x, y, rfl⟩ := exists_eq_append n
    obtain ⟨high, rfl⟩ := hvalue x
    obtain ⟨low, rfl⟩ := hvalue y
    rw [ofWide_append hwidth, passes_append_iff] at h
    obtain ⟨c₁, hhigh, hlow⟩ := h
    exact ⟨high, c₁, hhigh, low, c', hlow, rfl, rfl⟩

namespace Value

lemma read128_eq_ok {n : BitVec 128} : read128 c = .ok n c' ↔ c.Passes (ofWide n) c' := by
  refine halves_eq_ok 8 rfl UInt64.toBitVec ?_ ?_
  · intro c n c'
    rw [uint64_eq_ok, true_and]
    rfl
  · exact fun n => ⟨.ofBitVec n, rfl⟩

lemma read256_eq_ok {n : BitVec 256} : read256 c = .ok n c' ↔ c.Passes (ofWide n) c' := by
  refine halves_eq_ok 16 rfl id ?_ ?_
  · intro c n c'
    rw [read128_eq_ok, true_and]
    rfl
  · exact fun n => ⟨n, rfl⟩

/-! ### Values -/

/-- What is read behind the kind of a value. -/
def readBody (levels : Nat) : ValueKind → Reader Value
  | .bool => return .bool (← Xdr.Reader.boolean)
  | .void => return .void
  | .error => return .error (← ErrorValue.read)
  | .u32 => return .u32 (← Xdr.Reader.uint32)
  | .i32 => return .i32 (← Xdr.Reader.int32)
  | .u64 => return .u64 (← Xdr.Reader.uint64)
  | .i64 => return .i64 (← Xdr.Reader.int64)
  | .timepoint => return .timepoint (← Xdr.Reader.uint64)
  | .duration => return .duration (← Xdr.Reader.uint64)
  | .u128 => return .u128 (← read128)
  | .i128 => return .i128 (← read128)
  | .u256 => return .u256 (← read256)
  | .i256 => return .i256 (← read256)
  | .bytes => return .bytes (← Xdr.Reader.counted none)
  | .string => return .string (← Xdr.Reader.counted none)
  | .symbol => return .symbol (← Xdr.Reader.counted symbolLimit)
  | .vec => return .vec (← Xdr.Reader.optional (Xdr.Reader.array none (readWithin levels)))
  | .map => return .map (← Xdr.Reader.optional (readEntries (readWithin levels)))
  | .address => return .address (← Address.read)
  | .contractInstance => do
    let executable ← Executable.read
    let storage ← Xdr.Reader.optional (readEntries (readWithin levels))
    return .contractInstance executable storage
  | .ledgerKeyContractInstance => return .ledgerKeyContractInstance
  | .ledgerKeyNonce => return .ledgerKeyNonce (← Xdr.Reader.int64)

lemma readWithin_succ_eq_ok {levels : Nat} {value : Value} :
    readWithin (levels + 1) c = .ok value c' ↔
      ∃ kind c₁, c.Passes (ofInt32 (ValueKind.written kind)) c₁ ∧
        readBody levels kind c₁ = .ok value c' := by
  simp only [readWithin, bind_eq_ok, readTag_eq_ok numbers_value]
  refine exists_congr fun kind => exists_congr fun c₁ => and_congr_right fun _ => ?_
  cases kind <;> rfl

/-- A value with so many levels inside that reading it opens no more than the levels left. -/
def FitsWithin (levels : Nat) (value : Value) : Prop :=
  value.Bounded ∧ value.height < levels

/-- Values that an array may hold with given levels left. -/
def ItemsFit (levels : Nat) (items : List Value) : Prop :=
  items.length < UInt32.size ∧ ∀ item ∈ items, item.FitsWithin levels

/-- Keys and values that a map may hold with given levels left. -/
def EntriesFit (levels : Nat) (entries : List (Value × Value)) : Prop :=
  entries.length < UInt32.size ∧
    ∀ entry ∈ entries, entry.1.FitsWithin levels ∧ entry.2.FitsWithin levels

lemma fitsWithin_vec_iff {levels : Nat} {items : Option (List Value)} :
    (vec items).FitsWithin (levels + 1) ↔ ∀ list ∈ items, ItemsFit levels list := by
  cases items with
  | none => simp [FitsWithin, Bounded, height]
  | some items =>
    simp only [FitsWithin, Bounded, height, heightOf_lt_iff, boundedAll_iff, Option.mem_some_iff,
      forall_eq', ItemsFit]
    constructor
    · rintro ⟨⟨hlen, hbounded⟩, hheight⟩
      exact ⟨hlen, fun item h => ⟨hbounded item h, hheight item h⟩⟩
    · rintro ⟨hlen, hitems⟩
      exact ⟨⟨hlen, fun item h => (hitems item h).1⟩, fun item h => (hitems item h).2⟩

/-- The keys and values of a map, or of the storage of a contract. -/
lemma entriesFit_iff {levels : Nat} {entries : List (Value × Value)} :
    EntriesFit levels entries ↔
      (entries.length < UInt32.size ∧ BoundedPairs entries) ∧
        heightOfPairs entries < levels + 1 := by
  simp only [EntriesFit, FitsWithin, heightOfPairs_lt_iff, boundedPairs_iff]
  constructor
  · rintro ⟨hlen, hentries⟩
    refine ⟨⟨hlen, fun entry h => ?_⟩, fun entry h => ?_⟩
    · exact ⟨(hentries entry h).1.1, (hentries entry h).2.1⟩
    · exact ⟨(hentries entry h).1.2, (hentries entry h).2.2⟩
  · rintro ⟨⟨hlen, hbounded⟩, hheight⟩
    refine ⟨hlen, fun entry h => ⟨?_, ?_⟩⟩
    · exact ⟨(hbounded entry h).1, (hheight entry h).1⟩
    · exact ⟨(hbounded entry h).2, (hheight entry h).2⟩

lemma fitsWithin_map_iff {levels : Nat} {entries : Option (List (Value × Value))} :
    (map entries).FitsWithin (levels + 1) ↔ ∀ list ∈ entries, EntriesFit levels list := by
  cases entries with
  | none => simp [FitsWithin, Bounded, height]
  | some entries =>
    simp only [Option.mem_some_iff, forall_eq', entriesFit_iff]
    rfl

lemma fitsWithin_contractInstance_iff {levels : Nat} {executable : Executable}
    {storage : Option (List (Value × Value))} :
    (contractInstance executable storage).FitsWithin (levels + 1) ↔
      ∀ list ∈ storage, EntriesFit levels list := by
  cases storage with
  | none => simp [FitsWithin, Bounded, height]
  | some entries =>
    simp only [Option.mem_some_iff, forall_eq', entriesFit_iff]
    rfl

lemma fitsCount_symbol_iff {count : Nat} : FitsCount symbolLimit count ↔ count ≤ 32 :=
  fitsCount_some_iff rfl (by decide)

section

variable {levels : Nat} (hread : Reads (readWithin levels) (FitsWithin levels) encode)

include hread

lemma reads_items :
    Reads (Xdr.Reader.array none (readWithin levels)) (ItemsFit levels) (ofArray encode) := by
  intro c items c'
  rw [array_eq_ok hread four_le_length_encode, fitsCount_none_iff, ItemsFit]

lemma reads_entries :
    Reads (readEntries (readWithin levels)) (EntriesFit levels) (ofArray encodePair) := by
  have hpair : Reads (do
      let key ← readWithin levels
      let value ← readWithin levels
      return (key, value) : Reader (Value × Value))
      (fun entry => entry.1.FitsWithin levels ∧ entry.2.FitsWithin levels) encodePair := by
    intro c entry c'
    simp only [bind_eq_ok, hread.eq_ok, pure_eq_ok, encodePair, passes_append_iff]
    constructor
    · rintro ⟨key, c₁, ⟨hkey, h₁⟩, value, c₂, ⟨hvalue, h₂⟩, rfl, rfl⟩
      exact ⟨⟨hkey, hvalue⟩, c₁, h₁, h₂⟩
    · rintro ⟨⟨hkey, hvalue⟩, c₁, h₁, h₂⟩
      exact ⟨entry.1, c₁, ⟨hkey, h₁⟩, entry.2, c', ⟨hvalue, h₂⟩, rfl, rfl⟩
  intro c entries c'
  rw [readEntries, array_eq_ok hpair four_le_length_encodePair, fitsCount_none_iff, EntriesFit]

/-- What is read behind a kind is the rest of a value of that kind. -/
lemma readBody_sound (hin : c.offset ≤ c.size) {kind : ValueKind} {value : Value}
    (h : readBody levels kind c = .ok value c') :
    value.kind = kind ∧ value.FitsWithin (levels + 1) ∧ c.Passes value.encodeBody c' := by
  have hitems := (reads_items hread).optional
  have hentries := (reads_entries hread).optional
  cases kind with
  | void | ledgerKeyContractInstance =>
    obtain ⟨rfl, rfl⟩ := pure_eq_ok.1 h
    exact ⟨rfl, ⟨trivial, Nat.succ_pos _⟩, Passes.refl hin⟩
  | bool | error | u32 | i32 | u64 | i64 | timepoint | duration | u128 | i128 | u256 | i256
  | address | ledgerKeyNonce =>
    simp only [readBody, bind_eq_ok, boolean_eq_ok, ErrorValue.read_eq_ok, uint32_eq_ok,
      int32_eq_ok, uint64_eq_ok, int64_eq_ok, read128_eq_ok, read256_eq_ok, Address.read_eq_ok,
      pure_eq_ok] at h
    obtain ⟨n, c₁, hpass, rfl, rfl⟩ := h
    exact ⟨rfl, ⟨trivial, Nat.succ_pos _⟩, hpass⟩
  | bytes | string | symbol =>
    simp only [readBody, bind_eq_ok, counted_eq_ok, fitsCount_none_iff, fitsCount_symbol_iff,
      pure_eq_ok] at h
    obtain ⟨content, c₁, ⟨hlen, hpass⟩, rfl, rfl⟩ := h
    exact ⟨rfl, ⟨hlen, Nat.succ_pos _⟩, hpass⟩
  | vec =>
    simp only [readBody, bind_eq_ok, hitems.eq_ok, pure_eq_ok] at h
    obtain ⟨items, c₁, ⟨hfits, hpass⟩, rfl, rfl⟩ := h
    rw [fitsWithin_vec_iff, encodeBody_vec]
    exact ⟨rfl, hfits, hpass⟩
  | map =>
    simp only [readBody, bind_eq_ok, hentries.eq_ok, pure_eq_ok] at h
    obtain ⟨entries, c₁, ⟨hfits, hpass⟩, rfl, rfl⟩ := h
    rw [fitsWithin_map_iff, encodeBody_map]
    exact ⟨rfl, hfits, hpass⟩
  | contractInstance =>
    simp only [readBody, bind_eq_ok, Executable.read_eq_ok, hentries.eq_ok, pure_eq_ok] at h
    obtain ⟨executable, c₁, hpass, storage, c₂, ⟨hfits, hpass'⟩, rfl, rfl⟩ := h
    rw [fitsWithin_contractInstance_iff, encodeBody_contractInstance]
    exact ⟨rfl, hfits, hpass.trans hpass'⟩

/-- The rest of a value is read behind its kind. -/
lemma readBody_complete {value : Value} (hfits : value.FitsWithin (levels + 1))
    (h : c.Passes value.encodeBody c') : readBody levels value.kind c = .ok value c' := by
  have hitems := (reads_items hread).optional
  have hentries := (reads_entries hread).optional
  cases value with
  | void | ledgerKeyContractInstance =>
    obtain ⟨-, rfl⟩ := passes_nil_iff.1 h
    rfl
  | bool n | error n | u32 n | i32 n | u64 n | i64 n | timepoint n | duration n | u128 n | i128 n
  | u256 n | i256 n | address n | ledgerKeyNonce n =>
    simp only [kind, readBody, bind_eq_ok, boolean_eq_ok, ErrorValue.read_eq_ok, uint32_eq_ok,
      int32_eq_ok, uint64_eq_ok, int64_eq_ok, read128_eq_ok, read256_eq_ok, Address.read_eq_ok,
      pure_eq_ok]
    exact ⟨n, c', h, rfl, rfl⟩
  | bytes content | string content | symbol content =>
    simp only [kind, readBody, bind_eq_ok, counted_eq_ok, fitsCount_none_iff,
      fitsCount_symbol_iff, pure_eq_ok]
    exact ⟨content, c', ⟨hfits.1, h⟩, rfl, rfl⟩
  | vec items =>
    rw [fitsWithin_vec_iff] at hfits
    rw [encodeBody_vec] at h
    simp only [kind, readBody, bind_eq_ok, hitems.eq_ok, pure_eq_ok]
    exact ⟨items, c', ⟨hfits, h⟩, rfl, rfl⟩
  | map entries =>
    rw [fitsWithin_map_iff] at hfits
    rw [encodeBody_map] at h
    simp only [kind, readBody, bind_eq_ok, hentries.eq_ok, pure_eq_ok]
    exact ⟨entries, c', ⟨hfits, h⟩, rfl, rfl⟩
  | contractInstance executable storage =>
    rw [fitsWithin_contractInstance_iff] at hfits
    rw [encodeBody_contractInstance, passes_append_iff] at h
    obtain ⟨c₁, hexecutable, hstorage⟩ := h
    simp only [kind, readBody, bind_eq_ok, Executable.read_eq_ok, hentries.eq_ok, pure_eq_ok]
    exact ⟨executable, c₁, hexecutable, storage, c', ⟨hfits, hstorage⟩, rfl, rfl⟩

end

/-- **The law for values.**  With given levels left, exactly the values are read that open no more
levels. -/
theorem readWithin_eq_ok {levels : Nat} {value : Value} :
    readWithin levels c = .ok value c' ↔ value.FitsWithin levels ∧ c.Passes value.encode c' := by
  induction levels generalizing value c c' with
  | zero =>
    rw [readWithin]
    simp [FitsWithin]
  | succ levels ih =>
    -- what a value holds is read with one level less, for which the law is known
    have hread : Reads (readWithin levels) (FitsWithin levels) encode := fun _ _ _ => ih
    rw [readWithin_succ_eq_ok]
    constructor
    · rintro ⟨kind, c₁, hkind, h⟩
      obtain ⟨rfl, hfits, hpass⟩ := readBody_sound hread hkind.inside_right h
      exact ⟨hfits, hkind.trans hpass⟩
    · rintro ⟨hfits, h⟩
      obtain ⟨c₁, hkind, hpass⟩ := passes_append_iff.1 h
      exact ⟨value.kind, c₁, hkind, readBody_complete hread hfits hpass⟩

theorem read_eq_ok {value : Value} :
    read c = .ok value c' ↔ value.Fits ∧ c.Passes value.encode c' := by
  have hfits : value.FitsWithin (maxDepth + 1) ↔ value.Fits :=
    ⟨fun h => ⟨h.1, Nat.le_of_lt_succ h.2⟩, fun h => ⟨h.bounded, Nat.lt_succ_of_le h.height_le⟩⟩
  rw [← hfits]
  exact readWithin_eq_ok

end Value

end ContractInterface.Ledger
