/-
# The written form of ledger records

Each record, and each value inside one, has one written form.  `Fits` says which of them a ledger
may hold: byte strings and arrays whose lengths their 32-bit counts can say, symbols of at most 32
bytes, values nested at most 128 deep, and costs of ten numbers.  What fits is decidable.

A server sends a record bare or in an envelope; `Served` is the choice, with what an envelope adds.
-/
import ContractInterface.Ledger.Entry
import ContractInterface.Proofs.Bytes.Number
import ContractInterface.Proofs.Xdr.Form

namespace ContractInterface.Ledger

open Xdr

/-! ### Tags -/

/-- The tag that a kind of record is written with. -/
def EntryKind.written : EntryKind → Int32
  | .account => 0
  | .trustline => 1
  | .offer => 2
  | .data => 3
  | .claimableBalance => 4
  | .liquidityPool => 5
  | .contractData => 6
  | .contractCode => 7
  | .configSetting => 8
  | .ttl => 9

/-- The tag that a kind of address is written with. -/
def AddressKind.written : AddressKind → Int32
  | .account => 0
  | .contract => 1
  | .muxedAccount => 2
  | .claimableBalance => 3
  | .liquidityPool => 4

/-- The tag that a kind of value is written with. -/
def ValueKind.written : ValueKind → Int32
  | .bool => 0
  | .void => 1
  | .error => 2
  | .u32 => 3
  | .i32 => 4
  | .u64 => 5
  | .i64 => 6
  | .timepoint => 7
  | .duration => 8
  | .u128 => 9
  | .i128 => 10
  | .u256 => 11
  | .i256 => 12
  | .bytes => 13
  | .string => 14
  | .symbol => 15
  | .vec => 16
  | .map => 17
  | .address => 18
  | .contractInstance => 19
  | .ledgerKeyContractInstance => 20
  | .ledgerKeyNonce => 21

/-- The tag that the source of an error is written with; `none` is a contract. -/
def writtenSource : Option HostPart → Int32
  | none => 0
  | some .wasmVm => 1
  | some .context => 2
  | some .storage => 3
  | some .object => 4
  | some .crypto => 5
  | some .events => 6
  | some .budget => 7
  | some .value => 8
  | some .auth => 9

/-- The tag that a durability is written with. -/
def Durability.written : Durability → Int32
  | .temporary => 0
  | .persistent => 1

/-! ### Parts of values -/

@[simp] lemma length_encode_hash (hash : Hash) : hash.encode.length = 32 := by
  have hdvd : 4 ∣ hash.bytes.length := by
    rw [hash.length_eq]
    decide
  rw [Hash.encode, ofFixed_of_dvd hdvd, hash.length_eq]

/-- The written form of an address: its kind, a zero where a kind has versions, and its bytes. -/
def Address.encode : Address → Bytes
  | .account key => ofInt32 0 ++ ofInt32 0 ++ key.encode
  | .contract id => ofInt32 1 ++ id.encode
  | .muxedAccount id key => ofInt32 2 ++ ofUInt64 id ++ key.encode
  | .claimableBalance id => ofInt32 3 ++ ofInt32 0 ++ id.encode
  | .liquidityPool id => ofInt32 4 ++ id.encode

/-- The written form of an executable. -/
def Executable.encode : Executable → Bytes
  | .wasm hash => ofInt32 0 ++ hash.encode
  | .stellarAsset => ofInt32 1

/-- The written form of an error: its source, and its code. -/
def ErrorValue.encode : ErrorValue → Bytes
  | .contract code => ofInt32 0 ++ ofUInt32 code
  | .host part code => ofInt32 (writtenSource (some part)) ++ ofInt32 code

/-- A number of many bits, in two's complement if it has a sign. -/
def ofWide {width : Nat} (n : BitVec width) : Bytes :=
  Bytes.ofNat (width / 8) n.toNat

/-- A wide number is written as its two halves, the higher one first. -/
lemma ofWide_append {width size : Nat} (hwidth : width = 8 * size) (high low : BitVec width) :
    ofWide (high ++ low) = ofWide high ++ ofWide low := by
  have hbound : Bytes.bound size = 2 ^ width := by rw [Bytes.bound_eq_two_pow, hwidth]
  have hlow : low.toNat < Bytes.bound size := by
    rw [hbound]
    exact low.isLt
  have hsize : (width + width) / 8 = size + size := by omega
  have hhalf : width / 8 = size := by omega
  have hsum : (high ++ low).toNat = low.toNat + Bytes.bound size * high.toNat := by
    rw [BitVec.toNat_append, ← Nat.shiftLeft_add_eq_or_of_lt low.isLt, Nat.shiftLeft_eq, hbound]
    ring
  have hquot : (high ++ low).toNat / Bytes.bound size = high.toNat := by
    rw [hsum, Nat.add_mul_div_left _ _ (Nat.zero_lt_of_lt hlow), Nat.div_eq_of_lt hlow,
      Nat.zero_add]
  have hrest : (high ++ low).toNat % Bytes.bound size = low.toNat := by
    rw [hsum, Nat.add_mul_mod_self_left, Nat.mod_eq_of_lt hlow]
  rw [ofWide, ofWide, ofWide, hsize, hhalf, Bytes.ofNat_add, hquot,
    ← Bytes.ofNat_mod_bound size (high ++ low).toNat, hrest]

/-! ### Values -/

namespace Value

mutual

/-- What is written behind the kind of a value. -/
def encodeBody : Value → Bytes
  | .bool b => ofBool b
  | .void | .ledgerKeyContractInstance => []
  | .error reported => reported.encode
  | .u32 n => ofUInt32 n
  | .i32 n => ofInt32 n
  | .u64 n | .timepoint n | .duration n => ofUInt64 n
  | .i64 n | .ledgerKeyNonce n => ofInt64 n
  | .u128 n | .i128 n => ofWide n
  | .u256 n | .i256 n => ofWide n
  | .bytes content | .string content | .symbol content => ofCounted content
  | .address named => named.encode
  | .vec none | .map none => ofBool false
  | .vec (some items) =>
    ofBool true ++ ofUInt32 (UInt32.ofNat items.length) ++ encodeAll items
  | .map (some entries) =>
    ofBool true ++ ofUInt32 (UInt32.ofNat entries.length) ++ encodePairs entries
  | .contractInstance executable none => executable.encode ++ ofBool false
  | .contractInstance executable (some entries) =>
    executable.encode ++ ofBool true ++ ofUInt32 (UInt32.ofNat entries.length) ++
      encodePairs entries

/-- The written forms of values, one after the other. -/
def encodeAll : List Value → Bytes
  | [] => []
  | value :: values => ofInt32 value.kind.written ++ encodeBody value ++ encodeAll values

/-- The written forms of keys and values, one after the other. -/
def encodePairs : List (Value × Value) → Bytes
  | [] => []
  | (key, value) :: entries =>
    ofInt32 key.kind.written ++ encodeBody key ++
      (ofInt32 value.kind.written ++ encodeBody value) ++ encodePairs entries

end

/-- The written form of a value: its kind, and what that kind holds. -/
def encode (value : Value) : Bytes :=
  ofInt32 value.kind.written ++ value.encodeBody

/-- The written form of an entry of a map. -/
def encodePair (entry : Value × Value) : Bytes :=
  entry.1.encode ++ entry.2.encode

mutual

/-- The number of levels inside a value: none where it holds no other value. -/
def height {α : Type} : Value α → Nat
  | .vec (some items) => heightOf items
  | .map (some entries) | .contractInstance _ (some entries) => heightOfPairs entries
  | _ => 0

/-- The number of levels inside a value that holds given ones. -/
def heightOf {α : Type} : List (Value α) → Nat
  | [] => 0
  | value :: values => max (height value + 1) (heightOf values)

/-- The number of levels inside a value that holds given keys and values. -/
def heightOfPairs {α : Type} : List (Value α × Value α) → Nat
  | [] => 0
  | (key, value) :: entries => max (max (height key + 1) (height value + 1)) (heightOfPairs entries)

end

mutual

/-- Whether the byte strings and the arrays in a value keep to their limits. -/
def Bounded : Value → Prop
  | .bytes content | .string content => content.length < UInt32.size
  | .symbol content => content.length ≤ 32
  | .vec (some items) => items.length < UInt32.size ∧ BoundedAll items
  | .map (some entries) | .contractInstance _ (some entries) =>
    entries.length < UInt32.size ∧ BoundedPairs entries
  | _ => True

/-- Whether given values keep to their limits. -/
def BoundedAll : List Value → Prop
  | [] => True
  | value :: values => Bounded value ∧ BoundedAll values

/-- Whether given keys and values keep to their limits. -/
def BoundedPairs : List (Value × Value) → Prop
  | [] => True
  | (key, value) :: entries => (Bounded key ∧ Bounded value) ∧ BoundedPairs entries

end

/-- A value that a ledger may hold. -/
structure Fits (value : Value) : Prop where
  bounded : value.Bounded
  height_le : value.height ≤ 128

lemma encodeAll_eq_flatMap (values : List Value) : encodeAll values = values.flatMap encode := by
  induction values with
  | nil => rfl
  | cons value values ih => rw [encodeAll, ih, List.flatMap_cons, encode]

lemma encodePairs_eq_flatMap (entries : List (Value × Value)) :
    encodePairs entries = entries.flatMap encodePair := by
  induction entries with
  | nil => rfl
  | cons entry entries ih => rw [encodePairs, ih, List.flatMap_cons, encodePair, encode, encode]

lemma encodeBody_vec (items : Option (List Value)) :
    (vec items).encodeBody = ofOptional (ofArray encode) items := by
  cases items with
  | none => rfl
  | some items => rw [encodeBody, encodeAll_eq_flatMap, ofOptional, ofArray, List.append_assoc]

lemma encodeBody_map (entries : Option (List (Value × Value))) :
    (map entries).encodeBody = ofOptional (ofArray encodePair) entries := by
  cases entries with
  | none => rfl
  | some entries =>
    rw [encodeBody, encodePairs_eq_flatMap, ofOptional, ofArray, List.append_assoc]

lemma encodeBody_contractInstance (executable : Executable)
    (storage : Option (List (Value × Value))) :
    (contractInstance executable storage).encodeBody =
      executable.encode ++ ofOptional (ofArray encodePair) storage := by
  cases storage with
  | none => rfl
  | some entries =>
    rw [encodeBody, encodePairs_eq_flatMap, ofOptional, ofArray]
    simp only [List.append_assoc]

lemma four_le_length_encode (value : Value) : 4 ≤ value.encode.length := by
  rw [encode, List.length_append, length_ofInt32]
  omega

lemma four_le_length_encodePair (entry : Value × Value) : 4 ≤ (encodePair entry).length := by
  have hkey := four_le_length_encode entry.1
  rw [encodePair, List.length_append]
  omega

lemma boundedAll_iff {values : List Value} :
    BoundedAll values ↔ ∀ value ∈ values, value.Bounded := by
  induction values with
  | nil => simp [BoundedAll]
  | cons value values ih => rw [BoundedAll, ih, List.forall_mem_cons]

lemma boundedPairs_iff {entries : List (Value × Value)} :
    BoundedPairs entries ↔ ∀ entry ∈ entries, entry.1.Bounded ∧ entry.2.Bounded := by
  induction entries with
  | nil => simp [BoundedPairs]
  | cons entry entries ih => rw [BoundedPairs, ih, List.forall_mem_cons]

lemma heightOf_lt_iff {α : Type} {values : List (Value α)} {levels : Nat} :
    heightOf values < levels + 1 ↔ ∀ value ∈ values, value.height < levels := by
  induction values with
  | nil => simp [heightOf]
  | cons value values ih =>
    rw [heightOf, List.forall_mem_cons, ← ih]
    omega

lemma heightOfPairs_lt_iff {α : Type} {entries : List (Value α × Value α)} {levels : Nat} :
    heightOfPairs entries < levels + 1 ↔
      ∀ entry ∈ entries, entry.1.height < levels ∧ entry.2.height < levels := by
  induction entries with
  | nil => simp [heightOfPairs]
  | cons entry entries ih =>
    rw [heightOfPairs, List.forall_mem_cons, ← ih]
    omega

end Value

/-! ### Records -/

/-- The written form of contract data. -/
def ContractData.encode (record : ContractData) : Bytes :=
  ofInt32 0 ++ record.contract.encode ++ record.key.encode ++ ofInt32 record.durability.written ++
    record.val.encode

/-- Contract data that a ledger may hold. -/
structure ContractData.Fits (record : ContractData) : Prop where
  key : record.key.Fits
  val : record.val.Fits

/-- The written form of the costs of code: none under the version zero, and behind two zeros under
the version one. -/
def encodeCosts : Option (List UInt32) → Bytes
  | none => ofInt32 0
  | some costs => ofInt32 1 ++ ofInt32 0 ++ ofInt32 0 ++ costs.flatMap ofUInt32

/-- The written form of contract code. -/
def ContractCode.encode (record : ContractCode) : Bytes :=
  encodeCosts record.costInputs ++ record.hash.encode ++ ofCounted record.code

/-- Contract code that a ledger may hold. -/
structure ContractCode.Fits (record : ContractCode) : Prop where
  costs : ∀ costs ∈ record.costInputs, costs.length = 10
  code : record.code.length < UInt32.size

/-- The written form of a lifetime. -/
def Ttl.encode (record : Ttl) : Bytes :=
  record.keyHash.encode ++ ofUInt32 record.liveUntil

namespace EntryData

/-- What is written behind the kind of a record. -/
def encodeBody : EntryData → Bytes
  | .contractData record => record.encode
  | .contractCode record => record.encode
  | .ttl record => record.encode
  | .undecoded _ => []

/-- The written form of a record. -/
def encode (data : EntryData) : Bytes :=
  ofInt32 data.kind.written ++ data.encodeBody

/-- A record of a kind whose body is read, and that a ledger may hold. -/
def Fits : EntryData → Prop
  | .contractData record => record.Fits
  | .contractCode record => record.Fits
  | .ttl _ => True
  | .undecoded _ => False

end EntryData

/-! ### Deciding what fits -/

namespace Value

mutual

def decidableBounded : (value : Value) → Decidable value.Bounded
  | .bytes content | .string content => inferInstanceAs (Decidable (content.length < UInt32.size))
  | .symbol content => inferInstanceAs (Decidable (content.length ≤ 32))
  | .vec (some items) =>
    have := decidableBoundedAll items
    inferInstanceAs (Decidable (items.length < UInt32.size ∧ BoundedAll items))
  | .map (some entries) | .contractInstance _ (some entries) =>
    have := decidableBoundedPairs entries
    inferInstanceAs (Decidable (entries.length < UInt32.size ∧ BoundedPairs entries))
  | .bool _ | .void | .error _ | .u32 _ | .i32 _ | .u64 _ | .i64 _ | .timepoint _ | .duration _
  | .u128 _ | .i128 _ | .u256 _ | .i256 _ | .vec none | .map none | .address _
  | .contractInstance _ none | .ledgerKeyContractInstance | .ledgerKeyNonce _ => isTrue trivial

def decidableBoundedAll : (values : List Value) → Decidable (BoundedAll values)
  | [] => isTrue trivial
  | value :: values =>
    have := decidableBounded value
    have := decidableBoundedAll values
    inferInstanceAs (Decidable (Bounded value ∧ BoundedAll values))

def decidableBoundedPairs : (entries : List (Value × Value)) → Decidable (BoundedPairs entries)
  | [] => isTrue trivial
  | (key, value) :: entries =>
    have := decidableBounded key
    have := decidableBounded value
    have := decidableBoundedPairs entries
    inferInstanceAs (Decidable ((Bounded key ∧ Bounded value) ∧ BoundedPairs entries))

end

instance (value : Value) : Decidable value.Bounded :=
  decidableBounded value

instance (value : Value) : Decidable value.Fits :=
  decidable_of_iff (value.Bounded ∧ value.height ≤ 128) ⟨fun h => ⟨h.1, h.2⟩, fun h => ⟨h.1, h.2⟩⟩

end Value

instance (record : ContractData) : Decidable record.Fits :=
  decidable_of_iff (record.key.Fits ∧ record.val.Fits) ⟨fun h => ⟨h.1, h.2⟩, fun h => ⟨h.1, h.2⟩⟩

instance (record : ContractCode) : Decidable record.Fits :=
  decidable_of_iff
    ((∀ costs ∈ record.costInputs, costs.length = 10) ∧ record.code.length < UInt32.size)
    ⟨fun h => ⟨h.1, h.2⟩, fun h => ⟨h.1, h.2⟩⟩

instance : DecidablePred EntryData.Fits
  | .contractData record => inferInstanceAs (Decidable record.Fits)
  | .contractCode record => inferInstanceAs (Decidable record.Fits)
  | .ttl _ => isTrue trivial
  | .undecoded _ => isFalse id

/-! ### How records are served -/

/-- What follows a record in its envelope: nothing but a version, or who pays for it, if anyone. -/
inductive Extension where
  | plain
  | sponsored (sponsor : Option Hash)
deriving DecidableEq

namespace Extension

/-- Who pays for the record. -/
def sponsor : Extension → Option Hash
  | .plain => none
  | .sponsored sponsor => sponsor

/-- The written form of a public key. -/
def encodeKey (key : Hash) : Bytes :=
  ofInt32 0 ++ key.encode

/-- The written form of what follows a record. -/
def encode : Extension → Bytes
  | .plain => ofInt32 0
  | .sponsored sponsor => ofInt32 1 ++ ofOptional encodeKey sponsor ++ ofInt32 0

end Extension

/-- How a server sends a record. -/
inductive Served where
  | envelope (lastModified : UInt32) (extension : Extension)
  | bare
deriving DecidableEq

/-- The bytes that are sent for a record. -/
def Served.encode (data : EntryData) : Served → Bytes
  | .envelope lastModified extension =>
    ofUInt32 lastModified ++ data.encode ++ extension.encode
  | .bare => data.encode

end ContractInterface.Ledger
