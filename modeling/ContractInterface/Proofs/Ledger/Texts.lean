/-
# Records with texts

A reader leaves the texts in a value as bytes.  Here they are texts, which a ledger writes as UTF-8,
and `shown` is what a reader sees of the bytes.  The main result is `EntryData.shown_utf8`: what is
written of a record shows that record.
-/
import ContractInterface.Ledger.Entry
import ContractInterface.Proofs.Bytes.Utf8

namespace ContractInterface.Ledger

variable {α β : Type}

namespace Value

mutual

/-- A value with other texts. -/
def mapText (f : α → β) : Value α → Value β
  | .bool b => .bool b
  | .void => .void
  | .error reported => .error reported
  | .u32 n => .u32 n
  | .i32 n => .i32 n
  | .u64 n => .u64 n
  | .i64 n => .i64 n
  | .timepoint n => .timepoint n
  | .duration n => .duration n
  | .u128 n => .u128 n
  | .i128 n => .i128 n
  | .u256 n => .u256 n
  | .i256 n => .i256 n
  | .bytes content => .bytes content
  | .string text => .string (f text)
  | .symbol text => .symbol (f text)
  | .vec none => .vec none
  | .vec (some items) => .vec (some (mapTexts f items))
  | .map none => .map none
  | .map (some entries) => .map (some (mapTextPairs f entries))
  | .address named => .address named
  | .contractInstance executable none => .contractInstance executable none
  | .contractInstance executable (some entries) =>
    .contractInstance executable (some (mapTextPairs f entries))
  | .ledgerKeyContractInstance => .ledgerKeyContractInstance
  | .ledgerKeyNonce n => .ledgerKeyNonce n

/-- Values with other texts. -/
def mapTexts (f : α → β) : List (Value α) → List (Value β)
  | [] => []
  | value :: values => mapText f value :: mapTexts f values

/-- Keys and values with other texts. -/
def mapTextPairs (f : α → β) : List (Value α × Value α) → List (Value β × Value β)
  | [] => []
  | (key, value) :: entries => (mapText f key, mapText f value) :: mapTextPairs f entries

end

/-- What a reader sees of a value: texts, with a replacement for each part that is none. -/
def shown (value : Value) : Value String :=
  value.mapText Utf8.decodeLossy

mutual

/-- What is written of a value shows that value. -/
lemma shown_mapText : ∀ value : Value String, (value.mapText Utf8.encode).shown = value
  | .bool _ | .void | .error _ | .u32 _ | .i32 _ | .u64 _ | .i64 _ | .timepoint _ | .duration _
  | .u128 _ | .i128 _ | .u256 _ | .i256 _ | .bytes _ | .vec none | .map none | .address _
  | .contractInstance _ none | .ledgerKeyContractInstance | .ledgerKeyNonce _ => rfl
  | .string text => by rw [mapText, shown, mapText, Utf8.decodeLossy_encode]
  | .symbol text => by rw [mapText, shown, mapText, Utf8.decodeLossy_encode]
  | .vec (some items) => by rw [mapText, shown, mapText, mapTexts_mapTexts items]
  | .map (some entries) => by rw [mapText, shown, mapText, mapTextPairs_mapTextPairs entries]
  | .contractInstance executable (some entries) => by
    rw [mapText, shown, mapText, mapTextPairs_mapTextPairs entries]

lemma mapTexts_mapTexts : ∀ values : List (Value String),
    mapTexts Utf8.decodeLossy (mapTexts Utf8.encode values) = values
  | [] => rfl
  | value :: values => by
    have hvalue := shown_mapText value
    rw [shown] at hvalue
    rw [mapTexts, mapTexts, hvalue, mapTexts_mapTexts values]

lemma mapTextPairs_mapTextPairs : ∀ entries : List (Value String × Value String),
    mapTextPairs Utf8.decodeLossy (mapTextPairs Utf8.encode entries) = entries
  | [] => rfl
  | (key, value) :: entries => by
    have hkey := shown_mapText key
    have hvalue := shown_mapText value
    rw [shown] at hkey hvalue
    rw [mapTextPairs, mapTextPairs, hkey, hvalue, mapTextPairs_mapTextPairs entries]

end

end Value

/-- Contract data with other texts. -/
def ContractData.mapText (f : α → β) (record : ContractData α) : ContractData β :=
  ⟨record.contract, record.key.mapText f, record.durability, record.val.mapText f⟩

namespace EntryData

/-- A record with other texts. -/
def mapText (f : α → β) : EntryData α → EntryData β
  | .contractData record => .contractData (record.mapText f)
  | .contractCode record => .contractCode record
  | .ttl record => .ttl record
  | .undecoded kind => .undecoded kind

/-- What a reader sees of a record. -/
def shown (data : EntryData) : EntryData String :=
  data.mapText Utf8.decodeLossy

/-- The record that a ledger holds for a record with texts. -/
def utf8 (data : EntryData String) : EntryData :=
  data.mapText Utf8.encode

/-- **What is written of a record shows that record.** -/
theorem shown_utf8 (data : EntryData String) : data.utf8.shown = data := by
  cases data with
  | contractData record =>
    have hkey := record.key.shown_mapText
    have hval := record.val.shown_mapText
    rw [Value.shown] at hkey hval
    simp only [shown, utf8, mapText, ContractData.mapText, hkey, hval]
  | contractCode record => rfl
  | ttl record => rfl
  | undecoded kind => rfl

end EntryData

end ContractInterface.Ledger
