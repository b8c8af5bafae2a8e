/-
# A key says which record is looked up

A server that cannot make sense of a key answers that it has no record.  So the key of a record has
to say what the record itself says, in the same form; and the two are written and read apart.  Here
a key is read with the readers of the records.  The main results are

* `Key.made_instancePieces` and `Key.made_codePieces`: a key is made of the pieces it is written in;
* `Key.readData_encode` and `Key.readCode_encode`: it is read back from them, and nothing is left;
* `Key.toText_injective`: so no two keys have one text;
* `keys_read_back`: all of it, for any byte strings.
-/
import ContractInterface.Ledger.Key
import ContractInterface.Proofs.Bytes.Base64
import ContractInterface.Proofs.Ledger.Served
import ContractInterface.Proofs.Strkey.Inverse
import ContractInterface.Proofs.Xdr.Writing

namespace ContractInterface.Ledger

open Xdr Xdr.Cursor Xdr.Reader

namespace Key

/-! ### Writing a key -/

/-- The pieces in which the key of an instance is written. -/
def instancePieces (contract : Bytes) : List Piece :=
  [.int32 EntryKind.contractData.written.toInt, .int32 AddressKind.contract.written.toInt,
    .fixed contract (some 32), .int32 ValueKind.ledgerKeyContractInstance.written.toInt,
    .int32 Durability.persistent.written.toInt]

/-- The pieces in which the key of code is written. -/
def codePieces (hash : Bytes) : List Piece :=
  [.int32 EntryKind.contractCode.written.toInt, .fixed hash (some 32)]

/-- What a new writer makes of pieces, if it can write them all. -/
def made (pieces : List Piece) : Except PieceFault Bytes :=
  match Writer.write {} pieces with
  | (.ok (), w) => .ok w.bytes
  | (.error fault, _) => .error fault

lemma made_of_writes {pieces : List Piece} {bytes : Bytes} (h : Writer.Writes pieces bytes) :
    made pieces = .ok bytes := by
  rw [made, h]
  rfl

/-- A piece that has no form stops the writer. -/
lemma made_of_error {before after : List Piece} {bytes : Bytes} {piece : Piece}
    {fault : PieceFault} (hbefore : Writer.Writes before bytes)
    (hpiece : piece.encode = .error fault) : made (before ++ piece :: after) = .error fault := by
  rw [made, Writer.write_append (hbefore {}), Writer.write, Writer.push_of_error hpiece]

lemma encode_fixed_hash (hash : Hash) :
    (Piece.fixed hash.bytes (some 32)).encode = .ok hash.encode :=
  if_pos (congrArg Nat.cast hash.length_eq)

lemma encode_fixed_of_length_ne {bytes : Bytes} (h : bytes.length ≠ 32) :
    (Piece.fixed bytes (some 32)).encode = .error (.lengthMismatch 32 bytes.length) :=
  if_neg fun heq => h (Int.ofNat.inj heq)

/-- The key of an instance is made of its pieces; a byte string that is no id makes none. -/
theorem made_instancePieces (contract : Bytes) :
    made (instancePieces contract) = (instanceOf contract).map encode := by
  by_cases hlen : contract.length = 32
  · obtain ⟨hash, rfl⟩ : ∃ hash : Hash, hash.bytes = contract := ⟨⟨contract, hlen⟩, rfl⟩
    have hwrites : Writer.Writes (instancePieces hash.bytes) _ :=
      .cons (Piece.encode_int32 _) <| .cons (Piece.encode_int32 _) <|
        .cons (encode_fixed_hash hash) <| .cons (Piece.encode_int32 _) <|
        Writer.writes_singleton (Piece.encode_int32 _)
    rw [made_of_writes hwrites, instanceOf, Hash.ofBytes_bytes]
    simp only [Functor.map, Except.map, encode, List.append_assoc]
    rfl
  · have hbefore := (Writer.writes_singleton (Piece.encode_int32 AddressKind.contract.written)).cons
      (Piece.encode_int32 EntryKind.contractData.written)
    rw [instanceOf, Hash.ofBytes_of_length_ne hlen]
    exact made_of_error hbefore (encode_fixed_of_length_ne hlen)

/-- The key of code is made of its pieces; a byte string that is no hash makes none. -/
theorem made_codePieces (bytes : Bytes) :
    made (codePieces bytes) = (codeOf bytes).map encode := by
  by_cases hlen : bytes.length = 32
  · obtain ⟨hash, rfl⟩ : ∃ hash : Hash, hash.bytes = bytes := ⟨⟨bytes, hlen⟩, rfl⟩
    have hwrites : Writer.Writes (codePieces hash.bytes) _ :=
      .cons (Piece.encode_int32 _) (Writer.writes_singleton (encode_fixed_hash hash))
    rw [made_of_writes hwrites, codeOf, Hash.ofBytes_bytes]
    rfl
  · have hbefore := Writer.writes_singleton (Piece.encode_int32 EntryKind.contractCode.written)
    rw [codeOf, Hash.ofBytes_of_length_ne hlen]
    exact made_of_error hbefore (encode_fixed_of_length_ne hlen)

/-! ### Reading a key -/

/-- Reads the key of a record of contract data: the tag of its kind, the contract, the key in the
contract, and the tag of its durability. -/
def readData : Reader (Int32 × Address × Value × Int32) := do
  let kind ← Xdr.Reader.int32
  let contract ← Address.read
  let key ← Value.read
  let durability ← Xdr.Reader.int32
  return (kind, contract, key, durability)

/-- Reads the key of a record of contract code: the tag of its kind, and the hash. -/
def readCode : Reader (Int32 × Hash) := do
  let kind ← Xdr.Reader.int32
  let hash ← Hash.read
  return (kind, hash)

/-- The key of an instance says persistent contract data, the contract, and its instance. -/
theorem readData_encode (contract : Hash) :
    ∃ c, readData (Cursor.start (contractInstance contract).encode) =
        .ok (EntryKind.contractData.written, .contract contract, .ledgerKeyContractInstance,
          Durability.persistent.written) c ∧ c.isAtEnd = true := by
  obtain ⟨c, hpass, hend⟩ := exists_passes_whole (contractInstance contract).encode
  have hform : (contractInstance contract).encode =
      ofInt32 EntryKind.contractData.written ++ ((Address.contract contract).encode ++
        (Value.ledgerKeyContractInstance.encode ++ ofInt32 Durability.persistent.written)) := by
    simp only [encode, Address.encode, List.append_assoc]
    rfl
  rw [hform] at hpass ⊢
  obtain ⟨c₁, hkind, hpass⟩ := passes_append_iff.1 hpass
  obtain ⟨c₂, hcontract, hpass⟩ := passes_append_iff.1 hpass
  obtain ⟨c₃, hkey, hdurability⟩ := passes_append_iff.1 hpass
  refine ⟨c, ?_, hend⟩
  simp only [readData, bind_eq_ok, int32_eq_ok, Address.read_eq_ok, Value.read_eq_ok, pure_eq_ok]
  exact ⟨_, c₁, hkind, _, c₂, hcontract, _, c₃, ⟨by decide, hkey⟩, _, c, hdurability, rfl, rfl⟩

/-- The key of code says contract code, and its hash. -/
theorem readCode_encode (hash : Hash) :
    ∃ c, readCode (Cursor.start (contractCode hash).encode) =
        .ok (EntryKind.contractCode.written, hash) c ∧ c.isAtEnd = true := by
  obtain ⟨c, hpass, hend⟩ := exists_passes_whole (contractCode hash).encode
  obtain ⟨c₁, hkind, hhash⟩ := passes_append_iff.1 hpass
  refine ⟨c, ?_, hend⟩
  simp only [readCode, bind_eq_ok, int32_eq_ok, hash_read_eq_ok, pure_eq_ok]
  exact ⟨_, c₁, hkind, _, c, hhash, rfl, rfl⟩

/-! ### Keys are told apart -/

lemma length_encode_contractInstance (contract : Hash) :
    (contractInstance contract).encode.length = 48 := by
  simp [encode]

lemma length_encode_contractCode (hash : Hash) : (contractCode hash).encode.length = 36 := by
  simp [encode]

/-- A key is known by what is read from it. -/
lemma encode_injective : Function.Injective encode := by
  intro key key' h
  -- keys of different kinds have different lengths, so that one reader is enough for each pair
  have hlen := congrArg List.length h
  cases key with
  | contractInstance contract =>
    cases key' with
    | contractInstance contract' =>
      obtain ⟨c, hread, -⟩ := readData_encode contract
      obtain ⟨c', hread', -⟩ := readData_encode contract'
      rw [h, hread'] at hread
      have hparts := (EStateM.Result.ok.inj hread).1
      have hcontract := Address.contract.inj (congrArg (fun parts => parts.2.1) hparts)
      rw [hcontract]
    | contractCode hash =>
      rw [length_encode_contractInstance, length_encode_contractCode] at hlen
      exact absurd hlen (by decide)
  | contractCode hash =>
    cases key' with
    | contractInstance contract =>
      rw [length_encode_contractInstance, length_encode_contractCode] at hlen
      exact absurd hlen (by decide)
    | contractCode hash' =>
      obtain ⟨c, hread, -⟩ := readCode_encode hash
      obtain ⟨c', hread', -⟩ := readCode_encode hash'
      rw [h, hread'] at hread
      have hhash : hash' = hash := congrArg Prod.snd (EStateM.Result.ok.inj hread).1
      rw [hhash]

/-- **No two keys have one text.** -/
theorem toText_injective : Function.Injective toText := by
  intro key key' h
  have hdecode := congrArg Base64.decode h
  rw [toText, toText, Base64.decode_encode, Base64.decode_encode] at hdecode
  exact encode_injective (Except.ok.inj hdecode)

/-! ### Byte strings that have a key -/

/-- A key of either kind is made for a byte string that is a hash. -/
lemma key_eq_ok_iff {key : Key} {kind : Hash → Key} {bytes : Bytes} :
    kind <$> Hash.ofBytes bytes = .ok key ↔
      ∃ hash : Hash, hash.bytes = bytes ∧ kind hash = key := by
  constructor
  · intro h
    by_cases hlen : bytes.length = 32
    · rw [Hash.ofBytes, dif_pos hlen] at h
      exact ⟨⟨bytes, hlen⟩, rfl, Except.ok.inj h⟩
    · rw [Hash.ofBytes_of_length_ne hlen] at h
      cases h
  · rintro ⟨hash, rfl, rfl⟩
    rw [Hash.ofBytes_bytes]
    rfl

lemma instanceOf_eq_ok_iff {contract : Bytes} {key : Key} :
    instanceOf contract = .ok key ↔
      ∃ id : Hash, id.bytes = contract ∧ .contractInstance id = key :=
  key_eq_ok_iff

lemma codeOf_eq_ok_iff {bytes : Bytes} {key : Key} :
    codeOf bytes = .ok key ↔ ∃ hash : Hash, hash.bytes = bytes ∧ .contractCode hash = key :=
  key_eq_ok_iff

end Key

/-- **A key says which record is looked up.**  Every byte string of 32 bytes has a key for the
instance of the contract with that id, and one for the code with that hash.  The bytes behind the
text of a key are read, to their end, as records are: the one says persistent contract data, the
contract, and its instance; the other says contract code, and the hash.  So two contract addresses
lead to one key only if they stand for the same contract, and an instance and some code never do.  A
byte string of any other length has no key.  A key is written piece by piece, and fails as the
pieces do. -/
theorem keys_read_back :
    (∀ contract : Bytes, contract.length = 32 → ∃ key id bytes c,
      Key.instanceOf contract = .ok key ∧ id.bytes = contract ∧
        Base64.decode key.toText = .ok bytes ∧
        Key.readData (Cursor.start bytes) =
          .ok (EntryKind.contractData.written, .contract id, .ledgerKeyContractInstance,
            Durability.persistent.written) c ∧ c.isAtEnd = true) ∧
    (∀ code : Bytes, code.length = 32 → ∃ key hash bytes c,
      Key.codeOf code = .ok key ∧ hash.bytes = code ∧ Base64.decode key.toText = .ok bytes ∧
        Key.readCode (Cursor.start bytes) = .ok (EntryKind.contractCode.written, hash) c ∧
        c.isAtEnd = true) ∧
    (∀ address address' id id' key key', Strkey.decode .contract address = .ok id →
      Strkey.decode .contract address' = .ok id' → Key.instanceOf id.bytes = .ok key →
      Key.instanceOf id'.bytes = .ok key' → (key.toText = key'.toText ↔ id.bytes = id'.bytes)) ∧
    (∀ contract code key key', Key.instanceOf contract = .ok key → Key.codeOf code = .ok key' →
      key.toText ≠ key'.toText) ∧
    (∀ bytes : Bytes, bytes.length ≠ 32 →
      Key.instanceOf bytes = .error (.lengthMismatch 32 bytes.length) ∧
        Key.codeOf bytes = .error (.lengthMismatch 32 bytes.length)) ∧
    ∀ bytes, Key.made (Key.instancePieces bytes) = (Key.instanceOf bytes).map Key.encode ∧
      Key.made (Key.codePieces bytes) = (Key.codeOf bytes).map Key.encode := by
  refine ⟨?_, ?_, ?_, ?_, ?_, fun bytes => ?_⟩
  · intro contract hlen
    obtain ⟨c, hread, hend⟩ := Key.readData_encode ⟨contract, hlen⟩
    exact ⟨_, _, _, c, Key.instanceOf_eq_ok_iff.2 ⟨_, rfl, rfl⟩, rfl, Base64.decode_encode _, hread,
      hend⟩
  · intro code hlen
    obtain ⟨c, hread, hend⟩ := Key.readCode_encode ⟨code, hlen⟩
    exact ⟨_, _, _, c, Key.codeOf_eq_ok_iff.2 ⟨_, rfl, rfl⟩, rfl, Base64.decode_encode _, hread,
      hend⟩
  · intro address address' id id' key key' _ _ hkey hkey'
    constructor
    · intro htext
      obtain rfl := Key.toText_injective htext
      obtain ⟨_, hid, rfl⟩ := Key.instanceOf_eq_ok_iff.1 hkey
      obtain ⟨_, hid', hsame⟩ := Key.instanceOf_eq_ok_iff.1 hkey'
      rw [← hid, ← hid', Key.contractInstance.inj hsame]
    · intro hid
      rw [hid, hkey'] at hkey
      rw [Except.ok.inj hkey]
  · intro contract code key key' hkey hkey' htext
    obtain ⟨_, -, rfl⟩ := Key.instanceOf_eq_ok_iff.1 hkey
    obtain ⟨_, -, rfl⟩ := Key.codeOf_eq_ok_iff.1 hkey'
    cases Key.toText_injective htext
  · intro bytes hlen
    rw [Key.instanceOf, Key.codeOf, Hash.ofBytes_of_length_ne hlen]
    exact ⟨rfl, rfl⟩
  · exact ⟨Key.made_instancePieces bytes, Key.made_codePieces bytes⟩

/-- The id of a contract has keys, and one byte less has none. -/
theorem keys_read_back_sample :
    Strkey.samplePayload.length = 32 ∧
      (∃ key id bytes c, Key.instanceOf Strkey.samplePayload = .ok key ∧
        id.bytes = Strkey.samplePayload ∧ Base64.decode key.toText = .ok bytes ∧
        Key.readData (Cursor.start bytes) = .ok (6, .contract id, .ledgerKeyContractInstance, 1) c ∧
        c.isAtEnd = true) ∧
      Key.codeOf (Strkey.samplePayload.drop 1) = .error (.lengthMismatch 32 31) :=
  ⟨rfl, keys_read_back.1 Strkey.samplePayload rfl,
    (keys_read_back.2.2.2.2.1 (Strkey.samplePayload.drop 1) (by decide)).2⟩

end ContractInterface.Ledger
