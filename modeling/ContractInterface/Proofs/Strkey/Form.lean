/-
# The form of an address

An address is the text of 35 bytes: a version byte, a payload and a checksum.  These are whole
groups, so the text has 56 digits and no padding, and digits are their own capitals.  The main
results are

* `spells_rawBytes`: the text of 35 bytes spells their bits;
* `head_encode_rawBytes`: the version byte decides the first character;
* `decodeBytes_rawBytes`: what becomes of 35 bytes, part by part;
* `decode_of_upper`: what becomes of a text whose capitals stand for a payload under the right
  version byte.
-/
import ContractInterface.Strkey
import ContractInterface.Proofs.Bytes.Base32

namespace ContractInterface

/-! ### Capitals -/

namespace Text

@[simp] lemma toList_upper (text : String) :
    (upper text).toList = text.toList.flatMap upperChar := by
  rw [upper, String.toList_ofList]

/-- Every character has a capital form. -/
lemma upperChar_ne_nil (c : Char) : upperChar c ≠ [] := by
  have hsequences : ∀ entry ∈ capitalSequences, entry.2 ≠ [] := by decide
  have hcapitals : capitals c.toNat ≠ [] := by
    rw [capitals]
    split
    · simp
    · cases hlookup : capitalSequences.lookup c.toNat with
      | none => simp
      | some sequence =>
        obtain ⟨front, back, hsplit, -⟩ := List.lookup_eq_some_iff.1 hlookup
        exact hsequences (c.toNat, sequence) (by rw [hsplit]; simp)
  rw [upperChar]
  split
  · simp
  · simpa using hcapitals

lemma upper_ne_nil {text : String} (h : 0 < text.length) : (upper text).toList ≠ [] := by
  rw [← String.length_toList] at h
  obtain ⟨c, rest, hsplit⟩ := List.exists_cons_of_length_pos h
  rw [toList_upper, hsplit, List.flatMap_cons]
  exact List.append_ne_nil_of_left_ne_nil (upperChar_ne_nil c) _

/-- A digit is its own capital. -/
lemma upperChar_of_isDigit {c : Char} (h : Base32.IsDigit c) : upperChar c = [c] := by
  have hdigits : ∀ value < 32, upperChar (Base32.digit value) = [Base32.digit value] := by
    decide
  rw [h.digit_valueOf]
  exact hdigits _ h.valueOf_lt

/-- A text of digits is its own capital form. -/
lemma upper_eq_self {text : String} (h : ∀ c ∈ text.toList, Base32.IsDigit c) :
    upper text = text := by
  have hchars {chars : List Char} (h : ∀ c ∈ chars, Base32.IsDigit c) :
      chars.flatMap upperChar = chars := by
    induction chars with
    | nil => rfl
    | cons c chars ih =>
      obtain ⟨hc, hrest⟩ := List.forall_mem_cons.1 h
      rw [List.flatMap_cons, upperChar_of_isDigit hc, ih hrest]
      rfl
  exact String.toList_inj.1 (by rw [toList_upper, hchars h])

end Text

namespace Strkey

/-! ### The bytes of an address -/

/-- The bytes that an address of a payload is the text of, under any first byte. -/
def rawBytes (lead : UInt8) (payload : Bytes) (checksum : BitVec 16) : Bytes :=
  lead :: payload ++ checksumBytes checksum

lemma encodeWith_eq (lead : UInt8) (payload : Bytes) :
    encodeWith lead payload =
      Base32.encode (rawBytes lead payload (Crc16.checksum (lead :: payload))) := rfl

@[simp] lemma length_checksumBytes (checksum : BitVec 16) :
    (checksumBytes checksum).length = 2 := by
  rw [checksumBytes, List.length_reverse, Bytes.length_ofNat]

variable {lead : UInt8} {payload : Bytes} {checksum : BitVec 16}

lemma length_rawBytes (h : payload.length = 32) : (rawBytes lead payload checksum).length = 35 := by
  simp [rawBytes, h]

/-- The bytes of an address come in whole groups. -/
lemma five_dvd_length_rawBytes (h : payload.length = 32) :
    5 ∣ (rawBytes lead payload checksum).length := by
  rw [length_rawBytes h]
  decide

/-- A checksum is read back from the bytes that it is written as. -/
lemma ofNat_checksumBytes (checksum : BitVec 16) :
    BitVec.ofNat 16 (Bytes.toNat (checksumBytes checksum).reverse) = checksum := by
  have hlt : checksum.toNat < Bytes.bound 2 := checksum.isLt
  rw [checksumBytes, List.reverse_reverse, Bytes.toNat_ofNat, Nat.mod_eq_of_lt hlt,
    BitVec.ofNat_toNat, BitVec.setWidth_eq]

lemma checksumBytes_injective {checksum checksum' : BitVec 16}
    (h : checksumBytes checksum = checksumBytes checksum') : checksum = checksum' := by
  rw [← ofNat_checksumBytes checksum, h, ofNat_checksumBytes]

/-- Any two bytes are those of a checksum. -/
lemma exists_checksumBytes {two : Bytes} (h : two.length = 2) :
    ∃ checksum, two = checksumBytes checksum := by
  refine ⟨BitVec.ofNat 16 (Bytes.toNat two.reverse), ?_⟩
  have hlen : two.reverse.length = 2 := by rw [List.length_reverse, h]
  have hlt : Bytes.toNat two.reverse < 2 ^ 16 := by
    have hbound := Bytes.toNat_lt_bound two.reverse
    rwa [hlen] at hbound
  have hwritten := Bytes.ofNat_toNat two.reverse
  rw [hlen] at hwritten
  rw [checksumBytes, BitVec.toNat_ofNat, Nat.mod_eq_of_lt hlt, hwritten, List.reverse_reverse]

/-- Any 35 bytes have the parts of an address. -/
lemma exists_rawBytes {bytes : Bytes} (h : bytes.length = 35) :
    ∃ (lead : UInt8) (hash : Hash) (checksum : BitVec 16),
      bytes = rawBytes lead hash.bytes checksum := by
  obtain ⟨lead, rest, rfl⟩ := List.exists_cons_of_length_eq_add_one h
  rw [List.length_cons] at h
  have hpayload : (rest.take 32).length = 32 := by
    rw [List.length_take]
    omega
  have hsum : (rest.drop 32).length = 2 := by
    rw [List.length_drop]
    omega
  obtain ⟨checksum, hchecksum⟩ := exists_checksumBytes hsum
  refine ⟨lead, ⟨rest.take 32, hpayload⟩, checksum, ?_⟩
  rw [rawBytes, ← hchecksum, List.cons_append, List.take_append_drop]

variable {version : Version}

/-- What becomes of 35 bytes: the version byte is looked at before the checksum. -/
lemma decodeBytes_rawBytes (version : Version) (lead : UInt8) (hash : Hash) (checksum : BitVec 16) :
    decodeBytes version (rawBytes lead hash.bytes checksum) =
      if lead ≠ version.byte then
        .error (.wrongLead ("0x" ++ Hex.ofNat 2 lead.toNat)
          ("0x" ++ Hex.ofNat 2 version.byte.toNat))
      else if Crc16.checksum (lead :: hash.bytes) ≠ checksum then
        .error (.wrongChecksum (Crc16.checksum (lead :: hash.bytes)) checksum)
      else .ok hash := by
  have hlen := hash.length_eq
  have hrest : (hash.bytes ++ checksumBytes checksum).length = payloadLength + 2 := by
    rw [List.length_append, hlen, length_checksumBytes]
    rfl
  have htake : (hash.bytes ++ checksumBytes checksum).take payloadLength = hash.bytes :=
    List.take_left' hlen
  have hdrop : (hash.bytes ++ checksumBytes checksum).drop payloadLength = checksumBytes checksum :=
    List.drop_left' hlen
  simp only [rawBytes, List.cons_append, decodeBytes, dif_pos hrest, htake, hdrop,
    ofNat_checksumBytes]

lemma decodeBytes_of_length_ne {bytes : Bytes} (h : bytes.length ≠ 35) :
    decodeBytes version bytes = .error (.wrongByteCount bytes.length) := by
  cases bytes with
  | nil => rfl
  | cons lead rest =>
    rw [List.length_cons] at h
    have hrest : ¬ rest.length = payloadLength + 2 := fun hrest => h (by rw [hrest]; rfl)
    simp only [decodeBytes, dif_neg hrest, List.length_cons]

/-! ### The text of an address -/

lemma spells_rawBytes (lead : UInt8) (checksum : BitVec 16) (h : payload.length = 32) :
    Base32.Spells (Base32.encode (rawBytes lead payload checksum)).toList
      (Bytes.bits (rawBytes lead payload checksum)) := by
  rw [Base32.encode, String.toList_ofList]
  exact Base32.spells_encodeChars (five_dvd_length_rawBytes h)

/-- The text of 35 bytes has 56 characters. -/
lemma length_encode_rawBytes (lead : UInt8) (checksum : BitVec 16) (h : payload.length = 32) :
    (Base32.encode (rawBytes lead payload checksum)).length = textLength := by
  have hlen := (spells_rawBytes lead checksum h).length_eq
  rw [Bytes.length_bits, length_rawBytes h, String.length_toList] at hlen
  rw [textLength]
  omega

/-- The text of 35 bytes is its own capital form. -/
lemma upper_encode_rawBytes (lead : UInt8) (checksum : BitVec 16) (h : payload.length = 32) :
    Text.upper (Base32.encode (rawBytes lead payload checksum)) =
      Base32.encode (rawBytes lead payload checksum) :=
  Text.upper_eq_self (spells_rawBytes lead checksum h).isDigit

/-- The version byte decides the first character of an address. -/
lemma head_encode_rawBytes (version : Version) (checksum : BitVec 16) (h : payload.length = 32) :
    ∃ others, (Base32.encode (rawBytes version.byte payload checksum)).toList =
      version.letter :: others := by
  have hletter : Base32.IsDigit version.letter ∧
      Base32.digitBits version.letter = (bitsOf 8 version.byte.toNat).take 5 := by
    cases version <;> decide
  have hspells := spells_rawBytes version.byte checksum h
  have hlen := length_encode_rawBytes version.byte checksum h
  rw [← String.length_toList] at hlen
  obtain ⟨c, rest, hsplit⟩ := List.exists_cons_of_length_eq_add_one hlen
  -- the first digit stands for the upper five bits of the version byte
  have hbits := congrArg (List.take 5) hspells.flatMap_eq
  rw [hsplit, List.flatMap_cons, List.take_left' (Base32.length_digitBits c), rawBytes,
    List.cons_append, Bytes.bits_cons, List.take_append_of_le_length (by simp),
    ← hletter.2] at hbits
  have hc : Base32.IsDigit c := hspells.isDigit c (by rw [hsplit]; exact List.mem_cons_self)
  exact ⟨rest, by rw [hsplit, hc.eq_of_bits_eq hletter.1 hbits]⟩

/-! ### Reading -/

variable {text : String}

/-- The first letter of the capitals is looked at before anything else in them. -/
lemma decode_of_head {first : Char} {others : List Char} (hlen : text.length = textLength)
    (hcapitals : (Text.upper text).toList = first :: others) :
    decode version text =
      if first ≠ version.letter then
        .error (.wrongLead first.toString version.letter.toString)
      else match Base32.decode (Text.upper text) with
        | .error defect => .error (.notBase32 text defect)
        | .ok bytes => decodeBytes version bytes := by
  have hlead : String.ofList ((Text.upper text).toList.take 1) = first.toString := by
    rw [hcapitals]
    rfl
  rw [decode, if_neg (not_not.2 hlen)]
  by_cases hfirst : first = version.letter
  · rw [if_neg (not_not.2 hfirst)]
    exact if_neg (not_not.2 (by rw [hlead, hfirst]))
  · have hletter : first.toString ≠ version.letter.toString := fun h =>
      hfirst (List.cons.inj (String.ofList_injective h)).1
    rw [if_pos hfirst, ← hlead]
    exact if_pos (by rwa [hlead])

/-- Behind the right first letter the capitals are read as bytes. -/
lemma decode_of_bytes {others : List Char} {bytes : Bytes} (hlen : text.length = textLength)
    (hcapitals : (Text.upper text).toList = version.letter :: others)
    (hbytes : Base32.decode (Text.upper text) = .ok bytes) :
    decode version text = decodeBytes version bytes := by
  rw [decode_of_head hlen hcapitals, hbytes, if_neg (not_not.2 rfl)]

/-- The capitals of a text are read as the bytes that they are the text of. -/
lemma decode_upper {hash : Hash}
    (hupper : Text.upper text = Base32.encode (rawBytes lead hash.bytes checksum)) :
    Base32.decode (Text.upper text) = .ok (rawBytes lead hash.bytes checksum) :=
  (Base32.decode_eq_ok_iff (five_dvd_length_rawBytes hash.length_eq)).2 hupper

/-- What becomes of a text whose capitals stand for a payload under the right version byte. -/
lemma decode_of_upper {hash : Hash} (hlen : text.length = textLength)
    (hupper : Text.upper text = Base32.encode (rawBytes version.byte hash.bytes checksum)) :
    decode version text =
      if Crc16.checksum (version.byte :: hash.bytes) ≠ checksum then
        .error (.wrongChecksum (Crc16.checksum (version.byte :: hash.bytes)) checksum)
      else .ok hash := by
  obtain ⟨others, hcapitals⟩ := head_encode_rawBytes version checksum hash.length_eq
  rw [← hupper] at hcapitals
  rw [decode_of_bytes hlen hcapitals (decode_upper hupper), decodeBytes_rawBytes,
    if_neg (not_not.2 rfl)]

end Strkey

end ContractInterface
