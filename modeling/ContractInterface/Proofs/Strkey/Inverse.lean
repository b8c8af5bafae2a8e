/-
# An address has one spelling

Reading an address undoes writing it, and a text that is read as a payload differs from its address
at most in letter case: neither padding nor characters whose capitals are longer give another
spelling.  Every other text is refused for a reason that can be told from its capitals.  The main
results are

* `decode_eq_ok_iff`: the texts that are read as a payload;
* `decode_eq_error_iff`: the texts that are refused, and why;
* `decode_exact`: both, for payloads given as byte strings, with the two inverse laws.
-/
import ContractInterface.Proofs.Strkey.Form

namespace ContractInterface.Strkey

variable {version : Version} {text : String}

/-! ### Writing -/

/-- The payloads of the right length have an address, and no others. -/
lemma encode_eq_ok_iff {payload : Bytes} {address : String} :
    encode version payload = .ok address ↔
      payload.length = payloadLength ∧ address = encodeWith version.byte payload := by
  have hbyte : ¬ ((version.byte.toNat : Int) < 0 ∨ 256 ≤ (version.byte.toNat : Int)) := by
    have hlt := version.byte.toNat_lt
    omega
  have hsame : UInt8.ofNat (version.byte.toNat : Int).toNat = version.byte := by
    rw [Int.toNat_natCast, UInt8.ofNat_toNat]
  rw [encode, encodeNumbered, if_neg hbyte, hsame]
  by_cases hlen : payload.length = payloadLength
  · rw [if_neg (not_not.2 hlen)]
    simp [hlen, eq_comm]
  · rw [if_pos hlen]
    simp [hlen]

/-! ### Reading -/

/-- Why a text is refused.  The reasons exclude each other. -/
inductive Refused (version : Version) (text : String) : Defect → Prop where
  | wrongLength (hlen : text.length ≠ textLength) :
    Refused version text (.wrongLength text.length)
  /-- The capitals begin with another letter; there is a first one. -/
  | wrongLetter {first : Char} {others : List Char} (hlen : text.length = textLength)
    (hcapitals : (Text.upper text).toList = first :: others) (hfirst : first ≠ version.letter) :
    Refused version text (.wrongLead first.toString version.letter.toString)
  | notBase32 {others : List Char} {defect : Base32.Defect} (hlen : text.length = textLength)
    (hcapitals : (Text.upper text).toList = version.letter :: others)
    (hbytes : Base32.decode (Text.upper text) = .error defect) :
    Refused version text (.notBase32 text defect)
  | wrongByteCount {others : List Char} {bytes : Bytes} (hlen : text.length = textLength)
    (hcapitals : (Text.upper text).toList = version.letter :: others)
    (hbytes : Base32.decode (Text.upper text) = .ok bytes) (hcount : bytes.length ≠ 35) :
    Refused version text (.wrongByteCount bytes.length)
  /-- The version byte is another one with the same first letter. -/
  | wrongVersion {others : List Char} {lead : UInt8} {hash : Hash} {checksum : BitVec 16}
    (hlen : text.length = textLength)
    (hcapitals : (Text.upper text).toList = version.letter :: others)
    (hupper : Text.upper text = Base32.encode (rawBytes lead hash.bytes checksum))
    (hlead : lead ≠ version.byte) :
    Refused version text (.wrongLead ("0x" ++ Hex.ofNat 2 lead.toNat)
      ("0x" ++ Hex.ofNat 2 version.byte.toNat))
  | wrongChecksum {hash : Hash} {checksum : BitVec 16} (hlen : text.length = textLength)
    (hupper : Text.upper text = Base32.encode (rawBytes version.byte hash.bytes checksum))
    (hsum : Crc16.checksum (version.byte :: hash.bytes) ≠ checksum) :
    Refused version text (.wrongChecksum (Crc16.checksum (version.byte :: hash.bytes)) checksum)

/-- A text is the address of a payload but for letter case, or it is refused. -/
lemma decode_cases (version : Version) (text : String) :
    (∃ hash, decode version text = .ok hash ∧ text.length = textLength ∧
      Text.upper text = encodeWith version.byte hash.bytes) ∨
    ∃ defect, decode version text = .error defect ∧ Refused version text defect := by
  by_cases hlen : text.length = textLength
  swap
  · exact .inr ⟨_, if_pos hlen, .wrongLength hlen⟩
  have hnonempty : (Text.upper text).toList ≠ [] := Text.upper_ne_nil (by rw [hlen]; decide)
  obtain ⟨first, others, hcapitals⟩ := List.exists_cons_of_ne_nil hnonempty
  have hdecode : decode version text = _ := decode_of_head hlen hcapitals
  by_cases hfirst : first = version.letter
  swap
  · rw [if_pos hfirst] at hdecode
    exact .inr ⟨_, hdecode, .wrongLetter hlen hcapitals hfirst⟩
  subst hfirst
  rw [if_neg (not_not.2 rfl)] at hdecode
  cases hbytes : Base32.decode (Text.upper text) with
  | error defect =>
    rw [hbytes] at hdecode
    exact .inr ⟨_, hdecode, .notBase32 hlen hcapitals hbytes⟩
  | ok bytes =>
    rw [decode_of_bytes hlen hcapitals hbytes]
    by_cases hcount : bytes.length = 35
    swap
    · exact .inr ⟨_, decodeBytes_of_length_ne hcount,
        .wrongByteCount hlen hcapitals hbytes hcount⟩
    obtain ⟨lead, hash, checksum, rfl⟩ := exists_rawBytes hcount
    rw [decodeBytes_rawBytes]
    have hupper := (Base32.decode_eq_ok_iff (five_dvd_length_rawBytes hash.length_eq)).1 hbytes
    by_cases hlead : lead = version.byte
    swap
    · exact .inr ⟨_, if_pos hlead, .wrongVersion hlen hcapitals hupper hlead⟩
    subst hlead
    rw [if_neg (not_not.2 rfl)]
    by_cases hsum : Crc16.checksum (version.byte :: hash.bytes) = checksum
    · subst hsum
      exact .inl ⟨hash, if_neg (not_not.2 rfl), hlen, hupper⟩
    · exact .inr ⟨_, if_pos hsum, .wrongChecksum hlen hupper hsum⟩

/-- A text is read as a payload if it has the right length and its capitals are the address. -/
theorem decode_eq_ok_iff {hash : Hash} :
    decode version text = .ok hash ↔
      text.length = textLength ∧ Text.upper text = encodeWith version.byte hash.bytes := by
  constructor
  · intro hdecode
    rcases decode_cases version text with ⟨hash', hdecode', hlen, hupper⟩ | ⟨defect, hdecode', -⟩
    · rw [hdecode] at hdecode'
      obtain rfl := Except.ok.inj hdecode'
      exact ⟨hlen, hupper⟩
    · rw [hdecode] at hdecode'
      cases hdecode'
  · rintro ⟨hlen, hupper⟩
    rw [decode_of_upper hlen hupper, if_neg (not_not.2 rfl)]

/-- A text is refused for the reasons above, and for no others. -/
theorem decode_eq_error_iff {defect : Defect} :
    decode version text = .error defect ↔ Refused version text defect := by
  constructor
  · intro hdecode
    rcases decode_cases version text with ⟨hash, hdecode', -⟩ | ⟨defect', hdecode', hrefused⟩
    · rw [hdecode] at hdecode'
      cases hdecode'
    · rw [hdecode] at hdecode'
      obtain rfl := Except.error.inj hdecode'
      exact hrefused
  · intro hrefused
    cases hrefused with
    | wrongLength hlen => exact if_pos hlen
    | wrongLetter hlen hcapitals hfirst => rw [decode_of_head hlen hcapitals, if_pos hfirst]
    | notBase32 hlen hcapitals hbytes =>
      rw [decode_of_head hlen hcapitals, if_neg (not_not.2 rfl), hbytes]
    | wrongByteCount hlen hcapitals hbytes hcount =>
      rw [decode_of_bytes hlen hcapitals hbytes, decodeBytes_of_length_ne hcount]
    | wrongVersion hlen hcapitals hupper hlead =>
      rw [decode_of_bytes hlen hcapitals (decode_upper hupper), decodeBytes_rawBytes,
        if_pos hlead]
    | wrongChecksum hlen hupper hsum => rw [decode_of_upper hlen hupper, if_pos hsum]

/-! ### Exactness -/

/-- The payload that an address is written for is read from it. -/
lemma decode_encodeWith (version : Version) (hash : Hash) :
    decode version (encodeWith version.byte hash.bytes) = .ok hash :=
  decode_eq_ok_iff.2
    ⟨length_encode_rawBytes _ _ hash.length_eq, upper_encode_rawBytes _ _ hash.length_eq⟩

lemma isContract_eq_true_iff :
    isContract text = true ↔ ∃ hash, decode .contract text = .ok hash := by
  rw [isContract]
  cases decode .contract text with
  | error defect => simp [Except.isOk, Except.toBool]
  | ok hash => simp [Except.isOk, Except.toBool]

/-- **Reading and writing addresses is exact.**  A text is read as a payload if and only if the
payload has the right length, the text has the right length, and its capitals are the address of
the payload; every other text is refused for one of the reasons above.  So every payload is read
from its address, what is read is written back in capitals, and the test for contract addresses
tells whether there is a payload to be read. -/
theorem decode_exact (version : Version) (text : String) :
    (∀ payload, (∃ hash, decode version text = .ok hash ∧ hash.bytes = payload) ↔
        payload.length = payloadLength ∧ text.length = textLength ∧
          encode version payload = .ok (Text.upper text)) ∧
      ((¬ ∃ payload, payload.length = payloadLength ∧ text.length = textLength ∧
          encode version payload = .ok (Text.upper text)) →
        ∃ defect, decode version text = .error defect ∧ Refused version text defect) ∧
      (∀ payload address, encode version payload = .ok address →
        ∃ hash, decode version address = .ok hash ∧ hash.bytes = payload) ∧
      (∀ hash, decode version text = .ok hash → encode version hash.bytes = .ok (Text.upper text)) ∧
      (isContract text = true ↔ ∃ hash, decode .contract text = .ok hash) := by
  have hread (payload : Bytes) :
      (∃ hash, decode version text = .ok hash ∧ hash.bytes = payload) ↔
        payload.length = payloadLength ∧ text.length = textLength ∧
          encode version payload = .ok (Text.upper text) := by
    constructor
    · rintro ⟨hash, hdecode, rfl⟩
      obtain ⟨hlen, hupper⟩ := decode_eq_ok_iff.1 hdecode
      exact ⟨hash.length_eq, hlen, encode_eq_ok_iff.2 ⟨hash.length_eq, hupper⟩⟩
    · rintro ⟨hpayload, hlen, hencode⟩
      obtain ⟨-, hupper⟩ := encode_eq_ok_iff.1 hencode
      exact ⟨⟨payload, hpayload⟩, decode_eq_ok_iff.2 ⟨hlen, hupper⟩, rfl⟩
  refine ⟨hread, ?_, ?_, ?_, isContract_eq_true_iff⟩
  · intro hnone
    rcases decode_cases version text with ⟨hash, hdecode, -⟩ | hrefused
    · exact absurd ⟨hash.bytes, (hread hash.bytes).1 ⟨hash, hdecode, rfl⟩⟩ hnone
    · exact hrefused
  · intro payload address hencode
    obtain ⟨hpayload, rfl⟩ := encode_eq_ok_iff.1 hencode
    exact ⟨⟨payload, hpayload⟩, decode_encodeWith version ⟨payload, hpayload⟩, rfl⟩
  · intro hash hdecode
    exact ((hread hash.bytes).1 ⟨hash, hdecode, rfl⟩).2.2

/-- The payload of a contract. -/
def samplePayload : Bytes :=
  [215, 146, 139, 114, 194, 112, 60, 207, 234, 247, 235, 159, 244, 239, 77, 80, 74, 85, 168, 185,
    121, 252, 155, 69, 14, 162, 200, 66, 180, 209, 206, 97]

/-- The address of the contract. -/
def sampleAddress : String := "CDLZFC3SYJYDZT7K67VZ75HPJVIEUVNIXF47ZG2FB2RMQQVU2HHGCYSC"

/-- An address is read where letters, some of them beyond ASCII, stand for their capitals; it is
refused where a letter stands for two capitals. -/
theorem decode_exact_sample :
    (∃ hash, decode .contract "cdlzfc3ſYJYDZT7K67VZ75HPJVIEUVNIXF47ZG2FB2RMQQVU2HHGCYſC" =
        .ok hash ∧ hash.bytes = samplePayload) ∧
      ∃ defect, decode .contract "CDLZFC3SYJYDZT7K67VZ75HPJVIEUVNIXF47ZG2FB2RMQQVU2HHGCYßC" =
          .error defect ∧
        Refused .contract "CDLZFC3SYJYDZT7K67VZ75HPJVIEUVNIXF47ZG2FB2RMQQVU2HHGCYßC" defect := by
  constructor
  · have hencode : encode .contract samplePayload =
        .ok (Text.upper "cdlzfc3ſYJYDZT7K67VZ75HPJVIEUVNIXF47ZG2FB2RMQQVU2HHGCYſC") := by
      decide +kernel
    exact ((decode_exact .contract _).1 samplePayload).2 ⟨rfl, by decide, hencode⟩
  · apply (decode_exact .contract _).2.1
    rintro ⟨payload, hpayload, -, hencode⟩
    have hlen := congrArg String.length (encode_eq_ok_iff.1 hencode).2
    have hcapitals : (Text.upper
        "CDLZFC3SYJYDZT7K67VZ75HPJVIEUVNIXF47ZG2FB2RMQQVU2HHGCYßC").length = 57 := by
      decide +kernel
    rw [hcapitals, encodeWith_eq, length_encode_rawBytes _ _ hpayload] at hlen
    cases hlen

end ContractInterface.Strkey
