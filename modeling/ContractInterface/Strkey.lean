/-
# Address keys

An address is the base32 text of a version byte, a payload of 32 bytes and a checksum of the two,
lower half first.  These are 35 bytes, so the text has 56 characters and no padding.  The version
byte decides the first character: an account begins with `G`, a contract with `C`.  Reading an
address is indifferent to letter case.
-/
import ContractInterface.Bytes.Base32
import ContractInterface.Crc16
import ContractInterface.Hash
import ContractInterface.Text.Uppercase

namespace ContractInterface.Strkey

/-- What an address names. -/
inductive Version where
  | account
  | contract
deriving DecidableEq, Repr

/-- The first byte of an address. -/
def Version.byte : Version → UInt8
  | .account => 48
  | .contract => 16

/-- The first character of an address. -/
def Version.letter : Version → Char
  | .account => 'G'
  | .contract => 'C'

/-- The version with a given first byte. -/
def Version.ofByte? (byte : Int) : Option Version :=
  [Version.account, Version.contract].find? (·.byte.toNat == byte)

/-- The number of bytes that an address names. -/
def payloadLength : Nat := 32

/-- The number of characters of an address. -/
def textLength : Nat := 56

/-- Why a text is not an address of the version wanted. -/
inductive Defect where
  /-- The text has a wrong number of characters. -/
  | wrongLength (length : Nat)
  /-- The first character in capitals, or the version byte, is another one. -/
  | wrongLead (found expected : String)
  /-- The capitals are not base32. -/
  | notBase32 (text : String) (defect : Base32.Defect)
  /-- The text stands for a wrong number of bytes. -/
  | wrongByteCount (count : Nat)
  /-- The checksum of the bytes is not the one they end with. -/
  | wrongChecksum (computed stored : BitVec 16)
deriving DecidableEq, Repr

/-- The wording of a defect. -/
def Defect.message : Defect → String
  | .wrongLength length =>
    s!"Invalid strkey length: expected {textLength} characters, got {length}"
  | .wrongLead found expected => s!"Invalid strkey prefix: expected '{expected}', got '{found}'"
  | .notBase32 text defect => s!"Failed to decode base32 for {text}: " ++ defect.message
  | .wrongByteCount count => s!"Decoded strkey is {count} bytes, expected {payloadLength + 3}"
  | .wrongChecksum computed stored =>
    s!"Invalid strkey checksum: computed {Hex.ofNat 4 computed.toNat}, " ++
      s!"found {Hex.ofNat 4 stored.toNat}"

/-- A checksum as it stands in an address, lower half first. -/
def checksumBytes (checksum : BitVec 16) : Bytes :=
  (Bytes.ofNat 2 checksum.toNat).reverse

/-- The text of a payload of any length under a version byte. -/
def encodeWith (version : UInt8) (payload : Bytes) : String :=
  let body := version :: payload
  Base32.encode (body ++ checksumBytes (Crc16.checksum body))

/-- Why a payload has no address. -/
inductive PayloadDefect where
  /-- The payload has a wrong number of bytes. -/
  | wrongLength (length : Nat)
  /-- The version is no byte. -/
  | versionNoByte
deriving DecidableEq, Repr

/-- The wording of a defect of a payload. -/
def PayloadDefect.message : PayloadDefect → String
  | .wrongLength length => s!"strkey payload must be {payloadLength} bytes, got {length}"
  | .versionNoByte => "bytes must be in range(0, 256)"

/-- The text of a payload under any version number. -/
def encodeNumbered (version : Int) (payload : Bytes) : Except PayloadDefect String :=
  if payload.length ≠ payloadLength then .error (.wrongLength payload.length)
  else if version < 0 ∨ 256 ≤ version then .error .versionNoByte
  else .ok (encodeWith (UInt8.ofNat version.toNat) payload)

/-- The address of a payload. -/
def encode (version : Version) (payload : Bytes) : Except PayloadDefect String :=
  encodeNumbered version.byte.toNat payload

/-- The payload of an address given by its bytes. -/
def decodeBytes (version : Version) (bytes : Bytes) : Except Defect Hash :=
  match bytes with
  | [] => .error (.wrongByteCount 0)
  | lead :: rest =>
    if h : rest.length = payloadLength + 2 then
      if lead ≠ version.byte then
        .error (.wrongLead ("0x" ++ Hex.ofNat 2 lead.toNat)
          ("0x" ++ Hex.ofNat 2 version.byte.toNat))
      else
        let payload := rest.take payloadLength
        let computed := Crc16.checksum (lead :: payload)
        let stored := BitVec.ofNat 16 (Bytes.toNat (rest.drop payloadLength).reverse)
        if computed ≠ stored then .error (.wrongChecksum computed stored)
        else .ok ⟨payload, by simp [payload, h, payloadLength]⟩
    else .error (.wrongByteCount (rest.length + 1))

/-- The payload of an address of the version wanted. -/
def decode (version : Version) (address : String) : Except Defect Hash :=
  if address.length ≠ textLength then .error (.wrongLength address.length)
  else
    let capitals := Text.upper address
    let lead := String.ofList (capitals.toList.take 1)
    if lead ≠ version.letter.toString then .error (.wrongLead lead version.letter.toString)
    else match Base32.decode capitals with
      | .error defect => .error (.notBase32 address defect)
      | .ok bytes => decodeBytes version bytes

/-- Why a text is not an address of the version with a given number. -/
inductive NumberedDefect where
  /-- No version has the number. -/
  | unknownVersion (version : Int)
  /-- The text is not an address of that version. -/
  | refused (defect : Defect)
deriving DecidableEq, Repr

/-- The payload of an address of the version with a given number; the length of the text is
looked at before the number. -/
def decodeNumbered (version : Int) (address : String) : Except NumberedDefect Hash :=
  match Version.ofByte? version with
  | some version => (decode version address).mapError .refused
  | none =>
    if address.length ≠ textLength then .error (.refused (.wrongLength address.length))
    else .error (.unknownVersion version)

/-- Whether a text is the address of a contract. -/
def isContract (address : String) : Bool :=
  (decode .contract address).isOk

end ContractInterface.Strkey
