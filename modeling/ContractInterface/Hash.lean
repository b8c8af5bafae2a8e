/-
# Hashes

Contract ids, public keys and the names of stored code are all byte strings of 32 bytes.
-/
import ContractInterface.Xdr.Reader
import ContractInterface.Xdr.Writer

namespace ContractInterface

/-- A byte string of 32 bytes. -/
structure Hash where
  bytes : Bytes
  length_eq : bytes.length = 32
deriving DecidableEq

namespace Hash

/-- A byte string as a hash, if it has the right length. -/
def ofBytes (bytes : Bytes) : Except Xdr.PieceFault Hash :=
  if h : bytes.length = 32 then .ok ⟨bytes, h⟩ else .error (.lengthMismatch 32 bytes.length)

/-- The bytes of a hash have the right length. -/
theorem ofBytes_bytes (hash : Hash) : ofBytes hash.bytes = .ok hash :=
  dif_pos hash.length_eq

theorem ofBytes_of_length_ne {bytes : Bytes} (h : bytes.length ≠ 32) :
    ofBytes bytes = .error (.lengthMismatch 32 bytes.length) :=
  dif_neg h

/-- The hexadecimal text of a hash. -/
def toHex (hash : Hash) : String :=
  Hex.encode hash.bytes

/-- The written form of a hash; its length needs no filling. -/
def encode (hash : Hash) : Bytes :=
  Xdr.ofFixed hash.bytes

/-- Reads a hash. -/
def read {ε : Type} : Xdr.Reader ε Hash := do
  let bytes ← Xdr.Reader.fixed 32
  return ⟨bytes.val, bytes.property⟩

end Hash

end ContractInterface
