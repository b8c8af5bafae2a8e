/-
# Ledger keys

A key asks a ledger for one record.  Two records lead to the code of a contract: the instance of
the contract, which names the code by its hash, and the code itself.
-/
import ContractInterface.Bytes.Base64
import ContractInterface.Hash
import ContractInterface.Ledger.Tag

namespace ContractInterface.Ledger

/-- The key of a record. -/
inductive Key where
  /-- The instance record of the contract with an id. -/
  | contractInstance (contract : Hash)
  /-- The record of the code with a hash. -/
  | contractCode (hash : Hash)
deriving DecidableEq

namespace Key

/-- The written form of a key. -/
def encode : Key → Bytes
  | .contractInstance contract =>
    Xdr.ofInt32 (tagIn EntryKind.all .contractData) ++
      Xdr.ofInt32 (tagIn AddressKind.all .contract) ++ contract.encode ++
      Xdr.ofInt32 (tagIn ValueKind.all .ledgerKeyContractInstance) ++
      Xdr.ofInt32 (tagIn Durability.all .persistent)
  | .contractCode hash => Xdr.ofInt32 (tagIn EntryKind.all .contractCode) ++ hash.encode

/-- The base64 text of a key. -/
def toText (key : Key) : String :=
  Base64.encode key.encode

/-- The key of the instance record of a contract, for an id of 32 bytes. -/
def instanceOf (contract : Bytes) : Except Xdr.PieceFault Key :=
  .contractInstance <$> Hash.ofBytes contract

/-- The key of a record of code, for a hash of 32 bytes. -/
def codeOf (hash : Bytes) : Except Xdr.PieceFault Key :=
  .contractCode <$> Hash.ofBytes hash

end Key

end ContractInterface.Ledger
