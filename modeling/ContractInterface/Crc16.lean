/-
# CRC-16/XMODEM

The 16-bit cyclic redundancy check with generator `x^16 + x^12 + x^5 + 1`: initial value zero,
bits taken most significant first, no final inversion.
-/
import ContractInterface.Bytes

namespace ContractInterface.Crc16

/-- The generator without its leading term. -/
def generator : BitVec 16 := 0x1021

/-- Multiplies a register by `x`, modulo the generator. -/
def shift (register : BitVec 16) : BitVec 16 :=
  if register.msb then (register <<< 1) ^^^ generator else register <<< 1

/-- Takes one byte into the register: it is added to the high half, and the register is then
shifted eight times. -/
def step (register : BitVec 16) (byte : UInt8) : BitVec 16 :=
  Nat.repeat shift 8 (register ^^^ (byte.toBitVec.setWidth 16 <<< 8))

/-- The checksum of a byte string. -/
def checksum (bytes : Bytes) : BitVec 16 :=
  bytes.foldl step 0

end ContractInterface.Crc16
