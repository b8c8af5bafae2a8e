/-
# Numbers in modules

A module writes a number of 32 bits in groups of seven, the lowest group first, one group to a
byte; every byte but the last has its high bit set.  At most five bytes are read, and a number may
take more of them than it needs.
-/
import ContractInterface.Bytes

namespace ContractInterface.Wasm.Leb128

/-- Why a byte string does not begin with a number. -/
inductive Defect where
  /-- The bytes end before the number does. -/
  | truncated
  /-- The fifth byte is not the last. -/
  | tooLong
  /-- The number does not fit 32 bits. -/
  | overflow
deriving DecidableEq, Repr

/-- The wording of a defect. -/
def Defect.message : Defect → String
  | .truncated => "Truncated LEB128 integer"
  | .tooLong => "LEB128 integer too long"
  | .overflow => "LEB128 integer overflows u32"

/-- Reads a number of at most `groups` groups, and gives what follows it. -/
def readGroups : (groups : Nat) → Bytes → Except Defect (Nat × Bytes)
  | 0, _ => .error .tooLong
  | _ + 1, [] => .error .truncated
  | groups + 1, byte :: rest =>
    if byte < 0x80 then .ok (byte.toNat, rest)
    else match readGroups groups rest with
      | .error defect => .error defect
      | .ok (high, rest) => .ok (byte.toNat % 128 + 128 * high, rest)

/-- A number takes at least one byte. -/
theorem length_lt_of_readGroups {groups : Nat} {bytes rest : Bytes} {n : Nat}
    (h : readGroups groups bytes = .ok (n, rest)) : rest.length < bytes.length := by
  induction groups generalizing bytes n with
  | zero => simp [readGroups] at h
  | succ groups ih =>
    cases bytes with
    | nil => simp [readGroups] at h
    | cons byte bytes =>
      rw [readGroups] at h
      split at h
      · cases h; simp
      · split at h
        · cases h
        · rename_i read
          cases h
          have := ih read
          simp only [List.length_cons]
          omega

/-- Reads a number of 32 bits, and gives what follows it. -/
def read (bytes : Bytes) : Except Defect (Nat × Bytes) :=
  match readGroups 5 bytes with
  | .error defect => .error defect
  | .ok (n, rest) => if n < UInt32.size then .ok (n, rest) else .error .overflow

/-- A number takes at least one byte. -/
theorem length_lt_of_read {bytes rest : Bytes} {n : Nat} (h : read bytes = .ok (n, rest)) :
    rest.length < bytes.length := by
  rw [read] at h
  split at h
  · cases h
  · rename_i read
    split at h
    · cases h; exact length_lt_of_readGroups read
    · cases h

/-- Reads a number of 32 bits at an offset, and gives the offset after it. -/
def readAt (bytes : Bytes) (offset : Nat) : Except Defect (Nat × Nat) :=
  (read (bytes.drop offset)).map fun (n, rest) => (n, bytes.length - rest.length)

/-- Reads a number of 32 bits at an offset that may be negative, and gives the offset after it.  A
negative offset counts from the end, and behind the end reading goes on at the front; there is no
answer if the offset lies before the first byte. -/
def readFrom? (bytes : Bytes) (offset : Int) : Option (Except Defect (Nat × Int)) :=
  match offset with
  | .ofNat offset => some ((readAt bytes offset).map fun (n, next) => (n, next))
  | .negSucc before =>
    let back := before + 1
    if bytes.length < back then none
    else
      let wrapped := bytes.drop (bytes.length - back) ++ bytes
      some ((readAt wrapped 0).map fun (n, next) => (n, (next : Int) - back))

end ContractInterface.Wasm.Leb128
