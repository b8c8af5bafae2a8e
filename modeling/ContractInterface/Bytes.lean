/-
# Byte strings

Byte strings are lists of bytes.  Numbers inside them are written with the most significant
byte first; `toNat` reads such a number and `ofNat` writes one of a given width.
-/

namespace ContractInterface

/-- A byte string, first byte first. -/
abbrev Bytes := List UInt8

namespace Bytes

/-- The first `n` bytes and the rest, if there are that many. -/
def split? : Nat → Bytes → Option (Bytes × Bytes)
  | 0, bytes => some ([], bytes)
  | _ + 1, [] => none
  | n + 1, byte :: bytes => (split? n bytes).map fun (taken, rest) => (byte :: taken, rest)

/-- Cutting succeeds exactly where there are enough bytes, and loses none of them. -/
theorem split?_eq_some_iff {n : Nat} {bytes taken rest : Bytes} :
    split? n bytes = some (taken, rest) ↔ taken.length = n ∧ bytes = taken ++ rest := by
  induction n generalizing bytes taken with
  | zero =>
    cases taken <;> simp [split?, eq_comm]
  | succ n ih =>
    cases bytes with
    | nil => cases taken <;> simp [split?]
    | cons byte bytes =>
      cases taken with
      | nil => simp [split?]
      | cons b taken =>
        simp only [split?, Option.map_eq_some_iff, Prod.exists, Prod.mk.injEq, List.cons.injEq,
          List.length_cons, Nat.add_right_cancel_iff, List.cons_append]
        constructor
        · rintro ⟨t, r, h, ⟨rfl, rfl⟩, rfl⟩
          exact ⟨(ih.1 h).1, rfl, (ih.1 h).2⟩
        · rintro ⟨hlen, rfl, hbytes⟩
          exact ⟨taken, rest, ih.2 ⟨hlen, hbytes⟩, ⟨rfl, rfl⟩, rfl⟩

/-- Cutting fails exactly where there are too few bytes. -/
theorem split?_eq_none_iff {n : Nat} {bytes : Bytes} :
    split? n bytes = none ↔ bytes.length < n := by
  induction n generalizing bytes with
  | zero => simp [split?]
  | succ n ih => cases bytes <;> simp [split?, ih]

/-- The first number that does not fit a given width. -/
def bound (width : Nat) : Nat :=
  Nat.pow 256 width

/-- The number that a byte string stands for, most significant byte first. -/
def toNat (bytes : Bytes) : Nat :=
  bytes.foldl (fun n byte => n * 256 + byte.toNat) 0

/-- The last `width` base-256 digits of a number, most significant first. -/
def ofNat : (width n : Nat) → Bytes
  | 0, _ => []
  | width + 1, n => ofNat width (n / 256) ++ [UInt8.ofNat n]

@[simp] theorem length_ofNat (width n : Nat) : (ofNat width n).length = width := by
  induction width generalizing n with
  | zero => rfl
  | succ width ih => simp [ofNat, ih]

end Bytes

end ContractInterface
