/-
# Numbers in byte strings

A number below the bound of a width is written in exactly one way at that width, and every byte
string of that width is the written form of a number.  The main results are

* `Bytes.toNat_ofNat`: what is written is read back, modulo the bound;
* `Bytes.ofNat_toNat`: what is read is written back.
-/
import Mathlib.Data.List.Induction
import Mathlib.Tactic.Ring
import ContractInterface.Bytes

namespace ContractInterface.Bytes

@[simp] lemma bound_zero : bound 0 = 1 := rfl

lemma bound_succ (width : Nat) : bound (width + 1) = bound width * 256 :=
  Nat.pow_succ ..

lemma bound_four : bound 4 = 4294967296 := rfl

@[simp] lemma toNat_nil : toNat [] = 0 := rfl

@[simp] lemma toNat_concat (bytes : Bytes) (byte : UInt8) :
    toNat (bytes ++ [byte]) = toNat bytes * 256 + byte.toNat := by
  simp [toNat]

/-- A byte is determined by the last eight bits of any number that it is made from. -/
lemma ofNat_eq_of_mod {n : Nat} {byte : UInt8} (h : n % 256 = byte.toNat) :
    UInt8.ofNat n = byte := by
  apply UInt8.toNat.inj
  rw [UInt8.toNat_ofNat']
  exact h

/-- A byte string is read as a number that fits its length. -/
lemma toNat_lt_bound (bytes : Bytes) : toNat bytes < bound bytes.length := by
  induction bytes using List.reverseRecOn with
  | nil => simp
  | append_singleton bytes byte ih =>
    have hbyte := byte.toNat_lt
    rw [toNat_concat, List.length_append, List.length_singleton, bound_succ]
    omega

/-- A number that is written at a width is read back, modulo the bound of the width. -/
theorem toNat_ofNat (width n : Nat) : toNat (ofNat width n) = n % bound width := by
  induction width generalizing n with
  | zero => simp [ofNat, Nat.mod_one]
  | succ width ih =>
    have hlow : (UInt8.ofNat n).toNat = n % 256 := by simp
    rw [ofNat, toNat_concat, ih, hlow, bound_succ, Nat.mul_comm (bound width), Nat.mod_mul]
    ring

/-- A byte string is the written form, at its length, of the number that it is read as. -/
theorem ofNat_toNat (bytes : Bytes) : ofNat bytes.length (toNat bytes) = bytes := by
  induction bytes using List.reverseRecOn with
  | nil => rfl
  | append_singleton bytes byte ih =>
    have hbyte := byte.toNat_lt
    have hhigh : (toNat bytes * 256 + byte.toNat) / 256 = toNat bytes := by omega
    have hlow : UInt8.ofNat (toNat bytes * 256 + byte.toNat) = byte :=
      ofNat_eq_of_mod (by omega)
    rw [toNat_concat, List.length_append, List.length_singleton, ofNat, hhigh, ih, hlow]

/-- A number is written as its high part and then its low part. -/
lemma ofNat_add (high low n : Nat) :
    ofNat (high + low) n = ofNat high (n / bound low) ++ ofNat low n := by
  induction low generalizing n with
  | zero => simp [ofNat]
  | succ low ih =>
    have hquot : n / 256 / bound low = n / bound (low + 1) := by
      rw [Nat.div_div_eq_div_mul, Nat.mul_comm, bound_succ]
    rw [← Nat.add_assoc, ofNat, ih, hquot, ofNat, List.append_assoc]

/-- Only the part of a number that fits a width is written. -/
lemma ofNat_mod_bound (width n : Nat) : ofNat width (n % bound width) = ofNat width n := by
  have h := ofNat_toNat (ofNat width n)
  rw [length_ofNat, toNat_ofNat] at h
  exact h

lemma bound_eq_two_pow (width : Nat) : bound width = 2 ^ (8 * width) := by
  rw [pow_mul]
  rfl

/-- The number that a byte string stands for in two's complement, most significant byte first. -/
def toInt (bytes : Bytes) : Int :=
  if 2 * toNat bytes < bound bytes.length then toNat bytes
  else toNat bytes - bound bytes.length

end ContractInterface.Bytes
