/-
# The checksum is a remainder

The bits of a byte string, most significant first, are the coefficients of a polynomial over the
field with two elements, and so are the bits of a register.  To feed a bit is to multiply the
register by `X` and to add the bit times `X ^ 16`, both modulo the divisor.  So the register that
was fed with a message holds the remainder of the message times `X ^ 16`, and what is true of
remainders is true of checksums.  The main results are

* `dvd_run`: what the register is fed with is kept up to multiples of the divisor;
* `ofRegister_checksum`: the checksum is the remainder of the message times `X ^ 16`;
* `checksum_remainder`: so a message followed by its checksum has the checksum zero, checksums add
  up, and sixteen neighbouring bits do not change unnoticed.
-/
import Mathlib
import ContractInterface.Proofs.Crc16

namespace ContractInterface.Crc16

open Polynomial

/-! ### Polynomials -/

/-- A bit as a coefficient. -/
def coefficient (bit : Bool) : ZMod 2 := if bit then 1 else 0

lemma coefficient_xor (a b : Bool) : coefficient (a ^^ b) = coefficient a + coefficient b := by
  cases a <;> cases b <;> decide

lemma coefficient_injective : Function.Injective coefficient := by
  decide

/-- The polynomial with given bits as coefficients, that of the highest power first. -/
noncomputable def polynomial : List Bool → (ZMod 2)[X]
  | [] => 0
  | bit :: bits => C (coefficient bit) * X ^ bits.length + polynomial bits

/-- The polynomial of a register: each bit is the coefficient of the power of its place. -/
noncomputable def ofRegister (register : BitVec 16) : (ZMod 2)[X] :=
  ∑ i ∈ Finset.range 16, C (coefficient (register.getLsbD i)) * X ^ i

/-- The generator with its leading term. -/
noncomputable def divisor : (ZMod 2)[X] := X ^ 16 + X ^ 12 + X ^ 5 + 1

lemma degree_divisor : divisor.degree = 16 := by
  rw [divisor]
  compute_degree!

lemma monic_divisor : divisor.Monic := by
  rw [divisor]
  monicity!

lemma coeff_ofRegister (register : BitVec 16) (i : Nat) :
    (ofRegister register).coeff i = coefficient (register.getLsbD i) := by
  rw [ofRegister, finsetSum_coeff]
  simp only [coeff_C_mul, coeff_X_pow, mul_ite, mul_one, mul_zero, Finset.sum_ite_eq,
    Finset.mem_range]
  split
  · rfl
  · rw [BitVec.getLsbD_of_ge register i (by omega)]
    rfl

lemma ofRegister_injective : Function.Injective ofRegister := by
  intro a b h
  apply BitVec.eq_of_getLsbD_eq
  intro i _
  apply coefficient_injective
  rw [← coeff_ofRegister, ← coeff_ofRegister, h]

lemma ofRegister_zero : ofRegister 0#16 = 0 := by
  ext i
  rw [coeff_ofRegister, BitVec.getLsbD_zero]
  rfl

lemma ofRegister_xor (a b : BitVec 16) : ofRegister (a ^^^ b) = ofRegister a + ofRegister b := by
  ext i
  rw [coeff_add, coeff_ofRegister, coeff_ofRegister, coeff_ofRegister, BitVec.getLsbD_xor,
    coefficient_xor]

/-- A register is smaller than the divisor. -/
lemma degree_ofRegister_lt (register : BitVec 16) :
    (ofRegister register).degree < divisor.degree := by
  rw [degree_divisor]
  refine (degree_lt_iff_coeff_zero _ _).mpr fun i hi => ?_
  rw [coeff_ofRegister, BitVec.getLsbD_of_ge register i hi]
  rfl

/-! ### Feeding bits -/

lemma ofRegister_generator : ofRegister generator = X ^ 12 + X ^ 5 + 1 := by
  have hbits : ∀ i < 16, generator.getLsbD i = decide (i ∈ [0, 5, 12]) := by decide
  have hsum : ofRegister generator =
      ∑ i ∈ Finset.range 16, C (coefficient (decide (i ∈ [0, 5, 12]))) * X ^ i :=
    Finset.sum_congr rfl fun i hi => by rw [hbits i (Finset.mem_range.mp hi)]
  rw [hsum]
  simp [Finset.sum_range_succ, coefficient]
  ring

lemma ofRegister_top (bit : Bool) : ofRegister (top bit) = C (coefficient bit) * X ^ 15 := by
  ext i
  rw [coeff_ofRegister, coeff_C_mul, coeff_X_pow]
  rcases Nat.lt_trichotomy i 15 with hlt | rfl | hgt
  · rw [getLsbD_top bit i hlt, if_neg (by omega), mul_zero]
    rfl
  · have hlast : (top bit).getLsbD 15 = bit := by cases bit <;> decide
    rw [hlast, if_pos rfl, mul_one]
  · rw [BitVec.getLsbD_of_ge _ i (by omega), if_neg (by omega), mul_zero]
    rfl

/-- A shift multiplies by `X`, but for the bit that is shifted out. -/
lemma X_mul_ofRegister (register : BitVec 16) :
    X * ofRegister register =
      ofRegister (register <<< 1) + C (coefficient register.msb) * X ^ 16 := by
  ext i
  rw [coeff_add, coeff_C_mul, coeff_X_pow, coeff_ofRegister, BitVec.getLsbD_shiftLeft]
  cases i with
  | zero => simp [coefficient]
  | succ i =>
    rw [coeff_X_mul, coeff_ofRegister]
    rcases Nat.lt_trichotomy i 15 with hlt | rfl | hgt
    · have hin : i + 1 < 16 := by omega
      have hne : i + 1 ≠ 16 := by omega
      simp [hin, hne]
    · simp [BitVec.msb_eq_getLsbD_last, coefficient]
    · have hout : ¬i + 1 < 16 := by omega
      have hne : i + 1 ≠ 16 := by omega
      rw [BitVec.getLsbD_of_ge register i (by omega)]
      simp [hout, hne, coefficient]

/-- **Multiplying a register by `X`** leaves it the same up to a multiple of the divisor. -/
lemma dvd_shift (register : BitVec 16) :
    divisor ∣ X * ofRegister register - ofRegister (shift register) := by
  rw [X_mul_ofRegister, shift]
  cases register.msb with
  | false => simp [coefficient]
  | true =>
    rw [if_pos rfl, ofRegister_xor, ofRegister_generator]
    have hdivisor : ofRegister (register <<< 1) + C (coefficient true) * X ^ 16 -
        (ofRegister (register <<< 1) + (X ^ 12 + X ^ 5 + 1)) = divisor := by
      rw [add_sub_add_left_eq_sub, CharTwo.sub_eq_add, divisor, coefficient, if_pos rfl, C_1]
      ring
    rw [hdivisor]

/-- **What a register is fed with is kept** up to a multiple of the divisor. -/
theorem dvd_run (register : BitVec 16) (bits : List Bool) :
    divisor ∣ ofRegister register * X ^ bits.length + polynomial bits * X ^ 16 -
      ofRegister (run register bits) := by
  induction bits generalizing register with
  | nil => simp [polynomial, run]
  | cons bit bits ih =>
    -- the bit is added at the top, and the sum is multiplied by `X`
    have hbit : X * ofRegister (register ^^^ top bit) =
        X * ofRegister register + C (coefficient bit) * X ^ 16 := by
      rw [ofRegister_xor, ofRegister_top]
      ring
    have hstep := dvd_mul_of_dvd_left (dvd_shift (register ^^^ top bit)) (X ^ bits.length)
    have hrest := ih (shift (register ^^^ top bit))
    rw [hbit] at hstep
    have hsum := dvd_add hstep hrest
    have hrun : run register (bit :: bits) = run (shift (register ^^^ top bit)) bits := rfl
    rw [hrun, polynomial, List.length_cons]
    convert hsum using 1
    ring

/-! ### Polynomials of bits -/

lemma polynomial_append (front back : List Bool) :
    polynomial (front ++ back) = polynomial front * X ^ back.length + polynomial back := by
  induction front with
  | nil => simp [polynomial]
  | cons bit front ih =>
    rw [List.cons_append, polynomial, polynomial, ih, List.length_append, pow_add]
    ring

lemma polynomial_zipWith_xor {bits bits' : List Bool} (hlen : bits.length = bits'.length) :
    polynomial (List.zipWith Bool.xor bits bits') = polynomial bits + polynomial bits' := by
  induction bits generalizing bits' with
  | nil =>
    rw [List.length_eq_zero_iff.mp hlen.symm]
    simp [polynomial]
  | cons bit bits ih =>
    obtain ⟨bit', bits', rfl⟩ := List.exists_cons_of_length_eq_add_one hlen.symm
    have hrest : bits.length = bits'.length := Nat.succ.inj hlen
    rw [List.zipWith_cons_cons, polynomial, polynomial, polynomial, ih hrest, List.length_zipWith,
      ← hrest, Nat.min_self, coefficient_xor, C_add]
    ring

lemma polynomial_bitsOf (count n : Nat) : polynomial (bitsOf count n) =
    ∑ i ∈ Finset.range count, C (coefficient (n.testBit i)) * X ^ i := by
  induction count generalizing n with
  | zero => rfl
  | succ count ih =>
    have hhigh : (∑ i ∈ Finset.range count, C (coefficient ((n / 2).testBit i)) * X ^ i) * X =
        ∑ i ∈ Finset.range count, C (coefficient (n.testBit (i + 1))) * X ^ (i + 1) := by
      rw [Finset.sum_mul]
      refine Finset.sum_congr rfl fun i _ => ?_
      rw [Nat.testBit_succ, pow_succ, mul_assoc]
    have hlow : polynomial [n.testBit 0] = C (coefficient (n.testBit 0)) * X ^ 0 := add_zero _
    rw [bitsOf, polynomial_append, ih, List.length_singleton, pow_one, hhigh, hlow,
      Finset.sum_range_succ']

/-- The bits of a register are those of the number that it stands for. -/
lemma polynomial_bitsOf_toNat (register : BitVec 16) :
    polynomial (bitsOf 16 register.toNat) = ofRegister register :=
  polynomial_bitsOf 16 register.toNat

lemma bits_ofNat_toNat (register : BitVec 16) :
    Bytes.bits (Bytes.ofNat 2 register.toNat) = bitsOf 16 register.toNat := by
  rw [Bytes.bits_eq_bitsOf, Bytes.length_ofNat, Bytes.toNat_ofNat, Bytes.bound_eq_two_pow]
  exact bitsOf_mod 16 register.toNat

lemma bitsOf_xor (count m n : Nat) :
    bitsOf count (m ^^^ n) = List.zipWith Bool.xor (bitsOf count m) (bitsOf count n) := by
  induction count generalizing m n with
  | zero => rfl
  | succ count ih =>
    have hlen : (bitsOf count (m / 2)).length = (bitsOf count (n / 2)).length := by simp
    have hhalf : (m ^^^ n) / 2 = m / 2 ^^^ n / 2 := Nat.xor_div_two_pow (n := 1)
    rw [bitsOf, bitsOf, bitsOf, List.zipWith_append hlen, hhalf, ih, Nat.testBit_xor]
    rfl

lemma bits_zipWith_xor {bytes other : Bytes} (hlen : bytes.length = other.length) :
    Bytes.bits (List.zipWith (· ^^^ ·) bytes other) =
      List.zipWith Bool.xor (Bytes.bits bytes) (Bytes.bits other) := by
  induction bytes generalizing other with
  | nil => rfl
  | cons byte bytes ih =>
    obtain ⟨byte', other, rfl⟩ := List.exists_cons_of_length_eq_add_one hlen.symm
    have hbits : (bitsOf 8 byte.toNat).length = (bitsOf 8 byte'.toNat).length := by simp
    rw [List.zipWith_cons_cons, Bytes.bits_cons, Bytes.bits_cons, Bytes.bits_cons,
      List.zipWith_append hbits, ih (Nat.succ.inj hlen), UInt8.toNat_xor, bitsOf_xor]

/-! ### Checksums -/

/-- **The checksum is the remainder** of the message times `X ^ 16`. -/
theorem ofRegister_checksum (bytes : Bytes) :
    ofRegister (checksum bytes) = (polynomial (Bytes.bits bytes) * X ^ 16) %ₘ divisor := by
  have hdvd := dvd_run 0#16 (Bytes.bits bytes)
  rw [ofRegister_zero, zero_mul, zero_add, ← checksum_eq_run] at hdvd
  rw [modByMonic_eq_of_dvd_sub monic_divisor hdvd,
    (modByMonic_eq_self_iff monic_divisor).mpr (degree_ofRegister_lt _)]

/-- A message followed by its checksum is a multiple of the divisor. -/
lemma checksum_append_checksum (bytes : Bytes) :
    checksum (bytes ++ Bytes.ofNat 2 (checksum bytes).toNat) = 0#16 := by
  have hmessage : polynomial (Bytes.bits (bytes ++ Bytes.ofNat 2 (checksum bytes).toNat)) =
      polynomial (Bytes.bits bytes) * X ^ 16 - ofRegister (checksum bytes) := by
    rw [Bytes.bits_append, bits_ofNat_toNat, polynomial_append, polynomial_bitsOf_toNat,
      length_bitsOf, CharTwo.sub_eq_add]
  have hdvd : divisor ∣ polynomial (Bytes.bits bytes) * X ^ 16 - ofRegister (checksum bytes) := by
    rw [ofRegister_checksum]
    exact dvd_sub_comm.mp (dvd_modByMonic_sub _ _)
  apply ofRegister_injective
  rw [ofRegister_checksum, hmessage, ofRegister_zero, modByMonic_eq_zero_iff_dvd monic_divisor]
  exact dvd_mul_of_dvd_left hdvd _

/-- Checksums add up as messages do. -/
lemma checksum_zipWith_xor {bytes other : Bytes} (hlen : bytes.length = other.length) :
    checksum (List.zipWith (· ^^^ ·) bytes other) = checksum bytes ^^^ checksum other := by
  have hbits : (Bytes.bits bytes).length = (Bytes.bits other).length := by simp [hlen]
  apply ofRegister_injective
  rw [ofRegister_xor, ofRegister_checksum, ofRegister_checksum, ofRegister_checksum,
    bits_zipWith_xor hlen, polynomial_zipWith_xor hbits, add_mul, add_modByMonic]

/-- **The checksum is the remainder of the message times `X ^ 16`**, the bits of the message being
the coefficients.  Hence a message followed by its checksum has the checksum zero, the sum of two
messages of one length has the sum of their checksums, and two messages that differ in up to sixteen
neighbouring bits have different checksums. -/
theorem checksum_remainder (bytes : Bytes) :
    ofRegister (checksum bytes) = (polynomial (Bytes.bits bytes) * X ^ 16) %ₘ divisor ∧
    checksum (bytes ++ Bytes.ofNat 2 (checksum bytes).toNat) = 0#16 ∧
    (∀ other : Bytes, bytes.length = other.length →
      checksum (List.zipWith (· ^^^ ·) bytes other) = checksum bytes ^^^ checksum other) ∧
    ∀ (other : Bytes) (first : Nat), ChangedAt first 16 (Bytes.bits bytes) (Bytes.bits other) →
      other ≠ bytes → checksum other ≠ checksum bytes :=
  ⟨ofRegister_checksum bytes, checksum_append_checksum bytes, fun _ => checksum_zipWith_xor,
    fun _ _ hchange hne hsum => hne (eq_of_checksum_eq hchange hsum)⟩

/-- The checksum of nine digits, of the digits followed by it, of their sum with other nine bytes,
and of the digits with sixteen bits changed that begin inside a byte. -/
theorem checksum_remainder_digits :
    checksum [49, 50, 51, 52, 53, 54, 55, 56, 57] = 0x31C3#16 ∧
      checksum [49, 50, 51, 52, 53, 54, 55, 56, 57, 0x31, 0xC3] = 0#16 ∧
      checksum (List.zipWith (· ^^^ ·) [49, 50, 51, 52, 53, 54, 55, 56, 57]
        [1, 2, 3, 4, 5, 6, 7, 8, 9]) = 0x31C3#16 ^^^ checksum [1, 2, 3, 4, 5, 6, 7, 8, 9] ∧
      checksum [49, 50, 51, 59, 202, 198, 55, 56, 57] ≠ 0x31C3#16 := by
  have hdigits : checksum [49, 50, 51, 52, 53, 54, 55, 56, 57] = 0x31C3#16 := by decide +kernel
  have hbytes : Bytes.ofNat 2 (0x31C3#16).toNat = [0x31, 0xC3] := by decide
  obtain ⟨-, hself, hxor, hburst⟩ := checksum_remainder [49, 50, 51, 52, 53, 54, 55, 56, 57]
  rw [hdigits, hbytes] at hself
  rw [hdigits] at hxor hburst
  refine ⟨hdigits, hself, hxor _ rfl, hburst _ 28 ?_ (by decide)⟩
  decide +kernel

end ContractInterface.Crc16
