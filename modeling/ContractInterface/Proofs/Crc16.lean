/-
# What the checksum detects

The register of the check can be fed bit by bit: a bit is added to the top of the register, which
is then multiplied by `x`.  Both are linear, and multiplication by `x` loses nothing, so two byte
strings have the same checksum only if their parts from the first difference to the last one feed
the register equally; and up to sixteen bits are read off a register that was fed them.  The main
results are

* `checksum_eq_run`: the checksum of a byte string is the register fed with its bits;
* `run_injective`: different registers stay different when they are fed the same bits;
* `eq_of_checksum_eq`: byte strings that differ in at most sixteen neighbouring bits have
  different checksums;
* `eq_of_run_agrees`: bits that differ in at most nine places leave registers that differ outside
  of six bits of the low half.
-/
import ContractInterface.Crc16
import ContractInterface.Proofs.Bytes.Bits

namespace ContractInterface.Crc16

/-! ### Multiplication by `x` -/

lemma xor_xor_cancel (a b c : BitVec 16) : a ^^^ b ^^^ (a ^^^ c) = b ^^^ c := by
  calc a ^^^ b ^^^ (a ^^^ c)
      = a ^^^ a ^^^ (b ^^^ c) := by ac_rfl
    _ = b ^^^ c := by rw [BitVec.xor_self, BitVec.zero_xor]

lemma shift_xor (a b : BitVec 16) : shift (a ^^^ b) = shift a ^^^ shift b := by
  simp only [shift, BitVec.msb_xor, BitVec.shiftLeft_xor_distrib]
  cases a.msb <;> cases b.msb
  · rfl
  · exact BitVec.xor_assoc _ _ _
  · simp only [Bool.xor_false, if_true, Bool.false_eq_true, if_false]
    ac_rfl
  -- the generator is added to both and not to their sum
  · simp only [Bool.xor_self, if_true, Bool.false_eq_true, if_false]
    rw [BitVec.xor_comm (a <<< 1) generator, BitVec.xor_comm (b <<< 1) generator, xor_xor_cancel]

/-- A register is lost by a multiplication only if it is zero: the generator ends with one. -/
lemma eq_zero_of_shift_eq_zero {register : BitVec 16} (h : shift register = 0#16) :
    register = 0#16 := by
  have hbit (i : Nat) : (shift register).getLsbD i = false := by
    rw [h]
    exact BitVec.getLsbD_zero
  cases hmsb : register.msb with
  -- the lowest bit is the one of the generator
  | true => simpa [shift, hmsb, generator] using hbit 0
  | false =>
    apply BitVec.eq_of_getLsbD_eq
    intro i hi
    rw [BitVec.getLsbD_zero]
    rcases Nat.lt_or_ge i 15 with hlow | hhigh
    · have hnext := hbit (i + 1)
      have hlt : i + 1 < 16 := by omega
      simpa [shift, hmsb, hlt, BitVec.getLsbD_eq_getElem hi] using hnext
    · obtain rfl : i = 15 := by omega
      rwa [BitVec.msb_eq_getLsbD_last] at hmsb

lemma shift_injective : Function.Injective shift := by
  intro a b h
  apply BitVec.xor_eq_zero_iff.1
  apply eq_zero_of_shift_eq_zero
  rw [shift_xor, h, BitVec.xor_self]

lemma iterate_shift_xor (n : Nat) (a b : BitVec 16) :
    shift^[n] (a ^^^ b) = shift^[n] a ^^^ shift^[n] b := by
  induction n generalizing a b with
  | zero => rfl
  | succ n ih => rw [Function.iterate_succ_apply, shift_xor, ih]; rfl

/-! ### Feeding bits -/

/-- The register with one bit at its top. -/
def top (bit : Bool) : BitVec 16 := if bit then 0x8000#16 else 0#16

lemma getLsbD_top : ∀ bit, ∀ i < 15, (top bit).getLsbD i = false := by
  decide

lemma msb_top : ∀ bit, (top bit).msb = bit := by
  decide

/-- Feeds a register with bits, one after another. -/
def run (register : BitVec 16) (bits : List Bool) : BitVec 16 :=
  bits.foldl (fun register bit => shift (register ^^^ top bit)) register

lemma run_append (register : BitVec 16) (front back : List Bool) :
    run register (front ++ back) = run (run register front) back :=
  List.foldl_append

/-- Different registers stay different when they are fed the same bits. -/
lemma run_injective {a b : BitVec 16} (bits : List Bool) (h : run a bits = run b bits) : a = b := by
  induction bits generalizing a b with
  | nil => exact h
  | cons bit bits ih =>
    have hxor := shift_injective (ih h)
    exact BitVec.xor_left_inj _ |>.1 hxor

/-- The register with the given bits at its top. -/
def high : List Bool → BitVec 16
  | [] => 0#16
  | bit :: bits => top bit ^^^ high bits >>> 1

/-- Below its bits a register is empty. -/
lemma getLsbD_high {bits : List Bool} {i : Nat} (h : i + bits.length < 16) :
    (high bits).getLsbD i = false := by
  induction bits generalizing i with
  | nil => exact BitVec.getLsbD_zero
  | cons bit bits ih =>
    rw [List.length_cons] at h
    rw [high, BitVec.getLsbD_xor, getLsbD_top bit i (by omega), BitVec.getLsbD_ushiftRight,
      ih (by omega)]
    rfl

lemma msb_ushiftRight (register : BitVec 16) : (register >>> 1).msb = false := by
  simp [BitVec.msb_eq_getLsbD_last]

/-- What is moved down from the top is moved up again by a multiplication. -/
lemma shift_high_shiftRight {bits : List Bool} (h : bits.length < 16) :
    shift (high bits >>> 1) = high bits := by
  have hlow : (high bits).getLsbD 0 = false := getLsbD_high (by omega)
  rw [shift, msb_ushiftRight]
  apply BitVec.eq_of_getLsbD_eq
  intro i hi
  cases i with
  | zero => simpa using hlow.symm
  | succ i => simp [hi, Nat.add_comm]

/-- Up to sixteen bits can be added at once, before the register is multiplied. -/
lemma run_eq_iterate {bits : List Bool} (h : bits.length ≤ 16) (register : BitVec 16) :
    run register bits = shift^[bits.length] (register ^^^ high bits) := by
  induction bits generalizing register with
  | nil => exact (BitVec.xor_zero).symm
  | cons bit bits ih =>
    rw [List.length_cons] at h
    -- the later bits stand one place too low for the first multiplication, which moves them up
    have hxor : shift (register ^^^ high (bit :: bits)) =
        shift (register ^^^ top bit) ^^^ high bits := by
      rw [high, ← BitVec.xor_assoc, shift_xor, shift_high_shiftRight (by omega)]
    rw [List.length_cons, Function.iterate_succ_apply, hxor, ← ih (by omega)]
    rfl

/-- Up to sixteen bits are read off the register that has them at its top. -/
lemma high_injective {bits bits' : List Bool} (h : bits.length ≤ 16)
    (hlen : bits.length = bits'.length) (hhigh : high bits = high bits') : bits = bits' := by
  induction bits generalizing bits' with
  | nil => exact (List.length_eq_zero_iff.1 hlen.symm).symm
  | cons bit bits ih =>
    obtain ⟨bit', bits', rfl⟩ := List.exists_cons_of_length_eq_add_one hlen.symm
    rw [List.length_cons] at h
    have hlen' : bits.length = bits'.length := Nat.succ.inj hlen
    have hbit := congrArg BitVec.msb hhigh
    simp only [high, BitVec.msb_xor, msb_top, msb_ushiftRight, Bool.xor_false] at hbit
    subst hbit
    -- below the first bit nothing is lost by moving up
    have hrest := congrArg shift ((BitVec.xor_right_inj _).1 hhigh)
    rw [shift_high_shiftRight (by omega), shift_high_shiftRight (by omega)] at hrest
    rw [ih (by omega) hlen' hrest]

lemma run_left_injective {bits bits' : List Bool} (h : bits.length ≤ 16)
    (hlen : bits.length = bits'.length) {register : BitVec 16}
    (hrun : run register bits = run register bits') : bits = bits' := by
  rw [run_eq_iterate h, run_eq_iterate (hlen ▸ h), ← hlen] at hrun
  have hhigh := (shift_injective.iterate _) hrun
  exact high_injective h hlen (BitVec.xor_right_inj _ |>.1 hhigh)

/-! ### Checksums -/

lemma step_eq_run (register : BitVec 16) (byte : UInt8) :
    step register byte = run register (bitsOf 8 byte.toNat) := by
  have hhigh : ∀ n < 256, high (bitsOf 8 n) = BitVec.ofNat 16 n <<< 8 := by decide +kernel
  have hbyte : byte.toBitVec.setWidth 16 = BitVec.ofNat 16 byte.toNat := by
    apply BitVec.eq_of_toNat_eq
    simp
  have hlen : (bitsOf 8 byte.toNat).length = 8 := length_bitsOf 8 _
  rw [run_eq_iterate (by omega), hlen, hhigh _ byte.toNat_lt, step, hbyte]
  rfl

/-- The checksum of a byte string is the register fed with its bits. -/
theorem checksum_eq_run (bytes : Bytes) : checksum bytes = run 0#16 (Bytes.bits bytes) := by
  have hfold (register : BitVec 16) :
      bytes.foldl step register = run register (Bytes.bits bytes) := by
    induction bytes generalizing register with
    | nil => rfl
    | cons byte bytes ih => rw [List.foldl_cons, ih, step_eq_run, Bytes.bits_cons, run_append]
  exact hfold 0#16

/-- Byte strings that differ in at most sixteen neighbouring bits have different checksums. -/
theorem eq_of_checksum_eq {first : Nat} {old new : Bytes}
    (h : ChangedAt first 16 (Bytes.bits old) (Bytes.bits new))
    (hsum : checksum new = checksum old) : new = old := by
  obtain ⟨front, middle, middle', back, hold, hnew, hle, hlen⟩ := h.exists_middle
  rw [checksum_eq_run, checksum_eq_run, hold, hnew, run_append, run_append, run_append,
    run_append] at hsum
  have hmiddle := run_left_injective hle hlen (run_injective back hsum.symm)
  exact Bytes.bits_injective (by rw [hold, hnew, hmiddle])

/-- A register that is empty below its top nine bits is one of 512. -/
lemma exists_top_nine {register : BitVec 16} (h : ∀ i < 7, register.getLsbD i = false) :
    ∃ n < 512, register = BitVec.ofNat 16 n <<< 7 := by
  have hlt := register.isLt
  have hshift : BitVec.ofNat 16 (register.toNat / 2 ^ 7) = register >>> 7 := by
    apply BitVec.eq_of_toNat_eq
    rw [BitVec.toNat_ofNat, BitVec.toNat_ushiftRight, Nat.shiftRight_eq_div_pow]
    exact Nat.mod_eq_of_lt (by omega)
  refine ⟨register.toNat / 2 ^ 7, by omega, ?_⟩
  rw [hshift]
  apply BitVec.eq_of_getLsbD_eq
  intro i hi
  rcases Nat.lt_or_ge i 7 with hlow | hhigh
  · simp [h i hlow, hlow]
  · have hsum : 7 + (i - 7) = i := by omega
    simp [hi, hhigh, hsum]

/-- Bits that differ in at most nine places leave registers that differ outside of six bits of the
low half. -/
theorem eq_of_run_agrees {bits bits' : List Bool} (hlen : bits.length = 9)
    (hlen' : bits'.length = 9) {register : BitVec 16}
    (hhigh : (run register bits).toNat / 2 ^ 8 = (run register bits').toNat / 2 ^ 8)
    (hlow : (run register bits).toNat % 2 ^ 2 = (run register bits').toNat % 2 ^ 2) :
    bits = bits' := by
  -- by linearity this is about one register, of which there are only as many as nine bits allow
  have hsearch : ∀ n < 512, (shift^[9] (BitVec.ofNat 16 n <<< 7)).toNat / 2 ^ 8 = 0 →
      (shift^[9] (BitVec.ofNat 16 n <<< 7)).toNat % 2 ^ 2 = 0 → n = 0 := by
    decide +kernel
  obtain ⟨n, hn, hdiff⟩ : ∃ n < 512, high bits ^^^ high bits' = BitVec.ofNat 16 n <<< 7 := by
    apply exists_top_nine
    intro i hi
    rw [BitVec.getLsbD_xor, getLsbD_high (by omega), getLsbD_high (by omega)]
    rfl
  have hxor : (shift^[9] (BitVec.ofNat 16 n <<< 7)).toNat =
      (run register bits).toNat ^^^ (run register bits').toNat := by
    rw [← BitVec.toNat_xor, run_eq_iterate (by omega), run_eq_iterate (by omega), hlen, hlen',
      ← iterate_shift_xor, xor_xor_cancel, hdiff]
  have hzero : n = 0 := by
    apply hsearch n hn
    · rw [hxor, Nat.xor_div_two_pow, hhigh, Nat.xor_self]
    · rw [hxor, Nat.xor_mod_two_pow, hlow, Nat.xor_self]
  have hsame : high bits = high bits' := by
    rw [← BitVec.xor_eq_zero_iff, hdiff, hzero]
    rfl
  exact high_injective (by omega) (hlen.trans hlen'.symm) hsame

end ContractInterface.Crc16
