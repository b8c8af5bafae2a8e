/-
# The written forms of the numbers of a module

A number has a form for each number of groups that holds it: leading groups of zeros are allowed,
up to five groups in all.  The main results are

* `read_append`: each form is read back, with anything behind it;
* `read_eq_ok_iff`: nothing else is read;
* `read_eq_error_iff`: why nothing is read;
* `form_encode`: the groups that a number needs are a form of it;
* `length_encode_le_of_groups`: and no form has fewer groups.
-/
import Mathlib.Algebra.Group.Nat.Defs
import Mathlib.Tactic.Lemma
import Mathlib.Tactic.SplitIfs
import ContractInterface.Wasm.Leb128

namespace ContractInterface.Wasm.Leb128

/-- `bytes` are groups of seven bits that make up the number `n`, lowest group first; every byte
but the last has its high bit set. -/
inductive Groups : (n : Nat) → (bytes : Bytes) → Prop where
  | last {byte : UInt8} (h : byte < 0x80) : Groups byte.toNat [byte]
  | more {byte : UInt8} {n : Nat} {bytes : Bytes} (h : ¬byte < 0x80) (rest : Groups n bytes) :
      Groups (byte.toNat % 128 + 128 * n) (byte :: bytes)

/-- `bytes` are a form of the number `n` of 32 bits. -/
structure Form (n : Nat) (bytes : Bytes) : Prop where
  groups : Groups n bytes
  length_le : bytes.length ≤ 5
  lt_size : n < UInt32.size

lemma readGroups_append {n limit : Nat} {bytes : Bytes} (h : Groups n bytes)
    (hlimit : bytes.length ≤ limit) (rest : Bytes) :
    readGroups limit (bytes ++ rest) = .ok (n, rest) := by
  induction h generalizing limit with
  | @last byte hbyte =>
    obtain ⟨limit, rfl⟩ := Nat.exists_eq_add_one.2 hlimit
    rw [List.cons_append, readGroups, if_pos hbyte, List.nil_append]
  | @more byte n bytes hbyte _ ih =>
    obtain ⟨limit, rfl⟩ := Nat.exists_eq_add_one.2 (Nat.zero_lt_of_lt hlimit)
    rw [List.cons_append, readGroups, if_neg hbyte, ih (Nat.le_of_succ_le_succ hlimit)]

/-- **Every form of a number is read back**, with anything behind it. -/
theorem read_append {n : Nat} {bytes : Bytes} (h : Form n bytes) (rest : Bytes) :
    read (bytes ++ rest) = .ok (n, rest) := by
  rw [read, readGroups_append h.groups h.length_le]
  exact if_pos h.lt_size

/-- What is read are groups, no more of them than allowed. -/
lemma exists_groups_of_readGroups {n limit : Nat} {bytes rest : Bytes}
    (h : readGroups limit bytes = .ok (n, rest)) :
    ∃ form, Groups n form ∧ form.length ≤ limit ∧ bytes = form ++ rest := by
  induction limit generalizing n bytes with
  | zero => cases h
  | succ limit ih =>
    cases bytes with
    | nil => cases h
    | cons byte bytes =>
      rw [readGroups] at h
      split_ifs at h with hbyte
      · cases h
        exact ⟨[byte], .last hbyte, Nat.le_add_left 1 limit, rfl⟩
      · cases hread : readGroups limit bytes with
        | error defect =>
          rw [hread] at h
          cases h
        | ok found =>
          rw [hread] at h
          cases h
          obtain ⟨form, hgroups, hlimit, rfl⟩ := ih hread
          exact ⟨byte :: form, .more hbyte hgroups, Nat.succ_le_succ hlimit, rfl⟩

/-- **A number is read exactly in front of one of its forms**, up to the end of this form. -/
theorem read_eq_ok_iff {n : Nat} {bytes rest : Bytes} :
    read bytes = .ok (n, rest) ↔ ∃ form, Form n form ∧ bytes = form ++ rest := by
  constructor
  · intro h
    rw [read] at h
    split at h
    · cases h
    · rename_i hread
      split_ifs at h with hsize
      cases h
      obtain ⟨form, hgroups, hlimit, rfl⟩ := exists_groups_of_readGroups hread
      exact ⟨form, ⟨hgroups, hlimit, hsize⟩, rfl⟩
  · rintro ⟨form, hform, rfl⟩
    exact read_append hform rest

/-- Reading groups fails behind bytes that all announce another one: the byte string ends there, or
the limit is reached. -/
lemma readGroups_eq_error_iff {limit : Nat} {bytes : Bytes} {defect : Defect} :
    readGroups limit bytes = .error defect ↔ (∀ byte ∈ bytes.take limit, ¬byte < 0x80) ∧
      defect = if bytes.length < limit then .truncated else .tooLong := by
  induction limit generalizing bytes with
  | zero => simp [readGroups, eq_comm]
  | succ limit ih =>
    cases bytes with
    | nil => simp [readGroups, eq_comm]
    | cons byte bytes =>
      simp only [List.take_succ_cons, List.forall_mem_cons, List.length_cons,
        Nat.add_lt_add_iff_right, and_assoc]
      rw [← ih, readGroups]
      by_cases hbyte : byte < 0x80
      · simp [hbyte]
      · rw [if_neg hbyte, and_iff_right hbyte]
        cases readGroups limit bytes with
        | error found => rfl
        | ok found => simp

/-- **Nothing is read** where groups do not end in time, or make up a number that is too large. -/
theorem read_eq_error_iff {bytes : Bytes} {defect : Defect} :
    read bytes = .error defect ↔ readGroups 5 bytes = .error defect ∨
      defect = .overflow ∧ ∃ n rest, readGroups 5 bytes = .ok (n, rest) ∧ UInt32.size ≤ n := by
  rw [read]
  cases readGroups 5 bytes with
  | error found => simp
  | ok found =>
    obtain ⟨n, rest⟩ := found
    by_cases hsize : n < UInt32.size
    · simp [hsize]
    · simp [hsize, Nat.le_of_not_lt hsize, eq_comm]

/-- The groups that a number needs. -/
def encode (n : Nat) : Bytes :=
  if n < 128 then [UInt8.ofNat n] else UInt8.ofNat (n % 128 + 128) :: encode (n / 128)
decreasing_by omega

lemma groups_encode (n : Nat) : Groups n (encode n) := by
  fun_induction encode n with
  | case1 n h =>
    have hbyte : (UInt8.ofNat n).toNat = n := by
      rw [UInt8.toNat_ofNat']
      omega
    have hlast : UInt8.ofNat n < 0x80 := by
      rw [UInt8.lt_iff_toNat_lt, hbyte]
      exact h
    have hgroups := Groups.last hlast
    rwa [hbyte] at hgroups
  | case2 n h ih =>
    have hbyte : (UInt8.ofNat (n % 128 + 128)).toNat = n % 128 + 128 := by
      rw [UInt8.toNat_ofNat']
      omega
    have hmore : ¬UInt8.ofNat (n % 128 + 128) < 0x80 := by
      rw [UInt8.lt_iff_toNat_lt, hbyte]
      exact Nat.not_lt.2 (Nat.le_add_left 128 _)
    have hgroups := Groups.more hmore ih
    rwa [hbyte, show (n % 128 + 128) % 128 + 128 * (n / 128) = n by omega] at hgroups

lemma length_encode_le {n groups : Nat} (h : n < 128 ^ (groups + 1)) :
    (encode n).length ≤ groups + 1 := by
  induction groups generalizing n with
  | zero =>
    rw [encode, if_pos (show n < 128 from h)]
    exact Nat.le_refl 1
  | succ groups ih =>
    rw [encode]
    split_ifs
    · exact Nat.le_add_left 1 _
    · rw [List.length_cons]
      -- the groups above the lowest make up a number that needs one group less
      have hrest : n / 128 < 128 ^ (groups + 1) :=
        Nat.div_lt_of_lt_mul (by rwa [Nat.pow_succ, Nat.mul_comm] at h)
      have hlen := ih hrest
      omega

/-- **No groups of a number are fewer than those that it needs.** -/
theorem length_encode_le_of_groups {n : Nat} {bytes : Bytes} (h : Groups n bytes) :
    (encode n).length ≤ bytes.length := by
  induction h with
  | @last byte hbyte =>
    rw [encode, if_pos (show byte.toNat < 128 from hbyte)]
    exact Nat.le_refl 1
  | @more byte n bytes hbyte _ ih =>
    rw [encode]
    split_ifs
    · exact Nat.le_add_left 1 _
    · -- above the lowest group there is the rest of the number
      rw [show (byte.toNat % 128 + 128 * n) / 128 = n by omega]
      exact Nat.succ_le_succ ih

/-- **The groups that a number of 32 bits needs are a form of it.** -/
theorem form_encode {n : Nat} (h : n < UInt32.size) : Form n (encode n) where
  groups := groups_encode n
  length_le := length_encode_le (Nat.lt_trans h (by decide))
  lt_size := h

end ContractInterface.Wasm.Leb128
