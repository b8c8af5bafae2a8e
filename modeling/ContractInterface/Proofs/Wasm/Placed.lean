/-
# Numbers at a place of a byte string

Whether a number stands at an offset is told by the bytes from there on: it ends at the first byte
whose high bit is clear, which is one of the next five, and the low bits of its bytes are its digits
to base 128, lowest first.  The main results are

* `groups_iff`: groups, told by the places of their bytes;
* `readAt_eq_ok_iff`, `readAt_eq_error_iff`: what is read at an offset, or why nothing is;
* `readAt_exact`: both, with the numbers that are read back.
-/
import Mathlib.Algebra.BigOperators.Fin
import ContractInterface.Proofs.Wasm.Leb128

namespace ContractInterface.Wasm.Leb128

/-! ### Groups by the places of their bytes -/

lemma testBit_seven_iff {byte : UInt8} : byte.toNat.testBit 7 ↔ ¬byte < 0x80 := by
  have hbyte : byte.toNat < 256 := byte.toNat_lt
  rw [UInt8.lt_iff_toNat_lt, Nat.testBit_eq_decide_div_mod_eq, decide_eq_true_iff]
  show byte.toNat / 128 % 2 = 1 ↔ ¬byte.toNat < 128
  omega

/-- Exactly the bytes before the last have their high bit set. -/
def EndsAtLast (bytes : Bytes) : Prop :=
  ∀ i (h : i < bytes.length), bytes[i].toNat.testBit 7 ↔ i < bytes.length - 1

instance (bytes : Bytes) : Decidable (EndsAtLast bytes) :=
  inferInstanceAs (Decidable (∀ i (_ : i < bytes.length), _ ↔ _))

lemma endsAtLast_singleton {byte : UInt8} : EndsAtLast [byte] ↔ byte < 0x80 := by
  rw [← not_not (a := byte < 0x80), ← testBit_seven_iff]
  constructor
  · intro h hbit
    exact Nat.not_lt_zero 0 ((h 0 Nat.one_pos).1 hbit)
  · intro hbit i hi
    obtain rfl : i = 0 := Nat.lt_one_iff.1 hi
    exact iff_of_false hbit (Nat.lt_irrefl 0)

lemma endsAtLast_cons {byte : UInt8} {bytes : Bytes} (h : bytes ≠ []) :
    EndsAtLast (byte :: bytes) ↔ ¬byte < 0x80 ∧ EndsAtLast bytes := by
  have hlen : 0 < bytes.length := List.length_pos_iff.2 h
  rw [← testBit_seven_iff]
  constructor
  · intro hends
    refine ⟨(hends 0 (Nat.succ_pos _)).2 hlen, fun i hi => ?_⟩
    have hnext := hends (i + 1) (Nat.succ_lt_succ hi)
    rw [List.getElem_cons_succ, List.length_cons] at hnext
    rw [hnext]
    omega
  · rintro ⟨hbit, hends⟩ i hi
    cases i with
    | zero => exact iff_of_true hbit hlen
    | succ i =>
      have hi : i < bytes.length := Nat.lt_of_succ_lt_succ hi
      rw [List.getElem_cons_succ, hends i hi, List.length_cons]
      omega

/-- The number whose digits to base 128 are the low bits of the bytes, lowest first. -/
def lowBits (bytes : Bytes) : Nat :=
  ∑ i : Fin bytes.length, bytes[i].toNat % 128 * 128 ^ (i : Nat)

lemma lowBits_cons (byte : UInt8) (bytes : Bytes) :
    lowBits (byte :: bytes) = byte.toNat % 128 + 128 * lowBits bytes := by
  refine (Fin.sum_univ_succ _).trans ?_
  rw [lowBits, Finset.mul_sum]
  congr 1
  · exact Nat.mul_one _
  · refine Finset.sum_congr rfl fun i _ => ?_
    show bytes[i].toNat % 128 * 128 ^ (i.val + 1) = 128 * (bytes[i].toNat % 128 * 128 ^ i.val)
    rw [pow_succ, ← Nat.mul_assoc, Nat.mul_comm]

lemma lowBits_singleton {byte : UInt8} (h : byte < 0x80) : lowBits [byte] = byte.toNat :=
  (lowBits_cons byte []).trans (Nat.mod_eq_of_lt h)

/-- **Groups are told by the places of their bytes.** -/
theorem groups_iff {n : Nat} {bytes : Bytes} :
    Groups n bytes ↔ bytes ≠ [] ∧ EndsAtLast bytes ∧ n = lowBits bytes := by
  constructor
  · intro h
    induction h with
    | @last byte hbyte =>
      exact ⟨List.cons_ne_nil _ _, endsAtLast_singleton.2 hbyte, (lowBits_singleton hbyte).symm⟩
    | more hbyte _ ih =>
      obtain ⟨hne, hends, rfl⟩ := ih
      exact ⟨List.cons_ne_nil _ _, (endsAtLast_cons hne).2 ⟨hbyte, hends⟩, (lowBits_cons ..).symm⟩
  · rintro ⟨hne, hends, rfl⟩
    induction bytes with
    | nil => exact absurd rfl hne
    | cons byte bytes ih =>
      rcases eq_or_ne bytes [] with rfl | hrest
      · have hbyte := endsAtLast_singleton.1 hends
        rw [lowBits_singleton hbyte]
        exact .last hbyte
      · obtain ⟨hbyte, hends⟩ := (endsAtLast_cons hrest).1 hends
        rw [lowBits_cons]
        exact .more hbyte (ih hrest hends)

/-! ### Numbers at an offset -/

/-- At an offset of a byte string stand `count` groups, one to five, that make up the number `n`. -/
structure StandsAt (data : Bytes) (offset count n : Nat) : Prop where
  count_pos : 1 ≤ count
  count_le : count ≤ 5
  inside : offset + count ≤ data.length
  ends : EndsAtLast ((data.drop offset).take count)
  eq_lowBits : n = lowBits ((data.drop offset).take count)

variable {data : Bytes} {offset count n : Nat}

/-- Groups in front of what follows an offset are inside. -/
lemma length_eq_of_drop_eq {form rest : Bytes} (hne : form ≠ [])
    (hdata : data.drop offset = form ++ rest) :
    data.length = offset + form.length + rest.length := by
  have hpos : 1 ≤ form.length := List.length_pos_iff.2 hne
  have hlen := congrArg List.length hdata
  rw [List.length_drop, List.length_append] at hlen
  omega

/-- A number stands where its groups are in front of what follows the offset. -/
lemma standsAt_iff : StandsAt data offset count n ↔
    ∃ form rest, Groups n form ∧ form.length = count ∧ count ≤ 5 ∧
      data.drop offset = form ++ rest := by
  constructor
  · rintro ⟨hpos, hle, hinside, hends, hn⟩
    have hlen : ((data.drop offset).take count).length = count := by
      rw [List.length_take, List.length_drop]
      omega
    have hne : (data.drop offset).take count ≠ [] := List.length_pos_iff.1 (by omega)
    exact ⟨_, _, groups_iff.2 ⟨hne, hends, hn⟩, hlen, hle, (List.take_append_drop ..).symm⟩
  · rintro ⟨form, rest, hgroups, rfl, hle, hdata⟩
    obtain ⟨hne, hends, hn⟩ := groups_iff.1 hgroups
    have hform : (data.drop offset).take form.length = form := by rw [hdata, List.take_left]
    have hlen := length_eq_of_drop_eq hne hdata
    rw [← hform] at hends hn
    exact ⟨List.length_pos_iff.2 hne, hle, by omega, hends, hn⟩

lemma readAt_eq_ok_iff_read {next : Nat} : readAt data offset = .ok (n, next) ↔
    ∃ rest, read (data.drop offset) = .ok (n, rest) ∧ data.length - rest.length = next := by
  rw [readAt]
  cases read (data.drop offset) with
  | error defect => exact iff_of_false nofun nofun
  | ok found => simp [Except.map, Prod.ext_iff]

lemma readAt_eq_error_iff_read {defect : Defect} :
    readAt data offset = .error defect ↔ read (data.drop offset) = .error defect := by
  rw [readAt]
  cases read (data.drop offset) with
  | error found => simp [Except.map]
  | ok found => exact iff_of_false nofun nofun

/-- **A number is read exactly where one of 32 bits stands**, up to the end of its groups. -/
theorem readAt_eq_ok_iff {next : Nat} : readAt data offset = .ok (n, next) ↔
    ∃ count, StandsAt data offset count n ∧ n < 2 ^ 32 ∧ next = offset + count := by
  rw [readAt_eq_ok_iff_read]
  constructor
  · rintro ⟨rest, hread, rfl⟩
    obtain ⟨form, ⟨hgroups, hle, hsize⟩, hdata⟩ := read_eq_ok_iff.1 hread
    have hlen := length_eq_of_drop_eq (groups_iff.1 hgroups).1 hdata
    exact ⟨form.length, standsAt_iff.2 ⟨form, rest, hgroups, rfl, hle, hdata⟩, hsize, by omega⟩
  · rintro ⟨count, hstands, hsize, rfl⟩
    obtain ⟨form, rest, hgroups, rfl, hle, hdata⟩ := standsAt_iff.1 hstands
    have hlen := length_eq_of_drop_eq (groups_iff.1 hgroups).1 hdata
    exact ⟨rest, read_eq_ok_iff.2 ⟨form, ⟨hgroups, hle, hsize⟩, hdata⟩, by omega⟩

/-- Why no number of 32 bits stands at an offset. -/
inductive Refused (data : Bytes) (offset : Nat) : Defect → Prop where
  /-- There are fewer than five bytes, and all have their high bit set. -/
  | truncated (hshort : data.length < offset + 5)
      (hhigh : ∀ byte ∈ data.drop offset, byte.toNat.testBit 7) : Refused data offset .truncated
  /-- There are five bytes with their high bit set. -/
  | tooLong (hlong : offset + 5 ≤ data.length)
      (hhigh : ∀ byte ∈ (data.drop offset).take 5, byte.toNat.testBit 7) :
      Refused data offset .tooLong
  /-- There are groups, but they make up a number that is too large. -/
  | overflow {count n : Nat} (hstands : StandsAt data offset count n) (hlarge : 2 ^ 32 ≤ n) :
      Refused data offset .overflow

/-- Groups that make up too large a number are read, and then refused. -/
lemma exists_readGroups_iff : (∃ n rest, readGroups 5 (data.drop offset) = .ok (n, rest) ∧
    UInt32.size ≤ n) ↔ ∃ count n, StandsAt data offset count n ∧ 2 ^ 32 ≤ n := by
  constructor
  · rintro ⟨n, rest, hread, hlarge⟩
    obtain ⟨form, hgroups, hle, hdata⟩ := exists_groups_of_readGroups hread
    exact ⟨form.length, n, standsAt_iff.2 ⟨form, rest, hgroups, rfl, hle, hdata⟩, hlarge⟩
  · rintro ⟨count, n, hstands, hlarge⟩
    obtain ⟨form, rest, hgroups, rfl, hle, hdata⟩ := standsAt_iff.1 hstands
    exact ⟨n, rest, hdata ▸ readGroups_append hgroups hle rest, hlarge⟩

/-- **Where no number is read, the bytes tell why.** -/
theorem readAt_eq_error_iff {defect : Defect} :
    readAt data offset = .error defect ↔ Refused data offset defect := by
  rw [readAt_eq_error_iff_read, read_eq_error_iff, exists_readGroups_iff, readGroups_eq_error_iff]
  simp only [← testBit_seven_iff, List.length_drop]
  constructor
  · rintro (⟨hhigh, rfl⟩ | ⟨rfl, count, n, hstands, hlarge⟩)
    · split_ifs with hshort
      · -- the next five bytes are all that there are
        rw [List.take_of_length_le (by rw [List.length_drop]; omega)] at hhigh
        exact .truncated (by omega) hhigh
      · exact .tooLong (by omega) hhigh
    · exact .overflow hstands hlarge
  · intro h
    cases h with
    | truncated hshort hhigh =>
      refine .inl ⟨fun byte hbyte => hhigh byte (List.mem_of_mem_take hbyte), ?_⟩
      rw [if_pos (by omega)]
    | tooLong hlong hhigh => exact .inl ⟨hhigh, (if_neg (by omega)).symm⟩
    | overflow hstands hlarge => exact .inr ⟨rfl, _, _, hstands, hlarge⟩

/-- **Numbers are read exactly where they stand.**  At an offset of a byte string a number is read
if and only if one to five bytes are there of which exactly those before the last have their high
bit set, it is the sum of their low seven bits times the powers of 128, lowest first, and it is
below `2 ^ 32`; reading stops right behind them.  Otherwise reading fails: the bytes, fewer than
five, all have their high bit set, or five bytes have, or the sum is too large.  In particular a
number below `2 ^ 32` is read back from the groups that it needs, with anything in front of and
behind them, and wherever else it stands, it takes no fewer. -/
theorem readAt_exact (data : Bytes) (offset : Nat) :
    (∀ n next, readAt data offset = .ok (n, next) ↔
      ∃ count, StandsAt data offset count n ∧ n < 2 ^ 32 ∧ next = offset + count) ∧
    ((¬∃ count n, StandsAt data offset count n ∧ n < 2 ^ 32) →
      ∃ defect, readAt data offset = .error defect) ∧
    (∀ defect, readAt data offset = .error defect ↔ Refused data offset defect) ∧
    ∀ n, n < 2 ^ 32 →
      (∀ before after, readAt (before ++ encode n ++ after) before.length =
        .ok (n, before.length + (encode n).length)) ∧
      ∀ count, StandsAt data offset count n → (encode n).length ≤ count := by
  refine ⟨fun n next => readAt_eq_ok_iff, fun hnone => ?_, fun defect => readAt_eq_error_iff,
    fun n hn => ⟨fun before after => ?_, fun count hstands => ?_⟩⟩
  · cases h : readAt data offset with
    | error defect => exact ⟨defect, rfl⟩
    | ok found =>
      obtain ⟨count, hstands, hsize, -⟩ := readAt_eq_ok_iff.1 h
      exact absurd ⟨count, _, hstands, hsize⟩ hnone
  · obtain ⟨hgroups, hle, -⟩ := form_encode (show n < UInt32.size from hn)
    have hdata : (before ++ encode n ++ after).drop before.length = encode n ++ after := by
      rw [List.append_assoc, List.drop_left]
    exact readAt_eq_ok_iff.2
      ⟨_, standsAt_iff.2 ⟨encode n, after, hgroups, rfl, hle, hdata⟩, hn, rfl⟩
  · obtain ⟨form, rest, hgroups, rfl, -⟩ := standsAt_iff.1 hstands
    exact length_encode_le_of_groups hgroups

/-- A number in more groups than it needs, and five groups that make up `2 ^ 32` and more. -/
def paddedData : Bytes :=
  [0xFF, 0x85, 0x80, 0x00, 0xFF, 0xFF, 0xFF, 0xFF, 0x10]

theorem readAt_exact_padded :
    (5 < 2 ^ 32 ∧ StandsAt paddedData 1 3 5 ∧ readAt paddedData 1 = .ok (5, 4) ∧
      (encode 5).length ≤ 3 ∧
      ∀ before after, readAt (before ++ encode 5 ++ after) before.length =
        .ok (5, before.length + (encode 5).length)) ∧
    (¬∃ count n, StandsAt paddedData 4 count n ∧ n < 2 ^ 32) ∧
      Refused paddedData 4 .overflow ∧ ∃ defect, readAt paddedData 4 = .error defect := by
  obtain ⟨hread, -, -, hencode⟩ := readAt_exact paddedData 1
  have hsize : 5 < 2 ^ 32 := by decide
  have hstands : StandsAt paddedData 1 3 5 :=
    ⟨by decide, by decide, by decide, by decide, by decide⟩
  refine ⟨⟨hsize, hstands, (hread 5 4).2 ⟨3, hstands, hsize, rfl⟩, (hencode 5 hsize).2 3 hstands,
    (hencode 5 hsize).1⟩, ?_⟩
  obtain ⟨hread, hother, hrefused, -⟩ := readAt_exact paddedData 4
  have hlarge : readAt paddedData 4 = .error .overflow := rfl
  have hnone : ¬∃ count n, StandsAt paddedData 4 count n ∧ n < 2 ^ 32 := by
    rintro ⟨count, n, hstands, hsize⟩
    have hok := (hread n (4 + count)).2 ⟨count, hstands, hsize, rfl⟩
    rw [hlarge] at hok
    cases hok
  exact ⟨hnone, (hrefused .overflow).1 hlarge, hother hnone⟩

end ContractInterface.Wasm.Leb128
