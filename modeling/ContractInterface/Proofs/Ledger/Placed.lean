/-
# Values at a place of a byte string

A value is read at an offset, some levels deep, exactly if a value that fits into the levels that
are left stands there; it is read up to its end, whatever follows.  Of what is read, texts are
shown with replacements, and a wide number is the one that its bytes stand for.  The main results
are

* `Value.readAt_eq_ok`: the law for values at a place;
* `Value.wideNumber?_eq`: the wide numbers are those behind their kinds;
* `Value.readShownAt_exact`: both, for values with their texts.
-/
import ContractInterface.Proofs.Ledger.Texts
import ContractInterface.Proofs.Ledger.Values

namespace ContractInterface.Ledger

open Xdr Xdr.Cursor Xdr.Reader

/-! ### Wide numbers -/

section

variable {width : Nat} (n : BitVec width)

lemma length_ofWide : (ofWide n).length = width / 8 :=
  Bytes.length_ofNat ..

lemma bound_ofWide (hwidth : 8 ∣ width) : Bytes.bound (width / 8) = 2 ^ width := by
  rw [Bytes.bound_eq_two_pow, Nat.mul_div_cancel' hwidth]

/-- The bytes of a wide number stand for its bits. -/
lemma toNat_ofWide (hwidth : 8 ∣ width) : Bytes.toNat (ofWide n) = n.toNat := by
  rw [ofWide, Bytes.toNat_ofNat, bound_ofWide hwidth, Nat.mod_eq_of_lt n.isLt]

/-- The bytes of a wide number stand for the number with its sign. -/
lemma toInt_ofWide (hwidth : 8 ∣ width) : Bytes.toInt (ofWide n) = n.toInt := by
  rw [Bytes.toInt, toNat_ofWide n hwidth, length_ofWide, bound_ofWide hwidth, BitVec.toInt]

/-- A wide number takes the bytes of its width. -/
lemma take_ofWide (rest : Bytes) : (ofWide n ++ rest).take (width / 8) = ofWide n :=
  List.take_left' (length_ofWide n)

end

namespace Value

variable {α β : Type}

/-- The number that a value of a wide kind is. -/
def wideNumber? : Value α → Option Int
  | .u128 n => some n.toNat
  | .i128 n => some n.toInt
  | .u256 n => some n.toNat
  | .i256 n => some n.toInt
  | _ => none

/-- The number that the bytes behind a wide kind stand for: 16 or 32 of them, the most significant
first, and in two's complement if the kind has a sign. -/
def wideNumberIn? (behind : Bytes) : ValueKind → Option Int
  | .u128 => some (Bytes.toNat (behind.take 16))
  | .i128 => some (Bytes.toInt (behind.take 16))
  | .u256 => some (Bytes.toNat (behind.take 32))
  | .i256 => some (Bytes.toInt (behind.take 32))
  | _ => none

/-- A value of a wide kind is the number that stands behind its kind. -/
lemma wideNumber?_eq (value : Value) (rest : Bytes) :
    value.wideNumber? = wideNumberIn? (value.encodeBody ++ rest) value.kind := by
  cases value with
  | u128 n =>
    have htake : (ofWide n ++ rest).take 16 = ofWide n := take_ofWide n rest
    simp only [wideNumber?, kind, wideNumberIn?, encodeBody, htake, toNat_ofWide n (by decide)]
  | i128 n =>
    have htake : (ofWide n ++ rest).take 16 = ofWide n := take_ofWide n rest
    simp only [wideNumber?, kind, wideNumberIn?, encodeBody, htake, toInt_ofWide n (by decide)]
  | u256 n =>
    have htake : (ofWide n ++ rest).take 32 = ofWide n := take_ofWide n rest
    simp only [wideNumber?, kind, wideNumberIn?, encodeBody, htake, toNat_ofWide n (by decide)]
  | i256 n =>
    have htake : (ofWide n ++ rest).take 32 = ofWide n := take_ofWide n rest
    simp only [wideNumber?, kind, wideNumberIn?, encodeBody, htake, toInt_ofWide n (by decide)]
  | _ => rfl

/-! ### Values with texts -/

/-- Other texts make no other number. -/
lemma wideNumber?_mapText (f : α → β) (value : Value α) :
    (value.mapText f).wideNumber? = value.wideNumber? := by
  cases value with
  | vec items => cases items <;> rfl
  | map entries => cases entries <;> rfl
  | contractInstance executable storage => cases storage <;> rfl
  | _ => rfl

/-- Reads a value that stands `depth` levels inside another one, with its texts. -/
def readShownAt (depth : Int) : Reader (Value String) :=
  return (← readAt depth).shown

/-- A value that fits below `depth` levels stands at an offset of a byte string. -/
structure StandsAt (data : Bytes) (offset depth : Nat) (value : Value) : Prop where
  bounded : value.Bounded
  height_le : value.height + depth ≤ 128
  front : value.encode <+: data.drop offset

variable {data : Bytes} {offset depth : Nat}

/-- Below `depth` levels a value fits if it has no more levels than are left. -/
lemma fitsWithin_iff {value : Value} :
    value.FitsWithin (maxDepth + 1 - (depth : Int)).toNat ↔
      value.Bounded ∧ value.height + depth ≤ 128 := by
  rw [FitsWithin, maxDepth]
  refine and_congr_right fun _ => ?_
  omega

/-- **The law for values at a place.** -/
theorem readAt_eq_ok {value : Value} {next : Cursor} :
    readAt depth (place data offset) = .ok value next ↔
      StandsAt data offset depth value ∧ next = place data (offset + value.encode.length) := by
  rw [readAt, readWithin_eq_ok, fitsWithin_iff, passes_place_iff]
  constructor
  · rintro ⟨⟨hbounded, hheight⟩, -, hfront, hnext⟩
    exact ⟨⟨hbounded, hheight, hfront⟩, hnext⟩
  · rintro ⟨⟨hbounded, hheight, hfront⟩, hnext⟩
    have hlen := hfront.length_le
    have hfour := four_le_length_encode value
    rw [List.length_drop] at hlen
    exact ⟨⟨hbounded, hheight⟩, by omega, hfront, hnext⟩

/-- **A value is read exactly where one stands that fits into the levels that are left.**  At an
offset of a byte string, and some levels deep, reading succeeds exactly if the bytes from there on
begin with the written form of a value that keeps to its limits and has no more levels inside than
are left up to the 128th.  It gives this value, with each text as it is shown, and stops right
behind the form.  A number of 128 or 256 bits is the one that the 16 or 32 bytes behind its kind
stand for. -/
theorem readShownAt_exact (data : Bytes) (offset depth : Nat) :
    ((∃ result next, readShownAt depth (place data offset) = .ok result next) ↔
      ∃ value, StandsAt data offset depth value) ∧
    ∀ value, StandsAt data offset depth value →
      readShownAt depth (place data offset) =
        .ok value.shown (place data (offset + value.encode.length)) ∧
      value.shown.wideNumber? = wideNumberIn? (data.drop (offset + 4)) value.kind := by
  have hshown : ∀ value, StandsAt data offset depth value →
      readShownAt depth (place data offset) =
        .ok value.shown (place data (offset + value.encode.length)) := by
    intro value hvalue
    rw [readShownAt, bind_eq_ok]
    exact ⟨value, _, readAt_eq_ok.2 ⟨hvalue, rfl⟩, rfl⟩
  refine ⟨⟨?_, fun ⟨value, hvalue⟩ => ⟨_, _, hshown value hvalue⟩⟩,
    fun value hvalue => ⟨hshown value hvalue, ?_⟩⟩
  · rintro ⟨result, next, h⟩
    obtain ⟨value, _, hread, -⟩ := bind_eq_ok.1 h
    exact ⟨value, (readAt_eq_ok.1 hread).1⟩
  · obtain ⟨rest, hrest⟩ := hvalue.front
    have hbehind : data.drop (offset + 4) = value.encodeBody ++ rest := by
      rw [← List.drop_drop, ← hrest, encode, List.append_assoc,
        List.drop_left' (length_ofInt32 _)]
    rw [shown, wideNumber?_mapText, hbehind]
    exact wideNumber?_eq value rest

/-- A value with two levels inside, one of whose texts is none. -/
def sampleValue : Value :=
  .vec (some [.map (some [(.symbol [0x61, 0xFF], .i128 (-1))]), .error (.host .auth (-7))])

/-- The value between other bytes. -/
def sampleData : Bytes :=
  [0xAB] ++ sampleValue.encode ++ [1, 2, 3]

theorem readShownAt_exact_sample :
    StandsAt sampleData 1 126 sampleValue ∧
      readShownAt 126 (place sampleData 1) = .ok
        (.vec (some [.map (some [(.symbol "a\uFFFD", .i128 (-1))]), .error (.host .auth (-7))]))
        (place sampleData 69) ∧
      ¬∃ value, StandsAt sampleData 1 127 value := by
  have hstands : StandsAt sampleData 1 126 sampleValue := ⟨by decide, by decide, by decide⟩
  refine ⟨hstands, ((readShownAt_exact sampleData 1 126).2 sampleValue hstands).1, ?_⟩
  rw [← (readShownAt_exact sampleData 1 127).1]
  have hdeep : ∃ fault next,
      readShownAt (127 : Nat) (place sampleData 1) = .error fault next := ⟨_, _, rfl⟩
  rintro ⟨result, next, hread⟩
  obtain ⟨fault, next', hfault⟩ := hdeep
  rw [hread] at hfault
  cases hfault

end Value

end ContractInterface.Ledger
