/-
# Base32 of whole groups

A digit stands for five bits, so a text of digits stands for the bits of its digits one after
another, and no other text of digits stands for the same bits.  A byte string of whole groups has
no padding in its text, and reading allows no other spelling of it: a padded text never ends with
a whole group.  The main results are

* `Spells.unique`: a sequence of bits has at most one text;
* `decode_eq_ok_iff`: the text of a byte string of whole groups is the only one that is read as
  this byte string.
-/
import Mathlib.Data.List.TakeWhile
import ContractInterface.Bytes.Base32
import ContractInterface.Proofs.Bytes.Bits

namespace ContractInterface.Base32

/-! ### Digits -/

/-- A character of the alphabet. -/
def IsDigit (c : Char) : Prop := (value? c).isSome

instance : DecidablePred IsDigit := fun c => inferInstanceAs (Decidable ((value? c).isSome = true))

/-- The value of a digit. -/
def valueOf (c : Char) : Nat := (value? c).getD 0

/-- The five bits that a digit stands for. -/
def digitBits (c : Char) : List Bool := bitsOf 5 (valueOf c)

@[simp] lemma length_digitBits (c : Char) : (digitBits c).length = 5 :=
  length_bitsOf 5 _

lemma value?_digit : ∀ value < 32, value? (digit value) = some value := by
  decide

lemma isDigit_digit {value : Nat} (h : value < 32) : IsDigit (digit value) := by
  rw [IsDigit, value?_digit value h]
  rfl

lemma digitBits_digit {value : Nat} (h : value < 32) :
    digitBits (digit value) = bitsOf 5 value := by
  rw [digitBits, valueOf, value?_digit value h]
  rfl

/-- A digit is the one that its value is written with. -/
lemma eq_digit_of_value? {c : Char} {value : Nat} (h : value? c = some value) :
    value < 32 ∧ c = digit value := by
  have hofNat : Char.ofNat c.toNat = c := Char.ofNat_toNat c
  have hcapitals : 'A'.toNat = 65 ∧ 'Z'.toNat = 90 := by decide
  have hdecimals : '2'.toNat = 50 ∧ '7'.toNat = 55 := by decide
  have hle (d e : Char) : d ≤ e ↔ d.toNat ≤ e.toNat := Iff.rfl
  simp only [value?, Bool.and_eq_true, decide_eq_true_eq, hle] at h
  split_ifs at h with hcapital hdecimal
  · obtain rfl := Option.some.inj h
    have hlt : c.toNat - 'A'.toNat < 26 := by omega
    have hsum : 'A'.toNat + (c.toNat - 'A'.toNat) = c.toNat := by omega
    exact ⟨by omega, by rw [digit, if_pos hlt, hsum, hofNat]⟩
  · obtain rfl := Option.some.inj h
    have hlt : ¬ c.toNat - '2'.toNat + 26 < 26 := by omega
    have hsum : '2'.toNat + (c.toNat - '2'.toNat + 26 - 26) = c.toNat := by omega
    exact ⟨by omega, by rw [digit, if_neg hlt, hsum, hofNat]⟩

variable {c c' : Char}

lemma IsDigit.value? (h : IsDigit c) : value? c = some (valueOf c) := by
  obtain ⟨value, hvalue⟩ := Option.isSome_iff_exists.1 h
  rw [valueOf, hvalue]
  rfl

lemma IsDigit.valueOf_lt (h : IsDigit c) : valueOf c < 32 :=
  (eq_digit_of_value? h.value?).1

lemma IsDigit.digit_valueOf (h : IsDigit c) : c = digit (valueOf c) :=
  (eq_digit_of_value? h.value?).2

lemma IsDigit.ascii (h : IsDigit c) : c.toNat < 0x80 := by
  have hdigits : ∀ value < 32, (digit value).toNat < 0x80 := by decide
  rw [h.digit_valueOf]
  exact hdigits _ h.valueOf_lt

lemma IsDigit.ne_pad (h : IsDigit c) : c ≠ '=' := by
  have hdigits : ∀ value < 32, digit value ≠ '=' := by decide
  rw [h.digit_valueOf]
  exact hdigits _ h.valueOf_lt

/-- A digit is determined by its bits. -/
lemma IsDigit.eq_of_bits_eq (h : IsDigit c) (h' : IsDigit c') (hbits : digitBits c = digitBits c') :
    c = c' := by
  have hmod := bitsOf_eq_iff.1 hbits
  have hlt := h.valueOf_lt
  have hlt' := h'.valueOf_lt
  have hvalue : valueOf c = valueOf c' := by omega
  rw [h.digit_valueOf, hvalue, ← h'.digit_valueOf]

/-! ### Texts of digits -/

/-- A text of digits that stand for the given bits. -/
structure Spells (chars : List Char) (bits : List Bool) : Prop where
  isDigit : ∀ c ∈ chars, IsDigit c
  flatMap_eq : chars.flatMap digitBits = bits

namespace Spells

variable {chars chars' : List Char} {bits bits' : List Bool}

lemma nil : Spells [] [] := ⟨by simp, rfl⟩

lemma append (h : Spells chars bits) (h' : Spells chars' bits') :
    Spells (chars ++ chars') (bits ++ bits') where
  isDigit := by
    intro c hc
    rcases List.mem_append.1 hc with hc | hc
    · exact h.isDigit c hc
    · exact h'.isDigit c hc
  flatMap_eq := by rw [List.flatMap_append, h.flatMap_eq, h'.flatMap_eq]

lemma length_eq (h : Spells chars bits) : bits.length = 5 * chars.length := by
  rw [← h.flatMap_eq, length_pieces length_digitBits]

/-- A sequence of bits has at most one text. -/
theorem unique (h : Spells chars bits) (h' : Spells chars' bits) : chars = chars' := by
  refine eq_of_pieces_eq length_digitBits (by decide) ?_ (h.flatMap_eq.trans h'.flatMap_eq.symm)
  intro c hc c' hc' hbits
  exact (h.isDigit c hc).eq_of_bits_eq (h'.isDigit c' hc') hbits

end Spells

lemma spells_digitsOf (count n : Nat) : Spells (digitsOf count n) (bitsOf (5 * count) n) := by
  induction count generalizing n with
  | zero => exact Spells.nil
  | succ count ih =>
    have hlt : n % 32 < 32 := Nat.mod_lt _ (by decide)
    have hlast : Spells [digit (n % 32)] (bitsOf 5 n) := by
      refine ⟨?_, ?_⟩
      · rintro c hc
        rw [List.mem_singleton.1 hc]
        exact isDigit_digit hlt
      · rw [List.flatMap_singleton, digitBits_digit hlt]
        exact bitsOf_mod 5 n
    rw [digitsOf, Nat.mul_succ, bitsOf_add]
    exact (ih _).append hlast

/-- The text of a byte string of whole groups spells its bits. -/
lemma spells_encodeChars {bytes : Bytes} (h : 5 ∣ bytes.length) :
    Spells (encodeChars bytes) (Bytes.bits bytes) := by
  fun_induction encodeChars bytes with
  | case1 => exact Spells.nil
  -- a shorter last group is no whole one
  | case2 | case3 | case4 | case5 => simp at h
  | case6 a b c d e rest ih =>
    have hrest : 5 ∣ rest.length := by
      simp only [List.length_cons] at h
      omega
    have hsplit : a :: b :: c :: d :: e :: rest = [a, b, c, d, e] ++ rest := rfl
    rw [hsplit, Bytes.bits_append, Bytes.bits_eq_bitsOf [a, b, c, d, e]]
    exact (spells_digitsOf 8 _).append (ih hrest)

/-! ### Reading -/

/-- The values of a text are those of its characters if all of them are digits. -/
lemma mapM_value?_eq_some {chars : List Char} {values : List Nat} :
    chars.mapM value? = some values ↔ (∀ c ∈ chars, IsDigit c) ∧ values = chars.map valueOf := by
  induction chars generalizing values with
  | nil => simp [eq_comm]
  | cons c chars ih =>
    rw [List.mapM_cons]
    constructor
    · intro h
      obtain ⟨value, hvalue, h⟩ := Option.bind_eq_some_iff.1 h
      obtain ⟨rest, hrest, h⟩ := Option.bind_eq_some_iff.1 h
      obtain rfl := Option.some.inj h
      obtain ⟨hdigits, rfl⟩ := ih.1 hrest
      have hdigit : IsDigit c := Option.isSome_of_eq_some hvalue
      obtain rfl := Option.some.inj (hdigit.value?.symm.trans hvalue)
      exact ⟨List.forall_mem_cons.2 ⟨hdigit, hdigits⟩, rfl⟩
    · rintro ⟨hdigits, rfl⟩
      obtain ⟨hdigit, hdigits⟩ := List.forall_mem_cons.1 hdigits
      rw [hdigit.value?, ih.2 ⟨hdigits, rfl⟩]
      rfl

lemma length_bytesOf (values : List Nat) : (bytesOf values).length = 5 * values.length / 8 := by
  fun_induction bytesOf values with
  | case1 a b c d e f g h rest ih =>
    simp only [List.length_append, Bytes.length_ofNat, ih, List.length_cons]
    omega
  | case2 values hshort bits n => exact Bytes.length_ofNat _ _

/-- The bytes of one group have the bits of its values. -/
lemma bits_group {values : List Nat} (hlen : values.length = 8)
    (hlt : ∀ value ∈ values, value < 2 ^ 5) :
    Bytes.bits (Bytes.ofNat 5 (values.foldl (fun n value => n * 32 + value) 0)) =
      values.flatMap (bitsOf 5) := by
  rw [flatMap_bitsOf hlt, hlen, Bytes.bits_eq_bitsOf, Bytes.length_ofNat, Bytes.toNat_ofNat,
    Bytes.bound_eq_two_pow]
  exact bitsOf_mod (8 * 5) _

/-- The bytes of values that come in whole groups have the bits of the values. -/
lemma bits_bytesOf {values : List Nat} (h : 8 ∣ values.length)
    (hlt : ∀ value ∈ values, value < 2 ^ 5) :
    Bytes.bits (bytesOf values) = values.flatMap (bitsOf 5) := by
  obtain ⟨groups, hlen⟩ := h
  induction groups generalizing values with
  | zero =>
    obtain rfl := List.length_eq_zero_iff.1 hlen
    rfl
  | succ groups ih =>
    match values, hlen, hlt with
    | a :: b :: c :: d :: e :: f :: g :: h :: rest, hlen, hlt =>
      have hsplit : a :: b :: c :: d :: e :: f :: g :: h :: rest =
          [a, b, c, d, e, f, g, h] ++ rest := rfl
      have hrest : rest.length = 8 * groups := by
        simp only [List.length_cons] at hlen
        omega
      rw [hsplit, List.forall_mem_append] at hlt
      rw [bytesOf, Bytes.bits_append, bits_group rfl hlt.1, ih hlt.2 hrest, hsplit,
        List.flatMap_append]

/-- The bytes of a text of digits that come in whole groups have the bits of the digits. -/
lemma bits_bytesOf_valueOf {chars : List Char} (hdigits : ∀ c ∈ chars, IsDigit c)
    (h : 8 ∣ chars.length) :
    Bytes.bits (bytesOf (chars.map valueOf)) = chars.flatMap digitBits := by
  have hlt : ∀ value ∈ chars.map valueOf, value < 2 ^ 5 :=
    List.forall_mem_map.2 fun c hc => (hdigits c hc).valueOf_lt
  rw [bits_bytesOf (by rwa [List.length_map]) hlt, List.flatMap_map]
  rfl

variable {text : String} {bytes : Bytes}

/-- A text that is read as whole groups spells their bits. -/
lemma spells_of_decode (h : 5 ∣ bytes.length) (hdecode : decode text = .ok bytes) :
    Spells text.toList (Bytes.bits bytes) := by
  unfold decode at hdecode
  extract_lets chars padding digits at hdecode
  split at hdecode
  · cases hdecode
  split at hdecode
  · cases hdecode
  rename_i hlen
  split at hdecode
  · cases hdecode
  rename_i values hvalues
  split at hdecode
  swap
  · cases hdecode
  rename_i hpadding
  obtain rfl := Except.ok.inj hdecode
  obtain ⟨hdigits, rfl⟩ := mapM_value?_eq_some.1 hvalues
  have hle : padding ≤ chars.length := by
    have hlonger := List.Sublist.length_le (List.takeWhile_sublist (· = '=') (l := chars.reverse))
    rwa [List.length_reverse] at hlonger
  have hdigitsLen : digits.length = chars.length - padding := by
    rw [List.length_take, Nat.min_eq_left (Nat.sub_le _ _)]
  -- a last group with padding gives fewer than five bytes
  have hnone : padding = 0 := by
    rw [length_bytesOf, List.length_map, hdigitsLen] at h
    simp only [List.mem_cons, List.not_mem_nil, or_false] at hpadding
    omega
  have hall : digits = chars := List.take_of_length_le (by omega)
  rw [hall] at hdigits ⊢
  exact ⟨hdigits, (bits_bytesOf_valueOf hdigits (by omega)).symm⟩

/-- A text that spells the bits of whole groups is read as them. -/
lemma decode_of_spells (h : 5 ∣ bytes.length) (hspells : Spells text.toList (Bytes.bits bytes)) :
    decode text = .ok bytes := by
  have hlen := hspells.length_eq
  rw [Bytes.length_bits] at hlen
  have hascii : text.toList.any (0x80 ≤ ·.toNat) = false := by
    rw [List.any_eq_false]
    intro c hc
    simpa using (hspells.isDigit c hc).ascii
  have hpadding : text.toList.reverse.takeWhile (· = '=') = [] := by
    rw [List.takeWhile_eq_nil_iff]
    intro hpos hpad
    have hmem := List.mem_reverse.1 (List.getElem_mem hpos)
    exact (hspells.isDigit _ hmem).ne_pad (of_decide_eq_true hpad)
  have hvalues := mapM_value?_eq_some.2 ⟨hspells.isDigit, rfl⟩
  have hbytes : bytesOf (text.toList.map valueOf) = bytes :=
    Bytes.bits_injective
      ((bits_bytesOf_valueOf hspells.isDigit (by omega)).trans hspells.flatMap_eq)
  have hgroups : text.toList.length % 8 = 0 := by omega
  simp [decode, hascii, hpadding, hgroups, hvalues, hbytes]

/-- **The text of a byte string of whole groups is the only one that is read as it.** -/
theorem decode_eq_ok_iff (h : 5 ∣ bytes.length) :
    decode text = .ok bytes ↔ text = encode bytes := by
  constructor
  · intro hdecode
    rw [encode, ← (spells_of_decode h hdecode).unique (spells_encodeChars h), String.ofList_toList]
  · rintro rfl
    apply decode_of_spells h
    rw [encode, String.toList_ofList]
    exact spells_encodeChars h

end ContractInterface.Base32
