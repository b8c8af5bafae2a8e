/-
# Strings and integers of JSON text are read back

A string is written character by character, each as itself or as an escape, and is read character
by character.  An integer is written in decimal digits, and is read up to the first character that
could not continue a number.  The main results are

* `readChar?_escapeChar`: every written character is read back, surrogate pairs included;
* `readString?_append`: the string in front of a closing quote;
* `readNumber?_append`: the integer in front of anything that does not continue a number.
-/
import Mathlib.Data.List.Basic
import Mathlib.Data.List.TakeDrop
import Mathlib.Tactic.SplitIfs
import ContractInterface.Json.Parser
import ContractInterface.Json.Printer
import ContractInterface.Proofs.Bytes.Hex

namespace ContractInterface.Json

/-! ### Characters -/

/-- Four digits are read as the last four digits of the number. -/
lemma readUnit?_digits {n : Nat} (h : n < 0x10000) (rest : List Char) :
    readUnit? (Hex.digits 4 n ++ rest) = some (n, rest) := by
  have hdigits : Hex.digits 4 n = [Hex.digit (n / 16 / 16 / 16 % 16),
      Hex.digit (n / 16 / 16 % 16), Hex.digit (n / 16 % 16), Hex.digit (n % 16)] := rfl
  have hvalue (m : Nat) : Hex.value? (Hex.digit (m % 16)) = some (m % 16) :=
    Hex.value?_digit (Nat.mod_lt m (by decide))
  have hsum : ((n / 16 / 16 / 16 % 16 * 16 + n / 16 / 16 % 16) * 16 + n / 16 % 16) * 16 + n % 16 =
      n := by omega
  rw [hdigits]
  simp only [List.cons_append, List.nil_append, readUnit?, hvalue, Option.bind_eq_bind,
    Option.bind_some, Option.pure_def, hsum]

/-- A unit that is no half of a surrogate pair is a character. -/
lemma readChar?_unitEscape {n : Nat} (h : n < 0xD800 ∨ 0xDFFF < n ∧ n < 0x10000)
    (rest : List Char) : readChar? (unitEscape n ++ rest) = some (Char.ofNat n, rest) := by
  rw [unitEscape, List.cons_append, List.cons_append, readChar?, readUnit?_digits (by omega)]
  simp only [Option.bind_eq_bind, Option.bind_some, Option.pure_def]
  rw [if_neg (by omega), if_neg (by omega)]

/-- The two halves of a surrogate pair are a character. -/
lemma readChar?_pair {high low : Nat} (hhigh : 0xD800 ≤ high ∧ high < 0xDC00)
    (hlow : 0xDC00 ≤ low ∧ low < 0xE000) (rest : List Char) :
    readChar? (unitEscape high ++ unitEscape low ++ rest) =
      some (Char.ofNat (0x10000 + (high - 0xD800) * 0x400 + (low - 0xDC00)), rest) := by
  rw [List.append_assoc, unitEscape, List.cons_append, List.cons_append, readChar?,
    readUnit?_digits (by omega)]
  simp only [Option.bind_eq_bind, Option.bind_some]
  rw [if_pos hhigh, unitEscape, List.cons_append, List.cons_append]
  simp only [readUnit?_digits (Nat.lt_trans hlow.2 (by decide : 0xE000 < 0x10000)),
    Option.bind_some, Option.pure_def]
  rw [if_pos hlow]

/-- A character that may stand for itself is read as itself. -/
lemma readChar?_self {c : Char} (hslash : c ≠ '\\') (h : 0x20 ≤ c.toNat) (rest : List Char) :
    readChar? (c :: rest) = some (c, rest) := by
  rw [readChar?]
  · rw [if_neg (by omega)]
  all_goals
    intros
    contradiction

/-- **Every written character is read back.** -/
theorem readChar?_escapeChar (c : Char) (rest : List Char) :
    readChar? (escapeChar c ++ rest) = some (c, rest) := by
  have hvalid : c.toNat < 0xD800 ∨ 0xDFFF < c.toNat ∧ c.toNat < 0x110000 := c.valid
  have hc (n : Nat) (h : c.toNat = n) : c = Char.ofNat n := by rw [← h, Char.ofNat_toNat]
  rw [escapeChar]
  split_ifs with hquote hslash hline hreturn htab hback hfeed hcontrol hplain hunit
  · rw [hquote]; rfl
  · rw [hslash]; rfl
  · rw [hline]; rfl
  · rw [hreturn]; rfl
  · rw [htab]; rfl
  · rw [hc _ hback]; rfl
  · rw [hc _ hfeed]; rfl
  · rw [readChar?_unitEscape (.inl (by omega)), Char.ofNat_toNat]
  · exact readChar?_self hslash (by omega) rest
  · rw [readChar?_unitEscape (by omega), Char.ofNat_toNat]
  · have hsum : 0x10000 + (0xD800 + (c.toNat - 0x10000) / 0x400 - 0xD800) * 0x400 +
        (0xDC00 + (c.toNat - 0x10000) % 0x400 - 0xDC00) = c.toNat := by omega
    rw [readChar?_pair (by omega) (by omega), hsum, Char.ofNat_toNat]

/-- No written character begins with a quote. -/
lemma exists_cons_escapeChar (c : Char) :
    ∃ first others, escapeChar c = first :: others ∧ first ≠ '"' := by
  by_cases hquote : c = '"'
  · exact ⟨'\\', _, by rw [escapeChar, if_pos hquote], by decide⟩
  · rw [escapeChar, if_neg hquote]
    -- a character that stands for itself is no quote, and all others begin with a backslash
    split_ifs
    all_goals first
      | exact ⟨'\\', _, rfl, by decide⟩
      | exact ⟨c, [], rfl, hquote⟩

/-! ### Strings -/

lemma length_le_length_flatMap_escapeChar (chars : List Char) :
    chars.length ≤ (chars.flatMap escapeChar).length := by
  induction chars with
  | nil => exact Nat.le_refl 0
  | cons c chars ih =>
    obtain ⟨first, others, hfirst, -⟩ := exists_cons_escapeChar c
    rw [List.flatMap_cons, List.length_append, hfirst, List.length_cons, List.length_cons]
    omega

/-- One character in front of more. -/
lemma readString?_escapeChar (fuel : Nat) (c : Char) (rest : List Char) :
    readString? (fuel + 1) (escapeChar c ++ rest) =
      (readString? fuel rest).map fun (chars, rest) => (c :: chars, rest) := by
  have hread := readChar?_escapeChar c rest
  obtain ⟨first, others, hfirst, hquote⟩ := exists_cons_escapeChar c
  rw [hfirst, List.cons_append] at hread ⊢
  rw [readString?, hread]
  · simp only [Option.bind_eq_bind, Option.bind_some]
    cases readString? fuel rest <;> rfl
  · rintro _ ⟨⟩
    exact hquote rfl

/-- **The characters up to the closing quote are read back.** -/
theorem readString?_append {fuel : Nat} {chars : List Char} (h : chars.length ≤ fuel)
    (rest : List Char) :
    readString? fuel (chars.flatMap escapeChar ++ '"' :: rest) = some (chars, rest) := by
  induction chars generalizing fuel with
  | nil => cases fuel <;> rfl
  | cons c chars ih =>
    obtain ⟨fuel, rfl⟩ := Nat.exists_eq_add_of_lt (Nat.lt_of_succ_le h)
    rw [List.length_cons] at h
    rw [List.flatMap_cons, List.append_assoc, readString?_escapeChar, ih (by omega)]
    rfl

/-! ### Integers -/

/-- Whether a character may stand inside a number, behind a digit. -/
def continuesNumber (c : Char) : Bool :=
  c.isDigit || c = '.' || c = 'e' || c = 'E'

/-- What does not continue a number that stands in front. -/
def EndsNumber (rest : List Char) : Prop :=
  ∀ c ∈ rest.head?, continuesNumber c = false

lemma endsNumber_cons {c : Char} {rest : List Char} (h : continuesNumber c = false) :
    EndsNumber (c :: rest) := by
  rintro _ ⟨⟩
  exact h

/-- The digits in front of what does not continue a number. -/
lemma span_digits {digits rest : List Char} (hdigits : ∀ c ∈ digits, c.isDigit)
    (hrest : EndsNumber rest) : (digits ++ rest).span Char.isDigit = (digits, rest) := by
  rw [List.span_eq_takeWhile_dropWhile, List.takeWhile_append_of_pos hdigits,
    List.dropWhile_append_of_pos hdigits]
  cases rest with
  | nil => rw [List.takeWhile_nil, List.dropWhile_nil, List.append_nil]
  | cons c rest =>
    have hc : ¬c.isDigit = true := by
      have h := hrest c rfl
      simp only [continuesNumber, Bool.or_eq_false_iff] at h
      simp [h.1]
    rw [List.takeWhile_cons_of_neg hc, List.dropWhile_cons_of_neg hc, List.append_nil]

lemma isDigit_of_mem_toDigits {n : Nat} {c : Char} (h : c ∈ Nat.toDigits 10 n) : c.isDigit :=
  Nat.isDigit_of_mem_toDigits (by decide) (by decide) h

lemma digitsValue_toDigits (n : Nat) : digitsValue (Nat.toDigits 10 n) = n := by
  have hvalue := @Nat.ofDigitChars_ten_toDigits n
  rw [Nat.ofDigitChars_eq_foldl] at hvalue
  simpa only [digitsValue, Nat.mul_comm] using hvalue

/-- Only zero is written with a zero in front. -/
lemma head?_toDigits_ne {n : Nat} (h : n ≠ 0) : (Nat.toDigits 10 n).head? ≠ some '0' := by
  induction n using Nat.strongRecOn with
  | ind n ih =>
    rw [Nat.toDigits_eq_if (by decide)]
    split_ifs with hlt
    · simpa using h
    · rw [List.head?_append_of_ne_nil _ Nat.toDigits_ne_nil]
      exact ih (n / 10) (by omega) (by omega)

/-- Digits without a superfluous zero in front are those of an integer. -/
lemma whole_toDigits (n : Nat) : ¬((Nat.toDigits 10 n).isEmpty ∨
    (Nat.toDigits 10 n).head? = some '0' ∧ 1 < (Nat.toDigits 10 n).length) := by
  rintro (hempty | ⟨hzero, hlen⟩)
  · exact Nat.toDigits_ne_nil (List.isEmpty_iff.1 hempty)
  · by_cases hn : n = 0
    · subst hn
      exact absurd hlen (by decide)
    · exact head?_toDigits_ne hn hzero

/-- What does not continue a number begins no fraction. -/
lemma readFraction?_of_endsNumber {rest : List Char} (h : EndsNumber rest) :
    readFraction? rest = some (none, rest) := by
  rw [readFraction?]
  rintro rest rfl
  exact absurd (h '.' rfl) (by decide)

/-- What does not continue a number begins no exponent. -/
lemma readScale?_of_endsNumber {rest : List Char} (h : EndsNumber rest) :
    readScale? rest = some (none, rest) := by
  rw [readScale?]
  · rintro rest rfl
    exact absurd (h 'e' rfl) (by decide)
  · rintro rest rfl
    exact absurd (h 'E' rfl) (by decide)

/-- Digits behind a sign are those of an integer. -/
lemma readNumber?_of_readSign {chars rest : List Char} {negative : Bool} {n : Nat}
    (hsign : readSign chars = (negative, Nat.toDigits 10 n ++ rest)) (h : EndsNumber rest) :
    readNumber? chars = some (.int (if negative then -n else n), rest) := by
  have hspan := span_digits (fun c (hc : c ∈ Nat.toDigits 10 n) => isDigit_of_mem_toDigits hc) h
  rw [readNumber?, hsign]
  simp only [hspan, if_neg (whole_toDigits n), readFraction?_of_endsNumber h,
    readScale?_of_endsNumber h, Option.bind_eq_bind, Option.bind_some, Option.pure_def, numberOf,
    digitsValue_toDigits]

/-- The digits of a number are behind no sign. -/
lemma readSign_toDigits (n : Nat) (rest : List Char) :
    readSign (Nat.toDigits 10 n ++ rest) = (false, Nat.toDigits 10 n ++ rest) := by
  obtain ⟨d, ds, hd⟩ := List.exists_cons_of_ne_nil (@Nat.toDigits_ne_nil n 10)
  have hdigit : d.isDigit := isDigit_of_mem_toDigits (hd ▸ List.mem_cons_self)
  rw [hd, List.cons_append, readSign]
  rintro _ ⟨⟩
  exact absurd hdigit (by decide)

/-- An integer is written as its sign and the digits of its size. -/
lemma toList_toString (n : Int) :
    (toString n).toList = (if n < 0 then ['-'] else []) ++ Nat.toDigits 10 n.natAbs := by
  rw [Int.toString_eq_repr, Int.repr_eq_if]
  by_cases h : 0 ≤ n
  · have hsize : n.toNat = n.natAbs := by omega
    rw [if_pos h, if_neg (by omega), Nat.repr_eq_ofList_toDigits, String.toList_ofList, hsize,
      List.nil_append]
  · have hsize : (-n).toNat = n.natAbs := by omega
    rw [if_neg h, if_pos (by omega), String.toList_append, Nat.repr_eq_ofList_toDigits, hsize]
    exact congrArg ("-".toList ++ ·) String.toList_ofList

lemma eq_sign_or_isDigit_of_mem_toString {n : Int} {c : Char} (h : c ∈ (toString n).toList) :
    c = '-' ∨ c.isDigit = true := by
  rw [toList_toString, List.mem_append] at h
  rcases h with hsign | hdigit
  · split at hsign
    · exact .inl (List.mem_singleton.mp hsign)
    · exact absurd hsign List.not_mem_nil
  · exact .inr (isDigit_of_mem_toDigits hdigit)

/-- **The integer in front of what does not continue a number is read back.** -/
theorem readNumber?_append (n : Int) {rest : List Char} (h : EndsNumber rest) :
    readNumber? ((toString n).toList ++ rest) = some (.int n, rest) := by
  have hsign : readSign ((toString n).toList ++ rest) =
      (decide (n < 0), Nat.toDigits 10 n.natAbs ++ rest) := by
    rw [toList_toString]
    by_cases hneg : n < 0
    · rw [if_pos hneg, decide_eq_true hneg]
      rfl
    · rw [if_neg hneg, List.nil_append, readSign_toDigits, decide_eq_false hneg]
  have hn : (if decide (n < 0) then -(n.natAbs : Int) else n.natAbs) = n := by
    simp only [decide_eq_true_eq]
    split_ifs <;> omega
  rw [readNumber?_of_readSign hsign h, hn]

end ContractInterface.Json
