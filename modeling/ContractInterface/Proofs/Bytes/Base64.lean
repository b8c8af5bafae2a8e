/-
# Base64 loses nothing

The text of a byte string is read back as that byte string.  The text is read group by group: a
full group of four digits gives its three bytes back, and the last group is completed by padding.
The main result is `Base64.decode_encode`.
-/
import ContractInterface.Bytes.Base64
import ContractInterface.Proofs.Bytes.Number

namespace ContractInterface.Base64

lemma value?_digit : ∀ value < 64, value? (digit value) = some value := by
  decide

lemma digit_ne_pad : ∀ value < 64, digit value ≠ '=' := by
  decide

lemma toNat_digit_lt : ∀ value < 64, (digit value).toNat < 0x80 := by
  decide

/-- A digit in front of a text without padding so far is read as its value. -/
lemma readDigits_digit {value : Nat} (h : value < 64) (count pads : Nat) (rest : List Char) :
    readDigits ⟨count, pads, false⟩ (digit value :: rest) =
      (readDigits ⟨count + 1, 0, false⟩ rest).map (value :: ·) := by
  rw [readDigits]
  · rw [value?_digit value h]
    rfl
  · exact digit_ne_pad value h

/-- Reading the text of a byte string behind complete groups gives values that hold its bytes. -/
lemma readDigits_encodeChars (bytes : Bytes) (count : Nat) (hcount : count % 4 = 0) :
    ∃ values, readDigits ⟨count, 0, false⟩ (encodeChars bytes) = .ok values ∧
      bytesOf values = bytes := by
  fun_induction encodeChars bytes generalizing count with
  | case1 => exact ⟨[], by simp [readDigits, hcount], rfl⟩
  | case2 a n =>
    have ha := a.toNat_lt
    refine ⟨[n / 64, n % 64], ?_, ?_⟩
    -- the group is open with two digits, so both padding characters count
    · rw [readDigits_digit (by omega), readDigits_digit (by omega)]
      have h2 : (count + 1 + 1) % 4 = 2 := by omega
      simp [readDigits, h2, Except.map]
    · simp only [bytesOf, List.cons.injEq, and_true]
      exact Bytes.ofNat_eq_of_mod (by omega)
  | case3 a b n =>
    have ha := a.toNat_lt
    have hb := b.toNat_lt
    refine ⟨[n / 4096, n / 64 % 64, n % 64], ?_, ?_⟩
    · rw [readDigits_digit (by omega), readDigits_digit (by omega), readDigits_digit (by omega)]
      have h3 : (count + 1 + 1 + 1) % 4 = 3 := by omega
      simp [readDigits, h3, Except.map]
    · simp only [bytesOf, List.cons.injEq, and_true]
      exact ⟨Bytes.ofNat_eq_of_mod (by omega), Bytes.ofNat_eq_of_mod (by omega)⟩
  | case4 a b c rest n ih =>
    have ha := a.toNat_lt
    have hb := b.toNat_lt
    have hc := c.toNat_lt
    obtain ⟨values, hread, hbytes⟩ := ih (count + 1 + 1 + 1 + 1) (by omega)
    refine ⟨n / 262144 :: n / 4096 % 64 :: n / 64 % 64 :: n % 64 :: values, ?_, ?_⟩
    · rw [readDigits_digit (by omega), readDigits_digit (by omega), readDigits_digit (by omega),
        readDigits_digit (by omega), hread]
      rfl
    · simp only [bytesOf, List.cons.injEq, hbytes, and_true]
      exact ⟨Bytes.ofNat_eq_of_mod (by omega), Bytes.ofNat_eq_of_mod (by omega),
        Bytes.ofNat_eq_of_mod (by omega)⟩

/-- The text of a byte string is ASCII. -/
lemma toNat_lt_of_mem_encodeChars (bytes : Bytes) : ∀ c ∈ encodeChars bytes, c.toNat < 0x80 := by
  have hpad : '='.toNat < 0x80 := by decide
  fun_induction encodeChars bytes with
  | case1 => simp
  | case2 a n =>
    have ha := a.toNat_lt
    simp only [List.mem_cons, List.not_mem_nil, or_false]
    rintro c (rfl | rfl | rfl | rfl)
    · exact toNat_digit_lt _ (by omega)
    · exact toNat_digit_lt _ (by omega)
    · exact hpad
    · exact hpad
  | case3 a b n =>
    have ha := a.toNat_lt
    have hb := b.toNat_lt
    simp only [List.mem_cons, List.not_mem_nil, or_false]
    rintro c (rfl | rfl | rfl | rfl)
    · exact toNat_digit_lt _ (by omega)
    · exact toNat_digit_lt _ (by omega)
    · exact toNat_digit_lt _ (by omega)
    · exact hpad
  | case4 a b c rest n ih =>
    have ha := a.toNat_lt
    have hb := b.toNat_lt
    have hc := c.toNat_lt
    simp only [List.mem_cons]
    rintro d (rfl | rfl | rfl | rfl | hd)
    · exact toNat_digit_lt _ (by omega)
    · exact toNat_digit_lt _ (by omega)
    · exact toNat_digit_lt _ (by omega)
    · exact toNat_digit_lt _ (by omega)
    · exact ih d hd

/-- The text of a byte string does not begin with padding. -/
lemma head?_encodeChars_ne (bytes : Bytes) : (encodeChars bytes).head? ≠ some '=' := by
  fun_cases encodeChars bytes with
  | case1 => simp
  | case2 a n =>
    have ha := a.toNat_lt
    simpa using digit_ne_pad _ (by omega)
  | case3 a b n =>
    have ha := a.toNat_lt
    have hb := b.toNat_lt
    simpa using digit_ne_pad _ (by omega)
  | case4 a b c rest n =>
    have ha := a.toNat_lt
    have hb := b.toNat_lt
    have hc := c.toNat_lt
    simpa using digit_ne_pad _ (by omega)

/-- **The text of a byte string is read back as that byte string.** -/
theorem decode_encode (bytes : Bytes) : decode (encode bytes) = .ok bytes := by
  obtain ⟨values, hread, hbytes⟩ := readDigits_encodeChars bytes 0 rfl
  have hascii : (encodeChars bytes).any (0x80 ≤ ·.toNat) = false := by
    rw [List.any_eq_false]
    intro c hc
    simpa using toNat_lt_of_mem_encodeChars bytes c hc
  simp only [decode, encode, String.toList_ofList, hascii, head?_encodeChars_ne, hread]
  rw [← hbytes]
  rfl

end ContractInterface.Base64
