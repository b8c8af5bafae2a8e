/-
# Texts survive their UTF-8 form

The machine that cuts a byte string into pieces finds, in the bytes of a text, exactly the
characters of the text.  So both ways of reading give the text back:

* `Utf8.decodeLossy_encode`: nothing in it is replaced;
* `Utf8.decode_encode`: nothing in it is refused.

Where the machine finds nothing but characters, the bytes are those of the characters:

* `Utf8.decode_eq_ok_iff`: only the bytes of a text are read as this text.
-/
import Mathlib.Tactic.Lemma
import Mathlib.Tactic.SplitIfs
import ContractInterface.Bytes.Utf8
import ContractInterface.Proofs.Bytes.Number

namespace ContractInterface.Utf8

lemma piecesFrom_cons (state : State) (byte : UInt8) (bytes : Bytes) :
    piecesFrom state (byte :: bytes) =
      (step state byte).1 ++ piecesFrom (step state byte).2 bytes := by
  cases state <;> rfl

/-! ### The first byte of a sequence -/

lemma start_of_lt_0x80 {byte : UInt8} (h : byte.toNat < 0x80) :
    start byte = ([.char (Char.ofNat byte.toNat)], .between) := by
  rw [start, if_pos (UInt8.lt_iff_toNat_lt.2 h)]

lemma start_of_lt_0xE0 {byte : UInt8} (hlow : 0xC2 ≤ byte.toNat) (hhigh : byte.toNat < 0xE0) :
    start byte = ([], .inside byte 1 0 0x80 0xBF (byte.toNat % 32)) := by
  simp only [start, UInt8.lt_iff_toNat_lt, ← UInt8.toNat_inj, UInt8.reduceToNat]
  rw [if_neg (by omega), if_neg (by omega), if_pos hhigh]

lemma start_of_lt_0xF0 {byte : UInt8} (hlow : 0xE0 ≤ byte.toNat) (hhigh : byte.toNat < 0xF0) :
    start byte = ([], .inside byte 1 1 (if byte.toNat = 0xE0 then 0xA0 else 0x80)
      (if byte.toNat = 0xED then 0x9F else 0xBF) (byte.toNat % 16)) := by
  simp only [start, UInt8.lt_iff_toNat_lt, ← UInt8.toNat_inj, UInt8.reduceToNat]
  rw [if_neg (by omega), if_neg (by omega), if_neg (by omega), if_pos hhigh]
  split_ifs <;> first | omega | rfl

lemma start_of_lt_0xF5 {byte : UInt8} (hlow : 0xF0 ≤ byte.toNat) (hhigh : byte.toNat < 0xF5) :
    start byte = ([], .inside byte 1 2 (if byte.toNat = 0xF0 then 0x90 else 0x80)
      (if byte.toNat = 0xF4 then 0x8F else 0xBF) (byte.toNat % 8)) := by
  simp only [start, UInt8.lt_iff_toNat_lt, ← UInt8.toNat_inj, UInt8.reduceToNat]
  rw [if_neg (by omega), if_neg (by omega), if_neg (by omega), if_neg (by omega),
    if_neg (by omega), if_neg (by omega)]
  split_ifs <;> first | omega | rfl

/-- A byte that neither is a character nor begins a sequence is ill-formed. -/
lemma start_of_invalid {byte : UInt8} (hlow : 0x80 ≤ byte.toNat)
    (h : byte.toNat < 0xC2 ∨ 0xF5 ≤ byte.toNat) :
    start byte = ([.illFormed byte 1 .invalidStart], .between) := by
  simp only [start, UInt8.lt_iff_toNat_lt, ← UInt8.toNat_inj, UInt8.reduceToNat]
  rw [if_neg (by omega)]
  rcases h with h | h
  · rw [if_pos h]
  · rw [if_neg (by omega), if_neg (by omega), if_neg (by omega), if_neg (by omega),
      if_neg (by omega), if_neg (by omega), if_neg (by omega), if_neg (by omega)]

/-- A byte ends a piece or opens a sequence. -/
lemma start_cases (byte : UInt8) :
    (∃ piece, start byte = ([piece], .between)) ∨
      ∃ owed low high value, start byte = ([], .inside byte 1 owed low high value) := by
  by_cases hone : byte.toNat < 0x80
  · exact .inl ⟨_, start_of_lt_0x80 hone⟩
  by_cases hinvalid : byte.toNat < 0xC2 ∨ 0xF5 ≤ byte.toNat
  · exact .inl ⟨_, start_of_invalid (Nat.le_of_not_lt hone) hinvalid⟩
  by_cases htwo : byte.toNat < 0xE0
  · exact .inr ⟨_, _, _, _, start_of_lt_0xE0 (by omega) htwo⟩
  by_cases hthree : byte.toNat < 0xF0
  · exact .inr ⟨_, _, _, _, start_of_lt_0xF0 (by omega) hthree⟩
  · exact .inr ⟨_, _, _, _, start_of_lt_0xF5 (by omega) (by omega)⟩

/-! ### The bytes that continue a sequence -/

section

variable {first byte low high : UInt8} {read owed value : Nat}

lemma step_last (h : low ≤ byte ∧ byte ≤ high) :
    step (.inside first read 0 low high value) byte =
      ([.char (Char.ofNat (value * 64 + byte.toNat % 64))], .between) := by
  rw [step, if_pos h]

lemma step_inner (h : low ≤ byte ∧ byte ≤ high) :
    step (.inside first read (owed + 1) low high value) byte =
      ([], .inside first (read + 1) owed 0x80 0xBF (value * 64 + byte.toNat % 64)) := by
  rw [step, if_pos h]

end

/-- A byte made from the last six bits of a number continues any sequence. -/
lemma tail_bounds {byte : UInt8} {n : Nat} (h : byte.toNat = n % 64 + 0x80) :
    (0x80 : UInt8) ≤ byte ∧ byte ≤ 0xBF := by
  simp only [UInt8.le_iff_toNat_le, UInt8.reduceToNat]
  omega

/-! ### Sequences, by the number of bytes -/

section

variable {a b c d : UInt8} {n : Nat} (rest : Bytes)

lemma piecesFrom_one (ha : a.toNat = n) (hn : n < 0x80) :
    piecesFrom .between (a :: rest) = .char (Char.ofNat n) :: piecesFrom .between rest := by
  rw [piecesFrom_cons, step, start_of_lt_0x80 (by omega), ha]
  rfl

lemma piecesFrom_two (ha : a.toNat = n / 64 + 0xC0) (hb : b.toNat = n % 64 + 0x80)
    (hlow : 0x80 ≤ n) (hhigh : n < 0x800) :
    piecesFrom .between (a :: b :: rest) = .char (Char.ofNat n) :: piecesFrom .between rest := by
  have hn : a.toNat % 32 * 64 + b.toNat % 64 = n := by omega
  rw [piecesFrom_cons, step, start_of_lt_0xE0 (by omega) (by omega), piecesFrom_cons,
    step_last (tail_bounds hb), hn]
  rfl

lemma piecesFrom_three (ha : a.toNat = n / 4096 + 0xE0) (hb : b.toNat = n / 64 % 64 + 0x80)
    (hc : c.toNat = n % 64 + 0x80) (hlow : 0x800 ≤ n) (hhigh : n < 0x10000)
    (hvalid : n < 0xD800 ∨ 0xDFFF < n) :
    piecesFrom .between (a :: b :: c :: rest) =
      .char (Char.ofNat n) :: piecesFrom .between rest := by
  have hn : (a.toNat % 16 * 64 + b.toNat % 64) * 64 + c.toNat % 64 = n := by omega
  -- The first byte narrows the second where the number would be too small or a surrogate.
  have hbounds : (if a.toNat = 0xE0 then 0xA0 else 0x80) ≤ b ∧
      b ≤ (if a.toNat = 0xED then 0x9F else 0xBF) := by
    simp only [UInt8.le_iff_toNat_le, apply_ite UInt8.toNat, UInt8.reduceToNat]
    split_ifs <;> omega
  rw [piecesFrom_cons, step, start_of_lt_0xF0 (by omega) (by omega), piecesFrom_cons,
    step_inner hbounds, piecesFrom_cons, step_last (tail_bounds hc), hn]
  rfl

lemma piecesFrom_four (ha : a.toNat = n / 262144 + 0xF0) (hb : b.toNat = n / 4096 % 64 + 0x80)
    (hc : c.toNat = n / 64 % 64 + 0x80) (hd : d.toNat = n % 64 + 0x80) (hlow : 0x10000 ≤ n)
    (hhigh : n < 0x110000) :
    piecesFrom .between (a :: b :: c :: d :: rest) =
      .char (Char.ofNat n) :: piecesFrom .between rest := by
  have hn : ((a.toNat % 8 * 64 + b.toNat % 64) * 64 + c.toNat % 64) * 64 + d.toNat % 64 = n := by
    omega
  -- The first byte narrows the second where the number would be too small or too great.
  have hbounds : (if a.toNat = 0xF0 then 0x90 else 0x80) ≤ b ∧
      b ≤ (if a.toNat = 0xF4 then 0x8F else 0xBF) := by
    simp only [UInt8.le_iff_toNat_le, apply_ite UInt8.toNat, UInt8.reduceToNat]
    split_ifs <;> omega
  rw [piecesFrom_cons, step, start_of_lt_0xF5 (by omega) (by omega), piecesFrom_cons,
    step_inner hbounds, piecesFrom_cons, step_inner (tail_bounds hc), piecesFrom_cons,
    step_last (tail_bounds hd), hn]
  rfl

end

/-! ### Texts -/

/-- The bytes of a character are cut into that character. -/
lemma piecesFrom_utf8EncodeChar (c : Char) (rest : Bytes) :
    piecesFrom .between (String.utf8EncodeChar c ++ rest) =
      .char c :: piecesFrom .between rest := by
  obtain ⟨n, hn⟩ : ∃ n, c.val.toNat = n := ⟨_, rfl⟩
  have hvalid : n < 0xD800 ∨ 0xDFFF < n ∧ n < 0x110000 := hn ▸ c.valid
  have hc : c = Char.ofNat n := hn ▸ (Char.ofNat_toNat c).symm
  have hbyte : ∀ k, k < 256 → (UInt8.ofNat k).toNat = k := fun k hk => by
    rw [UInt8.toNat_ofNat', Nat.mod_eq_of_lt hk]
  -- the length of the sequence depends on the number of the character
  simp only [String.utf8EncodeChar, hn]
  rw [hc]
  split_ifs with h1 h2 h3
  · exact piecesFrom_one rest (hbyte n (by omega)) (by omega)
  · refine piecesFrom_two rest ?_ ?_ (by omega) (by omega)
    · rw [hbyte _ (by omega)]; omega
    · exact hbyte _ (by omega)
  · refine piecesFrom_three rest ?_ ?_ ?_ (by omega) (by omega) (by omega)
    · rw [hbyte _ (by omega)]; omega
    · exact hbyte _ (by omega)
    · exact hbyte _ (by omega)
  · refine piecesFrom_four rest ?_ ?_ ?_ ?_ (by omega) (by omega)
    · rw [hbyte _ (by omega)]; omega
    · exact hbyte _ (by omega)
    · exact hbyte _ (by omega)
    · exact hbyte _ (by omega)

/-- The bytes of a text are cut into its characters. -/
lemma pieces_encode (text : String) : pieces (encode text) = text.toList.map .char := by
  have hlist : ∀ chars : List Char,
      piecesFrom .between (chars.flatMap String.utf8EncodeChar) = chars.map .char := by
    intro chars
    induction chars with
    | nil => rfl
    | cons c chars ih =>
      rw [List.flatMap_cons, piecesFrom_utf8EncodeChar, ih, List.map_cons]
  exact hlist text.toList

/-- **A text is read back from its bytes**, with nothing replaced. -/
theorem decodeLossy_encode (text : String) : decodeLossy (encode text) = text := by
  rw [decodeLossy, pieces_encode, List.map_map]
  exact (congrArg String.ofList (List.map_id text.toList)).trans String.ofList_toList

lemma charsOf_map_char (position : Nat) (chars : List Char) :
    charsOf position (chars.map .char) = .ok chars := by
  induction chars generalizing position with
  | nil => rfl
  | cons c chars ih =>
    rw [List.map_cons, charsOf, ih]
    rfl

/-- **A text is read back from its bytes**, with nothing refused. -/
theorem decode_encode (text : String) : decode (encode text) = .ok text := by
  rw [decode, pieces_encode, charsOf_map_char]
  exact congrArg Except.ok String.ofList_toList

/-- An open sequence ends in a piece, whatever follows. -/
lemma piecesFrom_inside_ne_nil {first : UInt8} {read owed : Nat} {low high : UInt8} {value : Nat}
    (bytes : Bytes) : piecesFrom (.inside first read owed low high value) bytes ≠ [] := by
  induction bytes generalizing read owed low high value with
  | nil => exact List.cons_ne_nil _ _
  | cons byte bytes ih =>
    rw [piecesFrom_cons, step]
    split_ifs
    · cases owed with
      | zero => exact List.cons_ne_nil _ _
      | succ owed => exact ih
    · exact List.cons_ne_nil _ _

/-- Only of no bytes the text is empty. -/
lemma decodeLossy_eq_empty_iff {bytes : Bytes} : decodeLossy bytes = "" ↔ bytes = [] := by
  constructor
  · intro h
    rw [decodeLossy, String.ofList_eq_empty_iff, List.map_eq_nil_iff] at h
    cases bytes with
    | nil => rfl
    | cons byte bytes =>
      exfalso
      rw [pieces, piecesFrom_cons, step] at h
      rcases start_cases byte with ⟨piece, hstart⟩ | ⟨owed, low, high, value, hstart⟩
      · rw [hstart] at h
        exact List.cons_ne_nil _ _ h
      · rw [hstart] at h
        exact piecesFrom_inside_ne_nil bytes h
  · rintro rfl
    rfl

/-- Only the empty text is written with no bytes. -/
lemma encode_eq_nil_iff {text : String} : encode text = [] ↔ text = "" := by
  constructor
  · intro h
    rw [← decodeLossy_encode text, h]
    rfl
  · rintro rfl
    rfl

/-! ### The bytes of a character, by its number -/

section

variable {a b c d : UInt8} {n : Nat}

/-- A character has the number that it is made from. -/
lemma val_ofNat (h : n < 0xD800 ∨ 0xDFFF < n ∧ n < 0x110000) : (Char.ofNat n).val.toNat = n := by
  rw [Char.ofNat, dif_pos h]
  rfl

lemma utf8EncodeChar_one (ha : a.toNat = n) (hn : n < 0x80) :
    String.utf8EncodeChar (Char.ofNat n) = [a] := by
  have hfirst : UInt8.ofNat n = a := Bytes.ofNat_eq_of_mod (by omega)
  simp only [String.utf8EncodeChar]
  rw [val_ofNat (by omega), if_pos (by omega), hfirst]

lemma utf8EncodeChar_two (ha : a.toNat = n / 64 + 0xC0) (hb : b.toNat = n % 64 + 0x80)
    (hlow : 0x80 ≤ n) (hhigh : n < 0x800) :
    String.utf8EncodeChar (Char.ofNat n) = [a, b] := by
  have hfirst : UInt8.ofNat (n / 64 % 32 + 0xC0) = a := Bytes.ofNat_eq_of_mod (by omega)
  have hsecond : UInt8.ofNat (n % 64 + 0x80) = b := Bytes.ofNat_eq_of_mod (by omega)
  simp only [String.utf8EncodeChar]
  rw [val_ofNat (by omega), if_neg (by omega), if_pos (by omega), hfirst, hsecond]

lemma utf8EncodeChar_three (ha : a.toNat = n / 4096 + 0xE0) (hb : b.toNat = n / 64 % 64 + 0x80)
    (hc : c.toNat = n % 64 + 0x80) (hlow : 0x800 ≤ n) (hhigh : n < 0x10000)
    (hvalid : n < 0xD800 ∨ 0xDFFF < n) :
    String.utf8EncodeChar (Char.ofNat n) = [a, b, c] := by
  have hfirst : UInt8.ofNat (n / 4096 % 16 + 0xE0) = a := Bytes.ofNat_eq_of_mod (by omega)
  have hsecond : UInt8.ofNat (n / 64 % 64 + 0x80) = b := Bytes.ofNat_eq_of_mod (by omega)
  have hthird : UInt8.ofNat (n % 64 + 0x80) = c := Bytes.ofNat_eq_of_mod (by omega)
  simp only [String.utf8EncodeChar]
  rw [val_ofNat (by omega), if_neg (by omega), if_neg (by omega), if_pos (by omega), hfirst,
    hsecond, hthird]

lemma utf8EncodeChar_four (ha : a.toNat = n / 262144 + 0xF0)
    (hb : b.toNat = n / 4096 % 64 + 0x80) (hc : c.toNat = n / 64 % 64 + 0x80)
    (hd : d.toNat = n % 64 + 0x80) (hlow : 0x10000 ≤ n) (hhigh : n < 0x110000) :
    String.utf8EncodeChar (Char.ofNat n) = [a, b, c, d] := by
  have hfirst : UInt8.ofNat (n / 262144 % 8 + 0xF0) = a := Bytes.ofNat_eq_of_mod (by omega)
  have hsecond : UInt8.ofNat (n / 4096 % 64 + 0x80) = b := Bytes.ofNat_eq_of_mod (by omega)
  have hthird : UInt8.ofNat (n / 64 % 64 + 0x80) = c := Bytes.ofNat_eq_of_mod (by omega)
  have hfourth : UInt8.ofNat (n % 64 + 0x80) = d := Bytes.ofNat_eq_of_mod (by omega)
  simp only [String.utf8EncodeChar]
  rw [val_ofNat (by omega), if_neg (by omega), if_neg (by omega), if_neg (by omega), hfirst,
    hsecond, hthird, hfourth]

end

/-! ### Bytes that are nothing but characters -/

section

variable {first low high : UInt8} {read owed value : Nat} {bytes : Bytes} {chars : List Char}

/-- Where nothing is ill-formed, an open sequence goes on with a byte that continues it. -/
lemma exists_continues
    (h : piecesFrom (.inside first read owed low high value) bytes = chars.map .char) :
    ∃ byte rest, bytes = byte :: rest ∧ low ≤ byte ∧ byte ≤ high := by
  cases bytes with
  | nil => cases chars <;> cases h
  | cons byte rest =>
    by_cases hbounds : low ≤ byte ∧ byte ≤ high
    · exact ⟨byte, rest, rfl, hbounds⟩
    · rw [piecesFrom_cons, step, if_neg hbounds] at h
      cases chars <;> cases h

/-- Where nothing is ill-formed, the last byte of a sequence ends a character. -/
lemma exists_last (h : piecesFrom (.inside first read 0 low high value) bytes = chars.map .char) :
    ∃ byte rest chars', bytes = byte :: rest ∧ (low.toNat ≤ byte.toNat ∧ byte.toNat ≤ high.toNat) ∧
      chars = Char.ofNat (value * 64 + byte.toNat % 64) :: chars' ∧
      piecesFrom .between rest = chars'.map .char := by
  obtain ⟨byte, rest, rfl, hbounds⟩ := exists_continues h
  rw [piecesFrom_cons, step_last hbounds] at h
  cases chars with
  | nil => cases h
  | cons c chars =>
    obtain ⟨hchar, hrest⟩ := List.cons.inj h
    obtain rfl := Piece.char.inj hchar
    exact ⟨byte, rest, chars, rfl, hbounds, rfl, hrest⟩

/-- Where nothing is ill-formed, each byte before the last leaves one byte less owed. -/
lemma exists_inner
    (h : piecesFrom (.inside first read (owed + 1) low high value) bytes = chars.map .char) :
    ∃ byte rest, bytes = byte :: rest ∧ (low.toNat ≤ byte.toNat ∧ byte.toNat ≤ high.toNat) ∧
      piecesFrom (.inside first (read + 1) owed 0x80 0xBF (value * 64 + byte.toNat % 64)) rest =
        chars.map .char := by
  obtain ⟨byte, rest, rfl, hbounds⟩ := exists_continues h
  rw [piecesFrom_cons, step_inner hbounds] at h
  exact ⟨byte, rest, rfl, hbounds, h⟩

end

/-- The bytes begin with those of the first character, and the others follow. -/
def BeginsWithChar (bytes : Bytes) (chars : List Char) : Prop :=
  ∃ c chars' rest, chars = c :: chars' ∧ bytes = String.utf8EncodeChar c ++ rest ∧
    piecesFrom .between rest = chars'.map .char

section

variable {a : UInt8} {bytes : Bytes} {chars : List Char}
  (h : piecesFrom .between (a :: bytes) = chars.map .char)

include h

lemma beginsWithChar_one (hhigh : a.toNat < 0x80) : BeginsWithChar (a :: bytes) chars := by
  rw [piecesFrom_cons, step, start_of_lt_0x80 hhigh] at h
  cases chars with
  | nil => cases h
  | cons c chars =>
    obtain ⟨hchar, hrest⟩ := List.cons.inj h
    obtain rfl := Piece.char.inj hchar
    refine ⟨_, chars, bytes, rfl, ?_, hrest⟩
    rw [utf8EncodeChar_one rfl hhigh]
    rfl

lemma beginsWithChar_two (hlow : 0xC2 ≤ a.toNat) (hhigh : a.toNat < 0xE0) :
    BeginsWithChar (a :: bytes) chars := by
  rw [piecesFrom_cons, step, start_of_lt_0xE0 hlow hhigh] at h
  obtain ⟨b, rest, chars', rfl, hb, rfl, hrest⟩ := exists_last h
  simp only [UInt8.reduceToNat] at hb
  refine ⟨_, chars', rest, rfl, ?_, hrest⟩
  generalize hn : a.toNat % 32 * 64 + b.toNat % 64 = n
  have hspelled : String.utf8EncodeChar (Char.ofNat n) = [a, b] :=
    utf8EncodeChar_two (by omega) (by omega) (by omega) (by omega)
  rw [hspelled]
  rfl

lemma beginsWithChar_three (hlow : 0xE0 ≤ a.toNat) (hhigh : a.toNat < 0xF0) :
    BeginsWithChar (a :: bytes) chars := by
  rw [piecesFrom_cons, step, start_of_lt_0xF0 hlow hhigh] at h
  obtain ⟨b, rest, rfl, hb, h⟩ := exists_inner h
  obtain ⟨c, rest, chars', rfl, hc, rfl, hrest⟩ := exists_last h
  -- The first byte narrows the second where the number would be too small or a surrogate.
  have hbounds : 0x80 ≤ b.toNat ∧ b.toNat ≤ 0xBF ∧ (a.toNat = 0xE0 → 0xA0 ≤ b.toNat) ∧
      (a.toNat = 0xED → b.toNat ≤ 0x9F) := by
    simp only [apply_ite UInt8.toNat, UInt8.reduceToNat] at hb
    split_ifs at hb <;> omega
  simp only [UInt8.reduceToNat] at hc
  refine ⟨_, chars', rest, rfl, ?_, hrest⟩
  generalize hn : (a.toNat % 16 * 64 + b.toNat % 64) * 64 + c.toNat % 64 = n
  have hspelled : String.utf8EncodeChar (Char.ofNat n) = [a, b, c] :=
    utf8EncodeChar_three (by omega) (by omega) (by omega) (by omega) (by omega) (by omega)
  rw [hspelled]
  rfl

lemma beginsWithChar_four (hlow : 0xF0 ≤ a.toNat) (hhigh : a.toNat < 0xF5) :
    BeginsWithChar (a :: bytes) chars := by
  rw [piecesFrom_cons, step, start_of_lt_0xF5 hlow hhigh] at h
  obtain ⟨b, rest, rfl, hb, h⟩ := exists_inner h
  obtain ⟨c, rest, rfl, hc, h⟩ := exists_inner h
  obtain ⟨d, rest, chars', rfl, hd, rfl, hrest⟩ := exists_last h
  -- The first byte narrows the second where the number would be too small or too great.
  have hbounds : 0x80 ≤ b.toNat ∧ b.toNat ≤ 0xBF ∧ (a.toNat = 0xF0 → 0x90 ≤ b.toNat) ∧
      (a.toNat = 0xF4 → b.toNat ≤ 0x8F) := by
    simp only [apply_ite UInt8.toNat, UInt8.reduceToNat] at hb
    split_ifs at hb <;> omega
  simp only [UInt8.reduceToNat] at hc hd
  refine ⟨_, chars', rest, rfl, ?_, hrest⟩
  generalize hn :
    ((a.toNat % 8 * 64 + b.toNat % 64) * 64 + c.toNat % 64) * 64 + d.toNat % 64 = n
  have hspelled : String.utf8EncodeChar (Char.ofNat n) = [a, b, c, d] :=
    utf8EncodeChar_four (by omega) (by omega) (by omega) (by omega) (by omega) (by omega)
  rw [hspelled]
  rfl

/-- Where nothing is ill-formed, the first byte tells the length of a first character. -/
lemma beginsWithChar : BeginsWithChar (a :: bytes) chars := by
  by_cases hone : a.toNat < 0x80
  · exact beginsWithChar_one h hone
  by_cases hinvalid : a.toNat < 0xC2 ∨ 0xF5 ≤ a.toNat
  · rw [piecesFrom_cons, step, start_of_invalid (Nat.le_of_not_lt hone) hinvalid] at h
    cases chars <;> cases h
  by_cases htwo : a.toNat < 0xE0
  · exact beginsWithChar_two h (by omega) htwo
  by_cases hthree : a.toNat < 0xF0
  · exact beginsWithChar_three h (by omega) hthree
  · exact beginsWithChar_four h (by omega) (by omega)

end

/-- Bytes that are cut into nothing but characters are the bytes of these characters. -/
lemma eq_flatMap_of_piecesFrom {bytes : Bytes} {chars : List Char}
    (h : piecesFrom .between bytes = chars.map .char) :
    bytes = chars.flatMap String.utf8EncodeChar := by
  induction chars generalizing bytes with
  | nil =>
    cases bytes with
    | nil => rfl
    | cons a bytes =>
      obtain ⟨_, _, _, hnil, -⟩ := beginsWithChar h
      cases hnil
  | cons c chars ih =>
    cases bytes with
    | nil => cases h
    | cons a bytes =>
      obtain ⟨c', chars', rest, hchars, hbytes, hrest⟩ := beginsWithChar h
      obtain ⟨rfl, rfl⟩ := List.cons.inj hchars
      rw [hbytes, ih hrest, List.flatMap_cons]

/-- Strict reading refuses every ill-formed part. -/
lemma eq_map_of_charsOf {position : Nat} {pieces : List Piece} {chars : List Char}
    (h : charsOf position pieces = .ok chars) : pieces = chars.map .char := by
  induction pieces generalizing position chars with
  | nil =>
    cases h
    rfl
  | cons piece pieces ih =>
    cases piece with
    | illFormed first length reason => cases h
    | char c =>
      cases hrest : charsOf (position + c.utf8Size) pieces with
      | error defect =>
        rw [charsOf, hrest] at h
        cases h
      | ok found =>
        rw [charsOf, hrest] at h
        cases h
        rw [ih hrest, List.map_cons]

/-- **Only the bytes of a text are read as this text.** -/
theorem decode_eq_ok_iff {bytes : Bytes} {text : String} :
    decode bytes = .ok text ↔ bytes = encode text := by
  constructor
  · intro h
    cases hchars : charsOf 0 (pieces bytes) with
    | error defect =>
      rw [decode, hchars] at h
      cases h
    | ok chars =>
      rw [decode, hchars] at h
      cases h
      rw [encode, String.toList_ofList]
      exact eq_flatMap_of_piecesFrom (eq_map_of_charsOf hchars)
  · rintro rfl
    exact decode_encode text

end ContractInterface.Utf8
