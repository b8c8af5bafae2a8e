/-
# Hexadecimal text is read back

The text of a byte string has lowercase digits only, and stands for that byte string.
-/
import Mathlib.Data.List.Basic
import ContractInterface.Bytes.Hex

namespace ContractInterface.Hex

/-- The digits of hexadecimal text in lowercase. -/
def lowercase : List Char :=
  "0123456789abcdef".toList

lemma digit_mem_lowercase {value : Nat} (h : value < 16) : digit value ∈ lowercase := by
  have hall : ∀ value : Fin 16, digit value.val ∈ lowercase := by decide
  exact hall ⟨value, h⟩

lemma value?_digit {value : Nat} (h : value < 16) : value? (digit value) = some value := by
  have hall : ∀ value : Fin 16, value? (digit value.val) = some value.val := by decide
  exact hall ⟨value, h⟩

lemma digits_two (n : Nat) : digits 2 n = [digit (n / 16 % 16), digit (n % 16)] := rfl

lemma decodeChars?_digits (byte : UInt8) (rest : List Char) :
    decodeChars? (digits 2 byte.toNat ++ rest) = (decodeChars? rest).map (byte :: ·) := by
  have hlt := byte.toNat_lt
  have hsum : byte.toNat / 16 % 16 * 16 + byte.toNat % 16 = byte.toNat := by omega
  rw [digits_two, List.cons_append, List.cons_append, List.nil_append, decodeChars?,
    value?_digit (Nat.mod_lt _ (by decide)), value?_digit (Nat.mod_lt _ (by decide))]
  simp only [Option.bind_eq_bind, Option.bind_some, hsum, UInt8.ofNat_toNat]
  cases decodeChars? rest <;> rfl

lemma decode?_encode (bytes : Bytes) : decode? (encode bytes) = some bytes := by
  rw [decode?, encode, String.toList_ofList]
  induction bytes with
  | nil => rfl
  | cons byte bytes ih => rw [List.flatMap_cons, decodeChars?_digits, ih, Option.map_some]

lemma mem_lowercase_of_mem_encode {bytes : Bytes} {c : Char} (h : c ∈ (encode bytes).toList) :
    c ∈ lowercase := by
  rw [encode, String.toList_ofList, List.mem_flatMap] at h
  obtain ⟨byte, -, hc⟩ := h
  rw [digits_two, List.mem_cons, List.mem_singleton] at hc
  rcases hc with rfl | rfl
  · exact digit_mem_lowercase (Nat.mod_lt _ (by decide))
  · exact digit_mem_lowercase (Nat.mod_lt _ (by decide))

end ContractInterface.Hex
