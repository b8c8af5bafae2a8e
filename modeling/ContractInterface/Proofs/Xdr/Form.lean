/-
# Lengths of written forms

Every written form is filled to a multiple of four bytes, and every number, byte string or array
takes at least the four bytes of its number or its count.
-/
import ContractInterface.Proofs.Bytes.Number
import ContractInterface.Xdr.Basic

namespace ContractInterface.Xdr

variable {α : Type}

/-- An array: the number of its elements, and the written form of each. -/
def ofArray (encode : α → Bytes) (values : List α) : Bytes :=
  ofUInt32 (UInt32.ofNat values.length) ++ values.flatMap encode

/-- An optional value: whether there is one, and its written form. -/
def ofOptional (encode : α → Bytes) : Option α → Bytes
  | none => ofBool false
  | some value => ofBool true ++ encode value

@[simp] lemma length_ofUInt32 (n : UInt32) : (ofUInt32 n).length = 4 :=
  Bytes.length_ofNat 4 n.toNat

@[simp] lemma length_ofInt32 (n : Int32) : (ofInt32 n).length = 4 :=
  length_ofUInt32 n.toUInt32

/-- A byte string whose length is a multiple of four is not filled. -/
lemma ofFixed_of_dvd {bytes : Bytes} (h : 4 ∣ bytes.length) : ofFixed bytes = bytes := by
  have hpad : padding bytes.length = 0 := by
    rw [padding]
    omega
  rw [ofFixed, hpad, List.replicate_zero, List.append_nil]

lemma four_dvd_length_ofFixed (bytes : Bytes) : 4 ∣ (ofFixed bytes).length := by
  rw [ofFixed, List.length_append, List.length_replicate, padding]
  omega

lemma four_dvd_length_ofCounted (bytes : Bytes) : 4 ∣ (ofCounted bytes).length := by
  have hfixed := four_dvd_length_ofFixed bytes
  rw [ofCounted, List.length_append, length_ofUInt32]
  omega

lemma four_le_length_ofCounted (bytes : Bytes) : 4 ≤ (ofCounted bytes).length := by
  rw [ofCounted, List.length_append, length_ofUInt32]
  omega

lemma four_dvd_length_ofArray {encode : α → Bytes} (h : ∀ value, 4 ∣ (encode value).length)
    (values : List α) : 4 ∣ (ofArray encode values).length := by
  have hvalues : 4 ∣ (values.flatMap encode).length := by
    induction values with
    | nil => simp
    | cons value values ih =>
      rw [List.flatMap_cons, List.length_append]
      exact Nat.dvd_add (h value) ih
  rw [ofArray, List.length_append, length_ofUInt32]
  omega

/-- Elements of at least four bytes each leave room for their number times four. -/
lemma four_mul_length_le {encode : α → Bytes} {values : List α}
    (h : ∀ value ∈ values, 4 ≤ (encode value).length) :
    4 * values.length ≤ (values.flatMap encode).length := by
  induction values with
  | nil => simp
  | cons value values ih =>
    obtain ⟨hhead, hrest⟩ := List.forall_mem_cons.1 h
    have hlen := ih hrest
    rw [List.length_cons, List.flatMap_cons, List.length_append]
    omega

/-- Different numbers are written differently. -/
lemma ofUInt32_injective {m n : UInt32} (h : ofUInt32 m = ofUInt32 n) : m = n := by
  have hnat := congrArg Bytes.toNat h
  rw [ofUInt32, ofUInt32, Bytes.toNat_ofNat, Bytes.toNat_ofNat, Bytes.bound_four,
    Nat.mod_eq_of_lt m.toNat_lt, Nat.mod_eq_of_lt n.toNat_lt] at hnat
  exact UInt32.toNat.inj hnat

lemma ofInt32_injective {m n : Int32} (h : ofInt32 m = ofInt32 n) : m = n :=
  congrArg UInt32.toInt32 (ofUInt32_injective h)

end ContractInterface.Xdr
