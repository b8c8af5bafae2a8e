/-
# Writing pieces

A number in the range of its width is written in two's complement, and a byte string of a length
that fits behind that length.  Pieces are written one after the other, so what several of them make
is put together from what each of them makes.  The main results are

* `Piece.encode_uint32`, `Piece.encode_int32`, `Piece.encode_uint64`, `Piece.encode_int64`: the
  written forms of numbers;
* `Writing.piece_run`: a piece is written as a whole or not at all;
* `Writer.Writes.append`: pieces behind others.
-/
import ContractInterface.Proofs.Xdr.Reading
import ContractInterface.Xdr.Writer

namespace ContractInterface.Xdr

/-! ### Pieces -/

namespace Piece

/-- A number in the range of its width is written in two's complement. -/
lemma encodeInt_eq_ok {width : Nat} {low n : Int} {m : Nat} (hlow : low ≤ n)
    (hhigh : n < low + Bytes.bound width) (hm : n % Bytes.bound width = m) :
    encodeInt width low n = .ok (Bytes.ofNat width m) := by
  rw [encodeInt, if_pos ⟨hlow, hhigh⟩, hm, Int.toNat_natCast]

lemma toInt_emod {width : Nat} (x : BitVec width) : x.toInt % (2 ^ width : Nat) = x.toNat := by
  have hlt := x.isLt
  rw [BitVec.toInt_eq_toNat_bmod, Int.bmod_emod]
  exact Int.emod_eq_of_lt (by omega) (by omega)

lemma encode_uint32 (n : UInt32) : (uint32 n.toNat).encode = .ok (ofUInt32 n) := by
  have hlt := n.toNat_lt
  have hbound : Bytes.bound 4 = 2 ^ 32 := rfl
  exact encodeInt_eq_ok (by omega) (by omega) (Int.emod_eq_of_lt (by omega) (by omega))

lemma encode_int32 (n : Int32) : (int32 n.toInt).encode = .ok (ofInt32 n) := by
  have hlow := n.le_toInt
  have hhigh := n.toInt_lt
  have hbound : Bytes.bound 4 = 2 ^ 32 := rfl
  exact encodeInt_eq_ok (by omega) (by omega) (toInt_emod n.toBitVec)

lemma encode_uint64 (n : UInt64) : (uint64 n.toNat).encode = .ok (ofUInt64 n) := by
  have hlt := n.toNat_lt
  have hbound : Bytes.bound 8 = 2 ^ 64 := rfl
  exact encodeInt_eq_ok (by omega) (by omega) (Int.emod_eq_of_lt (by omega) (by omega))

lemma encode_int64 (n : Int64) : (int64 n.toInt).encode = .ok (ofInt64 n) := by
  have hlow := n.le_toInt
  have hhigh := n.toInt_lt
  have hbound : Bytes.bound 8 = 2 ^ 64 := rfl
  exact encodeInt_eq_ok (by omega) (by omega) (toInt_emod n.toBitVec)

lemma encodeCounted_eq_ok {limit : Option Int} {bytes : Bytes}
    (h : Reader.FitsCount limit bytes.length) : encodeCounted bytes = .ok (ofCounted bytes) :=
  if_pos h.lt_bound

/-- The count of an array. -/
lemma encode_count {limit : Option Int} {count : Nat} (h : Reader.FitsCount limit count) :
    (uint32 count).encode = .ok (ofUInt32 (UInt32.ofNat count)) := by
  have hcount := encode_uint32 (UInt32.ofNat count)
  rwa [Reader.toNat_ofNat_count h] at hcount

/-- A byte string with its length has a form if its length has one. -/
lemma encodeCounted_eq_map (bytes : Bytes) :
    encodeCounted bytes = (encodeInt 4 0 bytes.length).map (· ++ ofFixed bytes) := by
  rw [encodeCounted]
  by_cases hlength : bytes.length < Bytes.bound 4
  · have hcount : encodeInt 4 0 bytes.length = .ok (ofUInt32 (UInt32.ofNat bytes.length)) := by
      rw [Bytes.bound_four] at hlength
      exact encode_count (Reader.fitsCount_none_iff.2 hlength)
    rw [if_pos hlength, hcount]
    rfl
  · rw [if_neg hlength, encodeInt, if_neg (by omega)]
    rfl

end Piece

/-! ### Writing a piece -/

namespace Writing

/-- What a step of a writer does that puts a form behind what has been written, if there is one. -/
def ended (w : Writer) : Except PieceFault Bytes → EStateM.Result PieceFault Writer Unit
  | .ok form => .ok () ⟨w.bytes ++ form⟩
  | .error fault => .error fault w

lemma int_run (w : Writer) (width : Nat) (low n : Int) :
    (int width low n).run w = ended w (Piece.encodeInt width low n) := by
  rw [int, Piece.encodeInt]
  split_ifs <;> rfl

lemma fixed_run (w : Writer) (bytes : Bytes) (length : Option Int) :
    (fixed bytes length).run w = ended w (Piece.fixed bytes length).encode := by
  cases length with
  | none => rfl
  | some length =>
    rw [fixed, Piece.encode]
    split_ifs <;> rfl

/-- A byte string behind a step that writes a form. -/
lemma then_fixed_run {first : Writing} {w : Writer} {form : Except PieceFault Bytes}
    (h : first.run w = ended w form) (bytes : Bytes) :
    (do first; fixed bytes none : Writing).run w = ended w (form.map (· ++ ofFixed bytes)) := by
  rw [EStateM.run_bind, h]
  cases form with
  | ok form =>
    simp only [ended, Except.map, ← List.append_assoc]
    rfl
  | error fault => rfl

/-- Only the length of a byte string may have no form, and it comes first; so either both parts are
written or nothing is. -/
lemma counted_run (w : Writer) (bytes : Bytes) :
    (counted bytes).run w = ended w (Piece.encodeCounted bytes) := by
  rw [Piece.encodeCounted_eq_map]
  exact then_fixed_run (int_run w 4 0 bytes.length) bytes

/-- **A piece is written as a whole or not at all.** -/
theorem piece_run (w : Writer) (piece : Piece) :
    (Writing.piece piece).run w = ended w piece.encode := by
  cases piece with
  | uint32 n | int32 n | uint64 n | int64 n => exact int_run w _ _ n
  | boolean b =>
    rw [Writing.piece, int_run]
    cases b <;> rfl
  | fixed bytes length => exact fixed_run w bytes length
  | counted bytes => exact counted_run w bytes
  | text content => exact counted_run w (Utf8.encode content)

end Writing

/-! ### Sequences of pieces -/

namespace Writer

/-- A piece that has a form is written behind what has been written. -/
lemma push_of_ok {piece : Piece} {form : Bytes} (h : piece.encode = .ok form) (w : Writer) :
    w.push piece = (.ok (), ⟨w.bytes ++ form⟩) := by
  rw [push, Writing.piece_run, h]
  rfl

/-- A piece that has no form leaves what has been written as it was. -/
lemma push_of_error {piece : Piece} {fault : PieceFault} (h : piece.encode = .error fault)
    (w : Writer) : w.push piece = (.error fault, w) := by
  rw [push, Writing.piece_run, h]
  rfl

/-- Writes pieces one after the other, up to the first that has no written form. -/
def write (w : Writer) : List Piece → Except PieceFault Unit × Writer
  | [] => (.ok (), w)
  | piece :: pieces =>
    match w.push piece with
    | (.ok (), w) => w.write pieces
    | (.error fault, w) => (.error fault, w)

/-- All pieces are written, and together they are the given bytes. -/
def Writes (pieces : List Piece) (bytes : Bytes) : Prop :=
  ∀ w : Writer, w.write pieces = (.ok (), ⟨w.bytes ++ bytes⟩)

variable {piece : Piece} {pieces pieces' : List Piece} {form bytes bytes' : Bytes}

lemma writes_nil : Writes [] [] := by
  intro w
  rw [write, List.append_nil]

lemma Writes.cons (hpiece : piece.encode = .ok form) (h : Writes pieces bytes) :
    Writes (piece :: pieces) (form ++ bytes) := by
  intro w
  simp only [write, push_of_ok hpiece]
  rw [h, List.append_assoc]

lemma writes_singleton (hpiece : piece.encode = .ok form) : Writes [piece] form := by
  simpa using writes_nil.cons hpiece

/-- Pieces behind others are written once these are. -/
lemma write_append {w w' : Writer} (h : w.write pieces = (.ok (), w')) :
    w.write (pieces ++ pieces') = w'.write pieces' := by
  induction pieces generalizing w with
  | nil =>
    obtain rfl : w = w' := congrArg Prod.snd h
    rfl
  | cons piece pieces ih =>
    rw [write] at h
    rw [List.cons_append, write]
    rcases hpush : w.push piece with ⟨_ | _, next⟩
    · rw [hpush] at h
      cases h
    · rw [hpush] at h
      exact ih h

lemma Writes.append (h : Writes pieces bytes) (h' : Writes pieces' bytes') :
    Writes (pieces ++ pieces') (bytes ++ bytes') := by
  intro w
  rw [write_append (h w), h', List.append_assoc]

lemma writes_flatMap {α : Type} {pieces : α → List Piece} {encode : α → Bytes}
    {values : List α}
    (h : ∀ value ∈ values, Writes (pieces value) (encode value)) :
    Writes (values.flatMap pieces) (values.flatMap encode) := by
  induction values with
  | nil => exact writes_nil
  | cons value values ih =>
    obtain ⟨hvalue, hvalues⟩ := List.forall_mem_cons.1 h
    exact hvalue.append (ih hvalues)

end Writer

end ContractInterface.Xdr
