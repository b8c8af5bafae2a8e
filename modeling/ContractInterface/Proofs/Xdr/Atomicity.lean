/-
# A piece that cannot be written leaves no trace

A writer goes on after a piece that has no written form, and what it has written then is made of the
other pieces alone.  The main results are

* `Piece.exists_encode_iff`: which pieces have a written form;
* `Writer.pushEach_eq`: what comes of pieces that are written one after the other, through failures;
* `Writer.pushEach_atomic`: so a failure changes nothing, at once or later.
-/
import ContractInterface.Proofs.Xdr.Writing

namespace ContractInterface.Xdr

namespace Piece

/-- A number in the range of its width, a byte string of the length it should have, or one whose
length a 32-bit count can say. -/
def Fits : Piece → Prop
  | .uint32 n => 0 ≤ n ∧ n < 2 ^ 32
  | .int32 n => -2 ^ 31 ≤ n ∧ n < 2 ^ 31
  | .uint64 n => 0 ≤ n ∧ n < 2 ^ 64
  | .int64 n => -2 ^ 63 ≤ n ∧ n < 2 ^ 63
  | .boolean _ => True
  | .fixed bytes length => ∀ expected ∈ length, (bytes.length : Int) = expected
  | .counted bytes => bytes.length < 2 ^ 32
  | .text content => (Utf8.encode content).length < 2 ^ 32

/-- A form that is given on a condition. -/
lemma exists_form_iff {fits : Prop} [Decidable fits] {form : Bytes} {fault : PieceFault} :
    (∃ found, (if fits then .ok form else .error fault : Except PieceFault Bytes) = .ok found) ↔
      fits := by
  split_ifs with h
  · exact iff_of_true ⟨form, rfl⟩ h
  · refine iff_of_false ?_ h
    rintro ⟨found, hfound⟩
    cases hfound

lemma exists_encodeInt_iff {width : Nat} {low n : Int} :
    (∃ form, encodeInt width low n = .ok form) ↔ low ≤ n ∧ n < low + Bytes.bound width :=
  exists_form_iff

lemma exists_encodeCounted_iff {bytes : Bytes} :
    (∃ form, encodeCounted bytes = .ok form) ↔ bytes.length < 2 ^ 32 := by
  rw [encodeCounted, Bytes.bound_four]
  exact exists_form_iff

/-- **A piece has a written form exactly if it fits.** -/
theorem exists_encode_iff {piece : Piece} : (∃ form, piece.encode = .ok form) ↔ piece.Fits := by
  cases piece with
  | uint32 n | int32 n | uint64 n | int64 n => exact exists_encodeInt_iff
  | boolean b => exact iff_of_true ⟨_, rfl⟩ trivial
  | fixed bytes length =>
    cases length with
    | none => exact iff_of_true ⟨_, rfl⟩ nofun
    | some length =>
      simp only [Fits, Option.mem_some_iff, forall_eq']
      exact exists_form_iff
  | counted bytes | text content => exact exists_encodeCounted_iff

lemma length_of_encodeInt {width : Nat} {low n : Int} {form : Bytes}
    (h : encodeInt width low n = .ok form) : form.length = width := by
  rw [encodeInt] at h
  split_ifs at h
  cases h
  exact Bytes.length_ofNat width _

lemma four_dvd_of_encodeCounted {bytes form : Bytes} (h : encodeCounted bytes = .ok form) :
    4 ∣ form.length := by
  rw [encodeCounted] at h
  split_ifs at h
  cases h
  exact four_dvd_length_ofCounted bytes

/-- Every written form is filled to a multiple of four bytes. -/
lemma four_dvd_of_encode {piece : Piece} {form : Bytes} (h : piece.encode = .ok form) :
    4 ∣ form.length := by
  cases piece with
  | uint32 n | int32 n => rw [length_of_encodeInt h]
  | uint64 n | int64 n =>
    rw [length_of_encodeInt h]
    decide
  | boolean b =>
    cases h
    rw [ofBool, length_ofUInt32]
  | fixed bytes length =>
    obtain rfl : ofFixed bytes = form := by
      cases length with
      | none => exact Except.ok.inj h
      | some length =>
        rw [encode] at h
        split_ifs at h
        exact Except.ok.inj h
    exact four_dvd_length_ofFixed bytes
  | counted bytes | text content => exact four_dvd_of_encodeCounted h

end Piece

namespace Writer

/-- Writes pieces one after the other, whatever comes of each of them; gives what comes of them,
and the writer behind the last. -/
def pushEach (w : Writer) : List Piece → List (Except PieceFault Unit) × Writer
  | [] => ([], w)
  | piece :: pieces =>
    let (outcome, w) := w.push piece
    let (outcomes, w) := w.pushEach pieces
    (outcome :: outcomes, w)

/-- The written forms of the pieces that have one, one after the other. -/
def formsOf (pieces : List Piece) : Bytes :=
  (pieces.filterMap (·.encode.toOption)).flatten

lemma formsOf_append (pieces pieces' : List Piece) :
    formsOf (pieces ++ pieces') = formsOf pieces ++ formsOf pieces' := by
  rw [formsOf, List.filterMap_append, List.flatten_append]
  rfl

lemma formsOf_cons_of_ok {piece : Piece} {form : Bytes} (h : piece.encode = .ok form)
    (pieces : List Piece) : formsOf (piece :: pieces) = form ++ formsOf pieces := by
  rw [formsOf, List.filterMap_cons, h]
  rfl

lemma formsOf_cons_of_error {piece : Piece} {fault : PieceFault} (h : piece.encode = .error fault)
    (pieces : List Piece) : formsOf (piece :: pieces) = formsOf pieces := by
  rw [formsOf, List.filterMap_cons, h]
  rfl

lemma four_dvd_length_formsOf (pieces : List Piece) : 4 ∣ (formsOf pieces).length := by
  induction pieces with
  | nil => exact Nat.dvd_zero 4
  | cons piece pieces ih =>
    cases h : piece.encode with
    | ok form =>
      rw [formsOf_cons_of_ok h, List.length_append]
      exact Nat.dvd_add (Piece.four_dvd_of_encode h) ih
    | error fault =>
      rw [formsOf_cons_of_error h]
      exact ih

/-- **Through all failures, each piece ends as its form says**, and the forms are written one behind
the other. -/
theorem pushEach_eq (w : Writer) (pieces : List Piece) :
    w.pushEach pieces =
      (pieces.map (·.encode.map fun _ => ()), ⟨w.bytes ++ formsOf pieces⟩) := by
  induction pieces generalizing w with
  | nil =>
    rw [pushEach, formsOf, List.filterMap_nil, List.flatten_nil, List.append_nil, List.map_nil]
  | cons piece pieces ih =>
    cases h : piece.encode with
    | ok form =>
      simp only [pushEach, push_of_ok h, ih, List.map_cons, h, formsOf_cons_of_ok h,
        List.append_assoc, Except.map]
    | error fault =>
      simp only [pushEach, push_of_error h, ih, List.map_cons, h, formsOf_cons_of_error h,
        Except.map]

/-- **A piece that cannot be written leaves no trace.**  Let pieces be written one after the other,
whatever they are.  Each of them ends as its own form says, the forms of those that have one are
written one behind the other, and together they are a multiple of four bytes long.  Anywhere among
others, a piece that fits is written behind what stands there; one that does not fit fails, leaves
the bytes exactly as they were, and the pieces behind it are written as if it had not been there. -/
theorem pushEach_atomic (pieces : List Piece) :
    (pushEach {} pieces).1 = pieces.map (·.encode.map fun _ => ()) ∧
    (pushEach {} pieces).2.bytes = formsOf pieces ∧
    4 ∣ (pushEach {} pieces).2.bytes.length ∧
    ∀ (before : List Piece) (piece : Piece) (after : List Piece),
      let w := (pushEach {} before).2
      (piece.Fits ∧ ∃ form, piece.encode = .ok form ∧
        w.push piece = (.ok (), ⟨w.bytes ++ form⟩)) ∨
      ¬piece.Fits ∧ ∃ fault, piece.encode = .error fault ∧ w.push piece = (.error fault, w) ∧
        (pushEach {} (before ++ piece :: after)).2 = (pushEach {} (before ++ after)).2 := by
  rw [pushEach_eq]
  refine ⟨rfl, rfl, four_dvd_length_formsOf pieces, ?_⟩
  intro before piece after w
  cases h : piece.encode with
  | ok form => exact .inl ⟨Piece.exists_encode_iff.1 ⟨form, h⟩, form, rfl, push_of_ok h w⟩
  | error fault =>
    have hfits : ¬piece.Fits := by
      rw [← Piece.exists_encode_iff, h]
      rintro ⟨form, hform⟩
      cases hform
    refine .inr ⟨hfits, fault, rfl, push_of_error h w, ?_⟩
    rw [pushEach_eq, pushEach_eq, formsOf_append, formsOf_cons_of_error h, ← formsOf_append]

/-- Pieces of every kind, of which four cannot be written. -/
def samplePieces : List Piece :=
  [.uint32 (2 ^ 32), .text "né", .int64 (-2 ^ 63 - 1), .fixed [1, 2] (some 3), .boolean true,
    .uint32 (-1), .fixed [7] none]

example : (pushEach {} samplePieces).2.bytes =
    [0, 0, 0, 3, 0x6e, 0xc3, 0xa9, 0, 0, 0, 0, 1, 7, 0, 0, 0] := by
  decide +kernel

end Writer

end ContractInterface.Xdr
