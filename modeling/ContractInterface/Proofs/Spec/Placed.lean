/-
# Types at a place of a byte string

A type is read at an offset, some levels deep, exactly if a type that fits into the levels that are
left stands there; it is read up to its end, whatever follows, and comes out as an interface shows
it.  The main results are

* `TypeDef.toTypeRef_eq_shown`: what comes out is what is shown of the type, with each name as it is
  decoded;
* `TypeDef.readAt_eq_ok`: the law for types at a place;
* `TypeDef.readRefAt_exact`: both, with the failure of everything else.
-/
import ContractInterface.Proofs.Spec.Reading
import ContractInterface.Proofs.Spec.Texts

namespace ContractInterface.Spec.TypeDef

open Xdr Xdr.Cursor Xdr.Reader

/-! ### What is shown of a type -/

mutual

/-- An interface shows a type with its names decoded. -/
theorem toTypeRef_eq_shown :
    ∀ type : TypeDef, type.toTypeRef = (type.mapText Utf8.decodeLossy).shown
  | .simple type => by rw [toTypeRef, mapText, shown, type.toPrimitive_eq_shown]
  | .option inner => by rw [toTypeRef, mapText, shown, toTypeRef_eq_shown inner]
  | .result ok err => by
    rw [toTypeRef, mapText, shown, toTypeRef_eq_shown ok, toTypeRef_eq_shown err]
  | .vec element => by rw [toTypeRef, mapText, shown, toTypeRef_eq_shown element]
  | .map key value => by
    rw [toTypeRef, mapText, shown, toTypeRef_eq_shown key, toTypeRef_eq_shown value]
  | .tuple members => by rw [toTypeRef, mapText, shown, toTypeRefs_eq_shownAll members]
  | .bytesN size => by rw [toTypeRef, mapText, shown]
  | .udt name => by rw [toTypeRef, mapText, shown]

lemma toTypeRefs_eq_shownAll : ∀ members : List TypeDef,
    toTypeRefs members = shownAll (mapTexts Utf8.decodeLossy members)
  | [] => rfl
  | member :: members => by
    rw [toTypeRefs, mapTexts, shownAll, toTypeRef_eq_shown member, toTypeRefs_eq_shownAll members]

end

/-! ### Types at a place -/

/-- Reads a type that stands `depth` levels inside another one, as an interface shows it. -/
def readRefAt (depth : Int) : Reader TypeRef :=
  return (← readAt depth).toTypeRef

/-- A type that fits below `depth` levels stands at an offset of a byte string. -/
structure StandsAt (data : Bytes) (offset depth : Nat) (type : TypeDef) : Prop where
  bounded : type.Bounded
  height_le : type.height + depth ≤ 64
  front : type.encode <+: data.drop offset

variable {data : Bytes} {offset depth : Nat}

/-- Below `depth` levels a type fits if it has no more levels than are left. -/
lemma fitsWithin_iff {type : TypeDef} :
    type.FitsWithin (maxTypeDepth + 1 - (depth : Int)).toNat ↔
      type.Bounded ∧ type.height + depth ≤ 64 := by
  rw [FitsWithin, maxTypeDepth]
  refine and_congr_right fun _ => ?_
  omega

/-- **The law for types at a place.** -/
theorem readAt_eq_ok {type : TypeDef} {next : Cursor} :
    readAt depth (place data offset) = .ok type next ↔
      StandsAt data offset depth type ∧ next = place data (offset + type.encode.length) := by
  rw [readAt, readWithin_eq_ok, fitsWithin_iff, passes_place_iff]
  constructor
  · rintro ⟨⟨hbounded, hheight⟩, -, hfront, hnext⟩
    exact ⟨⟨hbounded, hheight, hfront⟩, hnext⟩
  · rintro ⟨⟨hbounded, hheight, hfront⟩, hnext⟩
    -- a type takes at least the bytes of its code, so the offset is not past the end
    have hlen := hfront.length_le
    have hfour := four_le_length_encode type
    rw [List.length_drop] at hlen
    exact ⟨⟨hbounded, hheight⟩, by omega, hfront, hnext⟩

/-- **A type is read exactly where one stands that fits into the levels that are left.**  At an
offset of a byte string, and some levels deep, reading succeeds exactly if the bytes from there on
begin with the written form of a type that keeps to its limits and has no more levels inside than
are left up to the 64th.  It gives what is shown of this type, with each name as it is decoded, and
stops right behind the form.  Where no such type stands, reading fails. -/
theorem readRefAt_exact (data : Bytes) (offset depth : Nat) :
    ((∃ result next, readRefAt depth (place data offset) = .ok result next) ↔
      ∃ type, StandsAt data offset depth type) ∧
    (∀ type, StandsAt data offset depth type →
      readRefAt depth (place data offset) =
        .ok (type.mapText Utf8.decodeLossy).shown (place data (offset + type.encode.length))) ∧
    ((¬∃ type, StandsAt data offset depth type) →
      ∃ fault next, readRefAt depth (place data offset) = .error fault next) := by
  have hshown : ∀ type, StandsAt data offset depth type →
      readRefAt depth (place data offset) =
        .ok (type.mapText Utf8.decodeLossy).shown (place data (offset + type.encode.length)) := by
    intro type htype
    rw [readRefAt, bind_eq_ok]
    refine ⟨type, _, readAt_eq_ok.2 ⟨htype, rfl⟩, ?_⟩
    rw [toTypeRef_eq_shown]
    rfl
  have hread : (∃ result next, readRefAt depth (place data offset) = .ok result next) ↔
      ∃ type, StandsAt data offset depth type := by
    constructor
    · rintro ⟨result, next, h⟩
      obtain ⟨type, _, hread, -⟩ := bind_eq_ok.1 h
      exact ⟨type, (readAt_eq_ok.1 hread).1⟩
    · rintro ⟨type, htype⟩
      exact ⟨_, _, hshown type htype⟩
  refine ⟨hread, hshown, fun hnone => ?_⟩
  cases h : readRefAt depth (place data offset) with
  | ok result next => exact absurd (hread.1 ⟨result, next, h⟩) hnone
  | error fault next => exact ⟨fault, next, rfl⟩

/-- A type with two levels inside, with a name that is no text. -/
def sampleType : TypeDef :=
  .map (.simple .muxedAddress) (.tuple [.udt [0x4B, 0xFF], .tuple [], .bytesN 4294967295])

/-- The type between other bytes. -/
def sampleData : Bytes :=
  [0xAB] ++ sampleType.encode ++ [1, 2, 3]

theorem readRefAt_exact_sample :
    StandsAt sampleData 1 62 sampleType ∧
      readRefAt 62 (place sampleData 1) = .ok
        (.map (.primitive .address) (.tuple [.custom "K\uFFFD", .tuple [], .bytesN 4294967295]))
        (place sampleData 45) ∧
      (¬∃ type, StandsAt sampleData 1 63 type) ∧
      ∃ fault next, readRefAt 63 (place sampleData 1) = .error fault next := by
  have hstands : StandsAt sampleData 1 62 sampleType := ⟨by decide, by decide, by decide⟩
  have hdeep : ¬∃ type, StandsAt sampleData 1 63 type := by
    rw [← (readRefAt_exact sampleData 1 63).1]
    rintro ⟨result, next, h⟩
    cases h
  exact ⟨hstands, (readRefAt_exact sampleData 1 62).2.1 sampleType hstands, hdeep,
    (readRefAt_exact sampleData 1 63).2.2 hdeep⟩

end ContractInterface.Spec.TypeDef
