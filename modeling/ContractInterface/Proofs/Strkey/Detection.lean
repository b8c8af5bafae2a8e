/-
# Mistyped addresses

A change of one character of an address, or of two neighbouring ones, is a change of at most ten
neighbouring bits.  Where these bits belong to the part that the checksum is taken of, or to the
checksum, the checksum tells.  Between characters 51 and 53 they may belong to both, and the
checksum stands with its low half first: then at most nine bits of the payload change and the
checksum may change in the six upper bits of its low half only, which no such change of the payload
asks for.  The main results are

* `eq_of_changedAt`: the bytes of two addresses do not differ in ten neighbouring bits that
  begin with a character;
* `decode_detects`: changes of neighbouring characters, of the checksum, and of neighbouring bits
  of the payload are all detected.
-/
import ContractInterface.Proofs.Crc16
import ContractInterface.Proofs.Strkey.Inverse

namespace ContractInterface.Strkey

open Bytes (bits)

/-! ### The bits of an address -/

lemma bits_rawBytes (lead : UInt8) (payload : Bytes) (checksum : BitVec 16) :
    bits (rawBytes lead payload checksum) =
      bits (lead :: payload) ++ bits (checksumBytes checksum) :=
  Bytes.bits_append _ _

/-- The checksum of an address is taken of 264 bits. -/
lemma length_bits_body {payload : Bytes} (lead : UInt8) (h : payload.length = 32) :
    (bits (lead :: payload)).length = 264 := by
  rw [Bytes.length_bits, List.length_cons, h]

/-- The checksum stands with its low half first. -/
lemma bits_checksumBytes (checksum : BitVec 16) :
    bits (checksumBytes checksum) =
      bitsOf 8 checksum.toNat ++ bitsOf 8 (checksum.toNat / 2 ^ 8) := by
  have hbyte (n : Nat) : bitsOf 8 (UInt8.ofNat n).toNat = bitsOf 8 n := by
    rw [UInt8.toNat_ofNat']
    exact bitsOf_mod 8 n
  have hbytes : checksumBytes checksum =
      [UInt8.ofNat checksum.toNat, UInt8.ofNat (checksum.toNat / 2 ^ 8)] := rfl
  rw [hbytes, Bytes.bits_cons, Bytes.bits_cons, hbyte, hbyte, Bytes.bits_nil, List.append_nil]

/-- What a checksum keeps if only the first six bits of its written form change. -/
lemma checksum_agrees {checksum checksum' : BitVec 16}
    (h : (bits (checksumBytes checksum')).drop 6 = (bits (checksumBytes checksum)).drop 6) :
    checksum'.toNat / 2 ^ 8 = checksum.toNat / 2 ^ 8 ∧
      checksum'.toNat % 2 ^ 2 = checksum.toNat % 2 ^ 2 := by
  have hdrop (sum : BitVec 16) : (bits (checksumBytes sum)).drop 6 =
      bitsOf 2 sum.toNat ++ bitsOf 8 (sum.toNat / 2 ^ 8) := by
    have hsplit := bitsOf_add 6 2 sum.toNat
    rw [bits_checksumBytes, hsplit, List.append_assoc, List.drop_left' (length_bitsOf 6 _)]
  rw [hdrop, hdrop] at h
  obtain ⟨hlow, hhigh⟩ := List.append_inj h (by simp)
  have hmod := bitsOf_eq_iff.1 hlow
  have hdiv := bitsOf_eq_iff.1 hhigh
  have hlt := checksum.isLt
  have hlt' := checksum'.isLt
  exact ⟨by omega, hmod⟩

/-! ### Changes of neighbouring characters -/

variable {lead : UInt8} {payload payload' : Bytes}

/-- The bytes of two addresses do not differ in the last nine bits of the payload and the first six
of the checksum. -/
lemma eq_of_changedAt_border (hlen : payload.length = 32) (hlen' : payload'.length = 32)
    (h : ChangedAt 255 15
      (bits (lead :: payload) ++ bits (checksumBytes (Crc16.checksum (lead :: payload))))
      (bits (lead :: payload') ++ bits (checksumBytes (Crc16.checksum (lead :: payload'))))) :
    lead :: payload' = lead :: payload := by
  have hbody := length_bits_body lead hlen
  have hbody' := length_bits_body lead hlen'
  obtain ⟨hfront, hback⟩ := h.across (hbody'.trans hbody.symm) (by omega) (by omega)
  rw [hbody] at hback
  obtain ⟨hhigh, hlow⟩ := checksum_agrees hback
  -- both registers are the same before the last nine bits
  have hrun (bytes : Bytes) : Crc16.checksum bytes =
      Crc16.run (Crc16.run 0#16 ((bits bytes).take 255)) ((bits bytes).drop 255) := by
    rw [Crc16.checksum_eq_run, ← Crc16.run_append, List.take_append_drop]
  rw [hrun (lead :: payload), hrun (lead :: payload'), hfront] at hhigh hlow
  have hlast := Crc16.eq_of_run_agrees (by rw [List.length_drop, hbody'])
    (by rw [List.length_drop, hbody]) hhigh hlow
  apply Bytes.bits_injective
  rw [← List.take_append_drop 255 (bits (lead :: payload')), hfront, hlast,
    List.take_append_drop]

/-- The bytes of two addresses do not differ in ten neighbouring bits that begin with a
character. -/
theorem eq_of_changedAt {place : Nat} (hlen : payload.length = 32) (hlen' : payload'.length = 32)
    (h : ChangedAt (5 * place) 10
      (bits (rawBytes lead payload (Crc16.checksum (lead :: payload))))
      (bits (rawBytes lead payload' (Crc16.checksum (lead :: payload'))))) :
    lead :: payload' = lead :: payload := by
  have hbody := length_bits_body lead hlen
  have hbody' := length_bits_body lead hlen'
  rw [bits_rawBytes, bits_rawBytes] at h
  rcases Nat.lt_or_ge 264 (5 * place + 10) with hbehind | hwithin
  swap
  -- only the part that the checksum is taken of has changed
  · obtain ⟨hchange, hsum⟩ := h.of_append_left (hbody'.trans hbody.symm) (by omega)
    have hsum' := checksumBytes_injective (Bytes.bits_injective hsum)
    exact Crc16.eq_of_checksum_eq (hchange.mono _ 16 le_rfl (by omega)) hsum'
  rcases Nat.lt_or_ge (5 * place) 264 with hacross | hchecksum
  -- both have changed, at one of two places
  · exact eq_of_changedAt_border hlen hlen' (h.mono 255 15 (by omega) (by omega))
  -- only the checksum has changed
  · exact Bytes.bits_injective (h.eq_of_append_right (hbody'.trans hbody.symm) (by omega))

/-! ### Detection -/

variable {version : Version}

/-- What becomes of the text of 35 bytes under the right version byte. -/
lemma decode_encode_rawBytes (version : Version) (hash : Hash) (checksum : BitVec 16) :
    decode version (Base32.encode (rawBytes version.byte hash.bytes checksum)) =
      if Crc16.checksum (version.byte :: hash.bytes) ≠ checksum then
        .error (.wrongChecksum (Crc16.checksum (version.byte :: hash.bytes)) checksum)
      else .ok hash :=
  decode_of_upper (length_encode_rawBytes _ _ hash.length_eq)
    (upper_encode_rawBytes _ _ hash.length_eq)

/-- A text of digits that differs from an address in two neighbouring characters is refused. -/
lemma decode_eq_error_of_changedAt {hash : Hash} {typed : String} {place : Nat}
    (hdigits : ∀ c ∈ typed.toList, Base32.IsDigit c)
    (hchange : ChangedAt place 2 (encodeWith version.byte hash.bytes).toList typed.toList)
    (hne : typed ≠ encodeWith version.byte hash.bytes) :
    ∃ defect, decode version typed = .error defect := by
  cases hdecode : decode version typed with
  | error defect => exact ⟨defect, rfl⟩
  | ok hash' =>
    exfalso
    obtain ⟨-, hupper⟩ := decode_eq_ok_iff.1 hdecode
    rw [Text.upper_eq_self hdigits] at hupper
    subst hupper
    have hbits := hchange.flatMap Base32.length_digitBits
    rw [encodeWith_eq, encodeWith_eq, (spells_rawBytes _ _ hash.length_eq).flatMap_eq,
      (spells_rawBytes _ _ hash'.length_eq).flatMap_eq] at hbits
    have hsame := eq_of_changedAt hash.length_eq hash'.length_eq hbits
    exact hne (by rw [(List.cons.inj hsame).2])

/-- A change of the last two bytes is a change of the checksum. -/
lemma exists_checksum_of_changedAt {checksum : BitVec 16} {raw' : Bytes}
    (hlen : payload.length = 32) (h : ChangedAt 33 2 (rawBytes lead payload checksum) raw') :
    ∃ checksum', raw' = rawBytes lead payload checksum' := by
  obtain ⟨lead', hash', checksum', rfl⟩ :=
    exists_rawBytes (h.length_eq.trans (length_rawBytes hlen))
  have hbody : (lead :: payload).length = 33 := by rw [List.length_cons, hlen]
  have hbody' : (lead' :: hash'.bytes).length = 33 := by rw [List.length_cons, hash'.length_eq]
  have hfront := h.front
  rw [rawBytes, rawBytes, List.take_left' hbody, List.take_left' hbody'] at hfront
  exact ⟨checksum', by rw [rawBytes, hfront, rawBytes]⟩

/-- A change of bits of the payload leaves the version byte and the checksum. -/
lemma exists_payload_of_changedAt {checksum : BitVec 16} {raw' : Bytes} {first count : Nat}
    (hlen : payload.length = 32) (hfirst : 8 ≤ first) (hlast : first + count ≤ 264)
    (h : ChangedAt first count (bits (rawBytes lead payload checksum)) (bits raw')) :
    ∃ hash : Hash, raw' = rawBytes lead hash.bytes checksum ∧
      ChangedAt first count (bits (lead :: payload)) (bits (lead :: hash.bytes)) := by
  have hraw : raw'.length = 35 := by
    have hbits := h.length_eq
    rw [Bytes.length_bits, Bytes.length_bits, length_rawBytes hlen] at hbits
    omega
  obtain ⟨lead', hash, checksum', rfl⟩ := exists_rawBytes hraw
  have hbody := length_bits_body lead hlen
  have hbody' := length_bits_body lead' hash.length_eq
  rw [bits_rawBytes, bits_rawBytes] at h
  obtain ⟨hchange, hsum⟩ := h.of_append_left (hbody'.trans hbody.symm) (by omega)
  have hlead : lead' = lead := by
    have hsplit := hchange
    rw [Bytes.bits_cons, Bytes.bits_cons] at hsplit
    exact Bytes.eq_of_bitsOf_eq
      (hsplit.eq_of_append_right (by simp) (by simpa using hfirst))
  obtain rfl := hlead
  obtain rfl := checksumBytes_injective (Bytes.bits_injective hsum)
  exact ⟨hash, rfl, hchange⟩

/-- **Addresses tell when they are mistyped.**  A text over the alphabet that differs from an
address in one character, or in two neighbouring ones, is refused.  Where the bytes of an address
are changed and written again, the checksum is found to be wrong if the change is one of the two
checksum bytes, or one of up to sixteen neighbouring bits of the payload. -/
theorem decode_detects {payload : Bytes} {address : String}
    (haddress : encode version payload = .ok address) :
    (∀ typed place, (∀ c ∈ typed.toList, Base32.IsDigit c) →
        ChangedAt place 2 address.toList typed.toList → typed ≠ address →
          ∃ defect, decode version typed = .error defect) ∧
      ∃ raw, Base32.decode address = .ok raw ∧ raw.length = 35 ∧
        (∀ raw', ChangedAt 33 2 raw raw' → raw' ≠ raw →
          ∃ computed stored,
            decode version (Base32.encode raw') = .error (.wrongChecksum computed stored)) ∧
        ∀ raw' first count, 8 ≤ first → first + count ≤ 264 → count ≤ 16 →
          ChangedAt first count (bits raw) (bits raw') → raw' ≠ raw →
            ∃ computed stored,
              decode version (Base32.encode raw') = .error (.wrongChecksum computed stored) := by
  obtain ⟨hpayload, rfl⟩ := encode_eq_ok_iff.1 haddress
  obtain ⟨hash, rfl⟩ : ∃ hash : Hash, hash.bytes = payload := ⟨⟨payload, hpayload⟩, rfl⟩
  have hraw := (Base32.decode_eq_ok_iff (five_dvd_length_rawBytes hpayload)).2
    (encodeWith_eq version.byte hash.bytes)
  refine ⟨?_, _, hraw, length_rawBytes hpayload, ?_, ?_⟩
  · intro typed place hdigits hchange hne
    exact decode_eq_error_of_changedAt hdigits hchange hne
  · intro raw' hchange hne
    obtain ⟨checksum', rfl⟩ := exists_checksum_of_changedAt hpayload hchange
    have hsum : Crc16.checksum (version.byte :: hash.bytes) ≠ checksum' := by
      rintro rfl
      exact hne rfl
    exact ⟨_, _, by rw [decode_encode_rawBytes, if_pos hsum]⟩
  · intro raw' first count hfirst hlast hcount hchange hne
    obtain ⟨hash', rfl, hbits⟩ := exists_payload_of_changedAt hpayload hfirst hlast hchange
    have hsum : Crc16.checksum (version.byte :: hash'.bytes) ≠
        Crc16.checksum (version.byte :: hash.bytes) := by
      intro hsum
      have hsame := Crc16.eq_of_checksum_eq (hbits.mono first 16 le_rfl (by omega)) hsum
      exact hne (by rw [(List.cons.inj hsame).2])
    exact ⟨_, _, by rw [decode_encode_rawBytes, if_pos hsum]⟩

/-- Two characters are swapped that hold the end of the payload and the front of the checksum; the
last byte is changed; and so are sixteen bits across bytes of the payload. -/
theorem decode_detects_sample :
    encode .contract samplePayload = .ok sampleAddress ∧
      (∃ defect, decode .contract "CDLZFC3SYJYDZT7K67VZ75HPJVIEUVNIXF47ZG2FB2RMQQVU2HHCGYSC" =
        .error defect) ∧
      (∃ computed stored,
        decode .contract (Base32.encode (16 :: samplePayload ++ [98, 189])) =
          .error (.wrongChecksum computed stored)) ∧
      ∃ computed stored,
        decode .contract (Base32.encode (16 :: 208 :: 109 :: 123 :: samplePayload.drop 3 ++
          [98, 66])) = .error (.wrongChecksum computed stored) := by
  have haddress : encode .contract samplePayload = .ok sampleAddress := by decide +kernel
  have hbytes : Base32.decode sampleAddress = .ok (16 :: samplePayload ++ [98, 66]) := by
    decide +kernel
  have hdigits : "CDLZFC3SYJYDZT7K67VZ75HPJVIEUVNIXF47ZG2FB2RMQQVU2HHCGYSC".toList.all
      (fun c => decide (Base32.IsDigit c)) = true := by decide +kernel
  obtain ⟨htyped, raw, hraw, -, hsum, hpayload⟩ := decode_detects haddress
  obtain rfl := Except.ok.inj (hraw.symm.trans hbytes)
  refine ⟨haddress, ?_, ?_, ?_⟩
  · exact htyped _ 51 (fun c hc => of_decide_eq_true (List.all_eq_true.1 hdigits c hc))
      (by decide +kernel) (by decide)
  · exact hsum _ (by decide) (by decide)
  · exact hpayload _ 13 16 (by decide) (by decide) (by decide) (by decide +kernel) (by decide)

end ContractInterface.Strkey
