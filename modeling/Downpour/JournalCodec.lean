import Downpour.JournalFormat

/-!
The journal format read backwards: whatever a decoder accepts is, as far as it
was consumed, the encoding of the decoded value. With the round trips of
`JournalFormat` the encoders and decoders are inverse to each other, so no
header and no record has a second encoding.
-/

namespace Downpour.JournalCodec
open Bytes JournalFormat

structure Slice (bytes : List UInt8) (offset size : Nat) (slice : List UInt8) : Prop where
  held : offset + size ≤ bytes.length
  same : slice = (bytes.drop offset).take size

namespace Slice
variable {bytes left right : List UInt8} {offset first second : Nat}

theorem append (before : Slice bytes offset first left)
    (after : Slice bytes (offset + first) second right) :
    Slice bytes offset (first + second) (left ++ right) where
  held := by
    have := after.held
    omega
  same := by rw [before.same, after.same, List.take_add, List.drop_drop]

theorem front (slice : Slice bytes 0 first left) : left = bytes.take first := slice.same

theorem length (slice : Slice bytes offset first left) : left.length = first := by
  have held := slice.held
  rw [slice.same, List.length_take, List.length_drop]
  omega

end Slice

variable {bytes : List UInt8} {offset : Nat}

theorem array_slice
    (read : arrayAt size bytes offset = .ok part) : Slice bytes offset size part.val := by
  unfold arrayAt sliceAt at read
  split at read
  next slice found =>
    split at found
    next held =>
      cases found
      cases read
      exact ⟨held, rfl⟩
    next => cases found
  next => cases read

theorem field_slice (bytes : List UInt8) (offset : Nat) {Value : Type}
    (decode : List.Vector UInt8 size → Value) (encode : Value → List UInt8)
    (inverse : ∀ part, encode (decode part) = part.val) (value : Value)
    (read : (arrayAt size bytes offset).map decode = .ok value) :
    Slice bytes offset size (encode value) := by
  cases found : arrayAt size bytes offset with
  | error error =>
    rw [found] at read
    cases read
  | ok part =>
    rw [found] at read
    cases read
    rw [inverse]
    exact array_slice found

theorem number_written (part : List.Vector UInt8 size) (value : Nat)
    (same : value = ofLittleEndian part.val) : toLittleEndian size value = part.val := by
  have written := little_endian_written part.val
  rw [part.property] at written
  rw [same, written]

theorem number_small (size : Nat) (part : List.Vector UInt8 size) :
    ofLittleEndian part.val < 256 ^ size := by
  have bound := of_little_endian_lt part.val
  rwa [part.property] at bound

theorem u16_slice (read : readU16 bytes offset = .ok value) :
    Slice bytes offset 2 (u16Bytes value) :=
  field_slice bytes offset (fun part => UInt16.ofNat (ofLittleEndian part.val)) u16Bytes
    (fun part => number_written part _ (Nat.mod_eq_of_lt (number_small 2 part))) value read

theorem u32_slice (read : readU32 bytes offset = .ok value) :
    Slice bytes offset 4 (u32Bytes value) :=
  field_slice bytes offset (fun part => UInt32.ofNat (ofLittleEndian part.val)) u32Bytes
    (fun part => number_written part _ (Nat.mod_eq_of_lt (number_small 4 part))) value read

theorem u64_slice (read : readU64 bytes offset = .ok value) :
    Slice bytes offset 8 (u64Bytes value) :=
  field_slice bytes offset (fun part => UInt64.ofNat (ofLittleEndian part.val)) u64Bytes
    (fun part => number_written part _ (Nat.mod_eq_of_lt (number_small 8 part))) value read

theorem byte_slice (read : byteAt bytes offset = .ok value) :
    Slice bytes offset 1 [value] :=
  field_slice bytes offset _ (fun value => [value]) (fun part => by
    obtain ⟨list, sized⟩ := part
    obtain ⟨byte, rfl⟩ := List.length_eq_one_iff.mp sized
    rfl) value read

theorem bind_ok {Error First Second : Type} {step : Except Error First}
    {rest : First → Except Error Second} {result : Second} (done : (step >>= rest) = .ok result) :
    ∃ middle, step = .ok middle ∧ rest middle = .ok result := by
  cases step with
  | error error => cases done
  | ok middle => exact ⟨middle, rfl, done⟩

theorem payload_length (checked : requirePayloadLen kind payload expected = .ok passed) :
    payload.length = expected := by
  unfold requirePayloadLen at checked
  split at checked
  next exact => exact exact
  next => cases checked

theorem slice_whole (part : Slice bytes 0 size slice)
    (sized : bytes.length = size) : slice = bytes := by
  rw [part.front, ← sized, List.take_length]

theorem payload_written {kind : UInt8} {payload : List UInt8} {record : JournalRecord}
    (decoded : decodePayload kind payload = .ok record) : encodePayload record = (kind, payload) := by
  unfold decodePayload at decoded
  split at decoded
  next block =>
    obtain ⟨_, checked, decoded⟩ := bind_ok decoded
    obtain ⟨offset, readOffset, decoded⟩ := bind_ok decoded
    obtain ⟨len, readLen, decoded⟩ := bind_ok decoded
    obtain ⟨blake3, readHash, decoded⟩ := bind_ok decoded
    cases decoded
    have joined := ((u64_slice readOffset).append
      (u32_slice readLen)).append (array_slice readHash)
    rw [encodePayload, slice_whole joined (payload_length checked), block]
  next =>
    split at decoded
    next checkpoint =>
      obtain ⟨_, checked, decoded⟩ := bind_ok decoded
      obtain ⟨covered, readCovered, decoded⟩ := bind_ok decoded
      obtain ⟨clock, readClock, decoded⟩ := bind_ok decoded
      cases decoded
      have joined := (u64_slice readCovered).append
        (u64_slice readClock)
      rw [encodePayload, slice_whole joined (payload_length checked), checkpoint]
    next =>
      split at decoded
      next identity =>
        cases decoded
        rw [encodePayload, identity]
      next =>
        split at decoded
        next truncate =>
          obtain ⟨_, checked, decoded⟩ := bind_ok decoded
          obtain ⟨newLength, readLength, decoded⟩ := bind_ok decoded
          cases decoded
          rw [encodePayload, slice_whole (u64_slice readLength)
            (payload_length checked), truncate]
        next =>
          split at decoded
          next final =>
            obtain ⟨_, checked, decoded⟩ := bind_ok decoded
            obtain ⟨digest, readDigest, decoded⟩ := bind_ok decoded
            cases decoded
            rw [encodePayload, slice_whole (array_slice readDigest)
              (payload_length checked), final]
          next => cases decoded

section Checksummed
variable (crc32c : List UInt8 → UInt32)

theorem header_written {bytes : List UInt8} {header : FileHeader}
    (decoded : FileHeader.decode crc32c bytes = .ok header) :
    bytes.take headerLen = header.encode crc32c := by
  unfold FileHeader.decode at decoded
  obtain ⟨_, _, decoded⟩ := bind_ok decoded
  obtain ⟨magic, readMagic, decoded⟩ := bind_ok decoded
  split at decoded
  next => cases decoded
  next sameMagic =>
    obtain ⟨stored, readStored, decoded⟩ := bind_ok decoded
    simp only at decoded
    split at decoded
    next => cases decoded
    next sameChecksum =>
      obtain ⟨version, readVersion, decoded⟩ := bind_ok decoded
      split at decoded
      next => cases decoded
      next sameVersion =>
        obtain ⟨flags, readFlags, decoded⟩ := bind_ok decoded
        split at decoded
        next => cases decoded
        next sameFlags =>
          obtain ⟨transferId, readId, decoded⟩ := bind_ok decoded
          obtain ⟨totalLength, readLength, decoded⟩ := bind_ok decoded
          obtain ⟨blockSize, readSize, decoded⟩ := bind_ok decoded
          obtain ⟨validatorHash, readHash, decoded⟩ := bind_ok decoded
          cases decoded
          rw [not_not] at sameMagic sameChecksum sameVersion sameFlags
          subst sameMagic sameVersion sameFlags
          -- The fields lie one behind the other, from the magic to the validator hash.
          have body : Slice bytes 0 headerChecksumOffset (FileHeader.body
              ⟨transferId, totalLength, blockSize, validatorHash⟩) :=
            (array_slice readMagic).append ((u16_slice readVersion).append
              ((u16_slice readFlags).append ((array_slice readId).append
                ((u64_slice readLength).append ((u32_slice readSize).append
                  (array_slice readHash))))))
          have whole := body.append (u32_slice readStored)
          rw [← body.front] at sameChecksum
          rw [sameChecksum] at whole
          exact whole.front.symm

theorem frame_written (bytes : List UInt8) (frame : FramedRecord) (consumed : Nat)
    (decoded : FramedRecord.decodePrefix crc32c bytes = .ok (frame, consumed)) :
    frame.encode crc32c = .ok (bytes.take consumed) ∧ consumed ≤ bytes.length := by
  unfold FramedRecord.decodePrefix at decoded
  obtain ⟨_, _, decoded⟩ := bind_ok decoded
  obtain ⟨sequence, readSequence, decoded⟩ := bind_ok decoded
  obtain ⟨kind, readKind, decoded⟩ := bind_ok decoded
  obtain ⟨length, readLength, decoded⟩ := bind_ok decoded
  simp only at decoded
  obtain ⟨_, frameHeld, decoded⟩ := bind_ok decoded
  obtain ⟨stored, readStored, decoded⟩ := bind_ok decoded
  split at decoded
  next => cases decoded
  next sameChecksum =>
    obtain ⟨record, readRecord, decoded⟩ := bind_ok decoded
    cases decoded
    rw [not_not] at sameChecksum
    have checksum := u32_slice readStored
    have shape := payload_written readRecord
    have payload : Slice bytes recordPrefixLen length.toNat
        ((bytes.take (recordPrefixLen + length.toNat)).drop recordPrefixLen) := by
      have held := checksum.held
      refine ⟨by omega, ?_⟩
      rw [List.drop_take, Nat.add_sub_cancel_left]
    have sized := payload.length
    have short : length.toNat ≤ maxPayloadLen := Nat.le_of_lt_succ length.toNat_lt
    have sameLength : UInt16.ofNat length.toNat = length := UInt16.ofNat_toNat
    have joined := (u64_slice readSequence).append
      ((byte_slice readKind).append
        ((u16_slice readLength).append payload))
    have extent : 8 + (1 + (2 + length.toNat)) = recordPrefixLen + length.toNat := by
      rw [recordPrefixLen]
      omega
    rw [extent] at joined
    have body : Slice bytes 0 (recordPrefixLen + length.toNat)
        (FramedRecord.body ⟨sequence, record⟩) := by
      simp only [FramedRecord.body, shape, sized, sameLength]
      exact joined
    rw [← Nat.zero_add (recordPrefixLen + length.toNat)] at checksum
    have whole := body.append checksum
    rw [← body.front] at sameChecksum
    rw [sameChecksum] at whole
    constructor
    · rw [FramedRecord.encode, shape]
      simp only [sized]
      rw [if_neg (Nat.not_lt.mpr short), whole.front]
      rfl
    · have held := whole.held
      rwa [Nat.zero_add] at held

theorem encode_fails_iff (frame : FramedRecord) :
    (∃ error, frame.encode crc32c = .error error) ↔
      ∃ cbor, frame.record = .identityUpdate cbor ∧ maxPayloadLen < cbor.length := by
  obtain ⟨sequence, record⟩ := frame
  have fits : ∀ payload : JournalRecord, (∀ cbor, payload ≠ .identityUpdate cbor) →
      (encodePayload payload).2.length ≤ maxPayloadLen := by
    intro payload fixed
    cases payload with
    | identityUpdate cbor => exact absurd rfl (fixed cbor)
    | _ => simp [encodePayload, maxPayloadLen]
  constructor
  · rintro ⟨error, failed⟩
    unfold FramedRecord.encode at failed
    simp only at failed
    split at failed
    next long =>
      cases record with
      | identityUpdate cbor => exact ⟨cbor, rfl, long⟩
      | _ => exact absurd long (Nat.not_lt.mpr (fits _ (by simp)))
    next => cases failed
  · rintro ⟨cbor, rfl, long⟩
    exact ⟨_, if_pos long⟩

/-- Encoders and decoders of headers and records are inverse to each other, with
any bytes behind the encoding; only an identity update can be too long to encode. -/
theorem codec_exact :
    (∀ header rest, FileHeader.decode crc32c (header.encode crc32c ++ rest) = .ok header ∧
      (header.encode crc32c).length = headerLen) ∧
    (∀ bytes header, FileHeader.decode crc32c bytes = .ok header →
      bytes.take headerLen = header.encode crc32c ∧ headerLen ≤ bytes.length) ∧
    (∀ frame encoded rest, FramedRecord.encode crc32c frame = .ok encoded →
      FramedRecord.decodePrefix crc32c (encoded ++ rest) = .ok (frame, encoded.length)) ∧
    (∀ bytes frame consumed, FramedRecord.decodePrefix crc32c bytes = .ok (frame, consumed) →
      frame.encode crc32c = .ok (bytes.take consumed) ∧ consumed ≤ bytes.length) ∧
    ∀ frame, (∃ error, FramedRecord.encode crc32c frame = .error error) ↔
      ∃ cbor, frame.record = .identityUpdate cbor ∧ 65535 < cbor.length := by
  refine ⟨?_, ?_, frame_round_trip crc32c, frame_written crc32c, encode_fails_iff crc32c⟩
  · intro header rest
    exact ⟨header_round_trip crc32c header rest, header_length crc32c header⟩
  · intro bytes header decoded
    have written := header_written crc32c decoded
    refine ⟨written, ?_⟩
    have sized := congrArg List.length written
    rw [header_length, List.length_take] at sized
    omega

end Checksummed

end Downpour.JournalCodec
