import Downpour.Support.Bytes

/-!
Version 1 of the recovery-journal format: the 72-byte file header and the
checksummed record frames, byte for byte. The CRC-32C function is a parameter;
nothing below depends on which function it is. Lengths are natural numbers: a
frame is at most 65 550 bytes, so the `usize` sums of the decoder cannot wrap.
-/

namespace Downpour.JournalFormat
open Bytes

abbrev Digest := List.Vector UInt8 32

def magicBytes : List.Vector UInt8 4 := ⟨[0x44, 0x50, 0x4A, 0x31], rfl⟩
def formatVersion : UInt16 := 1
def supportedFlags : UInt16 := 0
def headerChecksumOffset : Nat := 68
def headerLen : Nat := 72
def recordPrefixLen : Nat := 11
def checksumLen : Nat := 4
def maxPayloadLen : Nat := 65535

inductive FormatError where
  | truncated (needed actual : Nat)
  | invalidMagic (found : List.Vector UInt8 4)
  | headerChecksumMismatch (stored computed : UInt32)
  | unsupportedVersion (found supported : UInt16)
  | unsupportedFlags (found : UInt16)
  | recordChecksumMismatch (sequence : UInt64) (stored computed : UInt32)
  | unknownRecordKind (found : UInt8)
  | invalidPayloadLength (kind : UInt8) (expected actual : Nat)
  | payloadTooLarge (actual maximum : Nat)
  deriving DecidableEq

structure FileHeader where
  transferId : List.Vector UInt8 16
  totalLength : UInt64
  blockSize : UInt32
  validatorHash : Digest
  deriving DecidableEq

inductive JournalRecord where
  | blockComplete (offset : UInt64) (len : UInt32) (blake3 : Digest)
  | checkpoint (coveredBytes wallClock : UInt64)
  | identityUpdate (cbor : List UInt8)
  | truncate (newLength : UInt64)
  | sealed (finalBlake3 : Digest)
  deriving DecidableEq

structure FramedRecord where
  sequence : UInt64
  record : JournalRecord
  deriving DecidableEq

def requireLen (bytes : List UInt8) (needed : Nat) : Except FormatError Unit :=
  if needed ≤ bytes.length then .ok () else .error (.truncated needed bytes.length)

def arrayAt (size : Nat) (bytes : List UInt8) (offset : Nat) :
    Except FormatError (List.Vector UInt8 size) :=
  match sliceAt bytes offset size with
  | some slice => .ok slice
  | none => .error (.truncated (offset + size) bytes.length)

def byteAt (bytes : List UInt8) (offset : Nat) : Except FormatError UInt8 :=
  (arrayAt 1 bytes offset).map List.Vector.head

def readU16 (bytes : List UInt8) (offset : Nat) : Except FormatError UInt16 :=
  (arrayAt 2 bytes offset).map fun slice => UInt16.ofNat (ofLittleEndian slice.val)

def readU32 (bytes : List UInt8) (offset : Nat) : Except FormatError UInt32 :=
  (arrayAt 4 bytes offset).map fun slice => UInt32.ofNat (ofLittleEndian slice.val)

def readU64 (bytes : List UInt8) (offset : Nat) : Except FormatError UInt64 :=
  (arrayAt 8 bytes offset).map fun slice => UInt64.ofNat (ofLittleEndian slice.val)

def u16Bytes (value : UInt16) : List UInt8 := toLittleEndian 2 value.toNat
def u32Bytes (value : UInt32) : List UInt8 := toLittleEndian 4 value.toNat
def u64Bytes (value : UInt64) : List UInt8 := toLittleEndian 8 value.toNat

def encodePayload : JournalRecord → UInt8 × List UInt8
  | .blockComplete offset len blake3 => (1, u64Bytes offset ++ u32Bytes len ++ blake3.val)
  | .checkpoint coveredBytes wallClock => (2, u64Bytes coveredBytes ++ u64Bytes wallClock)
  | .identityUpdate cbor => (3, cbor)
  | .truncate newLength => (4, u64Bytes newLength)
  | .sealed finalBlake3 => (5, finalBlake3.val)

def requirePayloadLen (kind : UInt8) (payload : List UInt8) (expected : Nat) :
    Except FormatError Unit :=
  if payload.length = expected then .ok ()
  else .error (.invalidPayloadLength kind expected payload.length)

def decodePayload (kind : UInt8) (payload : List UInt8) : Except FormatError JournalRecord :=
  if kind = 1 then do
    requirePayloadLen kind payload 44
    return .blockComplete (← readU64 payload 0) (← readU32 payload 8) (← arrayAt 32 payload 12)
  else if kind = 2 then do
    requirePayloadLen kind payload 16
    return .checkpoint (← readU64 payload 0) (← readU64 payload 8)
  else if kind = 3 then .ok (.identityUpdate payload)
  else if kind = 4 then do
    requirePayloadLen kind payload 8
    return .truncate (← readU64 payload 0)
  else if kind = 5 then do
    requirePayloadLen kind payload 32
    return .sealed (← arrayAt 32 payload 0)
  else .error (.unknownRecordKind kind)

section Checksummed
variable (crc32c : List UInt8 → UInt32)

def FileHeader.body (header : FileHeader) : List UInt8 :=
  magicBytes.val ++ (u16Bytes formatVersion ++ (u16Bytes supportedFlags ++
    (header.transferId.val ++ (u64Bytes header.totalLength ++ (u32Bytes header.blockSize ++
      header.validatorHash.val)))))

def FileHeader.encode (header : FileHeader) : List UInt8 :=
  header.body ++ u32Bytes (crc32c header.body)

def FileHeader.decode (encoded : List UInt8) : Except FormatError FileHeader := do
  requireLen encoded headerLen
  let magic ← arrayAt 4 encoded 0
  if magic ≠ magicBytes then .error (.invalidMagic magic) else do
  let stored ← readU32 encoded headerChecksumOffset
  let computed := crc32c (encoded.take headerChecksumOffset)
  if stored ≠ computed then .error (.headerChecksumMismatch stored computed) else do
  let version ← readU16 encoded 4
  if version ≠ formatVersion then .error (.unsupportedVersion version formatVersion) else do
  let flags ← readU16 encoded 6
  if flags ≠ supportedFlags then .error (.unsupportedFlags flags) else do
  return ⟨← arrayAt 16 encoded 8, ← readU64 encoded 24, ← readU32 encoded 32, ← arrayAt 32 encoded 36⟩

def FramedRecord.body (frame : FramedRecord) : List UInt8 :=
  let payload := encodePayload frame.record
  u64Bytes frame.sequence ++ ([payload.1] ++ (u16Bytes (UInt16.ofNat payload.2.length) ++ payload.2))

def FramedRecord.encode (frame : FramedRecord) : Except FormatError (List UInt8) :=
  let payload := (encodePayload frame.record).2
  if payload.length > maxPayloadLen then .error (.payloadTooLarge payload.length maxPayloadLen)
  else .ok (frame.body ++ u32Bytes (crc32c frame.body))

/-- The first frame of `encoded` and the number of bytes it takes. -/
def FramedRecord.decodePrefix (encoded : List UInt8) : Except FormatError (FramedRecord × Nat) := do
  requireLen encoded recordPrefixLen
  let sequence ← readU64 encoded 0
  let kind ← byteAt encoded 8
  let payloadLen := (← readU16 encoded 9).toNat
  let checksumOffset := recordPrefixLen + payloadLen
  let frameLen := checksumOffset + checksumLen
  requireLen encoded frameLen
  let stored ← readU32 encoded checksumOffset
  let computed := crc32c (encoded.take checksumOffset)
  if stored ≠ computed then .error (.recordChecksumMismatch sequence stored computed) else do
  let record ← decodePayload kind ((encoded.take checksumOffset).drop recordPrefixLen)
  return (⟨sequence, record⟩, frameLen)

end Checksummed

/-! Reading back what was written. -/

@[simp] theorem u16_length (value : UInt16) : (u16Bytes value).length = 2 :=
  little_endian_length 2 _

@[simp] theorem u32_length (value : UInt32) : (u32Bytes value).length = 4 :=
  little_endian_length 4 _

@[simp] theorem u64_length (value : UInt64) : (u64Bytes value).length = 8 :=
  little_endian_length 8 _

@[simp] theorem u16_read (value : UInt16) : UInt16.ofNat (ofLittleEndian (u16Bytes value)) = value := by
  simp [u16Bytes, little_endian_read 2 _ value.toNat_lt]

@[simp] theorem u32_read (value : UInt32) : UInt32.ofNat (ofLittleEndian (u32Bytes value)) = value := by
  simp [u32Bytes, little_endian_read 4 _ value.toNat_lt]

@[simp] theorem u64_read (value : UInt64) : UInt64.ofNat (ofLittleEndian (u64Bytes value)) = value := by
  simp [u64Bytes, little_endian_read 8 _ value.toNat_lt]

theorem payload_round_trip (record : JournalRecord) :
    decodePayload (encodePayload record).1 (encodePayload record).2 = .ok record := by
  cases record <;>
    simp [decodePayload, encodePayload, requirePayloadLen, readU64, readU32, arrayAt, Except.map, bind,
      Except.bind, pure, Except.pure]

section RoundTrip
variable (crc32c : List UInt8 → UInt32)

theorem header_body_length (header : FileHeader) : header.body.length = headerChecksumOffset := by
  simp [FileHeader.body, headerChecksumOffset]

theorem header_length (header : FileHeader) : (header.encode crc32c).length = headerLen := by
  simp [FileHeader.encode, header_body_length, headerChecksumOffset, headerLen]

theorem header_round_trip (header : FileHeader) (rest : List UInt8) :
    FileHeader.decode crc32c (header.encode crc32c ++ rest) = .ok header := by
  have held : requireLen (header.encode crc32c ++ rest) headerLen = .ok () := by
    simp [requireLen, header_length]
  have protectedBytes : (header.encode crc32c ++ rest).take headerChecksumOffset = header.body := by
    rw [FileHeader.encode, List.append_assoc, List.take_append_of_le_length (by
      simp [header_body_length]), ← header_body_length header, List.take_length]
  have stored : readU32 (header.encode crc32c ++ rest) headerChecksumOffset =
      .ok (crc32c header.body) := by
    simp [FileHeader.encode, readU32, arrayAt, header_body_length, Except.map]
  have magic : arrayAt 4 (header.encode crc32c ++ rest) 0 = .ok magicBytes := by
    simp [FileHeader.encode, FileHeader.body, arrayAt]
  have version : readU16 (header.encode crc32c ++ rest) 4 = .ok formatVersion := by
    simp [FileHeader.encode, FileHeader.body, readU16, arrayAt, Except.map]
  have flags : readU16 (header.encode crc32c ++ rest) 6 = .ok supportedFlags := by
    simp [FileHeader.encode, FileHeader.body, readU16, arrayAt, Except.map]
  have transferId : arrayAt 16 (header.encode crc32c ++ rest) 8 = .ok header.transferId := by
    simp [FileHeader.encode, FileHeader.body, arrayAt]
  have totalLength : readU64 (header.encode crc32c ++ rest) 24 = .ok header.totalLength := by
    simp [FileHeader.encode, FileHeader.body, readU64, arrayAt, Except.map]
  have blockSize : readU32 (header.encode crc32c ++ rest) 32 = .ok header.blockSize := by
    simp [FileHeader.encode, FileHeader.body, readU32, arrayAt, Except.map]
  have validatorHash : arrayAt 32 (header.encode crc32c ++ rest) 36 = .ok header.validatorHash := by
    simp [FileHeader.encode, FileHeader.body, arrayAt]
  simp [FileHeader.decode, held, magic, stored, protectedBytes, version, flags,
    transferId, totalLength, blockSize, validatorHash, bind, Except.bind, pure, Except.pure]

theorem frame_body_length (frame : FramedRecord) :
    frame.body.length = recordPrefixLen + (encodePayload frame.record).2.length := by
  simp [FramedRecord.body, recordPrefixLen]
  omega

variable {encoded : List UInt8}

theorem frame_encoded (frame : FramedRecord) (written : frame.encode crc32c = .ok encoded) :
    (encodePayload frame.record).2.length ≤ maxPayloadLen ∧
      encoded = frame.body ++ u32Bytes (crc32c frame.body) := by
  unfold FramedRecord.encode at written
  simp only at written
  split at written
  · cases written
  next short =>
    cases written
    exact ⟨by omega, rfl⟩

theorem frame_length (frame : FramedRecord) (written : frame.encode crc32c = .ok encoded) :
    encoded.length = recordPrefixLen + (encodePayload frame.record).2.length + checksumLen := by
  obtain ⟨_, rfl⟩ := frame_encoded crc32c frame written
  simp [frame_body_length, checksumLen]

theorem frame_payload_len {frame : FramedRecord} (rest : List UInt8)
    (written : frame.encode crc32c = .ok encoded) :
    readU16 (encoded ++ rest) 9 =
      .ok (UInt16.ofNat (encodePayload frame.record).2.length) := by
  obtain ⟨_, rfl⟩ := frame_encoded crc32c frame written
  rw [FramedRecord.body, readU16, arrayAt]
  simp [Except.map]

theorem payload_len_exact {frame : FramedRecord} (written : frame.encode crc32c = .ok encoded) :
    (UInt16.ofNat (encodePayload frame.record).2.length).toNat =
      (encodePayload frame.record).2.length := by
  have short := (frame_encoded crc32c frame written).1
  rw [UInt16.toNat_ofNat']
  exact Nat.mod_eq_of_lt (by rw [maxPayloadLen] at short; omega)

theorem frame_round_trip (frame : FramedRecord) (encoded rest : List UInt8)
    (written : frame.encode crc32c = .ok encoded) :
    FramedRecord.decodePrefix crc32c (encoded ++ rest) = .ok (frame, encoded.length) := by
  have sized := frame_length crc32c frame written
  have payloadLen := frame_payload_len crc32c rest written
  have exactLen := payload_len_exact crc32c written
  obtain ⟨_, shape⟩ := frame_encoded crc32c frame written
  have bodyLen := frame_body_length frame
  have prefixHeld : requireLen (encoded ++ rest) recordPrefixLen = .ok () := by
    simp [requireLen, sized]
    omega
  have frameHeld : requireLen (encoded ++ rest)
      (recordPrefixLen + (encodePayload frame.record).2.length + checksumLen) = .ok () := by
    simp [requireLen, sized]
  have sequence : readU64 (encoded ++ rest) 0 = .ok frame.sequence := by
    rw [shape, FramedRecord.body, readU64, arrayAt]
    simp [Except.map]
  have kind : byteAt (encoded ++ rest) 8 = .ok (encodePayload frame.record).1 := by
    rw [shape, FramedRecord.body, byteAt, arrayAt]
    simp [Except.map]
  have stored : readU32 (encoded ++ rest)
      (recordPrefixLen + (encodePayload frame.record).2.length) = .ok (crc32c frame.body) := by
    simp [shape, readU32, arrayAt, bodyLen, Except.map]
  have protectedBytes : (encoded ++ rest).take
      (recordPrefixLen + (encodePayload frame.record).2.length) = frame.body := by
    rw [shape, List.append_assoc, List.take_append_of_le_length (by omega), ← bodyLen,
      List.take_length]
  have payload : frame.body.drop recordPrefixLen = (encodePayload frame.record).2 := by
    have split : frame.body = (u64Bytes frame.sequence ++ ([(encodePayload frame.record).1] ++
        u16Bytes (UInt16.ofNat (encodePayload frame.record).2.length))) ++
          (encodePayload frame.record).2 := by
      simp [FramedRecord.body]
    rw [split]
    exact List.drop_left' (by simp [recordPrefixLen])
  simp [FramedRecord.decodePrefix, prefixHeld, sequence, kind, payloadLen, exactLen, frameHeld,
    stored, protectedBytes, payload, payload_round_trip, sized, bind, Except.bind, pure,
    Except.pure]

theorem read_u16_value (read : readU16 bytes offset = .ok value) :
    value.toNat = ofLittleEndian ((bytes.drop offset).take 2) := by
  unfold readU16 arrayAt sliceAt at read
  split at read
  next slice found =>
    split at found
    next held =>
      cases found
      cases read
      have sized : ((bytes.drop offset).take 2).length = 2 := by
        rw [List.length_take, List.length_drop]
        omega
      have bound := of_little_endian_lt ((bytes.drop offset).take 2)
      rw [sized] at bound
      exact Nat.mod_eq_of_lt bound
    · cases found
  · cases read

theorem decode_prefix_consumed
    (decoded : FramedRecord.decodePrefix crc32c encoded = .ok (frame, consumed)) :
    consumed = recordPrefixLen +
      (ofLittleEndian ((encoded.take recordPrefixLen).drop 9) + checksumLen) := by
  simp only [FramedRecord.decodePrefix, bind, Except.bind, pure, Except.pure] at decoded
  split at decoded
  · cases decoded
  split at decoded
  · cases decoded
  split at decoded
  · cases decoded
  split at decoded
  · cases decoded
  next payloadLen read =>
    split at decoded
    · cases decoded
    split at decoded
    · cases decoded
    split at decoded
    · cases decoded
    split at decoded
    · cases decoded
    cases decoded
    rw [read_u16_value read, List.drop_take]
    rfl

end RoundTrip

end Downpour.JournalFormat
