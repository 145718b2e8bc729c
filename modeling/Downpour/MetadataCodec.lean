import Downpour.Metadata
import Downpour.Support.Cbor

/-!
The versioned payloads of the metadata: the scan of their first heads by hand, the
library's reader behind it, and the demand that the bytes are the encoding of what
was read. The checkpoint payload is the first of them. A position in a payload fits
its machine word, so the checks of the offsets for overflow are not here.
-/

namespace Downpour.MetadataCodec
open Bytes Cbor Intervals Metadata

def formatVersion : Nat := 1
def maxCheckpointBytes : Nat := 64 * 1024 * 1024

/-- The major type and the number of the head at an offset, and where it ends. -/
def parseCborHead (encoded : List UInt8) (offset : Nat) (format : MetadataFormat) :
    Except MetadataError (Nat × Nat × Nat) :=
  match encoded[offset]? with
  | none => .error (.invalidEncoding format "truncated CBOR header")
  | some initial =>
    let major := initial.toNat / 32
    let additional := initial.toNat % 32
    if additional ≤ 23 then .ok (major, additional, offset + 1)
    else match argumentWidth additional with
      | none => .error (.nonCanonicalEncoding format)
      | some bytes =>
        match sliceAt encoded (offset + 1) bytes with
        | none => .error (.invalidEncoding format "truncated CBOR integer")
        | some payload => .ok (major, ofBigEndian payload.toList, offset + 1 + bytes)

def headBehind (encoded : List UInt8) (format : MetadataFormat) :
    Nat → Except MetadataError (Nat × Nat × Nat)
  | 0 => parseCborHead encoded 0 format
  | heads + 1 => do
      let (_, _, after) ← headBehind encoded format heads
      parseCborHead encoded after format

def checkPayloadLen (format : MetadataFormat) (actual maximum : Nat) : Except MetadataError Unit :=
  ensure (decide (actual ≤ maximum)) (.payloadTooLarge format actual maximum)

def peekVersion (encoded : List UInt8) (format : MetadataFormat) (maximum : Nat) :
    Except MetadataError Unit := do
  checkPayloadLen format encoded.length maximum
  let (major, _, offset) ← parseCborHead encoded 0 format
  ensure (decide (major = 4)) (.invalidEncoding format "top-level item is not an array")
  let (versionMajor, version, _) ← parseCborHead encoded offset format
  ensure (decide (versionMajor = 0)) (.invalidEncoding format "version is not an unsigned integer")
  ensure (decide (version ≤ formatVersion)) (.newerFormatVersion format version formatVersion)
  ensure (decide (version = formatVersion)) (.unsupportedFormatVersion format version)

def preflightCheckpointCount (encoded : List UInt8) : Except MetadataError Unit := do
  let (major, count, _) ← headBehind encoded .checkpoint 4
  ensure (decide (major = 4)) (.invalidEncoding .checkpoint "checkpoint intervals are not an array")
  ensure (decide (count ≤ maxCheckpointIntervals))
    (.collectionLimitExceeded .checkpoint count maxCheckpointIntervals)

section Wire
variable {Wire : Type} {item : Wire → Item} {Holds : Wire → Prop} (library : Library item Holds)

def encodeWire (value : Wire) (format : MetadataFormat) : Except MetadataError (List UInt8) :=
  match library.write value with
  | .error reason => .error (.invalidEncoding format reason)
  | .ok encoded => .ok encoded

def decodeWire (encoded : List UInt8) (format : MetadataFormat) : Except MetadataError Wire :=
  match library.read encoded with
  | .error reason => .error (.invalidEncoding format reason)
  | .ok (value, consumed) =>
    if consumed ≠ encoded.length then .error (.nonCanonicalEncoding format) else .ok value

/-- `decode_wire` and then `require_canonical`. -/
def canonicalWire (encoded : List UInt8) (format : MetadataFormat) : Except MetadataError Wire := do
  let wire ← decodeWire library encoded format
  let again ← encodeWire library wire format
  ensure (decide (again = encoded)) (.nonCanonicalEncoding format)
  return wire

theorem encode_wire_shortest (value : Wire) (format : MetadataFormat) :
    encodeWire library value format = .ok (item value).encode := by
  rw [encodeWire, library.shortest]

theorem canonical_wire_back (format : MetadataFormat) (held : Holds wire)
    (small : (item wire).encode.length < 2 ^ 64) :
    canonicalWire library (item wire).encode format = .ok wire := by
  simp [canonicalWire, decodeWire, library.back wire held small, encode_wire_shortest, ensure, bind,
    Except.bind, pure, Except.pure]

variable {library}

theorem canonical_wire_end
    (read : canonicalWire library encoded format = .ok wire) : (item wire).encode = encoded := by
  simp only [canonicalWire, bind_iff, ensure_iff, decide_eq_true_eq, encode_wire_shortest] at read
  obtain ⟨found, _, again, written, _, same, last⟩ := read
  cases last
  cases written
  exact same

end Wire

/-! The scan reads every head, whatever its width. -/

theorem parse_head (eight : major < 8)
    (written : IsHead major value bytes) (before rest : List UInt8) (format : MetadataFormat) :
    parseCborHead (before ++ (bytes ++ rest)) before.length format =
      .ok (major, value, (before ++ bytes).length) := by
  cases written with
  | short small =>
    obtain ⟨majors, infos⟩ := initial_parts eight (show value < 32 by omega)
    simp [parseCborHead, majors, infos, show value ≤ 23 by omega]
  | long info payload sized read =>
    have range := argument_width_info sized
    obtain ⟨majors, infos⟩ := initial_parts eight (show info < 32 by omega)
    simp only [parseCborHead, List.cons_append, List.getElem?_append_right le_rfl, Nat.sub_self,
      List.getElem?_cons_zero, majors, infos, if_neg (show ¬ info ≤ 23 by omega), sized]
    simp [List.Vector.toList, read, Nat.add_assoc, Nat.add_comm 1]

def heads (parts : List (Nat × Nat)) : List UInt8 := parts.flatMap fun part => head part.1 part.2

variable {part : Nat × Nat}

theorem heads_cut (here : parts[index]? = some part) :
    heads parts = heads (parts.take index) ++ (head part.1 part.2 ++ heads (parts.drop (index + 1))) ∧
      heads (parts.take (index + 1)) = heads (parts.take index) ++ head part.1 part.2 := by
  obtain ⟨inside, rfl⟩ := List.getElem?_eq_some_iff.mp here
  have cut : parts = parts.take index ++ parts[index] :: parts.drop (index + 1) := by simp
  refine ⟨(congrArg heads cut).trans List.flatMap_append, ?_⟩
  rw [List.take_add_one, here, heads, List.flatMap_append, Option.toList, List.flatMap_singleton]
  rfl

theorem head_behind_part (rest : List UInt8) (format : MetadataFormat)
    (fit : ∀ part ∈ parts, part.1 < 8 ∧ part.2 < 2 ^ 64) (here : parts[index]? = some part) :
    headBehind (heads parts ++ rest) format index =
      .ok (part.1, part.2, (heads (parts.take (index + 1))).length) := by
  have read {index : Nat} {part : Nat × Nat} (here : parts[index]? = some part) :
      parseCborHead (heads parts ++ rest) (heads (parts.take index)).length format =
        .ok (part.1, part.2, (heads (parts.take (index + 1))).length) := by
    obtain ⟨eight, fits⟩ := fit part (List.mem_of_getElem? here)
    rw [(heads_cut here).1, (heads_cut here).2, List.append_assoc, List.append_assoc]
    exact parse_head eight (head_is_head _ fits) _ _ format
  induction index generalizing part with
  | zero => exact read here
  | succ index ih =>
    obtain ⟨inside, _⟩ := List.getElem?_eq_some_iff.mp here
    rw [headBehind, ih (List.getElem?_eq_getElem (Nat.lt_of_succ_lt inside))]
    exact read here

theorem peek_version_heads (format : MetadataFormat) (listed : IsHead 4 count array)
    (numbered : IsHead 0 version stated) (capped : (array ++ (stated ++ rest)).length ≤ maximum) :
    peekVersion (array ++ (stated ++ rest)) format maximum =
      (do ensure (decide (version ≤ formatVersion)) (.newerFormatVersion format version formatVersion)
          ensure (decide (version = formatVersion)) (.unsupportedFormatVersion format version)) := by
  have first := parse_head (by omega) listed [] (stated ++ rest) format
  have second := parse_head (by omega) numbered array rest format
  simp only [List.nil_append, List.length_nil] at first
  simp only [peekVersion, checkPayloadLen, ensure, decide_eq_true capped, first, second, bind,
    Except.bind, ↓reduceIte, decide_true]

theorem peek_version_iff (version : UInt8) (items : List Item) (format : MetadataFormat)
    (small : maximum < 2 ^ 64) :
    peekVersion (Item.array (.unsigned version.toUInt64 :: items)).encode format maximum = .ok () ↔
      (Item.array (.unsigned version.toUInt64 :: items)).encode.length ≤ maximum ∧ version = 1 := by
  -- The payloads start with their version, so the scan passes those of version 1.
  have opened : (Item.array (.unsigned version.toUInt64 :: items)).encode =
      head 4 (items.length + 1) ++ (head 0 version.toNat ++ encodeAll items) := by
    simp [Item.encode, Item.major, Item.argument, Item.body, Item.unsigned, encodeAll]
  have count := encode_all_length items
  have fits := version.toNat_lt
  rw [opened]
  by_cases capped : (head 4 (items.length + 1) ++ (head 0 version.toNat ++ encodeAll items)).length ≤
      maximum
  · have counted : items.length + 1 < 2 ^ 64 := by
      have := head_positive 0 version.toNat
      simp only [List.length_append] at capped
      omega
    rw [peek_version_heads _ (head_is_head 4 counted) (head_is_head 0 (by omega)) capped,
      ← UInt8.toNat_inj]
    simp only [bind_iff, ensure_iff, decide_eq_true_eq, capped, true_and]
    constructor
    · rintro ⟨_, _, same⟩
      exact same
    · exact fun same => ⟨(), same.le, same⟩
  · simp only [peekVersion, checkPayloadLen, bind_iff, ensure_iff, decide_eq_true_eq]
    constructor
    · rintro ⟨_, short, _⟩
      exact absurd short capped
    · exact fun both => absurd both.1 capped

/-! Checkpoints. -/

structure CheckpointWireV1 where
  version : UInt8
  totalLength : UInt64
  coveredBytes : UInt64
  intervals : List (UInt64 × UInt64)
  deriving DecidableEq

def CheckpointWireV1.item (wire : CheckpointWireV1) : Item :=
  .array [.unsigned wire.version.toUInt64, .unsigned wire.totalLength, .unsigned wire.coveredBytes,
    .array (wire.intervals.map fun interval => .array [.unsigned interval.1, .unsigned interval.2])]

/-- The bound that a `BoundedVec` enforces while it is read. -/
def CheckpointWireV1.Holds (wire : CheckpointWireV1) : Prop :=
  wire.intervals.length ≤ maxCheckpointIntervals

def checkpointWire (checkpoint : Checkpoint) : CheckpointWireV1 where
  version := 1
  totalLength := UInt64.ofNat checkpoint.totalLength
  coveredBytes := UInt64.ofNat checkpoint.coveredBytes
  intervals := checkpoint.intervals.map fun interval =>
    (UInt64.ofNat interval.start, UInt64.ofNat interval.stop)

def encodeCbor (library : Library CheckpointWireV1.item CheckpointWireV1.Holds)
    (checkpoint : Checkpoint) : Except MetadataError (List UInt8) := do
  let encoded ← encodeWire library (checkpointWire checkpoint) .checkpoint
  checkPayloadLen .checkpoint encoded.length maxCheckpointBytes
  return encoded

/-- `CompleteInterval::try_new`. -/
def completeInterval (interval : UInt64 × UInt64) : Except MetadataError Range :=
  if interval.1 ≥ interval.2 then
    .error (.invalidCheckpoint "complete interval is empty or reversed")
  else .ok ⟨interval.1.toNat, interval.2.toNat⟩

/-- `validate_intervals` with the two sums it compares. -/
def validateIntervals (totalLength : Nat) (intervals : List Range) (encoded sql : Nat) :
    Except MetadataError Checkpoint := do
  let checkpoint ← Checkpoint.tryNew totalLength intervals
  ensure (decide (checkpoint.coveredBytes = encoded ∧ checkpoint.coveredBytes = sql))
    (.invalidCheckpoint "interval union differs from encoded or SQL covered_bytes")
  return checkpoint

def decodeCbor (library : Library CheckpointWireV1.item CheckpointWireV1.Holds)
    (encoded : List UInt8) (sqlCoveredBytes : Nat) : Except MetadataError Checkpoint := do
  peekVersion encoded .checkpoint maxCheckpointBytes
  preflightCheckpointCount encoded
  let wire ← canonicalWire library encoded .checkpoint
  let intervals ← wire.intervals.mapM completeInterval
  validateIntervals wire.totalLength.toNat intervals wire.coveredBytes.toNat sqlCoveredBytes

theorem complete_interval_iff (wire : UInt64 × UInt64) (interval : Range) :
    completeInterval wire = .ok interval ↔
      wire.1 < wire.2 ∧ interval = ⟨wire.1.toNat, wire.2.toNat⟩ := by
  unfold completeInterval
  split
  next reversed => simp [UInt64.not_lt.mpr reversed]
  next positive => simp [UInt64.not_le.mp positive, eq_comm]

def CheckpointWireV1.leading (wire : CheckpointWireV1) : List (Nat × Nat) :=
  [(4, 4), (0, wire.version.toNat), (0, wire.totalLength.toNat), (0, wire.coveredBytes.toNat),
    (4, wire.intervals.length)]

theorem checkpoint_heads (wire : CheckpointWireV1) :
    wire.item.encode = heads wire.leading ++ encodeAll
        (wire.intervals.map fun interval => .array [.unsigned interval.1, .unsigned interval.2]) := by
  simp [CheckpointWireV1.item, CheckpointWireV1.leading, Item.encode, Item.major, Item.argument,
    Item.body, Item.unsigned, encodeAll, heads]

theorem wire_head_behind {wire : CheckpointWireV1} (few : wire.Holds) (index : Nat)
    (here : wire.leading[index]? = some part) :
    headBehind wire.item.encode .checkpoint index =
      .ok (part.1, part.2, (heads (wire.leading.take (index + 1))).length) := by
  have version := wire.version.toNat_lt
  have total := wire.totalLength.toNat_lt
  have covered := wire.coveredBytes.toNat_lt
  unfold CheckpointWireV1.Holds maxCheckpointIntervals at few
  rw [checkpoint_heads]
  refine head_behind_part _ _ ?_ here
  simp [CheckpointWireV1.leading]
  omega

theorem scan_passes {wire : CheckpointWireV1} (few : wire.Holds) (version : wire.version = 1)
    (short : wire.item.encode.length ≤ maxCheckpointBytes) :
    peekVersion wire.item.encode .checkpoint maxCheckpointBytes = .ok () ∧
      preflightCheckpointCount wire.item.encode = .ok () := by
  have count := wire_head_behind few 4 rfl
  refine ⟨(peek_version_iff _ _ _ (by decide)).mpr ⟨short, version⟩, ?_⟩
  simp only [preflightCheckpointCount, count, bind_iff, ensure_iff]
  exact ⟨_, rfl, (), rfl, decide_eq_true few⟩

section Codec
variable (library : Library CheckpointWireV1.item CheckpointWireV1.Holds)

theorem encode_cbor_iff (checkpoint : Checkpoint) (bytes : List UInt8) :
    encodeCbor library checkpoint = .ok bytes ↔
      (checkpointWire checkpoint).item.encode = bytes ∧ bytes.length ≤ maxCheckpointBytes := by
  simp only [encodeCbor, encode_wire_shortest, checkPayloadLen, bind_iff, ensure_iff, decide_eq_true_eq, pure, Except.pure,
    Except.ok.injEq]
  constructor
  · rintro ⟨_, rfl, _, short, rfl⟩
    exact ⟨rfl, short⟩
  · rintro ⟨rfl, short⟩
    exact ⟨_, rfl, (), short, rfl⟩

theorem pairs_length (intervals : List (UInt64 × UInt64)) :
    (encodeAll (intervals.map fun interval =>
      .array [.unsigned interval.1, .unsigned interval.2])).length ≤ 19 * intervals.length := by
  induction intervals with
  | nil => simp [encodeAll]
  | cons interval others ih =>
    have first := head_at_most_nine 0 interval.1.toNat
    have second := head_at_most_nine 0 interval.2.toNat
    have two : (head 4 2).length = 1 := rfl
    simp only [Item.unsigned] at ih ⊢
    simp [encodeAll, Item.major, Item.argument, Item.body, two]
    omega

/-- Every checkpoint that can be built fits the limit of the cache in bytes. -/
theorem encode_cbor_fits (made : Checkpoint.tryNew totalLength intervals = .ok checkpoint) :
    ∃ bytes, encodeCbor library checkpoint = .ok bytes := by
  obtain ⟨few, whole, _⟩ := try_new_end made
  have count : (checkpointWire checkpoint).intervals.length ≤ 1000000 := by
    rw [whole]
    simpa [checkpointWire, maxCheckpointIntervals] using few
  have pairs := pairs_length (checkpointWire checkpoint).intervals
  have nine := head_at_most_nine
  refine ⟨_, (encode_cbor_iff library checkpoint _).mpr ⟨rfl, ?_⟩⟩
  rw [checkpoint_heads, maxCheckpointBytes, List.length_append]
  have leading : (heads (checkpointWire checkpoint).leading).length ≤ 45 := by
    have array := nine 4 4
    have version := nine 0 (checkpointWire checkpoint).version.toNat
    have total := nine 0 (checkpointWire checkpoint).totalLength.toNat
    have covered := nine 0 (checkpointWire checkpoint).coveredBytes.toNat
    have listed := nine 4 (checkpointWire checkpoint).intervals.length
    simp only [heads, CheckpointWireV1.leading, List.flatMap_cons, List.flatMap_nil,
      List.length_append, List.length_nil]
    omega
  omega

theorem decode_cbor_back (bounded : totalLength < 2 ^ 64)
    (made : Checkpoint.tryNew totalLength intervals = .ok checkpoint)
    (encoded : encodeCbor library checkpoint = .ok bytes) :
    decodeCbor library bytes checkpoint.coveredBytes = .ok checkpoint := by
  obtain ⟨few, whole, covers⟩ := try_new_end made
  obtain ⟨rfl, short⟩ := (encode_cbor_iff library checkpoint bytes).mp encoded
  have held : (checkpointWire checkpoint).Holds := by
    rw [whole]
    simpa [CheckpointWireV1.Holds, checkpointWire] using few
  obtain ⟨peeked, counted⟩ := scan_passes held rfl short
  have read := canonical_wire_back library .checkpoint held
    (short.trans_lt (by simp [maxCheckpointBytes]))
  have pairs : (checkpointWire checkpoint).intervals.mapM completeInterval = .ok intervals := by
    rw [map_m_iff, whole, checkpointWire, List.forall₂_map_left_iff, List.forall₂_same]
    intro interval mem
    obtain ⟨positive, inside⟩ := covers.inside interval mem
    have start := UInt64.toNat_ofNat_of_lt' (show interval.start < 2 ^ 64 by omega)
    have stop := UInt64.toNat_ofNat_of_lt' (show interval.stop < 2 ^ 64 by omega)
    rw [complete_interval_iff, start, stop]
    exact ⟨UInt64.lt_iff_toNat_lt.mpr (by rwa [start, stop]), rfl⟩
  have total : (checkpointWire checkpoint).totalLength.toNat = totalLength := by
    rw [whole]
    exact UInt64.toNat_ofNat_of_lt' bounded
  have sum : (checkpointWire checkpoint).coveredBytes.toNat = checkpoint.coveredBytes :=
    UInt64.toNat_ofNat_of_lt' covers.fits
  simp [decodeCbor, peeked, counted, read, pairs, total, sum, validateIntervals, made, pure,
    Except.pure]

variable {library}

theorem decode_cbor_end (decoded : decodeCbor library bytes sqlCoveredBytes = .ok checkpoint) :
    encodeCbor library checkpoint = .ok bytes ∧ (checkpointWire checkpoint).Holds ∧
      checkpoint.coveredBytes = sqlCoveredBytes ∧
      Covers checkpoint.totalLength checkpoint.coveredBytes checkpoint.intervals := by
  simp only [decodeCbor, validateIntervals, bind_iff, ensure_iff, decide_eq_true_eq] at decoded
  obtain ⟨_, peeked, _, counted, wire, read, intervals, pairs, found, made, _, ⟨sum, sql⟩, last⟩ :=
    decoded
  cases last
  obtain ⟨few, whole, covers⟩ := try_new_end made
  have canonical := canonical_wire_end read
  subst canonical
  obtain ⟨short, version⟩ := (peek_version_iff wire.version _ _ (by decide)).mp peeked
  have back : (intervals.map fun interval =>
      (UInt64.ofNat interval.start, UInt64.ofNat interval.stop)) = wire.intervals :=
    (map_m_store _ pairs).mpr fun one _ interval completed => by
      simp [((complete_interval_iff _ _).mp completed).2]
  have same : checkpointWire checkpoint = wire := by
    rw [checkpointWire, ← version, whole, sum]
    simp [back]
  have held : wire.Holds := by
    rwa [CheckpointWireV1.Holds, ← back, List.length_map]
  rw [encode_cbor_iff, same, whole]
  exact ⟨⟨rfl, short⟩, held, sql, covers⟩

/-- Encodings of checkpoints are read back, by the library and by the scan of the
heads; what is accepted is such an encoding, of a valid checkpoint; and a newer
version is refused as one, whatever stands behind it. -/
theorem checkpoint_codec_exact :
    (∀ (totalLength : Nat) (intervals : List Range) (checkpoint : Checkpoint) (bytes : List UInt8),
      totalLength < 2 ^ 64 → Checkpoint.tryNew totalLength intervals = .ok checkpoint →
      encodeCbor library checkpoint = .ok bytes →
        decodeCbor library bytes checkpoint.coveredBytes = .ok checkpoint ∧
        (∃ next, headBehind bytes .checkpoint 1 = .ok (0, 1, next)) ∧
        ∃ next, headBehind bytes .checkpoint 4 = .ok (4, checkpoint.intervals.length, next)) ∧
    (∀ (bytes : List UInt8) (sqlCoveredBytes : Nat) (checkpoint : Checkpoint),
      decodeCbor library bytes sqlCoveredBytes = .ok checkpoint →
        encodeCbor library checkpoint = .ok bytes ∧
        Covers checkpoint.totalLength sqlCoveredBytes checkpoint.intervals ∧
        ∃ next, headBehind bytes .checkpoint 3 = .ok (0, sqlCoveredBytes, next)) ∧
    ∀ (array stated rest : List UInt8) (count found sqlCoveredBytes : Nat),
      IsHead 4 count array → IsHead 0 found stated → 1 < found →
      (array ++ (stated ++ rest)).length ≤ maxCheckpointBytes →
        decodeCbor library (array ++ (stated ++ rest)) sqlCoveredBytes =
          .error (.newerFormatVersion .checkpoint found 1) := by
  refine ⟨?_, ?_, ?_⟩
  · intro totalLength intervals checkpoint bytes bounded made encoded
    have decoded := decode_cbor_back library bounded made encoded
    obtain ⟨_, held, _⟩ := decode_cbor_end decoded
    obtain ⟨rfl, _⟩ := (encode_cbor_iff library checkpoint bytes).mp encoded
    have count : (checkpointWire checkpoint).intervals.length = checkpoint.intervals.length :=
      List.length_map _
    exact ⟨decoded, ⟨_, wire_head_behind held 1 rfl⟩, _, count ▸ wire_head_behind held 4 rfl⟩
  · intro bytes sqlCoveredBytes checkpoint decoded
    obtain ⟨encoded, held, rfl, covers⟩ := decode_cbor_end decoded
    obtain ⟨rfl, _⟩ := (encode_cbor_iff library checkpoint bytes).mp encoded
    have sum : (checkpointWire checkpoint).coveredBytes.toNat = checkpoint.coveredBytes :=
      UInt64.toNat_ofNat_of_lt' covers.fits
    exact ⟨encoded, covers, _, sum ▸ wire_head_behind held 3 rfl⟩
  · intro array stated rest count found sqlCoveredBytes listed numbered newer capped
    have peeked := peek_version_heads .checkpoint listed numbered capped
    have refused : ¬ found ≤ formatVersion := Nat.not_le.mpr newer
    simp [decodeCbor, peeked, ensure, refused, bind, Except.bind]
    rfl

end Codec

/-! A library that reads the wire tuple head by head. -/

def readUnsigned (bytes : List UInt8) : Option (UInt64 × List UInt8) := do
  let ((major, value), rest) ← readHead bytes
  if major = 0 then some (UInt64.ofNat value, rest) else none

def readArray (bytes : List UInt8) : Option (Nat × List UInt8) := do
  let ((major, count), rest) ← readHead bytes
  if major = 4 then some (count, rest) else none

def readPairs : Nat → List UInt8 → Option (List (UInt64 × UInt64) × List UInt8)
  | 0, bytes => some ([], bytes)
  | count + 1, bytes => do
    let (fields, bytes) ← readArray bytes
    let (start, bytes) ← readUnsigned bytes
    let (stop, bytes) ← readUnsigned bytes
    let (others, bytes) ← readPairs count bytes
    if fields = 2 then some ((start, stop) :: others, bytes) else none

def readWire (bytes : List UInt8) : Option (CheckpointWireV1 × List UInt8) := do
  let (fields, bytes) ← readArray bytes
  let (version, bytes) ← readUnsigned bytes
  let (totalLength, bytes) ← readUnsigned bytes
  let (coveredBytes, bytes) ← readUnsigned bytes
  let (count, bytes) ← readArray bytes
  let (intervals, bytes) ← readPairs count bytes
  if fields = 4 ∧ version < 256 ∧ count ≤ maxCheckpointIntervals then
    some (⟨version.toUInt8, totalLength, coveredBytes, intervals⟩, bytes)
  else none

theorem read_unsigned (value : UInt64) (rest : List UInt8) :
    readUnsigned (head 0 value.toNat ++ rest) = some (value, rest) := by
  simp [readUnsigned, read_is_head _ (head_is_head 0 value.toNat_lt)]

theorem read_array (fits : count < 2 ^ 64) (rest : List UInt8) :
    readArray (head 4 count ++ rest) = some (count, rest) := by
  simp [readArray, read_is_head _ (head_is_head 4 fits)]

theorem read_pairs (intervals : List (UInt64 × UInt64)) (rest : List UInt8) :
    readPairs intervals.length (encodeAll (intervals.map fun interval =>
      .array [.unsigned interval.1, .unsigned interval.2]) ++ rest) = some (intervals, rest) := by
  induction intervals with
  | nil => simp [readPairs, encodeAll]
  | cons interval others ih =>
    simp only [Item.unsigned] at ih ⊢
    simp [readPairs, encodeAll, Item.major, Item.argument, Item.body, read_array, read_unsigned, ih]

theorem read_wire {wire : CheckpointWireV1} (held : wire.Holds) :
    readWire wire.item.encode = some (wire, []) := by
  have pairs := read_pairs wire.intervals []
  have few : wire.intervals.length < 2 ^ 64 := by
    unfold CheckpointWireV1.Holds maxCheckpointIntervals at held
    omega
  have version := read_unsigned wire.version.toUInt64
  rw [List.append_nil] at pairs
  rw [UInt8.toNat_toUInt64] at version
  have byte : wire.version.toUInt64 < 256 := by
    rw [UInt64.lt_iff_toNat_lt, UInt8.toNat_toUInt64]
    exact wire.version.toNat_lt
  rw [checkpoint_heads]
  simp [readWire, CheckpointWireV1.leading, heads, read_array, read_array few, read_unsigned, version,
    pairs, byte]
  exact held

def readTuple (bytes : List UInt8) : Except String (CheckpointWireV1 × Nat) :=
  match readWire bytes with
  | none => .error "invalid type"
  | some (wire, rest) => .ok (wire, bytes.length - rest.length)

theorem read_tuple (wire : CheckpointWireV1) (held : wire.Holds) (_ : wire.item.encode.length < 2 ^ 64) :
    readTuple wire.item.encode = .ok (wire, wire.item.encode.length) := by
  simp [readTuple, read_wire held]

def headReader : Library CheckpointWireV1.item CheckpointWireV1.Holds :=
  ⟨fun wire => .ok wire.item.encode, readTuple, fun _ => rfl, read_tuple⟩

/-- Two intervals of a file of a thousand bytes, and the bytes of their checkpoint. -/
theorem checkpoint_codec_two :
    let checkpoint : Checkpoint := ⟨1000, 298, [⟨0, 4⟩, ⟨6, 300⟩]⟩
    let bytes : List UInt8 := [0x84, 1, 0x19, 3, 0xe8, 0x19, 1, 0x2a, 0x82, 0x82, 0, 4, 0x82, 6, 0x19,
      1, 0x2c]
    decodeCbor headReader bytes 298 = .ok checkpoint ∧
      encodeCbor headReader checkpoint = .ok bytes ∧
      decodeCbor headReader (0x84 :: 2 :: bytes) 298 =
        .error (.newerFormatVersion .checkpoint 2 1) := by
  intro checkpoint bytes
  obtain ⟨written, accepted, newer⟩ := @checkpoint_codec_exact headReader
  have decoded := (written 1000 [⟨0, 4⟩, ⟨6, 300⟩] checkpoint bytes (by decide) (by decide +kernel)
    (by decide +kernel)).1
  exact ⟨decoded, (accepted bytes 298 checkpoint decoded).1, newer [0x84] [2] bytes 4 2 298
    (.short (by decide)) (.short (by decide)) (by decide) (by decide)⟩

end Downpour.MetadataCodec
