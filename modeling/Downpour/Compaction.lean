import Downpour.JournalState
import Downpour.JournalRepair

/-!
Journal compaction: every completed block is read back from the part file and
checked against its digest, adjacent blocks are merged into records of at most
`u32::MAX` bytes, and the journal is written again. BLAKE3 is a parameter, and a
streaming hasher is the list of the bytes fed to it. The I/O outcomes of the part
file are given by the offset at which an operation starts; no offset is read
twice. The loops are the source's own, buffer by buffer.
-/

namespace Downpour.Compaction
open JournalFormat JournalReplay JournalState

inductive CompactionError where
  | replay (error : ReplayError)
  | io (error : IoError)
  | invalidState (detail : String)
  | blockDigestMismatch (offset : UInt64) (len : UInt32)
  | format (error : FormatError)
  deriving DecidableEq

def hashBufferLen : Nat := 64 * 1024

def maxRecordLen : Nat := 2 ^ 32 - 1

structure PartIo where
  opened : Option IoError
  seek : Nat → Option IoError
  read : Nat → Option IoError

def unexpectedEof : IoError := ⟨.other, none, "failed to fill whole buffer"⟩

/-- `read_exact` of `size` bytes at `pos`. -/
def readExact (content : List UInt8) (io : PartIo) (pos size : Nat) :
    Except CompactionError (List UInt8) :=
  match io.read pos with
  | some error => .error (.io error)
  | none =>
    if pos + size ≤ content.length then .ok ((content.drop pos).take size)
    else .error (.io unexpectedEof)

/-- A record under construction. A full one is finished at once, so there is
always room for one more byte. -/
structure MergeBuilder where
  start : Nat
  hashed : List UInt8
  room : hashed.length < maxRecordLen

structure Merge where
  merged : List CompletedBlock
  current : Option MergeBuilder

section Merging
variable (blake3 : List UInt8 → Digest)

/-- The record of `hashed`, the bytes that start at `start`. -/
def recordOf (start : Nat) (hashed : List UInt8) : CompletedBlock :=
  ⟨UInt64.ofNat start, UInt32.ofNat hashed.length, blake3 hashed⟩

def finishMerge (merge : Merge) : Merge :=
  match merge.current with
  | none => merge
  | some builder =>
    if builder.hashed.length ≠ 0 then
      ⟨merge.merged ++ [recordOf blake3 builder.start builder.hashed], none⟩
    else ⟨merge.merged, none⟩

def freshBuilder (pos : Nat) : MergeBuilder := ⟨pos, [], by decide⟩

def feedMerge (merge : Merge) (pos : Nat) (bytes : List UInt8) :
    Except CompactionError Merge :=
  if _none : bytes = [] then .ok merge
  else
    let builder := merge.current.getD (freshBuilder pos)
    let take := min (maxRecordLen - builder.hashed.length) bytes.length
    if pos + take ≥ 2 ^ 64 then .error (.invalidState "merged record offset overflows u64")
    else if full : (builder.hashed ++ bytes.take take).length < maxRecordLen then
      feedMerge ⟨merge.merged, some ⟨builder.start, builder.hashed ++ bytes.take take, full⟩⟩
        (pos + take) (bytes.drop take)
    else
      feedMerge
        ⟨merge.merged ++ [recordOf blake3 builder.start (builder.hashed ++ bytes.take take)], none⟩
        (pos + take) (bytes.drop take)
termination_by bytes.length
decreasing_by
  all_goals
    have present := List.length_pos_iff.mpr _none
    have room := (merge.current.getD (freshBuilder pos)).room
    rw [List.length_drop]
    omega

/-- The reading loop of one block; `original` is what its own hasher was fed. -/
def readBlock (content : List UInt8) (io : PartIo) (merge : Merge) (original : List UInt8)
    (pos remaining : Nat) : Except CompactionError (Merge × List UInt8) :=
  if _done : remaining = 0 then .ok (merge, original)
  else
    let take := min remaining hashBufferLen
    match readExact content io pos take with
    | .error error => .error error
    | .ok bytes =>
      match feedMerge blake3 merge pos bytes with
      | .error error => .error error
      | .ok next =>
        if pos + take ≥ 2 ^ 64 then
          .error (.invalidState "completed block read offset overflows u64")
        else readBlock content io next (original ++ bytes) (pos + take) (remaining - take)
termination_by remaining
decreasing_by
  rw [hashBufferLen]
  omega

/-- The merge as it stands when the next block starts at `offset`. -/
def closeGap (merge : Merge) (offset : Nat) : Merge :=
  if merge.current.any fun builder => decide (builder.start + builder.hashed.length ≠ offset) then
    finishMerge blake3 merge
  else merge

def mergeBlocks (content : List UInt8) (io : PartIo) :
    Merge → List CompletedBlock → Except CompactionError Merge
  | merge, [] => .ok (finishMerge blake3 merge)
  | merge, block :: rest =>
    match io.seek block.start with
    | some error => .error (.io error)
    | none =>
      match readBlock blake3 content io (closeGap blake3 merge block.start) [] block.start
          block.len.toNat with
      | .error error => .error error
      | .ok (next, original) =>
        if blake3 original ≠ block.blake3 then
          .error (.blockDigestMismatch block.offset block.len)
        else mergeBlocks content io next rest

def verifyAndMerge (content : List UInt8) (io : PartIo) (blocks : List CompletedBlock) :
    Except CompactionError (List CompletedBlock) :=
  (mergeBlocks blake3 content io ⟨[], none⟩ blocks).map Merge.merged

end Merging

def coveredBytes : Nat → List CompletedBlock → Except CompactionError Nat
  | total, [] => .ok total
  | total, block :: rest =>
    if total + block.len.toNat ≥ 2 ^ 64 then
      .error (.invalidState "covered byte count overflows u64")
    else coveredBytes (total + block.len.toNat) rest

def semanticRecords (state : EffectiveState) (merged : List CompletedBlock)
    (covered wallClock : UInt64) : List JournalRecord :=
  state.identities.map JournalRecord.identityUpdate ++
    ((state.truncate.toList.map fun newLength => JournalRecord.truncate (UInt64.ofNat newLength)) ++
      (.checkpoint covered wallClock ::
        (merged.map CompletedBlock.asRecord ++ state.sealed.toList.map JournalRecord.sealed)))

def numbered : Nat → List JournalRecord → List FramedRecord
  | _, [] => []
  | sequence, record :: rest => ⟨UInt64.ofNat sequence, record⟩ :: numbered (sequence + 1) rest

section Encoding
variable (crc32c : List UInt8 → UInt32)

def encodeAll : List FramedRecord → Except CompactionError (List UInt8)
  | [] => .ok []
  | frame :: rest =>
    match frame.encode crc32c with
    | .error error => .error (.format error)
    | .ok first => (encodeAll rest).map (first ++ ·)

def encodeReplacement (header : FileHeader) (state : EffectiveState)
    (merged : List CompletedBlock) (wallClock : UInt64) : Except CompactionError (List UInt8) :=
  match coveredBytes 0 merged with
  | .error error => .error error
  | .ok covered =>
    let records := semanticRecords state merged (UInt64.ofNat covered) wallClock
    (encodeAll crc32c (numbered 0 records)).map (header.encode crc32c ++ ·)

end Encoding

end Downpour.Compaction
