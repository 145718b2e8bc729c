import Downpour.Support.CrashDisk
import Downpour.Intervals
import Downpour.PartFile

/-!
The durable writer: positional writes are staged, and a flush commits the whole
batch in the order data sync, journal appends, journal sync, interval map. Every
call receives the outcomes of the I/O it may perform and returns the disk events
it caused, so a run of calls has one event trace. BLAKE3 and CRC-32C are
parameters. The writer is the release build: the debug assertion in
`ensure_current_grant` is left out. The journal file obeys the signed 64-bit file
size of the platform, so an append past it fails.
-/

namespace Downpour.Writer
open Intervals JournalFormat JournalReplay PartFile CrashDisk

inductive WriterError where
  | partFile (error : PartFileError)
  | format (error : FormatError)
  | interval (error : IntervalMapError)
  | io (operation : String) (source : IoError)
  | journalAlreadyExists (path : String)
  | lengthMismatch (dataLength journalLength : Nat)
  | intervalLengthMismatch (dataLength intervalLength : Nat)
  | emptyBlock
  | blockTooLarge (length : Nat)
  | rangeOverflow (offset length : Nat)
  | overlappingStaged (existingStart existingEnd attemptedStart attemptedEnd : Nat)
  | batchLengthOverflow
  | sequenceExhausted
  | noSpace (offset : Nat)
  | poisoned
  deriving DecidableEq

def journalFlushInterval : Nat := 2000000000
def journalFlushBytes : Nat := 8 * 1024 * 1024
def maxFileLength : Nat := 2 ^ 63 - 1

structure StagedBlock where
  range : Range
  recordLength : UInt32
  worker : WorkerId
  blake3 : Digest
  deriving DecidableEq

structure DurableBlock where
  sequence : Nat
  range : Range
  worker : WorkerId
  blake3 : Digest
  deriving DecidableEq

structure DurableWriter where
  dataLength : Nat
  journalBytes : Nat
  nextSequence : Nat
  staged : List StagedBlock
  stagedBytes : Nat
  firstStagedAt : Option Nat
  poisoned : Bool
  diskFullAt : Option Nat
  durableBytes : Nat
  deriving DecidableEq

/-- `try_new` over a journal file that already holds `journalBytes` bytes. -/
def tryNew (dataLength journalLength journalBytes nextSequence : Nat) :
    Except WriterError DurableWriter :=
  if dataLength ≠ journalLength then .error (.lengthMismatch dataLength journalLength)
  else .ok ⟨dataLength, journalBytes, nextSequence, [], 0, none, false, none, 0⟩

theorem try_new_unstaged
    (created : tryNew dataLength journalLength journalBytes nextSequence = .ok writer) :
    writer.staged = [] := by
  unfold tryNew at created
  split at created
  · cases created
  · cases created
    rfl

/-- The outcomes of the I/O of one flush. A failed append leaves the given
number of bytes of its frame in the file. -/
structure FlushIo where
  dataSync : Option WriterError
  append : Nat → Option (WriterError × Nat)
  journalSync : Option WriterError

/-- The outcomes of the I/O of one stage. A failed write leaves the bytes
selected by the function in the file. -/
structure StageIo where
  write : Option (WriterError × (Nat → Bool))
  flush : FlushIo

/-- What a call returns and leaves behind. `flushFailed` is not part of the
program: it records that a flush inside the call returned an error. -/
structure Outcome where
  result : Except WriterError (List DurableBlock)
  writer : DurableWriter
  intervals : IntervalMap
  events : List (Event UInt8)
  flushFailed : Bool

def enospc : Int := 28

def noSpaceOffset (error : WriterError) (offset : Nat) : Option Nat :=
  match error with
  | .partFile (.io _ _ source) | .io _ source =>
    if source.rawOsError = some enospc then some offset else none
  | .noSpace refused => some refused
  | _ => none

def completeAll : IntervalMap → List StagedBlock → Except IntervalMapError IntervalMap
  | map, [] => .ok map
  | map, block :: rest =>
    match map.complete block.range block.worker with
    | .error error => .error error
    | .ok next => completeAll next rest

def StagedBlock.record (block : StagedBlock) : JournalRecord :=
  .blockComplete (UInt64.ofNat block.range.start) block.recordLength block.blake3

def framedRecords : Nat → List StagedBlock → List FramedRecord
  | _, [] => []
  | sequence, block :: rest =>
    ⟨UInt64.ofNat sequence, block.record⟩ :: framedRecords (sequence + 1) rest

def durableBlocks : Nat → List StagedBlock → List DurableBlock
  | _, [] => []
  | sequence, block :: rest =>
    ⟨sequence, block.range, block.worker, block.blake3⟩ :: durableBlocks (sequence + 1) rest

def saturatingAdd (left right : Nat) : Nat := min (left + right) (2 ^ 64 - 1)

def fileTooLarge : WriterError :=
  .io "append recovery-journal record" ⟨.other, some 27, "File too large"⟩

section Calls
variable (blake3 : List UInt8 → Digest) (crc32c : List UInt8 → UInt32)

/-- The append loop of `flush`: its events, the journal length it leaves and
the error it stopped at. -/
def appendAll (io : Nat → Option (WriterError × Nat)) :
    Nat → Nat → List FramedRecord → List (Event UInt8) × Nat × Option WriterError
  | _, length, [] => ([], length, none)
  | index, length, record :: rest =>
    match record.encode crc32c with
    | .error error => ([], length, some (.format error))
    | .ok encoded =>
      match io index with
      | some (error, landed) =>
        ([.appendFailed encoded landed], length + (encoded.take landed).length, some error)
      | none =>
        if length + encoded.length > maxFileLength then
          ([.appendFailed encoded 0], length, some fileTooLarge)
        else
          let later := appendAll io (index + 1) (length + encoded.length) rest
          (.append encoded :: later.1, later.2)

def flush (writer : DurableWriter) (intervals : IntervalMap) (io : FlushIo) : Outcome :=
  if writer.poisoned then ⟨.error .poisoned, writer, intervals, [], true⟩
  else if intervals.totalLength ≠ writer.dataLength then
    ⟨.error (.intervalLengthMismatch writer.dataLength intervals.totalLength), writer, intervals, [],
      true⟩
  else if writer.staged = [] then ⟨.ok [], writer, intervals, [], false⟩
  else match completeAll intervals writer.staged with
    | .error error =>
      ⟨.error (.interval error), { writer with poisoned := true }, intervals, [], true⟩
    | .ok nextIntervals =>
      -- With the whole batch below `2 ^ 64` the sums for single records cannot overflow.
      if writer.nextSequence + writer.staged.length ≥ 2 ^ 64 then
        ⟨.error .sequenceExhausted, writer, intervals, [], true⟩
      else match io.dataSync with
        | some error =>
          ⟨.error error, { writer with poisoned := true }, intervals, [.syncDataFailed], true⟩
        | none =>
          let records := framedRecords writer.nextSequence writer.staged
          let appended := appendAll crc32c io.append 0 writer.journalBytes records
          match appended.2.2 with
          | some error =>
            ⟨.error error,
              { writer with poisoned := true, journalBytes := appended.2.1 }, intervals,
              .syncData :: appended.1, true⟩
          | none =>
            match io.journalSync with
            | some error =>
              ⟨.error error,
                { writer with poisoned := true, journalBytes := appended.2.1 }, intervals,
                .syncData :: appended.1 ++ [.syncLogFailed], true⟩
            | none =>
              ⟨.ok (durableBlocks writer.nextSequence writer.staged),
                { writer with
                  journalBytes := appended.2.1
                  nextSequence := writer.nextSequence + writer.staged.length
                  durableBytes := writer.staged.foldl (fun total block =>
                    saturatingAdd total (block.range.stop - block.range.start))
                    writer.durableBytes
                  staged := []
                  stagedBytes := 0
                  firstStagedAt := none },
                nextIntervals, .syncData :: appended.1 ++ [.syncLog], false⟩

def flushIfDue (writer : DurableWriter) (intervals : IntervalMap) (now : Nat) (io : FlushIo) :
    Outcome :=
  if writer.poisoned then ⟨.error .poisoned, writer, intervals, [], false⟩
  else if writer.firstStagedAt.any fun started =>
      decide (started ≤ now) && decide (journalFlushInterval ≤ now - started) then
    flush crc32c writer intervals io
  else ⟨.ok [], writer, intervals, [], false⟩

def overlapping (range : Range) (block : StagedBlock) : Bool :=
  decide (block.range.start < range.stop) && decide (range.start < block.range.stop)

def reject (writer : DurableWriter) (intervals : IntervalMap) (error : WriterError) : Outcome :=
  ⟨.error error, writer, intervals, [], false⟩

def stageCheck (writer : DurableWriter) (intervals : IntervalMap) (worker : WorkerId)
    (offset : Nat) (bytes : List UInt8) : Option WriterError :=
  if writer.poisoned then some .poisoned
  else if intervals.totalLength ≠ writer.dataLength then
    some (.intervalLengthMismatch writer.dataLength intervals.totalLength)
  else if bytes = [] then some .emptyBlock
  else if bytes.length ≥ 2 ^ 32 then some (.blockTooLarge bytes.length)
  else if offset + bytes.length ≥ 2 ^ 64 then some (.rangeOverflow offset bytes.length)
  else match intervals.complete ⟨offset, offset + bytes.length⟩ worker with
    | .error error => some (.interval error)
    | .ok _ =>
      match writer.staged.find? (overlapping ⟨offset, offset + bytes.length⟩) with
      | some existing =>
        some (.overlappingStaged existing.range.start existing.range.stop offset
          (offset + bytes.length))
      | none =>
        if writer.stagedBytes + bytes.length ≥ 2 ^ 64 then some .batchLengthOverflow else none

def pushStaged (writer : DurableWriter) (worker : WorkerId) (offset : Nat) (bytes : List UInt8)
    (now : Nat) : DurableWriter :=
  { writer with
    staged := writer.staged ++
      [⟨⟨offset, offset + bytes.length⟩, UInt32.ofNat bytes.length, worker, blake3 bytes⟩]
    stagedBytes := writer.stagedBytes + bytes.length
    firstStagedAt := some (writer.firstStagedAt.getD now) }

def stage (writer : DurableWriter) (intervals : IntervalMap) (worker : WorkerId) (offset : Nat)
    (bytes : List UInt8) (now : Nat) (io : StageIo) : Outcome :=
  match stageCheck writer intervals worker offset bytes with
  | some error => reject writer intervals error
  | none =>
    match io.write with
    | some (error, landed) =>
      match noSpaceOffset error offset with
      | some refused =>
        let flushed := flush crc32c writer intervals io.flush
        ⟨.error (.noSpace refused), { flushed.writer with diskFullAt := some refused },
          flushed.intervals, .writeFailed offset bytes landed :: flushed.events,
          flushed.flushFailed⟩
      | none =>
        ⟨.error error, { writer with poisoned := true }, intervals,
          [.writeFailed offset bytes landed], false⟩
    | none =>
      let pushed := pushStaged blake3 writer worker offset bytes now
      if pushed.stagedBytes ≥ journalFlushBytes then
        let flushed := flush crc32c pushed intervals io.flush
        { flushed with events := .write offset bytes :: flushed.events }
      else ⟨.ok [], pushed, intervals, [.write offset bytes], false⟩

/-! What a flush and a stage can do, said once for all later proofs. -/

/-- The events of an append loop over `records`; `complete` says that every
record was appended. -/
inductive AppendRun : List FramedRecord → List (Event UInt8) → Bool → Prop where
  | done : AppendRun [] [] true
  | unencodable (records : List FramedRecord) : AppendRun records [] false
  | torn (record : FramedRecord) (rest : List FramedRecord) (encoded : List UInt8) (landed : Nat)
      (written : record.encode crc32c = .ok encoded) :
      AppendRun (record :: rest) [.appendFailed encoded landed] false
  | next (record : FramedRecord) (rest : List FramedRecord) (encoded : List UInt8)
      (events : List (Event UInt8)) (complete : Bool)
      (written : record.encode crc32c = .ok encoded) (later : AppendRun rest events complete) :
      AppendRun (record :: rest) (.append encoded :: events) complete

theorem append_all_runs (io : Nat → Option (WriterError × Nat)) (index length : Nat)
    (records : List FramedRecord) :
    AppendRun crc32c records (appendAll crc32c io index length records).1
      (appendAll crc32c io index length records).2.2.isNone := by
  induction records generalizing index length with
  | nil => exact AppendRun.done
  | cons record rest ih =>
    unfold appendAll
    split
    next => exact AppendRun.unencodable _
    next encoded written =>
      split
      next error landed _ => exact AppendRun.torn record rest encoded landed written
      next =>
        split
        next => exact AppendRun.torn record rest encoded 0 written
        next => exact AppendRun.next record rest encoded _ _ written (ih _ _)

theorem append_all_length (framed : Framed crc32c records bytes)
    (complete : (appendAll crc32c io index length records).2.2 = none) :
    (appendAll crc32c io index length records).2.1 = length + bytes.length ∧
      (bytes = [] ∨ length + bytes.length ≤ maxFileLength) := by
  induction framed generalizing index length with
  | nil => exact ⟨rfl, Or.inl rfl⟩
  | cons record rest first tail written _ ih =>
    simp only [appendAll, written] at complete ⊢
    split at complete
    · cases complete
    next =>
      split at complete
      · cases complete
      next fits =>
        rw [if_neg fits]
        obtain ⟨grown, short⟩ := ih complete
        rw [List.length_append, ← Nat.add_assoc]
        refine ⟨grown, Or.inr ?_⟩
        rcases short with rfl | short
        · exact Nat.not_lt.mp fits
        · exact short

def committed (writer : DurableWriter) (journalBytes : Nat) : DurableWriter :=
  { writer with
    journalBytes := journalBytes
    nextSequence := writer.nextSequence + writer.staged.length
    durableBytes := writer.staged.foldl (fun total block =>
      saturatingAdd total (block.range.stop - block.range.start)) writer.durableBytes
    staged := []
    stagedBytes := 0
    firstStagedAt := none }

inductive FlushEnd (writer : DurableWriter) (intervals : IntervalMap) : Outcome → Prop where
  | refused (error : WriterError) : FlushEnd writer intervals ⟨.error error, writer, intervals, [], true⟩
  | idle (usable : writer.poisoned = false) (empty : writer.staged = []) :
      FlushEnd writer intervals ⟨.ok [], writer, intervals, [], false⟩
  | unowned (error : IntervalMapError)
      (rejected : completeAll intervals writer.staged = .error error) :
      FlushEnd writer intervals
        ⟨.error (.interval error), { writer with poisoned := true }, intervals, [], true⟩
  | dataSyncFailed (error : WriterError) (usable : writer.poisoned = false) :
      FlushEnd writer intervals
        ⟨.error error, { writer with poisoned := true }, intervals, [.syncDataFailed], true⟩
  | appendFailed (error : WriterError) (journalBytes : Nat) (appends : List (Event UInt8))
      (usable : writer.poisoned = false)
      (run : AppendRun crc32c (framedRecords writer.nextSequence writer.staged) appends false) :
      FlushEnd writer intervals
        ⟨.error error, { writer with poisoned := true, journalBytes := journalBytes }, intervals,
          .syncData :: appends, true⟩
  | journalSyncFailed (error : WriterError) (journalBytes : Nat) (appends : List (Event UInt8))
      (usable : writer.poisoned = false)
      (run : AppendRun crc32c (framedRecords writer.nextSequence writer.staged) appends true) :
      FlushEnd writer intervals
        ⟨.error error, { writer with poisoned := true, journalBytes := journalBytes }, intervals,
          .syncData :: appends ++ [.syncLogFailed], true⟩
  | committed (next : IntervalMap) (io : FlushIo) (usable : writer.poisoned = false)
      (sameLength : intervals.totalLength = writer.dataLength)
      (owned : completeAll intervals writer.staged = .ok next)
      (numbered : writer.nextSequence + writer.staged.length < 2 ^ 64)
      (complete : (appendAll crc32c io.append 0 writer.journalBytes
        (framedRecords writer.nextSequence writer.staged)).2.2 = none) :
      FlushEnd writer intervals
        ⟨.ok (durableBlocks writer.nextSequence writer.staged),
          committed writer (appendAll crc32c io.append 0 writer.journalBytes
            (framedRecords writer.nextSequence writer.staged)).2.1,
          next,
          .syncData :: (appendAll crc32c io.append 0 writer.journalBytes
            (framedRecords writer.nextSequence writer.staged)).1 ++ [.syncLog], false⟩

theorem flush_end (writer : DurableWriter) (intervals : IntervalMap) (io : FlushIo) :
    FlushEnd crc32c writer intervals (flush crc32c writer intervals io) := by
  unfold flush
  split
  next => exact FlushEnd.refused _
  next usable =>
    rw [Bool.not_eq_true] at usable
    split
    next => exact FlushEnd.refused _
    next sameLength =>
      split
      next empty => exact FlushEnd.idle usable empty
      next =>
        split
        next error rejected => exact FlushEnd.unowned error rejected
        next next owned =>
          split
          next => exact FlushEnd.refused _
          next numbered =>
            split
            next error _ => exact FlushEnd.dataSyncFailed error usable
            next =>
              have run := append_all_runs crc32c io.append 0 writer.journalBytes
                (framedRecords writer.nextSequence writer.staged)
              simp only
              split
              next error failed =>
                rw [failed] at run
                exact FlushEnd.appendFailed error _ _ usable run
              next complete =>
                rw [complete] at run
                split
                next error _ => exact FlushEnd.journalSyncFailed error _ _ usable run
                next =>
                  exact FlushEnd.committed next io usable (not_not.mp sameLength) owned
                    (Nat.lt_of_not_le numbered) complete

theorem append_run_keeps (run : AppendRun crc32c records events complete) :
    ∀ event ∈ events, KeepsData event := by
  induction run with
  | done => simp
  | unencodable records => simp
  | torn record rest encoded landed written => simp [KeepsData]
  | next record rest encoded events complete written later ih => simpa [KeepsData] using ih

theorem flush_keeps (ended : FlushEnd crc32c writer intervals outcome) :
    ∀ event ∈ outcome.events, KeepsData event := by
  cases ended with
  | refused error => simp
  | idle usable empty => simp
  | unowned error rejected => simp
  | dataSyncFailed error usable => simp [KeepsData]
  | appendFailed error journalBytes appends usable run =>
    simpa [KeepsData] using append_run_keeps crc32c run
  | journalSyncFailed error journalBytes appends usable run =>
    simpa [KeepsData, or_imp, forall_and] using append_run_keeps crc32c run
  | committed next io usable sameLength owned numbered complete =>
    simpa [KeepsData, or_imp, forall_and] using append_run_keeps crc32c
      (append_all_runs crc32c io.append 0 writer.journalBytes _)

/-- The facts `stage` has established when it starts to write. -/
structure StageReady (writer : DurableWriter) (intervals : IntervalMap) (worker : WorkerId)
    (offset : Nat) (bytes : List UInt8) : Prop where
  usable : writer.poisoned = false
  sameLength : intervals.totalLength = writer.dataLength
  positive : 0 < bytes.length
  short : bytes.length < 2 ^ 32
  representable : offset + bytes.length < 2 ^ 64
  owned : ∃ after, intervals.complete ⟨offset, offset + bytes.length⟩ worker = .ok after
  unstaged : ∀ block ∈ writer.staged,
    block.range.stop ≤ offset ∨ offset + bytes.length ≤ block.range.start

theorem stage_ready (checked : stageCheck writer intervals worker offset bytes = none) :
    StageReady writer intervals worker offset bytes := by
  unfold stageCheck at checked
  split at checked
  · cases checked
  next usable =>
    split at checked
    · cases checked
    next sameLength =>
      split at checked
      · cases checked
      next nonempty =>
        split at checked
        · cases checked
        next short =>
          split at checked
          · cases checked
          next representable =>
            split at checked
            · cases checked
            next after owned =>
              split at checked
              · cases checked
              next free =>
                refine ⟨Bool.not_eq_true _ ▸ usable, not_not.mp sameLength,
                  List.length_pos_iff.mpr nonempty, Nat.lt_of_not_le short,
                  Nat.lt_of_not_le representable, ⟨after, owned⟩, ?_⟩
                intro block mem
                have missed := List.find?_eq_none.mp free block mem
                simp only [overlapping, Bool.and_eq_true, decide_eq_true_eq] at missed
                omega

inductive StageEnd (writer : DurableWriter) (intervals : IntervalMap) (worker : WorkerId)
    (offset : Nat) (bytes : List UInt8) (now : Nat) : Outcome → Prop where
  | rejected (error : WriterError) :
      StageEnd writer intervals worker offset bytes now (reject writer intervals error)
  | writeFailed (ready : StageReady writer intervals worker offset bytes) (error : WriterError)
      (landed : Nat → Bool) :
      StageEnd writer intervals worker offset bytes now
        ⟨.error error, { writer with poisoned := true }, intervals,
          [.writeFailed offset bytes landed], false⟩
  | noSpace (ready : StageReady writer intervals worker offset bytes) (refused : Nat)
      (landed : Nat → Bool) (flushed : Outcome) (ended : FlushEnd crc32c writer intervals flushed) :
      StageEnd writer intervals worker offset bytes now
        ⟨.error (.noSpace refused), { flushed.writer with diskFullAt := some refused },
          flushed.intervals, .writeFailed offset bytes landed :: flushed.events,
          flushed.flushFailed⟩
  | staged (ready : StageReady writer intervals worker offset bytes) :
      StageEnd writer intervals worker offset bytes now
        ⟨.ok [], pushStaged blake3 writer worker offset bytes now, intervals,
          [.write offset bytes], false⟩
  | flushed (ready : StageReady writer intervals worker offset bytes) (flushed : Outcome)
      (ended : FlushEnd crc32c (pushStaged blake3 writer worker offset bytes now) intervals flushed) :
      StageEnd writer intervals worker offset bytes now
        { flushed with events := .write offset bytes :: flushed.events }

theorem stage_end (writer : DurableWriter) (intervals : IntervalMap) (worker : WorkerId)
    (offset : Nat) (bytes : List UInt8) (now : Nat) (io : StageIo) :
    StageEnd blake3 crc32c writer intervals worker offset bytes now
      (stage blake3 crc32c writer intervals worker offset bytes now io) := by
  unfold stage
  split
  next error _ => exact StageEnd.rejected error
  next checked =>
    have ready := stage_ready checked
    split
    next error landed _ =>
      split
      next refused _ =>
        exact StageEnd.noSpace ready refused landed _ (flush_end crc32c writer intervals io.flush)
      next => exact StageEnd.writeFailed ready error landed
    next =>
      simp only
      split
      next => exact StageEnd.flushed ready _ (flush_end crc32c _ intervals io.flush)
      next => exact StageEnd.staged ready

theorem flush_if_due_end (writer : DurableWriter) (intervals : IntervalMap) (now : Nat)
    (io : FlushIo) :
    (∃ result, flushIfDue crc32c writer intervals now io = ⟨result, writer, intervals, [], false⟩) ∨
      flushIfDue crc32c writer intervals now io = flush crc32c writer intervals io := by
  unfold flushIfDue
  split
  · exact Or.inl ⟨_, rfl⟩
  · split
    · exact Or.inr rfl
    · exact Or.inl ⟨_, rfl⟩

/-! A run of calls on one writer and one interval map. -/

inductive Call where
  | grant (range : Range) (worker : WorkerId)
  | splitInProgress (splitAt : Nat) (source recipient : WorkerId)
  | abandon (worker : WorkerId)
  | stage (worker : WorkerId) (offset : Nat) (bytes : List UInt8) (now : Nat) (io : StageIo)
  | flush (io : FlushIo)
  | flushIfDue (now : Nat) (io : FlushIo)

structure Session where
  writer : DurableWriter
  intervals : IntervalMap
  trace : List (Event UInt8)
  flushFailed : Bool

def Session.take (session : Session) (outcome : Outcome) : Session where
  writer := outcome.writer
  intervals := outcome.intervals
  trace := session.trace ++ outcome.events
  flushFailed := session.flushFailed || outcome.flushFailed

def Session.changeMap (session : Session) (changed : Except IntervalMapError IntervalMap) : Session :=
  match changed with
  | .ok intervals => { session with intervals := intervals }
  | .error _ => session

def Session.call (session : Session) : Call → Session
  | .grant range worker => session.changeMap (session.intervals.grant range worker)
  | .splitInProgress splitAt source recipient =>
    session.changeMap (session.intervals.splitInProgress splitAt source recipient)
  | .abandon worker => { session with intervals := (session.intervals.abandon worker).1 }
  | .stage worker offset bytes now io =>
    session.take (Writer.stage blake3 crc32c session.writer session.intervals worker offset bytes
      now io)
  | .flush io => session.take (Writer.flush crc32c session.writer session.intervals io)
  | .flushIfDue now io =>
    session.take (Writer.flushIfDue crc32c session.writer session.intervals now io)

def Session.calls (session : Session) (calls : List Call) : Session :=
  calls.foldl (Session.call blake3 crc32c) session

theorem change_map_trace (session : Session) (changed : Except IntervalMapError IntervalMap) :
    (session.changeMap changed).trace = session.trace := by
  cases changed <;> rfl

theorem call_trace (session : Session) (call : Call) :
    session.trace <+: (session.call blake3 crc32c call).trace := by
  cases call with
  | grant range worker => exact (change_map_trace _ _).symm ▸ List.prefix_rfl
  | splitInProgress splitAt source recipient => exact (change_map_trace _ _).symm ▸ List.prefix_rfl
  | abandon worker => exact List.prefix_rfl
  | stage worker offset bytes now io => exact List.prefix_append _ _
  | flush io => exact List.prefix_append _ _
  | flushIfDue now io => exact List.prefix_append _ _

theorem calls_trace (session : Session) (calls : List Call) :
    session.trace <+: (session.calls blake3 crc32c calls).trace := by
  induction calls generalizing session with
  | nil => exact List.prefix_rfl
  | cons call rest ih => exact (call_trace blake3 crc32c session call).trans (ih _)

end Calls

/-- The batch `staged` was owned byte by byte and is complete in `next`. -/
structure CompletesAll (map : IntervalMap) (staged : List StagedBlock) (next : IntervalMap) :
    Prop where
  totalLength : next.totalLength = map.totalLength
  ordered : ∀ block ∈ staged, block.range.start < block.range.stop
  bounded : ∀ block ∈ staged, block.range.stop ≤ map.totalLength
  owned : ∀ block ∈ staged, ∀ pos, block.range.start ≤ pos →
    pos < block.range.stop → map.stateAt pos = some (.inProgress block.worker)
  apart : staged.Pairwise fun left right =>
    left.range.stop ≤ right.range.start ∨ right.range.stop ≤ left.range.start
  completed : ∀ block ∈ staged, ∀ pos, block.range.start ≤ pos →
    pos < block.range.stop → next.stateAt pos = some .complete
  others : ∀ pos, (∀ block ∈ staged,
    ¬ (block.range.start ≤ pos ∧ pos < block.range.stop)) →
      next.stateAt pos = map.stateAt pos

theorem complete_all_completes (map next : IntervalMap) (staged : List StagedBlock)
    (done : completeAll map staged = .ok next) : CompletesAll map staged next := by
  induction staged generalizing map with
  | nil =>
    cases done
    exact ⟨rfl, by simp, by simp, by simp, List.Pairwise.nil, by simp, fun _ _ => rfl⟩
  | cons first rest ih =>
    unfold completeAll at done
    split at done
    · cases done
    next middle completed =>
      have moves := map.complete_moves middle first.range first.worker completed
      have tail := ih middle done
      -- A later block is in progress in `middle`, so it shares no byte with the first one.
      have clear : ∀ block ∈ rest, ∀ pos, block.range.start ≤ pos →
          pos < block.range.stop →
          ¬ (first.range.start ≤ pos ∧ pos < first.range.stop) := by
        intro block mem pos lower upper inside
        have held := tail.owned block mem pos lower upper
        rw [moves.reads, if_pos inside] at held
        cases held
      refine ⟨tail.totalLength.trans moves.totalLength, ?_, ?_, ?_, ?_, ?_, ?_⟩
      · intro block mem
        rcases List.mem_cons.mp mem with same | later
        · exact same ▸ moves.ordered
        · exact tail.ordered block later
      · intro block mem
        rcases List.mem_cons.mp mem with same | later
        · exact same ▸ moves.bounded
        · exact moves.totalLength ▸ tail.bounded block later
      · intro block mem pos lower upper
        rcases List.mem_cons.mp mem with same | later
        · subst block
          exact moves.held pos lower upper
        · have held := tail.owned block later pos lower upper
          rwa [moves.reads, if_neg (clear block later pos lower upper)] at held
      · refine List.Pairwise.cons ?_ tail.apart
        intro block later
        have ordered := tail.ordered block later
        have firstOrdered := moves.ordered
        by_contra overlap
        have lower := clear block later (max first.range.start block.range.start) (by omega)
          (by omega)
        omega
      · intro block mem pos lower upper
        rcases List.mem_cons.mp mem with same | later
        · subst block
          by_cases covered : ∃ other ∈ rest,
              other.range.start ≤ pos ∧ pos < other.range.stop
          · obtain ⟨other, otherMember, inside⟩ := covered
            exact tail.completed other otherMember pos inside.1 inside.2
          · rw [tail.others pos fun other otherMember inside =>
              covered ⟨other, otherMember, inside⟩, moves.reads, if_pos ⟨lower, upper⟩]
        · exact tail.completed block later pos lower upper
      · intro pos outside
        rw [tail.others pos fun block mem => outside block (List.mem_cons_of_mem _ mem),
          moves.reads, if_neg (outside first List.mem_cons_self)]

theorem complete_all_keeps (completes : CompletesAll map staged next) (pos : Nat)
    (held : map.stateAt pos = some .complete) : next.stateAt pos = some .complete := by
  by_cases covered : ∃ block ∈ staged,
      block.range.start ≤ pos ∧ pos < block.range.stop
  · obtain ⟨block, mem, inside⟩ := covered
    exact completes.completed block mem pos inside.1 inside.2
  · rw [completes.others pos fun block mem inside => covered ⟨block, mem, inside⟩]
    exact held

end Downpour.Writer
