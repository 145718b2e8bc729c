import Downpour.PoolWorker
import Downpour.StorageSink
import Downpour.WriterJournal

/-!
A part file that runs out of space, under both sinks: the storage sink of a single
stream and the grant target of the pool. Both end in the same `stage` of the durable
writer, whose refusal then passes through the error mapping of the sink. The disk error
of the system is the outcome of the positional write.
-/

namespace Downpour.DiskFull
open CrashDisk Intervals JournalFormat JournalReplay Remote Writer Http Actor

def outOfSpace : WriterError → Bool
  | .partFile (.io _ _ source) | .io _ source => decide (source.rawOsError = some enospc)
  | _ => false

/-! The writer. -/

structure Place where
  writer : DurableWriter
  intervals : IntervalMap
  disk : Disk UInt8

section Writing
variable (blake3 : List UInt8 → Digest) (crc32c : List UInt8 → UInt32)

/-- What a refused chunk leaves: the batch before it is recorded if the flush succeeds,
the chunk itself is neither complete nor recorded nor staged, and the file keeps its
length and its other bytes. -/
structure Kept (place : Place) (worker : WorkerId) (offset : Nat) (bytes : List UInt8)
    (io : FlushIo) (after : Place) : Prop where
  complete : (flush crc32c place.writer place.intervals io).result.isOk = true →
    ∀ block ∈ place.writer.staged, ∀ pos, block.range.start ≤ pos →
      pos < block.range.stop → after.intervals.stateAt pos = some .complete
  journalled : (flush crc32c place.writer place.intervals io).result.isOk = true →
    place.writer.staged = [] ∨ ∃ records,
      Framed crc32c (framedRecords place.writer.nextSequence place.writer.staged) records ∧
        after.disk.durableLog = place.disk.log ++ records
  incomplete : ∀ pos, offset ≤ pos → pos < offset + bytes.length →
    after.intervals.stateAt pos = some (.inProgress worker)
  unrecorded : ∃ records whole more,
    records <+: framedRecords place.writer.nextSequence place.writer.staged ∧
      Framed crc32c records whole ∧ more <+: whole ∧ after.disk.log = place.disk.log ++ more
  unstaged : after.writer.staged = [] ∨ after.writer.staged = place.writer.staged
  apart : ∀ block ∈ place.writer.staged,
    block.range.stop ≤ offset ∨ offset + bytes.length ≤ block.range.start
  length : after.writer.dataLength = place.writer.dataLength
  others : ∀ pos, pos < offset ∨ offset + bytes.length ≤ pos →
    after.disk.visible pos = place.disk.visible pos

variable {writer : DurableWriter} {intervals : IntervalMap} {outcome : Outcome}

theorem stage_out_of_space (now : Nat)
    (checked : stageCheck writer intervals worker offset bytes = none)
    (failed : io.write = some (error, landed)) (full : outOfSpace error = true) :
    stage blake3 crc32c writer intervals worker offset bytes now io =
      let flushed := flush crc32c writer intervals io.flush
      ⟨.error (.noSpace offset), { flushed.writer with diskFullAt := some offset },
        flushed.intervals, .writeFailed offset bytes landed :: flushed.events,
        flushed.flushFailed⟩ := by
  have found : noSpaceOffset error offset = some offset := by
    unfold outOfSpace at full
    unfold noSpaceOffset
    split at full
    · exact if_pos (of_decide_eq_true full)
    · exact if_pos (of_decide_eq_true full)
    · cases full
  simp only [stage, checked, failed, found]

theorem append_run_grows (run : AppendRun crc32c records events complete) (disk : Disk UInt8) :
    ∃ written whole more, written <+: records ∧ Framed crc32c written whole ∧ more <+: whole ∧
      (disk.run events).log = disk.log ++ more := by
  induction run generalizing disk with
  | done => exact ⟨[], [], [], List.prefix_rfl, .nil, List.prefix_rfl, by simp [Disk.run]⟩
  | unencodable records =>
    exact ⟨[], [], [], List.nil_prefix, .nil, List.prefix_rfl, by simp [Disk.run]⟩
  | torn record rest encoded landed written =>
    refine ⟨[record], encoded ++ [], encoded.take landed, ⟨rest, rfl⟩,
      .cons record [] encoded [] written .nil, ?_, ?_⟩
    · rw [List.append_nil]
      exact List.take_prefix _ _
    · simp [Disk.run, Disk.apply, Disk.log]
  | next record rest encoded events complete written later ih =>
    obtain ⟨first, whole, more, front, framed, cut, log⟩ := ih (disk.apply (.append encoded))
    refine ⟨record :: first, encoded ++ whole, encoded ++ more,
      List.cons_prefix_cons.mpr ⟨rfl, front⟩, .cons record first encoded whole written framed,
      (List.prefix_append_right_inj encoded).mpr cut, ?_⟩
    rw [show disk.run (.append encoded :: events) = (disk.apply (.append encoded)).run events
      from rfl, log]
    simp [Disk.apply, Disk.log]

theorem run_flush (disk : Disk UInt8) (appends : List (Event UInt8)) (last : Event UInt8) :
    disk.run (.syncData :: appends ++ [last]) =
      ((disk.apply .syncData).run appends).apply last := by
  simp [Disk.run]

theorem sync_log_log (disk : Disk UInt8) : (disk.apply .syncLog).log = disk.log :=
  List.append_nil _

theorem flush_grows (ended : FlushEnd crc32c writer intervals outcome) (disk : Disk UInt8) :
    ∃ written whole more, written <+: framedRecords writer.nextSequence writer.staged ∧
      Framed crc32c written whole ∧ more <+: whole ∧
      (disk.run outcome.events).log = disk.log ++ more := by
  have silent : ∀ events, (disk.run events).log = disk.log →
      ∃ written whole more, written <+: framedRecords writer.nextSequence writer.staged ∧
        Framed crc32c written whole ∧ more <+: whole ∧ (disk.run events).log = disk.log ++ more :=
    fun events same => ⟨[], [], [], List.nil_prefix, .nil, List.prefix_rfl, by rw [same]; simp⟩
  cases ended with
  | refused error => exact silent [] rfl
  | idle usable empty => exact silent [] rfl
  | unowned error rejected => exact silent [] rfl
  | dataSyncFailed error usable => exact silent [.syncDataFailed] rfl
  | appendFailed error journalBytes appends usable run =>
    exact append_run_grows crc32c run (disk.apply .syncData)
  | journalSyncFailed error journalBytes appends usable run =>
    obtain ⟨written, whole, more, front, framed, cut, log⟩ :=
      append_run_grows crc32c run (disk.apply .syncData)
    refine ⟨written, whole, more, front, framed, cut, ?_⟩
    rw [run_flush]
    exact log
  | committed next io usable sameLength owned numbered complete =>
    obtain ⟨written, whole, more, front, framed, cut, log⟩ := append_run_grows crc32c
      (append_all_runs crc32c io.append 0 writer.journalBytes
        (framedRecords writer.nextSequence writer.staged)) (disk.apply .syncData)
    refine ⟨written, whole, more, front, framed, cut, ?_⟩
    rw [run_flush, sync_log_log]
    exact log

theorem flush_journalled (ended : FlushEnd crc32c writer intervals outcome) (disk : Disk UInt8)
    (succeeded : outcome.result.isOk = true) :
    writer.staged = [] ∨ ∃ records,
      Framed crc32c (framedRecords writer.nextSequence writer.staged) records ∧
        (disk.run outcome.events).durableLog = disk.log ++ records := by
  cases ended with
  | refused error => cases succeeded
  | idle usable empty => exact Or.inl empty
  | unowned error rejected => cases succeeded
  | dataSyncFailed error usable => cases succeeded
  | appendFailed error journalBytes appends usable run => cases succeeded
  | journalSyncFailed error journalBytes appends usable run => cases succeeded
  | committed next io usable sameLength owned numbered complete =>
    have runs := append_all_runs crc32c io.append 0 writer.journalBytes
      (framedRecords writer.nextSequence writer.staged)
    rw [complete] at runs
    obtain ⟨unsynced, appended⟩ := WriterJournal.append_run_log runs (disk.apply .syncData)
    obtain ⟨more, framed, log⟩ := appended rfl
    refine Or.inr ⟨more, framed, ?_⟩
    have kept : ∀ (events : List (Event UInt8)) (before : Disk UInt8),
        (∀ event ∈ events, event ≠ .syncLog) →
        (before.run events).durableLog = before.durableLog := by
      intro events
      induction events with
      | nil => exact fun _ _ => rfl
      | cons event rest ih =>
        intro before plain
        rw [show before.run (event :: rest) = (before.apply event).run rest from rfl,
          ih _ fun other mem => plain other (List.mem_cons_of_mem _ mem)]
        exact WriterJournal.durable_log_kept before (plain event List.mem_cons_self)
    have durable := kept _ (disk.apply .syncData) unsynced
    rw [run_flush, show ∀ moment : Disk UInt8, (moment.apply .syncLog).durableLog =
      moment.durableLog ++ moment.pendingLog from fun _ => rfl, durable, log, ← List.append_assoc]
    rfl

theorem flush_batch (ended : FlushEnd crc32c writer intervals outcome) :
    outcome.writer.dataLength = writer.dataLength ∧
      (outcome.writer.staged = [] ∨ outcome.writer.staged = writer.staged) ∧
      (outcome.intervals = intervals ∧ (outcome.result.isOk = true → writer.staged = []) ∨
        CompletesAll intervals writer.staged outcome.intervals) := by
  cases ended with
  | refused error => exact ⟨rfl, Or.inr rfl, Or.inl ⟨rfl, nofun⟩⟩
  | idle usable empty => exact ⟨rfl, Or.inr rfl, Or.inl ⟨rfl, fun _ => empty⟩⟩
  | unowned error rejected => exact ⟨rfl, Or.inr rfl, Or.inl ⟨rfl, nofun⟩⟩
  | dataSyncFailed error usable => exact ⟨rfl, Or.inr rfl, Or.inl ⟨rfl, nofun⟩⟩
  | appendFailed error journalBytes appends usable run =>
    exact ⟨rfl, Or.inr rfl, Or.inl ⟨rfl, nofun⟩⟩
  | journalSyncFailed error journalBytes appends usable run =>
    exact ⟨rfl, Or.inr rfl, Or.inl ⟨rfl, nofun⟩⟩
  | committed next io usable sameLength owned numbered complete =>
    exact ⟨rfl, Or.inl rfl, Or.inr (complete_all_completes _ _ _ owned)⟩

theorem out_of_space_kept (io : FlushIo) (landed : Nat → Bool) (full : Option Nat)
    (ready : StageReady place.writer place.intervals worker offset bytes) :
    let flushed := flush crc32c place.writer place.intervals io
    Kept crc32c place worker offset bytes io
      ⟨{ flushed.writer with diskFullAt := full }, flushed.intervals,
        place.disk.run (.writeFailed offset bytes landed :: flushed.events)⟩ := by
  intro flushed
  have ended : FlushEnd crc32c place.writer place.intervals flushed :=
    flush_end crc32c place.writer place.intervals io
  obtain ⟨length, unstaged, batch⟩ := flush_batch crc32c ended
  have start : (place.disk.apply (.writeFailed offset bytes landed)).log = place.disk.log := rfl
  refine ⟨?_, ?_, ?_, ?_, unstaged, ready.unstaged, length, ?_⟩
  · intro succeeded block mem pos lower upper
    rcases batch with ⟨_, empty⟩ | completes
    · rw [empty succeeded] at mem
      cases mem
    · exact completes.completed block mem pos lower upper
  · intro succeeded
    have held := flush_journalled crc32c ended
      (place.disk.apply (.writeFailed offset bytes landed)) succeeded
    rwa [start] at held
  · intro pos lower upper
    obtain ⟨free, owned⟩ := ready.owned
    have before := (place.intervals.complete_moves free _ worker owned).held pos lower upper
    -- No block of the batch shares a byte with the chunk.
    rcases batch with ⟨same, _⟩ | completes
    · rw [same]
      exact before
    · rw [completes.others pos]
      · exact before
      · intro block mem inside
        have apart := ready.unstaged block mem
        omega
  · have grows := flush_grows crc32c ended
      (place.disk.apply (.writeFailed offset bytes landed))
    rwa [start] at grows
  · intro pos outside
    apply untouched_run
    intro event mem
    rcases List.mem_cons.mp mem with rfl | later
    · simp only [Touches]
      omega
    · exact keeps_untouched (flush_keeps crc32c ended event later) pos

end Writing

/-! The two sinks. -/

/-- The write of one chunk through a sink: the storage sink of a single stream, or the
grant target of a pool worker whose command the actor serves in the given state. -/
inductive Attempt where
  | storage (place : Place) (artifacts : Sink.Artifacts) (digest : Option ContentDigest)
      (io : Sink.WriteIo)
  | pooled (target : GrantWriter) (actor : StateActor) (disk : Disk UInt8) (now : Nat)
      (io : StageIo)

namespace Attempt

def isPooled : Attempt → Bool
  | .storage .. => false
  | .pooled .. => true

def place : Attempt → Place
  | .storage place _ _ _ => place
  | .pooled _ actor disk _ _ => ⟨actor.writer, actor.allocator.intervals, disk⟩

def worker : Attempt → WorkerId
  | .storage .. => Sink.singleStreamWorker
  | .pooled target _ _ _ _ => target.grant.worker

def io : Attempt → StageIo
  | .storage _ _ _ io => io.stage
  | .pooled _ _ _ _ io => io

def storageSink (place : Place) (artifacts : Sink.Artifacts) (digest : Option ContentDigest) :
    Sink.StorageSink :=
  ⟨.journalled place.writer place.intervals place.disk, artifacts, digest⟩

def command (target : GrantWriter) (now offset : Nat) (bytes : List UInt8) : Option Command :=
  if offset ≠ target.nextOffset then none else (target.write bytes now).toOption

section Write
variable (outside : Sink.Outside) (serviceText : WriterServiceError → String)

def result (offset : Nat) (bytes : List UInt8) : Attempt → Except SinkError Unit
  | .storage place artifacts digest io =>
    (Sink.writeAt outside io (storageSink place artifacts digest) offset bytes).1
  | .pooled target actor _ now io =>
    (Pool.writeAt serviceText now (fun command =>
      (actor.handle outside.hashes.blake3 outside.crc32c command io).reply) target offset bytes).1

def after (offset : Nat) (bytes : List UInt8) : Attempt → Place
  | .storage place artifacts digest io =>
    match (Sink.writeAt outside io (storageSink place artifacts digest) offset bytes).2.backing with
    | .journalled writer intervals disk => ⟨writer, intervals, disk⟩
    | .lengthless _ => place
  | .pooled target actor disk now io =>
    match command target now offset bytes with
    | none => ⟨actor.writer, actor.allocator.intervals, disk⟩
    | some command =>
      let served := actor.handle outside.hashes.blake3 outside.crc32c command io
      ⟨served.actor.writer, served.actor.allocator.intervals, disk.run served.events⟩

end Write

def reaches (offset : Nat) (bytes : List UInt8) (attempt : Attempt) : Prop :=
  stageCheck attempt.place.writer attempt.place.intervals attempt.worker offset bytes = none ∧
    match attempt with
    | .storage .. => True
    | .pooled target _ _ now _ => command target now offset bytes ≠ none

end Attempt

structure Full (attempt : Attempt) (offset : Nat) (bytes : List UInt8) : Prop where
  reached : attempt.reaches offset bytes
  refused : ∃ error landed, attempt.io.write = some (error, landed) ∧ outOfSpace error = true

section Sinks
variable (outside : Sink.Outside) (serviceText : WriterServiceError → String)

variable {offset : Nat} {bytes : List UInt8}

theorem storage_full (full : Full (.storage place artifacts digest io) offset bytes) :
    (Attempt.storage place artifacts digest io).result outside serviceText offset bytes =
        .error (.io offset (Sink.otherError (outside.writerText (.noSpace offset)))) ∧
      Kept outside.crc32c place Sink.singleStreamWorker offset bytes io.stage.flush
        ((Attempt.storage place artifacts digest io).after outside offset bytes) := by
  obtain ⟨⟨checked, _⟩, error, landed, failed, space⟩ := full
  have staged := stage_out_of_space outside.hashes.blake3 outside.crc32c io.now checked failed space
  have kept := out_of_space_kept outside.crc32c
    io.stage.flush landed (some offset) (stage_ready checked)
  simp only [Attempt.place, Attempt.worker, Attempt.io] at staged
  simp only [Attempt.result, Attempt.after, Attempt.storageSink, Sink.writeAt, staged]
  exact ⟨rfl, kept⟩

theorem command_writes (sent : Attempt.command target now offset bytes ≠ none) :
    offset = target.nextOffset ∧ target.write bytes now =
        .ok (.write target.grant.worker offset bytes now) ∧
      Attempt.command target now offset bytes =
        some (.write target.grant.worker offset bytes now) := by
  unfold Attempt.command at sent ⊢
  by_cases moved : offset ≠ target.nextOffset
  · rw [if_pos moved] at sent
    exact absurd rfl sent
  · obtain rfl := not_not.mp moved
    rw [if_neg moved] at sent ⊢
    cases written : target.write bytes now with
    | error error =>
      rw [written] at sent
      exact absurd rfl sent
    | ok command =>
      unfold GrantWriter.write at written
      split_ifs at written
      cases written
      exact ⟨rfl, rfl, rfl⟩

theorem write_served (actor : StateActor) (worker : WorkerId) (bytes : List UInt8)
    (now : Nat) (io : StageIo) (error : WriterError)
    (ready : StageReady actor.writer actor.allocator.intervals worker offset bytes)
    (failed : (stage outside.hashes.blake3 outside.crc32c actor.writer actor.allocator.intervals worker
      offset bytes now io).result = .error error) :
    let served := actor.handle outside.hashes.blake3 outside.crc32c
      (.write worker offset bytes now) io
    let outcome := stage outside.hashes.blake3 outside.crc32c actor.writer actor.allocator.intervals
      worker offset bytes now io
    served.reply = .error (.writer error) ∧ served.actor = actor.after outcome ∧
      served.events = outcome.events := by
  obtain ⟨free, owned⟩ := ready.owned
  simp only [StateActor.handle, StateActor.write, if_neg (Nat.not_le.mpr ready.representable), owned,
    failed, and_self]

theorem pooled_full (full : Full (.pooled target actor disk now io) offset bytes) :
    (Attempt.pooled target actor disk now io).result outside serviceText offset bytes =
        .error (.noSpace offset) ∧
      Kept outside.crc32c (Attempt.pooled target actor disk now io).place target.grant.worker offset
        bytes io.flush ((Attempt.pooled target actor disk now io).after outside offset bytes) := by
  obtain ⟨⟨checked, sent⟩, error, landed, failed, space⟩ := full
  obtain ⟨rfl, written, command⟩ := command_writes sent
  have ready := stage_ready checked
  have staged := stage_out_of_space outside.hashes.blake3 outside.crc32c now checked failed space
  have kept := out_of_space_kept outside.crc32c io.flush landed (some target.nextOffset) ready
  obtain ⟨replied, moved, events⟩ := write_served outside actor target.grant.worker
    bytes now io (.noSpace target.nextOffset) ready (congrArg Outcome.result staged)
  constructor
  · simp only [Attempt.result, Pool.writeAt, ne_eq, not_true_eq_false, ↓reduceIte, written, replied,
      Pool.writerServiceError]
  · simp only [Attempt.after, command, moved, events]
    simp only [Attempt.place, Attempt.worker, Attempt.io] at staged
    rw [staged]
    exact kept

/-- A full disk is recognisable exactly in the pool. What was staged before and the part
file are safe under both sinks. -/
theorem full_disk_recognised_iff (attempt : Attempt) (offset : Nat) (bytes : List UInt8)
    (full : Full attempt offset bytes) :
    ((∃ refused, attempt.result outside serviceText offset bytes = .error (.noSpace refused)) ∧
        Kept outside.crc32c attempt.place attempt.worker offset bytes attempt.io.flush
          (attempt.after outside offset bytes) ↔ attempt.isPooled = true) ∧
      Kept outside.crc32c attempt.place attempt.worker offset bytes attempt.io.flush
        (attempt.after outside offset bytes) := by
  cases attempt with
  | storage place artifacts digest io =>
    obtain ⟨reported, kept⟩ := storage_full outside serviceText full
    refine ⟨⟨?_, nofun⟩, kept⟩
    rintro ⟨⟨refused, recognised⟩, _⟩
    rw [reported] at recognised
    cases recognised
  | pooled target actor disk now io =>
    obtain ⟨reported, kept⟩ := pooled_full outside serviceText
      full
    exact ⟨⟨fun _ => rfl, fun _ => ⟨⟨offset, reported⟩, kept⟩⟩, kept⟩

end Sinks

/-! Four bytes, of which two are staged when the disk is full. -/

def plainOutside : Sink.Outside where
  hashes := ⟨fun _ => .replicate 32 0, fun _ => [], fun _ => [], fun _ => none⟩
  crc32c _ := 0
  writerText _ := "the volume holding the part file is full"
  partText _ := ""
  fileName := Sink.lastComponent
  completionText _ := ""

def quietIo : StageIo := ⟨none, ⟨none, fun _ => none, none⟩⟩

def fullIo : StageIo :=
  ⟨some (.partFile (.io "write part-file bytes positionally" "f.dppart"
      ⟨.other, some 28, "No space left on device"⟩), fun _ => false),
    ⟨none, fun _ => none, none⟩⟩

def emptySink : Except SinkError Sink.StorageSink :=
  Sink.create plainOutside (fun _ => "") "f" "f.dpj" (some 4) (.replicate 16 0)
    (.replicate 32 0) none ⟨none, none, none, none, none⟩

def halfSink : Option Sink.StorageSink :=
  emptySink.toOption.map fun sink =>
    (Sink.writeAt plainOutside ⟨0, quietIo, none, none⟩ sink 0 [1, 2]).2

def halfPlace : Place :=
  match halfSink.map Sink.StorageSink.backing with
  | some (.journalled writer intervals disk) => ⟨writer, intervals, disk⟩
  | _ => ⟨⟨0, 0, 0, [], 0, none, false, none, 0⟩, IntervalMap.new 0, ⟨fun _ => 0, fun _ => ∅, [], []⟩⟩

def halfActor : StateActor := ⟨halfPlace.writer, halfPlace.intervals, 1, Nat.one_pos⟩

def halfPooled : Attempt := .pooled ⟨⟨1, ⟨0, 4⟩⟩, 2⟩ halfActor halfPlace.disk 0 fullIo

theorem half_pooled_full : Full halfPooled 2 [3, 4] := by
  have sent : Attempt.command ⟨⟨1, ⟨0, 4⟩⟩, 2⟩ 0 2 [3, 4] ≠ none := by decide
  exact ⟨⟨by decide +kernel, sent⟩, _, _, rfl, by decide⟩

/-- In the pool the error is recognised, and the two bytes before it are complete. -/
theorem half_recognised :
    (∃ refused, halfPooled.result plainOutside (fun _ => "") 2 [3, 4] =
        .error (.noSpace refused)) ∧
      ∀ pos < 2, (halfPooled.after plainOutside 2 [3, 4]).intervals.stateAt pos =
        some .complete := by
  have settled := full_disk_recognised_iff plainOutside (fun _ => "") halfPooled 2 [3, 4]
    half_pooled_full
  refine ⟨(settled.1.mpr rfl).1, ?_⟩
  intro pos inside
  have staged : halfPooled.place.writer.staged =
      [⟨⟨0, 2⟩, 2, 1, ⟨List.replicate 32 0, rfl⟩⟩] := by decide +kernel
  exact settled.2.complete (by decide +kernel) _ (by rw [staged]; exact List.mem_singleton_self _)
    pos (Nat.zero_le _) inside

/-- A single stream reports the full disk as an error like any other. -/
theorem half_unrecognised :
    halfSink = some (Attempt.storageSink halfPlace ⟨"f.dppart", some "f.dpj"⟩ none) ∧
      Full (.storage halfPlace ⟨"f.dppart", some "f.dpj"⟩ none ⟨0, fullIo, none, none⟩) 2 [3, 4] ∧
      (Attempt.storage halfPlace ⟨"f.dppart", some "f.dpj"⟩ none ⟨0, fullIo, none, none⟩).result
        plainOutside (fun _ => "") 2 [3, 4] =
          .error (.io 2 ⟨.other, none, "the volume holding the part file is full"⟩) :=
  ⟨rfl, ⟨⟨by decide +kernel, trivial⟩, _, _, rfl, by decide⟩, by decide +kernel⟩

end Downpour.DiskFull
