import Downpour.Writer

/-!
The batch of the durable writer over every run of its calls. Each call is given an
interval map of its own, so that anything may happen to the map between two calls.
-/

namespace Downpour.WriterBatch
open Intervals JournalFormat CrashDisk Writer

inductive WriterCall where
  | stage (worker : WorkerId) (offset : Nat) (bytes : List UInt8) (now : Nat) (io : StageIo)
  | flush (io : FlushIo)
  | flushIfDue (now : Nat) (io : FlushIo)

section Calls
variable (blake3 : List UInt8 → Digest) (crc32c : List UInt8 → UInt32)

def WriterCall.perform (writer : DurableWriter) (intervals : IntervalMap) : WriterCall → Outcome
  | .stage worker offset bytes now io =>
    Writer.stage blake3 crc32c writer intervals worker offset bytes now io
  | .flush io => Writer.flush crc32c writer intervals io
  | .flushIfDue now io => Writer.flushIfDue crc32c writer intervals now io

def afterCalls (writer : DurableWriter) (calls : List (IntervalMap × WriterCall)) : DurableWriter :=
  calls.foldl (fun writer call => (call.2.perform blake3 crc32c writer call.1).writer) writer

structure Batch (writer : DurableWriter) : Prop where
  bytes : writer.stagedBytes =
    (writer.staged.map fun block => block.range.stop - block.range.start).sum
  apart : writer.staged.Pairwise fun left right =>
    left.range.stop ≤ right.range.start ∨ right.range.stop ≤ left.range.start
  started : writer.firstStagedAt.isSome = true ↔ writer.staged ≠ []

theorem flush_batch (ended : FlushEnd crc32c writer intervals outcome) (batch : Batch writer) :
    Batch outcome.writer := by
  cases ended with
  | refused error => exact batch
  | idle usable empty => exact batch
  | committed next io usable sameLength owned numbered complete =>
    exact ⟨rfl, List.Pairwise.nil, by simp [Writer.committed]⟩
  | _ => exact ⟨batch.bytes, batch.apart, batch.started⟩

theorem push_batch (now : Nat) (ready : StageReady writer intervals worker offset bytes)
    (batch : Batch writer) : Batch (pushStaged blake3 writer worker offset bytes now) := by
  refine ⟨?_, ?_, ?_⟩
  · simp [pushStaged, batch.bytes]
  · refine List.pairwise_append.mpr ⟨batch.apart, List.pairwise_singleton _ _, ?_⟩
    intro block mem pushed new
    rw [List.mem_singleton.mp new]
    exact ready.unstaged block mem
  · simp [pushStaged]

theorem stage_batch (ended : StageEnd blake3 crc32c writer intervals worker offset bytes now outcome)
    (batch : Batch writer) : Batch outcome.writer := by
  cases ended with
  | rejected error => exact batch
  | writeFailed ready error landed => exact ⟨batch.bytes, batch.apart, batch.started⟩
  | noSpace ready refused landed flushed ended =>
    have kept := flush_batch crc32c ended batch
    exact ⟨kept.bytes, kept.apart, kept.started⟩
  | staged ready => exact push_batch blake3 now ready batch
  | flushed ready flushed ended =>
    have kept := flush_batch crc32c ended (push_batch blake3 now ready batch)
    exact kept

theorem perform_batch (call : WriterCall) (intervals : IntervalMap) (batch : Batch writer) :
    Batch (call.perform blake3 crc32c writer intervals).writer := by
  cases call with
  | stage worker offset bytes now io => exact stage_batch blake3 crc32c (stage_end ..) batch
  | flush io => exact flush_batch crc32c (flush_end ..) batch
  | flushIfDue now io =>
    rw [WriterCall.perform]
    rcases flush_if_due_end crc32c writer intervals now io with ⟨result, same⟩ | same <;> rw [same]
    · exact batch
    · exact flush_batch crc32c (flush_end ..) batch

theorem calls_batch (calls : List (IntervalMap × WriterCall)) (batch : Batch writer) :
    Batch (afterCalls blake3 crc32c writer calls) := by
  induction calls generalizing writer with
  | nil => exact batch
  | cons call rest ih => exact ih (perform_batch blake3 crc32c call.2 call.1 batch)

theorem flush_succeeded (ended : FlushEnd crc32c writer intervals outcome) (batch : Batch writer)
    (succeeded : outcome.result.isOk = true) : outcome.writer.stagedBytes = 0 := by
  cases ended with
  | idle usable empty =>
    have none := batch.bytes
    rwa [empty] at none
  | committed next io usable sameLength owned numbered complete => rfl
  | _ => cases succeeded

theorem stage_bounded (batch : Batch writer)
    (succeeded : (stage blake3 crc32c writer intervals worker offset bytes now io).result.isOk = true) :
    (stage blake3 crc32c writer intervals worker offset bytes now io).writer.stagedBytes <
      journalFlushBytes := by
  unfold stage at succeeded ⊢
  cases checked : stageCheck writer intervals worker offset bytes with
  | some error =>
    rw [checked] at succeeded
    cases succeeded
  | none =>
    have pushed := push_batch blake3 now (stage_ready checked) batch
    simp only [checked] at succeeded ⊢
    split at succeeded
    next => split at succeeded <;> cases succeeded
    next =>
      split_ifs at succeeded ⊢ with full
      · rw [flush_succeeded crc32c (flush_end crc32c _ intervals io.flush) pushed succeeded]
        decide
      · exact Nat.not_le.mp full

/-- The map after an error: as it was, or with the batch complete when space ran out. -/
def MapKept (staged : List StagedBlock) (intervals : IntervalMap) (outcome : Outcome)
    (error : WriterError) : Prop :=
  outcome.intervals = intervals ∨
    (∃ offset, error = .noSpace offset) ∧ completeAll intervals staged = .ok outcome.intervals

theorem flush_map (ended : FlushEnd crc32c writer intervals outcome) :
    outcome.intervals = intervals ∨ outcome.result.isOk = true ∧
      completeAll intervals writer.staged = .ok outcome.intervals := by
  cases ended with
  | committed next io usable sameLength owned numbered complete => exact Or.inr ⟨rfl, owned⟩
  | _ => exact Or.inl rfl

theorem flush_failed_map (ended : FlushEnd crc32c writer intervals outcome)
    (failed : outcome.result = .error error) : outcome.intervals = intervals := by
  refine (flush_map crc32c ended).resolve_right fun done => ?_
  rw [failed] at done
  cases done.1

theorem perform_map {call : WriterCall} {writer : DurableWriter} {intervals : IntervalMap}
    (failed : (call.perform blake3 crc32c writer intervals).result = .error error) :
    MapKept writer.staged intervals (call.perform blake3 crc32c writer intervals) error := by
  cases call with
  | flush io => exact Or.inl (flush_failed_map crc32c (flush_end ..) failed)
  | flushIfDue now io =>
    rw [WriterCall.perform] at failed ⊢
    rcases flush_if_due_end crc32c writer intervals now io with ⟨result, same⟩ | same <;>
      rw [same] at failed ⊢
    · exact Or.inl rfl
    · exact Or.inl (flush_failed_map crc32c (flush_end ..) failed)
  | stage worker offset bytes now io =>
    rw [WriterCall.perform] at failed ⊢
    have ended := stage_end blake3 crc32c writer intervals worker offset bytes now io
    generalize stage blake3 crc32c writer intervals worker offset bytes now io = outcome at failed ended ⊢
    cases ended with
    | noSpace ready refused landed flushed ended =>
      cases failed
      exact (flush_map crc32c ended).imp id fun done => ⟨⟨refused, rfl⟩, done.2⟩
    | flushed ready flushed ended =>
      have kept := flush_failed_map crc32c ended failed
      exact Or.inl kept
    | _ => exact Or.inl rfl

/-! What a failed operation leaves behind. -/

/-- The event is an operation that failed, other than a write that found no space. -/
def Fails (outOfSpace : Prop) : Event UInt8 → Prop
  | .writeFailed _ _ _ => ¬ outOfSpace
  | .syncDataFailed | .appendFailed _ _ | .syncLogFailed => True
  | _ => False

/-- An operation of the call failed, or an append stopped the flush before its last sync. -/
def Broken (outcome : Outcome) : Prop :=
  (∃ event ∈ outcome.events, Fails (∃ offset, outcome.result = .error (.noSpace offset)) event) ∨
    .syncData ∈ outcome.events ∧ .syncLog ∉ outcome.events

theorem appended_fine (run : AppendRun crc32c records events complete) (every : complete = true) :
    ∀ event ∈ events, ¬ Fails outOfSpace event := by
  induction run with
  | done => exact nofun
  | next record rest encoded events complete written later ih =>
    exact List.forall_mem_cons.mpr ⟨id, ih every⟩
  | _ => cases every

theorem flush_poisons (ended : FlushEnd crc32c writer intervals outcome) (outOfSpace : Prop)
    (broken : (∃ event ∈ outcome.events, Fails outOfSpace event) ∨
      .syncData ∈ outcome.events ∧ .syncLog ∉ outcome.events) :
    outcome.writer.poisoned = true := by
  cases ended with
  | refused error => simp at broken
  | idle usable empty => simp at broken
  | committed next io usable sameLength owned numbered complete =>
    have run := append_all_runs crc32c io.append 0 writer.journalBytes
      (framedRecords writer.nextSequence writer.staged)
    rcases broken with ⟨event, mem, fails⟩ | ⟨_, unsynced⟩
    · simp only [List.cons_append, List.mem_cons, List.mem_append, List.not_mem_nil, or_false] at mem
      rcases mem with rfl | mem | rfl
      · cases fails
      · exact absurd fails (appended_fine crc32c run (by rw [complete]; rfl) event mem)
      · cases fails
    · simp at unsynced
  | _ => rfl

theorem perform_poisons {call : WriterCall} {writer : DurableWriter} {intervals : IntervalMap}
    (broken : Broken (call.perform blake3 crc32c writer intervals)) :
    (call.perform blake3 crc32c writer intervals).writer.poisoned = true := by
  cases call with
  | flush io => exact flush_poisons crc32c (flush_end ..) _ broken
  | flushIfDue now io =>
    rw [WriterCall.perform] at broken ⊢
    rcases flush_if_due_end crc32c writer intervals now io with ⟨result, same⟩ | same <;>
      rw [same] at broken ⊢
    · simp [Broken] at broken
    · exact flush_poisons crc32c (flush_end ..) _ broken
  | stage worker offset bytes now io =>
    rw [WriterCall.perform] at broken ⊢
    have ended := stage_end blake3 crc32c writer intervals worker offset bytes now io
    generalize stage blake3 crc32c writer intervals worker offset bytes now io = outcome at broken ended ⊢
    cases ended with
    | rejected error => simp [Broken, reject] at broken
    | writeFailed ready error landed => rfl
    | staged ready => simp [Broken, Fails] at broken
    | noSpace ready refused landed flushed ended =>
      have poisoned := flush_poisons crc32c ended True (by simpa [Broken, Fails] using broken)
      exact poisoned
    | flushed ready flushed ended =>
      have poisoned := flush_poisons crc32c ended (∃ offset, flushed.result = .error (.noSpace offset))
        (by simpa [Broken, Fails] using broken)
      exact poisoned

theorem poisoned_silent (call : WriterCall) (intervals : IntervalMap) (poisoned : writer.poisoned = true) :
    call.perform blake3 crc32c writer intervals = ⟨.error .poisoned, writer, intervals, [],
      (call.perform blake3 crc32c writer intervals).flushFailed⟩ := by
  cases call <;> simp [WriterCall.perform, stage, stageCheck, reject, flush, flushIfDue, poisoned]

theorem poisoned_stays (calls : List (IntervalMap × WriterCall)) (poisoned : writer.poisoned = true) :
    afterCalls blake3 crc32c writer calls = writer := by
  induction calls with
  | nil => rfl
  | cons call rest ih =>
    rw [afterCalls, List.foldl_cons, poisoned_silent blake3 crc32c call.2 call.1 poisoned]
    exact ih

/-- After any calls, and for any call that follows: the batch is what it says it is; a
stage that succeeds leaves it below its bound; an error leaves the map alone or, when
space ran out, completes what was staged; and a failed operation ends all work. -/
theorem writer_batch_kept {dataLength journalLength journalBytes nextSequence : Nat}
    {writer : DurableWriter}
    (created : tryNew dataLength journalLength journalBytes nextSequence = .ok writer)
    (calls : List (IntervalMap × WriterCall)) (intervals : IntervalMap) (call : WriterCall) :
    let before := afterCalls blake3 crc32c writer calls
    let outcome := call.perform blake3 crc32c before intervals
    Batch before ∧
      (∀ worker offset bytes now io, call = .stage worker offset bytes now io →
        outcome.result.isOk = true → outcome.writer.stagedBytes < journalFlushBytes) ∧
      (∀ error, outcome.result = .error error → MapKept before.staged intervals outcome error) ∧
      (Broken outcome → ∀ (later : List (IntervalMap × WriterCall)) (map : IntervalMap)
        (next : WriterCall),
        let silent := next.perform blake3 crc32c (afterCalls blake3 crc32c outcome.writer later) map
        silent.events = [] ∧ silent.intervals = map) := by
  intro before outcome
  have fresh : Batch writer := by
    unfold tryNew at created
    split at created
    · cases created
    · cases created
      exact ⟨rfl, List.Pairwise.nil, by simp⟩
  have batch := calls_batch blake3 crc32c calls fresh
  refine ⟨batch, ?_, fun error => perform_map blake3 crc32c, ?_⟩
  · rintro worker offset bytes now io rfl
    exact stage_bounded blake3 crc32c batch
  · intro broken later map next
    have poisoned := perform_poisons blake3 crc32c broken
    rw [poisoned_stays blake3 crc32c later poisoned, poisoned_silent blake3 crc32c next map poisoned]
    exact ⟨rfl, rfl⟩

end Calls

/-! Two bytes are staged, and the sync of their flush fails. -/

def twoGranted : IntervalMap where
  totalLength := 4
  intervals := [⟨0, 2, .inProgress 1⟩, ⟨2, 4, .pending⟩]
  partitions := ⟨rfl, by decide, rfl, by decide, rfl⟩
  merged := by simp [Segments.Reduced]

def unsynced : FlushIo :=
  ⟨some (.io "f.dppart" ⟨.other, some 5, "Input/output error"⟩), fun _ => none, none⟩

theorem writer_batch_kept_flushed :
    let before := afterCalls (fun _ => .replicate 32 0) (fun _ => 0)
      ⟨4, 0, 0, [], 0, none, false, none, 0⟩
      [(twoGranted, .stage 1 0 [1, 2] 0 ⟨none, none, fun _ => none, none⟩)]
    let outcome := (WriterCall.flush unsynced).perform (fun _ => .replicate 32 0) (fun _ => 0) before
      twoGranted
    before.stagedBytes = 2 ∧ Batch before ∧ outcome.intervals = twoGranted ∧
      ∀ (map : IntervalMap) (next : WriterCall),
        (next.perform (fun _ => .replicate 32 0) (fun _ => 0) outcome.writer map).events = [] := by
  intro before outcome
  obtain ⟨batch, _, _, broken⟩ := writer_batch_kept (fun _ => .replicate 32 0) (fun _ => 0)
    (show tryNew 4 4 0 0 = .ok _ from rfl)
    [(twoGranted, .stage 1 0 [1, 2] 0 ⟨none, none, fun _ => none, none⟩)] twoGranted (.flush unsynced)
  refine ⟨rfl, batch, rfl, fun map next => (broken ?_ [] map next).1⟩
  exact Or.inl ⟨_, List.mem_singleton_self _, trivial⟩

end Downpour.WriterBatch
