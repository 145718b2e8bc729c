import Downpour.RecoverySafety
import Downpour.WriterJournal

/-!
Recovering, continuing and recovering again. The map that recovery hands out is
filtered by the length of the part file and says nothing of a seal, while the
journal keeps every record. A continuation that the map permits is therefore
accepted again exactly when recovery dropped no block and the journal was not
sealed, apart from the limit on stored checkpoints.
-/

namespace Downpour.RecoveryClosure
open Segments Intervals JournalFormat JournalReplay JournalRepair JournalState PartFile Metadata
open CrashDisk Writer WriterCrash WriterJournal Recovery RecoverySteps RecoverySafety

def continuedDisk (partFile journal : List UInt8) : Disk UInt8 where
  visible pos := partFile.getD pos 0
  surviving pos := {partFile.getD pos 0}
  durableLog := journal
  pendingLog := []

/-- A reconcile that returned a paused download with its journal, a writer that
continues this journal with the returned map and sequence number, the calls made
on it, and the outcomes of a second reconcile in which no I/O fails. -/
structure Continuation (blake3 : List UInt8 → Digest) (crc32c : List UInt8 → UInt32) where
  world : World
  id : DownloadId
  io : ReconcileIo
  nowMs : Nat
  reconciled : Reconciliation
  next : World
  observed : Option Nat
  returned : reconcileDownload crc32c world id io nowMs = ⟨.ok reconciled, next, observed⟩
  paused : reconciled.state = .paused
  content : List UInt8
  found : world.partFile = some content
  partFile : List UInt8
  extended : next.partFile = some partFile
  journal : List UInt8
  present : next.journal = some journal
  outcome : ReplayOutcome
  replayed : replayBytes crc32c journal = .ok outcome
  untruncated : ∀ framed ∈ outcome.records, ∀ length, framed.record ≠ .truncate length
  dataLength : Nat
  journalLength : Nat
  writer : DurableWriter
  started : tryNew dataLength journalLength journal.length reconciled.nextSequence = .ok writer
  calls : List Call
  succeeded : ((freshSession writer reconciled.intervals).calls blake3 crc32c calls).flushFailed = false
  again : ReconcileIo
  clean : CleanIo again
  laterMs : Nat
  inTime : laterMs < 2 ^ 63

namespace Continuation
variable {blake3 : List UInt8 → Digest} {crc32c : List UInt8 → UInt32}

def session (run : Continuation blake3 crc32c) : Session :=
  (freshSession run.writer run.reconciled.intervals).calls blake3 crc32c run.calls

def disk (run : Continuation blake3 crc32c) : Disk UInt8 :=
  (continuedDisk run.partFile run.journal).run run.session.trace

def continued (run : Continuation blake3 crc32c) : World :=
  { run.next with
    partFile := some ((List.range run.partFile.length).map run.disk.visible)
    journal := some run.disk.log }

def Old (run : Continuation blake3 crc32c) (pos : Nat) : Prop :=
  run.reconciled.intervals.stateAt pos = some .complete

def Newly (run : Continuation blake3 crc32c) (pos : Nat) : Prop :=
  run.reconciled.intervals.stateAt pos = some .pending ∧
    run.session.intervals.stateAt pos = some .complete

structure Recovered (run : Continuation blake3 crc32c) (state : EffectiveState)
    (row : DownloadMetadata) (merged : List Range) : Prop where
  described : Described crc32c run.next run.id row run.journal run.outcome state
  whole : run.outcome.validBytes = run.journal.length
  rebuilt : Rebuilt state.effectiveLength (state.blocks.filter (survives run.content.length)) merged
    run.reconciled.intervals
  sequence : run.reconciled.nextSequence = run.outcome.records.length
  extent : state.effectiveLength ≤ run.partFile.length

theorem recovered (run : Continuation blake3 crc32c) :
    ∃ state row merged, run.Recovered state row merged := by
  obtain ⟨metadata, totalLength, bytes, outcome, state, merged, row, opened, result⟩ :=
    paused_resumed crc32c run.returned run.paused run.found
      (Or.inr (by simp [run.present]))
  obtain ⟨source, first⟩ := result.described
  have sameJournal : run.journal = bytes.take outcome.validBytes :=
    Option.some.inj (run.present.symm.trans result.journal)
  have sameOutcome : run.outcome = { outcome with stop := .cleanEof } := by
    have repaired := replay_repaired crc32c first.replayed
    rw [← sameJournal, run.replayed] at repaired
    exact Except.ok.inj repaired
  have sameRecords : run.outcome.records = outcome.records := by rw [sameOutcome]
  have sameHeader : run.outcome.header = outcome.header := by rw [sameOutcome]
  have whole : state.effectiveLength = outcome.header.totalLength.toNat := by
    rw [effective_length_whole_iff first.accepted, ← sameRecords]
    intro framed mem newLength truncates
    exact absurd truncates (run.untruncated framed mem newLength)
  have described := resumed_described crc32c result whole
  rw [← sameJournal, ← sameOutcome] at described
  refine ⟨state, row, merged, described, ?_, result.rebuilt, ?_, ?_⟩
  · apply (replay_resumable crc32c run.replayed).clean
    rw [sameOutcome]
  · rw [result.nextSequence, sameRecords]
  · obtain ⟨longer, after, extent⟩ := opened.extended
    have samePart : run.partFile = longer := Option.some.inj (run.extended.symm.trans after)
    have sameRow : source = metadata := Option.some.inj (first.row.symm.trans opened.row)
    have sameLength : outcome.header.totalLength.toNat = totalLength := by
      rw [sameRow] at first
      exact Option.some.inj (first.length.symm.trans opened.length)
    rw [samePart, extent, whole, sameLength]
    exact Nat.le_max_right _ _

def start (run : Continuation blake3 crc32c) (state : EffectiveState)
    (bounded : state.effectiveLength < 2 ^ 64) : Start where
  log := run.journal
  records := run.outcome.records.length
  length := state.effectiveLength
  complete := run.Old
  completeBytes := run.reconciled.intervals.completeBytes
  bounded := bounded

/-- What the continuation left: new frames behind the journal, one for each new
block, and a map in which exactly the old bytes and these blocks are complete. -/
structure Extension (run : Continuation blake3 crc32c) (state : EffectiveState)
    (frames : List FramedRecord) (blocks : List CompletedBlock) : Prop where
  replays : ∃ length, replayBytes crc32c run.disk.log =
    .ok ⟨run.outcome.header, run.outcome.records ++ frames, length, .cleanEof⟩
  recorded : frames.map FramedRecord.record = blocks.map CompletedBlock.asRecord
  fits : ∀ block ∈ blocks, Fits state.effectiveLength block
  apart : blocks.Pairwise CompletedBlock.Apart
  fresh : ∀ block ∈ blocks, ∀ pos, block.Covers pos → ¬ run.Old pos
  complete : ∀ pos, run.session.intervals.stateAt pos = some .complete ↔
    run.Old pos ∨ ∃ block ∈ blocks, block.Covers pos
  newly : ∀ pos, run.Newly pos ↔ ∃ block ∈ blocks, block.Covers pos

theorem extension (run : Continuation blake3 crc32c) (state : EffectiveState)
    (merged : List Range) (recovered : run.Recovered state row merged) :
    ∃ frames blocks, run.Extension state frames blocks := by
  have accepted := effective_state_accepted recovered.described.accepted
  have resumable := replay_resumable crc32c run.replayed
  have counted := resumable.counted
  have small := resumable.bounded
  have begun : Agrees crc32c (run.start state accepted.bounded) run.writer run.reconciled.intervals
      false (continuedDisk run.partFile run.journal) := by
    apply start_agrees
    · rw [← run.started, recovered.sequence]
      rfl
    · exact recovered.rebuilt.totalLength
    · intro pos
      rfl
    · rfl
    · rfl
    · rfl
    · exact Nat.lt_of_le_of_lt (show run.outcome.records.length ≤ run.outcome.validBytes by omega) small
  obtain ⟨frames, bytes, blocks, agreement⟩ := calls_agree blake3
    (freshSession run.writer run.reconciled.intervals) run.calls begun
  have journal := agreement.journal
  obtain ⟨recorded, _⟩ := agreement.exact (Or.inr run.succeeded)
  have complete : ∀ pos, run.session.intervals.stateAt pos = some .complete ↔
      run.Old pos ∨ ∃ block ∈ blocks, block.Covers pos := by
    intro pos
    constructor
    · exact agreement.covered pos
    · rintro (old | ⟨block, mem, covers⟩)
      · exact agreement.kept pos old
      · exact recorded block mem pos covers
  have log : run.disk.log = run.journal.take run.outcome.validBytes ++ bytes := by
    rw [recovered.whole, List.take_length]
    have clear : run.disk.pendingLog = [] := agreement.synced (Or.inr run.succeeded)
    have durable : run.disk.durableLog = run.journal ++ bytes := journal.content
    rw [Disk.log, clear, durable, List.append_nil]
  refine ⟨frames, blocks, ?_, journal.recorded, journal.fits, journal.apart, journal.fresh, complete, ?_⟩
  · refine ⟨run.outcome.validBytes + bytes.length, ?_⟩
    rw [log]
    apply replay_extended crc32c run.replayed journal.framed
      journal.ordered
    · rw [recovered.whole]
      rcases journal.short with none | short
      · rw [none, ← recovered.whole]
        exact small
      · exact Nat.lt_of_le_of_lt short (by decide)
    · exact journal.counted
  · intro pos
    constructor
    · rintro ⟨pending, done⟩
      rcases (complete pos).mp done with old | new
      · rw [Old, pending] at old
        cases old
      · exact new
    · rintro ⟨block, mem, covers⟩
      have incomplete := journal.fresh block mem pos covers
      have inside : pos < state.effectiveLength :=
        covers.2.trans_le (journal.fits block mem).inside
      exact ⟨recovered.rebuilt.pending pos inside incomplete,
        recorded block mem pos covers⟩

/-- The second reconcile, once the fold accepts the extended journal: the file
is long enough for every block, so the blocks before and behind the continuation
all count. -/
structure Reopened (run : Continuation blake3 crc32c) (state : EffectiveState)
    (row : DownloadMetadata) (blocks : List CompletedBlock) (outcome : ReplayOutcome)
    (extended : EffectiveState) : Prop where
  described : Described crc32c run.continued run.id row run.disk.log outcome extended
  grown : Extends state blocks extended
  kept : extended.blocks.filter (survives run.partFile.length) = extended.blocks

theorem reopened (run : Continuation blake3 crc32c) (extended : EffectiveState)
    (row : DownloadMetadata) (merged : List Range) (frames : List FramedRecord)
    (blocks : List CompletedBlock) (outcome : ReplayOutcome)
    (recovered : run.Recovered state row merged) (extension : run.Extension state frames blocks)
    (replayed : replayBytes crc32c run.disk.log = .ok outcome)
    (accepted : effectiveState outcome.header outcome.records = .ok extended) :
    (frames = [] ∨ state.sealed = none) ∧ run.Reopened state row blocks outcome extended := by
  obtain ⟨length, replays⟩ := extension.replays
  rw [replayed] at replays
  obtain rfl := Except.ok.inj replays
  have described := recovered.described
  obtain ⟨unsealed, grown⟩ := (effective_state_extends described.accepted
    extension.recorded extension.fits).1 _ accepted
  have whole := effective_state_accepted accepted
  refine ⟨unsealed, ?_, grown, ?_⟩
  · exact ⟨described.row, described.valid, described.active, rfl, replayed, described.owner,
      described.length, accepted⟩
  · apply all_survive whole
    intro block mem
    have inside := (whole.fits block mem).inside
    rw [grown.length] at inside
    exact inside.trans recovered.extent

theorem Extension.union (run : Continuation blake3 crc32c)
    (extension : run.Extension state frames blocks) (pos : Nat) :
    run.Old pos ∨ run.Newly pos ↔
      run.session.intervals.stateAt pos = some .complete := by
  rw [extension.newly, extension.complete]

theorem Extension.silent (run : Continuation blake3 crc32c) (state : EffectiveState)
    (frames : List FramedRecord) (blocks : List CompletedBlock)
    (extension : run.Extension state frames blocks) :
    frames = [] ↔ ∀ pos, ¬ run.Newly pos := by
  have empty : frames = [] ↔ blocks = [] := by
    rw [← List.map_eq_nil_iff, extension.recorded, List.map_eq_nil_iff]
  rw [empty, List.eq_nil_iff_forall_not_mem]
  constructor
  · rintro none pos newly
    obtain ⟨block, mem, _⟩ := (extension.newly pos).mp newly
    exact none block mem
  · intro none block mem
    have positive := (extension.fits block mem).positive
    apply none block.start
    apply (extension.newly _).mpr
    exact ⟨block, mem, le_rfl, Nat.lt_add_of_pos_right positive⟩

end Continuation

end Downpour.RecoveryClosure
