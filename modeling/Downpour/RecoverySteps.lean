import Downpour.Recovery

/-!
What one call of `reconcile_download` can do, as one inversion for every outcome
of its I/O, and what it does when no I/O fails. A call either ends the download,
or leaves artifacts that describe nothing they did not describe before.
-/

namespace Downpour.RecoverySteps
open Segments Intervals JournalFormat JournalReplay JournalRepair JournalState PartFile Metadata
open Recovery

theorem accepted_ordered (accepted : Accepted state)
    (keep : CompletedBlock → Bool) : Ordered state.effectiveLength (state.blocks.filter keep) where
  bounded := accepted.bounded
  fits block mem := accepted.fits block (List.mem_filter.mp mem).1
  ordered := accepted.ordered.filter keep

theorem accepted_rebuild (accepted : effectiveState header records = .ok state)
    (keep : CompletedBlock → Bool)
    (merges : mergeAdjacent [] (state.blocks.filter keep) = .ok merged) :
    ∃ intervals, Rebuilt state.effectiveLength (state.blocks.filter keep) merged intervals := by
  obtain ⟨ranges, intervals, built⟩ :=
    blocks_rebuild (accepted_ordered (effective_state_accepted accepted) keep)
  rw [built.mergedOk] at merges
  cases merges
  exact ⟨intervals, built⟩

theorem survives_iff (observedLength : Nat) (fits : Fits limit block)
    (bounded : limit < 2 ^ 64) : survives observedLength block = true ↔ block.stop ≤ observedLength := by
  have representable : block.checkedEnd = .ok block.stop :=
    if_pos (Nat.lt_of_le_of_lt fits.inside bounded)
  simp [survives, representable]

section Ends
variable (crc32c : List UInt8 → UInt32)

/-- The durable artifacts of an active download, and the state they describe. -/
structure Described (world : World) (id : DownloadId) (metadata : DownloadMetadata)
    (bytes : List UInt8) (outcome : ReplayOutcome) (state : EffectiveState) : Prop where
  row : world.store.download = some metadata
  valid : Valid metadata
  active : metadata.state.terminal = false
  journal : world.journal = some bytes
  replayed : replayBytes crc32c bytes = .ok outcome
  owner : outcome.header.transferId = id
  length : metadata.totalLength = some outcome.header.totalLength.toNat
  accepted : effectiveState outcome.header outcome.records = .ok state

def Describes (world : World) (id : DownloadId) (state : EffectiveState) : Prop :=
  ∃ metadata bytes outcome, Described crc32c world id metadata bytes outcome state

structure Opened (world next : World) (metadata : DownloadMetadata) (content : List UInt8)
    (totalLength : Nat) : Prop where
  row : world.store.download = some metadata
  valid : Valid metadata
  active : metadata.state.terminal = false
  length : metadata.totalLength = some totalLength
  partFile : world.partFile = some content
  extended : ∃ longer, next.partFile = some longer ∧ longer.length = max content.length totalLength

structure Resumed (world next : World) (id : DownloadId) (content : List UInt8)
    (reconciled : Reconciliation) (bytes : List UInt8) (outcome : ReplayOutcome)
    (state : EffectiveState) (merged : List Range) (row : DownloadMetadata) : Prop where
  described : ∃ metadata, Described crc32c world id metadata bytes outcome state
  journal : next.journal = some (bytes.take outcome.validBytes)
  rebuilt : Rebuilt state.effectiveLength (state.blocks.filter (survives content.length)) merged
    reconciled.intervals
  few : merged.length ≤ maxCheckpointIntervals
  paused : reconciled.state = .paused
  nextSequence : reconciled.nextSequence = outcome.records.length
  sealing : reconciled.sealed = state.sealed
  stored : next.store.download = some row
  rowValid : Valid row
  rowPaused : row.state = .paused
  rowLength : row.totalLength = some state.effectiveLength

inductive ReconcileEnd (world : World) (id : DownloadId) : Attempt → Prop where
  | refused (error : RecoveryError) : ReconcileEnd world id ⟨.error error, world, none⟩
  | ended (reconciled : Reconciliation) (row : DownloadMetadata) (next : World)
      (observed : Option Nat) (stored : next.store.download = some row)
      (terminal : row.state = .failed) (failed : reconciled.state = .failed)
      (empty : ∀ pos, reconciled.intervals.stateAt pos ≠ some .complete) :
      ReconcileEnd world id ⟨.ok reconciled, next, observed⟩
  | stopped (error : RecoveryError) (next : World) (metadata : DownloadMetadata)
      (content : List UInt8) (totalLength : Nat)
      (opened : Opened world next metadata content totalLength)
      (described : ∀ state, Describes crc32c next id state → Describes crc32c world id state) :
      ReconcileEnd world id ⟨.error error, next, some content.length⟩
  | blank (reconciled : Reconciliation) (next : World) (metadata : DownloadMetadata)
      (content : List UInt8) (totalLength : Nat)
      (opened : Opened world next metadata content totalLength) (missing : world.journal = none)
      (gone : next.journal = none)
      (empty : ∀ pos, reconciled.intervals.stateAt pos ≠ some .complete) :
      ReconcileEnd world id ⟨.ok reconciled, next, some content.length⟩
  | resumed (reconciled : Reconciliation) (next : World) (metadata : DownloadMetadata)
      (content : List UInt8) (totalLength : Nat) (bytes : List UInt8) (outcome : ReplayOutcome)
      (state : EffectiveState) (merged : List Range) (row : DownloadMetadata)
      (opened : Opened world next metadata content totalLength)
      (result : Resumed crc32c world next id content reconciled bytes outcome state merged row) :
      ReconcileEnd world id ⟨.ok reconciled, next, some content.length⟩

theorem new_incomplete (length pos : Nat) :
    (IntervalMap.new length).stateAt pos ≠ some .complete := by
  rw [IntervalMap.new_state]
  split <;> exact nofun

theorem fail_end (world : World) (metadata : DownloadMetadata) (kind : FailureKind)
    (io : ReconcileIo) (nowMs : Nat) :
    (∃ error, fail world metadata kind io nowMs = (.error error, world)) ∨
    ∃ reconciled store row, fail world metadata kind io nowMs =
        (.ok reconciled, { world with store := store }) ∧
      store.download = some row ∧ row.state = .failed ∧ reconciled.state = .failed ∧
      ∀ pos, reconciled.intervals.stateAt pos ≠ some .complete := by
  unfold fail
  simp only
  split
  next error _ => exact Or.inl ⟨_, rfl⟩
  next store saved =>
    obtain ⟨_, same⟩ := save_download_end saved
    exact Or.inr ⟨_, store, _, rfl, by rw [same], rfl, rfl, new_incomplete _⟩

theorem persist_end (world : World) (metadata : DownloadMetadata) (reconciled : Reconciliation)
    (effectiveLength : Nat) (io : ReconcileIo) (nowMs : Nat) :
    (∃ error, persist world metadata reconciled effectiveLength io nowMs = (.error error, world)) ∨
    ∃ store, store.download = some (persistedRow metadata reconciled effectiveLength nowMs) ∧
      Valid (persistedRow metadata reconciled effectiveLength nowMs) ∧
      ((∃ error, persist world metadata reconciled effectiveLength io nowMs =
          (.error error, { world with store := store })) ∨
        (persist world metadata reconciled effectiveLength io nowMs =
          (.ok reconciled, { world with store := store }) ∧
        ∃ checkpoint, Checkpoint.tryNew effectiveLength
          (runsOf .complete reconciled.intervals.intervals) = .ok checkpoint)) := by
  unfold persist
  split
  next error _ => exact Or.inl ⟨_, rfl⟩
  next store saved =>
    obtain ⟨valid, same⟩ := save_download_end saved
    have stored : store.download = some (persistedRow metadata reconciled effectiveLength nowMs) := by
      rw [same]
    split
    next error _ => exact Or.inr ⟨store, stored, valid, Or.inl ⟨_, rfl⟩⟩
    next checkpoint made =>
      split
      next error _ => exact Or.inr ⟨store, stored, valid, Or.inl ⟨_, rfl⟩⟩
      next cached cachedOk =>
        have kept := save_checkpoint_end cachedOk
        exact Or.inr ⟨cached, by rw [kept, stored], valid, Or.inr ⟨rfl, checkpoint, made⟩⟩

theorem repair_described (ended : RepairEnd crc32c journal repaired)
    (present : repaired.2 = some bytes) (replayed : replayBytes crc32c bytes = .ok outcome) :
    ∃ before first, journal = some before ∧ replayBytes crc32c before = .ok first ∧
      first.header = outcome.header ∧ first.records = outcome.records := by
  have cut : ∀ before first, journal = some before → replayBytes crc32c before = .ok first →
      some (before.take first.validBytes) = some bytes →
      ∃ before first, journal = some before ∧ replayBytes crc32c before = .ok first ∧
        first.header = outcome.header ∧ first.records = outcome.records := by
    intro before first held ok same
    have again := replay_repaired crc32c ok
    rw [Option.some.inj same, replayed] at again
    cases again
    exact ⟨before, first, held, ok, rfl, rfl⟩
  cases ended with
  | missing none =>
    rw [none] at present
    cases present
  | refused held error found unreadable => exact ⟨bytes, outcome, present, replayed, rfl, rfl⟩
  | failed error device => exact ⟨bytes, outcome, present, replayed, rfl, rfl⟩
  | unsynced held first error device found ok => exact cut held first found ok present
  | recovered held first found ok => exact cut held first found ok present

theorem described_kept (id : DownloadId)
    (ended : RepairEnd crc32c world.journal repaired) (journal : next.journal = repaired.2)
    (row : next.store.download = world.store.download) (state : EffectiveState)
    (described : Describes crc32c next id state) : Describes crc32c world id state := by
  obtain ⟨metadata, bytes, outcome, found⟩ := described
  obtain ⟨before, first, held, ok, sameHeader, sameRecords⟩ :=
    repair_described crc32c ended
      (journal ▸ found.journal) found.replayed
  refine ⟨metadata, before, first, row ▸ found.row, found.valid, found.active, held, ok, ?_, ?_, ?_⟩
  · rw [sameHeader]
    exact found.owner
  · rw [sameHeader]
    exact found.length
  · rw [sameHeader, sameRecords]
    exact found.accepted

structure Reached (world : World) (id : DownloadId) (metadata : DownloadMetadata)
    (content longer : List UInt8) (totalLength : Nat)
    (repaired : Except ReplayError ReplayOutcome × Option (List UInt8)) : Prop where
  row : world.store.download = some metadata
  valid : Valid metadata
  active : metadata.state.terminal = false
  length : metadata.totalLength = some totalLength
  partFile : world.partFile = some content
  extent : longer.length = max content.length totalLength
  repair : RepairEnd crc32c world.journal repaired

namespace Reached
variable {crc32c : List UInt8 → UInt32} {world : World} {id : DownloadId} {metadata : DownloadMetadata}
  {content longer : List UInt8} {totalLength : Nat}
  {repaired : Except ReplayError ReplayOutcome × Option (List UInt8)}

theorem opened (reached : Reached crc32c world id metadata content longer totalLength repaired)
    (store : Store) :
    Opened world ⟨store, some longer, repaired.2⟩ metadata content totalLength :=
  ⟨reached.row, reached.valid, reached.active, reached.length, reached.partFile,
    longer, rfl, reached.extent⟩

theorem stopped (reached : Reached crc32c world id metadata content longer totalLength repaired)
    (error : RecoveryError) :
    ReconcileEnd crc32c world id
      ⟨.error error, ⟨world.store, some longer, repaired.2⟩, some content.length⟩ :=
  ReconcileEnd.stopped error _ metadata content totalLength (reached.opened world.store)
    (described_kept crc32c _ reached.repair rfl rfl)

theorem failed (reached : Reached crc32c world id metadata content longer totalLength repaired)
    (kind : FailureKind) (io : ReconcileIo) (nowMs : Nat) :
    ReconcileEnd crc32c world id
      ⟨(fail ⟨world.store, some longer, repaired.2⟩ metadata kind io nowMs).1,
        (fail ⟨world.store, some longer, repaired.2⟩ metadata kind io nowMs).2,
        some content.length⟩ := by
  rcases fail_end ⟨world.store, some longer, repaired.2⟩ metadata kind io nowMs with
    ⟨error, stopped⟩ | ⟨reconciled, store, row, done, stored, terminal, failed, empty⟩
  · rw [stopped]
    exact reached.stopped error
  · rw [done]
    exact ReconcileEnd.ended reconciled row _ _ stored terminal failed empty

theorem blank (reached : Reached crc32c world id metadata content longer totalLength repaired)
    (missing : world.journal = none) (gone : repaired.2 = none) (reconciled : Reconciliation)
    (io : ReconcileIo) (nowMs : Nat)
    (empty : ∀ pos, reconciled.intervals.stateAt pos ≠ some .complete) :
    ReconcileEnd crc32c world id
      ⟨(persist ⟨world.store, some longer, repaired.2⟩ metadata reconciled totalLength io nowMs).1,
        (persist ⟨world.store, some longer, repaired.2⟩ metadata reconciled totalLength io nowMs).2,
        some content.length⟩ := by
  rcases persist_end ⟨world.store, some longer, repaired.2⟩ metadata reconciled totalLength io nowMs
    with ⟨error, stopped⟩ | ⟨store, stored, _, ⟨error, stopped⟩ | ⟨done, _⟩⟩
  · rw [stopped]
    exact reached.stopped error
  · rw [stopped]
    refine ReconcileEnd.stopped error _ metadata content totalLength (reached.opened store) ?_
    rintro state ⟨_, bytes, _, found⟩
    have present : repaired.2 = some bytes := found.journal
    rw [gone] at present
    cases present
  · rw [done]
    exact ReconcileEnd.blank reconciled _ metadata content totalLength (reached.opened store) missing
      gone empty

theorem rebuilt (reached : Reached crc32c world id metadata content longer totalLength repaired)
    (bytes : List UInt8) (outcome : ReplayOutcome) (state : EffectiveState) (merged : List Range)
    (reconciled : Reconciliation) (io : ReconcileIo) (nowMs : Nat)
    (present : world.journal = some bytes) (replayed : replayBytes crc32c bytes = .ok outcome)
    (cut : repaired.2 = some (bytes.take outcome.validBytes))
    (owner : outcome.header.transferId = id) (length : outcome.header.totalLength.toNat = totalLength)
    (accepted : effectiveState outcome.header outcome.records = .ok state)
    (built : Rebuilt state.effectiveLength (state.blocks.filter (survives content.length)) merged
      reconciled.intervals)
    (paused : reconciled.state = .paused) (nextSequence : reconciled.nextSequence = outcome.records.length)
    (sealing : reconciled.sealed = state.sealed) :
    ReconcileEnd crc32c world id
      ⟨(persist ⟨world.store, some longer, repaired.2⟩ metadata reconciled state.effectiveLength io
          nowMs).1,
        (persist ⟨world.store, some longer, repaired.2⟩ metadata reconciled state.effectiveLength io
          nowMs).2, some content.length⟩ := by
  have described : Described crc32c world id metadata bytes outcome state :=
    ⟨reached.row, reached.valid, reached.active, present, replayed, owner,
      by rw [reached.length, length], accepted⟩
  rcases persist_end ⟨world.store, some longer, repaired.2⟩ metadata reconciled state.effectiveLength
      io nowMs with ⟨error, stopped⟩ | ⟨store, stored, rowValid, ⟨error, stopped⟩ | ⟨done, checkpoint, made⟩⟩
  · rw [stopped]
    exact reached.stopped error
  · rw [stopped]
    refine ReconcileEnd.stopped error _ metadata content totalLength (reached.opened store) ?_
    -- The row was stored, but the journal still names the same records.
    rintro other ⟨_, found, again, held⟩
    have same : some found = some (bytes.take outcome.validBytes) := held.journal ▸ cut
    have repeated := replay_repaired crc32c replayed
    rw [← Option.some.inj same, held.replayed] at repeated
    cases repeated
    have sameState := held.accepted
    rw [accepted] at sameState
    cases sameState
    exact ⟨metadata, bytes, outcome, described⟩
  · rw [done]
    have few := (try_new_end made).1
    rw [built.runs] at few
    exact ReconcileEnd.resumed reconciled _ metadata content totalLength bytes outcome state merged _
      (reached.opened store) ⟨⟨metadata, described⟩, cut, built, few, paused, nextSequence, sealing,
        stored, rowValid, paused, rfl⟩

end Reached

theorem reconcile_journal_end {world : World} {id : DownloadId} {metadata : DownloadMetadata}
    {content longer : List UInt8} {totalLength : Nat} {recovered : RecoveredPartFile}
    {io : ReconcileIo} (nowMs : Nat)
    (reached : Reached crc32c world id metadata content longer totalLength
      (recoverJournal crc32c world.journal io.journal))
    (measured : recovered.observedLength = content.length) :
    ReconcileEnd crc32c world id
      ⟨(reconcileJournal crc32c { world with partFile := some longer } id metadata totalLength
          recovered io nowMs).1,
        (reconcileJournal crc32c { world with partFile := some longer } id metadata totalLength
          recovered io nowMs).2, some content.length⟩ := by
  unfold reconcileJournal
  simp only
  generalize recoverJournal crc32c world.journal io.journal = repaired at reached
  obtain ⟨result, journal⟩ := repaired
  cases result with
  | error error =>
    cases error with
    | format damage => exact reached.failed .journalUnreadable io nowMs
    | io source =>
      simp only
      split
      next gone =>
        have missing : world.journal = none ∧ journal = none := by
          have ended := reached.repair
          cases ended with
          | missing none => exact ⟨none, none⟩
          | failed _ device => exact absurd gone device
          | unsynced _ _ _ device => exact absurd gone device
        exact reached.blank missing.1 missing.2 _ io nowMs (new_incomplete totalLength)
      next => exact reached.stopped (.io source)
  | ok outcome =>
    have found : ∃ bytes, world.journal = some bytes ∧ replayBytes crc32c bytes = .ok outcome ∧
        journal = some (bytes.take outcome.validBytes) := by
      have ended := reached.repair
      cases ended with
      | recovered bytes _ present replayed => exact ⟨bytes, present, replayed, rfl⟩
    obtain ⟨bytes, present, replayed, cut⟩ := found
    simp only [reconcileRecords, measured]
    split
    · exact reached.failed .journalMismatched io nowMs
    next matching =>
      rw [not_or, not_not, not_not] at matching
      split
      · exact reached.stopped _
      split
      · exact reached.failed .journalInvalid io nowMs
      next state accepted =>
        have ordered := accepted_ordered (effective_state_accepted accepted)
          (survives content.length)
        obtain ⟨merged, intervals, built⟩ := blocks_rebuild ordered
        simp only [built.mergedOk, built.completedOk]
        exact reached.rebuilt bytes outcome state merged _ io nowMs present replayed cut
          matching.1 matching.2 accepted built rfl rfl rfl

theorem reconcile_end (world : World) (id : DownloadId) (io : ReconcileIo) (nowMs : Nat) :
    ReconcileEnd crc32c world id (reconcileDownload crc32c world id io nowMs) := by
  have failedEarly : ∀ metadata kind, ReconcileEnd crc32c world id
      (.before (fail world metadata kind io nowMs)) := by
    intro metadata kind
    rcases fail_end world metadata kind io nowMs with
      ⟨error, stopped⟩ | ⟨reconciled, store, row, done, stored, terminal, failed, empty⟩
    · rw [stopped]
      exact ReconcileEnd.refused error
    · rw [done]
      exact ReconcileEnd.ended reconciled row _ _ stored terminal failed empty
  unfold reconcileDownload
  split
  · exact ReconcileEnd.refused _
  · exact ReconcileEnd.refused _
  next metadata loaded =>
    obtain ⟨row, valid⟩ := load_download_end loaded
    split
    · exact ReconcileEnd.refused _
    next active =>
      split
      next content partFile _ =>
        split
        · exact failedEarly metadata .lengthUnknown
        next totalLength length =>
          split
          · exact ReconcileEnd.refused _
          next recovered opened =>
            obtain ⟨measured, extent⟩ := open_existing_extent opened
            simp only [measured]
            exact reconcile_journal_end crc32c nowMs
              ⟨row, valid, Bool.not_eq_true _ ▸ active, length, partFile, extent,
                recover_journal_end crc32c world.journal io.journal⟩ measured
      next => exact failedEarly metadata .partFileMissing

end Ends

/-! A call in which no I/O fails. -/

structure CleanIo (io : ReconcileIo) : Prop where
  loadDownload : io.loadDownload = none
  partHidden : io.partHidden = false
  opened : io.part.opened = none
  measured : io.part.measured = none
  prepared : ∃ method, io.part.prepare = .ok method
  allocated : ∃ size, io.part.allocatedSize = .ok size
  journal : io.journal.Clean
  saveDownload : io.saveDownload = none
  saveCheckpoint : io.saveCheckpoint = none

theorem open_existing_clean (path : String) (content : List UInt8)
    (clean : CleanIo io) (bounded : totalLength < 2 ^ 63) :
    ∃ recovered, openExisting path content totalLength io.part = .ok recovered := by
  obtain ⟨method, prepared⟩ := clean.prepared
  obtain ⟨size, allocated⟩ := clean.allocated
  simp only [openExisting, if_neg (Nat.not_le.mpr bounded), clean.opened, clean.measured, prepared,
    allocated]
  split
  · exact ⟨_, rfl⟩
  · exact ⟨_, rfl⟩

theorem persisted_row_valid (valid : Valid metadata) (inTime : nowMs < 2 ^ 63)
    (bounded : effectiveLength < 2 ^ 63) (covered : reconciled.coveredBytes ≤ effectiveLength) :
    Valid (persistedRow metadata reconciled effectiveLength nowMs) := by
  constructor
  · exact inTime
  · rintro total ⟨rfl⟩
    exact bounded
  · exact covered.trans_lt bounded
  · rintro total ⟨rfl⟩
    exact covered
  · intro total proven
    simp only [persistedRow] at proven ⊢
    split at proven
    · cases proven
    next same =>
      rw [← valid.proven total proven]
      exact (not_not.mp same).symm

theorem persist_clean (world : World) (reconciled : Reconciliation)
    (effectiveLength : Nat) (clean : CleanIo io) (valid : Valid metadata)
    (inTime : nowMs < 2 ^ 63) (bounded : effectiveLength < 2 ^ 63)
    (counted : reconciled.coveredBytes = reconciled.intervals.completeBytes)
    (sameLength : reconciled.intervals.totalLength = effectiveLength)
    (sequenceFits : reconciled.nextSequence < 2 ^ 63)
    (few : (runsOf .complete reconciled.intervals.intervals).length ≤ maxCheckpointIntervals) :
    ∃ store, persist world metadata reconciled effectiveLength io nowMs =
        (.ok reconciled, { world with store := store }) ∧
      store.download = some (persistedRow metadata reconciled effectiveLength nowMs) ∧
      Valid (persistedRow metadata reconciled effectiveLength nowMs) := by
  have most := reconciled.intervals.complete_bytes_le
  have row := persisted_row_valid valid inTime bounded (by rw [counted, ← sameLength]; exact most)
  have chain := reconciled.intervals.partitions
  rw [sameLength] at chain
  obtain ⟨checkpoint, made, total, covered⟩ := (try_new_separated (by omega)
    (runs_separated .complete chain reconciled.intervals.merged)
    fun _ => runs_inside chain).mpr few
  have saved := save_checkpoint_valid
    { world.store with download := some (persistedRow metadata reconciled effectiveLength nowMs) } _ rfl rfl total sequenceFits (by omega)
    inTime
  simp only [persist, clean.saveDownload, clean.saveCheckpoint, save_download_valid _ row, made,
    saved]
  exact ⟨_, rfl, rfl, row⟩

section CleanCall
variable (crc32c : List UInt8 → UInt32)

theorem reconcile_clean (world : World) (id : DownloadId) (nowMs : Nat)
    (metadata : DownloadMetadata) (bytes content : List UInt8) (outcome : ReplayOutcome)
    (state : EffectiveState) (merged : List Range) (intervals : IntervalMap)
    (described : Described crc32c world id metadata bytes outcome state)
    (partFile : world.partFile = some content) (clean : CleanIo io) (inTime : nowMs < 2 ^ 63)
    (built : Rebuilt state.effectiveLength (state.blocks.filter (survives content.length)) merged
      intervals) (few : merged.length ≤ maxCheckpointIntervals) :
    ∃ reconciled next row longer, reconcileDownload crc32c world id io nowMs =
        ⟨.ok reconciled, next, some content.length⟩ ∧
      Resumed crc32c world next id content reconciled bytes outcome state merged row ∧
      next.partFile = some longer ∧
      longer.length = max content.length outcome.header.totalLength.toNat := by
  have bounded := described.valid.total _ described.length
  have shrinks := effective_length_le described.accepted
  have resumable := replay_resumable crc32c described.replayed
  have counted := resumable.counted
  have small := resumable.bounded
  obtain ⟨recovered, opened⟩ := open_existing_clean metadata.partPath content clean bounded
  obtain ⟨measured, extent⟩ := open_existing_extent opened
  obtain ⟨reconciled, shape⟩ : ∃ reconciled, reconciled = replayedReconciliation recovered
      outcome.header.totalLength.toNat outcome state intervals intervals.completeBytes
      (compareCheckpoint world.store io.loadCheckpoint intervals.completeBytes merged) := ⟨_, rfl⟩
  have sameMap : reconciled.intervals = intervals := by rw [shape]; rfl
  have paused : reconciled.state = .paused := by rw [shape]; rfl
  have sequence : reconciled.nextSequence = outcome.records.length := by rw [shape]; rfl
  have sealing : reconciled.sealed = state.sealed := by rw [shape]; rfl
  obtain ⟨store, persisted, stored, rowValid⟩ := persist_clean
    { world with partFile := some recovered.content, journal := some (bytes.take outcome.validBytes) } reconciled state.effectiveLength clean described.valid inTime
    (by omega) (by rw [shape]; rfl) (by rw [sameMap]; exact built.totalLength)
    (by rw [sequence]; omega) (by rw [sameMap, built.runs]; exact few)
  refine ⟨reconciled, ⟨store, some recovered.content, some (bytes.take outcome.validBytes)⟩, _,
    recovered.content, ?_, ⟨⟨metadata, described⟩, rfl, by rw [sameMap]; exact built, few, paused,
      sequence, sealing, stored, rowValid, paused, rfl⟩, rfl, extent⟩
  simp only [reconcileDownload, clean.loadDownload,
    load_download_valid _ described.row described.valid, described.active, partFile,
    clean.partHidden, described.length, opened, reconcileJournal, described.journal,
    recover_journal_clean crc32c io.journal clean.journal described.replayed,
    reconcileRecords, described.owner, measured, described.accepted, built.mergedOk,
    built.completedOk, ← shape, ne_eq, not_true_eq_false, or_self, ↓reduceIte, Bool.false_eq_true]
  rw [if_neg (by omega), persisted]

theorem resumed_described {world next : World} {id : DownloadId} {content bytes : List UInt8}
    {reconciled : Reconciliation} {outcome : ReplayOutcome} {state : EffectiveState}
    {merged : List Range} {row : DownloadMetadata}
    (result : Resumed crc32c world next id content reconciled bytes outcome state merged row)
    (whole : state.effectiveLength = outcome.header.totalLength.toNat) :
    Described crc32c next id row (bytes.take outcome.validBytes) { outcome with stop := .cleanEof }
      state := by
  obtain ⟨metadata, source⟩ := result.described
  constructor
  · exact result.stored
  · exact result.rowValid
  · rw [result.rowPaused]
    rfl
  · exact result.journal
  · exact replay_repaired crc32c source.replayed
  · exact source.owner
  · rw [result.rowLength, whole]
  · exact source.accepted

theorem paused_resumed {world next : World} {id : DownloadId} {io : ReconcileIo} {nowMs : Nat}
    {reconciled : Reconciliation} {observed : Option Nat}
    (returned : reconcileDownload crc32c world id io nowMs = ⟨.ok reconciled, next, observed⟩)
    (paused : reconciled.state = .paused) (found : world.partFile = some content)
    (present : world.journal ≠ none ∨ next.journal ≠ none) :
    ∃ metadata totalLength bytes outcome state merged row,
      Opened world next metadata content totalLength ∧
      Resumed crc32c world next id content reconciled bytes outcome state merged row := by
  have ended := reconcile_end crc32c world id io nowMs
  rw [returned] at ended
  cases ended with
  | ended _ _ _ _ _ _ failed =>
    rw [failed] at paused
    cases paused
  | blank _ _ _ _ _ _ missing gone =>
    rcases present with before | after
    · exact absurd missing before
    · exact absurd gone after
  | resumed _ _ metadata before totalLength bytes outcome state merged row opened result =>
    have same := opened.partFile
    rw [found] at same
    cases same
    exact ⟨metadata, totalLength, bytes, outcome, state, merged, row, opened, result⟩

end CleanCall

end Downpour.RecoverySteps
