import Downpour.RecoverySafety

/-!
The map that `reconcile_download` rebuilds, byte by byte, and what it does not
depend on: the checkpoint row is compared and reported, and nothing else of the
result reads it.
-/

namespace Downpour.RecoveryMap
open Segments Intervals JournalFormat JournalReplay JournalRepair JournalState PartFile Metadata
open Recovery RecoverySteps

/-- The map and the count that the accepted blocks inside the part file give. -/
structure MapExact (state : EffectiveState) (observedLength : Nat) (intervals : IntervalMap)
    (coveredBytes : Nat) : Prop where
  totalLength : intervals.totalLength = state.effectiveLength
  idle : ∀ pos worker, intervals.stateAt pos ≠ some (.inProgress worker)
  complete : ∀ pos, intervals.stateAt pos = some .complete ↔
    ∃ block ∈ state.blocks, block.stop ≤ observedLength ∧ block.Covers pos
  counted : coveredBytes = Set.ncard {pos |
    ∃ block ∈ state.blocks, block.stop ≤ observedLength ∧ block.Covers pos}
  bounded : coveredBytes < 2 ^ 64

variable {state : EffectiveState}

theorem surviving_covers (accepted : Accepted state) (observedLength pos : Nat) :
    (∃ block ∈ state.blocks.filter (survives observedLength), block.Covers pos) ↔
      ∃ block ∈ state.blocks, block.stop ≤ observedLength ∧ block.Covers pos := by
  constructor
  · rintro ⟨block, mem, covers⟩
    obtain ⟨found, kept⟩ := List.mem_filter.mp mem
    exact ⟨block, found,
      (survives_iff _ (accepted.fits block found) accepted.bounded).mp kept, covers⟩
  · rintro ⟨block, found, inside, covers⟩
    have kept := (survives_iff _ (accepted.fits block found) accepted.bounded).mpr inside
    exact ⟨block, List.mem_filter.mpr ⟨found, kept⟩, covers⟩

theorem rebuilt_exact (accepted : Accepted state)
    (built : Rebuilt state.effectiveLength (state.blocks.filter (survives observedLength)) merged
      intervals) : MapExact state observedLength intervals intervals.completeBytes := by
  have complete : ∀ pos, intervals.stateAt pos = some .complete ↔
      ∃ block ∈ state.blocks, block.stop ≤ observedLength ∧ block.Covers pos := fun pos =>
    (built.complete pos).trans (surviving_covers accepted observedLength pos)
  refine ⟨built.totalLength, ?_, complete, ?_, ?_⟩
  · intro pos worker active
    have inside := (intervals.state_inside pos).mp ⟨_, active⟩
    rw [built.totalLength] at inside
    have pending := built.pending pos inside (by rw [active]; exact nofun)
    rw [active] at pending
    cases pending
  · rw [IntervalMap.completeBytes, ← Set.ncard_coe_finset]
    congr 1
    ext pos
    rw [Finset.coe_filter, Set.mem_ofPred_eq, Set.mem_ofPred_eq, ← complete pos]
    constructor
    · exact And.right
    · intro held
      exact ⟨Finset.mem_range.mpr ((intervals.state_inside pos).mp ⟨_, held⟩), held⟩
  · have most := intervals.complete_bytes_le
    have small := accepted.bounded
    rw [built.totalLength] at most
    omega

theorem reconcile_records_rebuilt (world : World) {id : DownloadId} (metadata : DownloadMetadata)
    {totalLength : Nat} (recovered : RecoveredPartFile)
    (io : ReconcileIo) (nowMs : Nat) (owner : replayed.header.transferId = id)
    (length : replayed.header.totalLength.toNat = totalLength)
    (counted : replayed.records.length < 2 ^ 64)
    (accepted : effectiveState replayed.header replayed.records = .ok state) :
    ∃ merged intervals, Rebuilt state.effectiveLength
        (state.blocks.filter (survives recovered.observedLength)) merged intervals ∧
      reconcileRecords world id metadata totalLength recovered replayed io nowMs =
        persist world metadata
          (replayedReconciliation recovered totalLength replayed state intervals
            intervals.completeBytes
            (compareCheckpoint world.store io.loadCheckpoint intervals.completeBytes merged))
          state.effectiveLength io nowMs := by
  -- Behind the journal checks the two loops cannot fail: the call goes on to store the map they
  -- build.
  obtain ⟨merged, intervals, built⟩ := blocks_rebuild
    (accepted_ordered (effective_state_accepted accepted) (survives recovered.observedLength))
  refine ⟨merged, intervals, built, ?_⟩
  simp only [reconcileRecords, owner, length, accepted, built.mergedOk, built.completedOk, ne_eq,
    not_true_eq_false, or_self, ↓reduceIte]
  rw [if_neg (Nat.not_le.mpr counted)]

section Calls
variable (crc32c : List UInt8 → UInt32)

variable {world next : World} {metadata : DownloadMetadata} {io : ReconcileIo} {nowMs : Nat}
    {reconciled : Reconciliation} {id : DownloadId}

theorem fail_unpaused (returned : fail world metadata kind io nowMs = (.ok reconciled, next)) :
    reconciled.state ≠ .paused := by
  rcases fail_end world metadata kind io nowMs with
    ⟨error, stopped⟩ | ⟨_, store, row, done, _, _, failed, _⟩
  · rw [stopped] at returned
    cases returned
  · rw [done] at returned
    cases returned
    rw [failed]
    exact nofun

theorem persist_ok
    (done : persist world metadata reconciled effectiveLength io nowMs = (.ok returned, next)) :
    returned = reconciled ∧ nowMs < 2 ^ 63 ∧
      (runsOf .complete reconciled.intervals.intervals).length ≤ maxCheckpointIntervals := by
  -- `persist` returns what it got, at a time that SQLite holds, and only if the map has few enough
  -- runs.
  rcases persist_end world metadata reconciled effectiveLength io nowMs with
    ⟨error, stopped⟩ | ⟨store, _, valid, ⟨error, stopped⟩ | ⟨ended, checkpoint, made⟩⟩
  · rw [stopped] at done
    cases done
  · rw [stopped] at done
    cases done
  · rw [ended] at done
    cases done
    exact ⟨rfl, valid.updated, (try_new_end made).1⟩

structure Replayed (world : World) (io : ReconcileIo) (nowMs : Nat) (reconciled : Reconciliation)
    (bytes content : List UInt8) (outcome : ReplayOutcome) (state : EffectiveState)
    (merged : List Range) : Prop where
  journal : world.journal = some bytes
  partFile : world.partFile = some content
  replayed : replayBytes crc32c bytes = .ok outcome
  accepted : effectiveState outcome.header outcome.records = .ok state
  rebuilt : Rebuilt state.effectiveLength (state.blocks.filter (survives content.length)) merged
    reconciled.intervals
  few : merged.length ≤ maxCheckpointIntervals
  inTime : nowMs < 2 ^ 63
  counted : reconciled.coveredBytes = reconciled.intervals.completeBytes
  divergence : reconciled.divergence =
    compareCheckpoint world.store io.loadCheckpoint reconciled.coveredBytes merged
  sealing : reconciled.sealed = state.sealed
  nextSequence : reconciled.nextSequence = outcome.records.length

theorem records_replayed {reached : World} {totalLength : Nat} {recovered : RecoveredPartFile}
    {outcome : ReplayOutcome} {bytes content : List UInt8}
    (records : reconcileRecords reached id metadata totalLength recovered outcome io nowMs =
      (.ok reconciled, next)) (paused : reconciled.state = .paused)
    (sameStore : reached.store = world.store) (journal : world.journal = some bytes)
    (partFile : world.partFile = some content)
    (measured : recovered.observedLength = content.length)
    (replayed : replayBytes crc32c bytes = .ok outcome) :
    ∃ state merged, Replayed crc32c world io nowMs reconciled bytes content outcome state merged := by
  by_cases matching : outcome.header.transferId ≠ id ∨ outcome.header.totalLength.toNat ≠ totalLength
  · rw [reconcileRecords, if_pos matching] at records
    exact absurd paused (fail_unpaused records)
  by_cases counted : outcome.records.length ≥ 2 ^ 64
  · rw [reconcileRecords, if_neg matching, if_pos counted] at records
    cases records
  cases accepted : effectiveState outcome.header outcome.records with
  | error error =>
    rw [reconcileRecords, if_neg matching, if_neg counted, accepted] at records
    exact absurd paused (fail_unpaused records)
  | ok state =>
    rw [not_or, not_not, not_not] at matching
    obtain ⟨merged, intervals, built, persisted⟩ := reconcile_records_rebuilt reached metadata
      recovered io nowMs matching.1 matching.2 (Nat.not_le.mp counted) accepted
    rw [persisted] at records
    obtain ⟨rfl, inTime, few⟩ := persist_ok records
    rw [measured] at built
    exact ⟨state, merged, journal, partFile, replayed, accepted, built, built.runs ▸ few, inTime, rfl,
      by rw [← sameStore]; rfl, rfl, rfl⟩

theorem paused_replayed
    (returned : reconcileDownload crc32c world id io nowMs = ⟨.ok reconciled, next, observed⟩)
    (paused : reconciled.state = .paused) :
    (world.journal = none ∧ reconciled.divergence = .noCheckpoint) ∨
    ∃ bytes content outcome state merged, observed = some content.length ∧
      Replayed crc32c world io nowMs reconciled bytes content outcome state merged := by
  have failed : ∀ world metadata kind, fail world metadata kind io nowMs ≠ (.ok reconciled, next) :=
    fun world metadata kind done => fail_unpaused done paused
  have early : ∀ world metadata kind, Attempt.before (fail world metadata kind io nowMs) ≠
      ⟨.ok reconciled, next, observed⟩ := by
    intro world metadata kind done
    simp only [Attempt.before, Attempt.mk.injEq] at done
    exact failed world metadata kind (Prod.ext done.1 done.2.1)
  unfold reconcileDownload at returned
  split at returned
  · cases returned
  · cases returned
  next metadata loaded =>
    split at returned
    · cases returned
    split at returned
    next content partFile _ =>
      split at returned
      · exact absurd returned (early _ _ _)
      next totalLength length =>
        split at returned
        · cases returned
        next recovered opened =>
          simp only [Attempt.mk.injEq] at returned
          obtain ⟨result, left, rfl⟩ := returned
          have measured := (open_existing_extent opened).1
          have whole : reconcileJournal crc32c { world with partFile := some recovered.content } id
              metadata totalLength recovered io nowMs = (.ok reconciled, next) :=
            Prod.ext result left
          have repaired := recover_journal_end crc32c world.journal io.journal
          simp only [reconcileJournal] at whole
          generalize recoverJournal crc32c world.journal io.journal = repair at whole repaired
          cases repaired with
          | missing gone =>
            simp only [notFoundError, ↓reduceIte] at whole
            exact Or.inl ⟨gone, by rw [(persist_ok whole).1]⟩
          | refused _ error => exact absurd whole (failed _ _ _)
          | failed error device =>
            simp only [device, ↓reduceIte] at whole
            cases whole
          | unsynced _ _ error device =>
            simp only [device, ↓reduceIte] at whole
            cases whole
          | recovered bytes outcome found ok =>
            obtain ⟨state, merged, result⟩ := records_replayed crc32c whole paused
              (show _ = world.store from rfl) found partFile measured ok
            exact Or.inr ⟨bytes, content, outcome, state, merged, by rw [measured], result⟩
    next => exact absurd returned (early _ _ _)

theorem paused_exact
    (returned : reconcileDownload crc32c world id io nowMs = ⟨.ok reconciled, next, observed⟩)
    (paused : reconciled.state = .paused) (present : world.journal = some bytes) :
    ∃ observedLength outcome state, observed = some observedLength ∧
      replayBytes crc32c bytes = .ok outcome ∧
      effectiveState outcome.header outcome.records = .ok state ∧
      MapExact state observedLength reconciled.intervals reconciled.coveredBytes ∧
      reconciled.sealed = state.sealed ∧ reconciled.nextSequence = outcome.records.length := by
  rcases paused_replayed crc32c returned paused with ⟨missing, _⟩ |
    ⟨_, content, outcome, state, merged, seen, result⟩
  · rw [present] at missing
    cases missing
  · obtain rfl := Option.some.inj (present.symm.trans result.journal)
    exact ⟨content.length, outcome, state, seen, result.replayed, result.accepted,
      result.counted ▸ rebuilt_exact (effective_state_accepted result.accepted) result.rebuilt,
      result.sealing, result.nextSequence⟩

end Calls

/-! Two calls over worlds that differ in the checkpoint row. -/

def apartFromCheckpoint (reconciled : Reconciliation) : Reconciliation :=
  { reconciled with divergence := .noCheckpoint }

section Checkpoint
variable (checkpoint : CheckpointRow) (failure : Option MetadataError)

def withCheckpoint (world : World) : World :=
  { world with store := { world.store with checkpoint := checkpoint } }

def withLoad (io : ReconcileIo) : ReconcileIo := { io with loadCheckpoint := failure }

theorem save_download_apart (world : World) (metadata : DownloadMetadata)
    (outcome : Option MetadataError) :
    (withCheckpoint checkpoint world).store.saveDownload metadata outcome =
      (world.store.saveDownload metadata outcome).map fun store => { store with checkpoint } := by
  unfold Store.saveDownload
  cases validateMetadata metadata with
  | error error => rfl
  | ok passed =>
    cases outcome with
    | some error => rfl
    | none => rfl

theorem fail_apart (world : World) (metadata : DownloadMetadata) (kind : FailureKind)
    (io : ReconcileIo) (nowMs : Nat) :
    (fail (withCheckpoint checkpoint world) metadata kind (withLoad failure io) nowMs).1 =
      (fail world metadata kind io nowMs).1 := by
  unfold fail
  simp only [save_download_apart, withLoad]
  cases world.store.saveDownload _ io.saveDownload with
  | error error => rfl
  | ok store => rfl

theorem save_checkpoint_apart (store : Store) (journalSequence writtenAtMs : Nat)
    (saved : Checkpoint) (outcome : Option MetadataError) :
    ({ store with checkpoint } : Store).saveCheckpoint journalSequence writtenAtMs saved outcome =
      store.saveCheckpoint journalSequence writtenAtMs saved outcome := rfl

theorem persist_apart (world : World) (metadata : DownloadMetadata) (reconciled : Reconciliation)
    (divergence : CheckpointDivergence) (effectiveLength nowMs : Nat) (io : ReconcileIo) :
    (persist (withCheckpoint checkpoint world) metadata { reconciled with divergence }
        effectiveLength (withLoad failure io) nowMs).1.map apartFromCheckpoint =
      (persist world metadata reconciled effectiveLength io nowMs).1.map apartFromCheckpoint := by
  unfold persist
  simp only [save_download_apart, withLoad, persistedRow]
  cases world.store.saveDownload _ io.saveDownload with
  | error error => rfl
  | ok store =>
    simp only [Except.map, save_checkpoint_apart]
    cases Checkpoint.tryNew effectiveLength (runsOf .complete reconciled.intervals.intervals) with
    | error error => rfl
    | ok saved =>
      simp only
      cases store.saveCheckpoint reconciled.nextSequence nowMs saved io.saveCheckpoint with
      | error error => rfl
      | ok cached => rfl

theorem reconcile_records_apart (world : World) (id : DownloadId) (metadata : DownloadMetadata)
    (totalLength : Nat) (recovered : RecoveredPartFile) (replayed : ReplayOutcome)
    (io : ReconcileIo) (nowMs : Nat) :
    (reconcileRecords (withCheckpoint checkpoint world) id metadata totalLength recovered replayed
        (withLoad failure io) nowMs).1.map apartFromCheckpoint =
      (reconcileRecords world id metadata totalLength recovered replayed io nowMs).1.map
        apartFromCheckpoint := by
  unfold reconcileRecords
  by_cases matching : replayed.header.transferId ≠ id ∨ replayed.header.totalLength.toNat ≠ totalLength
  · rw [if_pos matching, if_pos matching, fail_apart]
  rw [if_neg matching, if_neg matching]
  by_cases counted : replayed.records.length ≥ 2 ^ 64
  · rw [if_pos counted, if_pos counted]
  rw [if_neg counted, if_neg counted]
  cases effectiveState replayed.header replayed.records with
  | error error => simp only [fail_apart]
  | ok state =>
    simp only
    cases mergeAdjacent [] (state.blocks.filter (survives recovered.observedLength)) with
    | error error => rfl
    | ok merged =>
      simp only
      cases completeRanges (IntervalMap.new state.effectiveLength) 0 merged with
      | error error => rfl
      | ok built =>
        exact persist_apart checkpoint failure world metadata
          (replayedReconciliation recovered totalLength replayed state built.1 built.2
            (compareCheckpoint world.store io.loadCheckpoint built.2 merged))
          (compareCheckpoint (withCheckpoint checkpoint world).store failure built.2 merged)
          state.effectiveLength nowMs io

theorem reconcile_journal_apart (crc32c : List UInt8 → UInt32) (world : World) (id : DownloadId)
    (metadata : DownloadMetadata) (totalLength : Nat) (recovered : RecoveredPartFile)
    (io : ReconcileIo) (nowMs : Nat) :
    (reconcileJournal crc32c (withCheckpoint checkpoint world) id metadata totalLength recovered
        (withLoad failure io) nowMs).1.map apartFromCheckpoint =
      (reconcileJournal crc32c world id metadata totalLength recovered io nowMs).1.map
        apartFromCheckpoint := by
  have repaired : recoverJournal crc32c (withCheckpoint checkpoint world).journal
      (withLoad failure io).journal = recoverJournal crc32c world.journal io.journal := rfl
  have moved : ∀ left, ({ withCheckpoint checkpoint world with journal := left } : World) =
      withCheckpoint checkpoint { world with journal := left } := fun _ => rfl
  simp only [reconcileJournal, repaired, moved]
  cases (recoverJournal crc32c world.journal io.journal).1 with
  | error error =>
    cases error with
    | format damage => simp only [fail_apart]
    | io source =>
      simp only
      by_cases gone : source.kind = .notFound
      · simp only [gone, ↓reduceIte]
        exact persist_apart checkpoint failure
          { world with journal := (recoverJournal crc32c world.journal io.journal).2 } metadata
          ⟨.paused, none, IntervalMap.new totalLength, 0, 0, none, .noCheckpoint,
            partFileExtent recovered totalLength, false, recovered.spaceReserved⟩
          .noCheckpoint totalLength nowMs io
      · simp only [gone, ↓reduceIte, Except.map]
  | ok replayed => simp only [reconcile_records_apart]

theorem reconcile_apart (crc32c : List UInt8 → UInt32) (world : World) (id : DownloadId)
    (io : ReconcileIo) (nowMs : Nat) :
    (reconcileDownload crc32c (withCheckpoint checkpoint world) id (withLoad failure io)
        nowMs).result.map apartFromCheckpoint =
      (reconcileDownload crc32c world id io nowMs).result.map apartFromCheckpoint := by
  have loaded : (withCheckpoint checkpoint world).store.loadDownload (withLoad failure io).loadDownload =
      world.store.loadDownload io.loadDownload := rfl
  have moved : ∀ content, ({ withCheckpoint checkpoint world with partFile := content } : World) =
      withCheckpoint checkpoint { world with partFile := content } := fun _ => rfl
  have partFile : (withCheckpoint checkpoint world).partFile = world.partFile := rfl
  have hidden : (withLoad failure io).partHidden = io.partHidden := rfl
  have part : (withLoad failure io).part = io.part := rfl
  simp only [reconcileDownload, loaded, moved, partFile, hidden, part]
  cases world.store.loadDownload io.loadDownload with
  | error error => rfl
  | ok found =>
    cases found with
    | none => rfl
    | some metadata =>
      simp only
      by_cases ended : metadata.state.terminal = true
      · simp only [ended, ↓reduceIte, Attempt.before, Except.map]
      simp only [ended, Bool.false_eq_true, ↓reduceIte]
      cases world.partFile with
      | none => simp only [Attempt.before, fail_apart]
      | some content =>
        cases io.partHidden with
        | true => simp only [Attempt.before, fail_apart]
        | false =>
          cases metadata.totalLength with
          | none => simp only [Attempt.before, fail_apart]
          | some totalLength =>
            simp only
            cases openExisting metadata.partPath content totalLength io.part with
            | error error => simp only [Attempt.before, Except.map]
            | ok recovered => simp only [reconcile_journal_apart]

end Checkpoint

/-- Behind the journal checks a reconcile cannot fail on its map. The map of a paused
download is exactly what the accepted blocks inside the part file cover, with the
count and the rest read from the journal alone; the checkpoint row changes none of it. -/
theorem recovery_map_exact (crc32c : List UInt8 → UInt32) (id : DownloadId) :
    (∀ world metadata totalLength recovered replayed state io nowMs,
      replayed.header.transferId = id → replayed.header.totalLength.toNat = totalLength →
      replayed.records.length < 2 ^ 64 →
      effectiveState replayed.header replayed.records = .ok state →
      ∃ intervals coveredBytes merged,
        MapExact state recovered.observedLength intervals coveredBytes ∧
        reconcileRecords world id metadata totalLength recovered replayed io nowMs =
          persist world metadata
            (replayedReconciliation recovered totalLength replayed state intervals coveredBytes
              (compareCheckpoint world.store io.loadCheckpoint coveredBytes merged))
            state.effectiveLength io nowMs) ∧
    (∀ world io nowMs reconciled next observed bytes,
      reconcileDownload crc32c world id io nowMs = ⟨.ok reconciled, next, observed⟩ →
      reconciled.state = .paused → world.journal = some bytes →
      ∃ observedLength outcome state, observed = some observedLength ∧
        replayBytes crc32c bytes = .ok outcome ∧
        effectiveState outcome.header outcome.records = .ok state ∧
        MapExact state observedLength reconciled.intervals reconciled.coveredBytes ∧
        reconciled.sealed = state.sealed ∧ reconciled.nextSequence = outcome.records.length) ∧
    ∀ world io nowMs checkpoint failure,
      (reconcileDownload crc32c (withCheckpoint checkpoint world) id (withLoad failure io)
          nowMs).result.map apartFromCheckpoint =
        (reconcileDownload crc32c world id io nowMs).result.map apartFromCheckpoint := by
  refine ⟨?_, ?_, ?_⟩
  · intro world metadata totalLength recovered replayed state io nowMs owner length counted accepted
    obtain ⟨merged, intervals, built, same⟩ := reconcile_records_rebuilt world metadata recovered
      io nowMs owner length counted accepted
    exact ⟨intervals, _, merged, rebuilt_exact (effective_state_accepted accepted) built, same⟩
  · intro world io nowMs reconciled next observed bytes returned paused present
    exact paused_exact crc32c returned paused present
  · intro world io nowMs checkpoint failure
    exact reconcile_apart checkpoint failure crc32c world id io nowMs

end Downpour.RecoveryMap
