import Downpour.JournalRepair
import Downpour.JournalState
import Downpour.Metadata
import Downpour.PartFile

/-!
Reconciling one download after an unclean shutdown. The world of a download is
its store rows, its part file and its journal; a call of `reconcile_download`
takes the outcomes of the I/O it may perform and returns its result, the world it
leaves and the part-file length it found. The world belongs to one download, so
the id enters only where the journal header is compared with it.
-/

namespace Downpour.Recovery
open Segments Intervals JournalFormat JournalReplay JournalRepair JournalState PartFile Metadata

abbrev DownloadId := List.Vector UInt8 16

def recoveryWorker : WorkerId := 2 ^ 64 - 1

inductive CheckpointDivergence where
  | noCheckpoint
  | checkpointUnreadable
  | agreed
  | journalAhead (journalCoveredBytes sqliteCoveredBytes : Nat)
  | sqliteAhead (journalCoveredBytes sqliteCoveredBytes : Nat)
  | sameCoverageDifferentIntervals (coveredBytes : Nat)
  deriving DecidableEq, Repr

inductive PartFileExtent where
  | intact
  | reextended (observedLength totalLength : Nat)
  | overlong (observedLength totalLength : Nat)
  deriving DecidableEq, Repr

/-- The failures that end a download; `text` is the stored error kind. -/
inductive FailureKind where
  | partFileMissing
  | lengthUnknown
  | journalUnreadable
  | journalMismatched
  | journalInvalid
  deriving DecidableEq, Repr

def FailureKind.text : FailureKind → String
  | .partFileMissing => "storage.part-file-missing"
  | .lengthUnknown => "storage.length-unknown"
  | .journalUnreadable => "storage.journal-unreadable"
  | .journalMismatched => "storage.journal-mismatched"
  | .journalInvalid => "storage.journal-invalid"

structure Reconciliation where
  state : DownloadState
  errorKind : Option String
  intervals : IntervalMap
  coveredBytes : Nat
  nextSequence : Nat
  sealed : Option Digest
  divergence : CheckpointDivergence
  extent : PartFileExtent
  journalTailRepaired : Bool
  spaceReserved : Bool
  deriving DecidableEq

inductive RecoveryError where
  | unknownDownload
  | alreadyTerminal (state : DownloadState)
  | metadata (error : MetadataError)
  | partFile (error : PartFileError)
  | io (error : IoError)
  | interval (error : IntervalMapError)
  deriving DecidableEq

structure World where
  store : Store
  partFile : Option (List UInt8)
  journal : Option (List UInt8)
  deriving DecidableEq

/-- The outcomes of the I/O of one call. `partHidden` makes `exists` answer no
for a part file that is there. -/
structure ReconcileIo where
  loadDownload : Option MetadataError
  partHidden : Bool
  part : OpenIo
  journal : RepairIo
  loadCheckpoint : Option MetadataError
  saveDownload : Option MetadataError
  saveCheckpoint : Option MetadataError

def invalidData (message : String) : RecoveryError := .io ⟨.invalidData, none, message⟩

def mergeStep (merged : List Range) (start stop : Nat) : List Range :=
  match merged.getLast? with
  | some last =>
    if last.stop = start then merged.dropLast ++ [⟨last.start, stop⟩] else merged ++ [⟨start, stop⟩]
  | none => merged ++ [⟨start, stop⟩]

/-- The loop of `merge_adjacent`, with the ranges merged so far. -/
def mergeAdjacent : List Range → List CompletedBlock → Except RecoveryError (List Range)
  | merged, [] => .ok merged
  | merged, block :: rest =>
    match block.checkedEnd with
    | .error error => .error (invalidData error.detail)
    | .ok stop => mergeAdjacent (mergeStep merged block.start stop) rest

def completeRanges : IntervalMap → Nat → List Range → Except RecoveryError (IntervalMap × Nat)
  | intervals, covered, [] => .ok (intervals, covered)
  | intervals, covered, range :: rest =>
    match intervals.grant range recoveryWorker with
    | .error error => .error (.interval error)
    | .ok granted =>
      match granted.complete range recoveryWorker with
      | .error error => .error (.interval error)
      | .ok completed =>
        if covered + (range.stop - range.start) ≥ 2 ^ 64 then
          .error (invalidData "covered byte count overflows u64")
        else completeRanges completed (covered + (range.stop - range.start)) rest

def compareCheckpoint (store : Store) (failure : Option MetadataError) (journalCoveredBytes : Nat)
    (merged : List Range) : CheckpointDivergence :=
  match store.loadCheckpoint failure with
  | .ok (some cached) =>
    let sqliteCoveredBytes := cached.checkpoint.coveredBytes
    if sqliteCoveredBytes = journalCoveredBytes then
      if cached.checkpoint.intervals = merged then .agreed
      else .sameCoverageDifferentIntervals journalCoveredBytes
    else if sqliteCoveredBytes < journalCoveredBytes then
      .journalAhead journalCoveredBytes sqliteCoveredBytes
    else .sqliteAhead journalCoveredBytes sqliteCoveredBytes
  | .ok none => .noCheckpoint
  | .error _ => .checkpointUnreadable

def fail (world : World) (metadata : DownloadMetadata) (kind : FailureKind) (io : ReconcileIo)
    (nowMs : Nat) : Except RecoveryError Reconciliation × World :=
  let failed : DownloadMetadata := { metadata with
    state := .failed
    errorKind := some kind.text
    coveredBytes := 0
    updatedAtMs := nowMs }
  match world.store.saveDownload failed io.saveDownload with
  | .error error => (.error (.metadata error), world)
  | .ok store =>
    (.ok {
      state := .failed
      errorKind := some kind.text
      intervals := IntervalMap.new (metadata.totalLength.getD 0)
      coveredBytes := 0
      nextSequence := 0
      «sealed» := none
      divergence := .noCheckpoint
      extent := .intact
      journalTailRepaired := false
      spaceReserved := false }, { world with store })

def persistedRow (metadata : DownloadMetadata) (reconciled : Reconciliation)
    (effectiveLength nowMs : Nat) : DownloadMetadata :=
  { metadata with
    rangeSupport := if metadata.totalLength ≠ some effectiveLength then .unknown
      else metadata.rangeSupport
    state := reconciled.state
    errorKind := none
    totalLength := some effectiveLength
    coveredBytes := reconciled.coveredBytes
    spaceReserved := reconciled.spaceReserved
    updatedAtMs := nowMs }

def persist (world : World) (metadata : DownloadMetadata) (reconciled : Reconciliation)
    (effectiveLength : Nat) (io : ReconcileIo) (nowMs : Nat) :
    Except RecoveryError Reconciliation × World :=
  match world.store.saveDownload (persistedRow metadata reconciled effectiveLength nowMs)
      io.saveDownload with
  | .error error => (.error (.metadata error), world)
  | .ok store =>
    match Checkpoint.tryNew effectiveLength (runsOf .complete reconciled.intervals.intervals) with
    | .error error => (.error (.metadata error), { world with store })
    | .ok checkpoint =>
      match store.saveCheckpoint reconciled.nextSequence nowMs checkpoint io.saveCheckpoint with
      | .error error => (.error (.metadata error), { world with store })
      | .ok cached => (.ok reconciled, { world with store := cached })

def partFileExtent (recovered : RecoveredPartFile) (totalLength : Nat) : PartFileExtent :=
  if recovered.reextended then .reextended recovered.observedLength totalLength
  else if recovered.observedLength > totalLength then
    .overlong recovered.observedLength totalLength
  else .intact

section Reconcile
variable (crc32c : List UInt8 → UInt32)

/-- A block that the part file still held when it was measured. -/
def survives (observedLength : Nat) (block : CompletedBlock) : Bool :=
  match block.checkedEnd with
  | .ok stop => decide (stop ≤ observedLength)
  | .error _ => false

/-- The reconciliation of a download whose journal was replayed. -/
def replayedReconciliation (recovered : RecoveredPartFile) (totalLength : Nat)
    (replayed : ReplayOutcome) (state : EffectiveState) (intervals : IntervalMap)
    (coveredBytes : Nat) (divergence : CheckpointDivergence) : Reconciliation where
  state := .paused
  errorKind := none
  intervals := intervals
  coveredBytes := coveredBytes
  nextSequence := replayed.records.length
  «sealed» := state.sealed
  divergence := divergence
  extent := partFileExtent recovered totalLength
  journalTailRepaired := decide (replayed.stop ≠ .cleanEof)
  spaceReserved := recovered.spaceReserved

def reconcileRecords (world : World) (id : DownloadId) (metadata : DownloadMetadata)
    (totalLength : Nat) (recovered : RecoveredPartFile) (replayed : ReplayOutcome)
    (io : ReconcileIo) (nowMs : Nat) : Except RecoveryError Reconciliation × World :=
  if replayed.header.transferId ≠ id ∨ replayed.header.totalLength.toNat ≠ totalLength then
    fail world metadata .journalMismatched io nowMs
  else if replayed.records.length ≥ 2 ^ 64 then
    (.error (invalidData "journal record count overflows u64"), world)
  else match effectiveState replayed.header replayed.records with
    | .error _ => fail world metadata .journalInvalid io nowMs
    | .ok state =>
      match mergeAdjacent [] (state.blocks.filter (survives recovered.observedLength)) with
      | .error error => (.error error, world)
      | .ok merged =>
        match completeRanges (IntervalMap.new state.effectiveLength) 0 merged with
        | .error error => (.error error, world)
        | .ok (intervals, coveredBytes) =>
          persist world metadata
            (replayedReconciliation recovered totalLength replayed state intervals coveredBytes
              (compareCheckpoint world.store io.loadCheckpoint coveredBytes merged))
            state.effectiveLength io nowMs

def reconcileJournal (world : World) (id : DownloadId) (metadata : DownloadMetadata)
    (totalLength : Nat) (recovered : RecoveredPartFile) (io : ReconcileIo) (nowMs : Nat) :
    Except RecoveryError Reconciliation × World :=
  let repaired := recoverJournal crc32c world.journal io.journal
  let world := { world with journal := repaired.2 }
  match repaired.1 with
  | .error (.format _) => fail world metadata .journalUnreadable io nowMs
  | .error (.io source) =>
    if source.kind = .notFound then
      persist world metadata {
        state := .paused
        errorKind := none
        intervals := IntervalMap.new totalLength
        coveredBytes := 0
        nextSequence := 0
        «sealed» := none
        divergence := .noCheckpoint
        extent := partFileExtent recovered totalLength
        journalTailRepaired := false
        spaceReserved := recovered.spaceReserved } totalLength io nowMs
    else (.error (.io source), world)
  | .ok replayed => reconcileRecords world id metadata totalLength recovered replayed io nowMs

/-- What a call returns and leaves. `observed` is the part-file length the call
measured before it restored the extent. -/
structure Attempt where
  result : Except RecoveryError Reconciliation
  world : World
  observed : Option Nat

def Attempt.before (outcome : Except RecoveryError Reconciliation × World) : Attempt :=
  ⟨outcome.1, outcome.2, none⟩

def reconcileDownload (world : World) (id : DownloadId) (io : ReconcileIo) (nowMs : Nat) : Attempt :=
  match world.store.loadDownload io.loadDownload with
  | .error error => .before (.error (.metadata error), world)
  | .ok none => .before (.error .unknownDownload, world)
  | .ok (some metadata) =>
    if metadata.state.terminal then
      .before (.error (.alreadyTerminal metadata.state), world)
    else match world.partFile, io.partHidden with
      | some content, false =>
        match metadata.totalLength with
        | none => .before (fail world metadata .lengthUnknown io nowMs)
        | some totalLength =>
          match openExisting metadata.partPath content totalLength io.part with
          | .error error => .before (.error (.partFile error), world)
          | .ok recovered =>
            let outcome := reconcileJournal crc32c
              { world with partFile := some recovered.content } id metadata totalLength
              recovered io nowMs
            ⟨outcome.1, outcome.2, some recovered.observedLength⟩
      | _, _ => .before (fail world metadata .partFileMissing io nowMs)

end Reconcile

/-! The rebuilt map: merged ranges are maximal runs of the surviving blocks. -/

theorem merge_step_separated {merged : List Range} {start stop : Nat} (positive : start < stop)
    (separated : Separated merged) (behind : ∀ range ∈ merged, range.stop ≤ start) :
    Separated (mergeStep merged start stop) ∧
      (∀ range ∈ mergeStep merged start stop, range.stop ≤ stop) ∧
      ∀ pos, Covered (mergeStep merged start stop) pos ↔
        Covered merged pos ∨ (start ≤ pos ∧ pos < stop) := by
  rcases List.eq_nil_or_concat merged with rfl | ⟨front, last, rfl⟩
  · have shape : mergeStep [] start stop = [] ++ [⟨start, stop⟩] := rfl
    rw [shape, separated_concat]
    exact ⟨⟨separated, positive, by simp⟩, by simp, fun pos => covered_concat [] _ pos⟩
  · rw [List.concat_eq_append] at *
    obtain ⟨frontSeparated, lastPositive, crossing⟩ := (separated_concat front last).mp separated
    have lastBehind := behind last (by simp)
    have frontBehind : ∀ range ∈ front, range.stop ≤ stop := fun range mem =>
      (behind range (List.mem_append_left _ mem)).trans positive.le
    by_cases touching : last.stop = start
    · have shape : mergeStep (front ++ [last]) start stop = front ++ [⟨last.start, stop⟩] := by
        simp [mergeStep, touching]
      rw [shape, separated_concat]
      refine ⟨⟨frontSeparated, lastPositive.trans (lastBehind.trans_lt positive), crossing⟩, ?_, ?_⟩
      · simpa [or_imp, forall_and] using frontBehind
      · intro pos
        rw [covered_concat, covered_concat, or_assoc]
        apply or_congr_right
        simp only
        omega
    · have shape : mergeStep (front ++ [last]) start stop = front ++ [last] ++ [⟨start, stop⟩] := by
        simp [mergeStep, touching]
      rw [shape, separated_concat]
      refine ⟨⟨separated, positive, ?_⟩, ?_, fun pos => covered_concat _ _ pos⟩
      · intro range mem
        rcases List.mem_append.mp mem with old | new
        · exact (crossing range old).trans (lastPositive.trans_le lastBehind)
        · rw [List.mem_singleton.mp new]
          exact lt_of_le_of_ne lastBehind touching
      · intro range mem
        rcases List.mem_append.mp mem with old | new
        · exact (behind range old).trans positive.le
        · rw [List.mem_singleton.mp new]

/-- Blocks of an accepted journal, or some of them, in their order. -/
structure Ordered (limit : Nat) (blocks : List CompletedBlock) : Prop where
  bounded : limit < 2 ^ 64
  fits : ∀ block ∈ blocks, Fits limit block
  ordered : blocks.Pairwise fun left right => left.stop ≤ right.start

theorem merge_adjacent_separated {limit : Nat} {merged : List Range} {blocks : List CompletedBlock}
    (ordered : Ordered limit blocks) (separated : Separated merged)
    (inside : ∀ range ∈ merged, range.stop ≤ limit)
    (behind : ∀ range ∈ merged, ∀ block ∈ blocks, range.stop ≤ block.start) :
    ∃ ranges, mergeAdjacent merged blocks = .ok ranges ∧ Separated ranges ∧
      (∀ range ∈ ranges, range.stop ≤ limit) ∧
      ∀ pos, Covered ranges pos ↔
        Covered merged pos ∨ ∃ block ∈ blocks, block.Covers pos := by
  induction blocks generalizing merged with
  | nil => exact ⟨merged, rfl, separated, inside, by simp⟩
  | cons block rest ih =>
    have fits := ordered.fits block List.mem_cons_self
    have positive : block.start < block.stop := by
      have wide := fits.positive
      unfold CompletedBlock.start CompletedBlock.stop
      omega
    have representable : block.checkedEnd = .ok block.stop :=
      if_pos (Nat.lt_of_le_of_lt fits.inside ordered.bounded)
    obtain ⟨stepSeparated, stepInside, stepCovers⟩ := merge_step_separated positive separated fun range mem => behind range mem block List.mem_cons_self
    obtain ⟨first, later⟩ := List.pairwise_cons.mp ordered.ordered
    obtain ⟨ranges, result, resultSeparated, resultInside, covers⟩ := ih
      ⟨ordered.bounded, fun other mem => ordered.fits other (List.mem_cons_of_mem _ mem), later⟩
      stepSeparated (fun range mem => (stepInside range mem).trans fits.inside)
      (fun range mem other next => (stepInside range mem).trans (first other next))
    refine ⟨ranges, ?_, resultSeparated, resultInside, ?_⟩
    · rw [mergeAdjacent, representable]
      exact result
    · intro pos
      rw [covers, stepCovers]
      simp [CompletedBlock.Covers, or_assoc]

theorem complete_ranges_moves (intervals : IntervalMap) (covered : Nat)
    (bounded : intervals.totalLength < 2 ^ 64) (counted : covered = intervals.completeBytes)
    (separated : Separated ranges) (inside : ∀ range ∈ ranges, range.stop ≤ intervals.totalLength)
    (pending : ∀ pos, Covered ranges pos → intervals.stateAt pos = some .pending) :
    ∃ result : IntervalMap, completeRanges intervals covered ranges = .ok (result, result.completeBytes) ∧
      result.totalLength = intervals.totalLength ∧
      (∀ pos, Covered ranges pos → result.stateAt pos = some .complete) ∧
      ∀ pos, ¬ Covered ranges pos →
        result.stateAt pos = intervals.stateAt pos := by
  induction ranges generalizing intervals covered with
  | nil =>
    refine ⟨intervals, ?_, rfl, by simp [Covered], fun _ _ => rfl⟩
    rw [completeRanges, counted]
  | cons range rest ih =>
    have positive := separated.positive range List.mem_cons_self
    have within := inside range List.mem_cons_self
    obtain ⟨granted, grantOk⟩ := intervals.grant_pending range recoveryWorker positive within
      fun pos lower upper => pending pos ((covered_cons _ _ _).mpr (Or.inl ⟨lower, upper⟩))
    have grants := intervals.grant_moves granted recoveryWorker grantOk
    obtain ⟨completed, completeOk⟩ := granted.complete_owned range positive
      (by rw [grants.totalLength]; exact within) (by
        intro pos lower upper
        rw [grants.reads, if_pos ⟨lower, upper⟩])
    have completes := granted.complete_moves completed range recoveryWorker completeOk
    have sameBytes : granted.completeBytes = intervals.completeBytes :=
      IntervalMap.complete_bytes_same intervals grants.totalLength fun pos =>
        grants.unchanged pos .complete (by simp) (by simp)
    have moreBytes := IntervalMap.complete_bytes_moves completes (by simp)
    have sameLength : completed.totalLength = intervals.totalLength := by
      rw [completes.totalLength, grants.totalLength]
    have most := completed.complete_bytes_le
    have reads : ∀ pos, completed.stateAt pos =
        if range.start ≤ pos ∧ pos < range.stop then some .complete
        else intervals.stateAt pos := by
      intro pos
      rw [completes.reads, grants.reads]
      split_ifs <;> rfl
    obtain ⟨result, resultOk, resultLength, resultComplete, resultKept⟩ :=
      ih completed (covered + (range.stop - range.start)) (by rw [sameLength]; exact bounded)
        (by rw [moreBytes, sameBytes, counted]) (separated_tail separated)
        (fun other mem => by
          rw [sameLength]
          exact inside other (List.mem_cons_of_mem _ mem))
        (fun pos later => by
          have beyond := covered_behind separated later
          rw [reads, if_neg (by omega)]
          exact pending pos ((covered_cons _ _ _).mpr (Or.inr later)))
    refine ⟨result, ?_, by rw [resultLength, sameLength], ?_, ?_⟩
    · rw [completeRanges, grantOk]
      simp only [completeOk]
      rw [if_neg (by omega), resultOk]
    · intro pos held
      rcases (covered_cons _ _ _).mp held with first | later
      · by_cases twice : Covered rest pos
        · exact resultComplete pos twice
        · rw [resultKept pos twice, reads, if_pos first]
      · exact resultComplete pos later
    · intro pos missed
      rw [covered_cons, not_or] at missed
      rw [resultKept pos missed.2, reads, if_neg missed.1]

/-- What the two loops of `reconcile_download` build from ordered blocks. -/
structure Rebuilt (length : Nat) (blocks : List CompletedBlock) (merged : List Range)
    (intervals : IntervalMap) : Prop where
  mergedOk : mergeAdjacent [] blocks = .ok merged
  completedOk : completeRanges (IntervalMap.new length) 0 merged =
    .ok (intervals, intervals.completeBytes)
  totalLength : intervals.totalLength = length
  complete : ∀ pos, intervals.stateAt pos = some .complete ↔
    ∃ block ∈ blocks, block.Covers pos
  pending : ∀ pos, pos < length → intervals.stateAt pos ≠ some .complete →
    intervals.stateAt pos = some .pending
  runs : runsOf .complete intervals.intervals = merged

theorem new_complete_bytes (length : Nat) : (IntervalMap.new length).completeBytes = 0 := by
  simp [IntervalMap.completeBytes, IntervalMap.new_state]

theorem blocks_rebuild (ordered : Ordered length blocks) :
    ∃ merged intervals, Rebuilt length blocks merged intervals := by
  obtain ⟨merged, mergedOk, separated, inside, covers⟩ :=
    merge_adjacent_separated ordered separated_nil (by simp) (by simp)
  have below : ∀ pos, Covered merged pos → pos < length := by
    rintro pos ⟨range, mem, _, upper⟩
    exact upper.trans_le (inside range mem)
  obtain ⟨intervals, completedOk, totalLength, complete, kept⟩ :=
    complete_ranges_moves (IntervalMap.new length) 0 ordered.bounded
      (new_complete_bytes length).symm separated inside (by
        intro pos held
        rw [IntervalMap.new_state, if_pos (below pos held)])
  have exact : ∀ pos, intervals.stateAt pos = some .complete ↔
      Covered merged pos := by
    intro pos
    constructor
    · intro held
      by_contra missed
      rw [kept pos missed, IntervalMap.new_state] at held
      split at held <;> cases held
    · exact complete pos
  refine ⟨merged, intervals, mergedOk, completedOk, totalLength, ?_, ?_, ?_⟩
  · intro pos
    rw [exact, covers]
    simp [Covered]
  · intro pos inFile incomplete
    have missed : ¬ Covered merged pos := fun held => incomplete (complete pos held)
    rw [kept pos missed, IntervalMap.new_state, if_pos inFile]
  · apply separated_unique _ (runs_separated _ intervals.partitions intervals.merged) separated
    intro pos
    rw [runs_covered _ intervals.partitions, ← exact]
    rfl

end Downpour.Recovery
