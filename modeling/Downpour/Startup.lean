import Downpour.RecoverySteps
import Downpour.Support.Footprints

/-!
Startup recovery of all downloads. The machine is one store with the rows of every
download and one file system; `recover_all` walks over the rows and reconciles one
download after the other on it. The model of a single reconcile works on the world of its
download, and here the same calls go to the shared machine: a statement of the store has
the id of its rows for key, and a file is named by its path. I/O outcomes are given for
each download; free space on a shared disk is not modelled, nor are the log lines.
-/

namespace Downpour.Startup
open Segments Intervals JournalFormat JournalReplay JournalRepair JournalState PartFile Metadata
open Recovery RecoverySteps Footprints

/-- `DownloadId::try_from_bytes`: the version and the variant bits of a UUIDv7. -/
def tryFromBytes (bytes : DownloadId) : Except MetadataError DownloadId :=
  if bytes[6] >>> 4 ≠ 7 then .error (.invalidDownloadId "UUID version bits are not 7")
  else if bytes[8] &&& 0xc0 ≠ 0x80 then
    .error (.invalidDownloadId "UUID variant bits are not RFC 4122")
  else .ok bytes

def downloadIdFromSlice (bytes : List UInt8) : Except MetadataError DownloadId :=
  if size : bytes.length = 16 then tryFromBytes ⟨bytes, size⟩
  else .error (.invalidDownloadId "identifier is not exactly 16 bytes")

/-- The tables of the store; `id` is the primary key of `downloads`, and the schema lets
only values of 16 bytes in. -/
structure Database where
  ids : List DownloadId
  download : DownloadId → Option DownloadMetadata
  checkpoint : DownloadId → CheckpointRow
  unique : ids.Nodup
  listed : ∀ id, id ∈ ids ↔ (download id).isSome = true

namespace Database

def rows (database : Database) (id : DownloadId) : Store :=
  ⟨database.download id, database.checkpoint id⟩

def setDownload (database : Database) (id : DownloadId) (metadata : DownloadMetadata) : Database where
  ids := database.ids.insert id
  download := Function.update database.download id (some metadata)
  checkpoint := database.checkpoint
  unique := database.unique.insert
  listed other := by
    rw [List.mem_insert_iff, database.listed, Function.update_apply]
    by_cases same : other = id <;> simp [same]

def setCheckpoint (database : Database) (id : DownloadId) (row : CheckpointRow) : Database :=
  { database with checkpoint := Function.update database.checkpoint id row }

def loadDownload (database : Database) (id : DownloadId) (failure : Option MetadataError) :
    Except MetadataError (Option DownloadMetadata) :=
  (database.rows id).loadDownload failure

def saveDownload (database : Database) (id : DownloadId) (metadata : DownloadMetadata)
    (failure : Option MetadataError) : Except MetadataError Database :=
  match validateMetadata metadata with
  | .error error => .error error
  | .ok () =>
    match failure with
    | some error => .error error
    | none => .ok (database.setDownload id metadata)

def saveCheckpoint (database : Database) (id : DownloadId) (journalSequence writtenAtMs : Nat)
    (checkpoint : Checkpoint) (failure : Option MetadataError) : Except MetadataError Database := do
  let owningTotal ← (database.rows id).downloadTotalLength
  ensure (decide (checkpoint.totalLength = owningTotal))
    (.invalidCheckpoint "checkpoint total differs from owning download")
  sqliteU64 "journal_seq" journalSequence
  sqliteU64 "covered_bytes" checkpoint.coveredBytes
  sqliteU64 "written_at" writtenAtMs
  match failure with
  | some error => .error error
  | none => .ok (database.setCheckpoint id (.stored ⟨journalSequence, writtenAtMs, checkpoint⟩))

def idOrder (left right : DownloadId) : Prop :=
  left.toList.map UInt8.toNat ≤ right.toList.map UInt8.toNat

instance : DecidableRel idOrder := fun _ _ => inferInstanceAs (Decidable (_ ≤ _))

def loadEach (database : Database) (failure : DownloadId → Option MetadataError) :
    List DownloadId → Except MetadataError (List (DownloadId × DownloadMetadata))
  | [] => .ok []
  | bytes :: rest =>
    match downloadIdFromSlice bytes.toList with
    | .error error => .error error
    | .ok id =>
      match database.loadDownload id (failure id) with
      | .error error => .error error
      | .ok none => .error (.invalidValue "downloads.id")
      | .ok (some metadata) =>
        match loadEach database failure rest with
        | .error error => .error error
        | .ok later => .ok ((id, metadata) :: later)

/-- `load_downloads`; `listing` is the outcome of the query for the ids. -/
def loadDownloads (database : Database) (listing : Option MetadataError)
    (failure : DownloadId → Option MetadataError) :
    Except MetadataError (List (DownloadId × DownloadMetadata)) :=
  match listing with
  | some error => .error error
  | none => database.loadEach failure (database.ids.insertionSort idOrder)

end Database

structure Machine where
  store : Database
  files : String → Option (List UInt8)

def Machine.write (machine : Machine) (path : String) (content : Option (List UInt8)) : Machine :=
  { machine with files := Function.update machine.files path content }

/-! `reconcile_download` on the machine. -/

def fail (machine : Machine) (id : DownloadId) (metadata : DownloadMetadata) (kind : FailureKind)
    (io : ReconcileIo) (nowMs : Nat) : Except RecoveryError Reconciliation × Machine :=
  let failed : DownloadMetadata := { metadata with
    state := .failed
    errorKind := some kind.text
    coveredBytes := 0
    updatedAtMs := nowMs }
  match machine.store.saveDownload id failed io.saveDownload with
  | .error error => (.error (.metadata error), machine)
  | .ok store =>
    (.ok {
      state := .failed
      errorKind := some kind.text
      intervals := IntervalMap.new (metadata.totalLength.getD 0)
      coveredBytes := 0
      nextSequence := 0
      «sealed» := none
      divergence := .noCheckpoint
      extent := .intact
      journalTailRepaired := false
      spaceReserved := false }, { machine with store })

def persist (machine : Machine) (id : DownloadId) (metadata : DownloadMetadata)
    (reconciled : Reconciliation) (effectiveLength : Nat) (io : ReconcileIo) (nowMs : Nat) :
    Except RecoveryError Reconciliation × Machine :=
  match machine.store.saveDownload id (persistedRow metadata reconciled effectiveLength nowMs)
      io.saveDownload with
  | .error error => (.error (.metadata error), machine)
  | .ok store =>
    match Checkpoint.tryNew effectiveLength (runsOf .complete reconciled.intervals.intervals) with
    | .error error => (.error (.metadata error), { machine with store })
    | .ok checkpoint =>
      match store.saveCheckpoint id reconciled.nextSequence nowMs checkpoint io.saveCheckpoint with
      | .error error => (.error (.metadata error), { machine with store })
      | .ok cached => (.ok reconciled, { machine with store := cached })

def reconcileRecords (machine : Machine) (id : DownloadId) (metadata : DownloadMetadata)
    (totalLength : Nat) (recovered : RecoveredPartFile) (replayed : ReplayOutcome)
    (io : ReconcileIo) (nowMs : Nat) : Except RecoveryError Reconciliation × Machine :=
  if replayed.header.transferId ≠ id ∨ replayed.header.totalLength.toNat ≠ totalLength then
    fail machine id metadata .journalMismatched io nowMs
  else if replayed.records.length ≥ 2 ^ 64 then
    (.error (invalidData "journal record count overflows u64"), machine)
  else match effectiveState replayed.header replayed.records with
    | .error _ => fail machine id metadata .journalInvalid io nowMs
    | .ok state =>
      match mergeAdjacent [] (state.blocks.filter (survives recovered.observedLength)) with
      | .error error => (.error error, machine)
      | .ok merged =>
        match completeRanges (IntervalMap.new state.effectiveLength) 0 merged with
        | .error error => (.error error, machine)
        | .ok (intervals, coveredBytes) =>
          persist machine id metadata
            (replayedReconciliation recovered totalLength replayed state intervals coveredBytes
              (compareCheckpoint (machine.store.rows id) io.loadCheckpoint coveredBytes merged))
            state.effectiveLength io nowMs

section Recover
variable (crc32c : List UInt8 → UInt32)

def reconcileJournal (machine : Machine) (id : DownloadId) (journalPath : String)
    (metadata : DownloadMetadata) (totalLength : Nat) (recovered : RecoveredPartFile)
    (io : ReconcileIo) (nowMs : Nat) : Except RecoveryError Reconciliation × Machine :=
  let repaired := recoverJournal crc32c (machine.files journalPath) io.journal
  let machine := machine.write journalPath repaired.2
  match repaired.1 with
  | .error (.format _) => fail machine id metadata .journalUnreadable io nowMs
  | .error (.io source) =>
    if source.kind = .notFound then
      persist machine id metadata {
        state := .paused
        errorKind := none
        intervals := IntervalMap.new totalLength
        coveredBytes := 0
        nextSequence := 0
        «sealed» := none
        divergence := .noCheckpoint
        extent := partFileExtent recovered totalLength
        journalTailRepaired := false
        spaceReserved := recovered.spaceReserved } totalLength io nowMs
    else (.error (.io source), machine)
  | .ok replayed => reconcileRecords machine id metadata totalLength recovered replayed io nowMs

def reconcileDownload (machine : Machine) (id : DownloadId) (journalPath : String)
    (io : ReconcileIo) (nowMs : Nat) : Except RecoveryError Reconciliation × Machine :=
  match machine.store.loadDownload id io.loadDownload with
  | .error error => (.error (.metadata error), machine)
  | .ok none => (.error .unknownDownload, machine)
  | .ok (some metadata) =>
    if metadata.state.terminal then (.error (.alreadyTerminal metadata.state), machine)
    else match machine.files metadata.partPath, io.partHidden with
      | some content, false =>
        match metadata.totalLength with
        | none => fail machine id metadata .lengthUnknown io nowMs
        | some totalLength =>
          match openExisting metadata.partPath content totalLength io.part with
          | .error error => (.error (.partFile error), machine)
          | .ok recovered =>
            reconcileJournal crc32c (machine.write metadata.partPath (some recovered.content))
              id journalPath metadata totalLength recovered io nowMs
      | _, _ => fail machine id metadata .partFileMissing io nowMs

/-! `recover_all`. -/

structure RecoveredDownload where
  id : DownloadId
  outcome : Except RecoveryError Reconciliation

def RecoveredDownload.isRecovered (download : RecoveredDownload) : Bool :=
  match download.outcome with
  | .ok reconciled => decide (reconciled.state = .paused)
  | .error _ => false

structure RecoverySummary where
  downloads : List RecoveredDownload
  skipped : Nat

def RecoverySummary.recovered (summary : RecoverySummary) : Nat :=
  (summary.downloads.filter RecoveredDownload.isRecovered).length

def RecoverySummary.failed (summary : RecoverySummary) : Nat :=
  summary.downloads.length - summary.recovered

inductive StartupError where
  | metadata (error : MetadataError)
  deriving DecidableEq

/-- The outcomes of the I/O of one pass: the query for the ids, the load of each row in
`load_downloads`, and the I/O of each reconcile. -/
structure RecoverIo where
  listing : Option MetadataError
  loading : DownloadId → Option MetadataError
  reconcile : DownloadId → ReconcileIo

def hexByte (byte : UInt8) : String :=
  String.ofList [(byte.toNat / 16).digitChar, (byte.toNat % 16).digitChar]

/-- `journalDir` is the join of a file name to the directory. -/
def journalPathFor (journalDir : String → String) (id : DownloadId) : String :=
  journalDir (String.join (id.toList.map hexByte) ++ ".dpj")

def recoverEach (journalDir : String → String) (io : DownloadId → ReconcileIo) (nowMs : Nat) :
    Machine → RecoverySummary → List (DownloadId × DownloadMetadata) → RecoverySummary × Machine
  | machine, summary, [] => (summary, machine)
  | machine, summary, (id, metadata) :: rest =>
    if metadata.state.terminal then
      recoverEach journalDir io nowMs machine { summary with skipped := summary.skipped + 1 } rest
    else
      let outcome := reconcileDownload crc32c machine id (journalPathFor journalDir id) (io id) nowMs
      recoverEach journalDir io nowMs outcome.2
        { summary with downloads := summary.downloads ++ [⟨id, outcome.1⟩] } rest

def recoverAll (machine : Machine) (journalDir : String → String) (io : RecoverIo) (nowMs : Nat) :
    Except StartupError RecoverySummary × Machine :=
  match machine.store.loadDownloads io.listing io.loading with
  | .error error => (.error (.metadata error), machine)
  | .ok all =>
    let outcome := recoverEach crc32c journalDir io.reconcile nowMs machine ⟨[], 0⟩ all
    (.ok outcome.1, outcome.2)

end Recover

/-! One reconcile on the machine is a reconcile of its world. -/

def Machine.world (machine : Machine) (id : DownloadId) (part journal : String) : World :=
  ⟨machine.store.rows id, machine.files part, machine.files journal⟩

structure Elsewhere (id : DownloadId) (part journal : String) (before after : Machine) : Prop where
  rows : ∀ other, other ≠ id → after.store.rows other = before.store.rows other
  files : ∀ path, path ≠ part → path ≠ journal → after.files path = before.files path

/-- A call on the machine returns and leaves what the call on the world does. -/
structure Simulates (machine : Machine) (id : DownloadId) (part journal : String)
    (outcome : Except RecoveryError Reconciliation × Machine)
    (alone : Except RecoveryError Reconciliation × World) : Prop where
  result : outcome.1 = alone.1
  world : outcome.2.world id part journal = alone.2
  elsewhere : Elsewhere id part journal machine outcome.2

theorem Elsewhere.refl (id : DownloadId) (part journal : String) (machine : Machine) :
    Elsewhere id part journal machine machine :=
  ⟨fun _ _ => rfl, fun _ _ _ => rfl⟩

theorem Simulates.after {before machine : Machine} {id : DownloadId} {part journal : String}
    {outcome : Except RecoveryError Reconciliation × Machine}
    {alone : Except RecoveryError Reconciliation × World}
    (simulates : Simulates machine id part journal outcome alone)
    (reached : Elsewhere id part journal before machine) :
    Simulates before id part journal outcome alone where
  result := simulates.result
  world := simulates.world
  elsewhere := {
    rows other different :=
      (simulates.elsewhere.rows other different).trans (reached.rows other different)
    files path notPart notJournal :=
      (simulates.elsewhere.files path notPart notJournal).trans (reached.files path notPart notJournal) }

theorem simulates_stopped (machine : Machine) (id : DownloadId) (part journal : String)
    (error : RecoveryError) :
    Simulates machine id part journal (.error error, machine)
      (.error error, machine.world id part journal) :=
  ⟨rfl, rfl, Elsewhere.refl id part journal machine⟩

theorem save_download_rows (database : Database) (id : DownloadId) (metadata : DownloadMetadata)
    (failure : Option MetadataError) :
    (∃ error, database.saveDownload id metadata failure = .error error ∧
      (database.rows id).saveDownload metadata failure = .error error) ∨
    ∃ next, database.saveDownload id metadata failure = .ok next ∧
      (database.rows id).saveDownload metadata failure = .ok (next.rows id) ∧
      ∀ other, other ≠ id → next.rows other = database.rows other := by
  unfold Database.saveDownload Store.saveDownload
  cases validateMetadata metadata with
  | error error => exact Or.inl ⟨error, rfl, rfl⟩
  | ok passed =>
    cases failure with
    | some error => exact Or.inl ⟨error, rfl, rfl⟩
    | none =>
      refine Or.inr ⟨_, rfl, ?_, fun other different => ?_⟩
      · simp [Database.rows, Database.setDownload]
      · simp [Database.rows, Database.setDownload, Function.update_of_ne different]

theorem save_checkpoint_rows (database : Database) (id : DownloadId)
    (journalSequence writtenAtMs : Nat) (checkpoint : Checkpoint) (failure : Option MetadataError) :
    (∃ error, database.saveCheckpoint id journalSequence writtenAtMs checkpoint failure = .error error ∧
      (database.rows id).saveCheckpoint journalSequence writtenAtMs checkpoint failure = .error error) ∨
    ∃ next, database.saveCheckpoint id journalSequence writtenAtMs checkpoint failure = .ok next ∧
      (database.rows id).saveCheckpoint journalSequence writtenAtMs checkpoint failure =
        .ok (next.rows id) ∧
      ∀ other, other ≠ id → next.rows other = database.rows other := by
  unfold Database.saveCheckpoint Store.saveCheckpoint
  cases (database.rows id).downloadTotalLength with
  | error error => exact Or.inl ⟨error, rfl, rfl⟩
  | ok owningTotal =>
    simp only [sqliteU64, ensure, bind, Except.bind]
    split_ifs
    all_goals try exact Or.inl ⟨_, rfl, rfl⟩
    cases failure with
    | some error => exact Or.inl ⟨error, rfl, rfl⟩
    | none =>
      refine Or.inr ⟨_, rfl, ?_, fun other different => ?_⟩
      · simp [Database.rows, Database.setCheckpoint]
      · simp [Database.rows, Database.setCheckpoint, Function.update_of_ne different]

section Simulation
variable (machine : Machine) (id : DownloadId) (part journal : String)

theorem fail_simulates (metadata : DownloadMetadata) (kind : FailureKind) (io : ReconcileIo)
    (nowMs : Nat) :
    Simulates machine id part journal (fail machine id metadata kind io nowMs)
      (Recovery.fail (machine.world id part journal) metadata kind io nowMs) := by
  unfold fail Recovery.fail
  simp only [Machine.world]
  rcases save_download_rows machine.store id _ io.saveDownload with
    ⟨error, shared, alone⟩ | ⟨next, shared, alone, others⟩
  · rw [shared, alone]
    exact simulates_stopped machine id part journal _
  · rw [shared, alone]
    exact ⟨rfl, rfl, others, fun _ _ _ => rfl⟩

theorem persist_simulates (metadata : DownloadMetadata) (reconciled : Reconciliation)
    (effectiveLength : Nat) (io : ReconcileIo) (nowMs : Nat) :
    Simulates machine id part journal (persist machine id metadata reconciled effectiveLength io nowMs)
      (Recovery.persist (machine.world id part journal) metadata reconciled effectiveLength io
        nowMs) := by
  unfold persist Recovery.persist
  simp only [Machine.world]
  rcases save_download_rows machine.store id _ io.saveDownload with
    ⟨error, shared, alone⟩ | ⟨next, shared, alone, others⟩
  · rw [shared, alone]
    exact simulates_stopped machine id part journal _
  · rw [shared, alone]
    cases Checkpoint.tryNew effectiveLength (runsOf .complete reconciled.intervals.intervals) with
    | error error => exact ⟨rfl, rfl, others, fun _ _ _ => rfl⟩
    | ok checkpoint =>
      simp only
      rcases save_checkpoint_rows next id reconciled.nextSequence nowMs checkpoint
          io.saveCheckpoint with ⟨error, shared, alone⟩ | ⟨last, shared, alone, later⟩
      · rw [shared, alone]
        exact ⟨rfl, rfl, others, fun _ _ _ => rfl⟩
      · rw [shared, alone]
        exact ⟨rfl, rfl, fun other different =>
          (later other different).trans (others other different), fun _ _ _ => rfl⟩

theorem reconcile_records_simulates (metadata : DownloadMetadata) (totalLength : Nat)
    (recovered : RecoveredPartFile) (replayed : ReplayOutcome) (io : ReconcileIo) (nowMs : Nat) :
    Simulates machine id part journal
      (reconcileRecords machine id metadata totalLength recovered replayed io nowMs)
      (Recovery.reconcileRecords (machine.world id part journal) id metadata totalLength recovered
        replayed io nowMs) := by
  unfold reconcileRecords Recovery.reconcileRecords
  split_ifs
  · exact fail_simulates machine id part journal metadata _ io nowMs
  · exact simulates_stopped machine id part journal _
  · cases effectiveState replayed.header replayed.records with
    | error error => exact fail_simulates machine id part journal metadata _ io nowMs
    | ok state =>
      simp only
      cases mergeAdjacent [] (state.blocks.filter (survives recovered.observedLength)) with
      | error error => exact simulates_stopped machine id part journal _
      | ok merged =>
        simp only
        rcases completeRanges (IntervalMap.new state.effectiveLength) 0 merged with
          error | ⟨intervals, coveredBytes⟩
        · exact simulates_stopped machine id part journal _
        · exact persist_simulates machine id part journal metadata _ _ io nowMs

theorem write_elsewhere (content : Option (List UInt8)) (own : path = part ∨ path = journal) :
    Elsewhere id part journal machine (machine.write path content) where
  rows _ _ := rfl
  files other notPart notJournal := by
    apply Function.update_of_ne
    rcases own with rfl | rfl
    · exact notPart
    · exact notJournal

theorem reconcile_journal_simulates (crc32c : List UInt8 → UInt32) (apart : part ≠ journal)
    (metadata : DownloadMetadata) (totalLength : Nat) (recovered : RecoveredPartFile)
    (io : ReconcileIo) (nowMs : Nat) :
    Simulates machine id part journal
      (reconcileJournal crc32c machine id journal metadata totalLength recovered io nowMs)
      (Recovery.reconcileJournal crc32c (machine.world id part journal) id metadata totalLength
        recovered io nowMs) := by
  unfold reconcileJournal Recovery.reconcileJournal
  simp only
  have repairs : ∀ content, ({ machine.world id part journal with journal := content } : World) =
      (machine.write journal content).world id part journal := by
    intro content
    simp [Machine.world, Machine.write, Function.update_of_ne apart]
  have written := fun content => write_elsewhere machine id part journal content (Or.inr rfl)
  have sameJournal : (machine.world id part journal).journal = machine.files journal := rfl
  rw [sameJournal]
  rcases recoverJournal crc32c (machine.files journal) io.journal with ⟨result, content⟩
  simp only [repairs]
  rcases result with (error | source) | replayed
  · exact (fail_simulates _ id part journal metadata _ io nowMs).after (written content)
  · simp only
    split_ifs
    · exact (persist_simulates _ id part journal metadata _ _ io nowMs).after (written content)
    · exact (simulates_stopped _ id part journal _).after (written content)
  · exact (reconcile_records_simulates _ id part journal metadata _ recovered replayed io nowMs).after
      (written content)

theorem reconcile_simulates (crc32c : List UInt8 → UInt32) (apart : part ≠ journal)
    (named : ∀ metadata, machine.store.download id = some metadata → metadata.partPath = part)
    (io : ReconcileIo) (nowMs : Nat) :
    let alone := Recovery.reconcileDownload crc32c (machine.world id part journal) id io nowMs
    Simulates machine id part journal (reconcileDownload crc32c machine id journal io nowMs)
      (alone.result, alone.world) := by
  -- The world of the download decides what a reconcile does, and bounds what it changes.
  unfold reconcileDownload Recovery.reconcileDownload Database.loadDownload
  have sameRows : (machine.world id part journal).store = machine.store.rows id := rfl
  rw [sameRows]
  cases loaded : (machine.store.rows id).loadDownload io.loadDownload with
  | error error => exact simulates_stopped machine id part journal _
  | ok found =>
    cases found with
    | none => exact simulates_stopped machine id part journal _
    | some metadata =>
      have own := named metadata (load_download_end loaded).1
      subst own
      simp only
      split_ifs
      · exact simulates_stopped machine id _ journal _
      · have sameFile : (machine.world id metadata.partPath journal).partFile =
            machine.files metadata.partPath := rfl
        rw [sameFile]
        cases machine.files metadata.partPath with
        | none => exact fail_simulates machine id _ journal metadata _ io nowMs
        | some content =>
          cases io.partHidden with
          | true => exact fail_simulates machine id _ journal metadata _ io nowMs
          | false =>
            cases metadata.totalLength with
            | none => exact fail_simulates machine id _ journal metadata _ io nowMs
            | some totalLength =>
              simp only
              cases openExisting metadata.partPath content totalLength io.part with
              | error error => exact simulates_stopped machine id _ journal _
              | ok recovered =>
                have extended := reconcile_journal_simulates
                  (machine.write metadata.partPath (some recovered.content)) id
                  metadata.partPath journal crc32c apart metadata totalLength recovered io
                  nowMs
                have sameWorld : (machine.write metadata.partPath
                    (some recovered.content)).world id metadata.partPath journal =
                    { machine.world id metadata.partPath journal with
                      partFile := some recovered.content } := by
                  simp [Machine.world, Machine.write, Function.update_of_ne apart.symm]
                rw [sameWorld] at extended
                exact extended.after (write_elsewhere machine id _ journal _ (Or.inl rfl))

end Simulation

end Downpour.Startup
