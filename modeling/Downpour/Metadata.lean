import Downpour.Intervals
import Downpour.Remote

/-!
The metadata store, as far as recovery reads and writes it: one download row and
its disposable checkpoint row. SQLite is a cell for each row whose reads and
writes may fail; the fields of a row that recovery neither reads nor changes
(times of creation and probing, queue, URLs, history) and their bounds are left
out, so a row rejected for one of them shows up as a failed load.
-/

namespace Downpour.Metadata
open Segments Intervals
open Remote (RangeProofError)

inductive MetadataFormat where
  | rangeObservation
  | checkpoint
  | identitySnapshot
  | nativePath
  deriving DecidableEq, Repr

inductive MetadataError where
  | sqlite (message : String)
  | newerFormatVersion (format : MetadataFormat) (found supported : Nat)
  | unsupportedFormatVersion (format : MetadataFormat) (found : Nat)
  | invalidEncoding (format : MetadataFormat) (reason : String)
  | nonCanonicalEncoding (format : MetadataFormat)
  | collectionLimitExceeded (format : MetadataFormat) (actual maximum : Nat)
  | payloadTooLarge (format : MetadataFormat) (actual maximum : Nat)
  | invalidCheckpoint (reason : String)
  | invalidRangeObservation (error : RangeProofError)
  | invalidDownloadId (reason : String)
  | invalidSecretReference (reason : String)
  | invalidErrorKind (reason : String)
  | invalidPublicUrl (reason : String)
  | fieldTooLong (field : String) (actual maximum : Nat)
  | integerOutOfRange (field : String) (value : Nat)
  | unsupportedPathEncoding (encoding : UInt8)
  | invalidValue (field : String)
  deriving DecidableEq, Repr

inductive DownloadState where
  | submitted
  | probing
  | planned
  | transferring
  | paused
  | stalled
  | awaitingRefresh
  | verifying
  | completed
  | failed
  deriving DecidableEq, Repr

def DownloadState.terminal : DownloadState → Bool
  | .completed | .failed => true
  | _ => false

inductive RangeSupport where
  | proven (totalLength : Nat)
  | absent
  | unknown
  deriving DecidableEq, Repr

structure DownloadMetadata where
  state : DownloadState
  updatedAtMs : Nat
  partPath : String
  totalLength : Option Nat
  coveredBytes : Nat
  errorKind : Option String
  spaceReserved : Bool
  rangeSupport : RangeSupport
  deriving DecidableEq, Repr

def ensure (holds : Bool) (error : MetadataError) : Except MetadataError Unit :=
  if holds then .ok () else .error error

def sqliteU64 (field : String) (value : Nat) : Except MetadataError Unit :=
  ensure (decide (value < 2 ^ 63)) (.integerOutOfRange field value)

def optionalSqliteU64 (field : String) : Option Nat → Except MetadataError Unit
  | none => .ok ()
  | some value => sqliteU64 field value

def validateMetadata (metadata : DownloadMetadata) : Except MetadataError Unit := do
  sqliteU64 "updated_at" metadata.updatedAtMs
  optionalSqliteU64 "total_length" metadata.totalLength
  sqliteU64 "covered_bytes" metadata.coveredBytes
  ensure (metadata.totalLength.all fun total => decide (metadata.coveredBytes ≤ total))
    (.invalidValue "downloads.covered_bytes")
  match metadata.rangeSupport with
  | .proven total =>
    ensure (decide (metadata.totalLength = some total))
      (.invalidValue "identity.range_total_length")
  | _ => .ok ()

@[mk_iff]
structure Valid (metadata : DownloadMetadata) : Prop where
  updated : metadata.updatedAtMs < 2 ^ 63
  total : ∀ total ∈ metadata.totalLength, total < 2 ^ 63
  covered : metadata.coveredBytes < 2 ^ 63
  within : ∀ total ∈ metadata.totalLength, metadata.coveredBytes ≤ total
  proven : ∀ total, metadata.rangeSupport = .proven total → metadata.totalLength = some total

@[simp]
theorem ensure_iff (holds : Bool) (error : MetadataError) (done : Unit) :
    ensure holds error = .ok done ↔ holds = true := by
  cases holds <;> simp [ensure]

@[simp]
theorem optional_sqlite_u64_iff (field : String) (value : Option Nat) (done : Unit) :
    optionalSqliteU64 field value = .ok done ↔ ∀ number ∈ value, number < 2 ^ 63 := by
  cases value with
  | none => simp [optionalSqliteU64]
  | some number => simp [optionalSqliteU64, sqliteU64]

variable {Value : Type} {totalLength : Nat} {intervals : List Range} {metadata : DownloadMetadata}
    {failure : Option MetadataError}

@[simp] theorem bind_iff (first : Except MetadataError Value)
    (second : Value → Except MetadataError Result) (result : Result) :
    first >>= second = .ok result ↔ ∃ value, first = .ok value ∧ second value = .ok result := by
  cases first with
  | error error => simp [bind, Except.bind]
  | ok value => simp [bind, Except.bind]

theorem map_m_iff {Stored : Type} (load : Stored → Except MetadataError Value)
    (stored : List Stored) (values : List Value) :
    stored.mapM load = .ok values ↔ List.Forall₂ (fun one value => load one = .ok value) stored values := by
  induction stored generalizing values with
  | nil => cases values <;> simp [pure, Except.pure]
  | cons one rest ih =>
    rw [List.mapM_cons, bind_iff]
    cases values <;> simp [ih, pure, Except.pure]

theorem map_m_store {Stored : Type} {load : Stored → Except MetadataError Value}
    (store : Value → Stored) {stored : List Stored} {values : List Value}
    (loaded : stored.mapM load = .ok values) :
    values.map store = stored ↔
      ∀ one ∈ stored, ∀ value, load one = .ok value → store value = one := by
  rw [map_m_iff] at loaded
  induction loaded with
  | nil => simp
  | cons first _ ih => simp [first, ih]

theorem validate_metadata_iff (metadata : DownloadMetadata) :
    validateMetadata metadata = .ok () ↔ Valid metadata := by
  rw [valid_iff]
  cases support : metadata.rangeSupport with
  | proven total => simp [validateMetadata, sqliteU64, support, Option.all_eq_true]
  | absent => simp [validateMetadata, sqliteU64, support, Option.all_eq_true]
  | unknown => simp [validateMetadata, sqliteU64, support, Option.all_eq_true]

/-! Checkpoint rows. -/

def maxCheckpointIntervals : Nat := 1000000

structure Checkpoint where
  totalLength : Nat
  coveredBytes : Nat
  intervals : List Range
  deriving DecidableEq, Repr

def checkIntervals (totalLength : Nat) :
    Option Nat → Nat → List Range → Except MetadataError Nat
  | _, covered, [] => .ok covered
  | previousEnd, covered, interval :: rest =>
    if interval.start ≥ interval.stop then
      .error (.invalidCheckpoint "complete interval is empty or reversed")
    else if interval.stop > totalLength then
      .error (.invalidCheckpoint "complete interval exceeds total length")
    else if previousEnd.any fun stop => decide (interval.start < stop) then
      .error (.invalidCheckpoint "complete intervals overlap or are out of order")
    else if covered + (interval.stop - interval.start) ≥ 2 ^ 64 then
      .error (.invalidCheckpoint "covered byte count overflowed")
    else checkIntervals totalLength (some interval.stop)
      (covered + (interval.stop - interval.start)) rest

/-- `Checkpoint::try_new`, which is `validate_intervals` without an expected sum. -/
def Checkpoint.tryNew (totalLength : Nat) (intervals : List Range) :
    Except MetadataError Checkpoint :=
  if intervals.length > maxCheckpointIntervals then
    .error (.collectionLimitExceeded .checkpoint intervals.length maxCheckpointIntervals)
  else match checkIntervals totalLength none 0 intervals with
    | .error error => .error error
    | .ok covered => .ok ⟨totalLength, covered, intervals⟩

theorem check_intervals_separated (previousEnd : Option Nat) (covered : Nat)
    (bounded : totalLength < 2 ^ 64) (separated : Separated intervals)
    (inside : ∀ interval ∈ intervals, interval.stop ≤ totalLength)
    (behind : ∀ interval ∈ intervals, previousEnd.getD 0 ≤ interval.start)
    (counted : covered ≤ previousEnd.getD 0) (reached : previousEnd.getD 0 ≤ totalLength) :
    ∃ total, checkIntervals totalLength previousEnd covered intervals = .ok total ∧
      total ≤ totalLength := by
  induction intervals generalizing previousEnd covered with
  | nil => exact ⟨covered, rfl, counted.trans reached⟩
  | cons interval rest ih =>
    have positive := separated.positive interval List.mem_cons_self
    have stop := inside interval List.mem_cons_self
    have start := behind interval List.mem_cons_self
    have ordered : (previousEnd.any fun stop => decide (interval.start < stop)) = false := by
      cases previousEnd with
      | none => rfl
      | some previous => simpa using start
    have tail := ih (some interval.stop) (covered + (interval.stop - interval.start))
      (separated_tail separated)
      (fun other mem => inside other (List.mem_cons_of_mem _ mem))
      (fun other mem =>
        Nat.le_of_lt ((List.pairwise_cons.mp separated.gaps).1 other mem))
      (by simp only [Option.getD_some]; omega) stop
    rw [checkIntervals, if_neg (Nat.not_le.mpr positive), if_neg (Nat.not_lt.mpr stop), ordered,
      if_neg Bool.false_ne_true, if_neg (by omega)]
    exact tail

theorem try_new_separated (bounded : totalLength < 2 ^ 64) (separated : Separated intervals)
    (inside : ∀ interval ∈ intervals, interval.stop ≤ totalLength) :
    (∃ checkpoint, Checkpoint.tryNew totalLength intervals = .ok checkpoint ∧
      checkpoint.totalLength = totalLength ∧ checkpoint.coveredBytes ≤ totalLength) ↔
      intervals.length ≤ maxCheckpointIntervals := by
  obtain ⟨total, summed, small⟩ := check_intervals_separated none 0 bounded
    separated inside (by simp) (by simp) (by simp)
  unfold Checkpoint.tryNew
  constructor
  · rintro ⟨checkpoint, accepted, _⟩
    split at accepted
    · cases accepted
    next few => exact Nat.not_lt.mp few
  · intro few
    rw [if_neg (Nat.not_lt.mpr few), summed]
    exact ⟨_, rfl, rfl, small⟩

theorem check_intervals_end (begun : covered < 2 ^ 64)
    (checked : checkIntervals totalLength previousEnd covered intervals = .ok result) :
    (∀ interval ∈ intervals, interval.start < interval.stop ∧ interval.stop ≤ totalLength ∧
      ∀ stop ∈ previousEnd, stop ≤ interval.start) ∧
    intervals.Pairwise (fun left right => left.stop ≤ right.start) ∧
    result = covered + (intervals.map fun interval => interval.stop - interval.start).sum ∧
    result < 2 ^ 64 := by
  induction intervals generalizing previousEnd covered with
  | nil =>
    cases checked
    simpa using begun
  | cons interval rest ih =>
    simp only [checkIntervals] at checked
    split at checked
    · cases checked
    split at checked
    · cases checked
    split at checked
    · cases checked
    split at checked
    · cases checked
    next positive inside behind fits =>
      obtain ⟨each, ordered, sum, small⟩ := ih (Nat.not_le.mp fits) checked
      have after : ∀ stop ∈ previousEnd, stop ≤ interval.start := by
        simpa [Option.any_eq_true] using behind
      refine ⟨?_, List.pairwise_cons.mpr ⟨fun other mem => (each other mem).2.2 _ rfl, ordered⟩,
        by simp only [List.map_cons, List.sum_cons]; omega, small⟩
      intro other mem
      rcases List.mem_cons.mp mem with rfl | later
      · exact ⟨by omega, by omega, after⟩
      · obtain ⟨otherPositive, otherInside, follows⟩ := each other later
        refine ⟨otherPositive, otherInside, fun stop found => ?_⟩
        have := after stop found
        have := follows _ rfl
        omega

/-- What a list of intervals that passes `validate_intervals` is like. -/
structure Covers (totalLength covered : Nat) (intervals : List Range) : Prop where
  inside : ∀ interval ∈ intervals, interval.start < interval.stop ∧ interval.stop ≤ totalLength
  ordered : intervals.Pairwise fun left right => left.stop ≤ right.start
  summed : (intervals.map fun interval => interval.stop - interval.start).sum = covered
  fits : covered < 2 ^ 64

theorem try_new_end (made : Checkpoint.tryNew totalLength intervals = .ok checkpoint) :
    intervals.length ≤ maxCheckpointIntervals ∧
      checkpoint = ⟨totalLength, checkpoint.coveredBytes, intervals⟩ ∧
      Covers totalLength checkpoint.coveredBytes intervals := by
  unfold Checkpoint.tryNew at made
  split at made
  · cases made
  next few =>
    split at made
    · cases made
    next covered checked =>
      cases made
      obtain ⟨each, ordered, sum, small⟩ := check_intervals_end (by decide) checked
      exact ⟨Nat.not_lt.mp few, rfl, fun interval mem =>
        ⟨(each interval mem).1, (each interval mem).2.1⟩, ordered, by simpa using sum.symm, small⟩

structure PersistedCheckpoint where
  journalSequence : Nat
  writtenAtMs : Nat
  checkpoint : Checkpoint
  deriving DecidableEq, Repr

/-- The checkpoint row: missing, present but undecodable, or readable. -/
inductive CheckpointRow where
  | absent
  | unreadable (error : MetadataError)
  | stored (row : PersistedCheckpoint)
  deriving DecidableEq, Repr

structure Store where
  download : Option DownloadMetadata
  checkpoint : CheckpointRow
  deriving DecidableEq, Repr

def Store.saveDownload (store : Store) (metadata : DownloadMetadata)
    (failure : Option MetadataError) : Except MetadataError Store :=
  match validateMetadata metadata with
  | .error error => .error error
  | .ok () =>
    match failure with
    | some error => .error error
    | none => .ok { store with download := some metadata }

def Store.loadDownload (store : Store) (failure : Option MetadataError) :
    Except MetadataError (Option DownloadMetadata) :=
  match failure with
  | some error => .error error
  | none =>
    match store.download with
    | none => .ok none
    | some metadata =>
      match validateMetadata metadata with
      | .error error => .error error
      | .ok () => .ok (some metadata)

def Store.downloadTotalLength (store : Store) : Except MetadataError Nat :=
  match store.download with
  | none => .error (.invalidCheckpoint "owning download does not exist")
  | some metadata =>
    match metadata.totalLength with
    | none => .error (.invalidCheckpoint "owning download has no immutable total")
    | some total => .ok total

/-- `save_checkpoint`. Every checkpoint fits the limit of the cache in bytes
(`MetadataCodec.encode_cbor_fits`), so the branch that skips a large one is not here. -/
def Store.saveCheckpoint (store : Store) (journalSequence writtenAtMs : Nat)
    (checkpoint : Checkpoint) (failure : Option MetadataError) : Except MetadataError Store := do
  let owningTotal ← store.downloadTotalLength
  ensure (decide (checkpoint.totalLength = owningTotal))
    (.invalidCheckpoint "checkpoint total differs from owning download")
  sqliteU64 "journal_seq" journalSequence
  sqliteU64 "covered_bytes" checkpoint.coveredBytes
  sqliteU64 "written_at" writtenAtMs
  match failure with
  | some error => .error error
  | none =>
    .ok { store with checkpoint := .stored ⟨journalSequence, writtenAtMs, checkpoint⟩ }

def Store.loadCheckpoint (store : Store) (failure : Option MetadataError) :
    Except MetadataError (Option PersistedCheckpoint) :=
  match failure with
  | some error => .error error
  | none =>
    match store.checkpoint with
    | .absent => .ok none
    | .unreadable error => .error error
    | .stored row => do
        let owningTotal ← store.downloadTotalLength
        ensure (decide (row.checkpoint.totalLength = owningTotal))
          (.invalidCheckpoint "checkpoint total differs from owning download")
        return some row

/-! What a save leaves, and when it succeeds. -/

theorem save_download_end {store : Store} (saved : store.saveDownload metadata failure = .ok next) :
    Valid metadata ∧ next = { store with download := some metadata } := by
  unfold Store.saveDownload at saved
  split at saved
  · cases saved
  next passed =>
    split at saved
    · cases saved
    · cases saved
      exact ⟨(validate_metadata_iff metadata).mp passed, rfl⟩

theorem save_download_valid (store : Store) (valid : Valid metadata) :
    store.saveDownload metadata none = .ok { store with download := some metadata } := by
  simp [Store.saveDownload, (validate_metadata_iff metadata).mpr valid]

theorem load_download_end {store : Store}
    (loaded : store.loadDownload failure = .ok (some metadata)) :
    store.download = some metadata ∧ Valid metadata := by
  unfold Store.loadDownload at loaded
  split at loaded
  · cases loaded
  split at loaded
  · cases loaded
  next found stored =>
    split at loaded
    · cases loaded
    next passed =>
      cases loaded
      exact ⟨stored, (validate_metadata_iff metadata).mp passed⟩

theorem load_download_valid (store : Store) (stored : store.download = some metadata)
    (valid : Valid metadata) :
    store.loadDownload none = .ok (some metadata) := by
  simp [Store.loadDownload, stored, (validate_metadata_iff metadata).mpr valid]

theorem save_checkpoint_end {store : Store}
    (saved : store.saveCheckpoint journalSequence writtenAtMs checkpoint failure = .ok next) :
    next.download = store.download := by
  unfold Store.saveCheckpoint at saved
  cases total : store.downloadTotalLength with
  | error error => simp [total, bind, Except.bind] at saved
  | ok owningTotal =>
    simp only [total, bind, Except.bind] at saved
    repeat' split at saved
    all_goals cases saved
    rfl

theorem save_checkpoint_valid (store : Store) (metadata : DownloadMetadata)
    (stored : store.download = some metadata) (known : metadata.totalLength = some totalLength)
    (sameTotal : checkpoint.totalLength = totalLength) (sequenceFits : journalSequence < 2 ^ 63)
    (coveredFits : checkpoint.coveredBytes < 2 ^ 63) (timeFits : writtenAtMs < 2 ^ 63) :
    store.saveCheckpoint journalSequence writtenAtMs checkpoint none =
      .ok { store with checkpoint := .stored ⟨journalSequence, writtenAtMs, checkpoint⟩ } := by
  have owned : store.downloadTotalLength = .ok totalLength := by
    simp [Store.downloadTotalLength, stored, known]
  simp only [Store.saveCheckpoint, owned, sqliteU64, ensure, decide_eq_true sameTotal,
    decide_eq_true sequenceFits, decide_eq_true coveredFits, decide_eq_true timeFits, bind,
    Except.bind, ↓reduceIte]

end Downpour.Metadata
