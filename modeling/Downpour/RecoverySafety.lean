import Downpour.RecoverySteps
import Downpour.WriterCrash

/-!
Successive calls of `reconcile_download` with no write and no append between
them. A call extends a short part file but leaves the journal as it is, so the
next call finds the length restored and trusts every block again. Lost bytes stay
lost exactly when the first call finds no journalled block beyond the file's end.
-/

namespace Downpour.RecoverySafety
open Segments Intervals JournalFormat JournalReplay JournalRepair JournalState PartFile Metadata
open Recovery RecoverySteps WriterCrash

def Lost (attempt : Attempt) (pos : Nat) : Prop :=
  ∃ length, attempt.observed = some length ∧ length ≤ pos

def Marks (attempt : Attempt) (pos : Nat) : Prop :=
  ∃ reconciled, attempt.result = .ok reconciled ∧
    reconciled.intervals.stateAt pos = some .complete

/-- No call marks a byte that it or an earlier call found missing, and no
covered set grows. -/
structure NoResurrection (attempts : List Attempt) : Prop where
  within : ∀ attempt ∈ attempts, ∀ pos, Lost attempt pos → ¬ Marks attempt pos
  later : attempts.Pairwise fun first second =>
    ∀ pos, Lost first pos → ¬ Marks second pos
  shrinks : attempts.Pairwise fun first second =>
    ∀ reconciled, first.result = .ok reconciled →
      ∀ pos, Marks second pos → Marks first pos

section Run
variable (crc32c : List UInt8 → UInt32)

def reconcileAll (world : World) (id : DownloadId) : List (ReconcileIo × Nat) → List Attempt
  | [] => []
  | (io, nowMs) :: rest =>
    let attempt := reconcileDownload crc32c world id io nowMs
    attempt :: reconcileAll attempt.world id rest

def Storable (state : EffectiveState) : Prop :=
  ∃ merged, mergeAdjacent [] state.blocks = .ok merged ∧ merged.length ≤ maxCheckpointIntervals

/-- An active download whose part file ends before a block of its journal. -/
def Exposed (world : World) (id : DownloadId) : Prop :=
  ∃ content state, world.partFile = some content ∧ Describes crc32c world id state ∧
    (∃ block ∈ state.blocks, content.length < block.stop) ∧ Storable state

theorem terminal_silent (world : World) (id : DownloadId)
    (stored : world.store.download = some row) (terminal : row.state = .failed)
    (state : EffectiveState) : ¬ Describes crc32c world id state := by
  rintro ⟨metadata, _, _, found⟩
  have same := found.row
  rw [stored] at same
  cases same
  have active := found.active
  rw [terminal] at active
  cases active

theorem missing_silent (world : World) (id : DownloadId) (gone : world.journal = none)
    (state : EffectiveState) : ¬ Describes crc32c world id state := by
  rintro ⟨_, _, _, found⟩
  have same := found.journal
  rw [gone] at same
  cases same

variable {world : World} {id : DownloadId} {state : EffectiveState} {attempt : Attempt}

theorem resumed_state
    (result : Resumed crc32c world next id content reconciled bytes outcome state merged row)
    (described : Describes crc32c next id other) : other = state := by
  obtain ⟨_, found, again, held⟩ := described
  obtain ⟨_, first⟩ := result.described
  have same := held.journal
  rw [result.journal] at same
  have repeated := replay_repaired crc32c first.replayed
  rw [Option.some.inj same, held.replayed] at repeated
  cases repeated
  have accepted := held.accepted
  rw [first.accepted] at accepted
  exact (Except.ok.inj accepted).symm

structure Leaves (world : World) (id : DownloadId) (attempt : Attempt) (content longer : List UInt8)
    (totalLength : Nat) : Prop where
  observed : attempt.observed = some content.length
  before : world.partFile = some content
  after : attempt.world.partFile = some longer
  extent : longer.length = max content.length totalLength
  row : ∃ metadata, world.store.download = some metadata ∧ metadata.totalLength = some totalLength
  described : ∀ state, Describes crc32c attempt.world id state → Describes crc32c world id state

theorem reconcile_leaves (ended : ReconcileEnd crc32c world id attempt)
    (described : Describes crc32c attempt.world id state) :
    (∃ error, attempt = ⟨.error error, world, none⟩) ∨
    ∃ content longer totalLength, Leaves crc32c world id attempt content longer totalLength := by
  cases ended with
  | refused error => exact Or.inl ⟨error, rfl⟩
  | ended reconciled row next observed stored terminal =>
    exact absurd described (terminal_silent crc32c next id stored terminal state)
  | stopped error next metadata content totalLength opened back =>
    obtain ⟨longer, after, extent⟩ := opened.extended
    exact Or.inr ⟨content, longer, totalLength, rfl, opened.partFile, after, extent,
      ⟨metadata, opened.row, opened.length⟩, back⟩
  | blank reconciled next metadata content totalLength opened _ gone =>
    exact absurd described (missing_silent crc32c next id gone state)
  | resumed reconciled next metadata content totalLength bytes outcome first merged row opened
      result =>
      obtain ⟨longer, after, extent⟩ := opened.extended
      obtain ⟨source, found⟩ := result.described
      refine Or.inr ⟨content, longer, totalLength, rfl, opened.partFile, after, extent,
        ⟨metadata, opened.row, opened.length⟩, ?_⟩
      intro other again
      rw [resumed_state crc32c
        result again]
      exact ⟨source, bytes, outcome, found⟩

theorem described_inside (id : DownloadId) (state : EffectiveState)
    (described : Describes crc32c world id state) (row : world.store.download = some metadata)
    (length : metadata.totalLength = some totalLength) (block : CompletedBlock)
    (mem : block ∈ state.blocks) : block.stop ≤ totalLength := by
  obtain ⟨other, _, outcome, found⟩ := described
  have same := found.row
  rw [row] at same
  cases same
  have sameLength := found.length
  rw [length] at sameLength
  cases sameLength
  have fits := (effective_state_accepted found.accepted).fits block mem
  exact fits.inside.trans (effective_length_le found.accepted)

theorem exposed_back (ended : ReconcileEnd crc32c world id attempt)
    (exposed : Exposed crc32c attempt.world id) :
    Exposed crc32c world id := by
  obtain ⟨content, state, partFile, described, ⟨block, mem, lost⟩, storable⟩ := exposed
  rcases reconcile_leaves crc32c ended described with
    ⟨error, rfl⟩ | ⟨before, longer, totalLength, leaves⟩
  · exact ⟨content, state, partFile, described, ⟨block, mem, lost⟩, storable⟩
  · have same := leaves.after
    rw [partFile] at same
    cases same
    have extent := leaves.extent
    exact ⟨before, state, leaves.before, leaves.described state described,
      ⟨block, mem, by omega⟩, storable⟩

theorem all_survive (accepted : Accepted state)
    (inside : ∀ block ∈ state.blocks, block.stop ≤ length) :
    state.blocks.filter (survives length) = state.blocks := by
  apply List.filter_eq_self.mpr
  intro block mem
  have fits := accepted.fits block mem
  exact (survives_iff _ fits accepted.bounded).mpr (inside block mem)

theorem marks_described (mem : attempt ∈ reconcileAll crc32c world id calls)
    (marks : Marks attempt pos) :
    ∃ content state, world.partFile = some content ∧ Describes crc32c world id state ∧
      (∃ block ∈ state.blocks, block.Covers pos) ∧
      ((∀ block ∈ state.blocks, block.stop ≤ content.length) → Storable state) := by
  -- Where a mark of a later call comes from: the journal of the present world, and a checkpoint of
  -- all its blocks once the file holds them.
  induction calls generalizing world with
  | nil => cases mem
  | cons call rest ih =>
    obtain ⟨io, nowMs⟩ := call
    have ended := reconcile_end crc32c world id io nowMs
    rw [reconcileAll] at mem
    rcases List.mem_cons.mp mem with same | later
    · obtain ⟨reconciled, returned, complete⟩ := marks
      rw [same] at returned
      generalize reconcileDownload crc32c world id io nowMs = first at ended returned
      cases ended with
      | refused error => cases returned
      | stopped error => cases returned
      | ended _ _ _ _ _ _ _ empty =>
        cases returned
        exact absurd complete (empty pos)
      | blank _ _ _ _ _ _ _ _ empty =>
        cases returned
        exact absurd complete (empty pos)
      | resumed _ _ _ content _ bytes outcome state merged _ opened result =>
        cases returned
        obtain ⟨metadata, found⟩ := result.described
        obtain ⟨block, kept, covers⟩ := (result.rebuilt.complete pos).mp complete
        refine ⟨content, state, opened.partFile, ⟨metadata, bytes, outcome, found⟩,
          ⟨block, (List.mem_filter.mp kept).1, covers⟩, ?_⟩
        intro inside
        have accepted := effective_state_accepted found.accepted
        have mergedOk := result.rebuilt.mergedOk
        rw [all_survive accepted inside] at mergedOk
        exact ⟨merged, mergedOk, result.few⟩
    · obtain ⟨content, state, partFile, described, covered, storable⟩ := ih later
      rcases reconcile_leaves crc32c ended described with
        ⟨error, refused⟩ | ⟨before, longer, totalLength, leaves⟩
      · rw [refused] at partFile described
        exact ⟨content, state, partFile, described, covered, storable⟩
      · refine ⟨before, state, leaves.before, leaves.described state described, covered, ?_⟩
        intro inside
        apply storable
        intro block held
        have same := leaves.after
        rw [partFile] at same
        cases same
        have extent := leaves.extent
        have ends := inside block held
        omega

theorem later_marks (safe : ¬ Exposed crc32c world id)
    (mem : second ∈ reconcileAll crc32c (reconcileDownload crc32c world id io nowMs).world id rest)
    (marks : Marks second pos) :
    ¬ Lost (reconcileDownload crc32c world id io nowMs) pos ∧
      ∀ reconciled, (reconcileDownload crc32c world id io nowMs).result = .ok reconciled →
        Marks (reconcileDownload crc32c world id io nowMs) pos := by
  -- In an unexposed download a later call marks only what an earlier call found in the file, and
  -- what it marked if it returned.
  obtain ⟨content, state, partFile, described, ⟨block, held, covers⟩, storable⟩ :=
    marks_described crc32c mem marks
  have ended := reconcile_end crc32c world id io nowMs
  generalize reconcileDownload crc32c world id io nowMs = first at *
  rcases reconcile_leaves crc32c ended described with
    ⟨error, rfl⟩ | ⟨before, longer, totalLength, leaves⟩
  · constructor
    · rintro ⟨_, none, _⟩
      cases none
    · rintro _ failed
      cases failed
  · have same := leaves.after
    rw [partFile] at same
    cases same
    obtain ⟨metadata, row, length⟩ := leaves.row
    have back := leaves.described state described
    have inside := described_inside crc32c id state back row length
    have extent := leaves.extent
    -- The restored file holds every block, so only exposure could have lost one.
    have kept : ∀ other ∈ state.blocks, other.stop ≤ before.length := by
      intro other known
      by_contra short
      apply safe
      refine ⟨before, state, leaves.before, back, ⟨other, known, Nat.lt_of_not_le short⟩, ?_⟩
      apply storable
      intro found stored
      have ends := inside found stored
      omega
    have found := kept block held
    constructor
    · rintro ⟨length, observed, beyond⟩
      rw [leaves.observed] at observed
      cases observed
      have upper := covers.2
      omega
    · intro reconciled returned
      cases ended with
      | refused error => cases returned
      | stopped error => cases returned
      | ended _ row next _ stored terminal =>
        exact absurd described (terminal_silent crc32c next id stored terminal state)
      | blank _ next _ _ _ _ _ gone =>
        exact absurd described (missing_silent crc32c next id gone state)
      | resumed returnedNow next _ content _ bytes outcome original merged row opened result =>
        have sameState := resumed_state crc32c result described
        subst sameState
        obtain ⟨_, source⟩ := result.described
        have accepted := effective_state_accepted source.accepted
        have sameFile := opened.partFile
        rw [leaves.before] at sameFile
        cases sameFile
        refine ⟨returnedNow, rfl, (result.rebuilt.complete pos).mpr ⟨block, ?_, covers⟩⟩
        rw [all_survive accepted kept]
        exact held

theorem marks_observed (ended : ReconcileEnd crc32c world id attempt) (pos : Nat)
    (lost : Lost attempt pos) :
    ¬ Marks attempt pos := by
  rintro ⟨reconciled, returned, complete⟩
  obtain ⟨length, observed, beyond⟩ := lost
  cases ended with
  | refused error => cases returned
  | stopped error => cases returned
  | ended _ _ _ _ _ _ _ empty =>
    cases returned
    exact empty pos complete
  | blank _ _ _ _ _ _ _ _ empty =>
    cases returned
    exact empty pos complete
  | resumed _ _ _ content _ bytes outcome state merged row opened result =>
    cases returned
    cases observed
    obtain ⟨_, source⟩ := result.described
    have accepted := effective_state_accepted source.accepted
    obtain ⟨block, kept, covers⟩ := (result.rebuilt.complete pos).mp complete
    obtain ⟨mem, survived⟩ := List.mem_filter.mp kept
    have ends := (survives_iff _ (accepted.fits block mem) accepted.bounded).mp survived
    have upper := covers.2
    omega

theorem unexposed_run (calls : List (ReconcileIo × Nat)) (safe : ¬ Exposed crc32c world id) :
    NoResurrection (reconcileAll crc32c world id calls) := by
  -- Runs of an unexposed download, call by call.
  induction calls generalizing world with
  | nil => exact ⟨by simp [reconcileAll], List.Pairwise.nil, List.Pairwise.nil⟩
  | cons call rest ih =>
    obtain ⟨io, nowMs⟩ := call
    have ended := reconcile_end crc32c world id io nowMs
    have tail := ih fun exposed => safe (exposed_back crc32c ended exposed)
    rw [reconcileAll]
    constructor
    · intro attempt mem
      rcases List.mem_cons.mp mem with rfl | later
      · exact marks_observed crc32c ended
      · exact tail.within attempt later
    · refine List.Pairwise.cons ?_ tail.later
      intro second mem pos lost marks
      exact (later_marks crc32c safe mem marks).1 lost
    · refine List.Pairwise.cons ?_ tail.shrinks
      intro second mem reconciled returned pos marks
      exact (later_marks crc32c safe mem marks).2
        reconciled returned

/-! The other direction: an exposed download has a run that resurrects bytes. -/

def quietRepair : RepairIo := .quiet

def quietIo : ReconcileIo where
  loadDownload := none
  partHidden := false
  part := ⟨none, none, .ok .fallocateKeepSize, .ok 0⟩
  journal := quietRepair
  loadCheckpoint := none
  saveDownload := none
  saveCheckpoint := none

def deviceError : IoError := ⟨.other, some 5, "Input/output error"⟩

def unreadableIo : ReconcileIo :=
  { quietIo with journal := ⟨some deviceError, [], none, none, by simp [deviceError]⟩ }

theorem quiet_clean : CleanIo quietIo :=
  ⟨rfl, rfl, rfl, rfl, ⟨_, rfl⟩, ⟨_, rfl⟩, ⟨rfl, by simp [quietIo, quietRepair, RepairIo.quiet], rfl, rfl⟩, rfl, rfl⟩

theorem unreadable_extends (described : Described crc32c world id metadata bytes outcome state)
    (partFile : world.partFile = some content) :
    ∃ longer, reconcileDownload crc32c world id unreadableIo 0 =
        ⟨.error (.io deviceError), { world with partFile := some longer }, some content.length⟩ ∧
      longer.length = max content.length outcome.header.totalLength.toNat := by
  have bounded := described.valid.total _ described.length
  obtain ⟨recovered, opened⟩ := open_existing_clean metadata.partPath content quiet_clean bounded
  obtain ⟨measured, extent⟩ := open_existing_extent opened
  refine ⟨recovered.content, ?_, extent⟩
  have loaded := load_download_valid _ described.row described.valid
  have reopened : openExisting metadata.partPath content outcome.header.totalLength.toNat
      unreadableIo.part = .ok recovered := opened
  have load : unreadableIo.loadDownload = none := rfl
  have visible : unreadableIo.partHidden = false := rfl
  have unread : recoverJournal crc32c (some bytes) unreadableIo.journal =
      (.error (.io deviceError), some bytes) := rfl
  have device : ¬ deviceError.kind = .notFound := by decide
  simp only [reconcileDownload, load, loaded, described.active, partFile, visible, described.length,
    reopened, reconcileJournal, described.journal, unread, measured, device, Bool.false_eq_true,
    ↓reduceIte]

theorem exposed_resurrects (exposed : Exposed crc32c world id) :
    ¬ NoResurrection (reconcileAll crc32c world id [(unreadableIo, 0), (quietIo, 0)]) := by
  obtain ⟨content, state, partFile, ⟨metadata, bytes, outcome, described⟩, ⟨block, mem, lost⟩,
    merged, mergedOk, few⟩ := exposed
  obtain ⟨longer, first, extent⟩ := unreadable_extends crc32c described partFile
  have accepted := effective_state_accepted described.accepted
  have everywhere : ∀ other ∈ state.blocks, other.stop ≤ longer.length := by
    intro other held
    have inside := described_inside crc32c id state
      ⟨metadata, bytes, outcome, described⟩ described.row described.length other held
    omega
  have kept := all_survive accepted everywhere
  obtain ⟨ranges, intervals, built⟩ := blocks_rebuild
    (accepted_ordered accepted (survives longer.length))
  have same : ranges = merged := by
    have again := built.mergedOk
    rw [kept, mergedOk] at again
    exact (Except.ok.inj again).symm
  obtain ⟨reconciled, next, row, _, second, result, _⟩ := reconcile_clean crc32c
    { world with partFile := some longer } id 0 metadata bytes longer outcome state ranges
    intervals ⟨described.row, described.valid, described.active, described.journal,
      described.replayed, described.owner, described.length, described.accepted⟩ rfl quiet_clean
    (by decide) built (same ▸ few)
  intro safe
  have positive := (accepted.fits block mem).positive
  have wide : block.stop = block.start + block.len.toNat := rfl
  -- The last byte of the block is behind the end that the first call saw.
  have later := safe.later
  simp only [reconcileAll, first, second, List.pairwise_cons, List.mem_singleton, forall_eq] at later
  apply later.1 (block.stop - 1) ⟨content.length, rfl, by omega⟩
  refine ⟨reconciled, rfl, ?_⟩
  rw [result.rebuilt.complete, kept]
  exact ⟨block, mem, by constructor <;> omega⟩

end Run

/-! Two calls in which nothing fails, over a part file that lost its second half. -/

def tornId : DownloadId := ⟨[0, 0, 0, 0, 0, 0, 0x70, 0, 0x80, 0, 0, 0, 0, 0, 0, 0], rfl⟩

def tornHeader : FileHeader := ⟨tornId, 10, 65536, zeroDigest []⟩

def tornFrame : FramedRecord := ⟨0, .blockComplete 0 10 (zeroDigest [])⟩

def tornJournal : List UInt8 :=
  tornHeader.encode zeroChecksum ++ (tornFrame.body ++ u32Bytes (zeroChecksum tornFrame.body))

def tornRow : DownloadMetadata :=
  ⟨.transferring, 0, "archive.bin.dppart", some 10, 0, none, true, .proven 10⟩

def tornWorld : World :=
  ⟨⟨some tornRow, .absent⟩, some [1, 2, 3, 4, 5], some tornJournal⟩

def tornState : EffectiveState := ⟨10, none, [], [⟨0, 10, zeroDigest []⟩], none⟩

theorem torn_described : Described zeroChecksum tornWorld tornId tornRow tornJournal
    ⟨tornHeader, [tornFrame], 131, .cleanEof⟩ tornState := by
  have framed := framed_single zeroChecksum tornFrame rfl
  have replayed := replay_whole zeroChecksum tornHeader framed ⟨rfl, trivial⟩
    (by decide) (by decide)
  exact ⟨rfl, (validate_metadata_iff tornRow).mp rfl, rfl, rfl, replayed, rfl, rfl, rfl⟩

theorem torn_recovered : ∃ reconciled next row longer,
    reconcileDownload zeroChecksum tornWorld tornId quietIo 0 = ⟨.ok reconciled, next, some 5⟩ ∧
    Resumed zeroChecksum tornWorld next tornId [1, 2, 3, 4, 5] reconciled tornJournal
      ⟨tornHeader, [tornFrame], 131, .cleanEof⟩ tornState [] row ∧
    next.partFile = some longer ∧ longer.length = 10 := by
  obtain ⟨_, built⟩ := accepted_rebuild torn_described.accepted (survives 5) rfl
  exact reconcile_clean zeroChecksum tornWorld tornId 0 tornRow tornJournal _ _ tornState _ _
    torn_described rfl quiet_clean (by decide) built (by decide)

/-- Bytes that a reconcile found missing stay missing, and covered sets never
grow, in every run of a download exactly when it is not exposed at the start. -/
theorem lost_bytes_stay_lost (crc32c : List UInt8 → UInt32) (world : World) (id : DownloadId) :
    (∀ calls, NoResurrection (reconcileAll crc32c world id calls)) ↔ ¬ Exposed crc32c world id := by
  constructor
  · intro every exposed
    exact exposed_resurrects crc32c exposed (every _)
  · intro safe calls
    exact unexposed_run crc32c calls safe

/-- The first call drops the block of ten bytes, because the file has five, and
extends the file; the second call finds ten bytes and marks the block complete. -/
theorem torn_bytes_return : ¬ NoResurrection
    (reconcileAll zeroChecksum tornWorld tornId [(quietIo, 0), (quietIo, 0)]) := by
  have trusted : tornState.blocks.filter (survives 10) = [⟨0, 10, zeroDigest []⟩] := rfl
  obtain ⟨_, built⟩ : ∃ intervals, Rebuilt 10 _ [⟨0, 10⟩] intervals :=
    accepted_rebuild torn_described.accepted (survives 10) rfl
  obtain ⟨_, next, row, longer, first, firstResult, partFile, ten⟩ := torn_recovered
  have described := resumed_described zeroChecksum firstResult rfl
  obtain ⟨reconciled, _, _, _, second, secondResult, _⟩ := reconcile_clean zeroChecksum next tornId 0 row _ longer _ tornState _ _ described partFile quiet_clean (by decide)
    (by rw [ten]; exact built) (by decide)
  intro safe
  have later := safe.later
  simp only [reconcileAll, first, second, List.pairwise_cons, List.mem_singleton, forall_eq] at later
  apply later.1 9 ⟨5, rfl, by decide⟩
  refine ⟨reconciled, rfl, ?_⟩
  rw [secondResult.rebuilt.complete, ten, trusted]
  exact ⟨_, List.mem_singleton_self _, by decide, by decide⟩

end Downpour.RecoverySafety
