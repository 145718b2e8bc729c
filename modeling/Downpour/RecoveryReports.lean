import Downpour.CompactionMeaning
import Downpour.RecoveryStable

/-!
The checkpoint cache in a reconcile: when its size stops a recovery, and whether
the report about its row is true. `persist` refuses a map with more runs than a
checkpoint may hold, although the cache is not needed to recover. The report
compares lists of intervals, and a cached list may cut its bytes elsewhere.
-/

namespace Downpour.RecoveryReports
open Segments Intervals JournalFormat JournalReplay JournalRepair JournalState PartFile Metadata
open WriterCrash Compaction CompactionMeaning
open ReplayExact (Journal)
open Recovery RecoverySteps RecoverySafety RecoveryMap RecoveryStable

def Surviving (state : EffectiveState) (observedLength pos : Nat) : Prop :=
  ∃ block ∈ state.blocks, block.stop ≤ observedLength ∧ block.Covers pos

section Calls
variable {crc32c : List UInt8 → UInt32}

theorem rebuilt_surviving (accepted : Accepted state)
    (built : Rebuilt state.effectiveLength (state.blocks.filter (survives observedLength)) merged
      intervals) :
    Separated merged ∧ ∀ pos, Segments.Covered merged pos ↔ Surviving state observedLength pos := by
  refine ⟨built.runs ▸ runs_separated _ intervals.partitions intervals.merged, fun pos => ?_⟩
  rw [← built.runs, runs_covered _ intervals.partitions]
  exact (built.complete pos).trans (surviving_covers accepted observedLength pos)

/-! A map too large for the cache. -/

end Calls

/-! A journal of one-byte blocks at every other position. -/

section Scattered
variable {count : Nat} (small : count < 2 ^ 32)
include small

end Scattered

def SameBytes (cached : PersistedCheckpoint) (map : IntervalMap) : Prop :=
  ∀ pos, Segments.Covered cached.checkpoint.intervals pos ↔
    map.stateAt pos = some .complete

def Differs (store : Store) (map : IntervalMap) (journalCoveredBytes sqliteCoveredBytes : Nat) : Prop :=
  ∃ cached, store.loadCheckpoint none = .ok (some cached) ∧ ¬ SameBytes cached map ∧
    journalCoveredBytes = map.completeBytes ∧ sqliteCoveredBytes = cached.checkpoint.coveredBytes

def Truthful (store : Store) (map : IntervalMap) : CheckpointDivergence → Prop
  | .noCheckpoint => store.loadCheckpoint none = .ok none
  | .checkpointUnreadable => ∃ error, store.loadCheckpoint none = .error error
  | .agreed => ∃ cached, store.loadCheckpoint none = .ok (some cached) ∧ SameBytes cached map
  | .journalAhead journal sqlite => Differs store map journal sqlite ∧ sqlite < journal
  | .sqliteAhead journal sqlite => Differs store map journal sqlite ∧ journal < sqlite
  | .sameCoverageDifferentIntervals covered => Differs store map covered covered

/-- The rows and journals of which a reconcile reports the truth: no row without a
journal, no failing read of a good row, and no cached list that covers the surviving
bytes in pieces that touch. -/
def Reportable (crc32c : List UInt8 → UInt32) (world : World) (io : ReconcileIo) : Prop :=
  (world.journal = none → world.store.loadCheckpoint none = .ok none) ∧
  ∀ bytes outcome state content, world.journal = some bytes → replayBytes crc32c bytes = .ok outcome →
    effectiveState outcome.header outcome.records = .ok state → world.partFile = some content →
    (io.loadCheckpoint ≠ none → ∃ error, world.store.loadCheckpoint none = .error error) ∧
    ∀ cached, io.loadCheckpoint = none → world.store.loadCheckpoint none = .ok (some cached) →
      (∀ pos, Segments.Covered cached.checkpoint.intervals pos ↔
        Surviving state content.length pos) → Separated cached.checkpoint.intervals

theorem load_checkpoint_stored {store : Store} {cached : PersistedCheckpoint}
    (loaded : store.loadCheckpoint none = .ok (some cached)) : store.checkpoint = .stored cached := by
  unfold Store.loadCheckpoint at loaded
  cases row : store.checkpoint with
  | absent => simp [row] at loaded
  | unreadable error => simp [row] at loaded
  | stored found =>
    simp only [row, bind_iff] at loaded
    obtain ⟨_, _, _, _, same⟩ := loaded
    cases same
    rfl

section Reports
variable {crc32c : List UInt8 → UInt32} {world : World} {io : ReconcileIo} {nowMs : Nat}
  {reconciled : Reconciliation} {bytes content : List UInt8} {outcome : ReplayOutcome}
  {state : EffectiveState} {merged : List Range} {cached : PersistedCheckpoint}
  (result : Replayed crc32c world io nowMs reconciled bytes content outcome state merged)
include result

theorem same_bytes (covers : Covers cached.checkpoint.totalLength cached.checkpoint.coveredBytes
      cached.checkpoint.intervals) (same : SameBytes cached reconciled.intervals) :
    cached.checkpoint.coveredBytes = reconciled.coveredBytes ∧
      (Separated cached.checkpoint.intervals → cached.checkpoint.intervals = merged) := by
  -- A row of the recovered bytes counts them right, and is the merged list unless it has pieces
  -- that touch.
  have accepted := effective_state_accepted result.accepted
  constructor
  · rw [result.counted, RecoveryStable.map_exact_count (rebuilt_exact accepted result.rebuilt),
      ← covers.summed, ← (covered_ncard (fun span mem => (covers.inside span mem).1)
        covers.ordered).2]
    simp only [same _]
  · intro separated
    refine separated_unique _ separated (rebuilt_surviving accepted result.rebuilt).1 fun pos => ?_
    rw [same, ← result.rebuilt.runs, runs_covered _ reconciled.intervals.partitions]
    rfl

theorem readable_truthful_iff (loaded : world.store.loadCheckpoint none = .ok (some cached))
    (read : io.loadCheckpoint = none)
    (covers : Covers cached.checkpoint.totalLength cached.checkpoint.coveredBytes
      cached.checkpoint.intervals) :
    Truthful world.store reconciled.intervals reconciled.divergence ↔
      (SameBytes cached reconciled.intervals → Separated cached.checkpoint.intervals) := by
  have accepted := effective_state_accepted result.accepted
  have only (other : PersistedCheckpoint) :
      world.store.loadCheckpoint none = .ok (some other) ↔ other = cached := by
    rw [loaded]
    simp [eq_comm]
  rw [result.divergence]
  simp only [compareCheckpoint, read, loaded]
  by_cases equal : cached.checkpoint.coveredBytes = reconciled.coveredBytes
  · by_cases agreed : cached.checkpoint.intervals = merged
    · obtain ⟨separated, surviving⟩ := rebuilt_surviving accepted result.rebuilt
      have same : SameBytes cached reconciled.intervals := fun pos => by
        rw [agreed, surviving]
        exact ((rebuilt_exact accepted result.rebuilt).complete pos).symm
      simp [equal, agreed, Truthful, only, same, separated]
    · have touching : SameBytes cached reconciled.intervals → ¬ Separated cached.checkpoint.intervals :=
        fun same separated => agreed ((same_bytes result covers same).2 separated)
      simp only [equal, agreed, ↓reduceIte, Truthful, Differs, only, result.counted, exists_eq_left,
        true_and, and_true]
      tauto
  · have other : ¬ SameBytes cached reconciled.intervals := fun same =>
      equal (same_bytes result covers same).1
    rw [if_neg equal]
    split
    next less => simp [Truthful, Differs, only, other, result.counted ▸ less, result.counted]
    next less =>
      have more : reconciled.coveredBytes < cached.checkpoint.coveredBytes := by omega
      simp [Truthful, Differs, only, other, result.counted ▸ more, result.counted]

end Reports

/-- The reports of paused reconciles are true exactly over reportable worlds. Every
checkpoint that can be read was built by `validate_intervals`. -/
theorem divergence_truthful_iff (crc32c : List UInt8 → UInt32) (world next : World) (id : DownloadId)
    (io : ReconcileIo) (nowMs : Nat) (reconciled : Reconciliation) (observed : Option Nat)
    (returned : reconcileDownload crc32c world id io nowMs = ⟨.ok reconciled, next, observed⟩)
    (paused : reconciled.state = .paused)
    (validated : ∀ row, world.store.checkpoint = .stored row →
      Checkpoint.tryNew row.checkpoint.totalLength row.checkpoint.intervals = .ok row.checkpoint) :
    Truthful world.store reconciled.intervals reconciled.divergence ↔ Reportable crc32c world io := by
  rcases paused_replayed crc32c returned paused with ⟨missing, silent⟩ |
    ⟨bytes, content, outcome, state, merged, _, result⟩
  · simp [silent, Truthful, Reportable, missing]
  have accepted := effective_state_accepted result.accepted
  have reportable : Reportable crc32c world io ↔
      (io.loadCheckpoint ≠ none → ∃ error, world.store.loadCheckpoint none = .error error) ∧
      ∀ cached, io.loadCheckpoint = none → world.store.loadCheckpoint none = .ok (some cached) →
        (∀ pos, Segments.Covered cached.checkpoint.intervals pos ↔
          Surviving state content.length pos) → Separated cached.checkpoint.intervals := by
    constructor
    · intro held
      exact held.2 bytes outcome state content result.journal result.replayed result.accepted
        result.partFile
    · refine fun held => ⟨by simp [result.journal], fun _ _ _ _ journal replayed found partFile => ?_⟩
      obtain rfl := Option.some.inj (result.journal.symm.trans journal)
      obtain rfl := Except.ok.inj (result.replayed.symm.trans replayed)
      obtain rfl := Except.ok.inj (result.accepted.symm.trans found)
      obtain rfl := Option.some.inj (result.partFile.symm.trans partFile)
      exact held
  rw [reportable]
  cases read : io.loadCheckpoint with
  | some error =>
    simp [result.divergence, compareCheckpoint, read, Store.loadCheckpoint, Truthful]
  | none =>
    cases loaded : world.store.loadCheckpoint none with
    | error error => simp [result.divergence, compareCheckpoint, read, loaded, Truthful]
    | ok found =>
      cases found with
      | none => simp [result.divergence, compareCheckpoint, read, loaded, Truthful]
      | some cached =>
        have covers := (try_new_end (validated cached (load_checkpoint_stored loaded))).2.2
        rw [readable_truthful_iff result loaded read covers]
        have exactly := (rebuilt_exact accepted result.rebuilt).complete
        simp [SameBytes, exactly, Surviving]

def cachedWorld : World :=
  { wholeWorld with store := ⟨some tornRow, .stored ⟨0, 0, ⟨10, 10, [⟨0, 10⟩]⟩⟩⟩ }

theorem divergence_truthful_cached : ∃ reconciled next,
    reconcileDownload zeroChecksum cachedWorld tornId quietIo 0 = ⟨.ok reconciled, next, some 10⟩ ∧
      Truthful cachedWorld.store reconciled.intervals reconciled.divergence := by
  have described : Described zeroChecksum cachedWorld tornId tornRow tornJournal _ tornState :=
    ⟨rfl, torn_described.valid, rfl, rfl, torn_described.replayed, rfl, rfl, rfl⟩
  obtain ⟨_, built⟩ : ∃ intervals, Rebuilt 10 _ [⟨0, 10⟩] intervals :=
    accepted_rebuild described.accepted (survives 10) rfl
  obtain ⟨reconciled, next, _, _, returned, result, _⟩ := reconcile_clean zeroChecksum cachedWorld tornId 0
    tornRow tornJournal (List.replicate 10 1) _ tornState _ _ described rfl quiet_clean (by decide) built
    (by decide)
  refine ⟨reconciled, next, returned, (divergence_truthful_iff zeroChecksum cachedWorld next tornId
    quietIo 0 reconciled _ returned result.paused ?_).mpr ⟨by simp [cachedWorld, wholeWorld, tornWorld], ?_⟩⟩
  · rintro row ⟨⟩
    rfl
  · intro bytes outcome state content _ _ _ _
    refine ⟨fun failed => absurd rfl failed, ?_⟩
    rintro cached _ ⟨⟩ _
    exact ⟨by simp, List.pairwise_singleton _ _⟩

/-- Without a journal the row is not looked at, and reported missing. -/
theorem stray_row_unreported : ∃ reconciled next,
    reconcileDownload zeroChecksum { cachedWorld with journal := none } tornId quietIo 0 =
      ⟨.ok reconciled, next, some 10⟩ ∧ reconciled.state = .paused ∧
    ¬ Truthful cachedWorld.store reconciled.intervals reconciled.divergence := by
  refine ⟨_, _, rfl, rfl, ?_⟩
  simp [Truthful]
  nofun

end Downpour.RecoveryReports
