import Downpour.RecoverySafety
import Downpour.Startup

/-!
Isolation of the downloads in startup recovery. The rows of a download, its part file and
its journal are the footprint of its reconcile. As long as no two downloads share a file,
the pass over all rows leaves every download as its own reconcile alone would leave it.
-/

namespace Downpour.StartupIsolation
open JournalFormat Metadata Recovery RecoverySteps RecoverySafety Footprints Startup

inductive Place where
  | rows (id : DownloadId)
  | file (path : String)

inductive Content where
  | rows (rows : Store)
  | bytes (content : Option (List UInt8))

def view (machine : Machine) : Place → Content
  | .rows id => .rows (machine.store.rows id)
  | .file path => .bytes (machine.files path)

def footprint (id : DownloadId) (part journal : String) : Set Place :=
  {.rows id, .file part, .file journal}

theorem same_view_iff (left right : Machine) (id : DownloadId) (part journal : String) :
    (∀ place ∈ footprint id part journal, view left place = view right place) ↔
      left.world id part journal = right.world id part journal := by
  simp [footprint, view, Machine.world]

section Steps
variable (crc32c : List UInt8 → UInt32)

theorem reconcile_local (id : DownloadId) (part : String) (apart : part ≠ journal)
    (named : ∀ metadata, start.store.download id = some metadata → metadata.partPath = part)
    (io : ReconcileIo) (nowMs : Nat) :
    LocalAt view start (footprint id part journal)
      fun machine => Startup.reconcileDownload crc32c machine id journal io nowMs := by
  have simulates : ∀ machine : Machine,
      machine.world id part journal = start.world id part journal → _ := fun machine same =>
    reconcile_simulates machine id part journal crc32c apart
      (fun metadata found => named metadata ((congrArg (·.store.download) same).symm.trans found))
      io nowMs
  have alone := simulates start rfl
  refine ⟨?_, ?_, ?_⟩
  · intro machine agrees
    have same := (same_view_iff machine start id part journal).mp agrees
    have shared := simulates machine same
    rw [same] at shared
    exact shared.result.trans alone.result.symm
  · intro machine agrees
    have same := (same_view_iff machine start id part journal).mp agrees
    have shared := simulates machine same
    rw [same] at shared
    exact (same_view_iff _ _ id part journal).mpr (shared.world.trans alone.world.symm)
  · intro machine agrees place outside
    have shared := simulates machine ((same_view_iff machine start id part journal).mp agrees)
    simp only [footprint, Set.mem_insert_iff, Set.mem_singleton_iff, not_or] at outside
    cases place with
    | rows other =>
      exact congrArg Content.rows (shared.elsewhere.rows other fun same => outside.1 (by rw [same]))
    | file path =>
      exact congrArg Content.bytes (shared.elsewhere.files path
        (fun same => outside.2.1 (by rw [same])) fun same => outside.2.2 (by rw [same]))

/-! What the pass loads. -/

def Loadable (database : Database) (io : RecoverIo) : Prop :=
  io.listing = none ∧ ∀ id metadata, database.download id = some metadata →
    tryFromBytes id = .ok id ∧ io.loading id = none ∧ Valid metadata

theorem try_from_bytes_same {bytes id : DownloadId} (checked : tryFromBytes bytes = .ok id) : id = bytes := by
  unfold tryFromBytes at checked
  split_ifs at checked
  cases checked
  rfl

theorem download_id_of_key (bytes : DownloadId) :
    downloadIdFromSlice bytes.toList = tryFromBytes bytes := by
  rw [downloadIdFromSlice, dif_pos bytes.toList_length]
  rfl

theorem load_each_end (database : Database) {failure : DownloadId → Option MetadataError}
    {ids : List DownloadId} {rows : List (DownloadId × DownloadMetadata)}
    (loaded : database.loadEach failure ids = .ok rows) :
    rows.map Prod.fst = ids ∧ ∀ row ∈ rows, database.download row.1 = some row.2 ∧
      tryFromBytes row.1 = .ok row.1 ∧ failure row.1 = none ∧ Valid row.2 := by
  induction ids generalizing rows with
  | nil =>
    cases loaded
    exact ⟨rfl, by simp⟩
  | cons bytes rest ih =>
    rw [Database.loadEach, download_id_of_key] at loaded
    cases checked : tryFromBytes bytes with
    | error error =>
      rw [checked] at loaded
      cases loaded
    | ok id =>
      obtain rfl := try_from_bytes_same checked
      simp only [checked] at loaded
      split at loaded
      · cases loaded
      · cases loaded
      next metadata found =>
        split at loaded
        · cases loaded
        next later behind =>
          cases loaded
          obtain ⟨same, valid⟩ := ih behind
          obtain ⟨stored, sound⟩ := load_download_end found
          have readable : failure id = none := by
            cases failed : failure id with
            | none => rfl
            | some error =>
              rw [Database.loadDownload, failed] at found
              cases found
          refine ⟨by rw [List.map_cons, same], fun row mem => ?_⟩
          rcases List.mem_cons.mp mem with rfl | rest
          · exact ⟨stored, checked, readable, sound⟩
          · exact valid row rest

theorem load_each_total (database : Database) (failure : DownloadId → Option MetadataError)
    (readable : ∀ id ∈ ids, tryFromBytes id = .ok id ∧ failure id = none ∧
      ∃ metadata, database.download id = some metadata ∧ Valid metadata) :
    ∃ rows, database.loadEach failure ids = .ok rows := by
  induction ids with
  | nil => exact ⟨[], rfl⟩
  | cons id rest ih =>
    obtain ⟨checked, free, metadata, stored, valid⟩ := readable id List.mem_cons_self
    obtain ⟨rows, later⟩ := ih fun other mem => readable other (List.mem_cons_of_mem _ mem)
    have found : database.loadDownload id (failure id) = .ok (some metadata) := by
      rw [free]
      exact load_download_valid (database.rows id) stored valid
    refine ⟨(id, metadata) :: rows, ?_⟩
    simp only [Database.loadEach, download_id_of_key, checked, found, later]

def inOrder (database : Database) : List DownloadId :=
  database.ids.insertionSort Database.idOrder

theorem in_order_perm (database : Database) : (inOrder database).Perm database.ids :=
  List.perm_insertionSort _ _

theorem load_downloads_iff (database : Database) (io : RecoverIo) :
    (∃ rows, database.loadDownloads io.listing io.loading = .ok rows) ↔ Loadable database io := by
  have listed : ∀ id, id ∈ inOrder database ↔ (database.download id).isSome = true := fun id =>
    (in_order_perm database).mem_iff.trans (database.listed id)
  unfold Database.loadDownloads Loadable
  cases io.listing with
  | some error => simp
  | none =>
    simp only [true_and]
    constructor
    · rintro ⟨rows, loaded⟩ id metadata stored
      obtain ⟨same, valid⟩ := load_each_end database loaded
      have mem : id ∈ rows.map Prod.fst := by
        rw [same]
        exact (listed id).mpr (by rw [stored]; rfl)
      obtain ⟨row, present, rfl⟩ := List.mem_map.mp mem
      obtain ⟨found, loadable⟩ := valid row present
      rw [stored] at found
      cases found
      exact loadable
    · intro readable
      apply load_each_total
      intro id mem
      obtain ⟨metadata, stored⟩ := Option.isSome_iff_exists.mp ((listed id).mp mem)
      obtain ⟨checked, free, valid⟩ := readable id metadata stored
      exact ⟨checked, free, metadata, stored, valid⟩

/-! The loop as a run of one step after another. -/

variable (journalDir : String → String) (io : DownloadId → ReconcileIo) (nowMs : Nat)

def reconcileStep (id : DownloadId) (machine : Machine) :
    Except RecoveryError Reconciliation × Machine :=
  Startup.reconcileDownload crc32c machine id (journalPathFor journalDir id) (io id) nowMs

def activeIds (rows : List (DownloadId × DownloadMetadata)) : List DownloadId :=
  (rows.filter fun row => !row.2.state.terminal).map Prod.fst

theorem recover_each_runs (machine : Machine) (summary : RecoverySummary)
    (rows : List (DownloadId × DownloadMetadata)) :
    let run := runEach (reconcileStep crc32c journalDir io nowMs) machine (activeIds rows)
    recoverEach crc32c journalDir io nowMs machine summary rows =
      (⟨summary.downloads ++ run.1.map fun done => ⟨done.1, done.2⟩,
        summary.skipped + (rows.filter fun row => row.2.state.terminal).length⟩, run.2) := by
  induction rows generalizing machine summary with
  | nil => simp [recoverEach, activeIds, runEach]
  | cons row rest ih =>
    obtain ⟨id, metadata⟩ := row
    cases terminal : metadata.state.terminal with
    | true =>
      rw [recoverEach, if_pos terminal, ih]
      simp [activeIds, terminal, Nat.add_assoc, Nat.add_comm 1]
    | false =>
      rw [recoverEach, if_neg (by simp [terminal]), ih]
      simp [activeIds, terminal, runEach, reconcileStep]

/-! A reconcile that returns leaves a row at rest. -/

def Resting (state : DownloadState) : Prop :=
  state = .paused ∨ state = .completed ∨ state = .failed

def Rests (outcome : Except RecoveryError Reconciliation × World) : Prop :=
  ∀ reconciled, outcome.1 = .ok reconciled →
    ∃ row, outcome.2.store.download = some row ∧ Resting row.state

theorem error_rests (error : RecoveryError) (world : World) : Rests (.error error, world) := by
  intro reconciled returned
  cases returned

theorem fail_rests (world : World) (metadata : DownloadMetadata) (kind : FailureKind)
    (failIo : ReconcileIo) : Rests (Recovery.fail world metadata kind failIo nowMs) := by
  rcases fail_end world metadata kind failIo nowMs with
    ⟨error, failed⟩ | ⟨reconciled, store, row, saved, stored, terminal, _⟩
  · rw [failed]
    exact error_rests error world
  · rw [saved]
    exact fun _ _ => ⟨row, stored, Or.inr (Or.inr terminal)⟩

theorem persist_rests (world : World) (metadata : DownloadMetadata)
    (effectiveLength : Nat) (persistIo : ReconcileIo) (paused : reconciled.state = .paused) :
    Rests (Recovery.persist world metadata reconciled effectiveLength persistIo nowMs) := by
  rcases persist_end world metadata reconciled effectiveLength persistIo nowMs with
    ⟨error, failed⟩ | ⟨store, stored, _, ⟨error, failed⟩ | ⟨saved, _⟩⟩
  · rw [failed]
    exact error_rests error _
  · rw [failed]
    exact error_rests error _
  · rw [saved]
    exact fun _ _ => ⟨_, stored, Or.inl paused⟩

theorem reconcile_journal_rests (world : World) (id : DownloadId) (metadata : DownloadMetadata)
    (totalLength : Nat) (recovered : PartFile.RecoveredPartFile) (journalIo : ReconcileIo) :
    Rests (Recovery.reconcileJournal crc32c world id metadata totalLength recovered journalIo
      nowMs) := by
  unfold Recovery.reconcileJournal
  simp only
  split
  · exact fail_rests nowMs _ metadata _ journalIo
  · split_ifs
    · exact persist_rests nowMs _ metadata _ journalIo rfl
    · exact error_rests _ _
  · unfold Recovery.reconcileRecords
    split_ifs
    · exact fail_rests nowMs _ metadata _ journalIo
    · exact error_rests _ _
    · split
      · exact fail_rests nowMs _ metadata _ journalIo
      · split
        · exact error_rests _ _
        · split
          · exact error_rests _ _
          · exact persist_rests nowMs _ metadata _ journalIo rfl

theorem reconcile_rests (world : World) (id : DownloadId) (reconcileIo : ReconcileIo) :
    let alone := Recovery.reconcileDownload crc32c world id reconcileIo nowMs
    Rests (alone.result, alone.world) := by
  unfold Recovery.reconcileDownload
  split
  · exact error_rests _ _
  · exact error_rests _ _
  · split_ifs
    · exact error_rests _ _
    · split
      · split
        · exact fail_rests nowMs _ _ _ reconcileIo
        · split
          · exact error_rests _ _
          · exact reconcile_journal_rests crc32c nowMs _ id _ _ _ reconcileIo
      · exact fail_rests nowMs _ _ _ reconcileIo

end Steps

/-! The pass over all downloads. -/

section Pass
variable (crc32c : List UInt8 → UInt32) (machine : Machine) (journalDir : String → String)

/-- No two downloads share a part file or a journal, and no part file is a journal. -/
structure Distinct : Prop where
  parts : ∀ id other row otherRow, machine.store.download id = some row →
    machine.store.download other = some otherRow → row.partPath = otherRow.partPath → id = other
  journals : ∀ id ∈ machine.store.ids, ∀ other ∈ machine.store.ids,
    journalPathFor journalDir id = journalPathFor journalDir other → id = other
  apart : ∀ id row, machine.store.download id = some row → ∀ other ∈ machine.store.ids,
    row.partPath ≠ journalPathFor journalDir other

structure Isolates (io : RecoverIo) (nowMs : Nat) (summary : RecoverySummary) (after : Machine) :
    Prop where
  outcomes : ∀ id metadata, machine.store.download id = some metadata →
    metadata.state.terminal = false → ∀ outcome, ⟨id, outcome⟩ ∈ summary.downloads ↔
      outcome = (reconcileStep crc32c journalDir io.reconcile nowMs id machine).1
  own : ∀ id metadata, machine.store.download id = some metadata →
    metadata.state.terminal = false →
      after.world id metadata.partPath (journalPathFor journalDir id) =
        (reconcileStep crc32c journalDir io.reconcile nowMs id machine).2.world id metadata.partPath
          (journalPathFor journalDir id)
  terminal : ∀ id metadata, machine.store.download id = some metadata →
    metadata.state.terminal = true →
      after.world id metadata.partPath (journalPathFor journalDir id) =
        machine.world id metadata.partPath (journalPathFor journalDir id)
  rests : ∀ id metadata, after.store.download id = some metadata → Resting metadata.state ∨
    ∃ error, ⟨id, .error error⟩ ∈ summary.downloads
  counted : summary.recovered + summary.failed + summary.skipped = machine.store.ids.length

def partOf (id : DownloadId) : String :=
  ((machine.store.download id).map DownloadMetadata.partPath).getD ""

variable {id : DownloadId}

theorem part_of_row (stored : machine.store.download id = some metadata) :
    partOf machine id = metadata.partPath := by
  simp [partOf, stored]

def ownFootprint (id : DownloadId) : Set Place :=
  footprint id (partOf machine id) (journalPathFor journalDir id)

theorem footprints_disjoint (distinct : Distinct machine journalDir)
    (mine : id ∈ machine.store.ids) (theirs : other ∈ machine.store.ids) (different : id ≠ other) :
    Disjoint (ownFootprint machine journalDir id) (ownFootprint machine journalDir other) := by
  obtain ⟨row, stored⟩ := Option.isSome_iff_exists.mp ((machine.store.listed id).mp mine)
  obtain ⟨otherRow, otherStored⟩ :=
    Option.isSome_iff_exists.mp ((machine.store.listed other).mp theirs)
  have parts : row.partPath ≠ otherRow.partPath := fun same =>
    different (distinct.parts id other row otherRow stored otherStored same)
  have journals : journalPathFor journalDir id ≠ journalPathFor journalDir other := fun same =>
    different (distinct.journals id mine other theirs same)
  have apart := distinct.apart id row stored other theirs
  have otherApart := distinct.apart other otherRow otherStored id mine
  simp [ownFootprint, footprint, part_of_row machine stored,
    part_of_row machine otherStored, different.symm, parts.symm, journals.symm,
    apart.symm, otherApart]

theorem pass_isolated (distinct : Distinct machine journalDir) (io : DownloadId → ReconcileIo)
    (nowMs : Nat) (unique : ids.Nodup) (present : ∀ id ∈ ids, id ∈ machine.store.ids) :
    Footprints.Isolated view (ownFootprint machine journalDir)
      (reconcileStep crc32c journalDir io nowMs) machine machine ids
      (runEach (reconcileStep crc32c journalDir io nowMs) machine ids) := by
  apply run_each_isolated
  · exact unique.imp_of_mem fun mine theirs different =>
      footprints_disjoint machine journalDir distinct (present _ mine) (present _ theirs) different
  · intro id mem
    obtain ⟨row, stored⟩ := Option.isSome_iff_exists.mp ((machine.store.listed id).mp (present id mem))
    have same := part_of_row machine stored
    apply reconcile_local crc32c id _ _ _ (io id) nowMs
    · rw [same]
      exact distinct.apart id row stored id (present id mem)
    · intro metadata found
      rw [part_of_row machine found]

theorem outside_others (distinct : Distinct machine journalDir) (mine : id ∈ machine.store.ids)
    {ids : List DownloadId} (present : ∀ other ∈ ids, other ∈ machine.store.ids) (absent : id ∉ ids)
    (inside : place ∈ ownFootprint machine journalDir id) :
    ∀ other ∈ ids, place ∉ ownFootprint machine journalDir other := by
  intro other mem theirs
  have different : id ≠ other := fun same => absent (same ▸ mem)
  exact Set.disjoint_left.mp
    (footprints_disjoint machine journalDir distinct mine (present other mem) different)
    inside theirs

/-- The rows of one pass, split into those it reconciles and those it skips. -/
structure Loaded (rows : List (DownloadId × DownloadMetadata)) : Prop where
  ids : (rows.map Prod.fst).Perm machine.store.ids
  stored : ∀ row ∈ rows, machine.store.download row.1 = some row.2

variable {machine} in
theorem Loaded.active_iff (loaded : Loaded machine rows)
    (stored : machine.store.download id = some metadata) :
    id ∈ activeIds rows ↔ metadata.state.terminal = false := by
  have listed : id ∈ rows.map Prod.fst := loaded.ids.mem_iff.mpr
    ((machine.store.listed id).mpr (by rw [stored]; rfl))
  obtain ⟨row, mem, rfl⟩ := List.mem_map.mp listed
  have same := loaded.stored row mem
  rw [stored] at same
  cases same
  constructor
  · intro active
    obtain ⟨other, kept, sameId⟩ := List.mem_map.mp active
    obtain ⟨otherMember, unfinished⟩ := List.mem_filter.mp kept
    have otherStored := loaded.stored other otherMember
    rw [sameId, stored] at otherStored
    rw [Option.some.inj otherStored]
    simpa using unfinished
  · intro unfinished
    exact List.mem_map.mpr ⟨row, List.mem_filter.mpr ⟨mem, by simpa using unfinished⟩, rfl⟩

variable {machine} in
theorem Loaded.present (loaded : Loaded machine rows)
    (id : DownloadId) (active : id ∈ activeIds rows) : id ∈ machine.store.ids := by
  obtain ⟨row, kept, rfl⟩ := List.mem_map.mp active
  exact loaded.ids.mem_iff.mp (List.mem_map_of_mem (List.mem_filter.mp kept).1)

variable {machine} in
theorem Loaded.unique (loaded : Loaded machine rows) :
    (activeIds rows).Nodup :=
  (List.filter_sublist.map _).nodup (loaded.ids.nodup_iff.mpr machine.store.unique)

variable {machine} in
theorem Loaded.split (loaded : Loaded machine rows) :
    (activeIds rows).length + (rows.filter fun row => row.2.state.terminal).length =
      machine.store.ids.length := by
  have whole := List.length_eq_length_filter_add (l := rows) fun row => row.2.state.terminal
  rw [← loaded.ids.length_eq, List.length_map, whole, activeIds, List.length_map, Nat.add_comm]

abbrev PassIsolated (io : RecoverIo) (nowMs : Nat) (rows : List (DownloadId × DownloadMetadata))
    (run : List (DownloadId × Except RecoveryError Reconciliation) × Machine) : Prop :=
  Footprints.Isolated view (ownFootprint machine journalDir)
    (reconcileStep crc32c journalDir io.reconcile nowMs) machine machine (activeIds rows) run

def attempted (run : List (DownloadId × Except RecoveryError Reconciliation) × Machine) :
    List RecoveredDownload :=
  run.1.map fun done => ⟨done.1, done.2⟩

section Run
variable {crc32c machine journalDir} {io : RecoverIo} {nowMs : Nat}
  {rows : List (DownloadId × DownloadMetadata)}
  {run : List (DownloadId × Except RecoveryError Reconciliation) × Machine}

theorem run_outcomes (loaded : Loaded machine rows)
    (isolated : PassIsolated crc32c machine journalDir io nowMs rows run) (id : DownloadId)
    (metadata : DownloadMetadata) (stored : machine.store.download id = some metadata)
    (active : metadata.state.terminal = false) (outcome : Except RecoveryError Reconciliation) :
    ⟨id, outcome⟩ ∈ attempted run ↔
      outcome = (reconcileStep crc32c journalDir io.reconcile nowMs id machine).1 := by
  have mem := (loaded.active_iff stored).mpr active
  rw [attempted, isolated.results, List.map_map, List.mem_map]
  constructor
  · rintro ⟨other, _, same⟩
    cases same
    rfl
  · rintro rfl
    exact ⟨id, mem, rfl⟩

theorem run_own (loaded : Loaded machine rows)
    (isolated : PassIsolated crc32c machine journalDir io nowMs rows run) (id : DownloadId)
    (metadata : DownloadMetadata) (stored : machine.store.download id = some metadata)
    (active : metadata.state.terminal = false) :
    run.2.world id metadata.partPath (journalPathFor journalDir id) =
      (reconcileStep crc32c journalDir io.reconcile nowMs id machine).2.world id metadata.partPath
        (journalPathFor journalDir id) := by
  apply (same_view_iff _ _ _ _ _).mp
  intro place inside
  apply isolated.inside id ((loaded.active_iff stored).mpr active)
  rw [ownFootprint, part_of_row machine stored]
  exact inside

theorem run_terminal (distinct : Distinct machine journalDir) (loaded : Loaded machine rows)
    (isolated : PassIsolated crc32c machine journalDir io nowMs rows run) (id : DownloadId)
    (metadata : DownloadMetadata) (stored : machine.store.download id = some metadata)
    (terminal : metadata.state.terminal = true) :
    run.2.world id metadata.partPath (journalPathFor journalDir id) =
      machine.world id metadata.partPath (journalPathFor journalDir id) := by
  apply (same_view_iff _ _ _ _ _).mp
  intro place inside
  apply isolated.outside place
  apply outside_others machine journalDir distinct
    ((machine.store.listed id).mpr (by rw [stored]; rfl)) loaded.present
  · rw [loaded.active_iff stored, terminal]
    exact Bool.noConfusion
  · rw [ownFootprint, part_of_row machine stored]
    exact inside

theorem run_adds_none (loaded : Loaded machine rows)
    (isolated : PassIsolated crc32c machine journalDir io nowMs rows run)
    (missing : machine.store.download id = none) : run.2.store.download id = none := by
  have absent : id ∉ machine.store.ids := by
    rw [machine.store.listed, missing]
    exact Bool.noConfusion
  have untouched := isolated.outside (.rows id) fun other mem inside => by
    simp only [ownFootprint, footprint, Set.mem_insert_iff, Set.mem_singleton_iff,
      Place.rows.injEq, reduceCtorEq, or_false] at inside
    exact absent (inside ▸ loaded.present other mem)
  exact (congrArg Store.download (Content.rows.inj untouched)).trans missing

theorem terminal_resting (terminal : state.terminal = true) :
    Resting state := by
  cases state with
  | completed => exact Or.inr (Or.inl rfl)
  | failed => exact Or.inr (Or.inr rfl)
  | _ => cases terminal

theorem run_rests (distinct : Distinct machine journalDir) (loaded : Loaded machine rows)
    (isolated : PassIsolated crc32c machine journalDir io nowMs rows run) (id : DownloadId)
    (row : DownloadMetadata) (stored : run.2.store.download id = some row) :
    Resting row.state ∨ ∃ error, ⟨id, .error error⟩ ∈ attempted run := by
  cases before : machine.store.download id with
  | none =>
    rw [run_adds_none loaded isolated before] at stored
    cases stored
  | some metadata =>
    cases active : metadata.state.terminal with
    | true =>
      have kept := congrArg (fun world => world.store.download)
        (run_terminal distinct loaded isolated id metadata before active)
      have same : some row = some metadata := stored.symm.trans (kept.trans before)
      cases same
      exact Or.inl (terminal_resting active)
    | false =>
      have mem := (machine.store.listed id).mpr (by rw [before]; rfl)
      have simulates := reconcile_simulates machine id metadata.partPath
        (journalPathFor journalDir id) crc32c (distinct.apart id metadata before id mem)
        (fun other found => by rw [before] at found; cases found; rfl) (io.reconcile id) nowMs
      cases result : (reconcileStep crc32c journalDir io.reconcile nowMs id machine).1 with
      | error error =>
        exact Or.inr ⟨error, (run_outcomes loaded isolated id metadata before active _).mpr
          result.symm⟩
      | ok reconciled =>
        obtain ⟨last, lastStored, resting⟩ := reconcile_rests crc32c nowMs
          (machine.world id metadata.partPath (journalPathFor journalDir id)) id
          (io.reconcile id) reconciled (simulates.result.symm.trans result)
        have own := congrArg (fun world => world.store.download)
          ((run_own loaded isolated id metadata before active).trans simulates.world)
        have same : some row = some last := stored.symm.trans (own.trans lastStored)
        cases same
        exact Or.inl resting

theorem run_counted (loaded : Loaded machine rows)
    (isolated : PassIsolated crc32c machine journalDir io nowMs rows run)
    {summary : RecoverySummary} (downloads : summary.downloads = attempted run)
    (skipped : summary.skipped = (rows.filter fun row => row.2.state.terminal).length) :
    summary.recovered + summary.failed + summary.skipped = machine.store.ids.length := by
  have fewer : summary.recovered ≤ summary.downloads.length := List.length_filter_le _ _
  have size : summary.downloads.length = (activeIds rows).length := by
    rw [downloads, attempted, isolated.results, List.length_map, List.length_map]
  have split := loaded.split
  unfold RecoverySummary.failed
  omega

end Run

theorem pass_isolates (distinct : Distinct machine journalDir) (io : RecoverIo) (nowMs : Nat)
    (loaded : Loaded machine rows) :
    let outcome := recoverEach crc32c journalDir io.reconcile nowMs machine ⟨[], 0⟩ rows
    Isolates crc32c machine journalDir io nowMs outcome.1 outcome.2 := by
  simp only [recover_each_runs, List.nil_append, Nat.zero_add]
  have isolated := pass_isolated crc32c machine journalDir distinct io.reconcile nowMs
    loaded.unique loaded.present
  exact {
    outcomes := run_outcomes loaded isolated
    own := run_own loaded isolated
    terminal := run_terminal distinct loaded isolated
    rests := run_rests distinct loaded isolated
    counted := run_counted loaded isolated rfl rfl }

/-- With distinct files, startup recovery isolates the downloads exactly if every row of
the store can be loaded. -/
theorem recover_all_isolates_iff (distinct : Distinct machine journalDir) (io : RecoverIo)
    (nowMs : Nat) :
    (∃ summary after, recoverAll crc32c machine journalDir io nowMs = (.ok summary, after) ∧
      Isolates crc32c machine journalDir io nowMs summary after) ↔ Loadable machine.store io := by
  rw [← load_downloads_iff]
  unfold recoverAll
  constructor
  · rintro ⟨summary, after, recovered, _⟩
    cases found : machine.store.loadDownloads io.listing io.loading with
    | error error =>
      rw [found] at recovered
      cases recovered
    | ok rows => exact ⟨rows, rfl⟩
  · rintro ⟨rows, found⟩
    have loaded : Loaded machine rows := by
      unfold Database.loadDownloads at found
      split at found
      · cases found
      · obtain ⟨same, valid⟩ := load_each_end machine.store found
        exact ⟨same ▸ in_order_perm machine.store, fun row mem => (valid row mem).1⟩
    rw [found]
    exact ⟨_, _, rfl, pass_isolates crc32c machine journalDir distinct io nowMs loaded⟩

end Pass

/-! Two downloads, one with a row that claims more bytes than its file has. -/

def sparedId : DownloadId := ⟨[0, 0, 0, 0, 0, 0, 0x70, 0, 0x80, 0, 0, 0, 0, 0, 0, 1], rfl⟩

def journals (name : String) : String := name

theorem hex_byte_chars (byte : UInt8) :
    (hexByte byte).toList = [(byte.toNat / 16).digitChar, (byte.toNat % 16).digitChar] := by
  simp [hexByte]

theorem journal_path_chars (id : DownloadId) :
    (journalPathFor journals id).toList =
      id.toList.flatMap (fun byte => [(byte.toNat / 16).digitChar, (byte.toNat % 16).digitChar]) ++
        ['.', 'd', 'p', 'j'] := by
  have bytes : String.toList ∘ hexByte =
      fun byte => [(byte.toNat / 16).digitChar, (byte.toNat % 16).digitChar] := funext hex_byte_chars
  simp [journalPathFor, journals, List.flatMap, bytes]

theorem journal_path_length (id : DownloadId) : (journalPathFor journals id).toList.length = 36 := by
  simp [journal_path_chars, List.length_flatMap]

def pairOf (row : DownloadMetadata) : Machine where
  store := {
    ids := [tornId, sparedId]
    download id := if id = tornId then some row else if id = sparedId then
      some { tornRow with partPath := "spared.bin.dppart" } else none
    checkpoint _ := .absent
    unique := by decide
    listed id := by
      by_cases torn : id = tornId
      · simp [torn]
      · by_cases spared : id = sparedId
        · rw [if_neg torn, if_pos spared, spared]
          decide
        · simp [torn, spared] }
  files _ := none

def quietPass : RecoverIo := ⟨none, fun _ => none, fun _ => quietIo⟩

def overfullRow : DownloadMetadata := { tornRow with coveredBytes := 11 }

theorem pair_distinct (path : row.partPath = tornRow.partPath) :
    Distinct (pairOf row) journals := by
  have names : journalPathFor journals tornId ≠ journalPathFor journals sparedId := by
    intro same
    have chars := congrArg String.toList same
    rw [journal_path_chars, journal_path_chars] at chars
    exact absurd chars (by decide)
  have short : ∀ (path : String) (id : DownloadId), path.toList.length < 36 →
      path ≠ journalPathFor journals id := by
    rintro path id less rfl
    rw [journal_path_length] at less
    omega
  have rows : ∀ id stored, (pairOf row).store.download id = some stored →
      (id = tornId ∧ stored.partPath = tornRow.partPath) ∨
        (id = sparedId ∧ stored.partPath = "spared.bin.dppart") := by
    intro id stored found
    simp only [pairOf] at found
    split_ifs at found with torn spared
    · cases found
      exact Or.inl ⟨torn, path⟩
    · cases found
      exact Or.inr ⟨spared, rfl⟩
  have parts : tornRow.partPath ≠ "spared.bin.dppart" := by decide
  refine ⟨?_, ?_, ?_⟩
  · intro first second firstRow secondRow firstStored secondStored same
    rcases rows first firstRow firstStored with ⟨rfl, here⟩ | ⟨rfl, here⟩ <;>
      rcases rows second secondRow secondStored with ⟨rfl, there⟩ | ⟨rfl, there⟩
    · rfl
    · exact absurd (here.symm.trans (same.trans there)) parts
    · exact absurd (there.symm.trans (same.symm.trans here)) parts
    · rfl
  · intro first firstListed second secondListed same
    rcases List.mem_pair.mp firstListed with rfl | rfl <;>
      rcases List.mem_pair.mp secondListed with rfl | rfl
    · rfl
    · exact absurd same names
    · exact absurd same.symm names
    · rfl
  · intro first firstRow stored second _
    rcases rows first firstRow stored with ⟨rfl, here⟩ | ⟨rfl, here⟩
    · rw [here]
      exact short _ second (by decide)
    · rw [here]
      exact short _ second (by decide)

/-- One row that fails its checks keeps the pass from all others: the second download stays
as it was, although its own reconcile would have ended it. -/
theorem overfull_row_stops_pass :
    Distinct (pairOf overfullRow) journals ∧
      (∃ error, recoverAll WriterCrash.zeroChecksum (pairOf overfullRow) journals quietPass 0 =
        (.error (.metadata error), pairOf overfullRow)) ∧
      ((Startup.reconcileDownload WriterCrash.zeroChecksum (pairOf overfullRow) sparedId
        (journalPathFor journals sparedId) quietIo 0).2.store.download sparedId).map (·.state) =
          some .failed ∧
      ((pairOf overfullRow).store.download sparedId).map (·.state) = some .transferring := by
  exact ⟨pair_distinct rfl, ⟨.invalidValue "downloads.covered_bytes", rfl⟩, rfl, rfl⟩

theorem recover_all_isolates_pair : ∃ summary after,
    recoverAll WriterCrash.zeroChecksum (pairOf tornRow) journals quietPass 0 = (.ok summary, after) ∧
      Isolates WriterCrash.zeroChecksum (pairOf tornRow) journals quietPass 0 summary after := by
  apply (recover_all_isolates_iff WriterCrash.zeroChecksum (pairOf tornRow) journals
    (pair_distinct rfl) quietPass 0).mpr
  refine ⟨rfl, fun id metadata stored => ?_⟩
  simp only [pairOf] at stored
  split_ifs at stored with torn spared
  · cases stored
    exact ⟨torn ▸ by decide, rfl, (validate_metadata_iff _).mp rfl⟩
  · cases stored
    exact ⟨spared ▸ by decide, rfl, (validate_metadata_iff _).mp rfl⟩

end Downpour.StartupIsolation
