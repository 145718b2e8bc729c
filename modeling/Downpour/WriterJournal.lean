import Downpour.JournalState
import Downpour.Writer

/-!
The writer and its journal agree. Along every run from a given start the synced
journal holds, behind what it held at the start, one record for each block that
was committed; until a flush fails these blocks are exactly the bytes that the
run completed. Inside a call the map is still the one from before the call,
because a flush installs the next map after its last disk event.
-/

namespace Downpour.WriterJournal
open Intervals JournalFormat JournalReplay JournalState CrashDisk Writer

/-- Where a writer starts: the synced journal and how many records it holds, and
the map, of which only the complete bytes matter. -/
structure Start where
  log : List UInt8
  records : Nat
  length : Nat
  complete : Nat → Prop
  completeBytes : Nat
  bounded : length < 2 ^ 64

section Agreement
variable (crc32c : List UInt8 → UInt32) (start : Start)

/-- Behind the log of the start the journal holds exactly the given blocks, which
share no byte with each other or with what was complete. -/
structure JournalHolds (durable : List UInt8) (frames : List FramedRecord) (bytes : List UInt8)
    (blocks : List CompletedBlock) : Prop where
  framed : Framed crc32c frames bytes
  content : durable = start.log ++ bytes
  recorded : frames.map FramedRecord.record = blocks.map CompletedBlock.asRecord
  ordered : Contiguous start.records frames
  fits : ∀ block ∈ blocks, Fits start.length block
  apart : blocks.Pairwise CompletedBlock.Apart
  fresh : ∀ block ∈ blocks, ∀ pos, block.Covers pos → ¬ start.complete pos
  short : bytes = [] ∨ start.log.length + bytes.length ≤ maxFileLength
  counted : start.records + frames.length < 2 ^ 64

def Recoverable (durable : List UInt8) (intervals : IntervalMap) : Prop :=
  ∃ frames bytes blocks, JournalHolds crc32c start durable frames bytes blocks ∧
    ∀ pos, intervals.stateAt pos = some .complete →
      start.complete pos ∨ ∃ block ∈ blocks, block.Covers pos

def WellStaged (block : StagedBlock) : Prop :=
  block.range.stop = block.range.start + block.recordLength.toNat ∧ block.range.stop < 2 ^ 64

def completedBlock (block : StagedBlock) : CompletedBlock :=
  ⟨UInt64.ofNat block.range.start, block.recordLength, block.blake3⟩

theorem completed_block_range (well : WellStaged block) :
    (completedBlock block).start = block.range.start ∧
      (completedBlock block).stop = block.range.stop := by
  obtain ⟨stop, representable⟩ := well
  have start : (UInt64.ofNat block.range.start).toNat = block.range.start :=
    UInt64.toNat_ofNat_of_lt' (Nat.lt_of_le_of_lt (stop ▸ Nat.le_add_right _ _) representable)
  constructor
  · exact start
  · rw [CompletedBlock.stop, completedBlock, start, stop]

structure Agreement (writer : DurableWriter) (intervals : IntervalMap) (flushFailed : Bool)
    (disk : Disk UInt8) (frames : List FramedRecord) (bytes : List UInt8)
    (blocks : List CompletedBlock) : Prop where
  journal : JournalHolds crc32c start disk.durableLog frames bytes blocks
  sameLength : intervals.totalLength = start.length
  covered : ∀ pos, intervals.stateAt pos = some .complete →
    start.complete pos ∨ ∃ block ∈ blocks, block.Covers pos
  kept : ∀ pos, start.complete pos → intervals.stateAt pos = some .complete
  exact : writer.poisoned = false ∨ flushFailed = false →
    (∀ block ∈ blocks, ∀ pos, block.Covers pos →
      intervals.stateAt pos = some .complete) ∧
    writer.durableBytes + start.completeBytes = intervals.completeBytes
  synced : writer.poisoned = false ∨ flushFailed = false → disk.pendingLog = []
  numbered : writer.poisoned = false → writer.nextSequence = start.records + frames.length
  sized : writer.poisoned = false → writer.journalBytes = start.log.length + bytes.length
  staged : ∀ block ∈ writer.staged, WellStaged block

def Agrees (writer : DurableWriter) (intervals : IntervalMap) (flushFailed : Bool)
    (disk : Disk UInt8) : Prop :=
  ∃ frames bytes blocks,
    Agreement crc32c start writer intervals flushFailed disk frames bytes blocks

variable {crc32c start} {writer : DurableWriter} {intervals next : IntervalMap} {flushFailed : Bool}
    {disk fresh : Disk UInt8} {frames : List FramedRecord} {bytes : List UInt8}
    {blocks : List CompletedBlock} {session : Session}

theorem agrees_recoverable (agrees : Agrees crc32c start writer intervals flushFailed disk) :
    Recoverable crc32c start disk.durableLog intervals := by
  obtain ⟨frames, bytes, blocks, agreement⟩ := agrees
  exact ⟨frames, bytes, blocks, agreement.journal, agreement.covered⟩

theorem durable_log_kept (disk : Disk UInt8) (other : event ≠ .syncLog) :
    (disk.apply event).durableLog = disk.durableLog := by
  cases event with
  | syncLog => exact absurd rfl other
  | _ => rfl

theorem interrupted_not_synced {event torn : Event UInt8} (interrupted : Interrupted event torn) :
    torn ≠ .syncLog := by
  cases interrupted <;> simp

theorem unsynced_throughout (disk : Disk UInt8) (events : List (Event UInt8))
    (unsynced : ∀ event ∈ events, event ≠ .syncLog)
    (recoverable : Recoverable crc32c start disk.durableLog intervals) :
    Throughout (fun moment => Recoverable crc32c start moment.durableLog intervals) disk events ∧
      (disk.run events).durableLog = disk.durableLog := by
  induction events generalizing disk with
  | nil => exact ⟨recoverable, rfl⟩
  | cons event rest ih =>
    have kept := durable_log_kept disk (unsynced event List.mem_cons_self)
    obtain ⟨later, same⟩ := ih (disk.apply event)
      (fun other mem => unsynced other (List.mem_cons_of_mem _ mem)) (kept ▸ recoverable)
    refine ⟨⟨recoverable, ?_, later⟩, same.trans kept⟩
    intro torn interrupted
    rw [durable_log_kept disk (interrupted_not_synced interrupted)]
    exact recoverable

theorem append_run_log (run : AppendRun crc32c records events complete) (disk : Disk UInt8) :
    (∀ event ∈ events, event ≠ .syncLog) ∧ (complete = true → ∃ more, Framed crc32c records more ∧
        (disk.run events).pendingLog = disk.pendingLog ++ more) := by
  induction run generalizing disk with
  | done => exact ⟨by simp, fun _ => ⟨[], Framed.nil, by simp [Disk.run]⟩⟩
  | unencodable records => exact ⟨by simp, by simp⟩
  | torn record rest encoded landed written => exact ⟨by simp, by simp⟩
  | next record rest encoded events complete written later ih =>
    obtain ⟨unsynced, appended⟩ := ih (disk.apply (.append encoded))
    refine ⟨by simpa using unsynced, ?_⟩
    intro isComplete
    obtain ⟨more, framed, log⟩ := appended isComplete
    refine ⟨encoded ++ more, Framed.cons record rest encoded more written framed, ?_⟩
    rw [← List.append_assoc]
    exact log

theorem framed_records_recorded (sequence : Nat) (staged : List StagedBlock) :
    (framedRecords sequence staged).map FramedRecord.record =
      (staged.map completedBlock).map CompletedBlock.asRecord := by
  induction staged generalizing sequence with
  | nil => rfl
  | cons block rest ih =>
    simp only [framedRecords, List.map_cons, ih]
    rfl

theorem framed_records_length (sequence : Nat) (staged : List StagedBlock) :
    (framedRecords sequence staged).length = staged.length := by
  induction staged generalizing sequence with
  | nil => rfl
  | cons block rest ih => simp [framedRecords, ih]

theorem framed_records_contiguous {sequence : Nat} (numbered : sequence + staged.length < 2 ^ 64) :
    Contiguous sequence (framedRecords sequence staged) := by
  induction staged generalizing sequence with
  | nil => trivial
  | cons block rest ih =>
    simp only [List.length_cons] at numbered
    refine ⟨UInt64.toNat_ofNat_of_lt' ?_, ih (by omega)⟩
    exact Nat.lt_of_le_of_lt (Nat.le_add_right _ _) numbered

theorem durable_bytes_follow
    (done : completeAll map staged = .ok next) (bounded : map.totalLength < 2 ^ 64)
    (counted : durable + earlier = map.completeBytes) :
    staged.foldl (fun total block =>
      saturatingAdd total (block.range.stop - block.range.start)) durable + earlier =
        next.completeBytes := by
  -- The byte counter follows the map: it never saturates below a file length.
  induction staged generalizing map durable with
  | nil =>
    cases done
    exact counted
  | cons block rest ih =>
    unfold completeAll at done
    split at done
    · cases done
    next middle completed =>
      have moves := map.complete_moves middle block.range block.worker completed
      have grown := IntervalMap.complete_bytes_moves moves (by simp)
      have below := middle.complete_bytes_le
      have sameLength := moves.totalLength
      rw [List.foldl_cons]
      apply ih done (sameLength ▸ bounded)
      rw [saturatingAdd]
      omega

theorem staged_apart_recorded
    (agreement : Agreement crc32c start writer intervals flushFailed disk frames bytes blocks)
    (usable : writer.poisoned = false) (completes : CompletesAll intervals writer.staged next)
    (recorded : old ∈ blocks)
    (staged : block ∈ writer.staged) : old.Apart (completedBlock block) := by
  obtain ⟨begins, ends⟩ := completed_block_range (agreement.staged block staged)
  have ordered := completes.ordered block staged
  have positive := (agreement.journal.fits old recorded).positive
  have width : old.stop = old.start + old.len.toNat := rfl
  by_contra overlap
  rw [CompletedBlock.Apart, begins, ends] at overlap
  -- A shared byte would be complete for the journal and in progress for the batch.
  have complete := (agreement.exact (Or.inl usable)).1 old recorded
    (max old.start block.range.start) ⟨by omega, by omega⟩
  have owned := completes.owned block staged (max old.start block.range.start) (by omega) (by omega)
  rw [complete] at owned
  cases owned

theorem journal_committed
    (agreement : Agreement crc32c start writer intervals flushFailed disk frames bytes blocks)
    (usable : writer.poisoned = false) (completes : CompletesAll intervals writer.staged next)
    (numbered : writer.nextSequence + writer.staged.length < 2 ^ 64) {more : List UInt8}
    (framed : Framed crc32c (framedRecords writer.nextSequence writer.staged) more)
    (short : bytes ++ more = [] ∨ start.log.length + (bytes ++ more).length ≤ maxFileLength) :
    JournalHolds crc32c start (disk.durableLog ++ more)
      (frames ++ framedRecords writer.nextSequence writer.staged) (bytes ++ more)
      (blocks ++ writer.staged.map completedBlock) := by
  have journal := agreement.journal
  have sequence := agreement.numbered usable
  refine ⟨framed_append crc32c journal.framed framed, ?_, ?_, ?_, ?_, ?_, ?_, short, ?_⟩
  · rw [journal.content, List.append_assoc]
  · rw [List.map_append, List.map_append, journal.recorded, framed_records_recorded]
  · rw [contiguous_append]
    refine ⟨journal.ordered, ?_⟩
    rw [← sequence]
    exact framed_records_contiguous numbered
  · intro block mem
    rcases List.mem_append.mp mem with old | new
    · exact journal.fits block old
    · obtain ⟨staged, stagedMember, rfl⟩ := List.mem_map.mp new
      obtain ⟨begins, ends⟩ := completed_block_range (agreement.staged staged stagedMember)
      have ordered := completes.ordered staged stagedMember
      have bounded := completes.bounded staged stagedMember
      have width : (completedBlock staged).stop =
          (completedBlock staged).start + (completedBlock staged).len.toNat := rfl
      have sameLength := agreement.sameLength
      exact ⟨by omega, by omega⟩
  · rw [List.pairwise_append]
    refine ⟨journal.apart, ?_, ?_⟩
    · rw [List.pairwise_map]
      refine completes.apart.imp_of_mem ?_
      intro left right leftMember rightMember disjoint
      obtain ⟨leftStart, leftStop⟩ := completed_block_range (agreement.staged left leftMember)
      obtain ⟨rightStart, rightStop⟩ :=
        completed_block_range (agreement.staged right rightMember)
      rwa [CompletedBlock.Apart, leftStart, leftStop, rightStart, rightStop]
    · intro old recorded new mem
      obtain ⟨staged, stagedMember, rfl⟩ := List.mem_map.mp mem
      exact staged_apart_recorded agreement usable completes recorded stagedMember
  · intro block mem pos covers complete
    rcases List.mem_append.mp mem with old | new
    · exact journal.fresh block old pos covers complete
    · obtain ⟨staged, stagedMember, rfl⟩ := List.mem_map.mp new
      obtain ⟨begins, ends⟩ := completed_block_range (agreement.staged staged stagedMember)
      rw [CompletedBlock.Covers, begins, ends] at covers
      have owned := completes.owned staged stagedMember pos covers.1 covers.2
      rw [agreement.kept pos complete] at owned
      cases owned
  · rw [List.length_append, framed_records_length, ← Nat.add_assoc, ← sequence]
    exact numbered

theorem agreement_committed (synced : Disk UInt8)
    (agreement : Agreement crc32c start writer intervals flushFailed disk frames bytes blocks)
    (usable : writer.poisoned = false) (owned : completeAll intervals writer.staged = .ok next)
    (numbered : writer.nextSequence + writer.staged.length < 2 ^ 64)
    (framed : Framed crc32c (framedRecords writer.nextSequence writer.staged) more)
    (sized : journalBytes = start.log.length + (bytes ++ more).length)
    (short : bytes ++ more = [] ∨ start.log.length + (bytes ++ more).length ≤ maxFileLength)
    (durable : synced.durableLog = disk.durableLog ++ more) (clear : synced.pendingLog = []) :
    Agreement crc32c start (committed writer journalBytes) next flushFailed synced
      (frames ++ framedRecords writer.nextSequence writer.staged) (bytes ++ more)
      (blocks ++ writer.staged.map completedBlock) := by
  have completes := complete_all_completes _ _ _ owned
  obtain ⟨recorded, counted⟩ := agreement.exact (Or.inl usable)
  refine ⟨?_, completes.totalLength.trans agreement.sameLength, ?_, ?_, ?_, fun _ => clear, ?_,
    fun _ => sized, by simp [committed]⟩
  · rw [durable]
    exact journal_committed agreement usable completes numbered framed short
  · intro pos complete
    by_cases batch : ∃ block ∈ writer.staged,
        block.range.start ≤ pos ∧ pos < block.range.stop
    · obtain ⟨block, mem, inside⟩ := batch
      obtain ⟨begins, ends⟩ := completed_block_range (agreement.staged block mem)
      right
      refine ⟨completedBlock block, List.mem_append_right _ (List.mem_map_of_mem mem), ?_⟩
      rwa [CompletedBlock.Covers, begins, ends]
    · rw [completes.others pos fun block mem inside => batch ⟨block, mem, inside⟩]
        at complete
      rcases agreement.covered pos complete with before | ⟨block, mem, covers⟩
      · exact Or.inl before
      · exact Or.inr ⟨block, List.mem_append_left _ mem, covers⟩
  · intro pos before
    exact complete_all_keeps completes pos (agreement.kept pos before)
  · intro _
    constructor
    · intro block mem pos covers
      rcases List.mem_append.mp mem with old | new
      · exact complete_all_keeps completes pos (recorded block old pos covers)
      · obtain ⟨staged, stagedMember, rfl⟩ := List.mem_map.mp new
        obtain ⟨begins, ends⟩ := completed_block_range (agreement.staged staged stagedMember)
        rw [CompletedBlock.Covers, begins, ends] at covers
        exact completes.completed staged stagedMember pos covers.1 covers.2
    · refine durable_bytes_follow owned ?_ counted
      rw [agreement.sameLength]
      exact start.bounded
  · intro _
    rw [List.length_append, framed_records_length, ← Nat.add_assoc, ← agreement.numbered usable]
    rfl

theorem agrees_poisoned (other : Disk UInt8)
    (agrees : Agrees crc32c start writer intervals flushFailed disk)
    (durable : other.durableLog = disk.durableLog) (journalBytes : Nat) :
    Agrees crc32c start { writer with poisoned := true, journalBytes := journalBytes } intervals true
      other := by
  -- A writer that stops keeps what the synced journal already says.
  obtain ⟨frames, bytes, blocks, agreement⟩ := agrees
  exact ⟨frames, bytes, blocks, durable ▸ agreement.journal, agreement.sameLength, agreement.covered,
    agreement.kept, by simp, by simp, by simp, by simp, agreement.staged⟩

theorem agrees_failed (more : Bool)
    (agrees : Agrees crc32c start writer intervals flushFailed disk) :
    Agrees crc32c start writer intervals (flushFailed || more) disk := by
  obtain ⟨frames, bytes, blocks, agreement⟩ := agrees
  have earlier : writer.poisoned = false ∨ (flushFailed || more) = false →
      writer.poisoned = false ∨ flushFailed = false := by
    rintro (usable | none)
    · exact Or.inl usable
    · exact Or.inr (Bool.or_eq_false_iff.mp none).1
  exact ⟨frames, bytes, blocks, agreement.journal, agreement.sameLength, agreement.covered,
    agreement.kept, fun either => agreement.exact (earlier either),
    fun either => agreement.synced (earlier either), agreement.numbered, agreement.sized,
    agreement.staged⟩

theorem flush_agrees (agrees : Agrees crc32c start writer intervals flushFailed disk)
    (ended : FlushEnd crc32c writer intervals outcome) :
    Throughout (fun moment => Recoverable crc32c start moment.durableLog intervals) disk
        outcome.events ∧
      Agrees crc32c start outcome.writer outcome.intervals (flushFailed || outcome.flushFailed)
        (disk.run outcome.events) := by
  have recoverable := agrees_recoverable agrees
  cases ended with
  | refused error => exact ⟨recoverable, agrees_failed _ agrees⟩
  | idle usable empty => exact ⟨recoverable, agrees_failed _ agrees⟩
  | unowned error rejected =>
    rw [Bool.or_true]
    exact ⟨recoverable, agrees_poisoned _ agrees rfl writer.journalBytes⟩
  | dataSyncFailed error usable =>
    obtain ⟨throughout, durable⟩ := unsynced_throughout disk [.syncDataFailed] (by simp) recoverable
    rw [Bool.or_true]
    exact ⟨throughout, agrees_poisoned _ agrees durable writer.journalBytes⟩
  | appendFailed error journalBytes appends usable run =>
    have unsynced := (append_run_log run disk).1
    obtain ⟨throughout, durable⟩ := unsynced_throughout disk
      (.syncData :: appends) (by simpa using unsynced) recoverable
    rw [Bool.or_true]
    exact ⟨throughout, agrees_poisoned _ agrees durable journalBytes⟩
  | journalSyncFailed error journalBytes appends usable run =>
    have unsynced := (append_run_log run disk).1
    obtain ⟨throughout, durable⟩ := unsynced_throughout disk
      (.syncData :: appends ++ [.syncLogFailed])
      (by
        intro event mem
        simp only [List.cons_append, List.mem_cons, List.mem_append, List.not_mem_nil,
          or_false] at mem
        rcases mem with rfl | old | rfl
        · simp
        · exact unsynced event old
        · simp) recoverable
    rw [Bool.or_true]
    exact ⟨throughout, agrees_poisoned _ agrees durable journalBytes⟩
  | committed next io usable sameLength owned numbered complete =>
    obtain ⟨frames, bytes, blocks, agreement⟩ := agrees
    have run := append_all_runs crc32c io.append 0 writer.journalBytes
      (framedRecords writer.nextSequence writer.staged)
    obtain ⟨unsynced, appended⟩ := append_run_log run (disk.apply .syncData)
    obtain ⟨more, framed, pending⟩ := appended (by rw [complete]; rfl)
    obtain ⟨throughout, durable⟩ := unsynced_throughout disk
      (.syncData :: (appendAll crc32c io.append 0 writer.journalBytes
        (framedRecords writer.nextSequence writer.staged)).1) (by simpa using unsynced) recoverable
    have sized := agreement.sized usable
    obtain ⟨grown, room⟩ := append_all_length crc32c framed
      complete
    have total : writer.journalBytes + more.length = start.log.length + (bytes ++ more).length := by
      rw [sized, List.length_append, Nat.add_assoc]
    rw [total] at grown room
    have short : bytes ++ more = [] ∨ start.log.length + (bytes ++ more).length ≤ maxFileLength := by
      rcases room with rfl | room
      · rw [List.append_nil]
        exact agreement.journal.short
      · exact Or.inr room
    rw [show (disk.apply .syncData).pendingLog = [] from agreement.synced (Or.inl usable),
      List.nil_append] at pending
    have after := agreement_committed
      ((disk.run (.syncData :: (appendAll crc32c io.append 0 writer.journalBytes
        (framedRecords writer.nextSequence writer.staged)).1)).apply .syncLog)
      agreement usable owned numbered framed grown short
      (by rw [← durable]; exact congrArg (_ ++ ·) pending) rfl
    have agreesAfter : Agrees crc32c start _ next (flushFailed || false) _ :=
      agrees_failed _ ⟨_, _, _, after⟩
    refine ⟨throughout_append _ _ _ _ throughout ⟨throughout_end _ _ _ throughout, ?_, ?_⟩, ?_⟩
    · intro torn interrupted
      cases interrupted
      exact throughout_end _ _ _ throughout
    · obtain ⟨_, _, _, journal, covered⟩ := agrees_recoverable agreesAfter
      refine ⟨_, _, _, journal, ?_⟩
      intro pos held
      exact covered pos
        (complete_all_keeps (complete_all_completes _ _ _ owned) pos held)
    · rw [run_append]
      exact agreesAfter

theorem agrees_data_event (agrees : Agrees crc32c start writer intervals flushFailed disk)
    (event : Event UInt8) (durable : (disk.apply event).durableLog = disk.durableLog)
    (pending : (disk.apply event).pendingLog = disk.pendingLog) :
    Agrees crc32c start writer intervals flushFailed (disk.apply event) := by
  obtain ⟨frames, bytes, blocks, agreement⟩ := agrees
  exact ⟨frames, bytes, blocks, durable ▸ agreement.journal, agreement.sameLength, agreement.covered,
    agreement.kept, agreement.exact, fun either => pending.trans (agreement.synced either),
    agreement.numbered,
    agreement.sized, agreement.staged⟩

theorem agrees_pushed (blake3 : List UInt8 → Digest)
    (agrees : Agrees crc32c start writer intervals flushFailed disk) (now : Nat)
    (ready : StageReady writer intervals worker offset block) :
    Agrees crc32c start (pushStaged blake3 writer worker offset block now) intervals flushFailed
      disk := by
  obtain ⟨frames, bytes, blocks, agreement⟩ := agrees
  refine ⟨frames, bytes, blocks, agreement.journal, agreement.sameLength, agreement.covered,
    agreement.kept, agreement.exact, agreement.synced, agreement.numbered, agreement.sized, ?_⟩
  intro staged mem
  rcases List.mem_append.mp mem with old | new
  · exact agreement.staged staged old
  · rw [List.mem_singleton.mp new]
    refine ⟨?_, ready.representable⟩
    rw [UInt32.toNat_ofNat_of_lt' ready.short]

theorem stage_agrees (agrees : Agrees crc32c start writer intervals flushFailed disk)
    (ended : StageEnd blake3 crc32c writer intervals worker offset block now outcome) :
    Throughout (fun moment => Recoverable crc32c start moment.durableLog intervals) disk
        outcome.events ∧
      Agrees crc32c start outcome.writer outcome.intervals (flushFailed || outcome.flushFailed)
        (disk.run outcome.events) := by
  have recoverable := agrees_recoverable agrees
  have eventThroughout : ∀ event : Event UInt8, event ≠ .syncLog →
      Throughout (fun moment => Recoverable crc32c start moment.durableLog intervals) disk
        [event] := by
    intro event other
    exact (unsynced_throughout disk [event] (by simpa using other) recoverable).1
  cases ended with
  | rejected error => exact ⟨recoverable, agrees_failed _ agrees⟩
  | writeFailed ready error landed =>
    refine ⟨eventThroughout _ (by simp), ?_⟩
    obtain ⟨frames, bytes, blocks, agreement⟩ :=
      agrees_data_event agrees (.writeFailed offset block landed) rfl rfl
    exact ⟨frames, bytes, blocks, agreement.journal, agreement.sameLength, agreement.covered,
      agreement.kept, fun _ => agreement.exact (Or.inl ready.usable),
      fun _ => agreement.synced (Or.inl ready.usable), by simp, by simp, agreement.staged⟩
  | noSpace ready refused landed flushed ended =>
    have written := agrees_data_event agrees (.writeFailed offset block landed) rfl rfl
    obtain ⟨throughout, frames, bytes, blocks, agreement⟩ := flush_agrees written ended
    refine ⟨throughout_append _ _ [_] _ (eventThroughout _ (by simp)) throughout, frames, bytes,
      blocks, ?_⟩
    exact ⟨agreement.journal, agreement.sameLength, agreement.covered, agreement.kept, agreement.exact,
      agreement.synced, agreement.numbered, agreement.sized, agreement.staged⟩
  | staged ready =>
    refine ⟨eventThroughout _ (by simp), ?_⟩
    apply agrees_failed
    exact agrees_pushed blake3 (agrees_data_event agrees (.write offset block) rfl rfl) now ready
  | flushed ready flushed ended =>
    have pushed := agrees_pushed blake3 (agrees_data_event agrees (.write offset block) rfl rfl) now ready
    obtain ⟨throughout, agreesAfter⟩ := flush_agrees pushed ended
    exact ⟨throughout_append _ _ [_] _ (eventThroughout _ (by simp)) throughout, agreesAfter⟩

theorem agrees_map (agrees : Agrees crc32c start writer intervals flushFailed disk)
    (sameLength : next.totalLength = intervals.totalLength)
    (same : ∀ pos, next.stateAt pos = some .complete ↔
      intervals.stateAt pos = some .complete) :
    Agrees crc32c start writer next flushFailed disk := by
  -- Changes of ownership leave the complete bytes, and so the agreement, alone.
  obtain ⟨frames, bytes, blocks, agreement⟩ := agrees
  refine ⟨frames, bytes, blocks, agreement.journal, sameLength.trans agreement.sameLength, ?_, ?_,
    ?_, agreement.synced, agreement.numbered, agreement.sized, agreement.staged⟩
  · intro pos held
    exact agreement.covered pos ((same pos).mp held)
  · intro pos before
    exact (same pos).mpr (agreement.kept pos before)
  · intro either
    obtain ⟨recorded, counted⟩ := agreement.exact either
    constructor
    · intro block mem pos covers
      exact (same pos).mpr (recorded block mem pos covers)
    · rw [counted, IntervalMap.complete_bytes_same intervals sameLength same]

variable (crc32c start)

def SessionAgrees (fresh : Disk UInt8) (session : Session) : Prop :=
  Agrees crc32c start session.writer session.intervals session.flushFailed
    (fresh.run session.trace)

/-- One call: agreement afterwards, and recoverability at each moment inside. -/
structure CallAgrees (fresh : Disk UInt8) (session after : Session) : Prop where
  inside : ∃ events, after.trace = session.trace ++ events ∧
    Throughout (fun moment => Recoverable crc32c start moment.durableLog session.intervals)
      (fresh.run session.trace) events
  agrees : SessionAgrees crc32c start fresh after

variable {crc32c start}

theorem call_agrees_map (next : IntervalMap) (agrees : SessionAgrees crc32c start fresh session)
    (sameLength : next.totalLength = session.intervals.totalLength)
    (same : ∀ pos, next.stateAt pos = some .complete ↔
      session.intervals.stateAt pos = some .complete) :
    CallAgrees crc32c start fresh session { session with intervals := next } where
  inside := ⟨[], (List.append_nil _).symm, agrees_recoverable agrees⟩
  agrees := agrees_map agrees sameLength same

theorem call_agrees_take
    (step : Throughout (fun moment => Recoverable crc32c start moment.durableLog session.intervals)
        (fresh.run session.trace) outcome.events ∧
      Agrees crc32c start outcome.writer outcome.intervals
        (session.flushFailed || outcome.flushFailed)
        ((fresh.run session.trace).run outcome.events)) :
    CallAgrees crc32c start fresh session (session.take outcome) := by
  refine ⟨⟨outcome.events, rfl, step.1⟩, ?_⟩
  rw [SessionAgrees, Session.take, run_append]
  exact step.2

theorem call_agrees_idle (agrees : SessionAgrees crc32c start fresh session) :
    CallAgrees crc32c start fresh session session :=
  ⟨⟨[], (List.append_nil _).symm, agrees_recoverable agrees⟩, agrees⟩

theorem call_agrees (blake3 : List UInt8 → Digest) (call : Call)
    (agrees : SessionAgrees crc32c start fresh session) :
    CallAgrees crc32c start fresh session (session.call blake3 crc32c call) := by
  have idle := call_agrees_idle agrees
  cases call with
  | grant range worker =>
    cases changed : session.intervals.grant range worker with
    | error error => simpa [Session.call, Session.changeMap, changed] using idle
    | ok next =>
      have moves := session.intervals.grant_moves next worker changed
      simpa [Session.call, Session.changeMap, changed] using call_agrees_map next agrees moves.totalLength fun pos =>
          moves.unchanged pos _ (by simp) (by simp)
  | splitInProgress splitAt source recipient =>
    cases changed : session.intervals.splitInProgress splitAt source recipient with
    | error error => simpa [Session.call, Session.changeMap, changed] using idle
    | ok next =>
      obtain ⟨_, interval, _, _, _, moves⟩ := IntervalMap.split_moves _ _ changed
      simpa [Session.call, Session.changeMap, changed] using call_agrees_map next agrees moves.totalLength fun pos =>
          moves.unchanged pos _ (by simp) (by simp)
  | abandon worker =>
    exact call_agrees_map _ agrees rfl fun pos =>
      session.intervals.abandon_unchanged worker pos _ (by simp) (by simp)
  | stage worker offset bytes now io =>
    exact call_agrees_take (stage_agrees
      agrees (stage_end blake3 crc32c _ _ worker offset bytes now io))
  | flush io =>
    exact call_agrees_take (flush_agrees agrees (flush_end crc32c _ _ io))
  | flushIfDue now io =>
    rcases flush_if_due_end crc32c session.writer session.intervals now io with
      ⟨result, nothing⟩ | flushed
    · simpa [Session.call, nothing, Session.take] using idle
    · have same : session.call blake3 crc32c (.flushIfDue now io) =
          session.take (flush crc32c session.writer session.intervals io) := by
        simp [Session.call, flushed]
      rw [same]
      exact call_agrees_take (flush_agrees agrees (flush_end crc32c _ _ io))

theorem calls_agree (blake3 : List UInt8 → Digest) (session : Session)
    (calls : List Call) (agrees : SessionAgrees crc32c start fresh session) :
    SessionAgrees crc32c start fresh (session.calls blake3 crc32c calls) := by
  induction calls generalizing session with
  | nil => exact agrees
  | cons call rest ih => exact ih _ (call_agrees blake3 call agrees).agrees

theorem start_agrees
    (started : tryNew dataLength journalLength start.log.length start.records = .ok writer)
    (sameLength : intervals.totalLength = start.length)
    (complete : ∀ pos, intervals.stateAt pos = some .complete ↔ start.complete pos)
    (counted : start.completeBytes = intervals.completeBytes)
    (durable : disk.durableLog = start.log) (clear : disk.pendingLog = [])
    (numbered : start.records < 2 ^ 64) :
    Agrees crc32c start writer intervals false disk := by
  unfold tryNew at started
  split at started
  · cases started
  · cases started
    refine ⟨[], [], [], ⟨Framed.nil, ?_, rfl, trivial, by simp, List.Pairwise.nil, by simp,
      Or.inl rfl, numbered⟩, sameLength, ?_, ?_, ?_, fun _ => clear, fun _ => rfl, fun _ => rfl, by simp⟩
    · rw [durable, List.append_nil]
    · intro pos held
      exact Or.inl ((complete pos).mp held)
    · intro pos before
      exact (complete pos).mpr before
    · intro _
      exact ⟨by simp, by rw [Nat.zero_add, counted]⟩

end Agreement

end Downpour.WriterJournal
