import Downpour.ActorTrace
import Downpour.WriterCrash

/-!
What the commands of the actor append to the journal. A record that names a byte is
appended only in a flush whose batch holds the byte, and a writer that is still
usable has completed every byte that its records name. While data syncs fail
nothing is appended and nothing becomes complete.
-/

namespace Downpour.ActorRecords
open Segments Intervals JournalFormat Allocator Writer CrashDisk Actor ActorSafety ActorOwnership
open ActorTrace

section Records
variable (crc32c : List UInt8 → UInt32)

def Names (record : JournalRecord) (pos : Nat) : Prop :=
  ∃ offset len digest, record = .blockComplete offset len digest ∧ offset.toNat ≤ pos ∧
    pos < offset.toNat + len.toNat

def Records (event : Event UInt8) (pos : Nat) : Prop :=
  ∃ (frame : FramedRecord) (encoded : List UInt8), Names frame.record pos ∧
    frame.encode crc32c = .ok encoded ∧
    (event = .append encoded ∨ ∃ landed, event = .appendFailed encoded landed)

def Journalled (trace : List (Event UInt8)) (pos : Nat) : Prop :=
  ∃ event ∈ trace, Records crc32c event pos

theorem journalled_append (left right : List (Event UInt8)) (pos : Nat) :
    Journalled crc32c (left ++ right) pos ↔
      Journalled crc32c left pos ∨ Journalled crc32c right pos := by
  simp only [Journalled, List.mem_append, or_and_right, exists_or]

theorem encode_injective {left right : FramedRecord}
    (leftWritten : left.encode crc32c = .ok encoded)
    (rightWritten : right.encode crc32c = .ok encoded) : left = right := by
  have first := frame_round_trip crc32c left encoded [] leftWritten
  have second := frame_round_trip crc32c right encoded [] rightWritten
  rw [first] at second
  cases second
  rfl

variable {crc32c} {pos : Nat}

theorem append_run_records (run : AppendRun crc32c frames events complete)
    (recorded : Journalled crc32c events pos) :
    ∃ frame ∈ frames, Names frame.record pos := by
  obtain ⟨event, mem, frame, encoded, names, written, appended⟩ := recorded
  induction run with
  | done => cases mem
  | unencodable records => cases mem
  | torn record rest own landed ownWritten =>
    rcases appended with rfl | ⟨torn, rfl⟩
    · cases List.mem_singleton.mp mem
    · cases List.mem_singleton.mp mem
      exact ⟨record, List.mem_cons_self, encode_injective crc32c written ownWritten ▸ names⟩
  | next record rest own events complete ownWritten later ih =>
    rcases List.mem_cons.mp mem with same | further
    · rcases appended with rfl | ⟨torn, rfl⟩
      · cases same
        exact ⟨record, List.mem_cons_self, encode_injective crc32c written ownWritten ▸ names⟩
      · cases same
    · obtain ⟨found, inside, named⟩ := ih further
      exact ⟨found, List.mem_cons_of_mem _ inside, named⟩

structure Exact (block : StagedBlock) : Prop where
  start : block.range.start < 2 ^ 64
  length : block.recordLength.toNat = block.range.stop - block.range.start

theorem block_names (sized : Exact block)
    (names : Names block.record pos) : Inside block.range pos := by
  obtain ⟨offset, len, digest, same, after, before⟩ := names
  cases same
  rw [UInt64.toNat_ofNat_of_lt' sized.start] at after before
  rw [sized.length] at before
  exact ⟨after, by omega⟩

theorem batch_records {sequence : Nat} {staged : List StagedBlock} {events : List (Event UInt8)}
    {complete : Bool} (run : AppendRun crc32c (framedRecords sequence staged) events complete)
    (encodable : ∀ block ∈ staged, Exact block) (recorded : Journalled crc32c events pos) :
    ∃ block ∈ staged, Inside block.range pos := by
  obtain ⟨frame, mem, names⟩ := append_run_records run recorded
  obtain ⟨block, found, same⟩ := WriterCrash.framed_records_member mem
  exact ⟨block, found, block_names (encodable block found) (same ▸ names)⟩

theorem silent_records
    (silent : ∀ event ∈ events, ∀ encoded, event ≠ .append encoded ∧
      ∀ landed, event ≠ .appendFailed encoded landed) (pos : Nat) :
    ¬ Journalled crc32c events pos := by
  rintro ⟨event, mem, frame, encoded, _, _, rfl | ⟨landed, rfl⟩⟩
  · exact (silent _ mem encoded).1 rfl
  · exact (silent _ mem encoded).2 landed rfl

end Records

section Commands
variable (blake3 : List UInt8 → Digest) (crc32c : List UInt8 → UInt32)

structure Logs (actor after : StateActor) (events : List (Event UInt8)) : Prop where
  usable : after.writer.poisoned = false → actor.writer.poisoned = false
  kept : ∀ pos, Complete actor pos → Complete after pos
  recorded : after.writer.poisoned = false → ∀ pos, Journalled crc32c events pos →
    Complete after pos
  encodable : ∀ block ∈ after.writer.staged, Exact block

variable {blake3 crc32c}

theorem flush_logs (encodable : ∀ block ∈ actor.writer.staged, Exact block)
    {outcome : Outcome} (ended : FlushEnd crc32c actor.writer actor.allocator.intervals outcome) :
    Logs crc32c actor (actor.after outcome) outcome.events := by
  cases ended with
  | refused error =>
    exact ⟨id, fun _ => id, fun _ pos recorded =>
      absurd recorded (silent_records (by simp) pos), encodable⟩
  | idle usable empty =>
    exact ⟨id, fun _ => id, fun _ pos recorded =>
      absurd recorded (silent_records (by simp) pos), encodable⟩
  | unowned error rejected => exact ⟨nofun, fun _ => id, nofun, encodable⟩
  | dataSyncFailed error usable => exact ⟨nofun, fun _ => id, nofun, encodable⟩
  | appendFailed error journalBytes appends usable run =>
    exact ⟨nofun, fun _ => id, nofun, encodable⟩
  | journalSyncFailed error journalBytes appends usable run =>
    exact ⟨nofun, fun _ => id, nofun, encodable⟩
  | committed next io usable sameLength owned numbered complete =>
    have completes := complete_all_completes _ next _ owned
    refine ⟨fun _ => usable, complete_all_keeps completes, ?_, nofun⟩
    intro _ pos recorded
    rw [List.cons_append, ← List.singleton_append, journalled_append, journalled_append]
      at recorded
    rcases recorded with synced | appended | logged
    · exact absurd synced (silent_records (by simp) pos)
    · obtain ⟨block, mem, inside⟩ := batch_records
        (append_all_runs crc32c io.append 0 actor.writer.journalBytes _) encodable appended
      exact completes.completed block mem pos inside.1 inside.2
    · exact absurd logged (silent_records (by simp) pos)

theorem pushed_encodable
    (ready : StageReady actor.writer actor.allocator.intervals worker offset bytes)
    (encodable : ∀ block ∈ actor.writer.staged, Exact block) :
    ∀ block ∈ (pushed blake3 actor worker offset bytes now).writer.staged, Exact block := by
  intro block mem
  rcases List.mem_append.mp mem with old | new
  · exact encodable block old
  · rw [List.mem_singleton.mp new]
    refine ⟨Nat.lt_of_le_of_lt (Nat.le_add_right _ _) ready.representable, ?_⟩
    show (UInt32.ofNat bytes.length).toNat = offset + bytes.length - offset
    rw [UInt32.toNat_ofNat_of_lt' ready.short, Nat.add_sub_cancel_left]

theorem logs_write (writes : ¬ KeepsData event) (logs : Logs crc32c actor after events) :
    Logs crc32c actor after (event :: events) := by
  refine ⟨logs.usable, logs.kept, ?_, logs.encodable⟩
  intro usable pos recorded
  rw [← List.singleton_append, journalled_append] at recorded
  rcases recorded with first | later
  · cases event with
    | write offset bytes => exact absurd first (silent_records (by simp) pos)
    | writeFailed offset bytes landed =>
      exact absurd first (silent_records (by simp) pos)
    | _ => exact absurd trivial writes
  · exact logs.recorded usable pos later

theorem stage_logs (encodable : ∀ block ∈ actor.writer.staged, Exact block)
    (ended : StageEnd blake3 crc32c actor.writer actor.allocator.intervals worker offset bytes now
      outcome) : Logs crc32c actor (actor.after outcome) outcome.events := by
  have nothing : ∀ pos, ¬ Journalled crc32c [] pos := silent_records (by simp)
  cases ended with
  | rejected error =>
    exact ⟨id, fun _ => id, fun _ pos recorded => absurd recorded (nothing pos), encodable⟩
  | writeFailed ready error landed =>
    refine logs_write id ⟨nofun, fun _ => id, nofun, encodable⟩
  | noSpace ready refused landed flushed flushEnded =>
    have logs := flush_logs encodable flushEnded
    exact logs_write id ⟨logs.usable, logs.kept, logs.recorded, logs.encodable⟩
  | staged ready =>
    refine logs_write id ⟨id, fun _ => id, ?_, ?_⟩
    · exact fun _ pos recorded => absurd recorded (nothing pos)
    · exact pushed_encodable ready encodable
  | flushed ready flushed flushEnded =>
    have logs := flush_logs (pushed_encodable ready encodable) flushEnded
    exact logs_write id ⟨logs.usable, logs.kept, logs.recorded, logs.encodable⟩

variable {actor : StateActor} {command : Command} {io : StageIo} {served : Served}

theorem handle_logs (encodable : ∀ block ∈ actor.writer.staged, Exact block)
    (trail : Trail blake3 crc32c actor command io served) :
    Logs crc32c actor served.actor served.events := by
  cases trail with
  | idle events writer complete =>
    rw [events]
    refine ⟨fun usable => writer ▸ usable, fun pos => (complete pos).mpr, ?_, ?_⟩
    · exact fun _ pos recorded =>
        absurd recorded (silent_records (by simp) pos)
    · rw [writer]
      exact encodable
  | flushed events writer complete =>
    have logs := flush_logs encodable
      (flush_end crc32c actor.writer actor.allocator.intervals io.flush)
    have poison := congrArg DurableWriter.poisoned writer
    rw [events]
    refine ⟨fun usable => logs.usable (poison.symm.trans usable), ?_, ?_, ?_⟩
    · exact fun pos done => (complete pos).mpr (logs.kept pos done)
    · intro usable pos recorded
      exact (complete pos).mpr
        (logs.recorded (poison.symm.trans usable) pos recorded)
    · rw [writer]
      exact logs.encodable
  | staged worker offset bytes now asked events after =>
    rw [events, after]
    exact stage_logs encodable
      (stage_end blake3 crc32c actor.writer actor.allocator.intervals worker offset bytes now io)

/-! Commands in which no data sync succeeds. -/

variable (crc32c)

structure Still (actor after : StateActor) (events : List (Event UInt8)) : Prop where
  complete : ∀ pos, Complete after pos → Complete actor pos
  silent : ∀ pos, ¬ Journalled crc32c events pos

variable {crc32c}

theorem flush_still (actor : StateActor) {outcome : Outcome}
    (ended : FlushEnd crc32c actor.writer actor.allocator.intervals outcome)
    (unsynced : .syncData ∉ outcome.events) :
    Still crc32c actor (actor.after outcome) outcome.events := by
  have nothing : ∀ pos, ¬ Journalled crc32c [] pos := silent_records (by simp)
  cases ended with
  | refused => exact ⟨fun _ => id, nothing⟩
  | idle => exact ⟨fun _ => id, nothing⟩
  | unowned => exact ⟨fun _ => id, nothing⟩
  | dataSyncFailed => exact ⟨fun _ => id, silent_records (by simp)⟩
  | appendFailed => exact absurd List.mem_cons_self unsynced
  | journalSyncFailed => exact absurd List.mem_cons_self unsynced
  | committed => exact absurd List.mem_cons_self unsynced

theorem still_write (writes : ¬ KeepsData event) (still : Still crc32c actor after events) :
    Still crc32c actor after (event :: events) := by
  refine ⟨still.complete, ?_⟩
  intro pos recorded
  rw [← List.singleton_append, journalled_append] at recorded
  rcases recorded with first | later
  · cases event with
    | write offset bytes => exact silent_records (by simp) pos first
    | writeFailed offset bytes landed => exact silent_records (by simp) pos first
    | _ => exact writes trivial
  · exact still.silent pos later

theorem stage_still {actor : StateActor} (worker : WorkerId) (offset : Nat) (bytes : List UInt8)
    (now : Nat) {io : StageIo}
    (unsynced : .syncData ∉ (stage blake3 crc32c actor.writer actor.allocator.intervals worker offset
      bytes now io).events) :
    Still crc32c actor (actor.after (stage blake3 crc32c actor.writer actor.allocator.intervals
        worker offset bytes now io))
      (stage blake3 crc32c actor.writer actor.allocator.intervals worker offset bytes now io).events := by
  have nothing : ∀ pos, ¬ Journalled crc32c [] pos := silent_records (by simp)
  have unchanged : ∀ writer, Still crc32c actor ⟨writer, actor.allocator⟩ [] := fun _ =>
    ⟨fun _ => id, nothing⟩
  have flushed : ∀ writer, .syncData ∉ (flush crc32c writer actor.allocator.intervals io.flush).events →
      Still crc32c ⟨writer, actor.allocator⟩
        (actor.after (flush crc32c writer actor.allocator.intervals io.flush))
        (flush crc32c writer actor.allocator.intervals io.flush).events := fun writer quiet =>
    flush_still ⟨writer, actor.allocator⟩ (flush_end crc32c writer _ io.flush) quiet
  generalize staged : stage blake3 crc32c actor.writer actor.allocator.intervals worker offset bytes now
    io = outcome at unsynced ⊢
  unfold stage at staged
  split at staged
  next =>
    subst staged
    exact unchanged _
  next =>
    split at staged
    next =>
      split at staged
      next =>
        subst staged
        have still := flushed _ fun synced => unsynced (List.mem_cons_of_mem _ synced)
        exact still_write id ⟨still.complete, still.silent⟩
      next =>
        subst staged
        exact still_write id (unchanged _)
    next =>
      simp only at staged
      split at staged
      next =>
        subst staged
        have still := flushed _ fun synced => unsynced (List.mem_cons_of_mem _ synced)
        exact still_write id ⟨still.complete, still.silent⟩
      next =>
        subst staged
        exact still_write id (unchanged _)

theorem handle_still (trail : Trail blake3 crc32c actor command io served)
    (unsynced : .syncData ∉ served.events) : Still crc32c actor served.actor served.events := by
  cases trail with
  | idle events writer complete =>
    rw [events]
    exact ⟨fun pos => (complete pos).mp, silent_records (by simp)⟩
  | flushed events writer complete =>
    rw [events] at unsynced ⊢
    have still := flush_still actor (flush_end crc32c _ _ io.flush) unsynced
    exact ⟨fun pos done => still.complete pos ((complete pos).mp done), still.silent⟩
  | staged worker offset bytes now asked events after =>
    rw [events] at unsynced
    rw [events, after]
    exact stage_still worker offset bytes now unsynced

theorem flush_unsynced (writer : DurableWriter) (intervals : IntervalMap) {io : FlushIo}
    (failing : io.dataSync ≠ none) : .syncData ∉ (flush crc32c writer intervals io).events := by
  unfold flush
  split
  next => simp
  next =>
    split
    next => simp
    next =>
      split
      next => simp
      next =>
        split
        next => simp
        next =>
          split
          next => simp
          next =>
            split
            next => simp
            next synced => exact absurd synced failing

theorem handle_unsynced (trail : Trail blake3 crc32c actor command io served)
    (failing : io.flush.dataSync ≠ none) : .syncData ∉ served.events := by
  cases trail with
  | idle events writer complete => simp [events]
  | flushed events writer complete =>
    rw [events]
    exact flush_unsynced _ _ failing
  | staged worker offset bytes now asked events after =>
    have flushed := fun writer => @flush_unsynced crc32c writer actor.allocator.intervals _ failing
    rw [events, stage]
    split
    next => simp [reject]
    next =>
      split
      next =>
        split
        next => simp [flushed]
        next => simp
      next =>
        simp only
        split
        next => simp [flushed]
        next => simp

theorem wrote_ready (trail : Trail blake3 crc32c actor command io served)
    (wrote : Wrote command served pos) :
    actor.writer.poisoned = false ∧ ¬ Complete actor pos := by
  obtain ⟨worker, offset, bytes, now, asked, inside, written⟩ := wrote
  cases trail with
  | idle events writer complete =>
    rw [events] at written
    cases written
  | flushed events writer complete =>
    rw [events] at written
    exact (flush_keeps crc32c
      (flush_end crc32c actor.writer actor.allocator.intervals io.flush) _ written).elim
  | staged worker' offset' bytes' now' asked' events after =>
    cases asked.symm.trans asked'
    cases checked : stageCheck actor.writer actor.allocator.intervals worker offset bytes with
    | some error =>
      simp only [events, stage, checked, reject] at written
      cases written
    | none =>
      have ready := stage_ready checked
      obtain ⟨next, owned⟩ := ready.owned
      have held := (actor.allocator.intervals.complete_moves next _ _ owned).held pos
        inside.1 inside.2
      refine ⟨ready.usable, fun complete => ?_⟩
      rw [Complete, held] at complete
      cases complete

end Commands

end Downpour.ActorRecords
