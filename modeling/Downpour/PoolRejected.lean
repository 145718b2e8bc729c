import Downpour.ActorRecords
import Downpour.PoolSplice

/-!
Whether a response that the pool rejects leaves a trace. Its bytes are in the batch
of the writer before the outcome is checked, and every later flush of the batch
commits them, also the one of the `Abandon` that follows the rejection. They stay
out of the map and of the journal in every run in which no data sync succeeds
between the delivery of such a byte and the moment the writer is poisoned.
-/

namespace Downpour.PoolRejected
open Segments Intervals JournalFormat Allocator Writer CrashDisk Ranges Remote Http Retry Actor
open ActorSafety ActorOwnership ActorTrace ActorRecords Pool PoolMoves PoolHttp

section Runs
variable {Url : Type} {setup : Setup Url}

def Rejected (start : System Url setup.backend) (actions : List (Action setup.backend)) (id : Nat) :
    Prop :=
  ∃ seen, seen <+: actions ∧ ∃ task ∈ (start.run seen).tasks, task.id = id ∧
    ∃ worker reason, task.activity = .ended (.finished (.error (.invalidOutcome worker reason)))

/-- Serving the first command of the queue, a write of the task with this id, puts
the byte into the part file. -/
def Delivers (sys : System Url setup.backend) (io : StageIo) (id pos : Nat) : Prop :=
  ∃ entry rest, sys.queue = entry :: rest ∧ entry.sender = some id ∧
    Wrote entry.command (sys.actor.handle setup.blake3 setup.crc32c entry.command io) pos

def DeliveredAt (start : System Url setup.backend) (actions : List (Action setup.backend))
    (id pos index : Nat) : Prop :=
  ∃ io, actions[index]? = some (.serve io) ∧ Delivers (start.run (actions.take index)) io id pos

/-- Serving the first command of the queue makes the data of the batch durable. -/
def Syncs (sys : System Url setup.backend) (io : StageIo) : Prop :=
  ∃ entry rest, sys.queue = entry :: rest ∧
    .syncData ∈ (sys.actor.handle setup.blake3 setup.crc32c entry.command io).events

/-- From this step on every data sync that a served command comes to fails. -/
def SyncsFail (start : System Url setup.backend) (actions : List (Action setup.backend))
    (index : Nat) : Prop :=
  ∀ later io, index ≤ later → actions[later]? = some (.serve io) →
    ¬ Syncs (start.run (actions.take later)) io

structure Logged (sys : System Url setup.backend) : Prop where
  recorded : sys.actor.writer.poisoned = false → ∀ pos,
    Journalled setup.crc32c sys.trace pos → Complete sys.actor pos
  exact : ∀ block ∈ sys.actor.writer.staged, Exact block

variable {sys : System Url setup.backend} {pos : Nat}

theorem step_logged (action : Action setup.backend) (logged : Logged sys) :
    Logged (sys.step action) := by
  rcases PoolSafety.step_untouched sys action with ⟨io, rfl⟩ | untouched
  · cases queued : sys.queue with
    | nil =>
      simp only [System.step, System.serve, queued]
      exact logged
    | cons entry rest =>
      have logs := handle_logs logged.exact (handle_trail setup.blake3 setup.crc32c sys.actor entry.command io)
      simp only [System.step, System.serve, queued]
      refine ⟨?_, logs.encodable⟩
      intro usable pos recorded
      rcases (journalled_append _ _ _ pos).mp recorded with old | new
      · exact logs.kept pos (logged.recorded (logs.usable usable) pos old)
      · exact logs.recorded usable pos new
  · constructor
    · rw [untouched.actor, untouched.trace]
      exact logged.recorded
    · rw [untouched.actor]
      exact logged.exact

theorem run_logged (actions : List (Action setup.backend)) (sys : System Url setup.backend)
    (logged : Logged sys) : Logged (sys.run actions) := by
  induction actions generalizing sys with
  | nil => exact logged
  | cons action rest ih => exact ih (sys.step action) (step_logged action logged)

theorem start_logged (setup : Setup Url) (actor : StateActor) (unstaged : actor.writer.staged = []) :
    Logged (System.start setup actor) := by
  constructor
  · rintro _ pos ⟨event, mem, _⟩
    cases mem
  · intro block mem
    simp [System.start, unstaged] at mem

structure Absent (sys : System Url setup.backend) (pos : Nat) : Prop where
  incomplete : ¬ Complete sys.actor pos
  unrecorded : ¬ Journalled setup.crc32c sys.trace pos

theorem step_absent (absent : Absent sys pos)
    (failing : ∀ io, action = .serve io → ¬ Syncs sys io) : Absent (sys.step action) pos := by
  rcases PoolSafety.step_untouched sys action with ⟨io, rfl⟩ | untouched
  · cases queued : sys.queue with
    | nil =>
      simp only [System.step, System.serve, queued]
      exact absent
    | cons entry rest =>
      have still := handle_still
        (handle_trail setup.blake3 setup.crc32c sys.actor entry.command io)
        fun synced => failing io rfl ⟨entry, rest, queued, synced⟩
      simp only [System.step, System.serve, queued]
      constructor
      · exact fun complete => absent.incomplete (still.complete pos complete)
      · intro recorded
        rcases (journalled_append _ _ _ pos).mp recorded with old | new
        · exact absent.unrecorded old
        · exact still.silent pos new
  · constructor
    · rw [untouched.actor]
      exact absent.incomplete
    · rw [untouched.trace]
      exact absent.unrecorded

theorem run_absent (absent : Absent sys pos) (failing : SyncsFail sys actions 0) :
    Absent (sys.run actions) pos := by
  induction actions generalizing sys with
  | nil => exact absent
  | cons action rest ih =>
    apply ih
    · apply step_absent absent
      rintro io rfl
      exact failing 0 io (Nat.le_refl 0) rfl
    · intro later io _ found
      exact failing (later + 1) io (Nat.zero_le _) found

theorem delivered_absent (logged : Logged sys) {io : StageIo} {id : Nat}
    (delivers : Delivers sys io id pos) : Absent sys pos := by
  obtain ⟨entry, rest, _, _, wrote⟩ := delivers
  obtain ⟨usable, incomplete⟩ := wrote_ready (handle_trail setup.blake3 setup.crc32c sys.actor entry.command io) wrote
  exact ⟨incomplete, fun recorded => incomplete (logged.recorded usable pos recorded)⟩

theorem syncs_fail_drop {start : System Url setup.backend} {actions : List (Action setup.backend)}
    {index : Nat} (failing : SyncsFail start actions index) :
    SyncsFail (start.run (actions.take index)) (actions.drop index) 0 := by
  intro later io _ found
  rw [List.getElem?_drop] at found
  have failed := failing (index + later) io (Nat.le_add_right _ _) found
  rwa [List.take_add, System.run, List.foldl_append] at failed

/-- If from every byte that a rejected attempt delivered on no data sync of a usable
writer succeeds, then no such byte is complete or named by a record in any state
that the run reaches. -/
theorem rejected_leaves_no_trace (setup : Setup Url)
    (dataLength journalLength journalBytes nextSequence : Nat) (writer : DurableWriter)
    (allocator : SegmentAllocator)
    (created : tryNew dataLength journalLength journalBytes nextSequence = .ok writer)
    (actions : List (Action setup.backend))
    (failing : ∀ id pos index,
      Rejected (System.start setup ⟨writer, allocator⟩) actions id →
      DeliveredAt (System.start setup ⟨writer, allocator⟩) actions id pos index →
      SyncsFail (System.start setup ⟨writer, allocator⟩) actions index) :
    let reached := (System.start setup ⟨writer, allocator⟩).run actions
    ∀ id pos index,
      Rejected (System.start setup ⟨writer, allocator⟩) actions id →
      DeliveredAt (System.start setup ⟨writer, allocator⟩) actions id pos index →
      reached.actor.allocator.intervals.stateAt pos ≠ some .complete ∧
        ¬ Journalled setup.crc32c reached.trace pos := by
  intro reached id pos index rejected delivered
  have failed := failing id pos index rejected delivered
  obtain ⟨io, _, delivers⟩ := delivered
  have logged := run_logged (actions.take index) _
    (start_logged setup ⟨writer, allocator⟩ (try_new_unstaged created))
  have absent := run_absent
    (delivered_absent logged delivers) (syncs_fail_drop failed)
  have whole : ((System.start setup ⟨writer, allocator⟩).run (actions.take index)).run
      (actions.drop index) = reached := by
    rw [System.run, System.run, ← List.foldl_append, List.take_append_drop]
    rfl
  rw [whole] at absent
  exact ⟨absent.incomplete, absent.unrecorded⟩

end Runs

/-! One worker of a four-byte download. The response has the bounds of the grant
and states a complete length of five. -/

def lone : Setup Unit := { PoolSafety.twoWorkers with workers := 1 }

def longerResponse : Response :=
  { Splice.plainResponse 206 Splice.oldFile with
    contentRange := some "bytes 0-3/5".toList
    chunks := [[1, 2, 3, 4]] }

/-- The fetch up to its rejection, the `Abandon` and the return, all served with
the same results of the disk. -/
def rejectedRun (io : StageIo) : List (Action (overHttp lone).backend) :=
  [.send, .serve io, .proceed, .send, .serve io, .proceed,
    .taskReact 0 (.answered (.ok longerResponse)) 0, .taskReact 0 .chunk 0, .taskSend 0, .serve io,
    .taskReceive 0 0, .taskReact 0 .chunk 0, .join 0 ⟨0, 0, fun _ => none⟩,
    .send, .serve io, .proceed]

def loneStart : System Unit (overHttp lone).backend :=
  System.start (overHttp lone) ⟨fourBytes.actor.writer, fourBytes.actor.allocator⟩

def unsyncedIo : StageIo :=
  ⟨none, ⟨some (.io "sync data file" ⟨.other, some 5, "input/output error"⟩), fun _ => none, none⟩⟩

theorem rejected_run_serves {io served : StageIo} {index : Nat}
    (found : (rejectedRun io)[index]? = some (.serve served)) : served = io := by
  have mem := List.mem_of_getElem? found
  simpa [rejectedRun] using mem

def rejects (sys : System Unit (overHttp lone).backend) (id : Nat) : Bool :=
  sys.tasks.any fun task => decide (task.id = id) &&
    match task.activity with
    | .ended (.finished (.error (.invalidOutcome _ _))) => true
    | _ => false

theorem rejects_rejected (actions : List (Action (overHttp lone).backend)) (count id : Nat)
    (found : rejects (loneStart.run (actions.take count)) id = true) :
    Rejected loneStart actions id := by
  obtain ⟨task, mem, ended⟩ := List.any_eq_true.mp found
  rw [Bool.and_eq_true, decide_eq_true_eq] at ended
  refine ⟨actions.take count, List.take_prefix _ _, task, mem, ended.1, ?_⟩
  have last := ended.2
  split at last
  next worker reason here => exact ⟨worker, reason, here⟩
  next => cases last

def rejectedBy (sys : System Unit (overHttp lone).backend) : Option WorkerId :=
  match sys.control.point with
  | .returned (.error (.invalidOutcome worker _)) => some worker
  | _ => none

/-- The next command is a write of this task that puts the byte into the file. -/
def delivers (sys : System Unit (overHttp lone).backend) (io : StageIo) (id pos : Nat) :
    Bool :=
  match sys.queue with
  | [] => false
  | entry :: _ =>
    match entry.command with
    | .write _ offset bytes _ =>
      decide (entry.sender = some id) && decide (offset ≤ pos) &&
        decide (pos < offset + bytes.length) &&
        (sys.actor.handle calmDigest calmChecksum entry.command io).events.any fun event =>
          match event with
          | .write start block => decide (start = offset) && decide (block = bytes)
          | _ => false
    | _ => false

theorem delivers_at (actions : List (Action (overHttp lone).backend)) (io : StageIo)
    (id pos index : Nat) (served : actions[index]? = some (.serve io))
    (found : delivers (loneStart.run (actions.take index)) io id pos = true) :
    DeliveredAt loneStart actions id pos index := by
  unfold delivers at found
  split at found
  next => cases found
  next entry rest queued =>
    split at found
    next worker offset bytes now asked =>
      simp only [Bool.and_eq_true, decide_eq_true_eq, List.any_eq_true] at found
      obtain ⟨⟨⟨sender, after⟩, before⟩, event, mem, same⟩ := found
      refine ⟨io, served, entry, rest, queued, sender, worker, offset, bytes, now, asked,
        ⟨after, before⟩, ?_⟩
      split at same
      next start block =>
        rw [Bool.and_eq_true, decide_eq_true_eq, decide_eq_true_eq] at same
        rw [same.1, same.2] at mem
        exact mem
      next => cases same
    next => cases found

def appended (trace : List (Event UInt8)) : List (List UInt8) :=
  trace.filterMap fun event =>
    match event with
    | .append encoded => some encoded
    | _ => none

theorem appended_journalled (trace : List (Event UInt8)) (frame : FramedRecord)
    (pos : Nat) (written : frame.encode calmChecksum = .ok encoded)
    (names : Names frame.record pos) (found : encoded ∈ appended trace) :
    Journalled calmChecksum trace pos := by
  obtain ⟨event, mem, same⟩ := List.mem_filterMap.mp found
  split at same
  next =>
    cases same
    exact ⟨_, mem, frame, encoded, names, written, Or.inl rfl⟩
  next => cases same

/-- A disk that cannot sync: the rejected bytes stay out. -/
theorem rejected_unsynced :
    Rejected loneStart (rejectedRun unsyncedIo) 0 ∧
      DeliveredAt loneStart (rejectedRun unsyncedIo) 0 2 9 ∧
      (loneStart.run (rejectedRun unsyncedIo)).actor.allocator.intervals.stateAt 2 ≠
        some .complete ∧
      ¬ Journalled calmChecksum (loneStart.run (rejectedRun unsyncedIo)).trace 2 := by
  have rejected := rejects_rejected (rejectedRun unsyncedIo) 12 0 (by decide +kernel)
  have delivered := delivers_at (rejectedRun unsyncedIo) unsyncedIo 0 2 9 rfl (by decide +kernel)
  refine ⟨rejected, delivered, ?_⟩
  have failing : ∀ index, SyncsFail loneStart (rejectedRun unsyncedIo) index := by
    rintro index later io _ found ⟨entry, rest, _, synced⟩
    rw [rejected_run_serves found] at synced
    exact handle_unsynced (handle_trail calmDigest calmChecksum _ entry.command unsyncedIo)
      (by decide) synced
  unfold loneStart at rejected delivered failing ⊢
  exact rejected_leaves_no_trace (overHttp lone) 4 4 0 0 fourBytes.actor.writer
    fourBytes.actor.allocator rfl (rejectedRun unsyncedIo) (fun _ _ index _ _ => failing index)
    0 2 9 rejected delivered

/-- Without any failure of the disk the `Abandon` that follows the rejection flushes
the batch first, and all four rejected bytes are committed. -/
theorem rejected_bytes_committed :
    rejectedBy (loneStart.run (rejectedRun calmIo)) = some 0 ∧
      Rejected loneStart (rejectedRun calmIo) 0 ∧
      ∀ pos < 4, DeliveredAt loneStart (rejectedRun calmIo) 0 pos 9 ∧
        (loneStart.run (rejectedRun calmIo)).actor.allocator.intervals.stateAt pos =
          some .complete ∧
        Journalled calmChecksum (loneStart.run (rejectedRun calmIo)).trace pos := by
  refine ⟨by decide +kernel, rejects_rejected (rejectedRun calmIo) 12 0 (by decide +kernel), ?_⟩
  have delivered : ∀ pos < 4,
      delivers (loneStart.run ((rejectedRun calmIo).take 9)) calmIo 0 pos = true := by
    decide +kernel
  have complete : ∀ pos < 4, (loneStart.run (rejectedRun calmIo)).actor.allocator.intervals.stateAt
      pos = some .complete := by
    decide +kernel
  have encoded : (⟨0, .blockComplete 0 4 (calmDigest [])⟩ : FramedRecord).encode calmChecksum =
      .ok ((appended (loneStart.run (rejectedRun calmIo)).trace).head?.getD []) := by
    decide +kernel
  intro pos inside
  refine ⟨delivers_at _ calmIo 0 pos 9 rfl (delivered pos inside), complete pos inside,
    appended_journalled _ _ pos encoded ⟨0, 4, _, rfl, Nat.zero_le _, inside⟩ ?_⟩
  decide +kernel

end Downpour.PoolRejected
