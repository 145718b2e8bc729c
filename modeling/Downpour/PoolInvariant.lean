import Downpour.ActorOwnership
import Downpour.Pool

/-!
The invariant of the worker pool. Tasks hold disjoint grants, and a task's free
bytes are exactly the part of its grant that it has not written. A write that waits
in the queue, also one of a task that is gone, starts no later than the first free
byte of its worker, so it extends the staged front or is refused. Ownership changes
hands only in two ways: an `Allocate` is in the queue only while there is neither a
task nor a write, and an `Abandon` only while its worker has no task.
-/

namespace Downpour.PoolInvariant
open Segments Intervals JournalFormat Allocator Writer Http Retry Actor ActorSafety ActorOwnership
open Pool

section Tasks
variable {Url State : Type}

structure TaskSound (actor : StateActor) (task : Task Url State) : Prop where
  cursor : task.sink.target.nextOffset ≤ task.written
  stop : task.written ≤ task.grant.range.stop
  free : ∀ pos, Free actor task.worker pos ↔
    task.written ≤ pos ∧ pos < task.grant.range.stop
  owned : ∀ pos, Owns actor task.worker pos → Inside task.grant.range pos

def CallSound (task : Task Url State) : Prop :=
  match task.activity with
  | .accepting bytes _ ask =>
    (∃ now, ask.command = .write task.worker task.sink.target.nextOffset bytes now) ∧
      ∀ receipt, ask.status = .answered (.ok receipt) →
        task.sink.target.nextOffset + bytes.length ≤ task.written
  | .syncing _ ask | .committing ask => ask.command = .flush
  | _ => True

structure Changed (before after : Task Url State) : Prop where
  id : after.id = before.id
  grant : after.grant = before.grant
  written : after.written = before.written
  cursor : after.sink.target.nextOffset ≤ before.written
  call : CallSound after

structure Kept (before after : Task Url State) : Prop extends Changed before after where
  pending : ∀ ask ticket, after.activity.pending = some ask → ask.status = .sent ticket →
    before.activity.pending = some ask

theorem kept_flags {task : Task Url State} (cancelled aborted : Bool)
    (cursor : task.sink.target.nextOffset ≤ task.written) (call : CallSound task) :
    Kept task { task with cancelled := cancelled, aborted := aborted } :=
  ⟨⟨rfl, rfl, rfl, cursor, call⟩, fun _ _ found _ => found⟩

theorem kept_refl {task : Task Url State} (cursor : task.sink.target.nextOffset ≤ task.written)
    (call : CallSound task) : Kept task task :=
  kept_flags task.cancelled task.aborted cursor call

theorem kept_silent (changed : Changed before after)
    (silent : after.activity.pending = none) : Kept before after := by
  refine ⟨changed, ?_⟩
  intro ask ticket found
  rw [silent] at found
  cases found

end Tasks

theorem accept_command_write (sent : acceptCommand serviceText sink bytes now = .ok command) :
    command = .write sink.target.grant.worker sink.target.nextOffset bytes now := by
  unfold acceptCommand at sent
  split at sent
  · cases sent
  next =>
    simp only at sent
    split at sent
    · cases sent
    next =>
      split at sent
      · cases sent
      next =>
        split at sent
        · cases sent
        next command written =>
          cases sent
          unfold GrantWriter.write at written
          split_ifs at written
          cases written
          rfl

section Worker
variable {Url : Type} (backend : Backend Url) (serviceText : WriterServiceError → String)
  (totalLength : Nat)

theorem follow_kept (task : Task Url backend.State) (now : Nat) (move : Move Url backend.State)
    (cursor : task.sink.target.nextOffset ≤ task.written) :
    Kept task (follow backend serviceText totalLength task now move) := by
  cases move with
  | wait state => exact kept_silent ⟨rfl, rfl, rfl, cursor, trivial⟩ rfl
  | accept bytes state =>
    cases sent : acceptCommand serviceText task.sink bytes now with
    | error error =>
      simp only [follow, sent]
      exact kept_silent ⟨rfl, rfl, rfl, cursor, trivial⟩ rfl
    | ok command =>
      simp only [follow, sent]
      have shape := accept_command_write sent
      refine ⟨⟨rfl, rfl, rfl, cursor, ⟨now, shape⟩, nofun⟩, ?_⟩
      rintro ask ticket found status
      cases found
      cases status
  | sync state =>
    refine ⟨⟨rfl, rfl, rfl, cursor, rfl⟩, ?_⟩
    rintro ask ticket found status
    cases found
    cases status
  | rebase baseOffset limit state => exact kept_silent ⟨rfl, rfl, rfl, cursor, trivial⟩ rfl
  | finish result =>
    simp only [follow, fetched]
    cases result with
    | error error => exact kept_silent ⟨rfl, rfl, rfl, cursor, trivial⟩ rfl
    | ok outcome =>
      simp only
      split
      next =>
        refine ⟨⟨rfl, rfl, rfl, cursor, rfl⟩, ?_⟩
        rintro ask ticket found status
        cases found
        cases status
      next => exact kept_silent ⟨rfl, rfl, rfl, cursor, trivial⟩ rfl
  | panic => exact kept_silent ⟨rfl, rfl, rfl, cursor, trivial⟩ rfl

theorem react_kept (event : backend.Event) (now : Nat)
    (cursor : task.sink.target.nextOffset ≤ task.written) (call : CallSound task) :
    Kept task (react backend serviceText totalLength task event now) := by
  unfold react
  split
  next state _ => exact follow_kept backend serviceText totalLength task now _ cursor
  next bytes state ask open_ =>
    rw [CallSound, open_] at call
    split
    next state _ =>
      refine ⟨⟨rfl, rfl, rfl, cursor, call⟩, ?_⟩
      intro ask ticket found _
      rw [open_]
      exact found
    next => exact follow_kept backend serviceText totalLength task now _ cursor
  next state ask open_ =>
    rw [CallSound, open_] at call
    split
    next state _ =>
      refine ⟨⟨rfl, rfl, rfl, cursor, call⟩, ?_⟩
      intro ask ticket found _
      rw [open_]
      exact found
    next => exact follow_kept backend serviceText totalLength task now _ cursor
  next => exact kept_refl cursor call

theorem receive_kept (now : Nat)
    (cursor : task.sink.target.nextOffset ≤ task.written) (call : CallSound task) :
    Kept task (receive backend serviceText totalLength task now) := by
  unfold receive
  split
  next bytes state command reply open_ =>
    -- An accepted write moves the cursor to the end of the bytes that the actor took.
    have moved : (acceptReply serviceText task.sink bytes reply).2.target.nextOffset ≤ task.written ∧
        (acceptReply serviceText task.sink bytes reply).2.target.grant = task.sink.target.grant := by
      cases reply with
      | error error => exact ⟨cursor, rfl⟩
      | ok receipt =>
        rw [CallSound, open_] at call
        exact ⟨call.2 receipt rfl, rfl⟩
    have kept := follow_kept backend serviceText totalLength
      { task with sink := (acceptReply serviceText task.sink bytes reply).2 } now
      (backend.next state (.accepted (acceptReply serviceText task.sink bytes reply).1)) moved.1
    refine ⟨⟨kept.id, kept.grant.trans moved.2, kept.written, kept.cursor, kept.call⟩, ?_⟩
    intro ask ticket found status
    exact kept.pending ask ticket found status
  next => exact follow_kept backend serviceText totalLength task now _ cursor
  next => exact follow_kept backend serviceText totalLength task now _ cursor
  next => exact kept_silent ⟨rfl, rfl, rfl, cursor, trivial⟩ rfl
  next => exact kept_refl cursor call

end Worker

section Systems
variable {Url : Type} {setup : Setup Url}

def Queueable (sys : System Url setup.backend) (entry : Queued) (id : Nat) : Prop :=
  entry.command = .flush ∨ ∃ worker offset bytes now, entry.command = .write worker offset bytes now ∧
    (∀ pos, Free sys.actor worker pos → offset ≤ pos) ∧
    ∀ task ∈ sys.tasks, task.worker = worker ↔ task.id = id

structure Base (sys : System Url setup.backend) : Prop where
  lined : Lined sys.actor
  recorded : Recorded sys.actor sys.durable
  apart : sys.tasks.Pairwise fun left right => left.id ≠ right.id ∧ left.worker ≠ right.worker ∧
    Apart left.grant.range right.grant.range
  known : ∀ task ∈ sys.tasks, task.id < sys.nextTask
  sound : ∀ task ∈ sys.tasks, TaskSound sys.actor task
  calls : ∀ task ∈ sys.tasks, CallSound task
  ordered : sys.queue.Pairwise fun left right => left.ticket < right.ticket
  issued : ∀ entry ∈ sys.queue, entry.ticket < sys.tickets
  waiting : ∀ task ∈ sys.tasks, ∀ ask ticket, task.activity.pending = some ask →
    ask.status = .sent ticket → ticket < sys.tickets ∧
      ∀ entry ∈ sys.queue, entry.ticket = ticket →
        entry.sender = some task.id ∧ entry.command = ask.command
  sent : ∀ entry ∈ sys.queue, ∀ id, entry.sender = some id →
    id < sys.nextTask ∧ Queueable sys entry id

/-- Neither a task nor a batch, and in the queue at most the pool's own command. -/
structure Quiet (sys : System Url setup.backend) : Prop where
  tasks : sys.tasks = []
  staged : sys.actor.writer.staged = []
  queue : ∀ entry ∈ sys.queue, entry.sender = none

structure Accurate (actor : StateActor) (grants : List Grant) : Prop where
  sorted : grants.Pairwise fun left right => left.worker < right.worker
  held : ∀ grant ∈ grants, Holds actor grant

/-- What holds while the pool waits for a reply, and what the reply then says. -/
def StageSound (sys : System Url setup.backend) (stage : Stage Url) (ask : Ask) : Prop :=
  match stage with
  | .identity => ask.command = .snapshot ∧ Quiet sys ∧ sys.control.grants = []
  | .allocating index => ask.command = .allocate index ∧ Quiet sys ∧
      match ask.status with
      | .answered (.ok (.allocation (some allocation) _)) =>
        Accurate sys.actor (recordAllocation sys.control.grants allocation)
      | _ => Accurate sys.actor sys.control.grants
  | .flushing => ask.command = .flush ∧ sys.tasks = [] ∧
      match ask.status with
      | .sent ticket => ∀ entry ∈ sys.queue, entry.ticket ≤ ticket
      | .answered (.ok _) => Quiet sys
      | _ => True
  | .surveying => ask.command = .snapshot ∧ Quiet sys
  | .reassigning => (∃ worker, ask.command = .allocate worker) ∧ Quiet sys ∧
      match ask.status with
      | .answered (.ok (.allocation (some allocation) _)) => Holds sys.actor allocation.grant
      | _ => True
  | .restarting | .lastSnapshot => ask.command = .snapshot ∧ Quiet sys ∧
      match ask.status with
      | .answered (.ok (.snapshot allocator)) => allocator = sys.actor.allocator
      | _ => True
  | .ticking => ∃ now, ask.command = .flushIfDue now
  | .abandoning attempt _ => ask.command = .abandon attempt.grant.worker ∧
      ∀ task ∈ sys.tasks, task.worker ≠ attempt.grant.worker
  | .reclaiming _ _ => (∃ worker, ask.command = .abandon worker) ∧ sys.tasks = []
  | .lastFlush => ask.command = .flush ∧ Quiet sys

def Covered (actor : StateActor) : Prop :=
  ∀ pos, pos < actor.allocator.intervals.totalLength →
    actor.allocator.intervals.stateAt pos = some .complete

def PointSound (sys : System Url setup.backend) : Prop :=
  match sys.control.point with
  | .awaiting stage ask => StageSound sys stage ask
  | .returned (.ok _) => Covered sys.actor
  | _ => True

structure Inv (sys : System Url setup.backend) : Prop where
  base : Base sys
  own : ∀ entry ∈ sys.queue, entry.sender = none →
    ∃ stage, sys.control.point = .awaiting stage ⟨entry.command, .sent entry.ticket⟩
  awaited : ∀ stage ask ticket, sys.control.point = .awaiting stage ask →
    ask.status = .sent ticket → ticket < sys.tickets ∧
      ∀ entry ∈ sys.queue, entry.ticket = ticket → entry.sender = none
  point : PointSound sys

/-! Tasks that change on their own. -/

theorem task_changed {actor : StateActor} {before after : Task Url setup.backend.State}
    (sound : TaskSound actor before) (changed : Changed before after) : TaskSound actor after := by
  have worker : after.worker = before.worker := congrArg Grant.worker changed.grant
  constructor
  · rw [changed.written]
    exact changed.cursor
  · rw [changed.written, changed.grant]
    exact sound.stop
  · intro pos
    rw [worker, changed.written, changed.grant]
    exact sound.free pos
  · intro pos owned
    rw [worker] at owned
    rw [changed.grant]
    exact sound.owned pos owned

variable {sys : System Url setup.backend}

theorem change_base (change : Task Url setup.backend.State → Task Url setup.backend.State)
    (base : Base sys) (changed : ∀ task ∈ sys.tasks, Changed task (change task))
    (waiting : ∀ task ∈ sys.tasks, ∀ ask ticket, (change task).activity.pending = some ask →
      ask.status = .sent ticket → ticket < sys.tickets ∧
        ∀ entry ∈ sys.queue, entry.ticket = ticket →
          entry.sender = some task.id ∧ entry.command = ask.command) :
    Base { sys with tasks := sys.tasks.map change } := by
  have worker : ∀ task ∈ sys.tasks, (change task).worker = task.worker := fun task mem =>
    congrArg Grant.worker (changed task mem).grant
  constructor
  · exact base.lined
  · exact base.recorded
  · rw [List.pairwise_map]
    refine base.apart.imp_of_mem ?_
    intro left right leftMember rightMember apart
    rw [(changed left leftMember).id, (changed right rightMember).id, worker left leftMember,
      worker right rightMember, (changed left leftMember).grant, (changed right rightMember).grant]
    exact apart
  · intro task mem
    obtain ⟨before, found, rfl⟩ := List.mem_map.mp mem
    rw [(changed before found).id]
    exact base.known before found
  · intro task mem
    obtain ⟨before, found, rfl⟩ := List.mem_map.mp mem
    exact task_changed (base.sound before found) (changed before found)
  · intro task mem
    obtain ⟨before, found, rfl⟩ := List.mem_map.mp mem
    exact (changed before found).call
  · exact base.ordered
  · exact base.issued
  · intro task mem ask ticket pending status
    obtain ⟨before, found, rfl⟩ := List.mem_map.mp mem
    rw [(changed before found).id]
    exact waiting before found ask ticket pending status
  · intro entry mem id sender
    obtain ⟨known, shape⟩ := base.sent entry mem id sender
    refine ⟨known, ?_⟩
    rcases shape with flush | ⟨owner, offset, bytes, now, command, front, only⟩
    · exact Or.inl flush
    · refine Or.inr ⟨owner, offset, bytes, now, command, front, ?_⟩
      intro task mem
      obtain ⟨before, found, rfl⟩ := List.mem_map.mp mem
      rw [worker before found, (changed before found).id]
      exact only before found

theorem map_base (base : Base sys) (kept : ∀ task ∈ sys.tasks, Kept task (change task)) :
    Base { sys with tasks := sys.tasks.map change } := by
  refine change_base change base (fun task mem => (kept task mem).toChanged) ?_
  intro task mem ask ticket pending status
  exact base.waiting task mem ask ticket ((kept task mem).pending ask ticket pending status)
    status

theorem sublist_base (fewer : tasks.Sublist sys.tasks) (base : Base sys) :
    Base { sys with tasks := tasks } := by
  constructor
  · exact base.lined
  · exact base.recorded
  · exact base.apart.sublist fewer
  · exact fun task mem => base.known task (fewer.subset mem)
  · exact fun task mem => base.sound task (fewer.subset mem)
  · exact fun task mem => base.calls task (fewer.subset mem)
  · exact base.ordered
  · exact base.issued
  · exact fun task mem => base.waiting task (fewer.subset mem)
  · intro entry mem id sender
    obtain ⟨known, shape⟩ := base.sent entry mem id sender
    refine ⟨known, ?_⟩
    rcases shape with flush | ⟨owner, offset, bytes, now, command, front, only⟩
    · exact Or.inl flush
    · exact Or.inr ⟨owner, offset, bytes, now, command, front,
        fun task mem => only task (fewer.subset mem)⟩

theorem control_base (control : Control Url) (base : Base sys) :
    Base { sys with control := control } :=
  ⟨base.lined, base.recorded, base.apart, base.known, base.sound, base.calls, base.ordered,
    base.issued, base.waiting, base.sent⟩

end Systems

end Downpour.PoolInvariant
