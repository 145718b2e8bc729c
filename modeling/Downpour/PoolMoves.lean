import Downpour.PoolSteps

/-!
What the pool's own code can do to the rest of the system: it removes tasks, starts
tasks and raises their flags, and leaves the actor, its queue and the disk alone.
-/

namespace Downpour.PoolMoves
open Segments Intervals JournalFormat Allocator Writer Ranges Remote Http Retry Actor Pool
open PoolSteps

variable {Url : Type} {setup : Setup Url}

structure Alike {State : Type} (left right : Task Url State) : Prop where
  id : left.id = right.id
  sink : left.sink = right.sink
  activity : left.activity = right.activity
  written : left.written = right.written

def Descends (sys : System Url setup.backend) (task : Task Url setup.backend.State) : Prop :=
  (∃ before ∈ sys.tasks, Alike task before) ∨
    ∃ id grant, Alike task (spawned setup.backend setup.remote.finalUrl id grant)

def Unwritten (command : Command) : Prop :=
  ∀ worker offset bytes now, command ≠ .write worker offset bytes now

structure Moves (before after : System Url setup.backend) : Prop where
  actor : after.actor = before.actor
  queue : after.queue = before.queue
  trace : after.trace = before.trace
  durable : after.durable = before.durable
  tasks : ∀ task ∈ after.tasks, Descends before task
  asks : ∀ stage ask, after.control.point = .awaiting stage ask →
    before.control.point = .awaiting stage ask ∨ Unwritten ask.command

structure Untouched (before after : System Url setup.backend) : Prop where
  actor : after.actor = before.actor
  trace : after.trace = before.trace
  durable : after.durable = before.durable

theorem alike_refl (task : Task Url State) : Alike task task :=
  ⟨rfl, rfl, rfl, rfl⟩

theorem alike_trans {State : Type} {left middle right : Task Url State} (first : Alike left middle)
    (second : Alike middle right) : Alike left right :=
  ⟨first.id.trans second.id, first.sink.trans second.sink, first.activity.trans second.activity,
    first.written.trans second.written⟩

theorem Moves.untouched {before after : System Url setup.backend} (moves : Moves before after) :
    Untouched before after :=
  ⟨moves.actor, moves.trace, moves.durable⟩

namespace Moves
variable (sys : System Url setup.backend)

theorem after {before middle after : System Url setup.backend} (second : Moves middle after)
    (first : Moves before middle) : Moves before after := by
  -- The later step first, since it determines the state in between.
  refine ⟨second.actor.trans first.actor, second.queue.trans first.queue,
    second.trace.trans first.trace, second.durable.trans first.durable, ?_, ?_⟩
  · intro task mem
    rcases second.tasks task mem with ⟨old, found, same⟩ | started
    · rcases first.tasks old found with ⟨older, was, alike⟩ | ⟨id, grant, alike⟩
      · exact Or.inl ⟨older, was, alike_trans same alike⟩
      · exact Or.inr ⟨id, grant, alike_trans same alike⟩
    · exact Or.inr started
  · intro stage ask here
    rcases second.asks stage ask here with same | new
    · exact first.asks stage ask same
    · exact Or.inr new

theorem control (control : Control Url) (asks : ∀ stage ask, control.point = .awaiting stage ask →
    sys.control.point = .awaiting stage ask ∨ Unwritten ask.command) :
    Moves sys { sys with control := control } :=
  ⟨rfl, rfl, rfl, rfl, fun task mem => Or.inl ⟨task, mem, alike_refl task⟩, asks⟩

theorem locals (control : Control Url) (same : control.point = sys.control.point) :
    Moves sys { sys with control := control } :=
  Moves.control sys control fun _ _ here => Or.inl (same ▸ here)

theorem stays : Moves sys sys := locals sys sys.control rfl

theorem flags (same : ∀ task, Alike (change task) task) :
    Moves sys { sys with tasks := sys.tasks.map change } := by
  refine ⟨rfl, rfl, rfl, rfl, ?_, fun _ _ here => Or.inl here⟩
  intro task mem
  obtain ⟨before, found, rfl⟩ := List.mem_map.mp mem
  exact Or.inl ⟨before, found, same before⟩

theorem moveTo (point : Point Url) (silent : ∀ stage ask, point ≠ .awaiting stage ask) :
    Moves sys (sys.moveTo point) :=
  control sys _ fun stage ask here => absurd here (silent stage ask)

theorem await (stage : Stage Url) (command : Command) (own : Unwritten command) :
    Moves sys (sys.await stage command) := by
  apply control
  rintro _ _ ⟨⟩
  exact Or.inr own

theorem abortAll : Moves sys sys.abortAll :=
  flags sys fun _ => ⟨rfl, rfl, rfl, rfl⟩

theorem leave (result : Except (PoolError Url) PoolReport) : Moves sys (sys.leave result) :=
  (moveTo sys.abortAll _ (by simp)).after (abortAll sys)

theorem loopHead : Moves sys sys.loopHead := by
  unfold System.loopHead
  split
  · exact await sys _ _ (by nofun)
  · exact moveTo sys _ (by simp)

theorem signal (fired : List RunningWorker) : Moves sys (sys.signal fired) := by
  apply flags
  intro task
  split <;> exact ⟨rfl, rfl, rfl, rfl⟩

theorem cancelRunning : Moves sys sys.cancelRunning :=
  (locals (sys.signal sys.control.running) _ (by rfl)).after (signal sys _)

theorem forget (worker : WorkerId) : Moves sys (sys.forget worker) :=
  (locals (sys.signal (findRunning sys.control.running worker).toList) _ (by rfl)).after
    (signal sys _)

theorem removeTask (id : Nat) : Moves sys (sys.removeTask id) :=
  ⟨rfl, rfl, rfl, rfl, fun task mem =>
    Or.inl ⟨task, (List.mem_filter.mp mem).1, alike_refl task⟩, fun _ _ here => Or.inl here⟩

theorem spawn (grant : Grant) : Moves sys (sys.spawn grant) := by
  refine ⟨rfl, rfl, rfl, rfl, ?_, fun _ _ here => Or.inl here⟩
  intro task mem
  rcases List.mem_append.mp mem with old | new
  · exact (signal sys _).tasks task old
  · exact Or.inr ⟨sys.nextTask, grant, List.mem_singleton.mp new ▸ alike_refl _⟩

theorem spawnAll (grants : List Grant) : Moves sys (sys.spawnAll grants) := by
  induction grants generalizing sys with
  | nil => exact stays sys
  | cons grant rest ih => exact (ih (sys.spawn grant)).after (spawn sys grant)

theorem launch : Moves sys sys.launch := by
  unfold System.launch
  split
  · exact leave sys _
  · exact (loopHead _).after ((locals _ _ (by rfl)).after (spawnAll sys sys.control.grants))

theorem allocateNext (index : Nat) : Moves sys (sys.allocateNext index) := by
  unfold System.allocateNext
  split
  · split
    · exact leave sys _
    · exact await sys _ _ (by nofun)
  · exact launch sys

theorem abandonNext (error : PoolError Url) (workers : List WorkerId) :
    Moves sys (sys.abandonNext error workers) := by
  cases workers with
  | nil => exact leave sys _
  | cons worker rest => exact await sys _ _ (by nofun)

theorem reclaimed (error : PoolError Url) : Moves sys (sys.reclaimed error) :=
  (abandonNext _ error _).after (locals sys _ rfl)

theorem reclaim (error : PoolError Url) : Moves sys (sys.reclaim error) := by
  unfold System.reclaim
  split
  · exact reclaimed sys error
  · exact (moveTo _ _ (by simp)).after (abortAll sys)

theorem survey (allocator : SegmentAllocator) : Moves sys (sys.survey allocator) := by
  unfold System.survey
  split
  · exact (await _ _ _ (by nofun)).after (locals sys _ rfl)
  · split
    · exact (leave _ _).after (locals sys _ rfl)
    · exact (await _ _ _ (by nofun)).after (locals sys _ rfl)

theorem resume (stage : Stage Url) (reply : Except WriterServiceError Receipt) :
    Moves sys (sys.resume stage reply) := by
  unfold System.resume
  cases reply with
  | error error => exact leave sys _
  | ok receipt =>
    simp only
    split
    next =>
      split
      · exact leave sys _
      · exact allocateNext sys 0
    next => exact launch sys
    next => exact (allocateNext _ _).after (locals sys _ rfl)
    next => exact await sys _ _ (by nofun)
    next allocator => exact survey sys allocator
    next => exact await sys _ _ (by nofun)
    next allocation durable => exact (loopHead _).after (spawn sys allocation.grant)
    next allocator =>
      have spawned := spawnAll sys (activeGrants allocator)
      split
      · exact (leave _ _).after spawned
      · exact (moveTo _ _ (by simp)).after spawned
    next => exact loopHead sys
    next => exact (moveTo _ _ (by simp)).after ((cancelRunning _).after (locals sys _ rfl))
    next error rest _ _ => exact abandonNext sys error rest
    next => exact await sys _ _ (by nofun)
    next => split <;> exact leave sys _
    next => exact stays sys

theorem failed (worker : WorkerId) (error : PoolError Url) (clock : RetryClock) :
    Moves sys (sys.failed worker error clock) := by
  unfold System.failed
  split
  next => exact reclaim sys _
  next =>
    simp only
    split
    next => exact (reclaim _ error).after (forget sys worker)
    next =>
      split
      next => exact (reclaim _ error).after (forget sys worker)
      next => exact (await _ _ _ (by nofun)).after ((locals _ _ (by rfl)).after (forget sys worker))

theorem delivered (worker : WorkerId) (report : WorkerReport) :
    Moves sys (sys.delivered worker report) := by
  have reported := fun changed same => (locals (sys.forget worker) changed same).after (forget sys worker)
  unfold System.delivered
  simp only
  split
  next =>
    exact (loopHead _).after ((locals _ _ (by rfl)).after ((cancelRunning _).after (reported _ (by rfl))))
  next => exact (loopHead _).after (reported _ (by rfl))

theorem joined (worker : WorkerId) (ending : Ending Url) (clock : RetryClock) :
    Moves sys (sys.joined worker ending clock) := by
  unfold System.joined
  split
  next report => exact delivered sys worker report
  next error => exact failed sys worker error clock
  next =>
    split
    next => exact reclaim sys _
    next => exact (loopHead _).after ((locals _ _ (by rfl)).after (forget sys worker))
  next => exact reclaim sys _

theorem join (id : Nat) (clock : RetryClock) : Moves sys (sys.join id clock) := by
  unfold System.join
  split
  next =>
    split
    next => exact reclaim sys _
    next =>
      split
      next => exact stays sys
      next task _ =>
        split
        next ending _ => exact (joined _ _ ending clock).after (removeTask sys id)
        next => exact stays sys
  next error _ =>
    simp only
    split
    next => exact (reclaimed _ error).after (removeTask sys id)
    next => exact removeTask sys id
  next => exact removeTask sys id
  next => exact stays sys

end Moves

end Downpour.PoolMoves
