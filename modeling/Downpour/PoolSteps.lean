import Downpour.PoolServe

/-!
The steps of the pool and of its tasks keep the invariant. Between two of its own
commands the pool has nothing in the queue; it starts workers only in a quiet
state, from grants that the map still shows, and it gives a worker up only after
its task has been joined.
-/

namespace Downpour.PoolSteps
open Segments Intervals JournalFormat Allocator Writer Http Retry Actor ActorSafety ActorOwnership
open Pool PoolInvariant PoolServe

variable {Url : Type} {setup : Setup Url}

structure Idle (sys : System Url setup.backend) : Prop where
  base : Base sys
  others : ∀ entry ∈ sys.queue, entry.sender ≠ none

variable {sys : System Url setup.backend} {task : Task Url setup.backend.State}

theorem inv_idle (inv : Inv sys) (unsent : ∀ stage command ticket,
      sys.control.point ≠ .awaiting stage ⟨command, .sent ticket⟩) : Idle sys := by
  refine ⟨inv.base, ?_⟩
  intro entry mem own
  obtain ⟨stage, here⟩ := inv.own entry mem own
  exact unsent stage entry.command entry.ticket here

theorem idle_control (control : Control Url)
    (idle : Idle sys) : Idle { sys with control := control } :=
  ⟨control_base control idle.base, idle.others⟩

theorem quiet_control (sys : System Url setup.backend) (control : Control Url)
    (quiet : Quiet sys) : Quiet { sys with control := control } :=
  ⟨quiet.tasks, quiet.staged, quiet.queue⟩

theorem idle_map (idle : Idle sys) (kept : ∀ task ∈ sys.tasks, Kept task (change task)) :
    Idle { sys with tasks := sys.tasks.map change } :=
  ⟨map_base idle.base kept, idle.others⟩

theorem idle_inv (idle : Idle sys)
    (unsent : ∀ stage ask ticket, sys.control.point = .awaiting stage ask →
      ask.status ≠ .sent ticket) (sound : PointSound sys) : Inv sys := by
  refine ⟨idle.base, ?_, ?_, sound⟩
  · intro entry mem own
    exact absurd own (idle.others entry mem)
  · intro stage ask ticket here status
    exact absurd status (unsent stage ask ticket here)

theorem idle_move (idle : Idle sys)
    (unsent : ∀ stage ask ticket, point = .awaiting stage ask → ask.status ≠ .sent ticket)
    (sound : PointSound (sys.moveTo point)) : Inv (sys.moveTo point) :=
  idle_inv (idle_control _ idle) unsent sound

theorem idle_await (idle : Idle sys) (stage : Stage Url)
    (command : Command) (sound : StageSound (sys.await stage command) stage (ask command)) :
    Inv (sys.await stage command) := by
  refine idle_move idle ?_ sound
  intro other waiting ticket same status
  cases same
  cases status

/-! Flags on tasks. -/

theorem idle_signal (fired : List RunningWorker) (idle : Idle sys) :
    Idle (sys.signal fired) := by
  apply idle_map idle
  intro task mem
  have cursor := (idle.base.sound task mem).cursor
  have call := idle.base.calls task mem
  split
  · exact kept_flags true task.aborted cursor call
  · exact kept_refl cursor call

theorem idle_abort (idle : Idle sys) :
    Idle sys.abortAll := by
  apply idle_map idle
  intro task mem
  exact kept_flags task.cancelled true (idle.base.sound task mem).cursor
    (idle.base.calls task mem)

theorem signal_member (mem : task ∈ (sys.signal fired).tasks) :
    ∃ before ∈ sys.tasks, task.grant = before.grant ∧ task.id = before.id := by
  obtain ⟨before, found, rfl⟩ := List.mem_map.mp mem
  refine ⟨before, found, ?_⟩
  split <;> exact ⟨rfl, rfl⟩

theorem idle_forget (worker : WorkerId) (idle : Idle sys) :
    Idle (sys.forget worker) :=
  idle_control _ (idle_signal _ idle)

theorem idle_cancel (idle : Idle sys) :
    Idle sys.cancelRunning :=
  idle_control _ (idle_signal _ idle)

/-! Leaving, and the head of the loop. -/

theorem idle_leave (idle : Idle sys) (covered : ∀ report, result = .ok report → Covered sys.actor) :
    Inv (sys.leave result) := by
  refine idle_move (idle_abort idle) (by simp) ?_
  cases result with
  | error error => trivial
  | ok report => exact covered report rfl

theorem leave_error (idle : Idle sys) (error : PoolError Url) :
    Inv (sys.leave (.error error)) :=
  idle_leave idle (by simp)

theorem idle_head (idle : Idle sys) :
    Inv sys.loopHead := by
  unfold System.loopHead
  split
  next none => exact idle_await idle _ _ ⟨rfl, List.isEmpty_iff.mp none, trivial⟩
  next => exact idle_move idle (by simp) trivial

theorem idle_abandon (sys : System Url setup.backend) (idle : Idle sys)
    (none : sys.tasks = []) (error : PoolError Url) (workers : List WorkerId) :
    Inv (sys.abandonNext error workers) := by
  cases workers with
  | nil => exact leave_error idle error
  | cons worker rest => exact idle_await idle _ _ ⟨⟨worker, rfl⟩, none⟩

theorem idle_reclaimed (idle : Idle sys) (none : sys.tasks = []) (error : PoolError Url) :
    Inv (sys.reclaimed error) :=
  idle_abandon { sys with control := { sys.control with running := [] } }
    (idle_control _ idle) none error sys.control.allocatedWorkers

theorem idle_reclaim (idle : Idle sys) (error : PoolError Url) : Inv (sys.reclaim error) := by
  unfold System.reclaim
  split
  next none => exact idle_reclaimed idle (List.isEmpty_iff.mp none) error
  next => exact idle_move (idle_abort idle) (by simp) trivial

/-! Starting workers. -/

/-- No batch and an empty queue: owned bytes are free, and every task holds its grant. -/
structure Ready (sys : System Url setup.backend) : Prop where
  base : Base sys
  staged : sys.actor.writer.staged = []
  queue : sys.queue = []
  held : ∀ task ∈ sys.tasks, Holds sys.actor task.grant

theorem ready_idle (ready : Ready sys) : Idle sys :=
  ⟨ready.base, by simp [ready.queue]⟩

theorem quiet_ready (idle : Idle sys) (quiet : Quiet sys) : Ready sys := by
  refine ⟨idle.base, quiet.staged, ?_, by simp [quiet.tasks]⟩
  rw [List.eq_nil_iff_forall_not_mem]
  intro entry mem
  exact idle.others entry mem (quiet.queue entry mem)

theorem spawned_sound (actor : StateActor) (staged : actor.writer.staged = []) (url : Url)
    (id : Nat) (grant : Grant) (holds : Holds actor grant) :
    TaskSound actor (spawned setup.backend url id grant) ∧
      CallSound (spawned setup.backend url id grant) ∧
      (spawned setup.backend url id grant).activity.pending = none := by
  refine ⟨⟨Nat.le_refl _, Nat.le_of_lt holds.ordered, ?_, ?_⟩, ?_, ?_⟩
  · intro pos
    rw [free_unstaged actor staged]
    exact holds.owned pos
  · intro pos owned
    exact (holds.owned pos).mp owned
  · unfold CallSound spawned
    by_cases empty : grant.range.stop = 0 <;> simp [empty]
  · unfold spawned
    by_cases empty : grant.range.stop = 0 <;> simp [empty, Activity.pending]

theorem push_base (base : Base sys) (empty : sys.queue = []) (id : task.id = sys.nextTask)
    (sound : TaskSound sys.actor task) (call : CallSound task)
    (silent : task.activity.pending = none)
    (apart : ∀ other ∈ sys.tasks, other.worker ≠ task.worker ∧
      Apart other.grant.range task.grant.range) :
    Base { sys with tasks := sys.tasks ++ [task], nextTask := sys.nextTask + 1 } := by
  have split : ∀ {motive : Task Url setup.backend.State → Prop},
      (∀ other ∈ sys.tasks, motive other) → motive task →
      ∀ other ∈ sys.tasks ++ [task], motive other := by
    intro motive old new other mem
    rcases List.mem_append.mp mem with found | found
    · exact old other found
    · exact List.mem_singleton.mp found ▸ new
  constructor
  · exact base.lined
  · exact base.recorded
  · refine List.pairwise_append.mpr ⟨base.apart, List.pairwise_singleton _ _, ?_⟩
    intro left mem right found
    rw [List.mem_singleton.mp found, id]
    exact ⟨Nat.ne_of_lt (base.known left mem), apart left mem⟩
  · refine split (fun other mem => Nat.lt_succ_of_lt (base.known other mem)) ?_
    exact id ▸ Nat.lt_succ_self _
  · exact split base.sound sound
  · exact split base.calls call
  · exact base.ordered
  · exact base.issued
  · refine split base.waiting ?_
    intro ask ticket pending
    rw [silent] at pending
    cases pending
  · intro entry mem
    exact absurd mem (by simp [empty])

theorem spawn_ready (ready : Ready sys) (holds : Holds sys.actor grant)
    (fresh : ∀ task ∈ sys.tasks, task.worker ≠ grant.worker) :
    Ready (sys.spawn grant) ∧ ∀ task ∈ (sys.spawn grant).tasks,
      (∃ before ∈ sys.tasks, task.grant = before.grant) ∨ task.grant = grant := by
  have base := (idle_signal (findRunning sys.control.running grant.worker).toList
    (ready_idle ready)).base
  obtain ⟨sound, call, silent⟩ := @spawned_sound Url setup sys.actor ready.staged
    setup.remote.finalUrl sys.nextTask grant holds
  have mem : ∀ task ∈ (sys.spawn grant).tasks,
      (∃ before ∈ sys.tasks, task.grant = before.grant) ∨ task.grant = grant := by
    intro task found
    rcases List.mem_append.mp found with old | new
    · obtain ⟨before, was, same, _⟩ := signal_member old
      exact Or.inl ⟨before, was, same⟩
    · exact Or.inr (List.mem_singleton.mp new ▸ rfl)
  refine ⟨⟨?_, ready.staged, ready.queue, ?_⟩, mem⟩
  · refine control_base _ (push_base base ready.queue rfl sound call silent ?_)
    intro other found
    obtain ⟨before, was, same, _⟩ := signal_member found
    have different : before.grant.worker ≠ grant.worker := fresh before was
    rw [Task.worker, same]
    exact ⟨different, holds_apart (ready.held before was) holds
      different⟩
  · intro task found
    rcases mem task found with ⟨before, was, same⟩ | same
    · exact same ▸ ready.held before was
    · exact same ▸ holds

theorem spawn_next (ready : Ready sys) (holds : Holds sys.actor grant)
    (first : ∀ other ∈ rest, grant.worker ≠ other.worker)
    (fresh : ∀ task ∈ sys.tasks, ∀ other ∈ grant :: rest, task.worker ≠ other.worker) :
    Ready (sys.spawn grant) ∧
      ∀ task ∈ (sys.spawn grant).tasks, ∀ other ∈ rest, task.worker ≠ other.worker := by
  obtain ⟨spawned, members⟩ := spawn_ready ready holds fun task mem =>
    fresh task mem grant List.mem_cons_self
  refine ⟨spawned, fun task mem other found => ?_⟩
  rcases members task mem with ⟨before, was, same⟩ | same
  · rw [Task.worker, same]
    exact fresh before was other (List.mem_cons_of_mem _ found)
  · rw [Task.worker, same]
    exact first other found

theorem spawn_all_ready (ready : Ready sys) (held : ∀ grant ∈ grants, Holds sys.actor grant)
    (different : grants.Pairwise fun left right => left.worker ≠ right.worker)
    (fresh : ∀ task ∈ sys.tasks, ∀ grant ∈ grants, task.worker ≠ grant.worker) :
    Ready (sys.spawnAll grants) := by
  induction grants generalizing sys with
  | nil => exact ready
  | cons grant rest ih =>
    obtain ⟨first, later⟩ := List.pairwise_cons.mp different
    obtain ⟨spawned, others⟩ := spawn_next ready (held grant List.mem_cons_self) first fresh
    exact ih spawned (fun other mem => held other (List.mem_cons_of_mem _ mem)) later others

theorem active_grants_held (lined : Lined actor) :
    (∀ grant ∈ activeGrants actor.allocator, Holds actor grant) ∧
      (activeGrants actor.allocator).Pairwise fun left right => left.worker ≠ right.worker := by
  have chain := actor.allocator.intervals.partitions
  constructor
  · intro grant mem
    obtain ⟨interval, found, same⟩ := List.mem_filterMap.mp mem
    split at same
    next worker label =>
      cases same
      exact ⟨(chain_member_bounds chain found).2.1, owned_interval lined found label⟩
    next => cases same
  · refine List.pairwise_filterMap.mpr ((chain_nodup chain).imp_of_mem ?_)
    intro left right leftMember rightMember different leftGrant leftSame rightGrant rightSame same
    split at leftSame
    next leftWorker leftLabel =>
      split at rightSame
      next rightWorker rightLabel =>
        cases leftSame
        cases rightSame
        obtain rfl : leftWorker = rightWorker := same
        exact different (interval_unique lined leftMember rightMember leftLabel rightLabel)
      next => cases rightSame
    next => cases leftSame

theorem quiet_launch (idle : Idle sys) (quiet : Quiet sys)
    (accurate : Accurate sys.actor sys.control.grants) :
    Inv sys.launch := by
  unfold System.launch
  split
  next => exact leave_error idle .incompleteCoverage
  next =>
    have ready := spawn_all_ready (quiet_ready idle quiet)
      accurate.held (accurate.sorted.imp Nat.ne_of_lt) (by simp [quiet.tasks])
    exact idle_head (idle_control _ (ready_idle ready))

theorem quiet_allocate (idle : Idle sys) (quiet : Quiet sys)
    (accurate : Accurate sys.actor sys.control.grants) (index : Nat) :
    Inv (sys.allocateNext index) := by
  unfold System.allocateNext
  split
  next =>
    split
    next => exact leave_error idle _
    next => exact idle_await idle _ _ ⟨rfl, quiet_control sys _ quiet, accurate⟩
  next => exact quiet_launch idle quiet accurate

theorem quiet_survey (idle : Idle sys) (quiet : Quiet sys) (allocator : SegmentAllocator) :
    Inv (sys.survey allocator) := by
  unfold System.survey
  split
  next => exact idle_await (idle_control _ idle) _ _ ⟨rfl, quiet_control sys _ quiet⟩
  next =>
    split
    next => exact leave_error (idle_control _ idle) .incompleteCoverage
    next worker _ =>
      exact idle_await (idle_control _ idle) _ _ ⟨⟨worker, rfl⟩, quiet_control sys _ quiet, trivial⟩

theorem all_complete_covered (complete : allComplete actor.allocator = true) :
    Covered actor := by
  apply actor.allocator.intervals.all_complete_iff.mp
  intro interval mem
  exact of_decide_eq_true (List.all_eq_true.mp complete interval mem)

theorem resume_inv (inv : Inv sys) {stage : Stage Url} {command : Command}
    {reply : Except WriterServiceError Receipt}
    (here : sys.control.point = .awaiting stage ⟨command, .answered reply⟩) :
    Inv (sys.resume stage reply) := by
  have idle : Idle sys := by
    apply inv_idle inv
    intro other asked ticket same
    rw [here] at same
    cases same
  have point := inv.point
  rw [PointSound, here] at point
  unfold System.resume
  cases reply with
  | error error => exact leave_error idle _
  | ok receipt =>
    simp only
    split
    next allocator =>
      obtain ⟨_, quiet, grants⟩ := point
      split
      next => exact leave_error idle _
      next =>
        refine quiet_allocate idle quiet ?_ 0
        rw [grants]
        exact ⟨List.Pairwise.nil, by simp⟩
    next => exact quiet_launch idle point.2.1 point.2.2
    next index allocation durable =>
      exact quiet_allocate
        (idle_control _ idle) (quiet_control sys _ point.2.1) point.2.2 (index + 1)
    next => exact idle_await idle _ _ ⟨rfl, quiet_control sys _ point.2.2⟩
    next allocator => exact quiet_survey idle point.2 allocator
    next => exact idle_await idle _ _ ⟨rfl, quiet_control sys _ point.2.1, trivial⟩
    next allocation durable =>
      have ready := (spawn_ready (quiet_ready idle point.2.1)
        point.2.2 (by simp [point.2.1.tasks])).1
      exact idle_head (ready_idle ready)
    next allocator =>
      obtain ⟨_, quiet, rfl⟩ := point
      obtain ⟨held, different⟩ := active_grants_held inv.base.lined
      have ready := spawn_all_ready
        (quiet_ready idle quiet) held different (by simp [quiet.tasks])
      split
      next => exact leave_error (ready_idle ready) _
      next => exact idle_move (ready_idle ready) (by simp) trivial
    next => exact idle_head idle
    next attempt delay intervals durable =>
      exact idle_move (idle_cancel (idle_control _ idle)) (by simp) trivial
    next error rest intervals durable => exact idle_abandon sys idle point.2 error rest
    next => exact idle_await idle _ _ ⟨rfl, quiet_control sys _ point.2, trivial⟩
    next allocator =>
      obtain ⟨_, _, rfl⟩ := point
      split
      next complete =>
        exact idle_leave idle fun _ _ => all_complete_covered complete
      next => exact leave_error idle _
    next => exact inv

/-! A task leaves the task set. -/

theorem idle_remove (idle : Idle sys) (id : Nat) :
    Idle (sys.removeTask id) :=
  ⟨sublist_base List.filter_sublist idle.base, idle.others⟩

theorem find_running_worker (found : findRunning running worker = some attempt) :
    attempt.grant.worker = worker := by
  have matched := List.find?_some found
  exact of_decide_eq_true matched

theorem failed_inv (idle : Idle sys)
    (gone : ∀ task ∈ sys.tasks, task.worker ≠ worker) (error : PoolError Url)
    (clock : RetryClock) : Inv (sys.failed worker error clock) := by
  unfold System.failed
  split
  next => exact idle_reclaim idle _
  next attempt found =>
    have forgotten := idle_forget worker idle
    simp only
    split
    next => exact idle_reclaim forgotten error
    next kind _ =>
      split
      next => exact idle_reclaim forgotten error
      next delay _ =>
        have same := find_running_worker found
        refine idle_await (idle_control _ forgotten) _ _ ⟨by rw [same]; rfl, ?_⟩
        intro task mem
        obtain ⟨before, was, grant, _⟩ := signal_member mem
        rw [same, Task.worker, grant]
        exact gone before was

theorem delivered_inv (idle : Idle sys) (worker : WorkerId) (report : WorkerReport) :
    Inv (sys.delivered worker report) := by
  have reported := fun control => idle_control control (idle_forget worker idle)
  unfold System.delivered
  simp only
  split
  next => exact idle_head (idle_control _ (idle_cancel (reported _)))
  next => exact idle_head (reported _)

theorem joined_inv (idle : Idle sys)
    (gone : ∀ task ∈ sys.tasks, task.worker ≠ worker) (ending : Ending Url) (clock : RetryClock)
    : Inv (sys.joined worker ending clock) := by
  unfold System.joined
  split
  next report => exact delivered_inv idle worker report
  next error => exact failed_inv idle gone error clock
  next =>
    split
    next => exact idle_reclaim idle _
    next attempt _ => exact idle_head (idle_control _ (idle_forget worker idle))
  next => exact idle_reclaim idle _

theorem base_unique (base : Base sys)
    (leftMember : left ∈ sys.tasks) (rightMember : right ∈ sys.tasks)
    (shared : left.id = right.id ∨ left.worker = right.worker) :
    left = right := by
  have symmetric : Std.Symm fun first second : Task Url setup.backend.State =>
      (first.id = second.id ∨ first.worker = second.worker → first = second) := by
    constructor
    intro first second same other
    exact (same (other.imp Eq.symm Eq.symm)).symm
  refine List.Pairwise.forall_of_forall (R := fun first second : Task Url setup.backend.State =>
    (first.id = second.id ∨ first.worker = second.worker → first = second)) ?_ ?_ leftMember
    rightMember shared
  · exact fun task _ _ => rfl
  · exact base.apart.imp fun apart same => (same.elim apart.1 apart.2.1).elim

theorem find_task_id {id : Nat} (found : sys.findTask id = some task) :
    task.id = id := by
  have matched := List.find?_some found
  exact of_decide_eq_true matched

theorem join_inv (inv : Inv sys) (id : Nat) (clock : RetryClock) :
    Inv (sys.join id clock) := by
  unfold System.join
  split
  next here =>
    have idle := inv_idle inv (by simp [here])
    split
    next => exact idle_reclaim idle _
    next =>
      split
      next => exact inv
      next task found =>
        split
        next ending _ =>
          refine joined_inv (idle_remove idle id) ?_ ending clock
          intro other mem same
          obtain ⟨was, different⟩ := List.mem_filter.mp mem
          have matched := base_unique inv.base was
            (List.mem_of_find?_eq_some found) (Or.inr same)
          exact of_decide_eq_true different (matched ▸ find_task_id found)
        next => exact inv
  next error here =>
    have idle := idle_remove (inv_idle inv (by simp [here])) id
    simp only
    split
    next none => exact idle_reclaimed idle (List.isEmpty_iff.mp none) error
    next =>
      refine idle_inv idle ?_ ?_
      · simp [System.removeTask, here]
      · simp only [PointSound, System.removeTask, here]
  next result here =>
    have point := inv.point
    rw [PointSound, here] at point
    refine idle_inv (idle_remove (inv_idle inv (by simp [here])) id) ?_ ?_
    · simp [System.removeTask, here]
    · simp only [PointSound, System.removeTask, here]
      cases result with
      | error error => trivial
      | ok report => exact point
  next => exact inv

/-! Commands enter the queue. -/

theorem enqueue_base (base : Base sys) (sender : Option Nat) (command : Command)
    (known : ∀ id, sender = some id → id < sys.nextTask ∧
      Queueable sys ⟨sys.tickets, sender, command⟩ id) :
    Base (sys.enqueue sender command) := by
  have split : ∀ {motive : Queued → Prop}, (∀ entry ∈ sys.queue, motive entry) →
      motive ⟨sys.tickets, sender, command⟩ →
      ∀ entry ∈ sys.queue ++ [⟨sys.tickets, sender, command⟩], motive entry := by
    intro motive old new entry mem
    rcases List.mem_append.mp mem with found | found
    · exact old entry found
    · exact List.mem_singleton.mp found ▸ new
  constructor
  · exact base.lined
  · exact base.recorded
  · exact base.apart
  · exact base.known
  · exact base.sound
  · exact base.calls
  · refine List.pairwise_append.mpr ⟨base.ordered, List.pairwise_singleton _ _, ?_⟩
    intro entry mem last found
    rw [List.mem_singleton.mp found]
    exact base.issued entry mem
  · refine split (fun entry mem => Nat.lt_succ_of_lt (base.issued entry mem)) ?_
    exact Nat.lt_succ_self _
  · intro task mem ask ticket pending status
    obtain ⟨issued, matched⟩ := base.waiting task mem ask ticket pending status
    refine ⟨Nat.lt_succ_of_lt issued, split matched ?_⟩
    intro same
    exact absurd same (Nat.ne_of_gt issued)
  · exact split base.sent known

theorem send_inv (inv : Inv sys) : Inv sys.send := by
  unfold System.send
  split
  next stage command here =>
    split
    next =>
      have idle := inv_idle inv (by simp [here])
      have point := inv.point
      rw [PointSound, here] at point
      have base := control_base { sys.control with
        point := .awaiting stage ⟨command, .sent sys.tickets⟩ }
        (enqueue_base inv.base none command (by simp))
      have quiet : Quiet sys → Quiet ((sys.enqueue none command).moveTo
          (.awaiting stage ⟨command, .sent sys.tickets⟩)) := by
        intro quiet
        refine ⟨quiet.tasks, quiet.staged, ?_⟩
        intro entry mem
        rcases List.mem_append.mp mem with found | found
        · exact quiet.queue entry found
        · rw [List.mem_singleton.mp found]
      refine ⟨base, ?_, ?_, ?_⟩
      · intro entry mem own
        rcases List.mem_append.mp mem with found | found
        · exact absurd own (idle.others entry found)
        · rw [List.mem_singleton.mp found]
          exact ⟨stage, rfl⟩
      · intro other ask ticket same status
        cases same
        cases status
        refine ⟨Nat.lt_succ_self _, ?_⟩
        intro entry mem same
        rcases List.mem_append.mp mem with found | found
        · exact absurd same (Nat.ne_of_lt (inv.base.issued entry found))
        · rw [List.mem_singleton.mp found]
      · cases stage with
        | identity => exact ⟨point.1, quiet point.2.1, point.2.2⟩
        | allocating index => exact ⟨point.1, quiet point.2.1, point.2.2⟩
        | flushing =>
          refine ⟨point.1, point.2.1, ?_⟩
          intro entry mem
          exact Nat.le_of_lt_succ (base.issued entry mem)
        | surveying => exact ⟨point.1, quiet point.2⟩
        | reassigning => exact ⟨point.1, quiet point.2.1, trivial⟩
        | restarting => exact ⟨point.1, quiet point.2.1, trivial⟩
        | ticking => exact point
        | abandoning attempt delay => exact point
        | reclaiming error rest => exact point
        | lastFlush => exact ⟨point.1, quiet point.2⟩
        | lastSnapshot => exact ⟨point.1, quiet point.2.1, trivial⟩
    next => exact inv
  next => exact inv

theorem change_point (sys : System Url setup.backend)
    (change : Task Url setup.backend.State → Task Url setup.backend.State)
    (same : ∀ task ∈ sys.tasks, (change task).grant = task.grant) (sound : PointSound sys) :
    PointSound { sys with tasks := sys.tasks.map change } := by
  have none : sys.tasks = [] → sys.tasks.map change = [] := by
    intro empty
    rw [empty, List.map_nil]
  have quiet : Quiet sys → Quiet { sys with tasks := sys.tasks.map change } :=
    fun quiet => ⟨none quiet.tasks, quiet.staged, quiet.queue⟩
  unfold PointSound at sound ⊢
  cases here : sys.control.point with
  | awaiting stage ask =>
    rw [here] at sound
    cases stage with
    | identity => exact ⟨sound.1, quiet sound.2.1, sound.2.2⟩
    | allocating index => exact ⟨sound.1, quiet sound.2.1, sound.2.2⟩
    | flushing =>
      obtain ⟨command, tasks, answer⟩ := sound
      refine ⟨command, none tasks, ?_⟩
      split
      next status => simpa only [status] using answer
      next status =>
        simp only [status] at answer
        exact quiet answer
      next => trivial
    | surveying => exact ⟨sound.1, quiet sound.2⟩
    | reassigning => exact ⟨sound.1, quiet sound.2.1, sound.2.2⟩
    | restarting => exact ⟨sound.1, quiet sound.2.1, sound.2.2⟩
    | ticking => exact sound
    | abandoning attempt delay =>
      refine ⟨sound.1, ?_⟩
      intro task mem
      obtain ⟨before, found, rfl⟩ := List.mem_map.mp mem
      rw [Task.worker, same before found]
      exact sound.2 before found
    | reclaiming error rest => exact ⟨sound.1, none sound.2⟩
    | lastFlush => exact ⟨sound.1, quiet sound.2⟩
    | lastSnapshot => exact ⟨sound.1, quiet sound.2.1, sound.2.2⟩
  | selecting => trivial
  | sleeping delay => trivial
  | joining error => trivial
  | returned result =>
    rw [here] at sound
    cases result with
    | error error => trivial
    | ok report => exact sound

theorem enqueue_point (sound : PointSound sys) (mem : task ∈ sys.tasks)
    (sender : Option Nat) (command : Command) : PointSound (sys.enqueue sender command) := by
  have running : sys.tasks ≠ [] := List.ne_nil_of_mem mem
  unfold PointSound at sound ⊢
  simp only [System.enqueue]
  cases here : sys.control.point with
  | awaiting stage ask =>
    rw [here] at sound
    cases stage with
    | identity => exact absurd sound.2.1.tasks running
    | allocating index => exact absurd sound.2.1.tasks running
    | flushing => exact absurd sound.2.1 running
    | surveying => exact absurd sound.2.tasks running
    | reassigning => exact absurd sound.2.1.tasks running
    | restarting => exact absurd sound.2.1.tasks running
    | ticking => exact sound
    | abandoning attempt delay => exact sound
    | reclaiming error rest => exact absurd sound.2 running
    | lastFlush => exact absurd sound.2.tasks running
    | lastSnapshot => exact absurd sound.2.1.tasks running
  | selecting => trivial
  | sleeping delay => trivial
  | joining error => trivial
  | returned result =>
    rw [here] at sound
    cases result with
    | error error => trivial
    | ok report => exact sound

/-- What a task sends is a flush, or the write of its chunk. -/
theorem pending_command (call : CallSound task) (pending : task.activity.pending = some asked) :
    asked.command = .flush ∨ ∃ bytes now,
      asked.command = .write task.worker task.sink.target.nextOffset bytes now := by
  unfold CallSound at call
  cases open_ : task.activity with
  | fetching state => simp [open_, Activity.pending] at pending
  | refused error state => simp [open_, Activity.pending] at pending
  | ended ending => simp [open_, Activity.pending] at pending
  | syncing state waiting | committing waiting =>
    simp only [open_, Activity.pending, Option.some.injEq] at pending call
    exact Or.inl (pending ▸ call)
  | accepting bytes state waiting =>
    simp only [open_, Activity.pending, Option.some.injEq] at pending call
    obtain ⟨⟨now, command⟩, _⟩ := call
    exact Or.inr ⟨bytes, now, pending ▸ command⟩

theorem pending_queueable (base : Base sys) (mem : task ∈ sys.tasks)
    (pending : task.activity.pending = some asked) (ticket : Nat) :
    Queueable sys ⟨ticket, some task.id, asked.command⟩ task.id := by
  rcases pending_command (base.calls task mem) pending with flush | ⟨bytes, now, command⟩
  · exact Or.inl flush
  · -- The write is in front of everything free.
    have sound := base.sound task mem
    refine Or.inr ⟨task.worker, task.sink.target.nextOffset, bytes, now, command, ?_, ?_⟩
    · intro pos free
      exact Nat.le_trans sound.cursor ((sound.free pos).mp free).1
    · intro other found
      constructor
      · intro same
        rw [base_unique base found mem (Or.inr same)]
      · intro same
        rw [base_unique base found mem (Or.inl same)]

theorem sent_changed (ticket : Nat)
    (cursor : task.sink.target.nextOffset ≤ task.written) (call : CallSound task)
    (pending : task.activity.pending = some asked) :
    Changed task { task with
      activity := task.activity.mapAsk fun _ => ⟨asked.command, .sent ticket⟩ } := by
  refine ⟨rfl, rfl, rfl, cursor, ?_⟩
  unfold CallSound at call ⊢
  cases open_ : task.activity with
  | fetching state => trivial
  | refused error state => trivial
  | ended ending => trivial
  | syncing state waiting =>
    simp only [open_, Activity.pending, Option.some.injEq] at pending call
    exact pending ▸ call
  | committing waiting =>
    simp only [open_, Activity.pending, Option.some.injEq] at pending call
    exact pending ▸ call
  | accepting bytes state waiting =>
    simp only [open_, Activity.pending, Option.some.injEq] at pending call
    exact ⟨pending ▸ call.1, nofun⟩

theorem task_send_inv (inv : Inv sys) (id : Nat) :
    Inv (sys.taskSend id) := by
  unfold System.taskSend
  split
  next command found =>
    split
    next =>
      obtain ⟨task, located, pending⟩ := Option.bind_eq_some_iff.mp found
      have mem := List.mem_of_find?_eq_some located
      obtain rfl := find_task_id located
      have base := enqueue_base inv.base (some task.id) command fun id same => by
        cases same
        exact ⟨inv.base.known task mem,
          pending_queueable inv.base mem pending sys.tickets⟩
      have only : ∀ other ∈ sys.tasks, other.id = task.id →
          other.activity.pending = some ⟨command, .unsent⟩ := fun other found same =>
        base_unique inv.base found mem (Or.inl same) ▸ pending
      have changed : ∀ other ∈ sys.tasks, Changed other (if other.id = task.id then
          { other with activity := other.activity.mapAsk fun _ => ⟨command, .sent sys.tickets⟩ }
          else other) := by
        intro other found
        have cursor := (inv.base.sound other found).cursor
        have call := inv.base.calls other found
        split
        next same => exact sent_changed sys.tickets cursor call (only other found same)
        next => exact (kept_refl cursor call).toChanged
      have point := change_point (sys.enqueue (some task.id) command) _
        (fun other found => (changed other found).grant)
        (enqueue_point inv.point mem (some task.id) command)
      refine ⟨change_base _ base changed ?_, ?_, ?_, point⟩
      · intro other found ask ticket waiting status
        by_cases same : other.id = task.id
        · simp only [if_pos same, mapped_pending, only other found same, Option.map_some,
            Option.some.injEq] at waiting
          subst waiting
          cases status
          refine ⟨Nat.lt_succ_self _, ?_⟩
          intro entry queued ticket
          rcases List.mem_append.mp queued with old | new
          · exact absurd ticket (Nat.ne_of_lt (inv.base.issued entry old))
          · rw [List.mem_singleton.mp new, same]
            exact ⟨rfl, rfl⟩
        · simp only [if_neg same] at waiting
          exact base.waiting other found ask ticket waiting status
      · intro entry mem own
        rcases List.mem_append.mp mem with found | found
        · exact inv.own entry found own
        · rw [List.mem_singleton.mp found] at own
          cases own
      · intro stage ask ticket here status
        obtain ⟨issued, mine⟩ := inv.awaited stage ask ticket here status
        refine ⟨Nat.lt_succ_of_lt issued, ?_⟩
        intro entry mem same
        rcases List.mem_append.mp mem with found | found
        · exact mine entry found same
        · rw [List.mem_singleton.mp found] at same
          exact absurd same (Nat.ne_of_gt issued)
    next => exact inv
  next => exact inv

/-! Tasks that react, receive or are cancelled. -/

theorem update_inv (inv : Inv sys) (id : Nat)
    (kept : ∀ task, task.sink.target.nextOffset ≤ task.written → CallSound task →
      Kept task (change task)) : Inv (sys.updateTask id change) := by
  have each : ∀ task ∈ sys.tasks, Kept task (if task.id = id then change task else task) := by
    intro task mem
    have cursor := (inv.base.sound task mem).cursor
    have call := inv.base.calls task mem
    split
    · exact kept task cursor call
    · exact kept_refl cursor call
  exact ⟨map_base inv.base each, inv.own, inv.awaited,
    change_point sys _ (fun task mem => (each task mem).grant) inv.point⟩

theorem step_inv (inv : Inv sys) (action : Action setup.backend) : Inv (sys.step action) := by
  cases action with
  | serve io => exact serve_inv inv io
  | send => exact send_inv inv
  | proceed =>
    simp only [System.step]
    split
    next stage command reply here => exact resume_inv inv here
    next => exact inv
  | join task clock => exact join_inv inv task clock
  | tick now =>
    simp only [System.step]
    split
    next here => exact idle_await (inv_idle inv (by simp [here])) _ _ ⟨now, rfl⟩
    next => exact inv
  | wake =>
    simp only [System.step]
    split
    next delay here => exact idle_head (inv_idle inv (by simp [here]))
    next => exact inv
  | taskSend task => exact task_send_inv inv task
  | taskReact task event now =>
    apply update_inv inv task
    intro task cursor call
    exact react_kept setup.backend setup.serviceText setup.totalLength event now cursor call
  | taskReceive task now =>
    apply update_inv inv task
    intro task cursor call
    exact receive_kept setup.backend setup.serviceText setup.totalLength now cursor call
  | taskCancel task =>
    apply update_inv inv task
    intro task cursor call
    split
    · exact kept_silent ⟨rfl, rfl, rfl, cursor, trivial⟩ rfl
    · exact kept_refl cursor call

theorem run_inv (actions : List (Action setup.backend)) (inv : Inv sys) :
    Inv (sys.run actions) := by
  induction actions generalizing sys with
  | nil => exact inv
  | cons action rest ih => exact ih (step_inv inv action)

end Downpour.PoolSteps
