import Downpour.PoolSafety

/-!
The attempts of the pool that no report counts yet: its tasks, the attempts that
were cancelled and not surveyed since, and the one that is being given up. They
belong to different workers and their grants share no byte. Whatever is owned,
staged or waits in the queue as a write belongs to one of them, so only bytes of
their grants can become complete. Nothing is said about a pool that has failed and
reclaims its workers.
-/

namespace Downpour.PoolAttempts
open Segments Intervals JournalFormat Allocator Writer Http Retry Actor ActorSafety ActorOwnership
open Pool PoolInvariant PoolServe PoolSteps

variable {Url : Type} {setup : Setup Url}

def givingUp (point : Point Url) : List Grant :=
  match point with
  | .awaiting (.abandoning attempt _) _ => [attempt.grant]
  | _ => []

def outstanding (sys : System Url setup.backend) : List Grant :=
  sys.tasks.map Task.grant ++ sys.control.cancelledAttempts.map RunningWorker.grant

def attempts (sys : System Url setup.backend) : List Grant :=
  outstanding sys ++ givingUp sys.control.point

def Spoiled (point : Point Url) : Prop :=
  match point with
  | .joining _ | .awaiting (.reclaiming _ _) _ | .returned (.error _) => True
  | _ => False

def Sundered (left right : Grant) : Prop :=
  left.worker ≠ right.worker ∧ Apart left.range right.range

structure Round (actor : StateActor) (queue : List Queued) (grants : List Grant) : Prop where
  apart : grants.Pairwise Sundered
  owned : ∀ grant ∈ grants, ∀ pos, Owns actor grant.worker pos →
    Inside grant.range pos
  staged : ∀ block ∈ actor.writer.staged, ∃ grant ∈ grants, grant.worker = block.worker
  writes : ∀ entry ∈ queue, ∀ worker, Writes entry.command worker →
    (∃ grant ∈ grants, grant.worker = worker) ∨ ∀ pos, ¬ Owns actor worker pos

instance sunderedSymm : Std.Symm Sundered :=
  ⟨fun _ _ sundered => ⟨sundered.1.symm, sundered.2.symm⟩⟩

theorem round_perm
    (same : after.Perm before) (round : Round actor queue before) : Round actor queue after := by
  constructor
  · exact (same.pairwise_iff fun sundered => sunderedSymm.symm _ _ sundered).mpr round.apart
  · exact fun grant mem => round.owned grant (same.mem_iff.mp mem)
  · intro block mem
    obtain ⟨grant, found, worker⟩ := round.staged block mem
    exact ⟨grant, same.mem_iff.mpr found, worker⟩
  · intro entry mem worker write
    refine (round.writes entry mem worker write).imp_left ?_
    rintro ⟨grant, found, mine⟩
    exact ⟨grant, same.mem_iff.mpr found, mine⟩

theorem round_finish (coherent : Coherent actor) (round : Round actor queue (grant :: rest))
    (complete : ∀ pos, Inside grant.range pos → Complete actor pos) :
    Round actor queue rest := by
  have nothing : ∀ pos, ¬ Owns actor grant.worker pos := by
    intro pos owned
    have done := complete pos (round.owned grant List.mem_cons_self pos owned)
    rw [Complete, owned] at done
    cases done
  constructor
  · exact (List.pairwise_cons.mp round.apart).2
  · exact fun other mem => round.owned other (List.mem_cons_of_mem _ mem)
  · intro block mem
    obtain ⟨other, found, worker⟩ := round.staged block mem
    rcases List.mem_cons.mp found with rfl | later
    · have held := coherent.owned block mem block.range.start
        ⟨Nat.le_refl _, coherent.ordered block mem⟩
      exact absurd (worker ▸ held) (nothing block.range.start)
    · exact ⟨other, later, worker⟩
  · intro entry mem worker write
    rcases round.writes entry mem worker write with ⟨other, found, mine⟩ | free
    · rcases List.mem_cons.mp found with rfl | later
      · exact Or.inr (mine ▸ nothing)
      · exact Or.inl ⟨other, later, mine⟩
    · exact Or.inr free

theorem round_empty (staged : actor.writer.staged = []) :
    Round actor [] [] := by
  constructor <;> simp [staged]

theorem ready_round {sys : System Url setup.backend} (ready : Ready sys) :
    Round sys.actor sys.queue (sys.tasks.map Task.grant) := by
  constructor
  · exact List.pairwise_map.mpr (ready.base.apart.imp fun apart => apart.2)
  · intro grant mem pos owned
    obtain ⟨task, found, rfl⟩ := List.mem_map.mp mem
    exact (ready.base.sound task found).owned pos owned
  · simp [ready.staged]
  · simp [ready.queue]

/-! How far a task has come. -/

section Tasks
variable {State : Type}

def Counted (task : Task Url State) : Prop :=
  task.grant.range.start + task.sink.written ≤ task.sink.target.nextOffset

def Delivered (actor : StateActor) (grant : Grant) : Prop :=
  ∀ pos, Inside grant.range pos → Complete actor pos

/-- A task that commits has written its whole grant, and a commit that succeeds has
completed it. -/
def Settled (actor : StateActor) (task : Task Url State) : Prop :=
  match task.activity with
  | .committing ask => task.sink.written = task.grant.range.stop - task.grant.range.start ∧
      ∀ receipt, ask.status = .answered (.ok receipt) → Delivered actor task.grant
  | .ended (.finished (.ok report)) =>
    report = ⟨task.worker, task.grant.range.stop - task.grant.range.start⟩ ∧
      Delivered actor task.grant
  | _ => True

structure Progress (actor : StateActor) (task : Task Url State) : Prop where
  held : ∀ pos, Inside task.grant.range pos →
    Owns actor task.worker pos ∨ Complete actor pos
  counted : Counted task
  settled : Settled actor task

theorem progress_changed {actor : StateActor} {before after : Task Url State}
    (grant : after.grant = before.grant) (progress : Progress actor before)
    (counted : Counted after) (settled : Settled actor after) : Progress actor after := by
  refine ⟨?_, counted, settled⟩
  rw [Task.worker, grant]
  exact progress.held

theorem progress_flags {actor : StateActor} {task : Task Url State} (cancelled aborted : Bool)
    (progress : Progress actor task) :
    Progress actor { task with cancelled := cancelled, aborted := aborted } :=
  ⟨progress.held, progress.counted, progress.settled⟩

end Tasks

section Worker
variable (backend : Backend Url) (serviceText : WriterServiceError → String) (totalLength : Nat)

theorem follow_progress (actor : StateActor) (task : Task Url backend.State) (now : Nat)
    (move : Move Url backend.State) (counted : Counted task) :
    Counted (follow backend serviceText totalLength task now move) ∧
      Settled actor (follow backend serviceText totalLength task now move) := by
  cases move with
  | wait state => exact ⟨counted, trivial⟩
  | accept bytes state =>
    simp only [follow]
    cases acceptCommand serviceText task.sink bytes now with
    | error error => exact ⟨counted, trivial⟩
    | ok command => exact ⟨counted, trivial⟩
  | sync state => exact ⟨counted, trivial⟩
  | rebase baseOffset limit state =>
    -- The sink counts from zero again, the cursor stays where it is.
    refine ⟨?_, trivial⟩
    exact Nat.le_trans (Nat.add_le_add_left (Nat.zero_le _) _) counted
  | finish result =>
    simp only [follow, fetched]
    cases result with
    | error error => exact ⟨counted, trivial⟩
    | ok outcome =>
      simp only
      split
      next matched =>
        refine ⟨counted, ?_, by rintro _ ⟨⟩⟩
        simp only [outcomeMatches, Bool.and_eq_true, decide_eq_true_eq] at matched
        exact matched.1.2
      next => exact ⟨counted, trivial⟩
  | panic => exact ⟨counted, trivial⟩

theorem react_progress (event : backend.Event) (now : Nat) (progress : Progress actor task) :
    Counted (react backend serviceText totalLength task event now) ∧
      Settled actor (react backend serviceText totalLength task event now) := by
  have follows := follow_progress backend serviceText totalLength actor task now
  unfold react
  split
  next state _ => exact follows _ progress.counted
  next bytes state ask open_ =>
    split
    next => exact ⟨progress.counted, trivial⟩
    next => exact follows _ progress.counted
  next state ask open_ =>
    split
    next => exact ⟨progress.counted, trivial⟩
    next => exact follows _ progress.counted
  next => exact ⟨progress.counted, progress.settled⟩

theorem receive_progress (now : Nat) (progress : Progress actor task) :
    Counted (receive backend serviceText totalLength task now) ∧
      Settled actor (receive backend serviceText totalLength task now) := by
  have counted := progress.counted
  unfold receive
  split
  next bytes state command reply open_ =>
    apply follow_progress
    cases reply with
    | error error => exact counted
    | ok receipt =>
      simp only [Counted, Task.grant, acceptReply, GrantWriter.advance] at counted ⊢
      omega
  next => exact follow_progress backend serviceText totalLength actor task now _ counted
  next => exact follow_progress backend serviceText totalLength actor task now _ counted
  next command reply open_ =>
    refine ⟨counted, ?_⟩
    have settled := progress.settled
    rw [Settled, open_] at settled
    cases reply with
    | error error => trivial
    | ok receipt =>
      exact ⟨congrArg (WorkerReport.mk task.worker) settled.1, settled.2 receipt rfl⟩
  next => exact ⟨counted, progress.settled⟩

end Worker

/-! The attempts of a system. -/

def Stage.clear : Stage Url → Bool
  | .identity | .allocating _ | .reassigning | .restarting | .lastFlush | .lastSnapshot => true
  | _ => false

def PointBalanced (sys : System Url setup.backend) : Prop :=
  match sys.control.point with
  | .awaiting stage ask =>
    (Stage.clear stage = true → sys.control.cancelledAttempts = []) ∧
      ∀ allocator, stage = .surveying → ask.status = .answered (.ok (.snapshot allocator)) →
        allocator = sys.actor.allocator
  | .returned (.ok report) => attempts sys = [] ∧
      report.workers.Perm sys.control.reports
  | _ => True

structure Manned (sys : System Url setup.backend) : Prop where
  running : ∀ task ∈ sys.tasks, ∃ entry,
    findRunning sys.control.running task.worker = some entry ∧ entry.grant = task.grant
  progress : ∀ task ∈ sys.tasks, Progress sys.actor task

structure Balanced (sys : System Url setup.backend) : Prop extends Manned sys where
  round : Round sys.actor sys.queue (attempts sys)
  point : PointBalanced sys

theorem start_balanced (staged : actor.writer.staged = [])
    (planned : setup.plan = .segmented length workers) :
    Balanced (System.start setup actor) := by
  refine ⟨⟨by simp [System.start], by simp [System.start]⟩, ?_, ?_⟩
  · have none : attempts (System.start setup actor) = [] := by
      simp [attempts, outstanding, System.start, planned, givingUp]
    rw [none]
    exact round_empty staged
  · simp only [PointBalanced, System.start, planned]
    exact ⟨fun _ => trivial, by simp⟩

def surveyReport (allocator : SegmentAllocator) (grant : Grant) : Option WorkerReport :=
  let bytes := completedBytesInside allocator grant.range
  if bytes > 0 then some ⟨grant.worker, bytes⟩ else none

/-- What a step does to the attempts that are not counted yet, to the reports and
to the map. -/
inductive Turn (before : List Grant) (reports : List WorkerReport) (actor : StateActor)
    (after : System Url setup.backend) : Prop where
  | kept (same : (attempts after).Perm before) (reported : after.control.reports = reports)
      (completed : ∀ pos, Complete after.actor pos → Complete actor pos ∨
        ∃ grant ∈ before, Inside grant.range pos)
      (held : ∀ grant ∈ before, ∀ pos, Inside grant.range pos →
        Owns after.actor grant.worker pos ∨ Complete after.actor pos →
        Owns actor grant.worker pos ∨ Complete actor pos)
  | began (empty : before = []) (same : after.actor = actor)
      (held : ∀ grant ∈ attempts after, Holds actor grant ∧ ∃ task ∈ after.tasks, task.grant = grant)
      (reported : after.control.reports = reports)
  | finished (grant : Grant) (left : before.Perm (grant :: attempts after))
      (same : after.actor = actor) (delivered : Delivered actor grant)
      (reported : after.control.reports =
        reports ++ [⟨grant.worker, grant.range.stop - grant.range.start⟩])
  | surveyed (empty : attempts after = []) (same : after.actor = actor)
      (reported : after.control.reports = reports ++ before.filterMap (surveyReport actor.allocator))

theorem turn_same (actor : StateActor)
    (after : System Url setup.backend) (untouched : after.actor = actor)
    (same : (attempts after).Perm before) (reported : after.control.reports = reports) :
    Turn before reports actor after := by
  refine Turn.kept same reported ?_ ?_
  · rw [untouched]
    exact fun _ complete => Or.inl complete
  · rw [untouched]
    exact fun _ _ _ _ held => held

theorem balanced_congr (sys next : System Url setup.backend) (actor : next.actor = sys.actor)
    (point : next.control.point = sys.control.point)
    (cancelled : next.control.cancelledAttempts = sys.control.cancelledAttempts)
    (reports : next.control.reports = sys.control.reports)
    (tasks : next.tasks.map Task.grant = sys.tasks.map Task.grant) :
    attempts next = attempts sys ∧ (PointBalanced sys → PointBalanced next) := by
  have same : attempts next = attempts sys := by
    rw [attempts, outstanding, tasks, cancelled, point]
    rfl
  refine ⟨same, ?_⟩
  unfold PointBalanced
  rw [point, cancelled, reports, actor, same]
  exact id

/-! The actor serves a command. -/

section Serve
variable (sys : System Url setup.backend) (inv : Inv sys) (balanced : Balanced sys)
  (entry : Queued) (rest : List Queued) (queued : sys.queue = entry :: rest) (io : StageIo)

theorem served_attempts (served : Served) :
    attempts (servedSystem sys entry rest served) = attempts sys := by
  have tasks : (servedSystem sys entry rest served).tasks.map Task.grant =
      sys.tasks.map Task.grant := by
    rw [servedSystem, List.map_map]
    rfl
  have point : givingUp (servedSystem sys entry rest served).control.point =
      givingUp sys.control.point := by
    simp only [servedSystem]
    cases sys.control.point with
    | awaiting stage ask => cases stage <;> rfl
    | _ => rfl
  rw [attempts, outstanding, tasks, point]
  rfl

include inv balanced queued

theorem allocate_clear (command : entry.command = .allocate worker) :
    Quiet sys ∧ attempts sys = [] := by
  obtain ⟨quiet, stage, ask, here, which⟩ := allocate_quiet inv
    (queued ▸ List.mem_cons_self) command
  have point := balanced.point
  rw [PointBalanced, here] at point
  refine ⟨quiet, ?_⟩
  have cancelled := point.1 (by rcases which with rfl | ⟨index, rfl⟩ <;> rfl)
  rw [attempts, outstanding, quiet.tasks, cancelled, here]
  rcases which with rfl | ⟨index, rfl⟩ <;> rfl

theorem served_round : Round (sys.serve io).actor rest (attempts sys) := by
  have round := balanced.round
  have serves := handle_serves inv.base.lined.coherent
    (handle_end setup.blake3 setup.crc32c sys.actor entry.command io)
  rw [served_eq queued io]
  generalize sys.actor.handle setup.blake3 setup.crc32c entry.command io = served at serves ⊢
  have behind : ∀ other ∈ rest, other ∈ sys.queue := fun other mem =>
    queued ▸ List.mem_cons_of_mem _ mem
  by_cases allocating : ∃ worker, entry.command = .allocate worker
  · obtain ⟨worker, command⟩ := allocating
    obtain ⟨quiet, none⟩ := allocate_clear sys inv balanced entry rest queued command
    constructor
    · exact round.apart
    · simp [none]
    · intro block mem
      rcases serves.staged block mem with old | ⟨write, _⟩
      · rw [quiet.staged] at old
        cases old
      · simp [command, Writes] at write
    · intro other mem worker write
      exact absurd write (quiet_unwritten inv quiet (behind other mem) worker)
  · have owned := serves.owned fun worker command => allocating ⟨worker, command⟩
    constructor
    · exact round.apart
    · exact fun grant mem pos held => round.owned grant mem pos
        (owned grant.worker pos held)
    · intro block mem
      rcases serves.staged block mem with old | ⟨write, pos, held⟩
      · exact round.staged block old
      · rcases round.writes entry (queued ▸ List.mem_cons_self) block.worker write with found | free
        · exact found
        · exact absurd held (free pos)
    · intro other mem worker write
      refine (round.writes other (behind other mem) worker write).imp_right ?_
      exact fun free pos held => free pos (owned worker pos held)

theorem served_turn : Turn (attempts sys) sys.control.reports sys.actor (sys.serve io) := by
  -- Only bytes of attempts become complete, and they belonged to that attempt.
  have round := balanced.round
  have serves := handle_serves inv.base.lined.coherent
    (handle_end setup.blake3 setup.crc32c sys.actor entry.command io)
  rw [served_eq queued io]
  generalize sys.actor.handle setup.blake3 setup.crc32c entry.command io = served at serves ⊢
  have source : ∀ pos, Complete served.actor pos → Complete sys.actor pos ∨
      ∃ grant ∈ attempts sys, Owns sys.actor grant.worker pos := by
    intro pos complete
    rcases serves.completed pos complete with was | ⟨worker, owned, origin⟩
    · exact Or.inl was
    refine Or.inr ?_
    rcases origin with ⟨block, mem, rfl⟩ | write
    · obtain ⟨grant, found, worker⟩ := round.staged block mem
      exact ⟨grant, found, worker ▸ owned⟩
    · rcases round.writes entry (queued ▸ List.mem_cons_self) worker write with
        ⟨grant, found, mine⟩ | free
      · exact ⟨grant, found, mine ▸ owned⟩
      · exact absurd owned (free pos)
  refine Turn.kept (List.Perm.of_eq (served_attempts sys entry rest served)) rfl ?_ ?_
  · intro pos complete
    refine (source pos complete).imp_right ?_
    rintro ⟨grant, found, owned⟩
    exact ⟨grant, found, round.owned grant found pos owned⟩
  · intro grant mem pos inside now
    rcases now with owned | complete
    · refine Or.inl (serves.owned ?_ grant.worker pos owned)
      intro worker command
      obtain ⟨_, none⟩ := allocate_clear sys inv balanced entry rest queued command
      rw [none] at mem
      cases mem
    · rcases source pos complete with was | ⟨other, found, owned⟩
      · exact Or.inr was
      -- The owner is the attempt that has the byte in its grant.
      by_cases same : other = grant
      · exact Or.inl (same ▸ owned)
      · have sundered := round.apart.forall found mem same
        have shared := round.owned other found pos owned
        have apart := sundered.2
        simp only [Inside] at inside shared
        omega

omit queued in
theorem served_delivered (task : Task Url setup.backend.State)
    (mem : task ∈ sys.tasks) (effect : Effect sys entry rest served)
    (held : ∀ pos, Inside task.grant.range pos →
      Owns served.actor task.worker pos ∨ Complete served.actor pos)
    (whole : task.sink.written = task.grant.range.stop - task.grant.range.start)
    (emptied : served.actor.writer.staged = []) : Delivered served.actor task.grant := by
  intro pos inside
  rcases held pos inside with owned | complete
  · obtain ⟨sound, grown⟩ := effect.sound task mem
    have cursor := (inv.base.sound task mem).cursor
    have counted : task.grant.range.start + task.sink.written ≤ task.sink.target.nextOffset :=
      (balanced.progress task mem).counted
    have behind := ((sound.free pos).mp
      ((free_unstaged served.actor emptied _ pos).mpr owned)).1
    have written : (servedTask served entry task).written = System.reached served entry task := rfl
    simp only [Inside] at inside
    omega
  · exact complete

theorem served_settled (task : Task Url setup.backend.State) (mem : task ∈ sys.tasks)
    (held : ∀ pos, Inside task.grant.range pos →
      Owns (sys.serve io).actor task.worker pos ∨ Complete (sys.serve io).actor pos) :
    Settled (sys.serve io).actor (servedTask
      (sys.actor.handle setup.blake3 setup.crc32c entry.command io) entry task) := by
  have effect := first_effect inv queued io
  have grows := PoolSafety.step_grows sys (.serve io)
  have settled := (balanced.progress task mem).settled
  have call := inv.base.calls task mem
  have waiting := inv.base.waiting task mem
  simp only [System.step] at grows
  rw [served_eq queued io] at grows held ⊢
  have stays : ∀ grant, Delivered sys.actor grant → Delivered _ grant := fun _ delivered pos
    inside => grows.complete pos (delivered pos inside)
  unfold Settled CallSound at *
  cases open_ : task.activity with
  | committing ask =>
    simp only [open_] at settled call
    simp only [servedTask, open_, Activity.mapAsk]
    refine ⟨settled.1, ?_⟩
    intro receipt answered
    unfold Ask.deliver at answered
    split at answered
    next awaited sent =>
      split at answered
      next mine =>
        -- The reply belongs to the commit of this task, so the whole batch was flushed.
        obtain ⟨_, matched⟩ := waiting ask awaited (by rw [open_]; rfl) sent
        have command := (matched entry (queued ▸ List.mem_cons_self) mine.symm).2.trans call
        rw [command] at answered effect held ⊢
        simp only [Status.answered.injEq] at answered
        exact served_delivered sys inv balanced entry rest task mem effect held
          settled.1 ((flush_replies setup.crc32c sys.actor io.flush).2 receipt answered)
      next => exact stays _ (settled.2 receipt answered)
    next => exact stays _ (settled.2 receipt answered)
  | ended ending =>
    simp only [open_] at settled
    simp only [servedTask, open_, Activity.mapAsk]
    split
    next impossible => cases impossible
    next report finished =>
      cases finished
      exact ⟨settled.1, stays _ settled.2⟩
    next => trivial
  | fetching state => simp [servedTask, open_, Activity.mapAsk]
  | accepting bytes state ask => simp [servedTask, open_, Activity.mapAsk]
  | refused error state => simp [servedTask, open_, Activity.mapAsk]
  | syncing state ask => simp [servedTask, open_, Activity.mapAsk]

theorem served_manned : Manned (sys.serve io) := by
  have serves := handle_serves inv.base.lined.coherent
    (handle_end setup.blake3 setup.crc32c sys.actor entry.command io)
  have grows := PoolSafety.step_grows sys (.serve io)
  have settled := served_settled sys inv balanced entry rest queued io
  have first : entry ∈ sys.queue := queued ▸ List.mem_cons_self
  simp only [System.step] at grows
  rw [served_eq queued io] at grows settled ⊢
  generalize sys.actor.handle setup.blake3 setup.crc32c entry.command io = served
    at serves grows settled ⊢
  constructor
  · intro task mem
    obtain ⟨before, found, rfl⟩ := List.mem_map.mp mem
    exact balanced.running before found
  · intro task mem
    obtain ⟨before, found, rfl⟩ := List.mem_map.mp mem
    have progress := balanced.progress before found
    have busy : ∀ worker, entry.command ≠ .allocate worker := by
      intro worker command
      rw [(allocate_quiet inv first command).1.tasks] at found
      cases found
    have held : ∀ pos, Inside before.grant.range pos →
        Owns served.actor before.worker pos ∨ Complete served.actor pos := by
      intro pos inside
      rcases progress.held pos inside with owned | complete
      · exact serves.held busy before.worker
          (fun command => abandon_gone inv first _ command before found rfl) pos owned
      · exact Or.inr (grows.complete pos complete)
    exact ⟨held, progress.counted, settled before found held⟩

theorem served_point : PointBalanced (sys.serve io) := by
  have point := balanced.point
  have same := served_attempts sys entry rest
    (sys.actor.handle setup.blake3 setup.crc32c entry.command io)
  rw [served_eq queued io]
  unfold PointBalanced at point ⊢
  cases here : sys.control.point with
  | awaiting stage asked =>
    rw [here] at point
    simp only [servedSystem, here]
    refine ⟨point.1, ?_⟩
    rintro allocator rfl answered
    have sound := inv.point
    rw [PointSound, here] at sound
    obtain ⟨command, quiet⟩ := sound
    -- While the pool surveys, its own question is all that can be in the queue.
    obtain ⟨stage, sent⟩ := inv.own entry (queued ▸ List.mem_cons_self)
      (quiet.queue entry (queued ▸ List.mem_cons_self))
    rw [here] at sent
    cases sent
    simp only [Ask.deliver, ↓reduceIte, Status.answered.injEq] at answered
    rw [show entry.command = .snapshot from command] at answered ⊢
    cases answered
    rfl
  | returned result =>
    rw [here] at point
    simp only [servedSystem, here] at same ⊢
    cases result with
    | error error => trivial
    | ok report =>
      rw [same]
      exact point
  | selecting => simp only [servedSystem, here]
  | sleeping delay => simp only [servedSystem, here]
  | joining error => simp only [servedSystem, here]

end Serve

theorem serve_balanced {sys : System Url setup.backend} (inv : Inv sys)
    (balanced : Balanced sys) (io : StageIo) :
    Balanced (sys.serve io) ∧
      Turn (attempts sys) sys.control.reports sys.actor (sys.serve io) := by
  cases queued : sys.queue with
  | nil =>
    have idle : sys.serve io = sys := by
      unfold System.serve
      rw [queued]
    rw [idle]
    exact ⟨balanced, turn_same _ sys rfl (List.Perm.refl _) rfl⟩
  | cons entry rest =>
    have round := served_round sys inv balanced entry rest queued io
    have manned := served_manned sys inv balanced entry rest queued io
    have point := served_point sys inv balanced entry rest queued io
    refine ⟨⟨manned, ?_, point⟩, served_turn sys inv balanced entry rest queued io⟩
    rw [served_eq queued io] at round ⊢
    rw [served_attempts]
    exact round

end Downpour.PoolAttempts
