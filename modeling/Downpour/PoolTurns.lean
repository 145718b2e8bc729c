import Downpour.PoolAttempts

/-!
The steps of the pool and of its tasks, as turns in its accounts. A pool that does
not fail keeps its attempts, starts attempts when it has none, reports one attempt
that has delivered its grant, or surveys all attempts that ended early.
-/

namespace Downpour.PoolTurns
open Segments Intervals JournalFormat Allocator Writer Http Retry Actor ActorSafety ActorOwnership
open Pool PoolInvariant PoolServe PoolSteps PoolAttempts

variable {Url : Type} {setup : Setup Url}

def Goes (before : List Grant) (reports : List WorkerReport) (actor : StateActor)
    (after : System Url setup.backend) : Prop :=
  Spoiled after.control.point ∨ Balanced after ∧ Turn before reports actor after

structure Poised (sys : System Url setup.backend) : Prop extends Manned sys where
  round : Round sys.actor sys.queue (outstanding sys)

structure Moved (sys after : System Url setup.backend) : Prop where
  balanced : Balanced after
  attempts : attempts after = outstanding sys
  reports : after.control.reports = sys.control.reports
  actor : after.actor = sys.actor

variable {sys : System Url setup.backend}

theorem stays_goes (balanced : Balanced sys) :
    Goes (attempts sys) sys.control.reports sys.actor sys :=
  Or.inr ⟨balanced, turn_same _ sys rfl (List.Perm.refl _) rfl⟩

theorem balanced_poised (balanced : Balanced sys) (nobody : givingUp sys.control.point = []) :
    attempts sys = outstanding sys ∧ Poised sys := by
  have same : attempts sys = outstanding sys := by rw [attempts, nobody, List.append_nil]
  exact ⟨same, balanced.toManned, same ▸ balanced.round⟩

theorem moved_goes (moved : Moved sys after)
    (before : List Grant) (same : (outstanding sys).Perm before) :
    Goes before sys.control.reports sys.actor after :=
  Or.inr ⟨moved.balanced,
    turn_same _ after moved.actor (moved.attempts ▸ same) moved.reports⟩

theorem move_moved (poised : Poised sys) (point : Point Url) (nobody : givingUp point = [])
    (sound : PointBalanced (sys.moveTo point)) :
    Moved sys (sys.moveTo point) := by
  have same : attempts (sys.moveTo point) = outstanding sys := by
    rw [attempts, show (sys.moveTo point).control.point = point from rfl, nobody, List.append_nil]
    rfl
  refine ⟨⟨⟨poised.running, poised.progress⟩, ?_, sound⟩, same, rfl, rfl⟩
  rw [same]
  exact poised.round

theorem await_moved (poised : Poised sys) (stage : Stage Url)
    (nobody : givingUp (.awaiting stage (ask command)) = [])
    (clear : Stage.clear stage = true → sys.control.cancelledAttempts = []) :
    Moved sys (sys.await stage command) :=
  move_moved poised _ nobody ⟨clear, fun _ _ => nofun⟩

theorem head_moved (sys : System Url setup.backend) (poised : Poised sys) :
    Moved sys sys.loopHead := by
  unfold System.loopHead
  split
  next => exact await_moved poised _ rfl nofun
  next => exact move_moved poised .selecting rfl trivial

/-! Changes of the tasks and of the pool's variables. -/

theorem outstanding_map {change : Task Url setup.backend.State → Task Url setup.backend.State}
    (same : ∀ task ∈ sys.tasks, (change task).grant = task.grant) :
    (sys.tasks.map change).map Task.grant = sys.tasks.map Task.grant := by
  rw [List.map_map]
  exact List.map_congr_left same

theorem manned_map {change : Task Url setup.backend.State → Task Url setup.backend.State}
    (manned : Manned sys) (same : ∀ task ∈ sys.tasks, (change task).grant = task.grant)
    (progress : ∀ task ∈ sys.tasks, Progress sys.actor (change task)) :
    Manned { sys with tasks := sys.tasks.map change } := by
  constructor
  · intro task mem
    obtain ⟨before, found, rfl⟩ := List.mem_map.mp mem
    rw [Task.worker, same before found]
    exact manned.running before found
  · intro task mem
    obtain ⟨before, found, rfl⟩ := List.mem_map.mp mem
    exact progress before found

theorem poised_control {control : Control Url} (running : control.running = sys.control.running)
    (cancelled : control.cancelledAttempts = sys.control.cancelledAttempts)
    (poised : Poised sys) : Poised { sys with control := control } := by
  refine ⟨⟨?_, poised.progress⟩, ?_⟩
  · rw [running]
    exact poised.running
  · rw [outstanding, cancelled]
    exact poised.round

theorem signal_manned (fired : List RunningWorker) (manned : Manned sys) :
    Manned (sys.signal fired) ∧
      outstanding (sys.signal fired) = outstanding sys := by
  have same : ∀ task ∈ sys.tasks, (if fired.any fun entry => entry.cancel &&
      decide (entry.task = task.id) then { task with cancelled := true } else task).grant =
      task.grant := by
    intro task _
    split <;> rfl
  constructor
  · apply manned_map manned same
    intro task mem
    have progress := manned.progress task mem
    split
    · exact progress_flags true task.aborted progress
    · exact progress
  · rw [outstanding, System.signal, outstanding_map same]
    rfl

theorem find_kept (running : List RunningWorker)
    (all : ∀ entry, entry.grant.worker = worker → keep entry = true) :
    findRunning (running.filter keep) worker = findRunning running worker := by
  unfold findRunning
  rw [List.find?_filter]
  congr 1
  funext entry
  by_cases same : entry.grant.worker = worker
  · simp [same, all entry same]
  · simp [same]

theorem find_dropped (running : List RunningWorker)
    (none : ∀ entry, entry.grant.worker = worker → keep entry = false) :
    findRunning (running.filter keep) worker = Option.none := by
  unfold findRunning
  rw [List.find?_eq_none]
  intro entry mem same
  have kept := (List.mem_filter.mp mem).2
  rw [none entry (of_decide_eq_true same)] at kept
  cases kept

theorem find_remove (running : List RunningWorker) (different : other ≠ worker) :
    findRunning (removeRunning running worker) other = findRunning running other := by
  apply find_kept
  rintro entry rfl
  exact decide_eq_true different

theorem find_cancelled (running : List RunningWorker) (worker : WorkerId) :
    findRunning (running.map fun entry => { entry with cancel := false }) worker =
      (findRunning running worker).map fun entry => { entry with cancel := false } := by
  unfold findRunning
  rw [List.find?_map]
  rfl

theorem find_insert (running : List RunningWorker) (entry : RunningWorker) (worker : WorkerId) :
    findRunning (insertRunning running entry) worker =
      if entry.grant.worker = worker then some entry else findRunning running worker := by
  have split : findRunning (insertRunning running entry) worker =
      (findRunning (running.filter fun other =>
        decide (other.grant.worker < entry.grant.worker)) worker).or
        (if entry.grant.worker = worker then some entry else findRunning (running.filter fun other =>
          decide (entry.grant.worker < other.grant.worker)) worker) := by
    unfold findRunning insertRunning
    rw [List.find?_append, List.find?_cons]
    by_cases mine : entry.grant.worker = worker <;> simp [mine]
  rw [split]
  rcases Nat.lt_trichotomy entry.grant.worker worker with less | same | more
  · rw [if_neg (Nat.ne_of_lt less), if_neg (Nat.ne_of_lt less), find_dropped, Option.none_or, find_kept]
    · rintro other rfl
      exact decide_eq_true less
    · rintro other rfl
      exact decide_eq_false (Nat.not_lt.mpr (Nat.le_of_lt less))
  · rw [if_pos same, if_pos same, find_dropped, Option.none_or]
    rintro other rfl
    exact decide_eq_false (Nat.not_lt.mpr (Nat.le_of_eq same))
  · rw [if_neg (Nat.ne_of_gt more), if_neg (Nat.ne_of_gt more), find_kept, find_dropped running,
      Option.or_none]
    · rintro other rfl
      exact decide_eq_false (Nat.not_lt.mpr (Nat.le_of_lt more))
    · rintro other rfl
      exact decide_eq_true more

theorem forget_manned (manned : Manned sys)
    (gone : ∀ task ∈ sys.tasks, task.worker ≠ worker) :
    Manned (sys.forget worker) ∧ outstanding (sys.forget worker) = outstanding sys := by
  obtain ⟨signalled, same⟩ := signal_manned
    (findRunning sys.control.running worker).toList manned
  refine ⟨⟨?_, signalled.progress⟩, same⟩
  intro task mem
  obtain ⟨before, found, grant, _⟩ := signal_member mem
  have different : task.worker ≠ worker := by
    rw [Task.worker, grant]
    exact gone before found
  rw [show (sys.forget worker).control.running =
    removeRunning sys.control.running worker from rfl, find_remove _ different]
  exact signalled.running task mem

theorem cancel_poised (poised : Poised sys) :
    Poised sys.cancelRunning ∧ outstanding sys.cancelRunning = outstanding sys := by
  obtain ⟨signalled, same⟩ := signal_manned sys.control.running poised.toManned
  refine ⟨⟨⟨?_, signalled.progress⟩, ?_⟩, same⟩
  · intro task mem
    obtain ⟨entry, found, grant⟩ := signalled.running task mem
    refine ⟨{ entry with cancel := false }, ?_, grant⟩
    have listed : findRunning sys.control.running task.worker = some entry := found
    rw [show sys.cancelRunning.control.running = sys.control.running.map fun entry =>
      { entry with cancel := false } from rfl, find_cancelled, listed]
    rfl
  · rw [show outstanding sys.cancelRunning = outstanding sys from same]
    exact poised.round

/-! A pool that fails. -/

def Fails (kind : PoolError Url → Prop) (point : Point Url) : Prop :=
  match point with
  | .joining error | .awaiting (.reclaiming error _) _ | .returned (.error error) => kind error
  | _ => False

theorem spoiled_fails (point : Point Url) : Spoiled point ↔ Fails (fun _ => True) point := by
  unfold Spoiled Fails
  cases point with
  | awaiting stage ask => cases stage <;> rfl
  | returned result => cases result <;> rfl
  | _ => rfl

section Fails
variable (kind : PoolError Url → Prop) (sys : System Url setup.backend)

theorem abandon_fails (failed : kind error) (workers : List WorkerId) :
    Fails kind (sys.abandonNext error workers).control.point := by
  cases workers <;> exact failed

theorem reclaim_fails (failed : kind error) :
    Fails kind (sys.reclaim error).control.point := by
  unfold System.reclaim
  split
  · exact abandon_fails kind _ failed _
  · exact failed

theorem fails_step (writer : ∀ error, kind (.writer error)) (fails : Fails kind sys.control.point)
    (action : Action setup.backend) : Fails kind (sys.step action).control.point := by
  -- Nothing brings a failed pool back; while it gives its workers up, the actor may fail.
  cases action with
  | serve io =>
    simp only [System.step, System.serve]
    split
    next => exact fails
    next entry rest _ =>
      simp only
      split
      next stage ask here =>
        rw [here] at fails
        cases stage <;> exact fails
      next => exact fails
  | send =>
    simp only [System.step, System.send]
    split
    next stage command here =>
      rw [here] at fails
      split
      next => cases stage <;> exact fails
      next =>
        rw [here]
        exact fails
    next => exact fails
  | proceed =>
    simp only [System.step]
    split
    next stage command reply here =>
      rw [here] at fails
      cases stage with
      | reclaiming error rest =>
        unfold System.resume
        cases reply with
        | error failure => exact writer failure
        | ok receipt =>
          cases receipt with
          | abandon released durable => exact abandon_fails kind sys fails rest
          | _ =>
            rw [← here] at fails
            exact fails
      | _ => exact absurd fails id
    next => exact fails
  | join task clock =>
    simp only [System.step, System.join]
    split
    next here =>
      rw [here] at fails
      exact absurd fails id
    next error here =>
      split
      next => exact abandon_fails kind _ (by rw [here] at fails; exact fails) _
      next => exact fails
    next => exact fails
    next => exact fails
  | tick now =>
    simp only [System.step]
    split
    next here =>
      rw [here] at fails
      exact absurd fails id
    next => exact fails
  | wake =>
    simp only [System.step]
    split
    next delay here =>
      rw [here] at fails
      exact absurd fails id
    next => exact fails
  | taskSend task =>
    simp only [System.step, System.taskSend]
    split
    next => split <;> exact fails
    next => exact fails
  | taskReact task event now => exact fails
  | taskReceive task now => exact fails
  | taskCancel task => exact fails

end Fails

theorem reclaim_spoiled (sys : System Url setup.backend) (error : PoolError Url) :
    Spoiled (sys.reclaim error).control.point :=
  (spoiled_fails _).mpr (reclaim_fails _ sys trivial)

theorem abandon_spoiled (sys : System Url setup.backend) (error : PoolError Url)
    (workers : List WorkerId) : Spoiled (sys.abandonNext error workers).control.point :=
  (spoiled_fails _).mpr (abandon_fails _ sys trivial workers)

theorem spoiled_step (spoiled : Spoiled sys.control.point)
    (action : Action setup.backend) : Spoiled (sys.step action).control.point :=
  (spoiled_fails _).mpr (fails_step _ sys (fun _ => trivial) ((spoiled_fails _).mp spoiled) action)

/-! Attempts that begin. -/

variable {actor : StateActor} {grant : Grant} {sys : System Url setup.backend}

theorem spawned_progress (url : Url) (id : Nat) (holds : Holds actor grant) :
    Progress actor (spawned setup.backend url id grant) := by
  refine ⟨?_, Nat.le_refl _, ?_⟩
  · exact fun pos inside => Or.inl ((holds.owned pos).mpr inside)
  · unfold Settled spawned
    by_cases empty : grant.range.stop = 0 <;> simp [empty]

theorem spawn_manned (manned : Manned sys) (holds : Holds sys.actor grant)
    (fresh : ∀ task ∈ sys.tasks, task.worker ≠ grant.worker) : Manned (sys.spawn grant) := by
  obtain ⟨signalled, _⟩ := signal_manned
    (findRunning sys.control.running grant.worker).toList manned
  constructor
  · intro task mem
    rw [show (sys.spawn grant).control.running =
      insertRunning sys.control.running ⟨sys.nextTask, grant, true⟩ from rfl, find_insert]
    rcases List.mem_append.mp mem with old | new
    · obtain ⟨before, found, same, _⟩ := signal_member old
      have different : grant.worker ≠ task.worker := by
        rw [Task.worker, same]
        exact (fresh before found).symm
      rw [if_neg different]
      exact signalled.running task old
    · rw [List.mem_singleton.mp new]
      exact ⟨_, if_pos rfl, rfl⟩
  · intro task mem
    rcases List.mem_append.mp mem with old | new
    · exact signalled.progress task old
    · rw [List.mem_singleton.mp new]
      exact spawned_progress _ _ holds

theorem spawn_all_manned (ready : Ready sys) (manned : Manned sys)
    (held : ∀ grant ∈ grants, Holds sys.actor grant)
    (different : grants.Pairwise fun left right => left.worker ≠ right.worker)
    (fresh : ∀ task ∈ sys.tasks, ∀ grant ∈ grants, task.worker ≠ grant.worker) :
    Manned (sys.spawnAll grants) ∧ (sys.spawnAll grants).control.reports =
        sys.control.reports ∧
      (sys.spawnAll grants).control.cancelledAttempts = sys.control.cancelledAttempts := by
  induction grants generalizing sys with
  | nil => exact ⟨manned, rfl, rfl⟩
  | cons grant rest ih =>
    obtain ⟨first, later⟩ := List.pairwise_cons.mp different
    have holds := held grant List.mem_cons_self
    obtain ⟨spawned, others⟩ := spawn_next ready holds first fresh
    exact ih spawned
      (spawn_manned manned holds fun task mem => fresh task mem grant List.mem_cons_self)
      (fun other mem => held other (List.mem_cons_of_mem _ mem)) later others

theorem began_goes (ready : Ready started) (cancelled : started.control.cancelledAttempts = [])
    (moved : Moved started after) (reports : started.control.reports = sys.control.reports)
    (actor : started.actor = sys.actor) (tasks : after.tasks = started.tasks) :
    Goes [] sys.control.reports sys.actor after := by
  refine Or.inr ⟨moved.balanced, Turn.began rfl (moved.actor.trans actor) ?_
    (moved.reports.trans reports)⟩
  intro grant mem
  rw [moved.attempts, outstanding, cancelled, List.map_nil, List.append_nil] at mem
  obtain ⟨task, found, rfl⟩ := List.mem_map.mp mem
  exact ⟨actor ▸ ready.held task found, task, tasks ▸ found, rfl⟩

theorem ready_poised (ready : Ready sys) (manned : Manned sys)
    (cancelled : sys.control.cancelledAttempts = []) :
    Poised sys := by
  refine ⟨manned, ?_⟩
  rw [outstanding, cancelled, List.map_nil, List.append_nil]
  exact ready_round ready

theorem quiet_manned (quiet : Quiet sys) :
    Manned sys := by
  constructor <;> simp [quiet.tasks]

theorem quiet_outstanding (quiet : Quiet sys) (cancelled : sys.control.cancelledAttempts = [])
    : outstanding sys = [] := by
  rw [outstanding, quiet.tasks, cancelled]
  rfl

theorem spawn_all_poised (idle : Idle sys) (quiet : Quiet sys)
    (cancelled : sys.control.cancelledAttempts = [])
    (held : ∀ grant ∈ grants, Holds sys.actor grant)
    (different : grants.Pairwise fun left right => left.worker ≠ right.worker) :
    Ready (sys.spawnAll grants) ∧ Poised (sys.spawnAll grants) ∧
      (sys.spawnAll grants).control.cancelledAttempts = [] ∧
      (sys.spawnAll grants).control.reports = sys.control.reports := by
  have still := quiet_ready idle quiet
  have ready := spawn_all_ready still held different (by simp [quiet.tasks])
  obtain ⟨manned, reports, same⟩ := spawn_all_manned still
    (quiet_manned quiet) held different (by simp [quiet.tasks])
  exact ⟨ready, ready_poised ready manned (same.trans cancelled), same.trans cancelled, reports⟩

theorem head_tasks (sys : System Url setup.backend) : sys.loopHead.tasks = sys.tasks := by
  unfold System.loopHead
  split <;> rfl

theorem quiet_poised (idle : Idle sys) (quiet : Quiet sys)
    (cancelled : sys.control.cancelledAttempts = []) : Poised sys :=
  ready_poised (quiet_ready idle quiet) (quiet_manned quiet) cancelled

theorem launch_goes (idle : Idle sys) (quiet : Quiet sys)
    (cancelled : sys.control.cancelledAttempts = [])
    (accurate : Accurate sys.actor sys.control.grants) :
    Goes [] sys.control.reports sys.actor sys.launch := by
  unfold System.launch
  split
  next => exact Or.inl trivial
  next =>
    obtain ⟨ready, poised, none, reports⟩ := spawn_all_poised idle quiet cancelled
      accurate.held (accurate.sorted.imp Nat.ne_of_lt)
    refine began_goes ready none ?_ reports (PoolMoves.Moves.spawnAll sys _).actor (head_tasks _)
    have moved := head_moved { sys.spawnAll sys.control.grants with
      control := { (sys.spawnAll sys.control.grants).control with
        allocatedWorkers := sys.control.grants.map Grant.worker } }
      (poised_control rfl rfl poised)
    exact ⟨moved.balanced, moved.attempts, moved.reports, moved.actor⟩

theorem allocate_goes (sys : System Url setup.backend) (idle : Idle sys) (quiet : Quiet sys)
    (cancelled : sys.control.cancelledAttempts = [])
    (accurate : Accurate sys.actor sys.control.grants) (index : Nat) :
    Goes [] sys.control.reports sys.actor (sys.allocateNext index) := by
  unfold System.allocateNext
  split
  next =>
    split
    next => exact Or.inl trivial
    next =>
      refine moved_goes (await_moved (quiet_poised idle quiet cancelled) _
        rfl fun _ => cancelled) [] ?_
      rw [quiet_outstanding quiet cancelled]
  next => exact launch_goes idle quiet cancelled accurate

/-! The survey. -/

theorem survey_goes (idle : Idle sys) (quiet : Quiet sys) :
    Goes (outstanding sys) sys.control.reports sys.actor
      (sys.survey sys.actor.allocator) := by
  have found : (sys.control.cancelledAttempts.filterMap fun attempt =>
      surveyReport sys.actor.allocator attempt.grant) =
      (outstanding sys).filterMap (surveyReport sys.actor.allocator) := by
    rw [outstanding, quiet.tasks, List.map_nil, List.nil_append, List.filterMap_map]
    rfl
  -- Whatever the pool asks next, the survey has counted every attempt.
  have counted : ∀ (control : Control Url) (stage : Stage Url) (command : Command),
      control.cancelledAttempts = [] →
      control.reports = sys.control.reports ++ sys.control.cancelledAttempts.filterMap
        (fun attempt => surveyReport sys.actor.allocator attempt.grant) →
      givingUp (.awaiting stage (ask command)) = [] →
      Goes (outstanding sys) sys.control.reports sys.actor
        (System.await { sys with control := control } stage command) := by
    intro control stage command cancelled reports nobody
    have still := quiet_control sys control quiet
    have moved := await_moved
      (quiet_poised (idle_control control idle) still cancelled) stage nobody
      fun _ => cancelled
    refine Or.inr ⟨moved.balanced, Turn.surveyed ?_ moved.actor ?_⟩
    · rw [moved.attempts, quiet_outstanding still cancelled]
    · rw [moved.reports, ← found]
      exact reports
  unfold System.survey
  split
  next => exact counted _ _ _ rfl rfl rfl
  next =>
    split
    next => exact Or.inl trivial
    next => exact counted _ _ _ rfl rfl rfl

/-! The pool goes on with a reply. -/

theorem quiet_attempts (balanced : Balanced sys) (quiet : Quiet sys)
    (nobody : givingUp sys.control.point = []) (cancelled : sys.control.cancelledAttempts = []) :
    attempts sys = [] := by
  rw [(balanced_poised balanced nobody).1, quiet_outstanding quiet cancelled]

theorem poised_goes (balanced : Balanced sys) (nobody : givingUp sys.control.point = [])
    (moved : Poised sys → Moved sys after) :
    Goes (attempts sys) sys.control.reports sys.actor after := by
  obtain ⟨same, poised⟩ := balanced_poised balanced nobody
  rw [same]
  exact moved_goes (moved poised) _ (List.Perm.refl _)

theorem reassign_goes (idle : Idle sys) (quiet : Quiet sys)
    (cancelled : sys.control.cancelledAttempts = []) (holds : Holds sys.actor grant) :
    Goes [] sys.control.reports sys.actor (sys.spawn grant).loopHead := by
  obtain ⟨ready, started, none, reports⟩ := spawn_all_poised idle quiet cancelled
    (by simpa using holds) (List.pairwise_singleton _ grant)
  exact began_goes ready none (head_moved _ started) reports rfl (head_tasks _)

theorem restart_goes (idle : Idle sys) (quiet : Quiet sys)
    (cancelled : sys.control.cancelledAttempts = []) (lined : Lined sys.actor) :
    Goes [] sys.control.reports sys.actor
      ((sys.spawnAll (activeGrants sys.actor.allocator)).moveTo .selecting) := by
  obtain ⟨held, different⟩ := active_grants_held lined
  obtain ⟨ready, started, none, reports⟩ := spawn_all_poised idle quiet cancelled held different
  exact began_goes ready none (move_moved started .selecting rfl trivial) reports
    (PoolMoves.Moves.spawnAll sys _).actor rfl

/-- The attempt that was given up now waits for the survey. -/
theorem abandon_goes (balanced : Balanced sys)
    (here : givingUp sys.control.point = [attempt.grant]) (delay : Nat) :
    Goes (attempts sys) sys.control.reports sys.actor
      ((System.cancelRunning { sys with control := { sys.control with
        cancelledAttempts := sys.control.cancelledAttempts ++ [attempt]
        candidateIdle := some attempt.grant.worker
        drainingForReassignment := true } }).moveTo (.sleeping delay)) := by
  generalize held : { sys with control := { sys.control with
    cancelledAttempts := sys.control.cancelledAttempts ++ [attempt]
    candidateIdle := some attempt.grant.worker
    drainingForReassignment := true } } = abandoned
  have same : attempts sys = outstanding abandoned := by
    rw [attempts, here, ← held, outstanding, outstanding, List.map_append, List.append_assoc]
    rfl
  have waiting : Poised abandoned := by
    have round := same ▸ balanced.round
    subst held
    exact ⟨⟨balanced.running, balanced.progress⟩, round⟩
  obtain ⟨cancelling, kept⟩ := cancel_poised waiting
  have moved := move_moved cancelling (.sleeping delay) rfl trivial
  have goes := moved_goes moved (attempts sys) (by rw [kept, same])
  subst held
  exact goes

theorem complete_goes (idle : Idle sys) (quiet : Quiet sys)
    (cancelled : sys.control.cancelledAttempts = [])
    (listed : report.workers.Perm sys.control.reports) :
    Goes [] sys.control.reports sys.actor (sys.leave (.ok report)) := by
  have empty : sys.abortAll.tasks = [] := by simp [System.abortAll, quiet.tasks]
  have still : Quiet sys.abortAll := ⟨empty, quiet.staged, quiet.queue⟩
  have none := quiet_outstanding still cancelled
  refine moved_goes (move_moved
    (quiet_poised (idle_abort idle) still cancelled) (.returned (.ok report)) rfl ?_) []
    (by rw [none])
  refine ⟨?_, listed⟩
  rw [attempts]
  exact List.append_eq_nil_iff.mpr ⟨none, rfl⟩

theorem resume_goes (inv : Inv sys) (balanced : Balanced sys) {stage : Stage Url}
    {command : Command} {reply : Except WriterServiceError Receipt}
    (here : sys.control.point = .awaiting stage ⟨command, .answered reply⟩) :
    Goes (attempts sys) sys.control.reports sys.actor (sys.resume stage reply) := by
  have idle : Idle sys := by
    apply inv_idle inv
    intro other asked ticket same
    rw [here] at same
    cases same
  have sound := inv.point
  have point := balanced.point
  rw [PointSound, here] at sound
  rw [PointBalanced, here] at point
  have clear := quiet_attempts balanced
  have goes := @poised_goes Url setup sys
  rw [here] at clear goes
  unfold System.resume
  cases reply with
  | error error => exact Or.inl trivial
  | ok receipt =>
    simp only
    split
    next allocator =>
      obtain ⟨_, quiet, grants⟩ := sound
      have cancelled := point.1 rfl
      rw [clear quiet rfl cancelled]
      split
      next => exact Or.inl trivial
      next =>
        refine allocate_goes sys idle quiet cancelled ?_ 0
        rw [grants]
        exact ⟨List.Pairwise.nil, by simp⟩
    next =>
      have cancelled := point.1 rfl
      rw [clear sound.2.1 rfl cancelled]
      exact launch_goes idle sound.2.1 cancelled sound.2.2
    next index allocation durable =>
      have cancelled := point.1 rfl
      rw [clear sound.2.1 rfl cancelled]
      exact allocate_goes { sys with control := { sys.control with
          grants := recordAllocation sys.control.grants allocation } }
        (idle_control _ idle) (quiet_control sys _ sound.2.1) cancelled sound.2.2
        (index + 1)
    next => exact goes balanced rfl fun poised => await_moved poised .surveying rfl (by rintro ⟨⟩)
    next allocator =>
      rw [(balanced_poised balanced (by rw [here]; rfl)).1, point.2 allocator rfl rfl]
      exact survey_goes idle sound.2
    next => exact goes balanced rfl fun poised => await_moved poised _ rfl fun _ => point.1 rfl
    next allocation durable =>
      have cancelled := point.1 rfl
      rw [clear sound.2.1 rfl cancelled]
      exact reassign_goes idle sound.2.1 cancelled sound.2.2
    next allocator =>
      obtain ⟨_, quiet, rfl⟩ := sound
      have cancelled := point.1 rfl
      rw [clear quiet rfl cancelled]
      split
      next => exact Or.inl trivial
      next => exact restart_goes idle quiet cancelled inv.base.lined
    next => exact goes balanced rfl (head_moved sys)
    next attempt delay intervals durable => exact abandon_goes balanced (by rw [here]; rfl) delay
    next error rest intervals durable => exact Or.inl (abandon_spoiled sys error rest)
    next => exact goes balanced rfl fun poised => await_moved poised _ rfl fun _ => point.1 rfl
    next allocator =>
      obtain ⟨_, quiet, rfl⟩ := sound
      have cancelled := point.1 rfl
      rw [clear quiet rfl cancelled]
      split
      next complete => exact complete_goes idle quiet cancelled (List.perm_insertionSort _ _)
      next => exact Or.inl trivial
    next => exact stays_goes balanced

/-! A task leaves the task set. -/

structure Leaves (sys : System Url setup.backend) (grant : Grant) : Prop extends
    Manned sys where
  coherent : Coherent sys.actor
  round : Round sys.actor sys.queue (grant :: outstanding sys)
  gone : ∀ task ∈ sys.tasks, task.worker ≠ grant.worker
  known : ∃ entry, findRunning sys.control.running grant.worker = some entry ∧
    entry.grant = grant

theorem delivered_goes (same : before.Perm (grant :: outstanding sys))
    (leaves : Leaves sys grant) (delivered : Delivered sys.actor grant) :
    Goes before sys.control.reports sys.actor (sys.delivered grant.worker
      ⟨grant.worker, grant.range.stop - grant.range.start⟩) := by
  obtain ⟨manned, kept⟩ := forget_manned leaves.toManned leaves.gone
  have round := round_finish leaves.coherent leaves.round delivered
  have forgotten : Poised (sys.forget grant.worker) := ⟨manned, kept.symm ▸ round⟩
  -- The report is all that counts, whether the pool drains its other workers or not.
  have reported : ∀ middle : System Url setup.backend, Poised middle →
      outstanding middle = outstanding sys → middle.actor = sys.actor →
      middle.control.reports = sys.control.reports ++
        [⟨grant.worker, grant.range.stop - grant.range.start⟩] →
      Goes before sys.control.reports sys.actor middle.loopHead := by
    intro middle poised listed actor reports
    have moved := head_moved middle poised
    refine Or.inr ⟨moved.balanced, Turn.finished grant ?_ (moved.actor.trans actor) delivered
      (moved.reports.trans reports)⟩
    rw [moved.attempts, listed]
    exact same
  unfold System.delivered
  simp only
  split
  next =>
    apply reported
    · refine poised_control rfl rfl (cancel_poised (poised_control ?_ ?_ forgotten)).1 <;> rfl
    · refine (cancel_poised (poised_control ?_ ?_ forgotten)).2.trans kept <;> rfl
    · rfl
    · rfl
  next => exact reported _ (poised_control rfl rfl forgotten) kept rfl rfl

theorem failed_goes (same : before.Perm (grant :: outstanding sys))
    (leaves : Leaves sys grant) (error : PoolError Url) (clock : RetryClock) :
    Goes before sys.control.reports sys.actor (sys.failed grant.worker error clock) := by
  obtain ⟨attempt, found, granted⟩ := leaves.known
  obtain ⟨manned, kept⟩ := forget_manned leaves.toManned leaves.gone
  unfold System.failed
  rw [found]
  simp only
  split
  next => exact Or.inl (reclaim_spoiled _ error)
  next =>
    split
    next => exact Or.inl (reclaim_spoiled _ error)
    next delay _ =>
      -- The attempt stays open until the pool has given its worker up.
      have listed : attempts (System.await { sys.forget grant.worker with
          control := { (sys.forget grant.worker).control with
            transientFailures := min (sys.control.transientFailures + 1) (2 ^ 32 - 1) } }
          (.abandoning attempt delay) (.abandon grant.worker)) = outstanding sys ++ [grant] := by
        rw [← kept, ← granted]
        rfl
      have order : (outstanding sys ++ [grant]).Perm (grant :: outstanding sys) :=
        List.perm_append_singleton grant _
      refine Or.inr ⟨⟨⟨manned.running, manned.progress⟩, ?_, nofun, fun _ => nofun⟩, ?_⟩
      · rw [listed]
        exact round_perm order leaves.round
      · refine turn_same _ _ rfl ?_ rfl
        rw [listed]
        exact order.trans same.symm

theorem joined_goes {before : List Grant} (same : before.Perm (grant :: outstanding sys))
    (leaves : Leaves sys grant) {ending : Ending Url} (clock : RetryClock)
    (delivered : ∀ report, ending = .finished (.ok report) →
      report = ⟨grant.worker, grant.range.stop - grant.range.start⟩ ∧
        Delivered sys.actor grant) :
    Goes before sys.control.reports sys.actor (sys.joined grant.worker ending clock) := by
  unfold System.joined
  split
  next report =>
    obtain ⟨rfl, complete⟩ := delivered report rfl
    exact delivered_goes same leaves complete
  next error => exact failed_goes same leaves error clock
  next =>
    obtain ⟨attempt, found, granted⟩ := leaves.known
    rw [found]
    obtain ⟨manned, kept⟩ := forget_manned leaves.toManned leaves.gone
    have listed : outstanding { sys.forget grant.worker with
        control := { (sys.forget grant.worker).control with
          cancelledAttempts := sys.control.cancelledAttempts ++ [attempt] } } =
        outstanding sys ++ [grant] := by
      rw [← kept, ← granted, outstanding, outstanding, List.map_append, ← List.append_assoc]
      rfl
    have order : (outstanding sys ++ [grant]).Perm (grant :: outstanding sys) :=
      List.perm_append_singleton grant _
    have waiting : Poised { sys.forget grant.worker with
        control := { (sys.forget grant.worker).control with
          cancelledAttempts := sys.control.cancelledAttempts ++ [attempt] } } := by
      refine ⟨⟨manned.running, manned.progress⟩, ?_⟩
      rw [listed]
      exact round_perm order leaves.round
    refine moved_goes (head_moved _ waiting) before ?_
    rw [listed]
    exact order.trans same.symm
  next => exact Or.inl (reclaim_spoiled sys _)

theorem remove_perm {State : Type} {tasks : List (Task Url State)} {task : Task Url State}
    (mem : task ∈ tasks) (distinct : tasks.Pairwise fun left right => left.id ≠ right.id) :
    tasks.Perm (task :: tasks.filter fun other => decide (other.id ≠ task.id)) := by
  induction tasks with
  | nil => cases mem
  | cons first rest ih =>
    obtain ⟨apart, later⟩ := List.pairwise_cons.mp distinct
    rcases List.mem_cons.mp mem with rfl | found
    · have all : rest.filter (fun other => decide (other.id ≠ task.id)) = rest := by
        rw [List.filter_eq_self]
        intro other inside
        exact decide_eq_true (apart other inside).symm
      simp only [ne_eq, not_true_eq_false, decide_false, Bool.false_eq_true, not_false_eq_true,
        List.filter_cons_of_neg]
      rw [all]
    · rw [List.filter_cons, if_pos (decide_eq_true (apart task found))]
      exact ((ih found later).cons first).trans (List.Perm.swap task first _)

theorem returned_remove (balanced : Balanced sys)
    (here : sys.control.point = .returned (.ok report)) (id : Nat) :
    sys.removeTask id = sys := by
  have point := balanced.point
  rw [PointBalanced, here] at point
  have empty := point.1
  rw [attempts, outstanding, List.append_eq_nil_iff, List.append_eq_nil_iff] at empty
  have none : sys.tasks = [] := List.map_eq_nil_iff.mp empty.1.1
  rw [System.removeTask, none, List.filter_nil, ← none]

theorem join_goes (inv : Inv sys) (balanced : Balanced sys) (id : Nat) (clock : RetryClock) :
    Goes (attempts sys) sys.control.reports sys.actor (sys.join id clock) := by
  have stays := stays_goes balanced
  unfold System.join
  split
  next here =>
    split
    next => exact Or.inl (reclaim_spoiled sys _)
    next =>
      split
      next => exact stays
      next task found =>
        split
        next ending ended =>
          have mem := List.mem_of_find?_eq_some found
          obtain rfl := find_task_id found
          have order : (attempts sys).Perm
              (task.grant :: outstanding (sys.removeTask task.id)) := by
            rw [(balanced_poised balanced (by rw [here]; rfl)).1]
            have split := (remove_perm mem
              (inv.base.apart.imp fun apart => apart.1)).map Task.grant
            exact split.append_right _
          have settled := (balanced.progress task mem).settled
          rw [Settled, ended] at settled
          refine joined_goes order ⟨⟨?_, ?_⟩,
            inv.base.lined.coherent, round_perm order.symm balanced.round, ?_,
            balanced.running task mem⟩ clock ?_
          · exact fun other inside => balanced.running other (List.mem_filter.mp inside).1
          · exact fun other inside => balanced.progress other (List.mem_filter.mp inside).1
          · intro other inside same
            obtain ⟨was, different⟩ := List.mem_filter.mp inside
            have matched := base_unique inv.base was mem (Or.inr same)
            exact of_decide_eq_true different (congrArg Task.id matched)
          · rintro report rfl
            exact settled
        next => exact stays
  next error here =>
    refine Or.inl ?_
    simp only
    split
    next => exact abandon_spoiled _ error _
    next => simp only [System.removeTask, here, Spoiled]
  next result here =>
    cases result with
    | error error => exact Or.inl (by simp only [System.removeTask, here, Spoiled])
    | ok report =>
      rw [returned_remove balanced here id]
      exact stays
  next => exact stays

/-! Steps that leave all attempts where they are. -/

theorem same_goes {next : System Url setup.backend} (balanced : Balanced sys)
    (manned : Manned next) (actor : next.actor = sys.actor)
    (round : Round sys.actor next.queue (attempts sys))
    (point : next.control.point = sys.control.point)
    (cancelled : next.control.cancelledAttempts = sys.control.cancelledAttempts)
    (reports : next.control.reports = sys.control.reports)
    (tasks : next.tasks.map Task.grant = sys.tasks.map Task.grant) :
    Goes (attempts sys) sys.control.reports sys.actor next := by
  obtain ⟨same, kept⟩ := balanced_congr sys next actor point cancelled reports tasks
  refine Or.inr ⟨⟨manned, ?_, kept balanced.point⟩, turn_same _ next actor ?_ reports⟩
  · rw [actor, same]
    exact round
  · rw [same]

theorem round_enqueue (round : Round actor queue grants) (entry : Queued)
    (known : ∀ worker, Writes entry.command worker → ∃ grant ∈ grants, grant.worker = worker) :
    Round actor (queue ++ [entry]) grants := by
  refine ⟨round.apart, round.owned, round.staged, ?_⟩
  intro other mem worker write
  rcases List.mem_append.mp mem with old | new
  · exact round.writes other old worker write
  · rw [List.mem_singleton.mp new] at write
    exact Or.inl (known worker write)

theorem send_goes (inv : Inv sys) (balanced : Balanced sys) :
    Goes (attempts sys) sys.control.reports sys.actor sys.send := by
  have stays := stays_goes balanced
  unfold System.send
  split
  next stage command here =>
    split
    next =>
      have same : attempts ((sys.enqueue none command).moveTo
          (.awaiting stage ⟨command, .sent sys.tickets⟩)) = attempts sys := by
        rw [attempts, attempts, here]
        cases stage <;> rfl
      have point := balanced.point
      rw [PointBalanced, here] at point
      have round := round_enqueue balanced.round
        ⟨sys.tickets, none, command⟩ fun worker write =>
          absurd write (own_unwritten inv here worker)
      refine Or.inr ⟨⟨⟨balanced.running, balanced.progress⟩, same ▸ round, point.1, by simp⟩,
        turn_same _ _ rfl (List.Perm.of_eq same) rfl⟩
    next => exact stays
  next => exact stays

theorem pending_writes {task : Task Url setup.backend.State} (call : CallSound task) {asked : Ask}
    (pending : task.activity.pending = some asked) {worker : WorkerId}
    (write : Writes asked.command worker) : task.grant.worker = worker := by
  obtain ⟨offset, bytes, now, command⟩ := write
  rcases pending_command call pending with flush | ⟨sent, moment, written⟩
  · rw [flush] at command
    cases command
  · rw [written] at command
    cases command
    rfl

theorem sent_settled {task : Task Url setup.backend.State} (command : Command) (ticket : Nat)
    (settled : Settled actor task) :
    Settled actor { task with
      activity := task.activity.mapAsk fun _ => ⟨command, .sent ticket⟩ } := by
  unfold Settled at settled ⊢
  cases open_ : task.activity with
  | committing waiting =>
    rw [open_] at settled
    exact ⟨settled.1, nofun⟩
  | ended ending =>
    rw [open_] at settled
    exact settled
  | fetching state => trivial
  | refused error state => trivial
  | syncing state waiting => trivial
  | accepting bytes state waiting => trivial

theorem task_send_goes (inv : Inv sys) (balanced : Balanced sys) (id : Nat) :
    Goes (attempts sys) sys.control.reports sys.actor (sys.taskSend id) := by
  have stays := stays_goes balanced
  unfold System.taskSend
  split
  next command found =>
    split
    next =>
      obtain ⟨task, located, pending⟩ := Option.bind_eq_some_iff.mp found
      have mem := List.mem_of_find?_eq_some located
      have round := round_enqueue balanced.round
        ⟨sys.tickets, some id, command⟩ fun worker write => ⟨task.grant, by
          simp only [attempts, outstanding, List.mem_append, List.mem_map]
          exact Or.inl (Or.inl ⟨task, mem, rfl⟩),
          pending_writes (inv.base.calls task mem) pending write⟩
      have same : ∀ other ∈ sys.tasks, (if other.id = id then { other with
          activity := other.activity.mapAsk fun _ => ⟨command, .sent sys.tickets⟩ }
          else other).grant = other.grant := by
        intro other _
        split <;> rfl
      have manned : Manned (sys.enqueue (some id) command) := ⟨balanced.running, balanced.progress⟩
      refine same_goes balanced (manned_map manned same ?_) rfl round rfl rfl rfl
        (outstanding_map same)
      intro other inside
      have progress := balanced.progress other inside
      split
      · exact ⟨progress.held, progress.counted,
          sent_settled command sys.tickets progress.settled⟩
      · exact progress
    next => exact stays
  next => exact stays

theorem update_goes (balanced : Balanced sys) (id : Nat)
    (same : ∀ task ∈ sys.tasks, (change task).grant = task.grant)
    (progress : ∀ task, Progress sys.actor task →
      Counted (change task) ∧ Settled sys.actor (change task)) :
    Goes (attempts sys) sys.control.reports sys.actor (sys.updateTask id change) := by
  have grants : ∀ task ∈ sys.tasks, (if task.id = id then change task else task).grant =
      task.grant := by
    intro task mem
    split
    · exact same task mem
    · rfl
  refine same_goes balanced (manned_map balanced.toManned grants ?_) rfl
    balanced.round rfl rfl rfl (outstanding_map grants)
  intro task mem
  have before := balanced.progress task mem
  split
  · obtain ⟨counted, settled⟩ := progress task before
    exact progress_changed (same task mem) before counted settled
  · exact before

theorem step_goes (inv : Inv sys) (balanced : Balanced sys) (action : Action setup.backend) :
    Goes (attempts sys) sys.control.reports sys.actor (sys.step action) := by
  have stays := stays_goes balanced
  have listed := balanced_poised balanced
  have grants : ∀ (change : Task Url setup.backend.State → Task Url setup.backend.State),
      (∀ task, task.sink.target.nextOffset ≤ task.written → CallSound task →
        Kept task (change task)) → ∀ task ∈ sys.tasks, (change task).grant = task.grant := by
    intro change kept task mem
    exact (kept task (inv.base.sound task mem).cursor (inv.base.calls task mem)).grant
  cases action with
  | serve io => exact Or.inr (serve_balanced inv balanced io)
  | send => exact send_goes inv balanced
  | proceed =>
    simp only [System.step]
    split
    next stage command reply here => exact resume_goes inv balanced here
    next => exact stays
  | join task clock => exact join_goes inv balanced task clock
  | tick now =>
    simp only [System.step]
    split
    next here =>
      obtain ⟨same, poised⟩ := listed (by rw [here]; rfl)
      rw [same]
      exact moved_goes (await_moved poised .ticking rfl (by rintro ⟨⟩)) _ (List.Perm.refl _)
    next => exact stays
  | wake =>
    simp only [System.step]
    split
    next delay here =>
      obtain ⟨same, poised⟩ := listed (by rw [here]; rfl)
      rw [same]
      exact moved_goes (head_moved sys poised) _ (List.Perm.refl _)
    next => exact stays
  | taskSend task => exact task_send_goes inv balanced task
  | taskReact task event now =>
    refine update_goes balanced task (grants _ ?_) ?_
    · intro task cursor call
      exact react_kept setup.backend setup.serviceText setup.totalLength event now cursor call
    · exact fun task progress => react_progress setup.backend setup.serviceText setup.totalLength event now progress
  | taskReceive task now =>
    refine update_goes balanced task (grants _ ?_) ?_
    · intro task cursor call
      exact receive_kept setup.backend setup.serviceText setup.totalLength now cursor call
    · exact fun task progress => receive_progress setup.backend setup.serviceText setup.totalLength now progress
  | taskCancel task =>
    refine update_goes balanced task ?_ ?_
    · intro task _
      split <;> rfl
    · intro task progress
      split
      · exact ⟨progress.counted, trivial⟩
      · exact ⟨progress.counted, progress.settled⟩

end Downpour.PoolTurns
