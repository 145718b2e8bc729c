import Downpour.PoolMoves

/-!
Exclusivity of the worker pool over every run: any backend, any number of workers,
any order of the steps. Only the actor touches the map and the disk.
-/

namespace Downpour.PoolSafety
open Segments Intervals JournalFormat Allocator Writer Ranges Remote Http Retry Actor ActorSafety
open ActorOwnership Pool PoolInvariant PoolServe PoolSteps PoolMoves

variable {Url : Type} {setup : Setup Url}

theorem step_untouched (sys : System Url setup.backend) (action : Action setup.backend) :
    (∃ io, action = .serve io) ∨ Untouched sys (sys.step action) := by
  cases action with
  | serve io => exact Or.inl ⟨io, rfl⟩
  | send =>
    refine Or.inr ?_
    simp only [System.step, System.send]
    split
    next => split <;> exact ⟨rfl, rfl, rfl⟩
    next => exact ⟨rfl, rfl, rfl⟩
  | proceed =>
    refine Or.inr ?_
    simp only [System.step]
    split
    next stage _ reply _ => exact (Moves.resume sys stage reply).untouched
    next => exact ⟨rfl, rfl, rfl⟩
  | join task clock => exact Or.inr (Moves.join sys task clock).untouched
  | tick now =>
    refine Or.inr ?_
    simp only [System.step]
    split <;> exact ⟨rfl, rfl, rfl⟩
  | wake =>
    refine Or.inr ?_
    simp only [System.step]
    split
    · exact (Moves.loopHead sys).untouched
    · exact ⟨rfl, rfl, rfl⟩
  | taskSend task =>
    refine Or.inr ?_
    simp only [System.step, System.taskSend]
    split
    next => split <;> exact ⟨rfl, rfl, rfl⟩
    next => exact ⟨rfl, rfl, rfl⟩
  | taskReact task event now => exact Or.inr ⟨rfl, rfl, rfl⟩
  | taskReceive task now => exact Or.inr ⟨rfl, rfl, rfl⟩
  | taskCancel task => exact Or.inr ⟨rfl, rfl, rfl⟩

theorem step_grows (sys : System Url setup.backend) (action : Action setup.backend) :
    Grows sys.actor (sys.step action).actor := by
  rcases step_untouched sys action with ⟨io, rfl⟩ | untouched
  · cases queued : sys.queue with
    | nil =>
      simp only [System.step, System.serve, queued]
      exact ⟨rfl, fun _ complete => complete⟩
    | cons entry rest =>
      simp only [System.step]
      rw [served_eq queued io]
      exact handle_grows setup.blake3
        (handle_end setup.blake3 setup.crc32c sys.actor entry.command io)
  · rw [untouched.actor]
    exact ⟨rfl, fun _ complete => complete⟩

theorem run_grows (actions : List (Action setup.backend)) (sys : System Url setup.backend) :
    Grows sys.actor (sys.run actions).actor := by
  induction actions generalizing sys with
  | nil => exact ⟨rfl, fun _ complete => complete⟩
  | cons action rest ih =>
    have first := step_grows sys action
    have later := ih (sys.step action)
    exact ⟨later.totalLength.trans first.totalLength, fun pos complete =>
      later.complete pos (first.complete pos complete)⟩

theorem start_inv (setup : Setup Url) (actor : StateActor) (staged : actor.writer.staged = [])
    (fresh : ∀ worker pos, ¬ Owns actor worker pos) :
    Inv (System.start setup actor) := by
  have lined : Lined actor := lined_unstaged staged fun worker first _ _ _ _ owned _ =>
    absurd owned (fresh worker first)
  have quiet : Quiet (System.start setup actor) := ⟨rfl, staged, by simp [System.start]⟩
  have idle : Idle (System.start setup actor) := by
    refine ⟨?_, by simp [System.start]⟩
    constructor
    · exact lined
    · constructor <;> simp [System.start]
    all_goals simp [System.start]
  cases planned : setup.plan with
  | segmented totalLength workers =>
    have here : (System.start setup actor).control.point = .awaiting .identity (ask .snapshot) := by
      simp only [System.start, planned]
    refine idle_inv idle ?_ ?_
    · intro stage waiting ticket same status
      rw [here] at same
      cases same
      cases status
    · rw [PointSound, here]
      exact ⟨rfl, quiet, rfl⟩
  | singleStream reason =>
    have here : (System.start setup actor).control.point =
        .returned (.error (.wrongPlan (.singleStream reason))) := by
      simp only [System.start, planned]
    refine idle_inv idle ?_ ?_
    · simp [here]
    · rw [PointSound, here]
      trivial

theorem lined_intervals (lined : Lined actor) (worker : WorkerId) :
    (actor.allocator.intervals.intervals.filter fun interval =>
      decide (interval.label = .inProgress worker)).length ≤ 1 := by
  have distinct := (chain_nodup actor.allocator.intervals.partitions).filter
    fun interval => decide (interval.label = .inProgress worker)
  have mem : ∀ interval ∈ actor.allocator.intervals.intervals.filter (fun interval =>
      decide (interval.label = .inProgress worker)),
      interval ∈ actor.allocator.intervals.intervals ∧ interval.label = .inProgress worker := by
    intro interval found
    simpa using found
  cases found : actor.allocator.intervals.intervals.filter (fun interval =>
      decide (interval.label = .inProgress worker)) with
  | nil => simp
  | cons first rest =>
    cases rest with
    | nil => simp
    | cons second rest =>
      rw [found] at mem distinct
      have left := mem first (by simp)
      have right := mem second (by simp)
      have same := interval_unique lined left.1 right.1 left.2 right.2
      exact absurd (same ▸ List.mem_cons_self) (List.nodup_cons.mp distinct).1

/-- At every moment of a run the ranges of the tasks are disjoint, the bytes that a
worker owns and has not written are exactly the rest of its range, no worker owns
two intervals, nothing is recorded twice, and a run that returns well has
completed the whole map. -/
theorem pool_exclusive (setup : Setup Url)
    (dataLength journalLength journalBytes nextSequence : Nat) (writer : DurableWriter)
    (allocator : SegmentAllocator)
    (created : tryNew dataLength journalLength journalBytes nextSequence = .ok writer)
    (fresh : ∀ pos worker, allocator.intervals.stateAt pos ≠ some (.inProgress worker))
    (actions : List (Action setup.backend)) :
    let reached := (System.start setup ⟨writer, allocator⟩).run actions
    (reached.tasks.Pairwise fun left right => Apart left.grant.range right.grant.range) ∧
      (∀ task ∈ reached.tasks, ∀ pos,
        (reached.actor.allocator.intervals.stateAt pos = some (.inProgress task.worker) ∧
            ¬ Staged reached.actor pos) ↔
          task.written ≤ pos ∧ pos < task.grant.range.stop) ∧
      (∀ worker, (reached.actor.allocator.intervals.intervals.filter fun interval =>
        decide (interval.label = .inProgress worker)).length ≤ 1) ∧
      (reached.durable.Pairwise fun left right => Apart left.range right.range) ∧
      ∀ report, reached.control.point = .returned (.ok report) →
        ∀ pos, pos < allocator.intervals.totalLength →
          reached.actor.allocator.intervals.stateAt pos = some .complete := by
  intro reached
  have started := start_inv setup ⟨writer, allocator⟩
    (try_new_unstaged created) fun worker pos => fresh pos worker
  have inv : Inv reached := run_inv actions started
  have total := (run_grows actions (System.start setup ⟨writer, allocator⟩)).totalLength
  refine ⟨inv.base.apart.imp fun apart => apart.2.2, ?_, ?_, inv.base.recorded.apart, ?_⟩
  · intro task mem pos
    exact (inv.base.sound task mem).free pos
  · exact lined_intervals inv.base.lined
  · intro report here pos inside
    have point := inv.point
    rw [PointSound, here] at point
    exact point pos (Nat.lt_of_lt_of_eq inside total.symm)

/-! Two workers of a four-byte download whose backend writes what it is told to. -/

def fourByteObject : RemoteObject Unit where
  finalUrl := ()
  redirectChain := []
  totalLength := some 4
  rangeSupport := .proven ⟨4, .bytes 0 0 (some 4), .fromTo 0 0,
    ⟨.fromTo 0 0, 206, some "bytes 0-0/4".toList, none, 1⟩⟩
  validator := .none
  digest := none
  protocol := .http11
  suggestedFilename := none
  probedAt := 0

def obedient : Backend Unit where
  State := Unit
  Event := List UInt8
  supportsRanges := true
  fetchRange := fun _ => ()
  next := fun _ signal =>
    match signal with
    | .event bytes => .accept bytes ()
    | _ => .wait ()

def twoWorkers : Setup Unit where
  backend := obedient
  workers := 2
  remote := fourByteObject
  capacity := 8
  blake3 := calmDigest
  crc32c := calmChecksum
  serviceText := fun _ => ""

def call {Url : Type} (backend : Backend Url) : List (Action backend) := [.send, .serve calmIo, .proceed]

def twoWorkersRun : List (Action obedient) :=
  call obedient ++ call obedient ++ call obedient ++
    [.taskReact 0 [7] 0, .taskSend 0, .serve calmIo, .taskReceive 0 0, .taskReact 1 [8, 9] 0, .taskSend 1]

theorem pool_exclusive_two :
    let reached := (System.start twoWorkers ⟨fourBytes.actor.writer, fourBytes.actor.allocator⟩).run
      twoWorkersRun
    reached.tasks.map (fun task => (task.grant.range.start, task.written, task.grant.range.stop)) =
        [(0, 1, 2), (2, 2, 4)] ∧
      (reached.tasks.Pairwise fun left right => Apart left.grant.range right.grant.range) :=
  ⟨by decide +kernel, (pool_exclusive twoWorkers 4 4 0 0 fourBytes.actor.writer
    fourBytes.actor.allocator rfl (fun pos worker => by
      simp only [fourBytes, IntervalMap.new_state]
      split <;> simp) twoWorkersRun).1⟩

end Downpour.PoolSafety
