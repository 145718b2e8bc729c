import Downpour.PoolTurns
import Downpour.Support.Tally

/-!
The accounts of the worker pool. A ledger gives each report the bytes it stands
for: no byte is entered twice, and the entered bytes are the complete ones outside
the attempts that still run. A pool that returns well has no attempt left and a
complete map, so its reports count every byte exactly once. The pool starts over a
map without complete bytes.
-/

namespace Downpour.PoolAccounts
open Segments Intervals JournalFormat Allocator Writer Ranges Http Retry Actor ActorSafety
open ActorOwnership Pool PoolInvariant PoolServe PoolSteps PoolAttempts PoolTurns Tally

variable {Url : Type} {setup : Setup Url}

/-- One report with the attempt it is about and the bytes it stands for. -/
structure Credit where
  report : WorkerReport
  grant : Grant
  positions : Finset Nat

def Has (actor : StateActor) (grant : Grant) (pos : Nat) : Prop :=
  Owns actor grant.worker pos ∨ Complete actor pos

/-- An attempt that has begun with all of its grant. What it owns or has completed
now it had all the time. -/
structure Begun (start : System Url setup.backend) (actions : List (Action setup.backend))
    (grant : Grant) (opened : List (Action setup.backend)) : Prop where
  early : opened <+: actions
  task : ∃ task ∈ (start.run opened).tasks, task.grant = grant
  owned : ∀ pos, Inside grant.range pos →
    Owns (start.run opened).actor grant.worker pos
  through : ∀ middle, opened <+: middle → middle <+: actions → ∀ pos,
    Inside grant.range pos → Has (start.run actions).actor grant pos →
    Has (start.run middle).actor grant pos

/-- The bytes of a credit lie in the grant of its attempt. They were in progress for
its worker when the attempt began and are complete at the end, and in between each
was one or the other. -/
structure Earned (start : System Url setup.backend) (actions : List (Action setup.backend))
    (credit : Credit) : Prop where
  worker : credit.report.worker = credit.grant.worker
  bytes : credit.report.bytes = credit.positions.card
  inside : ∀ pos ∈ credit.positions, Inside credit.grant.range pos
  during : ∃ opened closed, opened <+: closed ∧ closed <+: actions ∧
    (∃ task ∈ (start.run opened).tasks, task.grant = credit.grant) ∧
    ∀ pos ∈ credit.positions,
      Owns (start.run opened).actor credit.grant.worker pos ∧
      Complete (start.run closed).actor pos ∧
      ∀ middle, opened <+: middle → middle <+: closed →
        Has (start.run middle).actor credit.grant pos

def Countable (sys : System Url setup.backend) (pos : Nat) : Prop :=
  Complete sys.actor pos ∧ ∀ grant ∈ attempts sys, ¬ Inside grant.range pos

structure Booked (start : System Url setup.backend) (actions : List (Action setup.backend))
    (ledger : List Credit) : Prop where
  reports : ledger.map Credit.report = (start.run actions).control.reports
  earned : ∀ credit ∈ ledger, Earned start actions credit
  tallies : Tallies (ledger.map Credit.positions) (Countable (start.run actions))
  begun : ∀ grant ∈ attempts (start.run actions), ∃ opened, Begun start actions grant opened

theorem run_concat (start : System Url setup.backend) (actions : List (Action setup.backend))
    (action : Action setup.backend) :
    start.run (actions ++ [action]) = (start.run actions).step action := by
  rw [System.run, List.foldl_append]
  rfl

/-! The bytes that a survey finds. -/

def completedIn (actor : StateActor) (grant : Grant) : Finset Nat :=
  (Finset.Ico 0 actor.allocator.intervals.totalLength).filter fun pos =>
    labelAt actor.allocator.intervals.intervals pos = some .complete ∧
      grant.range.start ≤ pos ∧ pos < grant.range.stop

theorem mem_completed_in (actor : StateActor) (grant : Grant) (pos : Nat) :
    pos ∈ completedIn actor grant ↔
      Complete actor pos ∧ Inside grant.range pos := by
  rw [completedIn, Finset.mem_filter, Finset.mem_Ico]
  constructor
  · exact And.right
  · intro found
    have bounded := (actor.allocator.intervals.state_inside pos).mp ⟨_, found.1⟩
    exact ⟨⟨Nat.zero_le _, bounded⟩, found⟩

theorem completed_bytes_card (actor : StateActor) (grant : Grant) :
    completedBytesInside actor.allocator grant.range = (completedIn actor grant).card := by
  rw [completedIn, label_count_between _ _ _ actor.allocator.intervals.partitions]
  rfl

def surveyCredit (actor : StateActor) (grant : Grant) : Option Credit :=
  (surveyReport actor.allocator grant).map fun report => ⟨report, grant, completedIn actor grant⟩

theorem survey_credit_reports (actor : StateActor) (grants : List Grant) :
    (grants.filterMap (surveyCredit actor)).map Credit.report =
      grants.filterMap (surveyReport actor.allocator) := by
  rw [List.map_filterMap]
  congr 1
  funext grant
  rw [surveyCredit, Option.map_map]
  exact Option.map_id'

theorem survey_credit_some (actor : StateActor) (grant : Grant) :
    (∀ credit, surveyCredit actor grant = some credit → credit.grant = grant ∧
        credit.positions = completedIn actor grant ∧ credit.report.worker = grant.worker ∧
        credit.report.bytes = (completedIn actor grant).card) ∧
      ∀ pos ∈ completedIn actor grant, ∃ credit, surveyCredit actor grant = some credit := by
  -- A survey leaves out only attempts of which nothing is complete.
  have counts := completed_bytes_card actor grant
  constructor
  · intro credit found
    obtain ⟨report, reported, rfl⟩ := Option.map_eq_some_iff.mp found
    rw [surveyReport] at reported
    split at reported
    · cases reported
      exact ⟨rfl, rfl, rfl, counts⟩
    · cases reported
  · intro pos mem
    have positive : completedBytesInside actor.allocator grant.range > 0 := by
      rw [counts]
      exact Finset.card_pos.mpr ⟨pos, mem⟩
    rw [surveyCredit, surveyReport]
    simp only [if_pos positive]
    exact ⟨_, rfl⟩

/-! One step in the accounts. -/

section Step
variable (start : System Url setup.backend) (actions : List (Action setup.backend))
  (action : Action setup.backend)

theorem earned_later (earned : Earned start actions credit) :
    Earned start (actions ++ [action]) credit := by
  obtain ⟨opened, closed, first, second, rest⟩ := earned.during
  exact ⟨earned.worker, earned.bytes, earned.inside, opened, closed, first,
    second.trans (List.prefix_append _ _), rest⟩

theorem begun_earned (begun : Begun start actions credit.grant opened)
    (worker : credit.report.worker = credit.grant.worker)
    (bytes : credit.report.bytes = credit.positions.card)
    (complete : ∀ pos ∈ credit.positions, Inside credit.grant.range pos ∧
      Complete (start.run actions).actor pos) :
    Earned start (actions ++ [action]) credit := by
  refine ⟨worker, bytes, fun pos mem => (complete pos mem).1, opened, actions,
    begun.early, List.prefix_append _ _, begun.task, ?_⟩
  intro pos mem
  obtain ⟨inside, done⟩ := complete pos mem
  exact ⟨begun.owned pos inside, done, fun middle first second =>
    begun.through middle first second pos inside (Or.inr done)⟩

theorem begun_later (begun : Begun start actions grant opened)
    (held : ∀ pos, Inside grant.range pos → Has (start.run (actions ++ [action])).actor grant pos →
      Has (start.run actions).actor grant pos) :
    Begun start (actions ++ [action]) grant opened := by
  refine ⟨begun.early.trans (List.prefix_append _ _), begun.task, begun.owned, ?_⟩
  intro middle first second pos inside now
  rcases List.prefix_concat_iff.mp second with rfl | earlier
  · exact now
  · exact begun.through middle first earlier pos inside (held pos inside now)

variable (ledger : List Credit) (booked : Booked start actions ledger)

include booked

theorem kept_booked
    (same : (attempts (start.run (actions ++ [action]))).Perm (attempts (start.run actions)))
    (reported : (start.run (actions ++ [action])).control.reports =
      (start.run actions).control.reports)
    (completed : ∀ pos, Complete (start.run (actions ++ [action])).actor pos →
      Complete (start.run actions).actor pos ∨
        ∃ grant ∈ attempts (start.run actions), Inside grant.range pos)
    (held : ∀ grant ∈ attempts (start.run actions), ∀ pos, Inside grant.range pos →
      Has (start.run (actions ++ [action])).actor grant pos →
      Has (start.run actions).actor grant pos) :
    Booked start (actions ++ [action]) ledger := by
  constructor
  · rw [reported, booked.reports]
  · exact fun credit mem => earned_later start actions action (booked.earned credit mem)
  · refine tallies_congr ?_ booked.tallies
    have grows := PoolSafety.step_grows (start.run actions) action
    rw [← run_concat] at grows
    intro pos
    constructor
    · rintro ⟨complete, outside⟩
      have elsewhere : ∀ grant ∈ attempts (start.run actions), ¬ Inside grant.range pos :=
        fun grant mem => outside grant (same.mem_iff.mpr mem)
      rcases completed pos complete with was | ⟨grant, mem, inside⟩
      · exact ⟨was, elsewhere⟩
      · exact absurd inside (elsewhere grant mem)
    · rintro ⟨complete, outside⟩
      exact ⟨grows.complete pos complete,
        fun grant mem => outside grant (same.mem_iff.mp mem)⟩
  · intro grant mem
    have before := same.mem_iff.mp mem
    obtain ⟨opened, begun⟩ := booked.begun grant before
    exact ⟨opened, begun_later start actions action begun (held grant before)⟩

theorem began_booked (empty : attempts (start.run actions) = [])
    (same : (start.run (actions ++ [action])).actor = (start.run actions).actor)
    (held : ∀ grant ∈ attempts (start.run (actions ++ [action])),
      Holds (start.run actions).actor grant ∧
        ∃ task ∈ (start.run (actions ++ [action])).tasks, task.grant = grant)
    (reported : (start.run (actions ++ [action])).control.reports =
      (start.run actions).control.reports) : Booked start (actions ++ [action]) ledger := by
  constructor
  · rw [reported, booked.reports]
  · exact fun credit mem => earned_later start actions action (booked.earned credit mem)
  · refine tallies_congr ?_ booked.tallies
    intro pos
    rw [Countable, Countable, same, empty]
    refine ⟨fun now => ⟨now.1, by simp⟩, fun before => ⟨before.1, ?_⟩⟩
    -- What an attempt begins with is in progress.
    intro grant mem inside
    have owned := ((held grant mem).1.owned pos).mpr inside
    rw [Owns, show _ = _ from before.1] at owned
    cases owned
  · intro grant mem
    obtain ⟨holds, task⟩ := held grant mem
    refine ⟨actions ++ [action], List.prefix_refl _, task, ?_, ?_⟩
    · intro pos inside
      rw [same]
      exact (holds.owned pos).mpr inside
    · intro middle first second pos inside now
      have equal := first.eq_of_length_le second.length_le
      exact equal ▸ now

theorem finished_booked (balanced : Balanced (start.run actions))
    (left : (attempts (start.run actions)).Perm
      (grant :: attempts (start.run (actions ++ [action]))))
    (same : (start.run (actions ++ [action])).actor = (start.run actions).actor)
    (delivered : Delivered (start.run actions).actor grant)
    (reported : (start.run (actions ++ [action])).control.reports =
      (start.run actions).control.reports ++
        [⟨grant.worker, grant.range.stop - grant.range.start⟩]) :
    Booked start (actions ++ [action]) (ledger ++
      [⟨⟨grant.worker, grant.range.stop - grant.range.start⟩, grant,
        Finset.Ico grant.range.start grant.range.stop⟩]) := by
  have mine : grant ∈ attempts (start.run actions) := left.mem_iff.mpr List.mem_cons_self
  have others : ∀ other ∈ attempts (start.run (actions ++ [action])),
      other ∈ attempts (start.run actions) := fun other mem =>
    left.mem_iff.mpr (List.mem_cons_of_mem _ mem)
  have apart := round_perm left.symm balanced.round
  constructor
  · rw [List.map_append, booked.reports, reported]
    rfl
  · intro credit mem
    rcases List.mem_append.mp mem with old | new
    · exact earned_later start actions action (booked.earned credit old)
    · rw [List.mem_singleton.mp new]
      obtain ⟨opened, begun⟩ := booked.begun grant mine
      refine begun_earned start actions action begun rfl (Nat.card_Ico _ _).symm ?_
      intro pos inside
      have within := Finset.mem_Ico.mp inside
      exact ⟨within, delivered pos within⟩
  · rw [List.map_append]
    refine tallies_append booked.tallies (List.pairwise_singleton _ _) ?_ ?_
    · intro set mem pos inside counted
      rw [List.mem_singleton.mp mem] at inside
      exact counted.2 grant mine (Finset.mem_Ico.mp inside)
    · intro pos
      simp only [List.map_cons, List.map_nil, List.mem_singleton, exists_eq_left, Finset.mem_Ico]
      constructor
      · rintro ⟨complete, outside⟩
        by_cases inside : Inside grant.range pos
        · exact Or.inr inside
        · refine Or.inl ⟨same ▸ complete, fun other mem => ?_⟩
          rcases List.mem_cons.mp (left.mem_iff.mp mem) with rfl | found
          · exact inside
          · exact outside other found
      · rintro (⟨complete, outside⟩ | inside)
        · exact ⟨same.symm ▸ complete, fun other mem => outside other (others other mem)⟩
        · refine ⟨same.symm ▸ delivered pos inside, fun other mem shared => ?_⟩
          have sundered := (List.pairwise_cons.mp apart.apart).1 other mem
          have disjoint := sundered.2
          simp only [Inside] at shared
          omega
  · intro other mem
    obtain ⟨opened, begun⟩ := booked.begun other (others other mem)
    refine ⟨opened, begun_later start actions action begun ?_⟩
    rw [same]
    exact fun _ _ now => now

theorem surveyed_booked (balanced : Balanced (start.run actions))
    (empty : attempts (start.run (actions ++ [action])) = [])
    (same : (start.run (actions ++ [action])).actor = (start.run actions).actor)
    (reported : (start.run (actions ++ [action])).control.reports =
      (start.run actions).control.reports ++ (attempts (start.run actions)).filterMap
        (surveyReport (start.run actions).actor.allocator)) :
    Booked start (actions ++ [action]) (ledger ++ (attempts (start.run actions)).filterMap
      (surveyCredit (start.run actions).actor)) := by
  have mem : ∀ credit ∈ (attempts (start.run actions)).filterMap
      (surveyCredit (start.run actions).actor), credit.grant ∈ attempts (start.run actions) ∧
        credit.positions = completedIn (start.run actions).actor credit.grant ∧
        credit.report.worker = credit.grant.worker ∧
        credit.report.bytes = credit.positions.card := by
    intro credit found
    obtain ⟨grant, listed, credited⟩ := List.mem_filterMap.mp found
    obtain ⟨rfl, positions, worker, bytes⟩ :=
      (survey_credit_some (start.run actions).actor grant).1 credit credited
    exact ⟨listed, positions, worker, positions.symm ▸ bytes⟩
  have inside : ∀ credit ∈ (attempts (start.run actions)).filterMap
      (surveyCredit (start.run actions).actor), ∀ pos ∈ credit.positions,
        Inside credit.grant.range pos ∧ Complete (start.run actions).actor pos := by
    intro credit found pos counted
    rw [(mem credit found).2.1] at counted
    exact ((mem_completed_in _ _ _).mp counted).symm
  constructor
  · rw [List.map_append, booked.reports, reported, survey_credit_reports]
  · intro credit found
    rcases List.mem_append.mp found with old | new
    · exact earned_later start actions action (booked.earned credit old)
    · obtain ⟨listed, _, worker, bytes⟩ := mem credit new
      obtain ⟨opened, begun⟩ := booked.begun credit.grant listed
      exact begun_earned start actions action begun worker bytes (inside credit new)
  · rw [List.map_append]
    refine tallies_append booked.tallies ?_ ?_ ?_
    · refine List.pairwise_map.mpr (List.pairwise_filterMap.mpr
        (balanced.round.apart.imp_of_mem ?_))
      -- Attempts have different bytes in their grants.
      intro left right _ _ sundered first firstCredit second secondCredit
      obtain ⟨_, firstPositions, _⟩ := (survey_credit_some _ left).1 first firstCredit
      obtain ⟨_, secondPositions, _⟩ := (survey_credit_some _ right).1 second secondCredit
      rw [firstPositions, secondPositions, Finset.disjoint_left]
      intro pos leftCounted rightCounted
      have leftInside := ((mem_completed_in _ _ _).mp leftCounted).2
      have rightInside := ((mem_completed_in _ _ _).mp rightCounted).2
      have disjoint := sundered.2
      simp only [Inside] at leftInside rightInside
      omega
    · intro set found pos counted countable
      obtain ⟨credit, listed, rfl⟩ := List.mem_map.mp found
      exact countable.2 credit.grant (mem credit listed).1 (inside credit listed pos counted).1
    · intro pos
      rw [Countable, empty, same]
      constructor
      · rintro ⟨complete, _⟩
        by_cases open_ : ∃ grant ∈ attempts (start.run actions), Inside grant.range pos
        · obtain ⟨grant, listed, within⟩ := open_
          have counted := (mem_completed_in _ grant pos).mpr ⟨complete, within⟩
          obtain ⟨credit, credited⟩ := (survey_credit_some _ grant).2 pos counted
          obtain ⟨_, positions, _⟩ := (survey_credit_some _ grant).1 credit credited
          exact Or.inr ⟨credit.positions, List.mem_map_of_mem (List.mem_filterMap.mpr
            ⟨grant, listed, credited⟩), positions.symm ▸ counted⟩
        · exact Or.inl ⟨complete, fun grant listed within => open_ ⟨grant, listed, within⟩⟩
      · rintro (countable | ⟨set, found, counted⟩)
        · exact ⟨countable.1, by simp⟩
        · obtain ⟨credit, listed, rfl⟩ := List.mem_map.mp found
          exact ⟨(inside credit listed pos counted).2, by simp⟩
  · simp [empty]

end Step

def Accounted (start : System Url setup.backend) (actions : List (Action setup.backend)) : Prop :=
  Spoiled (start.run actions).control.point ∨
    Balanced (start.run actions) ∧ ∃ ledger, Booked start actions ledger

theorem step_accounted {start : System Url setup.backend} {actions : List (Action setup.backend)}
    (action : Action setup.backend) (inv : Inv (start.run actions))
    (accounted : Accounted start actions) : Accounted start (actions ++ [action]) := by
  rcases accounted with spoiled | ⟨balanced, ledger, booked⟩
  · refine Or.inl ?_
    rw [run_concat]
    exact spoiled_step spoiled action
  · have goes := step_goes inv balanced action
    rw [← run_concat] at goes
    rcases goes with spoiled | ⟨after, turn⟩
    · exact Or.inl spoiled
    refine Or.inr ⟨after, ?_⟩
    cases turn with
    | kept same reported completed held =>
      exact ⟨ledger, kept_booked start actions action ledger booked same reported completed held⟩
    | began empty same held reported =>
      exact ⟨ledger, began_booked start actions action ledger booked empty same held reported⟩
    | finished grant left same delivered reported =>
      exact ⟨_, finished_booked start actions action ledger booked balanced left same
        delivered reported⟩
    | surveyed empty same reported =>
      exact ⟨_, surveyed_booked start actions action ledger booked balanced empty same reported⟩

theorem run_accounted {start : System Url setup.backend} (inv : Inv start)
    (accounted : Accounted start []) (actions : List (Action setup.backend)) :
    Accounted start actions := by
  induction actions using List.reverseRecOn with
  | nil => exact accounted
  | append_singleton before action ih =>
    exact step_accounted action (run_inv before inv) ih

theorem start_accounted (setup : Setup Url)
    (staged : actor.writer.staged = []) (fresh : ∀ pos, ¬ Complete actor pos) :
    Accounted (System.start setup actor) [] := by
  have booked : Booked (System.start setup actor) [] [] := by
    refine ⟨rfl, by simp, tallies_nil fun pos counted => fresh pos counted.1, ?_⟩
    intro grant mem
    simp only [System.run, List.foldl_nil, attempts, outstanding, System.start, List.map_nil,
      List.nil_append, givingUp] at mem
    cases planned : setup.plan <;> simp [planned] at mem
  cases planned : setup.plan with
  | singleStream reason =>
    refine Or.inl ?_
    simp only [System.run, List.foldl_nil, System.start, planned, Spoiled]
  | segmented totalLength workers =>
    exact Or.inr ⟨start_balanced staged planned, [], booked⟩

/-- A run that returns well over a fresh map reports every byte exactly once. The
bytes of each report lie in the grant of one attempt, belonged to its worker when the
attempt began and became complete under that ownership. -/
theorem pool_accounting (setup : Setup Url)
    (dataLength journalLength journalBytes nextSequence : Nat) (writer : DurableWriter)
    (allocator : SegmentAllocator)
    (created : tryNew dataLength journalLength journalBytes nextSequence = .ok writer)
    (fresh : ∀ pos, pos < allocator.intervals.totalLength →
      allocator.intervals.stateAt pos = some .pending)
    (actions : List (Action setup.backend)) (report : PoolReport)
    (returned : ((System.start setup ⟨writer, allocator⟩).run actions).control.point =
      .returned (.ok report)) :
    (report.workers.map WorkerReport.bytes).sum = allocator.intervals.totalLength ∧
      ∃ ledger : List Credit, (ledger.map Credit.report).Perm report.workers ∧
        (∀ credit ∈ ledger, Earned (System.start setup ⟨writer, allocator⟩) actions credit) ∧
        ledger.Pairwise (fun left right => Disjoint left.positions right.positions) ∧
        ∀ pos, (∃ credit ∈ ledger, pos ∈ credit.positions) ↔
          pos < allocator.intervals.totalLength := by
  have pending : ∀ pos state, allocator.intervals.stateAt pos = some state →
      state = .pending := by
    intro pos state found
    have inside := (allocator.intervals.state_inside pos).mp ⟨state, found⟩
    rw [fresh pos inside] at found
    exact (Option.some.inj found).symm
  have unstaged := try_new_unstaged created
  have started := PoolSafety.start_inv setup ⟨writer, allocator⟩ unstaged fun worker pos owned =>
    nomatch pending pos _ owned
  have inv := run_inv actions started
  have accounted := run_accounted started (start_accounted setup unstaged
    fun pos complete => nomatch pending pos _ complete) actions
  have total := (PoolSafety.run_grows actions (System.start setup ⟨writer, allocator⟩)).totalLength
  rcases accounted with spoiled | ⟨balanced, ledger, booked⟩
  · rw [returned] at spoiled
    exact absurd spoiled id
  have point := balanced.point
  have covered := inv.point
  rw [PointBalanced, returned] at point
  rw [PointSound, returned] at covered
  -- No attempt is open and the map is complete, so every byte of the file is counted.
  have whole : ∀ pos, pos ∈ Finset.range allocator.intervals.totalLength ↔
      Countable ((System.start setup ⟨writer, allocator⟩).run actions) pos := by
    intro pos
    rw [Countable, point.1, Finset.mem_range]
    constructor
    · exact fun inside => ⟨covered pos (Nat.lt_of_lt_of_eq inside total.symm), by simp⟩
    · rintro ⟨complete, _⟩
      exact Nat.lt_of_lt_of_eq ((IntervalMap.state_inside _ pos).mp ⟨_, complete⟩) total
  have tallies := tallies_congr whole booked.tallies
  have order : (ledger.map Credit.report).Perm report.workers := by
    rw [booked.reports]
    exact point.2.symm
  refine ⟨?_, ledger, order, booked.earned, List.pairwise_map.mp tallies.disjoint, ?_⟩
  · have sum := tallies_sum tallies
    have bytes : (ledger.map Credit.report).map WorkerReport.bytes =
        (ledger.map Credit.positions).map Finset.card := by
      rw [List.map_map, List.map_map]
      exact List.map_congr_left fun credit mem => (booked.earned credit mem).bytes
    rw [← (order.map WorkerReport.bytes).sum_eq, bytes, sum, Finset.card_range]
  · intro pos
    rw [← Finset.mem_range, ← tallies.covers pos]
    simp only [List.mem_map, exists_exists_and_eq_and]

/-! Two workers over four bytes: one is cancelled half way, and its rest is fetched
by a later attempt. -/

/-- A backend that hands over what it is given and ends as its request asks. -/
def delivering : Backend Unit where
  State := Option ByteRangeSpec
  Event := Option (List UInt8)
  supportsRanges := true
  fetchRange := fun request => request.range
  next := fun range signal =>
    match range, signal with
    | _, .event (some bytes) => .accept bytes range
    | some (.fromTo first last), .event none =>
      .finish (.ok ⟨last + 1 - first, 206, some (.bytes first last (some 4)), .http11, false⟩)
    | _, _ => .wait range

def deliveringWorkers : Setup Unit := { PoolSafety.twoWorkers with backend := delivering }

def deliveringCalls (count : Nat) : List (Action delivering) :=
  (List.replicate count (PoolSafety.call delivering)).flatten

def handOver (task : Nat) (bytes : List UInt8) : List (Action delivering) :=
  [.taskReact task (some bytes) 0, .taskSend task, .serve calmIo, .taskReceive task 0]

def handedOver (task : Nat) : List (Action delivering) :=
  [.taskReact task none 0, .taskSend task, .serve calmIo, .taskReceive task 0,
    .join task ⟨0, 0, fun _ => none⟩]

def reassignedRun : List (Action delivering) :=
  deliveringCalls 3 ++ handOver 1 [8] ++ handOver 0 [7, 7] ++ handedOver 0 ++
    [.taskCancel 1, .join 1 ⟨0, 0, fun _ => none⟩] ++ deliveringCalls 4 ++
    handOver 2 [9] ++ handedOver 2 ++ deliveringCalls 4

def finalReport (sys : System Url setup.backend) : Option PoolReport :=
  match sys.control.point with
  | .returned (.ok report) => some report
  | _ => none

theorem final_report_returned (sys : System Url setup.backend) (report : PoolReport)
    (final : finalReport sys = some report) : sys.control.point = .returned (.ok report) := by
  unfold finalReport at final
  split at final
  next found here =>
    cases final
    exact here
  next => cases final

theorem pool_accounting_reassigned :
    ∃ report, ((System.start deliveringWorkers ⟨fourBytes.actor.writer,
        fourBytes.actor.allocator⟩).run reassignedRun).control.point = .returned (.ok report) ∧
      report.workers = [⟨0, 2⟩, ⟨1, 1⟩, ⟨1, 1⟩] ∧
      (report.workers.map WorkerReport.bytes).sum = 4 := by
  have returned := final_report_returned _ ⟨.segmented 4 2, [⟨0, 2⟩, ⟨1, 1⟩, ⟨1, 1⟩]⟩
    (show finalReport ((System.start deliveringWorkers ⟨fourBytes.actor.writer,
      fourBytes.actor.allocator⟩).run reassignedRun) = _ by decide +kernel)
  refine ⟨_, returned, rfl, ?_⟩
  exact (pool_accounting deliveringWorkers 4 4 0 0 fourBytes.actor.writer fourBytes.actor.allocator
    rfl (fun pos inside => by
      simp only [fourBytes, IntervalMap.new_state]
      exact if_pos inside) reassignedRun _ returned).1

end Downpour.PoolAccounts
