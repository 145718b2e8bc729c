import Downpour.Allocator

/-!
The policy of the allocator, read off the bytes instead of the interval list:
maximal runs of bytes in one state, the longest one first and the lowest among
equals. `allocate` takes exactly the decision of this policy in every state that
the allocator can reach, and nothing it computes leaves 64 bits.
-/

namespace Downpour.AllocationPolicy
open Segments Intervals Allocator

structure Run (map : IntervalMap) (state : IntervalState) (range : Range) : Prop where
  ordered : range.start < range.stop
  held : ∀ pos, range.start ≤ pos → pos < range.stop →
    map.stateAt pos = some state
  left : ∀ before, before + 1 = range.start → map.stateAt before ≠ some state
  right : map.stateAt range.stop ≠ some state

def length (range : Range) : Nat := range.stop - range.start

def Best (candidate : Range → Prop) (range : Range) : Prop :=
  candidate range ∧ ∀ other, candidate other →
    length other < length range ∨ length other = length range ∧ range.start ≤ other.start

def Active (map : IntervalMap) (range : Range) : Prop :=
  ∃ worker, Run map (.inProgress worker) range

def middle (range : Range) : Nat := range.start + length range / 2

inductive Decision (allocator : SegmentAllocator) (worker : WorkerId) : Option Allocation → Prop where
  | pending (range : Range) (best : Best (Run allocator.intervals .pending) range) :
      Decision allocator worker (some ⟨⟨worker, range⟩, none⟩)
  | halved (range : Range) (source : WorkerId)
      (busy : ∀ pos, allocator.intervals.stateAt pos ≠ some .pending)
      (best : Best (Active allocator.intervals) range)
      (owned : Run allocator.intervals (.inProgress source) range)
      (long : 2 * allocator.minSplitBytes ≤ length range) :
      Decision allocator worker (some ⟨⟨worker, ⟨middle range, range.stop⟩⟩,
        some ⟨source, ⟨range.start, middle range⟩⟩⟩)
  | nothing (busy : ∀ pos, allocator.intervals.stateAt pos ≠ some .pending)
      (short : ∀ range, Active allocator.intervals range →
        length range < 2 * allocator.minSplitBytes) :
      Decision allocator worker none

/-! Runs are the intervals of the map. -/

theorem interval_run (mem : interval ∈ map.intervals) :
    Run map interval.label ⟨interval.start, interval.stop⟩ := by
  have bounds := chain_member_bounds map.partitions mem
  have held : ∀ pos, interval.start ≤ pos → pos < interval.stop →
      map.stateAt pos = some interval.label := fun pos lower upper =>
    label_member _ map.partitions mem ⟨lower, upper⟩
  -- A neighbour in the same state would lie in the same interval.
  have joined : ∀ pos, map.stateAt pos = some interval.label →
      map.stateAt (pos + 1) = some interval.label → ∀ inside, interval.start ≤ inside →
      inside < interval.stop → inside = pos ∨ inside = pos + 1 →
      interval.start ≤ pos ∧ pos + 1 < interval.stop := by
    intro pos here next inside lower upper near
    obtain ⟨segment, found, before, after, _⟩ := reduced_joined map.partitions
      map.merged here next
    have same := chain_member_unique map.partitions mem found inside
      ⟨lower, upper⟩ (by omega)
    rw [same]
    exact ⟨before, after⟩
  refine ⟨bounds.2.1, held, ?_, ?_⟩
  · intro before next same
    have start : interval.start = before + 1 := next.symm
    have inside := joined before same (held _ (by omega) (by omega)) interval.start (Nat.le_refl _)
      bounds.2.1 (Or.inr start)
    omega
  · intro same
    have positive : 0 < interval.stop := Nat.lt_of_le_of_lt (Nat.zero_le _) bounds.2.1
    have last : interval.stop - 1 + 1 = interval.stop := Nat.sub_add_cancel positive
    have inside := joined (interval.stop - 1) (held _ (by omega) (by omega)) (last ▸ same)
      (interval.stop - 1) (by omega) (by omega) (Or.inl rfl)
    omega

variable {range : Range} {Item : Type}

theorem run_interval (run : Run map state range) :
    ∃ interval ∈ map.intervals, interval.label = state ∧ range = ⟨interval.start, interval.stop⟩ := by
  have ordered := run.ordered
  have first := run.held range.start (Nat.le_refl _) ordered
  obtain ⟨interval, mem, inside, owned⟩ := label_found first
  have whole := interval_run mem
  rw [owned] at whole
  refine ⟨interval, mem, owned, ?_⟩
  have begins : interval.start = range.start := by
    by_contra other
    refine run.left (range.start - 1) (by omega) (whole.held _ ?_ ?_) <;> simp only <;> omega
  have ends : interval.stop = range.stop := by
    rcases Nat.lt_trichotomy interval.stop range.stop with shorter | same | longer
    · exact absurd (run.held interval.stop (by omega) shorter) whole.right
    · exact same
    · exact absurd (whole.held range.stop (by simp only; omega) longer) run.right
  rw [begins, ends]

/-! The comparator picks the best candidate. -/

def NoBetter (left right : Interval) : Prop :=
  left.len < right.len ∨ left.len = right.len ∧ right.start ≤ left.start

theorem no_better_trans (left : NoBetter first second)
    (right : NoBetter second third) : NoBetter first third := by
  unfold NoBetter at *
  omega

theorem preferred_no_better (left right : Interval) :
    if preferred left right then NoBetter right left else NoBetter left right := by
  unfold preferred NoBetter
  split
  next better =>
    simp only [Bool.or_eq_true, Bool.and_eq_true, decide_eq_true_eq] at better
    omega
  next worse =>
    simp only [Bool.or_eq_true, Bool.and_eq_true, decide_eq_true_eq, not_or, not_and] at worse
    omega

theorem fold_best (key : Item → Interval) (first : Item) (rest : List Item) :
    ∀ item ∈ first :: rest, NoBetter (key item)
      (key (rest.foldl (fun best next => if preferred (key best) (key next) then best else next)
        first)) := by
  induction rest generalizing first with
  | nil =>
    intro item mem
    rw [List.mem_singleton.mp mem]
    exact Or.inr ⟨rfl, Nat.le_refl _⟩
  | cons next rest ih =>
    have compared := preferred_no_better (key first) (key next)
    rw [List.foldl_cons]
    by_cases kept : preferred (key first) (key next) = true
    · rw [if_pos kept] at compared ⊢
      have tail := ih first
      intro item mem
      rcases List.mem_cons.mp mem with rfl | later
      · exact tail item List.mem_cons_self
      · rcases List.mem_cons.mp later with rfl | further
        · exact no_better_trans compared (tail first List.mem_cons_self)
        · exact tail item (List.mem_cons_of_mem _ further)
    · rw [if_neg kept] at compared ⊢
      have tail := ih next
      intro item mem
      rcases List.mem_cons.mp mem with rfl | later
      · exact no_better_trans compared (tail next List.mem_cons_self)
      · exact tail item later

theorem max_by_best {key : Item → Interval} {items : List Item} {best : Item}
    (found : maxBy (fun left right => preferred (key left) (key right)) items = some best) :
    ∀ item ∈ items, NoBetter (key item) (key best) := by
  cases items with
  | nil => cases found
  | cons first rest =>
    cases found
    exact fold_best key first rest

theorem max_by_none {greater : Item → Item → Bool} {items : List Item}
    (none : maxBy greater items = none) : items = [] := by
  cases items with
  | nil => rfl
  | cons first rest => cases none

theorem pending_best (allocator : SegmentAllocator)
    (found : allocator.preferredRange (fun state => decide (state = .pending)) = some range) :
    Best (Run allocator.intervals .pending) range := by
  obtain ⟨interval, best, rfl⟩ := Option.map_eq_some_iff.mp found
  obtain ⟨mem, label⟩ := List.mem_filter.mp (max_by_member best)
  have pending : interval.label = .pending := of_decide_eq_true label
  refine ⟨pending ▸ interval_run mem, ?_⟩
  intro other run
  obtain ⟨candidate, also, state, rfl⟩ := run_interval run
  exact max_by_best best candidate
    (List.mem_filter.mpr ⟨also, decide_eq_true state⟩)

theorem pending_none {allocator : SegmentAllocator}
    (none : allocator.preferredRange (fun state => decide (state = .pending)) = none) :
    ∀ pos, allocator.intervals.stateAt pos ≠ some .pending := by
  intro pos pending
  obtain ⟨interval, mem, _, label⟩ := label_found pending
  have empty := max_by_none (Option.map_eq_none_iff.mp none)
  have kept : interval ∈ ([] : List Interval) := by
    rw [← empty]
    exact List.mem_filter.mpr ⟨mem, decide_eq_true label⟩
  cases kept

theorem active_owner_iff (interval : Interval) (pair : Interval × WorkerId) :
    SegmentAllocator.activeOwner interval = some pair ↔
      pair.1 = interval ∧ interval.label = .inProgress pair.2 := by
  unfold SegmentAllocator.activeOwner
  cases label : interval.label with
  | inProgress worker =>
    obtain ⟨found, owner⟩ := pair
    simp only [Option.some.injEq, Prod.mk.injEq, IntervalState.inProgress.injEq]
    exact and_congr_left fun _ => eq_comm
  | pending => simp
  | complete => simp

theorem active_run (active : Active map range) :
    ∃ interval ∈ map.intervals, ∃ worker, interval.label = .inProgress worker ∧
      range = ⟨interval.start, interval.stop⟩ := by
  obtain ⟨worker, run⟩ := active
  obtain ⟨interval, mem, label, same⟩ := run_interval run
  exact ⟨interval, mem, worker, label, same⟩

theorem active_best {allocator : SegmentAllocator}
    (found : allocator.preferredActive = some (range, source)) :
    Best (Active allocator.intervals) range ∧
      Run allocator.intervals (.inProgress source) range := by
  obtain ⟨⟨interval, owner⟩, best, same⟩ := Option.map_eq_some_iff.mp found
  cases same
  obtain ⟨candidate, mem, active⟩ := List.mem_filterMap.mp (max_by_member best)
  obtain ⟨rfl, label⟩ := (active_owner_iff candidate (interval, owner)).mp active
  have run : Run allocator.intervals (.inProgress owner) ⟨interval.start, interval.stop⟩ :=
    label ▸ interval_run mem
  refine ⟨⟨⟨owner, run⟩, ?_⟩, run⟩
  intro other active
  obtain ⟨rival, also, worker, state, rfl⟩ := active_run active
  exact max_by_best best (rival, worker) (List.mem_filterMap.mpr
    ⟨rival, also, (active_owner_iff rival (rival, worker)).mpr ⟨rfl, state⟩⟩)

theorem active_none {allocator : SegmentAllocator} (none : allocator.preferredActive = none)
    (range : Range) : ¬ Active allocator.intervals range := by
  intro active
  obtain ⟨interval, mem, worker, label, _⟩ := active_run active
  have empty := max_by_none (Option.map_eq_none_iff.mp none)
  have kept : (interval, worker) ∈ ([] : List (Interval × WorkerId)) := by
    rw [← empty]
    exact List.mem_filterMap.mpr
      ⟨interval, mem, (active_owner_iff interval (interval, worker)).mpr ⟨rfl, label⟩⟩
  cases kept

/-! The policy decides. -/

theorem best_unique (first : Best candidate left)
    (second : Best candidate right) (ordered : ∀ range, candidate range → range.start < range.stop) :
    left = right := by
  have firstOrdered := ordered left first.1
  have secondOrdered := ordered right second.1
  have before := first.2 right second.1
  have after := second.2 left first.1
  unfold length at before after
  have starts : left.start = right.start := by omega
  have stops : left.stop = right.stop := by omega
  obtain ⟨leftStart, leftStop⟩ := left
  simp only at starts stops
  rw [starts, stops]

theorem active_ordered (map : IntervalMap) (range : Range) (active : Active map range) :
    range.start < range.stop := by
  obtain ⟨worker, run⟩ := active
  exact run.ordered

theorem decision_unique (first : Decision allocator worker left)
    (second : Decision allocator worker right) : left = right := by
  have idle : ∀ range, Run allocator.intervals .pending range →
      ¬ ∀ pos, allocator.intervals.stateAt pos ≠ some .pending := fun range run busy =>
    busy range.start (run.held range.start (Nat.le_refl _) run.ordered)
  cases first with
  | pending range best =>
    cases second with
    | pending other rival =>
      rw [best_unique best rival fun _ run => run.ordered]
    | halved other source busy _ _ _ => exact absurd busy (idle range best.1)
    | nothing busy _ => exact absurd busy (idle range best.1)
  | halved range source busy best owned long =>
    cases second with
    | pending other rival => exact absurd busy (idle other rival.1)
    | halved other thief _ rival taken _ =>
      have same := best_unique best rival (active_ordered _)
      subst same
      have state := owned.held range.start (Nat.le_refl _) owned.ordered
      rw [taken.held range.start (Nat.le_refl _) taken.ordered] at state
      cases state
      rfl
    | nothing _ short => exact absurd (short range best.1) (Nat.not_lt.mpr long)
  | nothing busy short =>
    cases second with
    | pending other rival => exact absurd busy (idle other rival.1)
    | halved other thief _ rival _ long => exact absurd (short other rival.1) (Nat.not_lt.mpr long)
    | nothing _ _ => rfl

/-- What a decision does to the map: nothing, or it hands the granted bytes over. -/
def Effect (allocator : SegmentAllocator) (outcome : Option Allocation) (next : SegmentAllocator) :
    Prop :=
  match outcome with
  | none => next = allocator
  | some ⟨grant, shortened⟩ => next.minSplitBytes = allocator.minSplitBytes ∧
      IntervalMap.Moves allocator.intervals grant.range
        (match shortened with
          | none => .pending
          | some source => .inProgress source.worker)
        (.inProgress grant.worker) next.intervals

theorem allocate_decides (allocator : SegmentAllocator) (worker : WorkerId)
    (representable : allocator.intervals.totalLength < 2 ^ 64)
    (free : allocator.owns worker = false) :
    ∃ outcome next, allocator.allocate worker = .ok (outcome, next) ∧
      Decision allocator worker outcome ∧ Effect allocator outcome next := by
  have ended := SegmentAllocator.allocate_end allocator worker
  unfold SegmentAllocator.allocate at ended ⊢
  rw [if_neg (by rw [free]; exact Bool.false_ne_true)] at ended ⊢
  cases pending : allocator.preferredRange (fun state => decide (state = .pending)) with
  | some range =>
    have best := pending_best allocator pending
    simp only [pending] at ended ⊢
    cases granted : allocator.intervals.grant range worker with
    | error error =>
      rw [granted] at ended
      cases ended
    | ok next =>
      refine ⟨_, _, rfl, Decision.pending range best, rfl, ?_⟩
      exact IntervalMap.grant_moves _ _ _ granted
  | none =>
    have busy := pending_none pending
    simp only [pending] at ended ⊢
    by_cases huge : 2 ^ 64 ≤ allocator.minSplitBytes * 2
    · -- No run is as long as a floor whose double leaves 64 bits.
      refine ⟨none, allocator, if_pos huge, Decision.nothing busy ?_, rfl⟩
      intro range active
      obtain ⟨interval, mem, _, _, rfl⟩ := active_run active
      have bounds := chain_member_bounds allocator.intervals.partitions mem
      unfold length
      simp only
      omega
    · rw [if_neg huge] at ended ⊢
      cases active : allocator.preferredActive with
      | none =>
        refine ⟨none, allocator, rfl, Decision.nothing busy ?_, rfl⟩
        exact fun range run => absurd run (active_none active range)
      | some found =>
        obtain ⟨range, source⟩ := found
        obtain ⟨best, owned⟩ := active_best active
        simp only [active] at ended ⊢
        by_cases small : range.stop - range.start < allocator.minSplitBytes * 2
        · refine ⟨none, allocator, if_pos small, Decision.nothing busy ?_, rfl⟩
          intro other run
          have shorter := best.2 other run
          unfold length at shorter ⊢
          omega
        · rw [if_neg small] at ended ⊢
          cases split : allocator.intervals.splitInProgress
              (range.start + (range.stop - range.start) / 2) source worker with
          | error error =>
            rw [split] at ended
            cases ended
          | ok next =>
            refine ⟨_, _, rfl, Decision.halved range source busy best owned ?_, rfl, ?_⟩
            · unfold length
              omega
            · obtain ⟨interval, mem, _, rfl⟩ := run_interval owned
              obtain ⟨_, chosen, also, before, _, moves⟩ :=
                IntervalMap.split_moves _ _ split
              have floor := allocator.positive
              have ordered := moves.ordered
              simp only at small ordered before
              have same := chain_member_unique allocator.intervals.partitions mem also (interval.start + (interval.stop - interval.start) / 2)
                (by omega) (by omega)
              rw [← same] at moves
              exact moves

/-! Every state that the allocator can reach. -/

inductive Call where
  | allocate (worker : WorkerId)
  | completeDurable (worker : WorkerId) (range : Range)
  | abandon (worker : WorkerId)

def perform (allocator : SegmentAllocator) : Call → SegmentAllocator
  | .allocate worker =>
    match allocator.allocate worker with
    | .ok (_, next) => next
    | .error _ => allocator
  | .completeDurable worker range =>
    match allocator.completeDurable worker range with
    | .ok next => next
    | .error _ => allocator
  | .abandon worker => (allocator.abandon worker).1

structure Keeps (before after : SegmentAllocator) : Prop where
  totalLength : after.intervals.totalLength = before.intervals.totalLength
  floor : after.minSplitBytes = before.minSplitBytes

theorem perform_keeps (allocator : SegmentAllocator) (call : Call) :
    Keeps allocator (perform allocator call) := by
  cases call with
  | allocate worker =>
    have ended := SegmentAllocator.allocate_end allocator worker
    simp only [perform]
    generalize allocator.allocate worker = result at ended ⊢
    cases ended with
    | active owned => exact ⟨rfl, rfl⟩
    | none free => exact ⟨rfl, rfl⟩
    | granted free interval mem pending next moves => exact ⟨moves.totalLength, rfl⟩
    | split free interval source splitAt mem owned left next moves =>
      exact ⟨moves.totalLength, rfl⟩
  | completeDurable worker range =>
    simp only [perform, SegmentAllocator.completeDurable]
    cases result : allocator.intervals.complete range worker with
    | error error => exact ⟨rfl, rfl⟩
    | ok next => exact ⟨(IntervalMap.complete_moves _ _ _ _ result).totalLength, rfl⟩
  | abandon worker => exact ⟨rfl, rfl⟩

theorem calls_keep (calls : List Call) (allocator : SegmentAllocator) :
    Keeps allocator (calls.foldl perform allocator) := by
  induction calls generalizing allocator with
  | nil => exact ⟨rfl, rfl⟩
  | cons call rest ih =>
    have first := perform_keeps allocator call
    have later := ih (perform allocator call)
    exact ⟨later.totalLength.trans first.totalLength, later.floor.trans first.floor⟩

/-- In every state that calls can reach, `allocate` refuses exactly a worker that
owns bytes, takes the one decision of the policy otherwise, never cuts below the
floor, and computes with nothing beyond 64 bits. -/
theorem allocation_policy (totalLength minSplitBytes : Nat) (lengthFits : totalLength < 2 ^ 64)
    (start : SegmentAllocator)
    (made : SegmentAllocator.new totalLength minSplitBytes = .ok start) (calls : List Call)
    (worker : WorkerId) :
    let allocator := calls.foldl perform start
    ((∃ error, allocator.allocate worker = .error error) ↔
        ∃ pos, allocator.intervals.stateAt pos = some (.inProgress worker)) ∧
      (∀ error, allocator.allocate worker = .error error → error = .workerAlreadyActive worker ∧
        perform allocator (.allocate worker) = allocator) ∧
      ((∀ pos, allocator.intervals.stateAt pos ≠ some (.inProgress worker)) →
        ∃ outcome next, allocator.allocate worker = .ok (outcome, next) ∧
          (∀ other, Decision allocator worker other ↔ other = outcome) ∧
          Effect allocator outcome next) ∧
      (∀ grant shortened next, allocator.allocate worker = .ok (some ⟨grant, some shortened⟩, next) →
        minSplitBytes ≤ length grant.range ∧ minSplitBytes ≤ length shortened.range) ∧
      ∀ interval ∈ allocator.intervals.intervals, interval.start < interval.stop ∧
        interval.stop < 2 ^ 64 ∧ middle ⟨interval.start, interval.stop⟩ < 2 ^ 64 := by
  intro allocator
  have keeps : Keeps start allocator := calls_keep calls start
  have fresh : start.intervals.totalLength = totalLength ∧ start.minSplitBytes = minSplitBytes := by
    unfold SegmentAllocator.new at made
    split at made
    · cases made
    · cases made
      exact ⟨rfl, rfl⟩
  have representable : allocator.intervals.totalLength < 2 ^ 64 := by
    rw [keeps.totalLength, fresh.1]
    exact lengthFits
  have decides := allocate_decides allocator worker representable
  have ended := SegmentAllocator.allocate_end allocator worker
  refine ⟨?_, ?_, ?_, ?_, ?_⟩
  · rw [← SegmentAllocator.owns_iff]
    constructor
    · rintro ⟨error, refused⟩
      by_contra free
      obtain ⟨outcome, next, allowed, _⟩ := decides (Bool.not_eq_true _ ▸ free)
      rw [refused] at allowed
      cases allowed
    · intro owned
      exact ⟨_, if_pos owned⟩
  · intro error refused
    rw [refused] at ended
    cases ended
    exact ⟨rfl, by simp only [perform, refused]⟩
  · intro free
    have idle : allocator.owns worker = false := by
      rw [← Bool.not_eq_true, SegmentAllocator.owns_iff]
      rintro ⟨pos, owned⟩
      exact free pos owned
    obtain ⟨outcome, next, allowed, decision, effect⟩ := decides idle
    refine ⟨outcome, next, allowed, ?_, effect⟩
    intro other
    constructor
    · exact fun rival => decision_unique rival decision
    · rintro rfl
      exact decision
  · intro grant shortened next allowed
    have idle : allocator.owns worker = false := by
      rw [← Bool.not_eq_true]
      intro owned
      rw [SegmentAllocator.allocate, if_pos owned] at allowed
      cases allowed
    obtain ⟨outcome, after, same, decision, _⟩ := decides idle
    rw [allowed] at same
    cases same
    cases decision with
    | halved range source busy best owned long =>
      rw [keeps.floor, fresh.2] at long
      have ordered := owned.ordered
      unfold middle length at *
      simp only
      omega
  · intro interval mem
    have bounds := chain_member_bounds allocator.intervals.partitions mem
    unfold middle length
    simp only
    omega

/-! Ten bytes, of which the first worker has committed two. -/

def tenBytes : SegmentAllocator := ⟨IntervalMap.new 10, 2, by decide⟩

def committedTwo : List Call := [.allocate 0, .completeDurable 0 ⟨0, 2⟩]

def halfOfTheRest : Option Allocation := some ⟨⟨1, ⟨6, 10⟩⟩, some ⟨0, ⟨2, 6⟩⟩⟩

theorem allocation_policy_halved :
    ∃ next, (committedTwo.foldl perform tenBytes).allocate 1 = .ok (halfOfTheRest, next) ∧
      ∀ other, Decision (committedTwo.foldl perform tenBytes) 1 other ↔ other = halfOfTheRest := by
  have idle : ∀ pos, (committedTwo.foldl perform tenBytes).intervals.stateAt pos ≠
      some (.inProgress 1) := by
    intro pos owned
    have none : (committedTwo.foldl perform tenBytes).owns 1 = false := by decide
    have active := (SegmentAllocator.owns_iff _ 1).mpr ⟨pos, owned⟩
    rw [none] at active
    cases active
  obtain ⟨outcome, next, allowed, decision, _⟩ :=
    (allocation_policy 10 2 (by decide) tenBytes rfl committedTwo 1).2.2.1 idle
  have granted : ((committedTwo.foldl perform tenBytes).allocate 1).map Prod.fst =
      .ok halfOfTheRest := by
    decide +kernel
  rw [allowed] at granted
  cases granted
  exact ⟨next, allowed, decision⟩

end Downpour.AllocationPolicy
