import Downpour.Intervals

/-!
The sole allocator of worker-owned byte ranges. Pending work is handed out first;
when none is left the longest active interval is split in half, provided both
halves reach the split floor. The floor is positive by construction, since `new`
refuses zero. Offsets are natural numbers; only the doubling of the floor can
leave 64 bits, and `checked_mul` is modelled there.
-/

namespace Downpour.Allocator
open Segments Intervals

structure Grant where
  worker : WorkerId
  range : Range
  deriving DecidableEq

structure Allocation where
  grant : Grant
  shortened : Option Grant
  deriving DecidableEq

inductive AllocatorError where
  | zeroMinimumSplit
  | workerAlreadyActive (worker : WorkerId)
  | interval (error : IntervalMapError)
  deriving DecidableEq

structure SegmentAllocator where
  intervals : IntervalMap
  minSplitBytes : Nat
  positive : 0 < minSplitBytes
  deriving DecidableEq

/-- `Iterator::max_by`: the last of the greatest items. -/
def maxBy {Item : Type} (greater : Item → Item → Bool) : List Item → Option Item
  | [] => none
  | first :: rest =>
    some (rest.foldl (fun best next => if greater best next then best else next) first)

theorem fold_member {Item : Type} (greater : Item → Item → Bool) (first : Item)
    (rest : List Item) :
    rest.foldl (fun best next => if greater best next then best else next) first ∈
      first :: rest := by
  induction rest generalizing first with
  | nil => exact List.mem_singleton_self first
  | cons next rest ih =>
    rw [List.foldl_cons]
    by_cases kept : greater first next = true
    · rw [if_pos kept]
      rcases List.mem_cons.mp (ih first) with same | later
      · rw [same]
        exact List.mem_cons_self
      · exact List.mem_cons_of_mem _ (List.mem_cons_of_mem _ later)
    · rw [if_neg kept]
      exact List.mem_cons_of_mem _ (ih next)

theorem max_by_member {Item : Type} {greater : Item → Item → Bool} {items : List Item}
    {best : Item} (found : maxBy greater items = some best) : best ∈ items := by
  cases items with
  | nil => cases found
  | cons first rest =>
    cases found
    exact fold_member greater first rest

def preferred (left right : Interval) : Bool :=
  decide (right.len < left.len) || (decide (left.len = right.len) && decide (left.start < right.start))

namespace SegmentAllocator

def new (totalLength minSplitBytes : Nat) : Except AllocatorError SegmentAllocator :=
  if zero : minSplitBytes = 0 then .error .zeroMinimumSplit
  else .ok ⟨IntervalMap.new totalLength, minSplitBytes, Nat.pos_of_ne_zero zero⟩

def preferredRange (allocator : SegmentAllocator) (predicate : IntervalState → Bool) :
    Option Range :=
  (maxBy preferred
    (allocator.intervals.intervals.filter fun interval => predicate interval.label)).map
      fun interval => ⟨interval.start, interval.stop⟩

def activeOwner (interval : Interval) : Option (Interval × WorkerId) :=
  match interval.label with
  | .inProgress worker => some (interval, worker)
  | _ => none

def preferredActive (allocator : SegmentAllocator) : Option (Range × WorkerId) :=
  (maxBy (fun left right => preferred left.1 right.1)
    (allocator.intervals.intervals.filterMap activeOwner)).map
      fun found => (⟨found.1.start, found.1.stop⟩, found.2)

def owns (allocator : SegmentAllocator) (worker : WorkerId) : Bool :=
  allocator.intervals.intervals.any fun interval => decide (interval.label = .inProgress worker)

def withMap (allocator : SegmentAllocator) (changed : Except IntervalMapError IntervalMap) :
    Except AllocatorError SegmentAllocator :=
  match changed with
  | .error error => .error (.interval error)
  | .ok next => .ok { allocator with intervals := next }

def allocate (allocator : SegmentAllocator) (worker : WorkerId) :
    Except AllocatorError (Option Allocation × SegmentAllocator) :=
  if allocator.owns worker then .error (.workerAlreadyActive worker)
  else match allocator.preferredRange fun state => decide (state = .pending) with
    | some range =>
      (allocator.withMap (allocator.intervals.grant range worker)).map fun next =>
        (some ⟨⟨worker, range⟩, none⟩, next)
    | none =>
      if 2 ^ 64 ≤ allocator.minSplitBytes * 2 then .ok (none, allocator)
      else match allocator.preferredActive with
        | none => .ok (none, allocator)
        | some (range, source) =>
          if range.stop - range.start < allocator.minSplitBytes * 2 then .ok (none, allocator)
          else
            let splitAt := range.start + (range.stop - range.start) / 2
            (allocator.withMap
              (allocator.intervals.splitInProgress splitAt source worker)).map fun next =>
                (some ⟨⟨worker, ⟨splitAt, range.stop⟩⟩,
                  some ⟨source, ⟨range.start, splitAt⟩⟩⟩, next)

def completeDurable (allocator : SegmentAllocator) (worker : WorkerId) (range : Range) :
    Except AllocatorError SegmentAllocator :=
  allocator.withMap (allocator.intervals.complete range worker)

def abandon (allocator : SegmentAllocator) (worker : WorkerId) : SegmentAllocator × Nat :=
  ({ allocator with intervals := (allocator.intervals.abandon worker).1 },
    (allocator.intervals.abandon worker).2)

/-! What an allocation can do, said once for all later proofs. -/

theorem owns_iff (allocator : SegmentAllocator) (worker : WorkerId) :
    allocator.owns worker = true ↔
      ∃ pos, allocator.intervals.stateAt pos = some (.inProgress worker) := by
  simp only [owns, List.any_eq_true, decide_eq_true_eq]
  constructor
  · rintro ⟨interval, mem, owned⟩
    have bounds := chain_member_bounds allocator.intervals.partitions mem
    refine ⟨interval.start, ?_⟩
    rw [← owned]
    exact label_member _ allocator.intervals.partitions mem
      ⟨Nat.le_refl _, bounds.2.1⟩
  · rintro ⟨pos, held⟩
    obtain ⟨interval, mem, _, owned⟩ := label_found held
    exact ⟨interval, mem, owned⟩

theorem preferred_range_found (allocator : SegmentAllocator)
    (found : allocator.preferredRange predicate = some range) :
    ∃ interval ∈ allocator.intervals.intervals, predicate interval.label = true ∧
      range = ⟨interval.start, interval.stop⟩ := by
  obtain ⟨interval, best, rfl⟩ := Option.map_eq_some_iff.mp found
  have mem := List.mem_filter.mp (max_by_member best)
  exact ⟨interval, mem.1, mem.2, rfl⟩

theorem preferred_active_found (allocator : SegmentAllocator)
    (found : allocator.preferredActive = some (range, source)) :
    ∃ interval ∈ allocator.intervals.intervals, interval.label = .inProgress source ∧
      range = ⟨interval.start, interval.stop⟩ := by
  obtain ⟨⟨interval, owner⟩, best, same⟩ := Option.map_eq_some_iff.mp found
  obtain ⟨candidate, mem, active⟩ := List.mem_filterMap.mp (max_by_member best)
  simp only [Prod.mk.injEq] at same
  obtain ⟨rfl, rfl⟩ := same
  unfold activeOwner at active
  split at active
  next worker owned =>
    cases active
    exact ⟨interval, mem, owned, rfl⟩
  next => cases active

theorem split_found (allocator : SegmentAllocator)
    (splitAt : Nat) (mem : interval ∈ allocator.intervals.intervals)
    (owned : interval.label = .inProgress source) (left : interval.start < splitAt)
    (right : splitAt < interval.stop) (different : source ≠ worker) :
    ∃ next, allocator.intervals.splitInProgress splitAt source worker = .ok next ∧
      IntervalMap.Moves allocator.intervals ⟨splitAt, interval.stop⟩ (.inProgress source)
        (.inProgress worker) next := by
  have available := IntervalMap.split_available allocator.intervals
    mem ⟨left, right, owned⟩ different
  obtain ⟨next, split⟩ := available
  obtain ⟨_, chosen, also, before, _, moves⟩ := IntervalMap.split_moves _ _ split
  have same := chain_member_unique allocator.intervals.partitions mem also
    splitAt ⟨Nat.le_of_lt left, right⟩ ⟨Nat.le_of_lt before, moves.ordered⟩
  exact ⟨next, split, same ▸ moves⟩

inductive AllocateEnd (allocator : SegmentAllocator) (worker : WorkerId) :
    Except AllocatorError (Option Allocation × SegmentAllocator) → Prop where
  | active (owned : allocator.owns worker = true) :
      AllocateEnd allocator worker (.error (.workerAlreadyActive worker))
  | none (free : allocator.owns worker = false) :
      AllocateEnd allocator worker (.ok (none, allocator))
  | granted (free : allocator.owns worker = false) (interval : Interval)
      (mem : interval ∈ allocator.intervals.intervals) (pending : interval.label = .pending)
      (next : IntervalMap)
      (moves : IntervalMap.Moves allocator.intervals ⟨interval.start, interval.stop⟩ .pending
        (.inProgress worker) next) :
      AllocateEnd allocator worker
        (.ok (some ⟨⟨worker, ⟨interval.start, interval.stop⟩⟩, none⟩,
          { allocator with intervals := next }))
  | split (free : allocator.owns worker = false) (interval : Interval) (source : WorkerId)
      (splitAt : Nat) (mem : interval ∈ allocator.intervals.intervals)
      (owned : interval.label = .inProgress source) (left : interval.start < splitAt)
      (next : IntervalMap)
      (moves : IntervalMap.Moves allocator.intervals ⟨splitAt, interval.stop⟩ (.inProgress source)
        (.inProgress worker) next) :
      AllocateEnd allocator worker
        (.ok (some ⟨⟨worker, ⟨splitAt, interval.stop⟩⟩,
            some ⟨source, ⟨interval.start, splitAt⟩⟩⟩,
          { allocator with intervals := next }))

theorem allocate_end (allocator : SegmentAllocator) (worker : WorkerId) :
    AllocateEnd allocator worker (allocator.allocate worker) := by
  -- An allocation is refused, finds no work, or moves one range. The interval map never rejects
  -- the range that the allocator chose.
  unfold allocate
  split
  next owned => exact AllocateEnd.active owned
  next unowned =>
    have free : allocator.owns worker = false := Bool.not_eq_true _ ▸ unowned
    split
    next range found =>
      obtain ⟨interval, mem, pending, rfl⟩ := preferred_range_found allocator found
      have label : interval.label = .pending := of_decide_eq_true pending
      have bounds := chain_member_bounds allocator.intervals.partitions mem
      obtain ⟨next, granted⟩ := IntervalMap.grant_pending allocator.intervals
        ⟨interval.start, interval.stop⟩ worker bounds.2.1 bounds.2.2
        (fun pos lower upper => label ▸ label_member _ allocator.intervals.partitions mem ⟨lower, upper⟩)
      rw [granted]
      exact AllocateEnd.granted free interval mem label next (IntervalMap.grant_moves _ _ _ granted)
    next =>
      split
      next => exact AllocateEnd.none free
      next =>
        split
        next => exact AllocateEnd.none free
        next range source found =>
          split
          next => exact AllocateEnd.none free
          next long =>
            obtain ⟨interval, mem, owned, rfl⟩ :=
              preferred_active_found allocator found
            have floor := allocator.positive
            simp only at long ⊢
            have different : source ≠ worker := by
              rintro rfl
              have holds : allocator.owns source = true :=
                List.any_eq_true.mpr ⟨interval, mem, decide_eq_true owned⟩
              rw [free] at holds
              cases holds
            obtain ⟨next, split, moves⟩ := split_found allocator
              (interval.start + (interval.stop - interval.start) / 2) mem owned (by omega)
              (by omega) different
            rw [split]
            exact AllocateEnd.split free interval source _ mem owned (by omega) next moves

end SegmentAllocator

end Downpour.Allocator
