import Downpour.Intervals

/-!
Runs of the four mutations of the interval map. The first part reads a map as a
function from byte to state and compares each mutation with an independent
description of what it does to that function; the second says that every run
keeps the canonical partition and that the `u64` arithmetic of the mutations
cannot wrap.
The capacity hints of the vectors are left out: they are sizes in memory, not
offsets of the file.
-/

namespace Downpour.IntervalLaws
open Segments Intervals

inductive Operation where
  | grant (range : Range) (worker : WorkerId)
  | splitInProgress (splitAt : Nat) (source recipient : WorkerId)
  | complete (range : Range) (worker : WorkerId)
  | abandon (worker : WorkerId)
  deriving DecidableEq

/-- One call: the map it leaves and, for `abandon`, the bytes it released. -/
def perform (map : IntervalMap) : Operation → Except IntervalMapError (IntervalMap × Nat)
  | .grant range worker => (map.grant range worker).map (·, 0)
  | .splitInProgress splitAt source recipient =>
    (map.splitInProgress splitAt source recipient).map (·, 0)
  | .complete range worker => (map.complete range worker).map (·, 0)
  | .abandon worker => .ok (map.abandon worker)

def apply (map : IntervalMap) (operation : Operation) : IntervalMap :=
  match perform map operation with
  | .ok done => done.1
  | .error _ => map

def applyAll (map : IntervalMap) (operations : List Operation) : IntervalMap :=
  operations.foldl apply map

/-! The pointwise description. It does not mention intervals. -/

abbrev ByteStates := Nat → Option IntervalState

def Held (totalLength : Nat) (bytes : ByteStates) (range : Range) (state : IntervalState) : Prop :=
  range.start < range.stop ∧ range.stop ≤ totalLength ∧
    ∀ pos, range.start ≤ pos → pos < range.stop → bytes pos = some state

def Allowed (totalLength : Nat) (bytes : ByteStates) : Operation → Prop
  | .grant range _ => Held totalLength bytes range .pending
  | .splitInProgress splitAt source recipient =>
    recipient ≠ source ∧ ∃ before, splitAt = before + 1 ∧
      bytes before = some (.inProgress source) ∧ bytes splitAt = some (.inProgress source)
  | .complete range worker => Held totalLength bytes range (.inProgress worker)
  | .abandon _ => True

/-- The bytes an accepted call names. For a split they reach from the split point
to the end of the run of bytes that the source owns. -/
def Named (bytes : ByteStates) : Operation → Nat → Prop
  | .grant range _, pos => range.start ≤ pos ∧ pos < range.stop
  | .splitInProgress splitAt source _, pos =>
    splitAt ≤ pos ∧
      ∀ between, splitAt ≤ between → between ≤ pos → bytes between = some (.inProgress source)
  | .complete range _, pos => range.start ≤ pos ∧ pos < range.stop
  | .abandon worker, pos => bytes pos = some (.inProgress worker)

def target : Operation → IntervalState
  | .grant _ worker => .inProgress worker
  | .splitInProgress _ _ recipient => .inProgress recipient
  | .complete _ _ => .complete
  | .abandon _ => .pending

structure Changes (before after : IntervalMap) (operation : Operation) : Prop where
  totalLength : after.totalLength = before.totalLength
  named : ∀ pos, Named before.stateAt operation pos →
    after.stateAt pos = some (target operation)
  others : ∀ pos, ¬ Named before.stateAt operation pos →
    after.stateAt pos = before.stateAt pos

theorem mapped_ok {Error Before After : Type} (result : Except Error Before)
    {change : Before → After} {after : After} (done : result.map change = .ok after) :
    ∃ before, result = .ok before ∧ change before = after := by
  cases result with
  | error error => cases done
  | ok before => exact ⟨before, rfl, Except.ok.inj done⟩

theorem moves_changes (moves : IntervalMap.Moves before range source (target operation) after)
    (named : ∀ pos, Named before.stateAt operation pos ↔
      range.start ≤ pos ∧ pos < range.stop) : Changes before after operation where
  totalLength := moves.totalLength
  named pos inside := by rw [moves.reads, if_pos ((named pos).mp inside)]
  others pos outside := by rw [moves.reads, if_neg (mt (named pos).mpr outside)]

variable {source : WorkerId} {splitAt lo hi : Nat} {intervals : List Interval}

theorem split_named {map : IntervalMap} (recipient : WorkerId)
    (mem : interval ∈ map.intervals) (owned : interval.label = .inProgress source)
    (left : interval.start < splitAt) (right : splitAt < interval.stop) (pos : Nat) :
    Named map.stateAt (.splitInProgress splitAt source recipient) pos ↔
      splitAt ≤ pos ∧ pos < interval.stop := by
  -- The interval that a split cuts ends where the run of the source's bytes ends: a longer run
  -- would have been merged into it.
  have inside : ∀ byte, interval.start ≤ byte → byte < interval.stop →
      map.stateAt byte = some (.inProgress source) := by
    intro byte lower upper
    rw [← owned]
    exact label_member _ map.partitions mem ⟨lower, upper⟩
  constructor
  · rintro ⟨lower, run⟩
    refine ⟨lower, ?_⟩
    by_contra beyond
    -- The last byte of the interval and the next one have the same owner.
    have last := inside (interval.stop - 1) (by omega) (by omega)
    have next := run interval.stop (by omega) (by omega)
    have follows : interval.stop - 1 + 1 = interval.stop := by omega
    rw [← follows] at next
    obtain ⟨joined, found, before, after, _⟩ := reduced_joined map.partitions map.merged
      last next
    have same := chain_member_unique map.partitions mem found
      (interval.stop - 1) ⟨by omega, by omega⟩ ⟨before, by omega⟩
    rw [← same] at after
    omega
  · rintro ⟨lower, upper⟩
    exact ⟨lower, fun between start stop => inside between (by omega) (by omega)⟩

theorem split_changes (map : IntervalMap)
    (split : map.splitInProgress splitAt source recipient = .ok after) :
    Allowed map.totalLength map.stateAt (.splitInProgress splitAt source recipient) ∧
      Changes map after (.splitInProgress splitAt source recipient) := by
  obtain ⟨different, interval, mem, left, owned, moves⟩ :=
    IntervalMap.split_moves _ _ split
  have right : splitAt < interval.stop := moves.ordered
  constructor
  · have before := label_member (splitAt - 1) map.partitions mem
      ⟨by omega, by omega⟩
    have here := label_member splitAt map.partitions mem ⟨by omega, right⟩
    rw [owned] at before here
    exact ⟨different.symm, splitAt - 1, by omega, before, here⟩
  · exact moves_changes moves (split_named recipient mem owned left right)

theorem split_allowed {map : IntervalMap}
    (allowed : Allowed map.totalLength map.stateAt (.splitInProgress splitAt source recipient)) :
    ∃ after, map.splitInProgress splitAt source recipient = .ok after := by
  obtain ⟨different, before, rfl, left, right⟩ := allowed
  obtain ⟨interval, mem, lower, upper, owned⟩ :=
    reduced_joined map.partitions map.merged left right
  exact map.split_available mem ⟨by omega, upper, owned⟩ different.symm

theorem abandon_changes (map : IntervalMap) (worker : WorkerId) :
    Changes map (map.abandon worker).1 (.abandon worker) where
  totalLength := map.abandon_total worker
  named pos owned := (map.abandon_state worker pos).trans (if_pos owned)
  others pos free := (map.abandon_state worker pos).trans (if_neg free)

theorem perform_changes (accepted : perform map operation = .ok done) :
    Allowed map.totalLength map.stateAt operation ∧ Changes map done.1 operation := by
  cases operation with
  | grant range worker =>
    obtain ⟨after, granted, rfl⟩ := mapped_ok _ accepted
    have moves := IntervalMap.grant_moves _ _ _ granted
    exact ⟨⟨moves.ordered, moves.bounded, moves.held⟩,
      moves_changes moves fun _ => Iff.rfl⟩
  | splitInProgress splitAt source recipient =>
    obtain ⟨after, split, rfl⟩ := mapped_ok _ accepted
    exact split_changes map split
  | complete range worker =>
    obtain ⟨after, completed, rfl⟩ := mapped_ok _ accepted
    have moves := IntervalMap.complete_moves _ _ _ _ completed
    exact ⟨⟨moves.ordered, moves.bounded, moves.held⟩,
      moves_changes moves fun _ => Iff.rfl⟩
  | abandon worker =>
    cases accepted
    exact ⟨trivial, abandon_changes map worker⟩

theorem perform_allowed (map : IntervalMap) (operation : Operation)
    (allowed : Allowed map.totalLength map.stateAt operation) :
    ∃ done, perform map operation = .ok done := by
  cases operation with
  | grant range worker =>
    obtain ⟨ordered, bounded, pending⟩ := allowed
    obtain ⟨after, granted⟩ := map.grant_pending range worker ordered bounded pending
    exact ⟨(after, 0), by rw [perform, granted]; rfl⟩
  | splitInProgress splitAt source recipient =>
    obtain ⟨after, split⟩ := split_allowed allowed
    exact ⟨(after, 0), by rw [perform, split]; rfl⟩
  | complete range worker =>
    obtain ⟨ordered, bounded, owned⟩ := allowed
    obtain ⟨after, completed⟩ := map.complete_owned range ordered bounded owned
    exact ⟨(after, 0), by rw [perform, completed]; rfl⟩
  | abandon worker => exact ⟨_, rfl⟩

theorem abandon_count (map : IntervalMap) (worker : WorkerId) :
    (map.abandon worker).2 = ((Finset.range map.totalLength).filter fun pos =>
      map.stateAt pos = some (.inProgress worker)).card := by
  rw [Finset.range_eq_Ico]
  exact (label_count (.inProgress worker) map.partitions).symm

/-- On every map, so on every map that a run of calls leaves, the next call is
accepted exactly when the bytes allow it, changes exactly the bytes it names, and
otherwise changes nothing; `abandon` returns the number of bytes it released. -/
theorem mutation_exact (map : IntervalMap) (operation : Operation) :
    ((∃ done, perform map operation = .ok done) ↔
        Allowed map.totalLength map.stateAt operation) ∧
      (∀ done, perform map operation = .ok done →
        Changes map done.1 operation ∧ apply map operation = done.1) ∧
      (∀ error, perform map operation = .error error → apply map operation = map) ∧
      ∀ worker, operation = .abandon worker → perform map operation =
        .ok ((map.abandon worker).1, ((Finset.range map.totalLength).filter fun pos =>
          map.stateAt pos = some (.inProgress worker)).card) := by
  refine ⟨⟨?_, perform_allowed map operation⟩, ?_, ?_, ?_⟩
  · rintro ⟨done, accepted⟩
    exact (perform_changes accepted).1
  · intro done accepted
    exact ⟨(perform_changes accepted).2, by rw [apply, accepted]⟩
  · intro error rejected
    rw [apply, rejected]
  · rintro worker rfl
    rw [← abandon_count]
    rfl

/-! Maps that read the same are the same. -/

theorem map_unique {left right : IntervalMap} (lengths : left.totalLength = right.totalLength)
    (same : ∀ pos, left.stateAt pos = right.stateAt pos) : left = right := by
  obtain ⟨total, lefts, leftChain, leftReduced⟩ := left
  obtain ⟨_, rights, rightChain, rightReduced⟩ := right
  obtain rfl : total = _ := lengths
  obtain rfl := reduced_unique leftChain leftReduced rightChain rightReduced (funext same)
  rfl

def performAll (map : IntervalMap) (operations : List Operation) : Except IntervalMapError IntervalMap :=
  operations.foldlM (fun map operation => (perform map operation).map Prod.fst) map

theorem perform_two :
    performAll map [first, second] = .ok final ↔
      ∃ between last, perform map first = .ok between ∧ perform between.1 second = .ok last ∧
        last.1 = final := by
  simp only [performAll, List.foldlM_cons, List.foldlM_nil]
  cases perform map first with
  | error error => simp [Except.map, bind, Except.bind]
  | ok between =>
    cases done : perform between.1 second <;>
      simp [Except.map, bind, Except.bind, pure, Except.pure, done, Prod.ext_iff]

def rangeOf : Operation → Option Range
  | .grant range _ | .complete range _ => some range
  | _ => none

def Apart (left right : Range) : Prop :=
  ∀ pos, ¬ ((left.start ≤ pos ∧ pos < left.stop) ∧
    right.start ≤ pos ∧ pos < right.stop)

theorem ranged_named (ranged : rangeOf operation = some range) (bytes : ByteStates) (pos : Nat) :
    Named bytes operation pos ↔ range.start ≤ pos ∧ pos < range.stop := by
  cases operation <;> cases ranged <;> rfl

theorem ranged_allowed (ranged : rangeOf operation = some range)
    (same : ∀ pos, range.start ≤ pos ∧ pos < range.stop → after pos = before pos)
    (allowed : Allowed totalLength before operation) : Allowed totalLength after operation := by
  cases operation <;> cases ranged <;>
    exact ⟨allowed.1, allowed.2.1, fun pos lower upper =>
      (same pos ⟨lower, upper⟩).trans (allowed.2.2 pos lower upper)⟩

theorem swap_accepted {map final : IntervalMap} {first second : Operation} {left right : Range}
    (firstRange : rangeOf first = some left) (secondRange : rangeOf second = some right)
    (apart : Apart left right) (accepted : performAll map [first, second] = .ok final) :
    performAll map [second, first] = .ok final := by
  obtain ⟨between, last, one, two, rfl⟩ := perform_two.mp accepted
  obtain ⟨firstAllowed, firstChanges⟩ := perform_changes one
  obtain ⟨secondAllowed, secondChanges⟩ := perform_changes two
  have elsewhere := firstChanges.others
  simp only [ranged_named firstRange] at elsewhere
  rw [firstChanges.totalLength] at secondAllowed
  obtain ⟨other, two'⟩ := perform_allowed map second (ranged_allowed secondRange
    (fun pos inside => (elsewhere pos fun hit => apart pos ⟨hit, inside⟩).symm) secondAllowed)
  have otherChanges := (perform_changes two').2
  have untouched := otherChanges.others
  simp only [ranged_named secondRange] at untouched
  obtain ⟨end', one'⟩ := perform_allowed other.1 first (otherChanges.totalLength ▸ ranged_allowed firstRange
    (fun pos inside => untouched pos fun hit => apart pos ⟨inside, hit⟩) firstAllowed)
  have endChanges := (perform_changes one').2
  refine perform_two.mpr ⟨other, end', two', one', map_unique ?_ fun pos => ?_⟩
  · rw [endChanges.totalLength, otherChanges.totalLength, secondChanges.totalLength,
      firstChanges.totalLength]
  · by_cases inLeft : left.start ≤ pos ∧ pos < left.stop
    · have outside : ¬ (right.start ≤ pos ∧ pos < right.stop) := fun hit =>
        apart pos ⟨inLeft, hit⟩
      rw [endChanges.named pos ((ranged_named firstRange _ _).mpr inLeft),
        secondChanges.others pos (mt (ranged_named secondRange _ _).mp outside),
        firstChanges.named pos ((ranged_named firstRange _ _).mpr inLeft)]
    · rw [endChanges.others pos (mt (ranged_named firstRange _ _).mp inLeft)]
      by_cases inRight : right.start ≤ pos ∧ pos < right.stop
      · rw [otherChanges.named pos ((ranged_named secondRange _ _).mpr inRight),
          secondChanges.named pos ((ranged_named secondRange _ _).mpr inRight)]
      · rw [untouched pos inRight,
          secondChanges.others pos (mt (ranged_named secondRange _ _).mp inRight),
          elsewhere pos inLeft]

theorem complete_ok (completed : map.complete range worker = .ok after) :
    perform map (.complete range worker) = .ok (after, 0) := by
  rw [perform, completed]
  rfl

theorem split_completed {map split : IntervalMap} {recipient : WorkerId}
    (accepted : map.splitInProgress splitAt source recipient = .ok split) :
    ∃ interval ∈ map.intervals, interval.start < splitAt ∧ splitAt < interval.stop ∧
      interval.label = .inProgress source ∧
      ∃ done, map.complete ⟨interval.start, interval.stop⟩ source = .ok done ∧
        performAll split [.complete ⟨interval.start, splitAt⟩ source,
          .complete ⟨splitAt, interval.stop⟩ recipient] = .ok done := by
  obtain ⟨_, interval, mem, left, owned, moves⟩ := IntervalMap.split_moves _ _ accepted
  have right : splitAt < interval.stop := moves.ordered
  have bounds := chain_member_bounds map.partitions mem
  have held : ∀ pos, interval.start ≤ pos → pos < interval.stop →
      map.stateAt pos = some (.inProgress source) := fun pos lower upper =>
    owned ▸ label_member pos map.partitions mem ⟨lower, upper⟩
  obtain ⟨done, whole⟩ := map.complete_owned ⟨interval.start, interval.stop⟩ bounds.2.1
    bounds.2.2 held
  obtain ⟨half, first⟩ := split.complete_owned ⟨interval.start, splitAt⟩ left
    (by rw [moves.totalLength]; exact Nat.le_trans (Nat.le_of_lt right) bounds.2.2)
    (fun pos lower upper => by
      rw [moves.reads, if_neg (by simp only at upper ⊢; omega)]
      exact held pos lower (Nat.lt_trans upper right))
  have firstMoves := IntervalMap.complete_moves _ _ _ _ first
  obtain ⟨last, second⟩ := half.complete_owned ⟨splitAt, interval.stop⟩ right
    (by rw [firstMoves.totalLength, moves.totalLength]; exact bounds.2.2)
    (fun pos lower upper => by
      rw [firstMoves.reads, if_neg (by simp only at lower ⊢; omega), moves.reads, if_pos ⟨lower, upper⟩])
  have secondMoves := IntervalMap.complete_moves _ _ _ _ second
  have wholeMoves := IntervalMap.complete_moves _ _ _ _ whole
  refine ⟨interval, mem, left, right, owned, done, whole,
    perform_two.mpr ⟨_, _, complete_ok first, complete_ok second, map_unique ?_ fun pos => ?_⟩⟩
  · rw [secondMoves.totalLength, firstMoves.totalLength, moves.totalLength, wholeMoves.totalLength]
  · rw [secondMoves.reads, firstMoves.reads, moves.reads, wholeMoves.reads]
    simp only
    split_ifs <;> first | rfl | omega

/-- The map is determined by the bytes, so that calls on separate ranges commute and
completing both halves of a split, in either order, is completing the whole. -/
theorem maps_canonical :
    (∀ left right : IntervalMap, left.totalLength = right.totalLength →
        (∀ pos, left.stateAt pos = right.stateAt pos) → left = right) ∧
      (∀ (map final : IntervalMap) (first second : Operation) (left right : Range),
        rangeOf first = some left → rangeOf second = some right → Apart left right →
        (performAll map [first, second] = .ok final ↔ performAll map [second, first] = .ok final)) ∧
      ∀ (map split : IntervalMap) (splitAt : Nat) (source recipient : WorkerId),
        map.splitInProgress splitAt source recipient = .ok split →
        ∃ interval ∈ map.intervals, interval.start < splitAt ∧ splitAt < interval.stop ∧
          interval.label = .inProgress source ∧
          ∃ done, map.complete ⟨interval.start, interval.stop⟩ source = .ok done ∧
            performAll split [.complete ⟨interval.start, splitAt⟩ source,
              .complete ⟨splitAt, interval.stop⟩ recipient] = .ok done ∧
            performAll split [.complete ⟨splitAt, interval.stop⟩ recipient,
              .complete ⟨interval.start, splitAt⟩ source] = .ok done := by
  refine ⟨fun _ _ => map_unique, ?_, ?_⟩
  · intro map final first second left right firstRange secondRange apart
    refine ⟨swap_accepted firstRange secondRange apart, swap_accepted secondRange firstRange ?_⟩
    exact fun pos both => apart pos both.symm
  · intro map split splitAt source recipient accepted
    obtain ⟨interval, mem, left, right, owned, done, whole, halves⟩ := split_completed accepted
    refine ⟨interval, mem, left, right, owned, done, whole, halves, ?_⟩
    refine swap_accepted rfl rfl (fun pos both => ?_) halves
    simp only at both
    omega

/-! The partition. -/

def holdsFrom (totalLength : Nat) : Nat → Option IntervalState → List Interval → Bool
  | cursor, _, [] => decide (cursor = totalLength)
  | cursor, previous, interval :: rest =>
    if interval.start ≠ cursor ∨ interval.start ≥ interval.stop then false
    else if previous = some interval.label then false
    else holdsFrom totalLength interval.stop (some interval.label) rest

def invariantsHold (map : IntervalMap) : Bool :=
  if map.totalLength = 0 then decide (map.intervals = [])
  else holdsFrom map.totalLength 0 none map.intervals

theorem chain_holds (previous : Option IntervalState)
    (chain : Chain cursor totalLength intervals) (reduced : Reduced intervals)
    (differs : ∀ first, intervals.head? = some first → previous ≠ some first.label) :
    holdsFrom totalLength cursor previous intervals = true := by
  induction intervals generalizing cursor previous with
  | nil => exact decide_eq_true chain
  | cons interval rest ih =>
    obtain ⟨start, positive, tail⟩ := chain
    rw [holdsFrom, if_neg (by omega), if_neg (differs interval rfl)]
    apply ih _ tail (List.IsChain.tail reduced)
    intro next found same
    cases rest with
    | nil => cases found
    | cons second others =>
      cases found
      exact (List.isChain_cons_cons.mp reduced).1 (Option.some.inj same)

theorem invariants_hold (map : IntervalMap) : invariantsHold map = true := by
  unfold invariantsHold
  by_cases empty : map.totalLength = 0
  · rw [if_pos empty]
    have chain := map.partitions
    cases shape : map.intervals with
    | nil => rfl
    | cons first rest =>
      rw [shape] at chain
      have upper := chain_le chain.2.2
      have positive := chain.2.1
      omega
  · rw [if_neg empty]
    exact chain_holds _ map.partitions map.merged nofun

structure Laws (totalLength : Nat) (intervals : List Interval) : Prop where
  nonEmpty : ∀ interval ∈ intervals, interval.start < interval.stop
  starts : ∀ first, intervals.head? = some first → first.start = 0
  ends : ∀ last, intervals.getLast? = some last → last.stop = totalLength
  contiguous : ∀ index left right, intervals[index]? = some left →
    intervals[index + 1]? = some right → left.stop = right.start
  maximal : ∀ index left right, intervals[index]? = some left →
    intervals[index + 1]? = some right → left.label ≠ right.label
  empty : intervals = [] ↔ totalLength = 0
  representable : ∀ interval ∈ intervals, interval.stop < 2 ^ 64

theorem chain_contiguous (chain : Chain lo hi intervals) (index : Nat) (left right : Interval)
    (first : intervals[index]? = some left) (second : intervals[index + 1]? = some right) :
    left.stop = right.start := by
  induction intervals generalizing lo index with
  | nil => cases first
  | cons interval rest ih =>
    obtain ⟨_, _, tail⟩ := chain
    cases index with
    | zero =>
      cases first
      cases rest with
      | nil => cases second
      | cons next others =>
        cases second
        exact tail.1.symm
    | succ index => exact ih tail index first second

theorem chain_last (chain : Chain lo hi intervals) (last : Interval)
    (found : intervals.getLast? = some last) : last.stop = hi := by
  obtain ⟨before, rfl⟩ := List.getLast?_eq_some_iff.mp found
  obtain ⟨_, _, final⟩ := (chain_append before [last] lo hi).mp chain
  exact final.2.2

theorem map_laws {map : IntervalMap} (representable : map.totalLength < 2 ^ 64) :
    Laws map.totalLength map.intervals where
  nonEmpty interval mem :=
    (chain_member_bounds map.partitions mem).2.1
  starts first found := by
    have chain := map.partitions
    cases shape : map.intervals with
    | nil => rw [shape] at found; cases found
    | cons head rest =>
      rw [shape] at found chain
      cases found
      exact chain.1
  ends := chain_last map.partitions
  contiguous := chain_contiguous map.partitions
  maximal index left right first second := by
    obtain ⟨_, rfl⟩ := List.getElem?_eq_some_iff.mp first
    obtain ⟨bound, rfl⟩ := List.getElem?_eq_some_iff.mp second
    exact List.isChain_iff_getElem.mp map.merged index bound
  empty := by
    have chain := map.partitions
    constructor
    · intro none
      rw [none] at chain
      exact chain.symm
    · intro zero
      by_contra some
      obtain ⟨interval, mem⟩ := List.exists_mem_of_ne_nil _ some
      have bounds := chain_member_bounds map.partitions mem
      omega
  representable interval mem := by
    have bounds := chain_member_bounds map.partitions mem
    omega

/-! The arithmetic of `abandon`, the only mutation that computes with offsets. -/

def checkedLen (interval : Interval) : Option Nat :=
  if interval.start ≤ interval.stop then some (interval.stop - interval.start) else none

def checkedReleased (worker : WorkerId) : Nat → List Interval → Option Nat
  | released, [] => some released
  | released, interval :: rest =>
    if interval.label = .inProgress worker then
      (checkedLen interval).bind fun length =>
        if released + length < 2 ^ 64 then checkedReleased worker (released + length) rest else none
    else checkedReleased worker released rest

theorem released_checked (worker : WorkerId) (released : Nat) (chain : Chain lo hi intervals)
    (counted : released ≤ lo) (representable : hi < 2 ^ 64) :
    checkedReleased worker released intervals = some (released +
      ((intervals.filter fun interval => decide (interval.label = .inProgress worker)).map
        Interval.len).sum) := by
  induction intervals generalizing lo released with
  | nil => simp [checkedReleased]
  | cons interval rest ih =>
    obtain ⟨start, positive, tail⟩ := chain
    have upper := chain_le tail
    by_cases owned : interval.label = .inProgress worker
    · have length : checkedLen interval = some interval.len := if_pos (by omega)
      have size : interval.len = interval.stop - interval.start := rfl
      rw [checkedReleased, if_pos owned, length, Option.bind_some, if_pos (by omega),
        ih _ tail (by omega)]
      simp [owned, Nat.add_assoc]
    · rw [checkedReleased, if_neg owned, ih _ tail (by omega)]
      simp [owned]

@[simp]
theorem apply_total (map : IntervalMap) (operation : Operation) :
    (apply map operation).totalLength = map.totalLength := by
  unfold apply
  split
  next done accepted => exact (perform_changes accepted).2.totalLength
  next => rfl

theorem apply_all_total (map : IntervalMap) (operations : List Operation) :
    (applyAll map operations).totalLength = map.totalLength := by
  induction operations generalizing map with
  | nil => rfl
  | cons operation rest ih =>
    rw [applyAll, List.foldl_cons]
    exact (ih _).trans (apply_total map operation)

/-- Every run of calls on a new map, accepted or rejected, leaves the canonical
partition of the file, passes the map's own check, and lets the next `abandon`
count its bytes without wrapping. -/
theorem partition_kept (totalLength : Nat) (representable : totalLength < 2 ^ 64)
    (operations : List Operation) (worker : WorkerId) :
    Laws totalLength (applyAll (IntervalMap.new totalLength) operations).intervals ∧
      invariantsHold (applyAll (IntervalMap.new totalLength) operations) = true ∧
      checkedReleased worker 0 (applyAll (IntervalMap.new totalLength) operations).intervals =
        some ((applyAll (IntervalMap.new totalLength) operations).abandon worker).2 := by
  have length := apply_all_total (IntervalMap.new totalLength) operations
  generalize applyAll (IntervalMap.new totalLength) operations = map at length ⊢
  have same : map.totalLength = totalLength := length
  refine ⟨same ▸ map_laws (same ▸ representable), invariants_hold map, ?_⟩
  rw [released_checked worker 0 map.partitions (Nat.le_refl _)
    (same ▸ representable), Nat.zero_add]
  rfl

def mixedRun : List Operation :=
  [.grant ⟨0, 3⟩ 7, .splitInProgress 1 7 8, .complete ⟨1, 2⟩ 8, .abandon 7]

theorem partition_kept_mixed :
    (applyAll (IntervalMap.new 4) mixedRun).intervals =
        [⟨0, 1, .pending⟩, ⟨1, 2, .complete⟩, ⟨2, 3, .inProgress 8⟩, ⟨3, 4, .pending⟩] ∧
      Laws 4 (applyAll (IntervalMap.new 4) mixedRun).intervals ∧
      checkedReleased 8 0 (applyAll (IntervalMap.new 4) mixedRun).intervals = some 1 := by
  obtain ⟨laws, _, counted⟩ := partition_kept 4 (by decide) mixedRun 8
  exact ⟨by decide, laws, counted.trans (by decide)⟩

end Downpour.IntervalLaws
