import Downpour.Support.Segments

/-!
The canonical interval map: a partition of `[0, totalLength)` into pending,
in-progress and complete byte ranges. The partition and the merging of equal
neighbours are fields of the map, so every mutation carries the proof that
`invariants_hold` survives it. Offsets are natural numbers; all of them stay
below the total length, which callers keep inside 64 bits.
-/

namespace Downpour.Intervals
open Segments

abbrev WorkerId := Nat

inductive IntervalState where
  | pending
  | inProgress (worker : WorkerId)
  | complete
  deriving DecidableEq, Repr

abbrev Interval := Segment IntervalState

def Interval.len (interval : Interval) : Nat := interval.stop - interval.start

abbrev Range := Span

inductive IntervalMapError where
  | invalidRange (start stop totalLength : Nat)
  | rangeNotPending (start stop : Nat)
  | rangeNotOwned (start stop : Nat) (worker : WorkerId)
  | splitPointUnavailable (splitAt : Nat) (source : WorkerId)
  | splitWorkerUnchanged (worker : WorkerId)
  deriving DecidableEq, Repr

structure IntervalMap where
  totalLength : Nat
  intervals : List Interval
  partitions : Chain 0 totalLength intervals
  merged : Reduced intervals
  deriving DecidableEq

namespace IntervalMap

def new (totalLength : Nat) : IntervalMap where
  totalLength := totalLength
  intervals := if totalLength = 0 then [] else [⟨0, totalLength, .pending⟩]
  partitions := by
    split
    next zero => exact zero.symm
    next positive => exact ⟨rfl, Nat.pos_of_ne_zero positive, rfl⟩
  merged := by
    split
    · exact List.isChain_nil
    · exact List.isChain_singleton _

def stateAt (map : IntervalMap) (pos : Nat) : Option IntervalState :=
  labelAt map.intervals pos

abbrev Invalid (map : IntervalMap) (range : Range) : Prop :=
  range.start ≥ range.stop ∨ range.stop > map.totalLength

def invalidRange (map : IntervalMap) (range : Range) : IntervalMapError :=
  .invalidRange range.start range.stop map.totalLength

def rangeMatches (map : IntervalMap) (range : Range) (predicate : IntervalState → Bool) : Bool :=
  (map.intervals.filter fun interval =>
    decide (interval.start < range.stop) && decide (range.start < interval.stop)).all
      fun interval => predicate interval.label

/-- `replace_range`, on a range that `validate_range` accepted. -/
def replaceRange (map : IntervalMap) (range : Range) (valid : ¬ map.Invalid range)
    (replacement : IntervalState) : IntervalMap where
  totalLength := map.totalLength
  intervals := Segments.replaceRange map.intervals range.start range.stop replacement
  partitions := (replace_built replacement
    (by omega) (by omega) (by omega) map.partitions).chain
  merged := (replace_built replacement
    (by omega) (by omega) (by omega) map.partitions).reduced

def grant (map : IntervalMap) (range : Range) (worker : WorkerId) :
    Except IntervalMapError IntervalMap :=
  if invalid : map.Invalid range then .error (map.invalidRange range)
  else if map.rangeMatches range fun state => decide (state = .pending) then
    .ok (map.replaceRange range invalid (.inProgress worker))
  else .error (.rangeNotPending range.start range.stop)

def complete (map : IntervalMap) (range : Range) (worker : WorkerId) :
    Except IntervalMapError IntervalMap :=
  if invalid : map.Invalid range then .error (map.invalidRange range)
  else if map.rangeMatches range fun state => decide (state = .inProgress worker) then
    .ok (map.replaceRange range invalid .complete)
  else .error (.rangeNotOwned range.start range.stop worker)

/-- The intervals with the first splittable interval of `source` cut in two. -/
def splitIntervals (splitAt : Nat) (source recipient : WorkerId) :
    List Interval → Option (List Interval)
  | [] => none
  | interval :: rest =>
    if interval.start < splitAt ∧ splitAt < interval.stop ∧
        interval.label = .inProgress source then
      some (⟨interval.start, splitAt, .inProgress source⟩ ::
        ⟨splitAt, interval.stop, .inProgress recipient⟩ :: rest)
    else (splitIntervals splitAt source recipient rest).map (interval :: ·)

variable {intervals : List Interval} {before after : IntervalMap} {range : Range}
    {source : IntervalState}

theorem split_intervals_found {pieces : List Interval} {lo hi splitAt : Nat}
    {source recipient : WorkerId} (chain : Chain lo hi intervals)
    (split : splitIntervals splitAt source recipient intervals = some pieces) :
    Chain lo hi pieces ∧ ∃ interval ∈ intervals, interval.start < splitAt ∧
      splitAt < interval.stop ∧ interval.label = .inProgress source ∧
      ∀ pos, labelAt pieces pos =
        if splitAt ≤ pos ∧ pos < interval.stop then some (.inProgress recipient)
        else labelAt intervals pos := by
  induction intervals generalizing lo pieces with
  | nil => simp [splitIntervals] at split
  | cons first rest ih =>
    obtain ⟨start, positive, tail⟩ := chain
    by_cases hit : first.start < splitAt ∧ splitAt < first.stop ∧
        first.label = .inProgress source
    · simp only [splitIntervals, hit, and_self, ↓reduceIte, Option.some.injEq] at split
      subst pieces
      obtain ⟨left, right, owned⟩ := hit
      refine ⟨⟨start, by simp only; omega, rfl, right, tail⟩, first, by simp, left, right,
        owned, fun pos => ?_⟩
      simp only [labelAt, owned]
      split_ifs <;> first | rfl | omega
    · simp only [splitIntervals, hit, ↓reduceIte, Option.map_eq_some_iff] at split
      obtain ⟨others, split, same⟩ := split
      subst pieces
      obtain ⟨joined, interval, mem, left, right, owned, reads⟩ := ih tail split
      have bounds := chain_member_bounds tail mem
      refine ⟨⟨start, positive, joined⟩, interval, List.mem_cons_of_mem _ mem, left, right,
        owned, fun pos => ?_⟩
      simp only [labelAt, reads]
      split_ifs <;> first | rfl | omega

def splitInProgress (map : IntervalMap) (splitAt : Nat) (source recipient : WorkerId) :
    Except IntervalMapError IntervalMap :=
  if source = recipient then .error (.splitWorkerUnchanged source)
  else match split : splitIntervals splitAt source recipient map.intervals with
    | none => .error (.splitPointUnavailable splitAt source)
    | some pieces =>
      have built := normalise_built
        (split_intervals_found map.partitions split).1
      .ok ⟨map.totalLength, normalise pieces, built.chain, built.reduced⟩

def released (worker : WorkerId) (interval : Interval) : Interval :=
  if interval.label = .inProgress worker then { interval with label := .pending } else interval

theorem released_chain (worker : WorkerId) (chain : Chain lo hi intervals) :
    Chain lo hi (intervals.map (released worker)) := by
  induction intervals generalizing lo with
  | nil => exact chain
  | cons first rest ih =>
    obtain ⟨start, positive, tail⟩ := chain
    have ends : (released worker first).start = first.start ∧
        (released worker first).stop = first.stop := by
      unfold released
      split <;> exact ⟨rfl, rfl⟩
    exact ⟨by rw [ends.1, start], by rw [ends.2]; exact positive, by rw [ends.2]; exact ih tail⟩

def abandon (map : IntervalMap) (worker : WorkerId) : IntervalMap × Nat :=
  have built := normalise_built
    (released_chain worker map.partitions)
  (⟨map.totalLength, normalise (map.intervals.map (released worker)), built.chain, built.reduced⟩,
    ((map.intervals.filter fun interval => decide (interval.label = .inProgress worker)).map
      Interval.len).sum)

/-! What each mutation does to the state of every byte. -/

theorem new_state (totalLength pos : Nat) :
    (new totalLength).stateAt pos = if pos < totalLength then some .pending else none := by
  by_cases zero : totalLength = 0
  · simp [stateAt, new, zero, labelAt]
  · simp [stateAt, new, zero, labelAt]

theorem state_inside (map : IntervalMap) (pos : Nat) :
    (∃ state, map.stateAt pos = some state) ↔ pos < map.totalLength := by
  constructor
  · rintro ⟨state, found⟩
    by_contra outside
    have missed := label_outside pos map.partitions
      (Or.inr (by omega))
    simp [stateAt, missed] at found
  · exact label_inside map.partitions (Nat.zero_le _)

theorem all_complete_iff (map : IntervalMap) :
    (∀ interval ∈ map.intervals, interval.label = .complete) ↔
      ∀ pos, pos < map.totalLength → map.stateAt pos = some .complete := by
  -- Interval by interval is byte by byte.
  constructor
  · intro every pos inside
    obtain ⟨state, found⟩ := (map.state_inside pos).mpr inside
    obtain ⟨interval, mem, _, same⟩ := label_found found
    rw [found, ← same, every interval mem]
  · intro every interval mem
    have bounds := chain_member_bounds map.partitions mem
    have here := label_member _ map.partitions mem
      ⟨Nat.le_refl _, bounds.2.1⟩
    have done := every interval.start (Nat.lt_of_lt_of_le bounds.2.1 bounds.2.2)
    rw [stateAt, here] at done
    exact Option.some.inj done

theorem range_matches_iff (map : IntervalMap) (valid : ¬ map.Invalid range)
    (predicate : IntervalState → Bool) :
    map.rangeMatches range predicate = true ↔
      ∀ pos, range.start ≤ pos → pos < range.stop →
        ∃ state, map.stateAt pos = some state ∧ predicate state = true := by
  simp only [rangeMatches, List.all_eq_true, List.mem_filter, Bool.and_eq_true, decide_eq_true_eq,
    and_imp]
  constructor
  · intro every pos lower upper
    obtain ⟨state, found⟩ := (map.state_inside pos).mpr (by omega)
    obtain ⟨interval, mem, inside, same⟩ := label_found found
    exact ⟨state, found, same ▸ every interval mem (by omega) (by omega)⟩
  · intro every interval mem before after
    have bounds := chain_member_bounds map.partitions mem
    have inside : interval.start ≤ max interval.start range.start ∧
        max interval.start range.start < interval.stop := by omega
    obtain ⟨state, found, holds⟩ := every (max interval.start range.start) (by omega) (by omega)
    have here := label_member _ map.partitions mem inside
    rw [stateAt, here, Option.some.injEq] at found
    rwa [found]

theorem replace_state (map : IntervalMap) (valid : ¬ map.Invalid range)
    (replacement : IntervalState) (pos : Nat) :
    (map.replaceRange range valid replacement).stateAt pos =
      if range.start ≤ pos ∧ pos < range.stop then some replacement
      else map.stateAt pos :=
  (replace_built replacement
    (by omega) (by omega) (by omega) map.partitions).reads pos

/-- `after` differs from `before` by moving exactly the bytes of `range` from
state `source` to state `target`. -/
structure Moves (before : IntervalMap) (range : Range) (source target : IntervalState)
    (after : IntervalMap) : Prop where
  ordered : range.start < range.stop
  bounded : range.stop ≤ before.totalLength
  held : ∀ pos, range.start ≤ pos → pos < range.stop →
    before.stateAt pos = some source
  totalLength : after.totalLength = before.totalLength
  reads : ∀ pos, after.stateAt pos =
    if range.start ≤ pos ∧ pos < range.stop then some target
    else before.stateAt pos

theorem grant_moves (map after : IntervalMap) (worker : WorkerId)
    (granted : map.grant range worker = .ok after) :
    Moves map range .pending (.inProgress worker) after := by
  unfold grant at granted
  split_ifs at granted with invalid matching
  cases granted
  refine ⟨by omega, by omega, ?_, rfl, map.replace_state invalid _⟩
  intro pos lower upper
  have every := (map.range_matches_iff invalid _).mp matching pos lower upper
  simpa using every

theorem complete_moves (map after : IntervalMap) (range : Range) (worker : WorkerId)
    (completed : map.complete range worker = .ok after) :
    Moves map range (.inProgress worker) .complete after := by
  unfold complete at completed
  split_ifs at completed with invalid matching
  cases completed
  refine ⟨by omega, by omega, ?_, rfl, map.replace_state invalid _⟩
  intro pos lower upper
  have every := (map.range_matches_iff invalid _).mp matching pos lower upper
  simpa using every

theorem grant_pending (map : IntervalMap) (range : Range) (worker : WorkerId)
    (ordered : range.start < range.stop) (bounded : range.stop ≤ map.totalLength)
    (pending : ∀ pos, range.start ≤ pos → pos < range.stop →
      map.stateAt pos = some .pending) :
    ∃ after, map.grant range worker = .ok after := by
  have valid : ¬ map.Invalid range := by omega
  have matching : map.rangeMatches range (fun state => decide (state = .pending)) = true := by
    rw [range_matches_iff map valid]
    intro pos lower upper
    exact ⟨.pending, pending pos lower upper, by simp⟩
  simp [grant, valid, matching]

theorem complete_owned (map : IntervalMap) (range : Range)
    (ordered : range.start < range.stop) (bounded : range.stop ≤ map.totalLength)
    (owned : ∀ pos, range.start ≤ pos → pos < range.stop →
      map.stateAt pos = some (.inProgress worker)) :
    ∃ after, map.complete range worker = .ok after := by
  have valid : ¬ map.Invalid range := by omega
  have matching : map.rangeMatches range
      (fun state => decide (state = .inProgress worker)) = true := by
    rw [range_matches_iff map valid]
    intro pos lower upper
    exact ⟨.inProgress worker, owned pos lower upper, by simp⟩
  simp [complete, valid, matching]

theorem split_moves (map : IntervalMap) (source : WorkerId)
    (split : map.splitInProgress splitAt source recipient = .ok after) :
    source ≠ recipient ∧ ∃ interval ∈ map.intervals, interval.start < splitAt ∧
      interval.label = .inProgress source ∧
      Moves map ⟨splitAt, interval.stop⟩ (.inProgress source) (.inProgress recipient) after := by
  unfold splitInProgress at split
  split at split
  · cases split
  next different =>
    split at split
    · cases split
    next pieces found =>
      cases split
      obtain ⟨chain, interval, mem, left, right, owned, reads⟩ :=
        split_intervals_found map.partitions found
      have bounds := chain_member_bounds map.partitions mem
      refine ⟨different, interval, mem, left, owned, right, bounds.2.2, ?_, rfl, ?_⟩
      · intro pos lower upper
        have held := label_member pos map.partitions mem
          ⟨by simp only at lower; omega, upper⟩
        simpa [stateAt, owned] using held
      · intro pos
        have built := normalise_built chain
        simp only [stateAt, built.reads, reads]

theorem split_intervals_some {splitAt : Nat} {source : WorkerId} (recipient : WorkerId)
    {interval : Interval} (mem : interval ∈ intervals)
    (splittable : interval.start < splitAt ∧ splitAt < interval.stop ∧
      interval.label = .inProgress source) :
    ∃ pieces, splitIntervals splitAt source recipient intervals = some pieces := by
  induction intervals with
  | nil => simp at mem
  | cons first rest ih =>
    by_cases hit : first.start < splitAt ∧ splitAt < first.stop ∧
        first.label = .inProgress source
    · exact ⟨_, if_pos hit⟩
    · rcases List.mem_cons.mp mem with rfl | later
      · exact absurd splittable hit
      · obtain ⟨pieces, found⟩ := ih later
        exact ⟨first :: pieces, by rw [splitIntervals, if_neg hit, found]; rfl⟩

theorem split_available (map : IntervalMap) {splitAt : Nat} {source recipient : WorkerId}
    {interval : Interval} (mem : interval ∈ map.intervals)
    (splittable : interval.start < splitAt ∧ splitAt < interval.stop ∧
      interval.label = .inProgress source) (different : source ≠ recipient) :
    ∃ after, map.splitInProgress splitAt source recipient = .ok after := by
  obtain ⟨pieces, found⟩ := split_intervals_some recipient
    mem splittable
  unfold splitInProgress
  rw [if_neg different]
  split
  next missing =>
    rw [found] at missing
    cases missing
  next => exact ⟨_, rfl⟩

theorem released_label (worker : WorkerId) (intervals : List Interval) (pos : Nat) :
    labelAt (intervals.map (released worker)) pos =
      if labelAt intervals pos = some (.inProgress worker) then some .pending
      else labelAt intervals pos := by
  induction intervals with
  | nil => simp [labelAt]
  | cons first rest ih =>
    by_cases owned : first.label = .inProgress worker
    · simp only [List.map_cons, labelAt, released, owned, ↓reduceIte, ih]
      split_ifs <;> simp_all
    · simp only [List.map_cons, labelAt, released, owned, ↓reduceIte, ih]
      split_ifs <;> simp_all

@[simp]
theorem abandon_total (map : IntervalMap) (worker : WorkerId) :
    (map.abandon worker).1.totalLength = map.totalLength := rfl

theorem abandon_state (map : IntervalMap) (worker : WorkerId) (pos : Nat) :
    (map.abandon worker).1.stateAt pos =
      if map.stateAt pos = some (.inProgress worker) then some .pending
      else map.stateAt pos := by
  have built := normalise_built
    (released_chain worker map.partitions)
  exact (built.reads pos).trans (released_label worker map.intervals pos)

theorem Moves.keeps (moves : Moves before range source target after)
    (pos : Nat) (state : IntervalState) (held : before.stateAt pos = some state)
    (different : state ≠ source) :
    after.stateAt pos = some state := by
  rw [moves.reads, if_neg, held]
  intro inside
  have same := moves.held pos inside.1 inside.2
  rw [held, Option.some.injEq] at same
  exact different same

theorem abandon_keeps (map : IntervalMap) (held : map.stateAt pos = some state)
    (different : state ≠ .inProgress worker) :
    (map.abandon worker).1.stateAt pos = some state := by
  rw [abandon_state, held, if_neg]
  simpa using different

theorem Moves.unchanged (moves : Moves before range source target after)
    (pos : Nat) (state : IntervalState) (notSource : state ≠ source) (notTarget : state ≠ target) :
    after.stateAt pos = some state ↔ before.stateAt pos = some state := by
  constructor
  · intro held
    rw [moves.reads] at held
    split at held
    · exact absurd (Option.some.inj held).symm notTarget
    · exact held
  · intro held
    exact moves.keeps pos state held notSource

theorem abandon_unchanged (map : IntervalMap) (worker : WorkerId) (pos : Nat)
    (state : IntervalState) (notOwned : state ≠ .inProgress worker) (notPending : state ≠ .pending) :
    (map.abandon worker).1.stateAt pos = some state ↔ map.stateAt pos = some state := by
  constructor
  · intro held
    rw [abandon_state] at held
    split at held
    · exact absurd (Option.some.inj held).symm notPending
    · exact held
  · intro held
    exact map.abandon_keeps held notOwned

def completeBytes (map : IntervalMap) : Nat :=
  ((Finset.range map.totalLength).filter fun pos =>
    map.stateAt pos = some .complete).card

theorem complete_bytes_le (map : IntervalMap) : map.completeBytes ≤ map.totalLength := by
  have bound := Finset.card_filter_le (Finset.range map.totalLength) fun pos =>
    map.stateAt pos = some .complete
  rwa [Finset.card_range] at bound

theorem complete_bytes_same (before : IntervalMap)
    (sameLength : after.totalLength = before.totalLength)
    (same : ∀ pos, after.stateAt pos = some .complete ↔
      before.stateAt pos = some .complete) : after.completeBytes = before.completeBytes := by
  unfold completeBytes
  rw [sameLength, Finset.filter_congr fun pos _ => same pos]

theorem complete_bytes_moves (moves : Moves before range source .complete after)
    (incomplete : source ≠ .complete) :
    after.completeBytes = before.completeBytes + (range.stop - range.start) := by
  unfold completeBytes
  have split : (Finset.range after.totalLength).filter
      (fun pos => after.stateAt pos = some .complete) =
      (Finset.range before.totalLength).filter
        (fun pos => before.stateAt pos = some .complete) ∪
          Finset.Ico range.start range.stop := by
    ext pos
    have bounded := moves.bounded
    simp only [Finset.mem_filter, Finset.mem_range, Finset.mem_union, Finset.mem_Ico,
      moves.totalLength, moves.reads]
    by_cases inside : range.start ≤ pos ∧ pos < range.stop
    · have below : pos < before.totalLength := by omega
      simp [inside, below]
    · simp [inside]
  have apart : Disjoint ((Finset.range before.totalLength).filter fun pos =>
      before.stateAt pos = some .complete) (Finset.Ico range.start range.stop) := by
    rw [Finset.disjoint_left]
    intro pos counted inside
    obtain ⟨lower, upper⟩ := Finset.mem_Ico.mp inside
    have held := moves.held pos lower upper
    rw [(Finset.mem_filter.mp counted).2, Option.some.injEq] at held
    exact incomplete held.symm
  rw [split, Finset.card_union_of_disjoint apart, Nat.card_Ico]

end IntervalMap

end Downpour.Intervals
