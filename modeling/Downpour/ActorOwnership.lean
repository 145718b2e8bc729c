import Downpour.ActorSafety

/-!
Which bytes a worker owns, and which of them are not staged yet. A worker that
writes in order keeps its bytes in one piece with the staged ones in front. Every
command of the actor is described by its effect on owned and free bytes, so that
proofs about the users of the actor need no interval map.
-/

namespace Downpour.ActorOwnership
open Segments Intervals JournalFormat Allocator Writer Actor ActorSafety

def Owns (actor : StateActor) (worker : WorkerId) (pos : Nat) : Prop :=
  actor.allocator.intervals.stateAt pos = some (.inProgress worker)

def Staged (actor : StateActor) (pos : Nat) : Prop :=
  ∃ block ∈ actor.writer.staged, Inside block.range pos

def Free (actor : StateActor) (worker : WorkerId) (pos : Nat) : Prop :=
  Owns actor worker pos ∧ ¬ Staged actor pos

/-- Each worker owns one piece, and what it has staged is the front of it. -/
structure Lined (actor : StateActor) : Prop where
  coherent : Coherent actor
  convex : ∀ worker first middle last, first ≤ middle → middle ≤ last →
    Owns actor worker first → Owns actor worker last → Owns actor worker middle
  front : ∀ worker first last, first ≤ last → Free actor worker first →
    Owns actor worker last → Free actor worker last

theorem owner_unique
    (leftOwns : Owns actor left pos) (rightOwns : Owns actor right pos) : left = right := by
  rw [Owns, leftOwns] at rightOwns
  cases rightOwns
  rfl

theorem free_unstaged (actor : StateActor) (empty : actor.writer.staged = []) (worker : WorkerId)
    (pos : Nat) : Free actor worker pos ↔ Owns actor worker pos := by
  simp [Free, Staged, empty]

theorem lined_unstaged (empty : actor.writer.staged = [])
    (convex : ∀ worker first middle last, first ≤ middle → middle ≤ last →
      Owns actor worker first → Owns actor worker last → Owns actor worker middle) : Lined actor := by
  -- Without a batch only the pieces matter.
  refine ⟨coherent_empty actor empty, convex, ?_⟩
  intro worker first last _ _ owned
  exact (free_unstaged actor empty worker last).mpr owned

/-! A batch that settles. -/

theorem settles_owns (actor : StateActor) (durable : List DurableBlock)
    (settles : Settles actor after durable) (worker : WorkerId) (pos : Nat) :
    (Owns after worker pos → Owns actor worker pos) ∧
      (Free after worker pos ↔ Free actor worker pos) := by
  cases settles with
  | kept writer same => simp [Free, Owns, Staged, same]
  | committed writer next sequence empty owned =>
    have completes := complete_all_completes _ next _ owned
    rw [free_unstaged _ empty]
    have reads : Owns ⟨writer, { actor.allocator with intervals := next }⟩ worker pos ↔
        Free actor worker pos := by
      by_cases covered : Staged actor pos
      · obtain ⟨block, mem, inside⟩ := covered
        have completed := completes.completed block mem pos inside.1 inside.2
        constructor
        · intro held
          rw [Owns, completed] at held
          cases held
        · intro free
          exact absurd ⟨block, mem, inside⟩ free.2
      · have same := completes.others pos fun block mem inside =>
          covered ⟨block, mem, inside⟩
        simp only [Owns, Free, same, covered, not_false_eq_true, and_true]
    exact ⟨fun held => (reads.mp held).1, reads⟩

theorem settles_lined
    (lined : Lined actor) (settles : Settles actor after durable) : Lined after := by
  have owns := settles_owns actor durable settles
  refine ⟨settles_coherent lined.coherent settles, ?_, ?_⟩
  · cases settles with
    | kept writer same => exact lined.convex
    | committed writer next sequence empty owned =>
      intro worker first middle last lower upper firstOwned lastOwned
      rw [← free_unstaged _ empty] at firstOwned lastOwned ⊢
      rw [(owns worker _).2] at firstOwned lastOwned ⊢
      exact lined.front worker first middle lower firstOwned
        (lined.convex worker first middle last lower upper firstOwned.1 lastOwned.1)
  · intro worker first last lower free owned
    rw [(owns worker _).2] at free ⊢
    exact lined.front worker first last lower free ((owns worker last).1 owned)

/-! A block that joins the batch. -/

section Push
variable (blake3 : List UInt8 → Digest) (actor : StateActor) (worker : WorkerId) (offset : Nat)
  (bytes : List UInt8) (now : Nat)

def pushed : StateActor := ⟨pushStaged blake3 actor.writer worker offset bytes now, actor.allocator⟩

theorem push_staged (pos : Nat) :
    Staged (pushed blake3 actor worker offset bytes now) pos ↔
      Staged actor pos ∨ Inside ⟨offset, offset + bytes.length⟩ pos := by
  simp only [Staged, pushed, pushStaged, List.mem_append, List.mem_singleton, or_and_right,
    exists_or, exists_eq_left]

theorem push_free (other : WorkerId) (pos : Nat) :
    Free (pushed blake3 actor worker offset bytes now) other pos ↔
      Free actor other pos ∧ ¬ Inside ⟨offset, offset + bytes.length⟩ pos := by
  simp only [Free, push_staged, not_or]
  exact and_assoc.symm

theorem ready_free (ready : StageReady actor.writer actor.allocator.intervals worker offset bytes)
    (pos : Nat) (inside : Inside ⟨offset, offset + bytes.length⟩ pos) :
    Free actor worker pos := by
  obtain ⟨after, owned⟩ := ready.owned
  have moves := actor.allocator.intervals.complete_moves after _ worker owned
  refine ⟨moves.held pos inside.1 inside.2, ?_⟩
  rintro ⟨block, mem, covered⟩
  have clear := ready.unstaged block mem
  simp only [Inside] at inside
  omega

theorem push_lined (lined : Lined actor)
    (ready : StageReady actor.writer actor.allocator.intervals worker offset bytes)
    (first : ∀ pos, Free actor worker pos → offset ≤ pos) :
    Lined (pushed blake3 actor worker offset bytes now) := by
  refine ⟨push_coherent blake3 now lined.coherent ready, lined.convex, ?_⟩
  intro other lower upper ordered free owned
  rw [push_free] at free ⊢
  refine ⟨lined.front other lower upper ordered free.1 owned, ?_⟩
  intro inside
  have same := owner_unique
    (ready_free actor worker offset bytes ready upper inside).1 owned
  subst same
  have start := first lower free.1
  have outside := free.2
  simp only [Inside] at inside outside
  omega

end Push

/-! Changes of ownership, with the batch already settled. -/

theorem abandon_owns (actor : StateActor) (worker other : WorkerId) (pos : Nat) :
    Owns ⟨actor.writer, (actor.allocator.abandon worker).1⟩ other pos ↔
      other ≠ worker ∧ Owns actor other pos := by
  simp only [Owns, SegmentAllocator.abandon, IntervalMap.abandon_state]
  by_cases held : actor.allocator.intervals.stateAt pos = some (.inProgress worker)
  · simp only [held, ↓reduceIte, Option.some.injEq, IntervalState.inProgress.injEq]
    constructor
    · intro impossible
      cases impossible
    · rintro ⟨different, same⟩
      exact absurd same.symm different
  · simp only [held, ↓reduceIte, ne_eq]
    constructor
    · intro owned
      refine ⟨?_, owned⟩
      rintro rfl
      exact held owned
    · exact And.right

variable {actor : StateActor} {worker : WorkerId} {next : SegmentAllocator}

theorem abandon_lined (worker : WorkerId) (empty : actor.writer.staged = []) (lined : Lined actor) :
    Lined ⟨actor.writer, (actor.allocator.abandon worker).1⟩ := by
  refine lined_unstaged empty ?_
  intro other first middle last lower upper firstOwned lastOwned
  rw [abandon_owns] at firstOwned lastOwned ⊢
  exact ⟨firstOwned.1, lined.convex other first middle last lower upper firstOwned.2 lastOwned.2⟩

theorem owned_interval (lined : Lined actor) (mem : interval ∈ actor.allocator.intervals.intervals)
    (label : interval.label = .inProgress worker) (pos : Nat) :
    Owns actor worker pos ↔ Inside ⟨interval.start, interval.stop⟩ pos := by
  have chain := actor.allocator.intervals.partitions
  have bounds := chain_member_bounds chain mem
  have inside : ∀ pos, Inside ⟨interval.start, interval.stop⟩ pos →
      Owns actor worker pos := by
    intro pos within
    rw [Owns, ← label]
    exact label_member _ chain mem within
  -- Two owned neighbours lie in one interval, so the piece cannot go on behind an end.
  have joined : ∀ pos, Owns actor worker pos → Owns actor worker (pos + 1) →
      (Inside ⟨interval.start, interval.stop⟩ pos ↔
        Inside ⟨interval.start, interval.stop⟩ (pos + 1)) := by
    intro pos left right
    obtain ⟨segment, found, starts, stops, _⟩ := reduced_joined chain
      actor.allocator.intervals.merged left right
    constructor
    · intro within
      have same := chain_member_unique chain found mem pos
        ⟨starts, by omega⟩ within
      subst same
      exact ⟨by omega, stops⟩
    · intro within
      have same := chain_member_unique chain found mem (pos + 1)
        ⟨by omega, stops⟩ within
      subst same
      exact ⟨starts, by omega⟩
  refine ⟨?_, inside pos⟩
  intro owned
  by_contra outside
  simp only [Inside] at outside joined
  have ordered := bounds.2.1
  by_cases before : pos < interval.start
  · have previous := lined.convex worker pos (interval.start - 1) interval.start (by omega)
      (by omega) owned (inside _ ⟨Nat.le_refl _, ordered⟩)
    have first : Owns actor worker (interval.start - 1 + 1) := by
      rw [Nat.sub_add_cancel (by omega)]
      exact inside _ ⟨Nat.le_refl _, ordered⟩
    have shared := (joined _ previous first).mpr (by omega)
    omega
  · have last := inside (interval.stop - 1) ⟨by simp only; omega, by simp only; omega⟩
    have next := lined.convex worker (interval.stop - 1) (interval.stop - 1 + 1) pos (by omega)
      (by omega) last owned
    have shared := (joined _ last next).mp (by omega)
    omega

theorem interval_unique (lined : Lined actor)
    (leftMember : left ∈ actor.allocator.intervals.intervals)
    (rightMember : right ∈ actor.allocator.intervals.intervals)
    (leftLabel : left.label = .inProgress worker) (rightLabel : right.label = .inProgress worker) :
    left = right := by
  have chain := actor.allocator.intervals.partitions
  have bounds := chain_member_bounds chain leftMember
  have first : Inside ⟨left.start, left.stop⟩ left.start := ⟨Nat.le_refl _, bounds.2.1⟩
  have owned := (owned_interval lined leftMember leftLabel left.start).mpr first
  have shared := (owned_interval lined rightMember rightLabel left.start).mp owned
  exact chain_member_unique chain leftMember rightMember left.start first shared

structure Holds (actor : StateActor) (grant : Grant) : Prop where
  ordered : grant.range.start < grant.range.stop
  owned : ∀ pos, Owns actor grant.worker pos ↔ Inside grant.range pos

theorem holds_apart (leftHolds : Holds actor left)
    (rightHolds : Holds actor right) (different : left.worker ≠ right.worker) :
    Apart left.range right.range := by
  apply apart_of_unshared leftHolds.ordered rightHolds.ordered
  intro pos leftInside rightInside
  exact different (owner_unique ((leftHolds.owned pos).mpr leftInside)
    ((rightHolds.owned pos).mpr rightInside))

/-- An allocation makes its recipient the holder of the grant, and a source that
was split the holder of what is left to it. -/
structure Allocates (actor : StateActor) (worker : WorkerId) (allocation : Allocation)
    (after : StateActor) : Prop where
  recipient : allocation.grant.worker = worker
  granted : Holds after allocation.grant
  shortened : ∀ grant, allocation.shortened = some grant → Holds after grant
  others : ∀ other, other ≠ worker →
    (∀ grant, allocation.shortened = some grant → grant.worker ≠ other) →
    ∀ pos, Owns after other pos ↔ Owns actor other pos

theorem moves_owns (writer : DurableWriter) {range : Range}
    {source : IntervalState} {next : IntervalMap}
    (moves : IntervalMap.Moves actor.allocator.intervals range source (.inProgress worker) next)
    (other : WorkerId) (pos : Nat) :
    Owns ⟨writer, { actor.allocator with intervals := next }⟩ other pos ↔
      if Inside range pos then other = worker else Owns actor other pos := by
  by_cases inside : Inside range pos
  · rw [if_pos inside, Owns, moves.reads, if_pos inside, Option.some.injEq,
      IntervalState.inProgress.injEq]
    exact eq_comm
  · rw [if_neg inside, Owns, moves.reads, if_neg inside, Owns]

theorem unowned_worker (free : actor.allocator.owns worker = false)
    (pos : Nat) : ¬ Owns actor worker pos := by
  intro owned
  rw [(actor.allocator.owns_iff worker).mpr ⟨pos, owned⟩] at free
  cases free

theorem allocate_allocates (lined : Lined actor)
    (found : actor.allocator.allocate worker = .ok (some allocation, next)) :
    Allocates actor worker allocation ⟨actor.writer, next⟩ := by
  have ended := actor.allocator.allocate_end worker
  rw [found] at ended
  cases ended with
  | granted free interval mem pending after moves =>
    have owns := moves_owns actor.writer moves
    have unowned := unowned_worker free
    refine ⟨rfl, ⟨moves.ordered, ?_⟩, by simp, ?_⟩
    · intro pos
      rw [owns]
      by_cases inside : Inside ⟨interval.start, interval.stop⟩ pos
      · rw [if_pos inside]
        exact iff_of_true rfl inside
      · rw [if_neg inside]
        exact iff_of_false (unowned pos) inside
    · intro other different _ pos
      rw [owns]
      by_cases inside : Inside ⟨interval.start, interval.stop⟩ pos
      · have held := moves.held pos inside.1 inside.2
        rw [if_pos inside, Owns, held]
        exact iff_of_false different (by simp)
      · rw [if_neg inside]
  | split free interval source splitAt mem owned left after moves =>
    have owns := moves_owns actor.writer moves
    have unowned := unowned_worker free
    have piece := owned_interval lined mem owned
    have right := moves.ordered
    refine ⟨rfl, ⟨moves.ordered, ?_⟩, ?_, ?_⟩
    · intro pos
      rw [owns]
      by_cases inside : Inside ⟨splitAt, interval.stop⟩ pos
      · rw [if_pos inside]
        exact iff_of_true rfl inside
      · rw [if_neg inside]
        exact iff_of_false (unowned pos) inside
    · rintro grant shortened
      cases shortened
      refine ⟨left, ?_⟩
      intro pos
      have different : source ≠ worker := by
        rintro rfl
        exact unowned interval.start ((piece interval.start).mpr
          ⟨Nat.le_refl _, Nat.lt_trans left right⟩)
      rw [owns]
      by_cases inside : Inside ⟨splitAt, interval.stop⟩ pos
      · rw [if_pos inside]
        simp only [Inside] at inside ⊢
        exact iff_of_false different (by omega)
      · rw [if_neg inside, piece]
        simp only [Inside] at inside ⊢ right
        omega
    · intro other different elsewhere pos
      rw [owns]
      by_cases inside : Inside ⟨splitAt, interval.stop⟩ pos
      · have held := moves.held pos inside.1 inside.2
        rw [if_pos inside]
        refine iff_of_false different fun also => ?_
        exact elsewhere _ rfl (owner_unique held also)
      · rw [if_neg inside]

theorem allocate_lined (lined : Lined actor) (empty : actor.writer.staged = [])
    (found : actor.allocator.allocate worker = .ok (allocation, next)) :
    Lined ⟨actor.writer, next⟩ := by
  refine lined_unstaged empty ?_
  intro other first middle last lower upper firstOwned lastOwned
  have convex : ∀ grant, Holds ⟨actor.writer, next⟩ grant → grant.worker = other →
      Owns ⟨actor.writer, next⟩ other middle := by
    rintro grant holds rfl
    rw [holds.owned] at firstOwned lastOwned ⊢
    exact ⟨Nat.le_trans firstOwned.1 lower, Nat.lt_of_le_of_lt upper lastOwned.2⟩
  cases allocation with
  | none =>
    have ended := actor.allocator.allocate_end worker
    rw [found] at ended
    cases ended with
    | none => exact lined.convex other first middle last lower upper firstOwned lastOwned
  | some allocation =>
    have allocates := allocate_allocates lined found
    by_cases recipient : allocation.grant.worker = other
    · exact convex _ allocates.granted recipient
    by_cases shortened : ∃ grant, allocation.shortened = some grant ∧ grant.worker = other
    · obtain ⟨grant, found, same⟩ := shortened
      exact convex grant (allocates.shortened grant found) same
    · have same := allocates.others other (allocates.recipient ▸ Ne.symm recipient)
        fun grant found owner => shortened ⟨grant, found, owner⟩
      rw [same] at firstOwned lastOwned ⊢
      exact lined.convex other first middle last lower upper firstOwned lastOwned

/-! What a command completes. -/

def Complete (actor : StateActor) (pos : Nat) : Prop :=
  actor.allocator.intervals.stateAt pos = some .complete

def Writes (command : Command) (worker : WorkerId) : Prop :=
  ∃ offset bytes now, command = .write worker offset bytes now

/-- The actor after a command. Bytes become complete out of the batch or out of the
write that is served; bytes lose their owner by completion or when it is abandoned. -/
structure Serves (actor : StateActor) (command : Command) (after : StateActor) : Prop where
  staged : ∀ block ∈ after.writer.staged, block ∈ actor.writer.staged ∨
    Writes command block.worker ∧ ∃ pos, Owns actor block.worker pos
  completed : ∀ pos, Complete after pos → Complete actor pos ∨
    ∃ worker, Owns actor worker pos ∧
      ((∃ block ∈ actor.writer.staged, block.worker = worker) ∨ Writes command worker)
  owned : (∀ worker, command ≠ .allocate worker) → ∀ worker pos,
    Owns after worker pos → Owns actor worker pos
  held : (∀ worker, command ≠ .allocate worker) → ∀ worker, command ≠ .abandon worker →
    ∀ pos, Owns actor worker pos → Owns after worker pos ∨ Complete after pos

theorem settles_completes (settles : Settles actor after durable) :
    (∀ block ∈ after.writer.staged, block ∈ actor.writer.staged) ∧
      (∀ pos, Complete after pos → Complete actor pos ∨ Staged actor pos) ∧
      ∀ worker pos, Owns actor worker pos → Owns after worker pos ∨ Complete after pos := by
  cases settles with
  | kept writer same =>
    exact ⟨fun block mem => same ▸ mem, fun _ complete => Or.inl complete,
      fun _ _ owned => Or.inl owned⟩
  | committed writer next sequence empty owned =>
    have completes := complete_all_completes _ next _ owned
    have others : ∀ pos, ¬ Staged actor pos →
        next.stateAt pos = actor.allocator.intervals.stateAt pos := by
      intro pos unstaged
      exact completes.others pos fun block mem inside => unstaged ⟨block, mem, inside⟩
    refine ⟨by simp [empty], ?_, ?_⟩
    · intro pos complete
      by_cases staged : Staged actor pos
      · exact Or.inr staged
      · exact Or.inl ((others pos staged).symm.trans complete)
    · intro worker pos held
      by_cases staged : Staged actor pos
      · obtain ⟨block, mem, inside⟩ := staged
        exact Or.inr (completes.completed block mem pos inside.1 inside.2)
      · exact Or.inl ((others pos staged).trans held)

theorem staged_owned (coherent : Coherent actor) (staged : Staged actor pos) :
    ∃ worker, Owns actor worker pos ∧ ∃ block ∈ actor.writer.staged, block.worker = worker := by
  obtain ⟨block, mem, inside⟩ := staged
  exact ⟨block.worker, coherent.owned block mem pos inside, block, mem, rfl⟩

theorem settles_serves
    (coherent : Coherent actor) (settles : Settles actor after durable) (command : Command) :
    Serves actor command after := by
  obtain ⟨fewer, completed, held⟩ := settles_completes settles
  refine ⟨fun block mem => Or.inl (fewer block mem), ?_, ?_, ?_⟩
  · intro pos complete
    refine (completed pos complete).imp_right fun staged => ?_
    obtain ⟨worker, owned, block⟩ := staged_owned coherent staged
    exact ⟨worker, owned, Or.inl block⟩
  · exact fun _ worker pos => (settles_owns actor durable settles worker pos).1
  · exact fun _ worker _ pos => held worker pos

theorem allocate_complete {allocator : SegmentAllocator}
    (found : allocator.allocate worker = .ok (allocation, next)) {pos : Nat}
    (complete : next.intervals.stateAt pos = some .complete) :
    allocator.intervals.stateAt pos = some .complete := by
  have ended := allocator.allocate_end worker
  rw [found] at ended
  cases ended with
  | none => exact complete
  | granted _ _ _ _ after moves => exact (moves.unchanged pos .complete nofun nofun).mp complete
  | split _ _ _ _ _ _ _ after moves => exact (moves.unchanged pos .complete nofun nofun).mp complete

theorem handle_serves (coherent : Coherent actor) (ended : HandleEnd blake3 actor command served) :
    Serves actor command served.actor := by
  cases ended with
  | settled _ _ settles => exact settles_serves coherent settles command
  | staged worker offset bytes now _ ready settles =>
    have writes : Writes (.write worker offset bytes now) worker := ⟨offset, bytes, now, rfl⟩
    have taken := ready_free actor worker offset bytes ready
    have positive := ready.positive
    have first : Owns actor worker offset := (taken offset ⟨by simp, by simp; omega⟩).1
    obtain ⟨fewer, completed, held⟩ := settles_completes settles
    -- The batch before the commit has this block in addition.
    refine ⟨?_, ?_, ?_, ?_⟩
    · intro block mem
      rcases List.mem_append.mp (fewer block mem) with old | new
      · exact Or.inl old
      · rw [List.mem_singleton.mp new]
        exact Or.inr ⟨writes, offset, first⟩
    · intro pos complete
      rcases completed pos complete with was | ⟨block, mem, inside⟩
      · exact Or.inl was
      refine Or.inr ?_
      rcases List.mem_append.mp mem with old | new
      · exact ⟨block.worker, coherent.owned block old pos inside, Or.inl ⟨block, old, rfl⟩⟩
      · rw [List.mem_singleton.mp new] at inside
        exact ⟨worker, (taken pos inside).1, Or.inr writes⟩
    · exact fun _ other pos => (settles_owns _ _ settles other pos).1
    · exact fun _ other _ pos => held other pos
  | allocated worker fence durable settles empty allocation next found events =>
    have fenced := settles_serves coherent settles (.allocate worker)
    refine ⟨by simp [empty], ?_, fun other => absurd rfl (other worker),
      fun other => absurd rfl (other worker)⟩
    intro pos complete
    exact fenced.completed pos (allocate_complete found complete)
  | abandoned worker fence durable settles empty events =>
    have fenced := settles_serves coherent settles (.abandon worker)
    refine ⟨by simp [empty], ?_, ?_, ?_⟩
    · intro pos complete
      exact fenced.completed pos
        ((fence.allocator.intervals.abandon_unchanged worker pos .complete nofun nofun).mp complete)
    · intro other owner pos owned
      exact fenced.owned other owner pos ((abandon_owns fence worker owner pos).mp owned).2
    · intro _ owner different pos owned
      rcases (settles_completes settles).2.2 owner pos owned with kept | complete
      · refine Or.inl ((abandon_owns fence worker owner pos).mpr ⟨?_, kept⟩)
        rintro rfl
        exact different rfl
      · exact Or.inr (IntervalMap.abandon_keeps _ complete nofun)

end Downpour.ActorOwnership
