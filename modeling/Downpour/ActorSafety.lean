import Downpour.Actor

/-!
Safety of the single owner over every order of commands and every I/O failure.
The staged batch always lies inside bytes that the allocator holds for the
recorded worker, so the interval map never rejects a flush, and a durable byte is
never recorded again. An abandoned worker can write again only to bytes that a
later allocation has handed to the same worker id.
-/

namespace Downpour.ActorSafety
open Segments Intervals JournalFormat Allocator Writer CrashDisk Actor

abbrev Apart (left right : Range) : Prop := left.stop ≤ right.start ∨ right.stop ≤ left.start

abbrev Inside (range : Range) (pos : Nat) : Prop :=
  range.start ≤ pos ∧ pos < range.stop

theorem apart_of_unshared (leftOrdered : left.start < left.stop)
    (rightOrdered : right.start < right.stop)
    (unshared : ∀ pos, Inside left pos → ¬ Inside right pos) : Apart left right := by
  by_contra overlap
  exact unshared (max left.start right.start) (by omega) (by omega)

structure Coherent (actor : StateActor) : Prop where
  ordered : ∀ block ∈ actor.writer.staged, block.range.start < block.range.stop
  apart : actor.writer.staged.Pairwise fun left right => Apart left.range right.range
  owned : ∀ block ∈ actor.writer.staged, ∀ pos, Inside block.range pos →
    actor.allocator.intervals.stateAt pos = some (.inProgress block.worker)

structure Recorded (actor : StateActor) (durable : List DurableBlock) : Prop where
  ordered : ∀ block ∈ durable, block.range.start < block.range.stop
  apart : durable.Pairwise fun left right => Apart left.range right.range
  completed : ∀ block ∈ durable, ∀ pos, Inside block.range pos →
    actor.allocator.intervals.stateAt pos = some .complete

theorem coherent_empty (actor : StateActor) (empty : actor.writer.staged = []) : Coherent actor := by
  constructor <;> simp [empty]

variable {actor after : StateActor} {durable : List DurableBlock} {worker : WorkerId}

theorem settles_coherent (coherent : Coherent actor) (settles : Settles actor after durable) :
    Coherent after := by
  cases settles with
  | kept writer same =>
    exact ⟨same ▸ coherent.ordered, same ▸ coherent.apart, same ▸ coherent.owned⟩
  | committed writer next sequence empty owned => exact coherent_empty _ empty

theorem push_coherent (blake3 : List UInt8 → Digest) (now : Nat) (coherent : Coherent actor)
    (ready : StageReady actor.writer actor.allocator.intervals worker offset bytes) :
    Coherent ⟨pushStaged blake3 actor.writer worker offset bytes now, actor.allocator⟩ := by
  obtain ⟨after, owned⟩ := ready.owned
  have moves := actor.allocator.intervals.complete_moves after _ worker owned
  constructor
  · intro block mem
    rcases List.mem_append.mp mem with old | new
    · exact coherent.ordered block old
    · rw [List.mem_singleton.mp new]
      exact moves.ordered
  · refine List.pairwise_append.mpr ⟨coherent.apart, List.pairwise_singleton _ _, ?_⟩
    intro block old fresh new
    rw [List.mem_singleton.mp new]
    exact ready.unstaged block old
  · intro block mem pos inside
    rcases List.mem_append.mp mem with old | new
    · exact coherent.owned block old pos inside
    · rw [List.mem_singleton.mp new] at inside ⊢
      exact moves.held pos inside.1 inside.2

/-! Durable blocks. -/

theorem durable_member {sequence : Nat} {staged : List StagedBlock} {block : DurableBlock}
    (mem : block ∈ durableBlocks sequence staged) :
    ∃ source ∈ staged, block.range = source.range := by
  induction staged generalizing sequence with
  | nil => cases mem
  | cons first rest ih =>
    rcases List.mem_cons.mp mem with same | later
    · exact ⟨first, List.mem_cons_self, same ▸ rfl⟩
    · obtain ⟨source, found, same⟩ := ih later
      exact ⟨source, List.mem_cons_of_mem _ found, same⟩

theorem durable_apart (sequence : Nat)
    (apart : staged.Pairwise fun left right => Apart left.range right.range) :
    (durableBlocks sequence staged).Pairwise fun left right => Apart left.range right.range := by
  induction staged generalizing sequence with
  | nil => exact List.Pairwise.nil
  | cons first rest ih =>
    obtain ⟨front, tail⟩ := List.pairwise_cons.mp apart
    refine List.Pairwise.cons ?_ (ih (sequence + 1) tail)
    intro block later
    obtain ⟨source, mem, same⟩ := durable_member later
    rw [same]
    exact front source mem

theorem settles_recorded (recorded : Recorded actor log) (settles : Settles actor after durable) :
    Recorded after (log ++ durable) := by
  cases settles with
  | kept writer same =>
    rw [List.append_nil]
    exact ⟨recorded.ordered, recorded.apart, recorded.completed⟩
  | committed writer next sequence empty owned =>
    have completes := complete_all_completes _ next _ owned
    constructor
    · intro block mem
      rcases List.mem_append.mp mem with old | new
      · exact recorded.ordered block old
      · obtain ⟨source, found, same⟩ := durable_member new
        exact same ▸ completes.ordered source found
    · refine List.pairwise_append.mpr ⟨recorded.apart, durable_apart _ completes.apart, ?_⟩
      intro block old fresh new
      obtain ⟨source, found, same⟩ := durable_member new
      rw [same]
      apply apart_of_unshared (recorded.ordered block old) (completes.ordered source found)
      -- A recorded byte is complete, a staged one is in progress.
      intro pos inside shared
      have held := completes.owned source found pos shared.1 shared.2
      rw [recorded.completed block old pos inside] at held
      cases held
    · intro block mem pos inside
      rcases List.mem_append.mp mem with old | new
      · exact complete_all_keeps completes pos
          (recorded.completed block old pos inside)
      · obtain ⟨source, found, same⟩ := durable_member new
        rw [same] at inside
        exact completes.completed source found pos inside.1 inside.2

theorem recorded_keeps (recorded : Recorded actor log)
    (keeps : ∀ pos, actor.allocator.intervals.stateAt pos = some .complete →
      after.allocator.intervals.stateAt pos = some .complete) : Recorded after log :=
  ⟨recorded.ordered, recorded.apart, fun block mem pos inside =>
    keeps pos (recorded.completed block mem pos inside)⟩

theorem allocate_keeps (allocator : SegmentAllocator)
    (found : allocator.allocate worker = .ok (allocation, next))
    (pos : Nat) (complete : allocator.intervals.stateAt pos = some .complete) :
    next.intervals.stateAt pos = some .complete := by
  have ended := allocator.allocate_end worker
  rw [found] at ended
  cases ended with
  | none => exact complete
  | granted _ _ _ _ after moves => exact moves.keeps pos .complete complete nofun
  | split _ _ _ _ _ _ _ after moves => exact moves.keeps pos .complete complete nofun

structure Grows (actor after : StateActor) : Prop where
  totalLength : after.allocator.intervals.totalLength = actor.allocator.intervals.totalLength
  complete : ∀ pos, actor.allocator.intervals.stateAt pos = some .complete →
    after.allocator.intervals.stateAt pos = some .complete

theorem settles_grows (settles : Settles actor after durable) : Grows actor after := by
  cases settles with
  | kept writer same => exact ⟨rfl, fun _ complete => complete⟩
  | committed writer next sequence empty owned =>
    have completes := complete_all_completes _ next _ owned
    exact ⟨completes.totalLength, complete_all_keeps completes⟩

theorem allocate_grows (found : fence.allocator.allocate worker = .ok (allocation, next)) :
    Grows fence ⟨fence.writer, next⟩ := by
  refine ⟨?_, allocate_keeps _ found⟩
  have ended := fence.allocator.allocate_end worker
  rw [found] at ended
  cases ended with
  | none => rfl
  | granted _ _ _ _ after moves => exact moves.totalLength
  | split _ _ _ _ _ _ _ after moves => exact moves.totalLength

section Runs
variable (blake3 : List UInt8 → Digest) (crc32c : List UInt8 → UInt32)

variable {actor : StateActor} {command : Command} {served : Served} {io : StageIo}
    {error : IntervalMapError}

theorem handle_grows (ended : HandleEnd blake3 actor command served) :
    Grows actor served.actor := by
  have trans : ∀ middle after : StateActor, Grows actor middle → Grows middle after →
      Grows actor after := fun middle after first second =>
    ⟨second.totalLength.trans first.totalLength, fun pos complete =>
      second.complete pos (first.complete pos complete)⟩
  cases ended with
  | settled _ _ settles => exact settles_grows settles
  | staged worker offset bytes now _ ready settles => exact ⟨(settles_grows settles).1,
      (settles_grows settles).2⟩
  | allocated worker fence durable settles empty allocation next found =>
    exact trans _ _ (settles_grows settles) (allocate_grows found)
  | abandoned worker fence durable settles empty =>
    refine trans _ _ (settles_grows settles) ⟨rfl, ?_⟩
    intro pos complete
    exact IntervalMap.abandon_keeps _ complete nofun

theorem handle_coherent (coherent : Coherent actor) (ended : HandleEnd blake3 actor command served)
    :
    Coherent served.actor := by
  cases ended with
  | settled _ _ settles => exact settles_coherent coherent settles
  | staged worker offset bytes now _ ready settles =>
    exact settles_coherent (push_coherent blake3 _ coherent ready) settles
  | allocated worker fence durable settles empty => exact coherent_empty _ empty
  | abandoned worker fence durable settles empty => exact coherent_empty _ empty

theorem handle_recorded (recorded : Recorded actor log)
    (ended : HandleEnd blake3 actor command served) :
    Recorded served.actor (log ++ served.durable) := by
  cases ended with
  | settled _ _ settles => exact settles_recorded recorded settles
  | staged worker offset bytes now _ ready settles =>
    refine settles_recorded ?_ settles
    exact recorded_keeps recorded fun _ complete => complete
  | allocated worker fence durable settles empty allocation next found =>
    exact recorded_keeps (settles_recorded recorded settles) (allocate_grows found).complete
  | abandoned worker fence durable settles empty =>
    refine recorded_keeps (settles_recorded recorded settles) ?_
    intro pos complete
    exact IntervalMap.abandon_keeps _ complete nofun

structure Safe (service : Service) : Prop where
  coherent : Coherent service.actor
  recorded : Recorded service.actor service.durable

theorem serve_safe (command : Command) (io : StageIo) (safe : Safe service) :
    Safe (service.serve blake3 crc32c command io).2 := by
  unfold Service.serve
  split
  next => exact safe
  next =>
    have ended := handle_end blake3 crc32c service.actor command io
    exact ⟨handle_coherent blake3 safe.coherent ended,
      handle_recorded blake3 safe.recorded ended⟩

theorem run_safe (commands : List (Command × StageIo)) (safe : Safe service) :
    Safe (service.run blake3 crc32c commands) := by
  induction commands generalizing service with
  | nil => exact safe
  | cons next rest ih =>
    exact ih (serve_safe blake3 crc32c next.1 next.2 safe)

theorem serve_refused {service : Service} {error : WriterServiceError}
    (running : service.stopped = false) (other : command ≠ .shutdown)
    (refused : service.actor.handle blake3 crc32c command io = service.actor.refuse error) :
    service.serve blake3 crc32c command io = (.error error, service) := by
  obtain ⟨actor, stopped, trace, durable⟩ := service
  simp only at running refused
  simp [Service.serve, running, refused, other, StateActor.refuse]

/-! The interval map accepts every coherent batch. -/

theorem complete_all_owned (map : IntervalMap)
    (ordered : ∀ block ∈ staged, block.range.start < block.range.stop)
    (apart : staged.Pairwise fun left right => Apart left.range right.range)
    (owned : ∀ block ∈ staged, ∀ pos, Inside block.range pos →
      map.stateAt pos = some (.inProgress block.worker)) :
    ∃ next, completeAll map staged = .ok next := by
  induction staged generalizing map with
  | nil => exact ⟨map, rfl⟩
  | cons first rest ih =>
    have firstOrdered := ordered first List.mem_cons_self
    have firstOwned := owned first List.mem_cons_self
    have last := (map.state_inside (first.range.stop - 1)).mp ⟨_, firstOwned _ (by omega)⟩
    obtain ⟨middle, completed⟩ := map.complete_owned first.range firstOrdered
      (by omega) fun pos lower upper => firstOwned pos ⟨lower, upper⟩
    have moves := map.complete_moves middle _ _ completed
    obtain ⟨front, tail⟩ := List.pairwise_cons.mp apart
    obtain ⟨next, done⟩ := ih middle (fun block later => ordered block (List.mem_cons_of_mem _ later))
      tail fun block later pos inside => by
        have clear := front block later
        rw [moves.reads, if_neg (by omega)]
        exact owned block (List.mem_cons_of_mem _ later) pos inside
    exact ⟨next, by rw [completeAll, completed]; exact done⟩

def FlushReports (io : FlushIo) (error : WriterError) : Prop :=
  io.dataSync = some error ∨ (∃ index landed, io.append index = some (error, landed)) ∨
    io.journalSync = some error

def Reports (io : StageIo) (error : WriterError) : Prop :=
  FlushReports io.flush error ∨ ∃ landed, io.write = some (error, landed)

theorem append_all_error {io : Nat → Option (WriterError × Nat)} {index length : Nat}
    {records : List FramedRecord}
    (failed : (appendAll crc32c io index length records).2.2 = some (.interval error)) :
    ∃ index landed, io index = some (.interval error, landed) := by
  induction records generalizing index length with
  | nil => cases failed
  | cons record rest ih =>
    unfold appendAll at failed
    split at failed
    · cases failed
    next =>
      split at failed
      next reported landed found =>
        cases failed
        exact ⟨index, landed, found⟩
      next =>
        split at failed
        · cases failed
        · exact ih failed

theorem flush_interval_error (coherent : Coherent actor) {io : FlushIo}
    (failed : (Writer.flush crc32c actor.writer actor.allocator.intervals io).result =
      .error (.interval error)) : FlushReports io (.interval error) := by
  obtain ⟨next, accepted⟩ := complete_all_owned actor.allocator.intervals
    coherent.ordered coherent.apart coherent.owned
  unfold Writer.flush at failed
  rw [accepted] at failed
  split at failed
  · cases failed
  next =>
    split at failed
    · cases failed
    next =>
      split at failed
      · cases failed
      next =>
        simp only at failed
        split at failed
        · cases failed
        next =>
          split at failed
          next reported found =>
            cases failed
            exact Or.inl found
          next =>
            split at failed
            next reported found =>
              cases failed
              exact Or.inr (Or.inl (append_all_error crc32c found))
            next =>
              split at failed
              next reported found =>
                cases failed
                exact Or.inr (Or.inr found)
              next => cases failed

theorem fenced_interval_error (coherent : Coherent actor) {io : FlushIo}
    {change : SegmentAllocator → List DurableBlock →
      Except WriterServiceError Receipt × SegmentAllocator} (unchanged : ∀ allocator durable,
      (change allocator durable).1 ≠ .error (.writer (.interval error)))
    (failed : (actor.fenced crc32c io change).reply = .error (.writer (.interval error))) :
    FlushReports io (.interval error) := by
  unfold StateActor.fenced at failed
  simp only at failed
  split at failed
  next reported found =>
    cases failed
    exact flush_interval_error crc32c coherent found
  next => exact absurd failed (unchanged _ _)

theorem write_interval_error (coherent : Coherent actor)
    (failed : (actor.write blake3 crc32c worker offset bytes now io).reply =
      .error (.writer (.interval error))) :
    actor.write blake3 crc32c worker offset bytes now io =
      actor.refuse (.writer (.interval error)) ∨ Reports io (.interval error) := by
  unfold StateActor.write at failed ⊢
  by_cases overflow : offset + bytes.length ≥ 2 ^ 64
  · rw [if_pos overflow] at failed
    cases failed
  rw [if_neg overflow] at failed ⊢
  split at failed
  next reported _ =>
    cases failed
    exact Or.inl rfl
  next after owned =>
    cases checked : stageCheck actor.writer actor.allocator.intervals worker offset bytes with
    | some reported =>
      simp only [stage, stageDurable, checked] at failed ⊢
      cases failed
      exact Or.inl rfl
    | none =>
      have ready := stage_ready checked
      have pushed := push_coherent blake3 now coherent ready
      simp only [stage, checked] at failed
      cases wrote : io.write with
      | some failure =>
        obtain ⟨reported, landed⟩ := failure
        simp only [wrote] at failed
        cases full : noSpaceOffset reported offset with
        | some refused =>
          simp only [full] at failed
          cases failed
        | none =>
          simp only [full] at failed
          cases failed
          exact Or.inr (Or.inr ⟨landed, wrote⟩)
      | none =>
        simp only [wrote] at failed
        by_cases full : (pushStaged blake3 actor.writer worker offset bytes now).stagedBytes ≥
            journalFlushBytes
        · simp only [if_pos full] at failed
          split at failed
          next reported found =>
            cases failed
            exact Or.inr (Or.inl (flush_interval_error crc32c pushed found))
          next => cases failed
        · simp only [if_neg full] at failed
          cases failed

theorem handle_interval_error (coherent : Coherent actor)
    (failed : (actor.handle blake3 crc32c command io).reply = .error (.writer (.interval error))) :
    (command ≠ .shutdown ∧
        actor.handle blake3 crc32c command io = actor.refuse (.writer (.interval error))) ∨
      Reports io (.interval error) := by
  cases command with
  | allocate worker =>
    refine Or.inr (Or.inl (fenced_interval_error crc32c coherent ?_ failed))
    intro allocator durable
    cases allocator.allocate worker <;> exact nofun
  | write worker offset bytes now =>
    rcases write_interval_error blake3 crc32c coherent
      failed with refused | reported
    · exact Or.inl ⟨nofun, refused⟩
    · exact Or.inr reported
  | flush =>
    simp only [StateActor.handle, StateActor.flush] at failed
    split at failed
    next reported found =>
      cases failed
      exact Or.inr (Or.inl (flush_interval_error crc32c coherent found))
    next => cases failed
  | flushIfDue now =>
    simp only [StateActor.handle, StateActor.flushIfDue] at failed
    split at failed
    next reported found =>
      cases failed
      unfold Writer.flushIfDue at found
      split at found
      · cases found
      next =>
        split at found
        · exact Or.inr (Or.inl (flush_interval_error crc32c coherent found))
        · cases found
    next => cases failed
  | abandon worker =>
    exact Or.inr (Or.inl (fenced_interval_error crc32c coherent
      (fun _ _ => by simp) failed))
  | snapshot => cases failed
  | shutdown =>
    exact Or.inr (Or.inl (fenced_interval_error crc32c coherent
      (fun _ _ => by simp) failed))

/-- In every reachable state the staged ranges are disjoint and owned by their
workers. So neither a flush nor a command fails with an interval error, except
where the I/O reports one or a write is refused at once; and no byte is in two
of the blocks made durable during the run. -/
theorem actor_single_owner (dataLength journalLength journalBytes nextSequence capacity : Nat)
    (writer : DurableWriter) (allocator : SegmentAllocator) (service : Service)
    (created : tryNew dataLength journalLength journalBytes nextSequence = .ok writer)
    (started : Service.start writer allocator capacity = .ok service)
    (commands : List (Command × StageIo)) :
    let reached := service.run blake3 crc32c commands
    (reached.actor.writer.staged.Pairwise fun left right => Apart left.range right.range) ∧
      (∀ block ∈ reached.actor.writer.staged, ∀ pos, Inside block.range pos →
        reached.actor.allocator.intervals.stateAt pos = some (.inProgress block.worker)) ∧
      (∀ io error, (Writer.flush crc32c reached.actor.writer reached.actor.allocator.intervals
          io).result = .error (.interval error) → FlushReports io (.interval error)) ∧
      (∀ command io error, (reached.serve blake3 crc32c command io).1 =
          .error (.writer (.interval error)) →
        (reached.serve blake3 crc32c command io).2 = reached ∨ Reports io (.interval error)) ∧
      reached.durable.Pairwise fun left right => Apart left.range right.range := by
  have empty := try_new_unstaged created
  have safeStart : Safe service := by
    unfold Service.start at started
    split at started
    · cases started
    · cases started
      exact ⟨coherent_empty _ empty, by constructor <;> simp⟩
  have safe := run_safe blake3 crc32c commands safeStart
  refine ⟨safe.coherent.apart, safe.coherent.owned, ?_, ?_, safe.recorded.apart⟩
  · intro io error failed
    exact flush_interval_error crc32c safe.coherent failed
  · intro command io error failed
    by_cases running : (service.run blake3 crc32c commands).stopped = true
    · rw [Service.serve, if_pos running] at failed
      cases failed
    · rw [Service.serve, if_neg running] at failed
      rcases handle_interval_error blake3 crc32c safe.coherent failed with
        ⟨other, refused⟩ | reported
      · exact Or.inl (congrArg Prod.snd (serve_refused blake3 crc32c
          (Bool.not_eq_true _ ▸ running) other refused))
      · exact Or.inr reported

end Runs

/-! A four-byte download with I/O that never fails. -/

def calmIo : StageIo := ⟨none, ⟨none, fun _ => none, none⟩⟩

def calmDigest (_ : List UInt8) : Digest := List.Vector.replicate 32 0

def calmChecksum (_ : List UInt8) : UInt32 := 0

def fourBytes : Service :=
  ⟨⟨⟨4, 0, 0, [], 0, none, false, none, 0⟩, ⟨IntervalMap.new 4, 1, Nat.one_pos⟩⟩, false, [], []⟩

/-- Two workers share the four bytes; each stages one byte before a flush. -/
def sharedCommands : List (Command × StageIo) :=
  [(.allocate 0, calmIo), (.allocate 1, calmIo), (.write 0 0 [7] 0, calmIo),
    (.write 1 2 [8] 0, calmIo), (.flush, calmIo), (.write 1 3 [9] 0, calmIo)]

theorem actor_single_owner_shared :
    ((fourBytes.run calmDigest calmChecksum sharedCommands).durable.map DurableBlock.range =
        [⟨0, 1⟩, ⟨2, 3⟩]) ∧
      (fourBytes.run calmDigest calmChecksum sharedCommands).durable.Pairwise
        fun left right => Apart left.range right.range :=
  ⟨by decide +kernel, (actor_single_owner calmDigest calmChecksum 4 4 0 0 1 _ _ fourBytes rfl rfl
    sharedCommands).2.2.2.2⟩

end Downpour.ActorSafety
