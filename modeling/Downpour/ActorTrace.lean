import Downpour.ActorOwnership

/-!
What the commands of the actor do to the disk: nothing, one flush, or one block
that is staged. Only the block of a write reaches the part file, and only bytes of
the batch or of that block can become complete.
-/

namespace Downpour.ActorTrace
open Segments Intervals JournalFormat Allocator Writer CrashDisk Actor ActorSafety ActorOwnership

section Commands
variable (blake3 : List UInt8 → Digest) (crc32c : List UInt8 → UInt32)

inductive Trail (actor : StateActor) (command : Command) (io : StageIo) (served : Served) :
    Prop where
  | idle (events : served.events = []) (writer : served.actor.writer = actor.writer)
      (complete : ∀ pos, Complete served.actor pos ↔ Complete actor pos)
  | flushed
      (events : served.events =
        (Writer.flush crc32c actor.writer actor.allocator.intervals io.flush).events)
      (writer : served.actor.writer =
        (Writer.flush crc32c actor.writer actor.allocator.intervals io.flush).writer)
      (complete : ∀ pos, Complete served.actor pos ↔ Complete (actor.after
        (Writer.flush crc32c actor.writer actor.allocator.intervals io.flush)) pos)
  | staged (worker : WorkerId) (offset : Nat) (bytes : List UInt8) (now : Nat)
      (asked : command = .write worker offset bytes now)
      (events : served.events = (stage blake3 crc32c actor.writer actor.allocator.intervals worker
        offset bytes now io).events)
      (after : served.actor = actor.after (stage blake3 crc32c actor.writer
        actor.allocator.intervals worker offset bytes now io))

theorem fenced_trail (actor : StateActor) (command : Command) (io : StageIo)
    (keeps : ∀ allocator durable pos,
      (change allocator durable).2.intervals.stateAt pos = some .complete ↔
        allocator.intervals.stateAt pos = some .complete) :
    Trail blake3 crc32c actor command io (actor.fenced crc32c io.flush change) := by
  have shape : (actor.fenced crc32c io.flush change).events =
        (Writer.flush crc32c actor.writer actor.allocator.intervals io.flush).events ∧
      (actor.fenced crc32c io.flush change).actor.writer =
        (Writer.flush crc32c actor.writer actor.allocator.intervals io.flush).writer ∧
      ∀ pos, Complete (actor.fenced crc32c io.flush change).actor pos ↔
        Complete (actor.after
          (Writer.flush crc32c actor.writer actor.allocator.intervals io.flush)) pos := by
    unfold StateActor.fenced
    cases Writer.flush crc32c actor.writer actor.allocator.intervals io.flush with
    | mk result writer intervals events failed =>
      cases result with
      | error error => exact ⟨rfl, rfl, fun _ => Iff.rfl⟩
      | ok durable => exact ⟨rfl, rfl, fun pos => keeps _ durable pos⟩
  exact Trail.flushed shape.1 shape.2.1 shape.2.2

theorem handle_trail (actor : StateActor) (command : Command) (io : StageIo) :
    Trail blake3 crc32c actor command io (actor.handle blake3 crc32c command io) := by
  cases command with
  | allocate worker =>
    simp only [StateActor.handle, StateActor.allocate]
    apply fenced_trail
    intro allocator durable pos
    cases found : allocator.allocate worker with
    | error error => rfl
    | ok result =>
      exact ⟨allocate_complete found, allocate_keeps allocator found pos⟩
  | write worker offset bytes now =>
    simp only [StateActor.handle, StateActor.write]
    split
    next => exact Trail.idle rfl rfl fun _ => Iff.rfl
    next =>
      split
      next => exact Trail.idle rfl rfl fun _ => Iff.rfl
      next => exact Trail.staged worker offset bytes now rfl rfl rfl
  | flush => exact Trail.flushed rfl rfl fun _ => Iff.rfl
  | flushIfDue now =>
    rcases flush_if_due_end crc32c actor.writer actor.allocator.intervals now io.flush with
      ⟨result, idle⟩ | flushed
    · simp only [StateActor.handle, StateActor.flushIfDue, idle]
      exact Trail.idle rfl rfl fun _ => Iff.rfl
    · simp only [StateActor.handle, StateActor.flushIfDue, flushed]
      exact Trail.flushed rfl rfl fun _ => Iff.rfl
  | abandon worker =>
    simp only [StateActor.handle, StateActor.abandon]
    apply fenced_trail
    intro allocator durable pos
    exact allocator.intervals.abandon_unchanged worker pos .complete (by simp) (by simp)
  | snapshot => exact Trail.idle rfl rfl fun _ => Iff.rfl
  | shutdown =>
    simp only [StateActor.handle, StateActor.shutdown]
    apply fenced_trail
    exact fun _ _ _ => Iff.rfl

/-! The part file. -/

def Wrote (command : Command) (served : Served) (pos : Nat) : Prop :=
  ∃ worker offset bytes now, command = .write worker offset bytes now ∧
    Inside ⟨offset, offset + bytes.length⟩ pos ∧ Event.write offset bytes ∈ served.events

/-- A command touches the part file only with the block of a write, and what it
stages or completes was staged before or is written by it. -/
structure Places (actor : StateActor) (command : Command) (served : Served) : Prop where
  data : ∀ event ∈ served.events, ¬ KeepsData event → ∃ worker offset bytes now,
    command = .write worker offset bytes now ∧
      (event = .write offset bytes ∨ ∃ landed, event = .writeFailed offset bytes landed)
  staged : ∀ pos, Staged served.actor pos →
    Staged actor pos ∨ Wrote command served pos
  completed : ∀ pos, Complete served.actor pos → Complete actor pos ∨
    Staged actor pos ∨ Wrote command served pos

theorem flush_places (actor : StateActor)
    (ended : FlushEnd crc32c actor.writer actor.allocator.intervals outcome) :
    (∀ pos, Staged (actor.after outcome) pos → Staged actor pos) ∧
      ∀ pos, Complete (actor.after outcome) pos → Complete actor pos ∨ Staged actor pos := by
  obtain ⟨fewer, completed, _⟩ := settles_completes (flush_settles crc32c actor ended).1
  refine ⟨?_, completed⟩
  rintro pos ⟨block, mem, inside⟩
  exact ⟨block, fewer block mem, inside⟩

theorem pushed_staged (actor : StateActor) (worker : WorkerId) (offset : Nat) (bytes : List UInt8)
    (now pos : Nat) (staged : Staged (pushed blake3 actor worker offset bytes now) pos) :
    Staged actor pos ∨ Inside ⟨offset, offset + bytes.length⟩ pos := by
  obtain ⟨block, mem, inside⟩ := staged
  rcases List.mem_append.mp mem with old | new
  · exact Or.inl ⟨block, old, inside⟩
  · rw [List.mem_singleton.mp new] at inside
    exact Or.inr inside

theorem still_places (actor : StateActor) (command : Command) (events : served.events = [])
    (staged : ∀ pos, Staged served.actor pos → Staged actor pos)
    (complete : ∀ pos, Complete served.actor pos → Complete actor pos) :
    Places actor command served :=
  ⟨by simp [events], fun pos before => Or.inl (staged pos before),
    fun pos done => Or.inl (complete pos done)⟩

/-- The write that fails touches the part file, and the batch may be flushed behind it. -/
theorem failed_places (events : served.events = .writeFailed offset bytes landed :: later)
    (keeps : ∀ event ∈ later, KeepsData event)
    (staged : ∀ pos, Staged served.actor pos → Staged actor pos)
    (complete : ∀ pos, Complete served.actor pos → Complete actor pos ∨ Staged actor pos) :
    Places actor (.write worker offset bytes now) served := by
  refine ⟨?_, fun pos before => Or.inl (staged pos before),
    fun pos done => (complete pos done).imp_right Or.inl⟩
  intro event mem touching
  rw [events] at mem
  rcases List.mem_cons.mp mem with rfl | behind
  · exact ⟨worker, offset, bytes, now, rfl, Or.inr ⟨landed, rfl⟩⟩
  · exact absurd (keeps event behind) touching

/-- The block is written and joins the batch, which may be flushed behind it. -/
theorem written_places (events : served.events = .write offset bytes :: later)
    (keeps : ∀ event ∈ later, KeepsData event)
    (staged : ∀ pos, Staged served.actor pos →
      Staged (pushed blake3 actor worker offset bytes now) pos)
    (complete : ∀ pos, Complete served.actor pos →
      Complete actor pos ∨ Staged (pushed blake3 actor worker offset bytes now) pos) :
    Places actor (.write worker offset bytes now) served := by
  have placed : ∀ pos, Staged (pushed blake3 actor worker offset bytes now) pos →
      Staged actor pos ∨ Wrote (.write worker offset bytes now) served pos := by
    intro pos joined
    refine (pushed_staged blake3 actor worker offset bytes now pos joined).imp_right fun inside => ?_
    exact ⟨worker, offset, bytes, now, rfl, inside, by rw [events]; exact List.mem_cons_self⟩
  refine ⟨?_, fun pos before => placed pos (staged pos before),
    fun pos done => (complete pos done).imp_right (placed pos)⟩
  intro event mem touching
  rw [events] at mem
  rcases List.mem_cons.mp mem with rfl | behind
  · exact ⟨worker, offset, bytes, now, rfl, Or.inl rfl⟩
  · exact absurd (keeps event behind) touching

theorem stage_places
    (events : served.events = (stage blake3 crc32c actor.writer actor.allocator.intervals worker
      offset bytes now io).events)
    (after : served.actor = actor.after (stage blake3 crc32c actor.writer
      actor.allocator.intervals worker offset bytes now io)) :
    Places actor (.write worker offset bytes now) served := by
  have ended := stage_end blake3 crc32c actor.writer actor.allocator.intervals worker offset bytes
    now io
  generalize stage blake3 crc32c actor.writer actor.allocator.intervals worker offset bytes now io
    = outcome at events after ended
  obtain ⟨reply, left, made, durable⟩ := served
  simp only at events after
  subst events after
  cases ended with
  | rejected error => exact still_places actor _ rfl (fun _ => id) fun _ => id
  | writeFailed ready error landed =>
    exact failed_places rfl (by simp) (fun _ => id) fun _ => Or.inl
  | noSpace ready refused landed flushed ended =>
    have flushes := flush_places crc32c actor ended
    exact failed_places rfl (flush_keeps crc32c ended) flushes.1 flushes.2
  | staged ready => exact written_places blake3 rfl (by simp) (fun _ => id) fun _ => Or.inl
  | flushed ready flushed ended =>
    have flushes := flush_places crc32c (pushed blake3 actor worker offset bytes now) ended
    exact written_places blake3 rfl (flush_keeps crc32c ended) flushes.1 flushes.2

theorem handle_places
    (trail : Trail blake3 crc32c actor command io served) : Places actor command served := by
  cases trail with
  | idle events writer complete =>
    refine still_places actor command events ?_ fun pos => (complete pos).mp
    intro pos staged
    rwa [Staged, writer] at staged
  | flushed events writer complete =>
    have ended := flush_end crc32c actor.writer actor.allocator.intervals io.flush
    have flushes := flush_places crc32c actor ended
    have keeps := flush_keeps crc32c ended
    refine ⟨?_, ?_, ?_⟩
    · intro event mem touching
      rw [events] at mem
      exact absurd (keeps event mem) touching
    · intro pos staged
      rw [Staged, writer] at staged
      exact Or.inl (flushes.1 pos staged)
    · intro pos done
      exact (flushes.2 pos ((complete pos).mp done)).imp_right Or.inl
  | staged worker offset bytes now asked events after =>
    rw [asked]
    exact stage_places blake3 crc32c events after

end Commands

end Downpour.ActorTrace
