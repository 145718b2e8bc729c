import Downpour.Allocator
import Downpour.Writer

/-!
The single owner of a download's allocator and durable writer. Commands reach it
through one queue and are served one after the other; each receives the outcomes
of the I/O it may perform. The thread and its start and join errors are left out.
A `Shutdown` stops the loop also where its flush fails, and nothing is served
after it.
-/

namespace Downpour.Actor
open Segments Intervals JournalFormat Allocator Writer CrashDisk

def maxWriteBlockBytes : Nat := 256 * 1024

inductive WriterServiceError where
  | zeroQueueCapacity
  | blockTooLarge (actual maximum : Nat)
  | cursorOverflow
  | beyondGrant (start stop grantStart grantEnd : Nat)
  | actorStopped
  | replyDropped
  | allocator (error : AllocatorError)
  | writer (error : WriterError)
  deriving DecidableEq

inductive Command where
  | allocate (worker : WorkerId)
  | write (worker : WorkerId) (offset : Nat) (bytes : List UInt8) (now : Nat)
  | flush
  | flushIfDue (now : Nat)
  | abandon (worker : WorkerId)
  | snapshot
  | shutdown
  deriving DecidableEq

inductive Receipt where
  | allocation (allocation : Option Allocation) (durable : List DurableBlock)
  | write (range : Range) (durable : List DurableBlock)
  | flush (durable : List DurableBlock)
  | abandon (released : Nat) (durable : List DurableBlock)
  | snapshot (allocator : SegmentAllocator)
  deriving DecidableEq

structure StateActor where
  writer : DurableWriter
  allocator : SegmentAllocator
  deriving DecidableEq

/-- What a command returns and leaves behind. `durable` is not part of the
program: it holds every block the command made durable, also where the reply
reports an error and drops them. -/
structure Served where
  reply : Except WriterServiceError Receipt
  actor : StateActor
  events : List (Event UInt8)
  durable : List DurableBlock

def durableOf (outcome : Outcome) : List DurableBlock :=
  match outcome.result with
  | .ok blocks => blocks
  | .error _ => []

section Commands
variable (blake3 : List UInt8 → Digest) (crc32c : List UInt8 → UInt32)

/-- The blocks that a flush inside `stage` made durable. A full disk flushes the
batch staged before and then returns an error. -/
def stageDurable (writer : DurableWriter) (intervals : IntervalMap) (worker : WorkerId)
    (offset : Nat) (bytes : List UInt8) (now : Nat) (io : StageIo) : List DurableBlock :=
  match stageCheck writer intervals worker offset bytes, io.write with
  | none, some (error, _) =>
    match noSpaceOffset error offset with
    | some _ => durableOf (Writer.flush crc32c writer intervals io.flush)
    | none => []
  | _, _ => durableOf (stage blake3 crc32c writer intervals worker offset bytes now io)

namespace StateActor

def after (actor : StateActor) (outcome : Outcome) : StateActor :=
  ⟨outcome.writer, { actor.allocator with intervals := outcome.intervals }⟩

def refuse (actor : StateActor) (error : WriterServiceError) : Served :=
  ⟨.error error, actor, [], []⟩

def flush (actor : StateActor) (io : FlushIo) : Served :=
  let outcome := Writer.flush crc32c actor.writer actor.allocator.intervals io
  let reply := match outcome.result with
    | .error error => .error (.writer error)
    | .ok durable => .ok (.flush durable)
  ⟨reply, actor.after outcome, outcome.events, durableOf outcome⟩

def flushIfDue (actor : StateActor) (now : Nat) (io : FlushIo) : Served :=
  let outcome := Writer.flushIfDue crc32c actor.writer actor.allocator.intervals now io
  let reply := match outcome.result with
    | .error error => .error (.writer error)
    | .ok durable => .ok (.flush durable)
  ⟨reply, actor.after outcome, outcome.events, durableOf outcome⟩

/-- The flush in front of a change of ownership, then that change. -/
def fenced (actor : StateActor) (io : FlushIo)
    (change : SegmentAllocator → List DurableBlock →
      Except WriterServiceError Receipt × SegmentAllocator) : Served :=
  let outcome := Writer.flush crc32c actor.writer actor.allocator.intervals io
  match outcome.result with
  | .error error => ⟨.error (.writer error), actor.after outcome, outcome.events, []⟩
  | .ok durable =>
    let changed := change (actor.after outcome).allocator durable
    ⟨changed.1, ⟨outcome.writer, changed.2⟩, outcome.events, durable⟩

def allocate (actor : StateActor) (worker : WorkerId) (io : FlushIo) : Served :=
  actor.fenced crc32c io fun allocator durable =>
    match allocator.allocate worker with
    | .error error => (.error (.allocator error), allocator)
    | .ok (allocation, next) => (.ok (.allocation allocation durable), next)

def write (actor : StateActor) (worker : WorkerId) (offset : Nat) (bytes : List UInt8) (now : Nat)
    (io : StageIo) : Served :=
  if offset + bytes.length ≥ 2 ^ 64 then actor.refuse .cursorOverflow
  else match actor.allocator.intervals.complete ⟨offset, offset + bytes.length⟩ worker with
    | .error error => actor.refuse (.writer (.interval error))
    | .ok _ =>
      let outcome := stage blake3 crc32c actor.writer actor.allocator.intervals worker offset bytes
        now io
      let reply := match outcome.result with
        | .error error => .error (.writer error)
        | .ok durable => .ok (.write ⟨offset, offset + bytes.length⟩ durable)
      ⟨reply, actor.after outcome, outcome.events,
        stageDurable blake3 crc32c actor.writer actor.allocator.intervals worker offset bytes now io⟩

def abandon (actor : StateActor) (worker : WorkerId) (io : FlushIo) : Served :=
  actor.fenced crc32c io fun allocator durable =>
    (.ok (.abandon (allocator.abandon worker).2 durable), (allocator.abandon worker).1)

def snapshot (actor : StateActor) : Served :=
  ⟨.ok (.snapshot actor.allocator), actor, [], []⟩

def shutdown (actor : StateActor) (io : FlushIo) : Served :=
  actor.fenced crc32c io fun allocator _ => (.ok (.snapshot allocator), allocator)

def handle (actor : StateActor) (command : Command) (io : StageIo) : Served :=
  match command with
  | .allocate worker => actor.allocate crc32c worker io.flush
  | .write worker offset bytes now => actor.write blake3 crc32c worker offset bytes now io
  | .flush => actor.flush crc32c io.flush
  | .flushIfDue now => actor.flushIfDue crc32c now io.flush
  | .abandon worker => actor.abandon crc32c worker io.flush
  | .snapshot => actor.snapshot
  | .shutdown => actor.shutdown crc32c io.flush

end StateActor

/-- A service from its start on: the actor, whether its loop has ended, the disk
events so far and every block made durable so far. -/
structure Service where
  actor : StateActor
  stopped : Bool
  trace : List (Event UInt8)
  durable : List DurableBlock

namespace Service

def start (writer : DurableWriter) (allocator : SegmentAllocator) (capacity : Nat) :
    Except WriterServiceError Service :=
  if capacity = 0 then .error .zeroQueueCapacity
  else .ok ⟨⟨writer, allocator⟩, false, [], []⟩

/-- The next command of the queue. After the loop has ended a command already in
the queue reads `replyDropped` instead of `actorStopped`. -/
def serve (service : Service) (command : Command) (io : StageIo) :
    Except WriterServiceError Receipt × Service :=
  if service.stopped then (.error .actorStopped, service)
  else
    let served := service.actor.handle blake3 crc32c command io
    (served.reply,
      ⟨served.actor, decide (command = .shutdown), service.trace ++ served.events,
        service.durable ++ served.durable⟩)

def run (service : Service) (commands : List (Command × StageIo)) : Service :=
  commands.foldl (fun service next => (service.serve blake3 crc32c next.1 next.2).2) service

end Service

/-! What a command can do to the actor, said once for all later proofs. -/

/-- The batch stays as it is, or it is committed as a whole. -/
inductive Settles (actor : StateActor) : StateActor → List DurableBlock → Prop where
  | kept (writer : DurableWriter) (same : writer.staged = actor.writer.staged) :
      Settles actor ⟨writer, actor.allocator⟩ []
  | committed (writer : DurableWriter) (next : IntervalMap) (sequence : Nat)
      (empty : writer.staged = [])
      (owned : completeAll actor.allocator.intervals actor.writer.staged = .ok next) :
      Settles actor ⟨writer, { actor.allocator with intervals := next }⟩
        (durableBlocks sequence actor.writer.staged)

theorem flush_settles (actor : StateActor)
    (ended : FlushEnd crc32c actor.writer actor.allocator.intervals outcome) :
    Settles actor (actor.after outcome) (durableOf outcome) ∧
      ∀ blocks, outcome.result = .ok blocks → outcome.writer.staged = [] := by
  cases ended with
  | refused error => exact ⟨Settles.kept actor.writer rfl, fun _ done => nomatch done⟩
  | idle _ empty => exact ⟨Settles.kept actor.writer rfl, fun _ _ => empty⟩
  | unowned error _ => exact ⟨Settles.kept _ rfl, fun _ done => nomatch done⟩
  | dataSyncFailed error _ => exact ⟨Settles.kept _ rfl, fun _ done => nomatch done⟩
  | appendFailed error _ _ _ _ => exact ⟨Settles.kept _ rfl, fun _ done => nomatch done⟩
  | journalSyncFailed error _ _ _ _ => exact ⟨Settles.kept _ rfl, fun _ done => nomatch done⟩
  | committed next io _ _ owned _ _ =>
    exact ⟨Settles.committed _ next _ rfl owned, fun _ _ => rfl⟩

theorem settles_batch (writer : DurableWriter) (same : writer.staged = after.writer.staged)
    (settles : Settles actor after durable) : Settles actor ⟨writer, after.allocator⟩ durable := by
  cases settles with
  | kept before unchanged => exact Settles.kept writer (same.trans unchanged)
  | committed before next sequence empty owned =>
    exact Settles.committed writer next sequence (same.trans empty) owned

def Served.wrote (served : Served) : Bool :=
  served.events.any fun event => match event with
    | .write _ _ => true
    | _ => false

theorem unwritten_iff (served : Served) :
    served.wrote = false ↔ ∀ offset bytes, Event.write offset bytes ∉ served.events := by
  rw [Served.wrote, List.any_eq_false]
  constructor
  · intro missing offset bytes mem
    exact missing _ mem rfl
  · intro missing event mem
    cases event with
    | write offset bytes => exact absurd mem (missing offset bytes)
    | _ => simp

/-- A write is refused, fails in the part file, or joins the batch, which may
then be committed. -/
inductive WriteEnd (actor : StateActor) (worker : WorkerId) (offset : Nat) (bytes : List UInt8)
    (now : Nat) : Served → Prop where
  | refused (error : WriterServiceError) :
      WriteEnd actor worker offset bytes now (actor.refuse error)
  | failed (served : Served) (error : WriterServiceError) (replied : served.reply = .error error)
      (unwritten : served.wrote = false)
      (settles : Settles actor served.actor served.durable) :
      WriteEnd actor worker offset bytes now served
  | staged (served : Served) (wrote : served.wrote = true)
      (ready : StageReady actor.writer actor.allocator.intervals worker offset bytes)
      (settles : Settles ⟨pushStaged blake3 actor.writer worker offset bytes now, actor.allocator⟩
        served.actor served.durable)
      (replied : (∃ error, served.reply = .error error) ∨
        ∃ durable, served.reply = .ok (.write ⟨offset, offset + bytes.length⟩ durable)) :
      WriteEnd actor worker offset bytes now served

theorem write_end (actor : StateActor) (worker : WorkerId) (offset : Nat) (bytes : List UInt8)
    (now : Nat) (io : StageIo) :
    WriteEnd blake3 actor worker offset bytes now
      (actor.write blake3 crc32c worker offset bytes now io) := by
  unfold StateActor.write
  split
  next => exact WriteEnd.refused _
  next =>
    split
    next => exact WriteEnd.refused _
    next =>
      cases checked : stageCheck actor.writer actor.allocator.intervals worker offset bytes with
      | some error =>
        simp only [stage, stageDurable, checked]
        exact WriteEnd.refused (.writer error)
      | none =>
        have ready := stage_ready checked
        simp only [stage, stageDurable, checked]
        cases wrote : io.write with
        | some failure =>
          simp only
          cases full : noSpaceOffset failure.1 offset with
          | none =>
            simp only
            exact WriteEnd.failed _ _ rfl (by simp [unwritten_iff])
              (Settles.kept _ rfl)
          | some refused =>
            -- The disk is full: what was staged before is flushed without this block.
            have ended := flush_end crc32c actor.writer actor.allocator.intervals io.flush
            have settles := (flush_settles crc32c actor ended).1
            have keeps := flush_keeps crc32c ended
            refine WriteEnd.failed _ _ rfl ?_ ?_
            · rw [unwritten_iff]
              intro offset bytes mem
              rcases List.mem_cons.mp mem with same | later
              · cases same
              · exact keeps _ later
            · exact settles_batch
                { (Writer.flush crc32c actor.writer actor.allocator.intervals io.flush).writer with
                  diskFullAt := some refused } rfl settles
        | none =>
          simp only
          by_cases full : (pushStaged blake3 actor.writer worker offset bytes now).stagedBytes ≥
              journalFlushBytes
          · simp only [if_pos full]
            have ended := flush_end crc32c
              (pushStaged blake3 actor.writer worker offset bytes now)
              actor.allocator.intervals io.flush
            have settles := (flush_settles crc32c
              ⟨pushStaged blake3 actor.writer worker offset bytes now, actor.allocator⟩ ended).1
            refine WriteEnd.staged _ rfl ready settles ?_
            cases Writer.flush crc32c (pushStaged blake3 actor.writer worker offset bytes now)
                actor.allocator.intervals io.flush with
            | mk result writer intervals events failed =>
              cases result with
              | error error => exact Or.inl ⟨_, rfl⟩
              | ok durable => exact Or.inr ⟨_, rfl⟩
          · simp only [if_neg full]
            exact WriteEnd.staged _ rfl ready (Settles.kept _ rfl) (Or.inr ⟨_, rfl⟩)

theorem write_accepted {actor : StateActor}
    (replied : (actor.write blake3 crc32c worker offset bytes now io).reply = .ok receipt) :
    (actor.write blake3 crc32c worker offset bytes now io).wrote = true := by
  have ended := write_end blake3 crc32c actor worker offset bytes now io
  generalize actor.write blake3 crc32c worker offset bytes now io = served at ended replied ⊢
  cases ended with
  | refused error => cases replied
  | failed _ error failed =>
    rw [failed] at replied
    cases replied
  | staged _ wrote => exact wrote

theorem fenced_end (actor : StateActor) (io : FlushIo)
    (change : SegmentAllocator → List DurableBlock →
      Except WriterServiceError Receipt × SegmentAllocator) :
    (∃ error, (actor.fenced crc32c io change).reply = .error error ∧
      Settles actor (actor.fenced crc32c io change).actor
        (actor.fenced crc32c io change).durable) ∨
    ∃ fence durable events, Settles actor fence durable ∧ fence.writer.staged = [] ∧
      actor.fenced crc32c io change = ⟨(change fence.allocator durable).1,
        ⟨fence.writer, (change fence.allocator durable).2⟩, events, durable⟩ := by
  have ended := flush_end crc32c actor.writer actor.allocator.intervals io
  obtain ⟨settles, emptied⟩ := flush_settles crc32c actor ended
  unfold StateActor.fenced
  cases flushed : Writer.flush crc32c actor.writer actor.allocator.intervals io with
  | mk result writer intervals events failed =>
    rw [flushed] at settles emptied
    cases result with
    | error error => exact Or.inl ⟨_, rfl, settles⟩
    | ok durable => exact Or.inr ⟨_, durable, events, settles, emptied durable rfl, rfl⟩

theorem allocate_end (actor : StateActor) (worker : WorkerId) (io : FlushIo) :
    (∃ error, (actor.allocate crc32c worker io).reply = .error error ∧
      Settles actor (actor.allocate crc32c worker io).actor
        (actor.allocate crc32c worker io).durable) ∨
    ∃ fence durable events allocation next, Settles actor fence durable ∧
      fence.writer.staged = [] ∧ fence.allocator.allocate worker = .ok (allocation, next) ∧
      actor.allocate crc32c worker io =
        ⟨.ok (.allocation allocation durable), ⟨fence.writer, next⟩, events, durable⟩ := by
  unfold StateActor.allocate
  rcases fenced_end crc32c actor io _ with failed | ⟨fence, durable, events, settles, empty, served⟩
  · exact Or.inl failed
  · rw [served]
    cases found : fence.allocator.allocate worker with
    | error error => exact Or.inl ⟨.allocator error, rfl, settles⟩
    | ok result =>
      exact Or.inr ⟨fence, durable, events, result.1, result.2, settles, empty, found, rfl⟩

theorem abandon_end (actor : StateActor) (worker : WorkerId) (io : FlushIo) :
    (∃ error, (actor.abandon crc32c worker io).reply = .error error ∧
      Settles actor (actor.abandon crc32c worker io).actor (actor.abandon crc32c worker io).durable) ∨
    ∃ fence durable events, Settles actor fence durable ∧ fence.writer.staged = [] ∧
      actor.abandon crc32c worker io = ⟨.ok (.abandon (fence.allocator.abandon worker).2 durable),
        ⟨fence.writer, (fence.allocator.abandon worker).1⟩, events, durable⟩ :=
  fenced_end crc32c actor io _

/-- The effect of a command: the batch settles, a block joins it and it settles, or
it is emptied and the ownership of some bytes changes. -/
inductive HandleEnd (actor : StateActor) : Command → Served → Prop where
  | settled (command : Command) (served : Served)
      (settles : Settles actor served.actor served.durable) : HandleEnd actor command served
  | staged (worker : WorkerId) (offset : Nat) (bytes : List UInt8) (now : Nat) (served : Served)
      (ready : StageReady actor.writer actor.allocator.intervals worker offset bytes)
      (settles : Settles ⟨pushStaged blake3 actor.writer worker offset bytes now, actor.allocator⟩
        served.actor served.durable) :
      HandleEnd actor (.write worker offset bytes now) served
  | allocated (worker : WorkerId) (fence : StateActor) (durable : List DurableBlock)
      (settles : Settles actor fence durable) (empty : fence.writer.staged = [])
      (allocation : Option Allocation) (next : SegmentAllocator)
      (found : fence.allocator.allocate worker = .ok (allocation, next))
      (events : List (Event UInt8)) :
      HandleEnd actor (.allocate worker)
        ⟨.ok (.allocation allocation durable), ⟨fence.writer, next⟩, events, durable⟩
  | abandoned (worker : WorkerId) (fence : StateActor) (durable : List DurableBlock)
      (settles : Settles actor fence durable) (empty : fence.writer.staged = [])
      (events : List (Event UInt8)) :
      HandleEnd actor (.abandon worker)
        ⟨.ok (.abandon (fence.allocator.abandon worker).2 durable),
          ⟨fence.writer, (fence.allocator.abandon worker).1⟩, events, durable⟩

theorem handle_end (actor : StateActor) (command : Command) (io : StageIo) :
    HandleEnd blake3 actor command (actor.handle blake3 crc32c command io) := by
  cases command with
  | allocate worker =>
    rcases allocate_end crc32c actor worker io.flush with ⟨_, _, settles⟩ |
      ⟨fence, durable, events, allocation, next, settles, empty, found, served⟩
    · exact HandleEnd.settled _ _ settles
    · refine Eq.mpr (congrArg _ served) ?_
      exact HandleEnd.allocated worker fence durable settles empty allocation next found events
  | write worker offset bytes now =>
    have ended := write_end blake3 crc32c actor worker offset bytes now io
    simp only [StateActor.handle]
    generalize actor.write blake3 crc32c worker offset bytes now io = served at ended ⊢
    cases ended with
    | refused error => exact HandleEnd.settled _ _ (Settles.kept actor.writer rfl)
    | failed _ _ _ _ settles => exact HandleEnd.settled _ _ settles
    | staged _ _ ready settles _ => exact HandleEnd.staged worker offset bytes now _ ready settles
  | flush =>
    exact HandleEnd.settled _ _ (flush_settles crc32c actor (flush_end crc32c _ _ io.flush)).1
  | flushIfDue now =>
    refine HandleEnd.settled _ _ ?_
    simp only [StateActor.handle, StateActor.flushIfDue]
    unfold Writer.flushIfDue
    split
    next => exact Settles.kept actor.writer rfl
    next =>
      split
      next => exact (flush_settles crc32c actor (flush_end crc32c _ _ io.flush)).1
      next => exact Settles.kept actor.writer rfl
  | abandon worker =>
    rcases abandon_end crc32c actor worker io.flush with ⟨_, _, settles⟩ |
      ⟨fence, durable, events, settles, empty, served⟩
    · exact HandleEnd.settled _ _ settles
    · refine Eq.mpr (congrArg _ served) ?_
      exact HandleEnd.abandoned worker fence durable settles empty events
  | snapshot => exact HandleEnd.settled _ _ (Settles.kept actor.writer rfl)
  | shutdown =>
    rcases fenced_end crc32c actor io.flush _ with ⟨_, _, settles⟩ |
      ⟨fence, durable, events, settles, empty, served⟩
    · exact HandleEnd.settled _ _ settles
    · refine Eq.mpr (congrArg _ served) ?_
      exact HandleEnd.settled _ _ settles

/-! The handle of one worker. -/

structure GrantWriter where
  grant : Grant
  nextOffset : Nat
  deriving DecidableEq

def writerFor (grant : Grant) : GrantWriter := ⟨grant, grant.range.start⟩

namespace GrantWriter

def write (handle : GrantWriter) (bytes : List UInt8) (now : Nat) :
    Except WriterServiceError Command :=
  if bytes.length > maxWriteBlockBytes then
    .error (.blockTooLarge bytes.length maxWriteBlockBytes)
  else if handle.nextOffset + bytes.length ≥ 2 ^ 64 then .error .cursorOverflow
  else if handle.nextOffset + bytes.length > handle.grant.range.stop then
    .error (.beyondGrant handle.nextOffset (handle.nextOffset + bytes.length)
      handle.grant.range.start handle.grant.range.stop)
  else .ok (.write handle.grant.worker handle.nextOffset bytes now)

def advance (handle : GrantWriter) (bytes : List UInt8)
    (reply : Except WriterServiceError Receipt) : GrantWriter :=
  match reply with
  | .ok _ => { handle with nextOffset := handle.nextOffset + bytes.length }
  | .error _ => handle

end GrantWriter

end Commands

end Downpour.Actor
