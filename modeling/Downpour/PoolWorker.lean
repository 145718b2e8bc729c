import Downpour.Actor
import Downpour.Http
import Downpour.Retry

/-!
One worker of the fixed pool: a fetch of exactly one grant, whose body reaches the
state actor through a range sink over a grant writer. A backend is any machine
that reacts to events of its own choosing and touches the download only through
the sink; it may also give up a call on the sink that has not been answered. A
call on the sink is asynchronous: its command is sent when the queue has room and
its reply comes later. Elapsed times of reports are left out.
-/

namespace Downpour.Pool
open Intervals JournalReplay Allocator Writer Ranges Remote Http Retry Actor

inductive SingleStreamReason where
  | protocolNotHttp11
  | backendCannotRange
  | rangeNotProven
  | lengthUnknown
  | inconsistentLength
  | lengthUnaddressable
  deriving DecidableEq, Repr

inductive PoolPlan where
  | segmented (totalLength workers : Nat)
  | singleStream (reason : SingleStreamReason)
  deriving DecidableEq, Repr

structure WorkerReport where
  worker : WorkerId
  bytes : Nat
  deriving DecidableEq, Repr

structure PoolReport where
  plan : PoolPlan
  workers : List WorkerReport
  deriving DecidableEq, Repr

inductive PoolError (Url : Type) where
  | zeroWorkers
  | wrongPlan (plan : PoolPlan)
  | writer (error : WriterServiceError)
  | transfer (error : TransferError Url)
  | sink (error : SinkError)
  | workerJoin
  | workerIdOverflow (index : Nat)
  | writerLengthMismatch (writerLength remoteLength : Nat)
  | invalidOutcome (worker : WorkerId) (reason : String)
  | incompleteCoverage

def retryableWorkerFailure {Url : Type} : PoolError Url → Option TransientKind
  | .transfer (.transport _ _) => some .connectionReset
  | .transfer (.timeout _ _) => some .timeout
  | .transfer (.truncatedBody _ _ _) => some .truncatedBody
  | _ => none

/-! The backend, as far as the pool can tell. -/

inductive Signal (Event : Type) where
  | event (event : Event)
  | accepted (result : Except SinkError Unit)
  | synced (result : Except SinkError Unit)

/-- What a backend does inside `fetch_range` when it reacts to a signal. -/
inductive Move (Url State : Type) where
  | wait (state : State)
  | accept (bytes : List UInt8) (state : State)
  | sync (state : State)
  | rebase (baseOffset : Nat) (limit : Option Nat) (state : State)
  | finish (result : Except (TransferError Url) RangeOutcome)
  | panic

structure Backend (Url : Type) where
  State : Type
  Event : Type
  supportsRanges : Bool
  fetchRange : RangeRequest Url → State
  next : State → Signal Event → Move Url State

/-! Calls on the actor. -/

inductive Status where
  | unsent
  | sent (ticket : Nat)
  | answered (reply : Except WriterServiceError Receipt)

structure Ask where
  command : Command
  status : Status

def ask (command : Command) : Ask := ⟨command, .unsent⟩

def Ask.deliver (ask : Ask) (ticket : Nat) (reply : Except WriterServiceError Receipt) : Ask :=
  match ask.status with
  | .sent awaited => if awaited = ticket then { ask with status := .answered reply } else ask
  | _ => ask

/-! The range sink over a grant writer. -/

section Target
variable (serviceText : WriterServiceError → String)

def writerServiceError (offset : Nat) : WriterServiceError → SinkError
  | .beyondGrant start stop grantStart grantEnd =>
    .beyondGrant (grantEnd - grantStart) (start - grantStart) (stop - start)
  | .writer (.noSpace refused) => .noSpace refused
  | error => .io offset ⟨.other, none, serviceText error⟩

def notAtCursor : IoError := ⟨.other, none, "range sink did not append at the grant cursor"⟩

/-- `write_at` of the grant target, over the reply to the command it sends. -/
def writeAt (now : Nat) (reply : Command → Except WriterServiceError Receipt)
    (target : GrantWriter) (offset : Nat) (bytes : List UInt8) :
    Except SinkError Unit × GrantWriter :=
  if offset ≠ target.nextOffset then (.error (.io offset notAtCursor), target)
  else match target.write bytes now with
    | .error error => (.error (writerServiceError serviceText offset error), target)
    | .ok command =>
      match reply command with
      | .error error => (.error (writerServiceError serviceText offset error), target)
      | .ok receipt => (.ok (), target.advance bytes (.ok receipt))

/-- The first half of `accept`: every check before a command is sent. -/
def acceptCommand (sink : RangeSink GrantWriter) (bytes : List UInt8) (now : Nat) :
    Except SinkError Command :=
  match sink.limit.filter fun limit =>
      decide (limit < min (sink.written + bytes.length) (2 ^ 64 - 1)) with
  | some limit => .error (.beyondGrant limit sink.written bytes.length)
  | none =>
    let offset := sink.baseOffset + sink.written
    if offset ≥ 2 ^ 64 then .error .lengthOverflow
    else if offset ≠ sink.target.nextOffset then .error (.io offset notAtCursor)
    else match sink.target.write bytes now with
      | .error error => .error (writerServiceError serviceText offset error)
      | .ok command => .ok command

def acceptReply (sink : RangeSink GrantWriter) (bytes : List UInt8)
    (reply : Except WriterServiceError Receipt) : Except SinkError Unit × RangeSink GrantWriter :=
  match reply with
  | .error error =>
    (.error (writerServiceError serviceText (sink.baseOffset + sink.written) error), sink)
  | .ok _ =>
    (.ok (), { sink with
      target := sink.target.advance bytes reply
      written := min (sink.written + bytes.length) (2 ^ 64 - 1) })

theorem accept_halves (sink : RangeSink GrantWriter) (bytes : List UInt8) (now : Nat)
    (reply : Command → Except WriterServiceError Receipt) :
    sink.accept (writeAt serviceText now reply) bytes =
      match acceptCommand serviceText sink bytes now with
      | .error error => (.error error, sink)
      | .ok command => acceptReply serviceText sink bytes (reply command) := by
  unfold RangeSink.accept acceptCommand
  cases sink.limit.filter fun limit =>
      decide (limit < min (sink.written + bytes.length) (2 ^ 64 - 1)) with
  | some limit => rfl
  | none =>
    simp only
    by_cases overflow : sink.baseOffset + sink.written ≥ 2 ^ 64
    · simp only [if_pos overflow]
    simp only [if_neg overflow, writeAt]
    by_cases moved : sink.baseOffset + sink.written ≠ sink.target.nextOffset
    · simp only [if_pos moved]
    simp only [if_neg moved]
    cases sink.target.write bytes now with
    | error error => rfl
    | ok command =>
      simp only
      cases reply command with
      | error error => rfl
      | ok receipt => rfl

def syncReply (sink : RangeSink GrantWriter) (reply : Except WriterServiceError Receipt) :
    Except SinkError Unit :=
  match reply with
  | .error error => .error (writerServiceError serviceText sink.target.nextOffset error)
  | .ok _ => .ok ()

end Target

/-! The task of one worker. -/

inductive Ending (Url : Type) where
  | finished (result : Except (PoolError Url) WorkerReport)
  | cancelled
  | panicked

/-- Where a task stands: in the backend, in a call on the sink from the backend, in
the final `sync`, or at its end. -/
inductive Activity (Url State : Type) where
  | fetching (state : State)
  | accepting (bytes : List UInt8) (state : State) (ask : Ask)
  | refused (error : SinkError) (state : State)
  | syncing (state : State) (ask : Ask)
  | committing (ask : Ask)
  | ended (ending : Ending Url)

namespace Activity
variable {Url State : Type}

def pending : Activity Url State → Option Ask
  | .accepting _ _ ask | .syncing _ ask | .committing ask => some ask
  | _ => none

def mapAsk (change : Ask → Ask) : Activity Url State → Activity Url State
  | .accepting bytes state ask => .accepting bytes state (change ask)
  | .syncing state ask => .syncing state (change ask)
  | .committing ask => .committing (change ask)
  | activity => activity

def isEnded : Activity Url State → Bool
  | .ended _ => true
  | _ => false

end Activity

/-- A spawned worker. `cancelled` is the signal on its cancel channel, `aborted`
the abort flag of the task set. `written` is not part of the program: it is the
end of the bytes that the part file took from this task. -/
structure Task (Url State : Type) where
  id : Nat
  sink : RangeSink GrantWriter
  activity : Activity Url State
  cancelled : Bool
  aborted : Bool
  written : Nat

namespace Task
variable {Url State : Type}

def grant (task : Task Url State) : Grant := task.sink.target.grant

def worker (task : Task Url State) : WorkerId := task.grant.worker

end Task

def contentRangeMatches (contentRange : Option ContentRange) (range : Range) (totalLength : Nat) :
    Bool :=
  match contentRange with
  | some (.bytes first last (some total)) =>
    decide (first = range.start) && decide (last + 1 < 2 ^ 64 ∧ last + 1 = range.stop) &&
      decide (total = totalLength)
  | _ => false

section Worker
variable {Url : Type} (backend : Backend Url) (serviceText : WriterServiceError → String)
variable (url : Url) (totalLength : Nat)

def spawned (id : Nat) (grant : Grant) : Task Url backend.State where
  id := id
  sink := RangeSink.new (writerFor grant) grant.range.start
    (some (grant.range.stop - grant.range.start))
  activity :=
    if grant.range.stop = 0 then
      .ended (.finished (.error (.invalidOutcome grant.worker "allocator issued an empty range")))
    else .fetching (backend.fetchRange
      (RangeRequest.ranged url (.fromTo grant.range.start (grant.range.stop - 1))))
  cancelled := false
  aborted := false
  written := grant.range.start

def outcomeMatches (task : Task Url backend.State) (outcome : RangeOutcome) : Bool :=
  let expected := task.grant.range.stop - task.grant.range.start
  decide (outcome.status = 206) && decide (outcome.protocol = .http11) && !outcome.truncated &&
    decide (outcome.bytesDelivered = expected) && decide (task.sink.written = expected) &&
    contentRangeMatches outcome.contentRange task.grant.range totalLength

def fetched (task : Task Url backend.State) (result : Except (TransferError Url) RangeOutcome) :
    Activity Url backend.State :=
  match result with
  | .error error => .ended (.finished (.error (.transfer error)))
  | .ok outcome =>
    if outcomeMatches backend totalLength task outcome then .committing (ask .flush)
    else .ended (.finished (.error (.invalidOutcome task.worker
      "ranged response did not match its exact allocator grant")))

def follow (task : Task Url backend.State) (now : Nat) (move : Move Url backend.State) :
    Task Url backend.State :=
  match move with
  | .wait state => { task with activity := .fetching state }
  | .accept bytes state =>
    match acceptCommand serviceText task.sink bytes now with
    | .error error => { task with activity := .refused error state }
    | .ok command => { task with activity := .accepting bytes state (ask command) }
  | .sync state => { task with activity := .syncing state (ask .flush) }
  | .rebase baseOffset limit state =>
    { task with sink := task.sink.rebase baseOffset limit, activity := .fetching state }
  | .finish result => { task with activity := fetched backend totalLength task result }
  | .panic => { task with activity := .ended .panicked }

/-- An event reaches the backend. Where a call on the sink is still open, any move
but waiting gives that call up; its command may already be in the queue. -/
def react (task : Task Url backend.State) (event : backend.Event) (now : Nat) :
    Task Url backend.State :=
  match task.activity with
  | .fetching state => follow backend serviceText totalLength task now
      (backend.next state (.event event))
  | .accepting bytes state ask =>
    match backend.next state (.event event) with
    | .wait state => { task with activity := .accepting bytes state ask }
    | move => follow backend serviceText totalLength task now move
  | .syncing state ask =>
    match backend.next state (.event event) with
    | .wait state => { task with activity := .syncing state ask }
    | move => follow backend serviceText totalLength task now move
  | _ => task

def receive (task : Task Url backend.State) (now : Nat) : Task Url backend.State :=
  match task.activity with
  | .accepting bytes state ⟨_, .answered reply⟩ =>
    let accepted := acceptReply serviceText task.sink bytes reply
    follow backend serviceText totalLength { task with sink := accepted.2 } now
      (backend.next state (.accepted accepted.1))
  | .refused error state =>
    follow backend serviceText totalLength task now (backend.next state (.accepted (.error error)))
  | .syncing state ⟨_, .answered reply⟩ =>
    follow backend serviceText totalLength task now
      (backend.next state (.synced (syncReply serviceText task.sink reply)))
  | .committing ⟨_, .answered reply⟩ =>
    { task with activity := .ended (.finished
        (match syncReply serviceText task.sink reply with
        | .error error => .error (.sink error)
        | .ok () => .ok ⟨task.worker, task.sink.written⟩)) }
  | _ => task

end Worker

end Downpour.Pool
