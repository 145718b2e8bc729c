import Downpour.PoolWorker

/-!
The fixed worker pool: `execute_segmented` over the state actor, its bounded FIFO
queue and the worker tasks. One step is one choice of the scheduler: the actor
serves the next command, the pool or a task sends, receives, joins, ticks or
wakes, or the backend of a task reacts to an event. A step that is not possible
leaves the system as it is, so every list of actions is a run. The pool is the
only user of its actor. Elapsed times are left out; a panic of the pool itself
and dropping its future end the run.
-/

namespace Downpour.Pool
open Intervals JournalFormat Allocator Writer Ranges Remote Http Retry Actor

structure Setup (Url : Type) where
  backend : Backend Url
  workers : Nat
  remote : RemoteObject Url
  capacity : Nat
  blake3 : List UInt8 → Digest
  crc32c : List UInt8 → UInt32
  serviceText : WriterServiceError → String

def Setup.plan {Url : Type} (setup : Setup Url) : PoolPlan :=
  if setup.remote.protocol ≠ .http11 then .singleStream .protocolNotHttp11
  else if setup.backend.supportsRanges = false then .singleStream .backendCannotRange
  else match setup.remote.rangeSupport.totalLength with
    | none => .singleStream .rangeNotProven
    | some provenLength =>
      match setup.remote.totalLength with
      | none => .singleStream .lengthUnknown
      | some totalLength =>
        if totalLength ≠ provenLength then .singleStream .inconsistentLength
        else if totalLength ≥ 2 ^ 63 then .singleStream .lengthUnaddressable
        else .segmented totalLength setup.workers

def Setup.totalLength {Url : Type} (setup : Setup Url) : Nat :=
  match setup.plan with
  | .segmented totalLength _ => totalLength
  | .singleStream _ => 0

/-- A worker that the pool counts as running, with the sending side of its cancel
channel while `cancel` holds. -/
structure RunningWorker where
  task : Nat
  grant : Grant
  cancel : Bool
  deriving DecidableEq

inductive Stage (Url : Type) where
  | identity
  | allocating (index : Nat)
  | flushing
  | surveying
  | reassigning
  | restarting
  | ticking
  | abandoning (attempt : RunningWorker) (delay : Nat)
  | reclaiming (error : PoolError Url) (rest : List WorkerId)
  | lastFlush
  | lastSnapshot

inductive Point (Url : Type) where
  | awaiting (stage : Stage Url) (ask : Ask)
  | selecting
  | sleeping (delay : Nat)
  | joining (error : PoolError Url)
  | returned (result : Except (PoolError Url) PoolReport)

structure Control (Url : Type) where
  point : Point Url
  grants : List Grant
  allocatedWorkers : List WorkerId
  running : List RunningWorker
  reports : List WorkerReport
  candidateIdle : Option WorkerId
  drainingForReassignment : Bool
  cancelledAttempts : List RunningWorker
  transientFailures : Nat

/-- A command in the queue of the actor; `sender` is the task it comes from, and
nothing for the pool. -/
structure Queued where
  ticket : Nat
  sender : Option Nat
  command : Command

/-- The whole system. `trace` and `durable` record the disk events and the durable
blocks of the run. -/
structure System (Url : Type) (backend : Backend Url) where
  actor : StateActor
  queue : List Queued
  tickets : Nat
  tasks : List (Task Url backend.State)
  nextTask : Nat
  control : Control Url
  trace : List (CrashDisk.Event UInt8)
  durable : List DurableBlock

/-! Maps keyed by worker, as lists in the order of the keys. -/

def insertGrant (grants : List Grant) (grant : Grant) : List Grant :=
  grants.filter (fun other => decide (other.worker < grant.worker)) ++
    grant :: grants.filter (fun other => decide (grant.worker < other.worker))

/-- What the allocation loop keeps of one allocation: a shortened source takes the
place of its earlier grant. -/
def recordAllocation (grants : List Grant) (allocation : Allocation) : List Grant :=
  match allocation.shortened with
  | none => insertGrant grants allocation.grant
  | some shortened => insertGrant (insertGrant grants shortened) allocation.grant

def insertRunning (running : List RunningWorker) (entry : RunningWorker) : List RunningWorker :=
  running.filter (fun other => decide (other.grant.worker < entry.grant.worker)) ++
    entry :: running.filter (fun other => decide (entry.grant.worker < other.grant.worker))

def findRunning (running : List RunningWorker) (worker : WorkerId) : Option RunningWorker :=
  running.find? fun entry => decide (entry.grant.worker = worker)

def removeRunning (running : List RunningWorker) (worker : WorkerId) : List RunningWorker :=
  running.filter fun entry => decide (entry.grant.worker ≠ worker)

def activeGrants (allocator : SegmentAllocator) : List Grant :=
  allocator.intervals.intervals.filterMap fun interval =>
    match interval.label with
    | .inProgress worker => some ⟨worker, ⟨interval.start, interval.stop⟩⟩
    | _ => none

def completedBytesInside (allocator : SegmentAllocator) (grant : Range) : Nat :=
  ((allocator.intervals.intervals.filter fun interval => decide (interval.label = .complete)).map
    fun interval => min interval.stop grant.stop - max interval.start grant.start).sum

def allComplete (allocator : SegmentAllocator) : Bool :=
  allocator.intervals.intervals.all fun interval => decide (interval.label = .complete)

def writerLength (allocator : SegmentAllocator) : Nat :=
  (allocator.intervals.intervals.getLast?.map fun interval => interval.stop).getD 0

namespace System
variable {Url : Type} (setup : Setup Url)

def start (actor : StateActor) : System Url setup.backend where
  actor := actor
  queue := []
  tickets := 0
  tasks := []
  nextTask := 0
  control := {
    point := match setup.plan with
      | .segmented _ _ => .awaiting .identity (ask .snapshot)
      | plan => .returned (.error (.wrongPlan plan))
    grants := []
    allocatedWorkers := []
    running := []
    reports := []
    candidateIdle := none
    drainingForReassignment := false
    cancelledAttempts := []
    transientFailures := 0 }
  trace := []
  durable := []

variable {setup}
variable (sys : System Url setup.backend)

def moveTo (point : Point Url) : System Url setup.backend :=
  { sys with control := { sys.control with point := point } }

def await (stage : Stage Url) (command : Command) : System Url setup.backend :=
  sys.moveTo (.awaiting stage (ask command))

def abortAll : System Url setup.backend :=
  { sys with tasks := sys.tasks.map fun task => { task with aborted := true } }

/-- Returning drops the task set, which aborts the tasks that are left. -/
def leave (result : Except (PoolError Url) PoolReport) : System Url setup.backend :=
  sys.abortAll.moveTo (.returned result)

/-- The head of the loop. -/
def loopHead : System Url setup.backend :=
  if sys.tasks.isEmpty then sys.await .flushing .flush else sys.moveTo .selecting

/-- The cancel signals of these tasks fire; a dropped sender fires as well. -/
def signal (fired : List RunningWorker) : System Url setup.backend :=
  { sys with tasks := sys.tasks.map fun task =>
      if fired.any fun entry => entry.cancel && decide (entry.task = task.id) then
        { task with cancelled := true }
      else task }

def cancelRunning : System Url setup.backend :=
  let signalled := sys.signal sys.control.running
  { signalled with control := { sys.control with
      running := sys.control.running.map fun entry => { entry with cancel := false } } }

def spawn (grant : Grant) : System Url setup.backend :=
  let signalled := sys.signal (findRunning sys.control.running grant.worker).toList
  { signalled with
    tasks := signalled.tasks ++
      [spawned setup.backend setup.remote.finalUrl sys.nextTask grant]
    nextTask := sys.nextTask + 1
    control := { sys.control with
      running := insertRunning sys.control.running ⟨sys.nextTask, grant, true⟩ } }

def spawnAll (grants : List Grant) : System Url setup.backend :=
  grants.foldl spawn sys

def launch : System Url setup.backend :=
  if sys.control.grants = [] then sys.leave (.error .incompleteCoverage)
  else
    let launched := sys.spawnAll sys.control.grants
    loopHead { launched with control := { launched.control with
      allocatedWorkers := sys.control.grants.map Grant.worker } }

def allocateNext (index : Nat) : System Url setup.backend :=
  if index < setup.workers then
    if index ≥ 2 ^ 64 then sys.leave (.error (.workerIdOverflow index))
    else sys.await (.allocating index) (.allocate index)
  else sys.launch

/-- One turn of the loop over the allocated workers in `reclaim_after_failure`. -/
def abandonNext (error : PoolError Url) : List WorkerId → System Url setup.backend
  | [] => sys.leave (.error error)
  | worker :: rest => sys.await (.reclaiming error rest) (.abandon worker)

/-- The part of `reclaim_after_failure` after all tasks have been joined. -/
def reclaimed (error : PoolError Url) : System Url setup.backend :=
  abandonNext { sys with control := { sys.control with running := [] } } error
    sys.control.allocatedWorkers

def reclaim (error : PoolError Url) : System Url setup.backend :=
  if sys.tasks.isEmpty then sys.reclaimed error else sys.abortAll.moveTo (.joining error)

/-- The pool reads the map while no task is left. -/
def survey (allocator : SegmentAllocator) : System Url setup.backend :=
  let reports := sys.control.cancelledAttempts.filterMap fun attempt =>
    let bytes := completedBytesInside allocator attempt.grant.range
    if bytes > 0 then some (⟨attempt.grant.worker, bytes⟩ : WorkerReport) else none
  let surveyed : System Url setup.backend := { sys with control := { sys.control with
    reports := sys.control.reports ++ reports
    cancelledAttempts := [] } }
  if allComplete allocator then surveyed.await .lastFlush .flush
  else match sys.control.candidateIdle with
    | none => surveyed.leave (.error .incompleteCoverage)
    | some idle =>
      await { surveyed with control := { surveyed.control with
        candidateIdle := none
        drainingForReassignment := false } } .reassigning (.allocate idle)

/-- The pool continues with the reply it was waiting for. -/
def resume (stage : Stage Url) (reply : Except WriterServiceError Receipt) :
    System Url setup.backend :=
  match reply with
  | .error error => sys.leave (.error (.writer error))
  | .ok receipt =>
    match stage, receipt with
    | .identity, .snapshot allocator =>
      if writerLength allocator ≠ setup.totalLength then
        sys.leave (.error (.writerLengthMismatch (writerLength allocator) setup.totalLength))
      else sys.allocateNext 0
    | .allocating _, .allocation none _ => sys.launch
    | .allocating index, .allocation (some allocation) _ =>
      allocateNext { sys with control := { sys.control with
        grants := recordAllocation sys.control.grants allocation } } (index + 1)
    | .flushing, .flush _ => sys.await .surveying .snapshot
    | .surveying, .snapshot allocator => sys.survey allocator
    | .reassigning, .allocation none _ => sys.await .restarting .snapshot
    | .reassigning, .allocation (some allocation) _ => (sys.spawn allocation.grant).loopHead
    | .restarting, .snapshot allocator =>
      let restarted := sys.spawnAll (activeGrants allocator)
      if restarted.tasks.isEmpty then restarted.leave (.error .incompleteCoverage)
      else restarted.moveTo .selecting
    | .ticking, .flush _ => sys.loopHead
    | .abandoning attempt delay, .abandon _ _ =>
      let abandoned : System Url setup.backend := { sys with control := { sys.control with
        cancelledAttempts := sys.control.cancelledAttempts ++ [attempt]
        candidateIdle := some attempt.grant.worker
        drainingForReassignment := true } }
      abandoned.cancelRunning.moveTo (.sleeping delay)
    | .reclaiming error rest, .abandon _ _ => sys.abandonNext error rest
    | .lastFlush, .flush _ => sys.await .lastSnapshot .snapshot
    | .lastSnapshot, .snapshot allocator =>
      if allComplete allocator then
        sys.leave (.ok ⟨setup.plan, sys.control.reports.insertionSort
          fun left right => left.worker ≤ right.worker⟩)
      else sys.leave (.error .incompleteCoverage)
    -- The actor answers each command with the receipt of that command.
    | _, _ => sys

def forget (worker : WorkerId) : System Url setup.backend :=
  let signalled := sys.signal (findRunning sys.control.running worker).toList
  { signalled with control := { sys.control with
      running := removeRunning sys.control.running worker } }

def failed (worker : WorkerId) (error : PoolError Url) (clock : RetryClock) :
    System Url setup.backend :=
  match findRunning sys.control.running worker with
  | none => sys.reclaim .incompleteCoverage
  | some attempt =>
    let forgotten := sys.forget worker
    match retryableWorkerFailure error with
    | none => forgotten.reclaim error
    | some kind =>
      match RetryPolicy.default.decide clock kind sys.control.transientFailures none with
      | .giveUp => forgotten.reclaim error
      | .retryAfter delay =>
        await { forgotten with control := { forgotten.control with
          transientFailures := min (sys.control.transientFailures + 1) (2 ^ 32 - 1) } }
          (.abandoning attempt delay) (.abandon worker)

def delivered (worker : WorkerId) (report : WorkerReport) : System Url setup.backend :=
  let forgotten := sys.forget worker
  let reported : System Url setup.backend := { forgotten with control := { forgotten.control with
    reports := sys.control.reports ++ [report]
    candidateIdle := sys.control.candidateIdle <|> some worker } }
  if reported.control.running ≠ [] ∧ sys.control.drainingForReassignment = false then
    let drained := reported.cancelRunning
    loopHead { drained with control := { drained.control with drainingForReassignment := true } }
  else reported.loopHead

/-- The pool handles the end of a task that has left the task set. -/
def joined (worker : WorkerId) (ending : Ending Url) (clock : RetryClock) :
    System Url setup.backend :=
  match ending with
  | .finished (.ok report) => sys.delivered worker report
  | .finished (.error error) => sys.failed worker error clock
  | .cancelled =>
    match findRunning sys.control.running worker with
    | none => sys.reclaim .incompleteCoverage
    | some attempt =>
      let forgotten := sys.forget worker
      loopHead { forgotten with control := { forgotten.control with
        cancelledAttempts := sys.control.cancelledAttempts ++ [attempt] } }
  | .panicked => sys.reclaim .workerJoin

/-! The steps. -/

def findTask (id : Nat) : Option (Task Url setup.backend.State) :=
  sys.tasks.find? fun task => decide (task.id = id)

def removeTask (id : Nat) : System Url setup.backend :=
  { sys with tasks := sys.tasks.filter fun task => decide (task.id ≠ id) }

def updateTask (id : Nat) (change : Task Url setup.backend.State → Task Url setup.backend.State) :
    System Url setup.backend :=
  { sys with tasks := sys.tasks.map fun task => if task.id = id then change task else task }

/-- `join_next`, in the loop and in `reclaim_after_failure`. An aborted task is
gone at some await point. -/
def join (id : Nat) (clock : RetryClock) : System Url setup.backend :=
  match sys.control.point with
  | .selecting =>
    if sys.tasks.isEmpty then sys.reclaim .incompleteCoverage
    else match sys.findTask id with
      | none => sys
      | some task =>
        match task.activity with
        | .ended ending => (sys.removeTask id).joined task.worker ending clock
        | _ => sys
  | .joining error =>
    let joined := sys.removeTask id
    if joined.tasks.isEmpty then joined.reclaimed error else joined
  | .returned _ => sys.removeTask id
  | _ => sys

def enqueue (sender : Option Nat) (command : Command) : System Url setup.backend :=
  { sys with
    queue := sys.queue ++ [⟨sys.tickets, sender, command⟩]
    tickets := sys.tickets + 1 }

def send : System Url setup.backend :=
  match sys.control.point with
  | .awaiting stage ⟨command, .unsent⟩ =>
    if sys.queue.length < setup.capacity then
      (sys.enqueue none command).moveTo (.awaiting stage ⟨command, .sent sys.tickets⟩)
    else sys
  | _ => sys

def taskSend (id : Nat) : System Url setup.backend :=
  match (sys.findTask id).bind fun task => task.activity.pending with
  | some ⟨command, .unsent⟩ =>
    if sys.queue.length < setup.capacity then
      (sys.enqueue (some id) command).updateTask id fun task =>
        { task with activity := task.activity.mapAsk fun _ => ⟨command, .sent sys.tickets⟩ }
    else sys
  | _ => sys

/-- The end of the bytes that the part file has taken from a task. -/
def reached (served : Served) (entry : Queued) (task : Task Url setup.backend.State) : Nat :=
  match entry.command with
  | .write _ offset bytes _ =>
    if served.wrote && decide (entry.sender = some task.id) then offset + bytes.length
    else task.written
  | _ => task.written

/-- The actor serves the first command of the queue and the reply goes to the one
that waits for it. -/
def serve (io : StageIo) : System Url setup.backend :=
  match sys.queue with
  | [] => sys
  | entry :: rest =>
    let served := sys.actor.handle setup.blake3 setup.crc32c entry.command io
    let point := match sys.control.point with
      | .awaiting stage ask => .awaiting stage (ask.deliver entry.ticket served.reply)
      | point => point
    { sys with
      actor := served.actor
      queue := rest
      tasks := sys.tasks.map fun task => { task with
        activity := task.activity.mapAsk fun ask => ask.deliver entry.ticket served.reply
        written := reached served entry task }
      control := { sys.control with point := point }
      trace := sys.trace ++ served.events
      durable := sys.durable ++ served.durable }

end System

inductive Action {Url : Type} (backend : Backend Url) where
  | serve (io : StageIo)
  | send
  | proceed
  | join (task : Nat) (clock : RetryClock)
  | tick (now : Nat)
  | wake
  | taskSend (task : Nat)
  | taskReact (task : Nat) (event : backend.Event) (now : Nat)
  | taskReceive (task : Nat) (now : Nat)
  | taskCancel (task : Nat)

namespace System
variable {Url : Type} {setup : Setup Url}

def step (sys : System Url setup.backend) (action : Action setup.backend) :
    System Url setup.backend :=
  match action with
  | .serve io => sys.serve io
  | .send => sys.send
  | .proceed =>
    match sys.control.point with
    | .awaiting stage ⟨_, .answered reply⟩ => sys.resume stage reply
    | _ => sys
  | .join task clock => sys.join task clock
  | .tick now =>
    match sys.control.point with
    | .selecting => sys.await .ticking (.flushIfDue now)
    | _ => sys
  | .wake =>
    match sys.control.point with
    | .sleeping _ => sys.loopHead
    | _ => sys
  | .taskSend task => sys.taskSend task
  | .taskReact task event now =>
    sys.updateTask task fun task =>
      react setup.backend setup.serviceText setup.totalLength task event now
  | .taskReceive task now =>
    sys.updateTask task fun task =>
      receive setup.backend setup.serviceText setup.totalLength task now
  | .taskCancel task =>
    sys.updateTask task fun task =>
      if task.cancelled && !task.activity.isEnded then
        { task with activity := .ended .cancelled }
      else task

def run (sys : System Url setup.backend) (actions : List (Action setup.backend)) :
    System Url setup.backend :=
  actions.foldl step sys

end System

end Downpour.Pool
