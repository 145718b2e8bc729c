import Downpour.ActorTrace
import Downpour.PoolAccounts
import Downpour.PoolHttp
import Downpour.Splice

/-!
Whether the worker pool can mix representations. The server may change what it
serves at any time and answers each request honestly from what is current, as for
a resumed download. The requests of the pool carry no validator, so nothing ties
the answers to each other: all bytes come from one representation in every run
whose accepted answers came from one.
-/

namespace Downpour.PoolSplice
open Segments Intervals JournalFormat Allocator Writer CrashDisk Ranges Remote Http H1H2 Retry Actor
open ActorSafety ActorOwnership ActorTrace Pool PoolInvariant PoolMoves PoolHttp Splice

section Tasks
variable {Url : Type} (bytes : List UInt8)

def CommandSourced (command : Command) : Prop :=
  ∀ worker offset block now, command = .write worker offset block now →
    block <+: bytes.drop offset

/-- A fetch asks for the range of the grant, and the rest of its body continues
`bytes` at the cursor of the grant. -/
def FetchSourced (target : GrantWriter) : Fetch Url → Prop
  | .sending request =>
    request.range = some (.fromTo target.nextOffset (target.grant.range.stop - 1))
  | .reading _ _ _ _ rest => rest.flatten <+: bytes.drop target.nextOffset
  | .accepting _ _ _ _ chunk rest => chunk ++ rest.flatten <+: bytes.drop target.nextOffset

def CallSourced (target : GrantWriter) (chunk : List UInt8) : Fetch Url → Prop
  | .accepting request response contentRange delivered own rest =>
    own = chunk ∧ FetchSourced bytes target
      (.accepting request response contentRange delivered own rest)
  | _ => False

def ActivitySourced (target : GrantWriter) : Activity Url (Fetch Url) → Prop
  | .fetching fetch | .refused _ fetch => FetchSourced bytes target fetch
  | .accepting chunk fetch _ => CallSourced bytes target chunk fetch
  | .syncing _ _ => False
  | .committing _ | .ended _ => True

structure TaskSourced (task : Task Url (Fetch Url)) : Prop where
  pending : ∀ ask, task.activity.pending = some ask → CommandSourced bytes ask.command
  fetch : ActivitySourced bytes task.sink.target task.activity

/-- A response that passes the checks continues `bytes` where it was asked to. -/
def Supplies (request : RangeRequest Url) (response : Response) : Prop :=
  ∀ contentRange first last, checkResponse request response = .ok contentRange →
    request.range = some (.fromTo first last) → response.chunks.flatten <+: bytes.drop first

def MoveSourced (target : GrantWriter) : Move Url (Fetch Url) → Prop
  | .wait fetch => FetchSourced bytes target fetch
  | .accept chunk fetch => CallSourced bytes target chunk fetch
  | .sync _ | .rebase _ _ _ => False
  | .finish _ | .panic => True

variable {bytes}

theorem silent_sourced {task : Task Url (Fetch Url)} (silent : task.activity.pending = none)
    (fetch : ActivitySourced bytes task.sink.target task.activity) : TaskSourced bytes task := by
  refine ⟨?_, fetch⟩
  intro ask asked
  rw [silent] at asked
  cases asked

variable {target : GrantWriter} {chunk : List UInt8} {fetch : Fetch Url}

theorem call_fetch (call : CallSourced bytes target chunk fetch) :
    FetchSourced bytes target fetch := by
  cases fetch with
  | accepting request response contentRange delivered own rest => exact call.2
  | sending request => exact call.elim
  | reading request response contentRange delivered rest => exact call.elim

theorem call_block (call : CallSourced bytes target chunk fetch) :
    chunk <+: bytes.drop target.nextOffset := by
  cases fetch with
  | accepting request response contentRange delivered own rest =>
    obtain ⟨rfl, body⟩ := call
    exact (List.prefix_append own rest.flatten).trans body
  | sending request => exact call.elim
  | reading request response contentRange delivered rest => exact call.elim

theorem event_sourced (sourced : FetchSourced bytes target fetch)
    (supplied : ∀ request response, fetch = .sending request → event = .answered (.ok response) →
      Supplies bytes request response) :
    MoveSourced bytes target (next fetch (.event event)) := by
  cases fetch with
  | sending request =>
    cases event with
    | chunk => exact sourced
    | answered answer =>
      cases answer with
      | error error => cases error <;> exact trivial
      | ok response =>
        cases checked : checkResponse request response with
        | error error => simp only [next, checked, MoveSourced]
        | ok contentRange =>
          simp only [next, checked]
          exact supplied request response rfl rfl contentRange _ _ checked sourced
  | reading request response contentRange delivered rest =>
    cases event with
    | answered answer => cases rest <;> exact sourced
    | chunk =>
      cases rest with
      | nil => exact trivial
      | cons chunk rest =>
        simp only [next]
        by_cases empty : chunk = []
        · subst empty
          exact sourced
        · rw [if_neg empty]
          split
          · exact trivial
          · exact ⟨rfl, sourced⟩
  | accepting request response contentRange delivered chunk rest => exact sourced

theorem accepted_sourced (serviceText : WriterServiceError → String)
    (reply : Except WriterServiceError Receipt) (call : CallSourced bytes sink.target chunk fetch) :
    MoveSourced bytes (acceptReply serviceText sink chunk reply).2.target
      (next fetch (.accepted (acceptReply serviceText sink chunk reply).1)) := by
  cases fetch with
  | sending request => exact call.elim
  | reading request response contentRange delivered rest => exact call.elim
  | accepting request response contentRange delivered own rest =>
    obtain ⟨rfl, body⟩ := call
    cases reply with
    | error error => exact trivial
    | ok receipt =>
      obtain ⟨after, whole⟩ := body
      refine ⟨after, ?_⟩
      show rest.flatten ++ after = bytes.drop (sink.target.nextOffset + own.length)
      rw [← List.drop_drop, ← whole, List.append_assoc, List.drop_left]

theorem refused_sourced (error : SinkError) (sourced : FetchSourced bytes target fetch) :
    MoveSourced bytes target (next fetch (.accepted (.error error))) := by
  cases fetch with
  | sending request => exact sourced
  | reading request response contentRange delivered rest => cases rest <;> exact sourced
  | accepting request response contentRange delivered chunk rest => exact trivial

section Worker
variable (serviceText : WriterServiceError → String) (totalLength : Nat)

theorem follow_sourced (now : Nat) (sourced : MoveSourced bytes task.sink.target move) :
    TaskSourced bytes (follow (http Url) serviceText totalLength task now move) := by
  cases move with
  | wait fetch => exact silent_sourced rfl sourced
  | accept chunk fetch =>
    cases sent : acceptCommand serviceText task.sink chunk now with
    | error error =>
      simp only [follow, sent]
      exact silent_sourced rfl (call_fetch sourced)
    | ok command =>
      simp only [follow, sent]
      refine ⟨?_, sourced⟩
      rintro _ ⟨⟩ worker offset block _ rfl
      cases accept_command_write sent
      exact call_block sourced
  | sync fetch => exact sourced.elim
  | rebase baseOffset limit fetch => exact sourced.elim
  | finish result =>
    simp only [follow, fetched]
    cases result with
    | error error => exact silent_sourced rfl trivial
    | ok outcome =>
      simp only
      split
      · refine ⟨?_, trivial⟩
        rintro _ ⟨⟩ worker offset block now ⟨⟩
      · exact silent_sourced rfl trivial
  | panic => exact silent_sourced rfl trivial

variable {task : Task Url (Fetch Url)}

theorem react_sourced (now : Nat) (sourced : TaskSourced bytes task)
    (supplied : ∀ request response, task.activity = .fetching (.sending request) →
      event = .answered (.ok response) → Supplies bytes request response) :
    TaskSourced bytes (react (http Url) serviceText totalLength task event now) := by
  obtain ⟨id, sink, activity, cancelled, aborted, written⟩ := task
  obtain ⟨pending, fetch⟩ := sourced
  cases activity with
  | fetching fetch' =>
    apply follow_sourced
    apply event_sourced fetch
    rintro request response rfl answered
    exact supplied request response rfl answered
  | accepting chunk fetch' ask =>
    cases fetch' with
    | sending request => exact fetch.elim
    | reading request response contentRange delivered rest => exact fetch.elim
    | accepting request response contentRange delivered own rest => exact ⟨pending, fetch⟩
  | syncing fetch' ask => exact fetch.elim
  | refused error fetch' => exact ⟨pending, fetch⟩
  | committing ask => exact ⟨pending, fetch⟩
  | ended ending => exact ⟨pending, fetch⟩

theorem receive_sourced (now : Nat) (sourced : TaskSourced bytes task) :
    TaskSourced bytes (receive (http Url) serviceText totalLength task now) := by
  obtain ⟨id, sink, activity, cancelled, aborted, written⟩ := task
  obtain ⟨pending, fetch⟩ := sourced
  cases activity with
  | fetching fetch' => exact ⟨pending, fetch⟩
  | accepting chunk fetch' ask =>
    obtain ⟨command, status⟩ := ask
    cases status with
    | unsent => exact ⟨pending, fetch⟩
    | sent ticket => exact ⟨pending, fetch⟩
    | answered reply =>
      apply follow_sourced
      exact accepted_sourced serviceText reply fetch
  | refused error fetch' =>
    apply follow_sourced
    exact refused_sourced error fetch
  | syncing fetch' ask => exact fetch.elim
  | committing ask =>
    obtain ⟨command, status⟩ := ask
    cases status with
    | unsent => exact ⟨pending, fetch⟩
    | sent ticket => exact ⟨pending, fetch⟩
    | answered reply => exact silent_sourced rfl trivial
  | ended ending => exact ⟨pending, fetch⟩

theorem alike_sourced (alike : Alike task other)
    (sourced : TaskSourced bytes other) : TaskSourced bytes task := by
  obtain ⟨pending, fetch⟩ := sourced
  rw [← alike.activity] at pending
  rw [← alike.activity, ← alike.sink] at fetch
  exact ⟨pending, fetch⟩

theorem ask_sourced (written : Nat)
    (fits : ∀ ask, task.activity.pending = some ask → CommandSourced bytes (change ask).command)
    (sourced : TaskSourced bytes task) :
    TaskSourced bytes { task with activity := task.activity.mapAsk change, written := written } := by
  obtain ⟨id, sink, activity, cancelled, aborted, before⟩ := task
  obtain ⟨pending, fetch⟩ := sourced
  cases activity with
  | fetching fetch' => exact ⟨pending, fetch⟩
  | accepting chunk fetch' ask =>
    refine ⟨?_, fetch⟩
    rintro _ ⟨⟩
    exact fits ask rfl
  | refused error fetch' => exact ⟨pending, fetch⟩
  | syncing fetch' ask => exact fetch.elim
  | committing ask =>
    refine ⟨?_, fetch⟩
    rintro _ ⟨⟩
    exact fits ask rfl
  | ended ending => exact ⟨pending, fetch⟩

theorem spawned_sourced (url : Url) (id : Nat) (grant : Grant) :
    TaskSourced bytes (spawned (http Url) url id grant) := by
  unfold spawned
  split
  · exact silent_sourced rfl trivial
  · exact silent_sourced rfl rfl

end Worker

end Tasks

section Systems
variable {Url : Type} {setup : Setup Url}

def Answers (sys : System Url (overHttp setup).backend) (action : Action (overHttp setup).backend)
    (request : RangeRequest Url) (response : Response) : Prop :=
  ∃ id now, action = .taskReact id (.answered (.ok response)) now ∧
    ∃ task ∈ sys.tasks, task.id = id ∧ task.activity = .fetching (.sending request)

/-- Everything on its way to the part file, and everything written to it, is taken
from `bytes`; what is staged or newly complete has been written. -/
structure Sourced (bytes : List UInt8) (initial : StateActor)
    (sys : System Url (overHttp setup).backend) : Prop where
  tasks : ∀ task ∈ sys.tasks, TaskSourced bytes task
  own : ∀ stage ask, sys.control.point = .awaiting stage ask → Unwritten ask.command
  queue : ∀ entry ∈ sys.queue, CommandSourced bytes entry.command
  trace : ∀ event ∈ sys.trace, Copies bytes event
  written : ∀ pos, Staged sys.actor pos ∨ Complete sys.actor pos →
    Complete initial pos ∨ Written sys.trace pos

variable {bytes : List UInt8} {initial : StateActor}

theorem unwritten_sourced (unwritten : Unwritten command) :
    CommandSourced bytes command :=
  fun worker offset block now same => absurd same (unwritten worker offset block now)

theorem deliver_command (ask : Ask) (ticket : Nat) (reply : Except WriterServiceError Receipt) :
    (ask.deliver ticket reply).command = ask.command := by
  unfold Ask.deliver
  split
  · split <;> rfl
  · rfl

variable {sys : System Url (overHttp setup).backend} {request : RangeRequest Url}
    {response : Response}

theorem moves_sourced (sourced : Sourced bytes initial sys) (moves : Moves sys after) :
    Sourced bytes initial after := by
  constructor
  · intro task mem
    rcases moves.tasks task mem with ⟨before, found, alike⟩ | ⟨id, grant, alike⟩
    · exact alike_sourced alike (sourced.tasks before found)
    · exact alike_sourced alike (spawned_sourced _ id grant)
  · intro stage ask here
    rcases moves.asks stage ask here with same | new
    · exact sourced.own stage ask same
    · exact new
  · rw [moves.queue]
    exact sourced.queue
  · rw [moves.trace]
    exact sourced.trace
  · rw [moves.actor, moves.trace]
    exact sourced.written

theorem update_sourced {id : Nat}
    {change : Task Url (overHttp setup).backend.State → Task Url (overHttp setup).backend.State}
    (sourced : Sourced bytes initial sys)
    (changed : ∀ task ∈ sys.tasks, task.id = id → TaskSourced bytes (change task)) :
    Sourced bytes initial (sys.updateTask id change) := by
  refine ⟨?_, sourced.own, sourced.queue, sourced.trace, sourced.written⟩
  intro task mem
  obtain ⟨before, found, rfl⟩ := List.mem_map.mp mem
  by_cases same : before.id = id
  · rw [if_pos same]
    exact changed before found same
  · rw [if_neg same]
    exact sourced.tasks before found

theorem serve_sourced (io : StageIo) (sourced : Sourced bytes initial sys) :
    Sourced bytes initial (sys.serve io) := by
  cases queued : sys.queue with
  | nil =>
    simp only [System.serve, queued]
    exact sourced
  | cons entry rest =>
    have command := sourced.queue entry (queued ▸ List.mem_cons_self)
    have places := handle_places setup.blake3 setup.crc32c
      (handle_trail setup.blake3 setup.crc32c sys.actor entry.command io)
    simp only [System.serve, queued]
    constructor
    · intro task mem
      obtain ⟨before, found, rfl⟩ := List.mem_map.mp mem
      refine ask_sourced _ ?_ (sourced.tasks before found)
      intro ask asked
      rw [deliver_command]
      exact (sourced.tasks before found).pending ask asked
    · intro stage ask here
      cases point : sys.control.point with
      | awaiting now asked =>
        rw [point] at here
        cases here
        rw [deliver_command]
        exact sourced.own _ asked point
      | _ =>
        rw [point] at here
        cases here
    · exact fun other mem => sourced.queue other (queued ▸ List.mem_cons_of_mem _ mem)
    · intro event mem
      rcases List.mem_append.mp mem with old | new
      · exact sourced.trace event old
      · by_cases keeps : KeepsData event
        · cases event with
          | write offset block => exact keeps.elim
          | writeFailed offset block landed => exact keeps.elim
          | _ => exact trivial
        · obtain ⟨worker, offset, block, now, same, rfl | ⟨landed, rfl⟩⟩ :=
            places.data event new keeps
          · exact command worker offset block now same
          · exact command worker offset block now same
    · intro pos reached
      have before : ∀ pos, Staged sys.actor pos ∨ Complete sys.actor pos →
          Complete initial pos ∨ Written (sys.trace ++ (sys.actor.handle setup.blake3
            setup.crc32c entry.command io).events) pos := fun pos known =>
        (sourced.written pos known).imp_right fun written =>
          (written_append _ _ pos).mpr (Or.inl written)
      have wrote : Wrote entry.command (sys.actor.handle setup.blake3 setup.crc32c
          entry.command io) pos → Written (sys.trace ++ (sys.actor.handle setup.blake3
            setup.crc32c entry.command io).events) pos := by
        rintro ⟨worker, offset, block, now, _, inside, event⟩
        exact ⟨offset, block, List.mem_append_right _ event, inside⟩
      rcases reached with staged | complete
      · rcases places.staged pos staged with was | new
        · exact before pos (Or.inl was)
        · exact Or.inr (wrote new)
      · rcases places.completed pos complete with was | was | new
        · exact before pos (Or.inr was)
        · exact before pos (Or.inl was)
        · exact Or.inr (wrote new)

theorem enqueue_sourced (sender : Option Nat)
    (sourced : Sourced bytes initial sys) (fits : CommandSourced bytes command) :
    Sourced bytes initial (sys.enqueue sender command) := by
  refine ⟨sourced.tasks, sourced.own, ?_, sourced.trace, sourced.written⟩
  intro entry mem
  rcases List.mem_append.mp mem with old | new
  · exact sourced.queue entry old
  · rw [List.mem_singleton.mp new]
    exact fits

theorem send_sourced (sourced : Sourced bytes initial sys) :
    Sourced bytes initial sys.send := by
  unfold System.send
  split
  next stage command here =>
    split
    · have own := sourced.own stage _ here
      have queued := enqueue_sourced none sourced (unwritten_sourced own)
      refine ⟨queued.tasks, ?_, queued.queue, queued.trace, queued.written⟩
      rintro _ _ ⟨⟩
      exact own
    · exact sourced
  next => exact sourced

theorem task_send_sourced (id : Nat) (sourced : Sourced bytes initial sys) :
    Sourced bytes initial (sys.taskSend id) := by
  unfold System.taskSend
  split
  next command pending =>
    split
    · obtain ⟨task, found, asked⟩ := Option.bind_eq_some_iff.mp pending
      have fits := (sourced.tasks task (List.mem_of_find?_eq_some found)).pending _ asked
      refine update_sourced (enqueue_sourced (some id) sourced fits) ?_
      intro other mem _
      exact ask_sourced other.written (fun _ _ => fits) (sourced.tasks other mem)
    · exact sourced
  next => exact sourced

theorem step_sourced {action : Action (overHttp setup).backend}
    (sourced : Sourced bytes initial sys)
    (supplied : ∀ request response, Answers sys action request response →
      Supplies bytes request response) :
    Sourced bytes initial (sys.step action) := by
  cases action with
  | serve io => exact serve_sourced io sourced
  | send => exact send_sourced sourced
  | proceed =>
    simp only [System.step]
    split
    next stage _ reply _ => exact moves_sourced sourced (Moves.resume sys stage reply)
    next => exact sourced
  | join id clock => exact moves_sourced sourced (Moves.join sys id clock)
  | tick now =>
    simp only [System.step]
    split
    next => exact moves_sourced sourced (Moves.await sys _ _ (by rintro _ _ _ _ ⟨⟩))
    next => exact sourced
  | wake =>
    simp only [System.step]
    split
    next => exact moves_sourced sourced (Moves.loopHead sys)
    next => exact sourced
  | taskSend id => exact task_send_sourced id sourced
  | taskReact id event now =>
    apply update_sourced sourced
    intro task mem same
    apply react_sourced _ _ now (sourced.tasks task mem)
    rintro request response waiting rfl
    exact supplied request response ⟨id, now, rfl, task, mem, same, waiting⟩
  | taskReceive id now =>
    apply update_sourced sourced
    intro task mem _
    exact receive_sourced _ _ now (sourced.tasks task mem)
  | taskCancel id =>
    apply update_sourced sourced
    intro task mem _
    by_cases stops : (task.cancelled && !task.activity.isEnded) = true
    · rw [if_pos stops]
      exact silent_sourced rfl trivial
    · rw [if_neg stops]
      exact sourced.tasks task mem

def AnswersAt (start : System Url (overHttp setup).backend)
    (actions : List (Action (overHttp setup).backend)) (index : Nat) (request : RangeRequest Url)
    (response : Response) : Prop :=
  ∃ action, actions[index]? = some action ∧
    Answers (start.run (actions.take index)) action request response

theorem run_sourced (sourced : Sourced bytes initial sys)
    (supplied : ∀ index request response, AnswersAt sys actions index request response →
      Supplies bytes request response) :
    Sourced bytes initial (sys.run actions) := by
  induction actions generalizing sys with
  | nil => exact sourced
  | cons action rest ih =>
    apply ih
    · apply step_sourced sourced
      intro request response answers
      exact supplied 0 request response ⟨action, rfl, answers⟩
    · rintro index request response ⟨later, found, answers⟩
      exact supplied (index + 1) request response ⟨later, found, answers⟩

theorem start_sourced (bytes : List UInt8) (unstaged : initial.writer.staged = []) :
    Sourced bytes initial (System.start (overHttp setup) initial) := by
  refine ⟨by simp [System.start], ?_, by simp [System.start], by simp [System.start], ?_⟩
  · intro stage ask here
    simp only [System.start] at here
    split at here
    · cases here
      rintro _ _ _ _ ⟨⟩
    · cases here
  · rintro pos (⟨block, mem, _⟩ | complete)
    · simp [System.start, unstaged] at mem
    · exact Or.inl complete

/-- The server answers every request of the pool honestly from what is current. -/
def HonestPool (schedule : Nat → Representation) (start : System Url (overHttp setup).backend)
    (actions : List (Action (overHttp setup).backend)) : Prop :=
  ∀ index request response, AnswersAt start actions index request response →
    Honest (schedule index) request response

/-- All answers that pass the checks of the backend came from one representation. -/
def Unreplaced (schedule : Nat → Representation) (start : System Url (overHttp setup).backend)
    (actions : List (Action (overHttp setup).backend)) : Prop :=
  ∃ served, ∀ index request response contentRange,
    AnswersAt start actions index request response →
    checkResponse request response = .ok contentRange → schedule index = schedule served

theorem checked_part (asked : request.range = some range)
    (checked : checkResponse request response = .ok contentRange) : response.status = 206 := by
  unfold checkResponse at checked
  split at checked
  · cases checked
  · split at checked
    · cases checked
    · simp only [asked] at checked
      split at checked
      · cases checked
      next proof proven => exact (Probing.proof_observed proven).1

theorem honest_supplies (honest : Honest representation request response) :
    Supplies representation.bytes request response := by
  intro contentRange first last checked asked
  have status := checked_part asked checked
  obtain ⟨range, begins, stops, same, _, consistent, body⟩ := honest.part status
  cases asked.symm.trans same
  have same : begins = first := by
    by_contra moved
    simp [ContentRange.isConsistentWith, moved] at consistent
  rw [same] at body
  exact body.trans (List.take_prefix _ _)

/-- While all accepted answers come from one representation, every byte that the
run makes complete is the byte of that representation, whatever the part file held
before and whether or not the run has returned. -/
theorem pool_one_representation (setup : Setup Url) (schedule : Nat → Representation)
    (dataLength journalLength journalBytes nextSequence : Nat) (writer : DurableWriter)
    (allocator : SegmentAllocator)
    (created : tryNew dataLength journalLength journalBytes nextSequence = .ok writer)
    (actions : List (Action (overHttp setup).backend))
    (honest : HonestPool schedule (System.start (overHttp setup) ⟨writer, allocator⟩) actions)
    (unreplaced : Unreplaced schedule (System.start (overHttp setup) ⟨writer, allocator⟩) actions) :
    let reached := (System.start (overHttp setup) ⟨writer, allocator⟩).run actions
    ∃ served, ∀ disk : Disk UInt8, ∀ pos,
      reached.actor.allocator.intervals.stateAt pos = some .complete →
      allocator.intervals.stateAt pos ≠ some .complete →
      (schedule served).bytes[pos]? = some ((disk.run reached.trace).visible pos) := by
  intro reached
  obtain ⟨served, one⟩ := unreplaced
  have sourced : Sourced (schedule served).bytes ⟨writer, allocator⟩ reached := by
    apply run_sourced (start_sourced _ (try_new_unstaged created))
    intro index request response answers contentRange first last checked asked
    have honest := honest index request response answers
    rw [one index request response contentRange answers checked] at honest
    exact honest_supplies honest contentRange first last checked asked
  refine ⟨served, fun disk pos complete fresh => ?_⟩
  rcases sourced.written pos (Or.inr complete) with before | written
  · exact absurd before fresh
  · exact copies_shows disk sourced.trace written

/-- The range and the condition of the request that a task is waiting with. -/
def waitingFor (sys : System Url (overHttp setup).backend) (id : Nat) :
    List (Option ByteRangeSpec × Option (List Char)) :=
  sys.tasks.filterMap fun task =>
    match task.activity with
    | .fetching (.sending request) =>
      if task.id = id then some (request.range, request.ifRange) else none
    | _ => none

theorem answers_waiting (answers : Answers sys action request response) :
    ∃ id now, action = .taskReact id (.answered (.ok response)) now ∧
      (request.range, request.ifRange) ∈ waitingFor sys id := by
  obtain ⟨id, now, same, task, mem, known, waiting⟩ := answers
  refine ⟨id, now, same, List.mem_filterMap.mpr ⟨task, mem, ?_⟩⟩
  rw [waiting]
  exact if_pos known

end Systems

/-! Two workers of a four-byte download. The first half is answered from the old
file and the second half from `second`. -/

def halves : Setup Unit := PoolSafety.twoWorkers

def partResponse (representation : Representation) (first : Nat) (header : String) : Response :=
  { plainResponse 206 representation with
    contentRange := some header.toList
    chunks := [(representation.bytes.drop first).take 2] }

/-- The head of the response, its only chunk, its end, and the final sync. -/
def fetchPart (id : Nat) (response : Response) : List (Action (overHttp halves).backend) :=
  [.taskReact id (.answered (.ok response)) 0, .taskReact id .chunk 0, .taskSend id, .serve calmIo,
    .taskReceive id 0, .taskReact id .chunk 0, .taskSend id, .serve calmIo, .taskReceive id 0]

def replacedRun (second : Representation) : List (Action (overHttp halves).backend) :=
  (List.replicate 3 (PoolSafety.call (overHttp halves).backend)).flatten ++
    fetchPart 0 (partResponse oldFile 0 "bytes 0-1/4") ++
    fetchPart 1 (partResponse second 2 "bytes 2-3/4") ++
    [.join 0 ⟨0, 0, fun _ => none⟩, .join 1 ⟨0, 0, fun _ => none⟩] ++
    (List.replicate 4 (PoolSafety.call (overHttp halves).backend)).flatten

def replacedSchedule (second : Representation) (index : Nat) : Representation :=
  if index < 18 then oldFile else second

def replacedStart : System Unit (overHttp halves).backend :=
  System.start (overHttp halves) ⟨fourBytes.actor.writer, fourBytes.actor.allocator⟩

def isAnswer : Action (overHttp halves).backend → Bool
  | .taskReact _ (.answered (.ok _)) _ => true
  | _ => false

theorem replaced_answers {second : Representation} {index : Nat} {request : RangeRequest Unit}
    {response : Response}
    (answers : AnswersAt replacedStart (replacedRun second) index request response) :
    (index = 9 ∧ (request.range, request.ifRange) = (some (.fromTo 0 1), none) ∧
        response = partResponse oldFile 0 "bytes 0-1/4") ∨
      (index = 18 ∧ (request.range, request.ifRange) = (some (.fromTo 2 3), none) ∧
        response = partResponse second 2 "bytes 2-3/4") := by
  obtain ⟨action, found, answers⟩ := answers
  obtain ⟨id, now, rfl, waiting⟩ := answers_waiting answers
  -- The run of the old file has its answers at the same places.
  have shape : (replacedRun second).map isAnswer = (replacedRun oldFile).map isAnswer := rfl
  have answer : ((replacedRun oldFile).map isAnswer)[index]? = some true := by
    rw [← shape, List.getElem?_map, found]
    rfl
  have places : ∀ index < 41, ((replacedRun oldFile).map isAnswer)[index]? = some true →
      index = 9 ∨ index = 18 := by
    decide +kernel
  have short : index < 41 := (List.getElem?_eq_some_iff.mp answer).1
  rcases places index short answer with rfl | rfl
  · cases found
    have first : waitingFor (replacedStart.run ((replacedRun oldFile).take 9)) 0 =
        [(some (.fromTo 0 1), none)] := by
      decide +kernel
    rw [show (replacedRun second).take 9 = (replacedRun oldFile).take 9 from rfl, first] at waiting
    exact Or.inl ⟨rfl, List.mem_singleton.mp waiting, rfl⟩
  · cases found
    have other : waitingFor (replacedStart.run ((replacedRun oldFile).take 18)) 1 =
        [(some (.fromTo 2 3), none)] := by
      decide +kernel
    rw [show (replacedRun second).take 18 = (replacedRun oldFile).take 18 from rfl, other] at waiting
    exact Or.inr ⟨rfl, List.mem_singleton.mp waiting, rfl⟩

theorem replaced_honest {second : Representation} (known : second = oldFile ∨ second = newFile) :
    HonestPool (replacedSchedule second) replacedStart (replacedRun second) := by
  intro index request response answers
  rcases replaced_answers answers with
    ⟨rfl, asked, rfl⟩ | ⟨rfl, asked, rfl⟩
  · obtain ⟨range, unconditional⟩ := Prod.mk.inj asked
    exact ⟨fun _ => rfl, fun other => absurd (show 206 = 200 from other) (by decide),
      fun _ => ⟨.fromTo 0 1, 0, 1, range, rfl, rfl, [], rfl⟩,
      fun _ conditional => by rw [unconditional] at conditional; cases conditional⟩
  · obtain ⟨range, unconditional⟩ := Prod.mk.inj asked
    rcases known with rfl | rfl <;>
      exact ⟨fun _ => rfl, fun other => absurd (show 206 = 200 from other) (by decide),
        fun _ => ⟨.fromTo 2 3, 2, 3, range, rfl, rfl, [], rfl⟩,
        fun _ conditional => by rw [unconditional] at conditional; cases conditional⟩

def emptyDisk : Disk UInt8 := ⟨fun _ => 0, fun _ => ∅, [], []⟩

/-- A steady server: both halves are those of the old file. -/
theorem halves_steady :
    (∃ report, (replacedStart.run (replacedRun oldFile)).control.point = .returned (.ok report)) ∧
      ∃ served, ∀ disk : Disk UInt8, ∀ pos,
        (replacedStart.run (replacedRun oldFile)).actor.allocator.intervals.stateAt pos =
          some .complete →
        fourBytes.actor.allocator.intervals.stateAt pos ≠ some .complete →
        (replacedSchedule oldFile served).bytes[pos]? =
          some ((disk.run (replacedStart.run (replacedRun oldFile)).trace).visible pos) := by
  have returned := PoolAccounts.final_report_returned (replacedStart.run (replacedRun oldFile))
    ⟨.segmented 4 2, [⟨0, 2⟩, ⟨1, 2⟩]⟩ (by decide +kernel)
  refine ⟨⟨_, returned⟩, ?_⟩
  have steady : Unreplaced (replacedSchedule oldFile) replacedStart (replacedRun oldFile) :=
    ⟨0, fun index _ _ _ _ _ => by simp only [replacedSchedule, ite_self]⟩
  have honest := replaced_honest (Or.inl rfl)
  unfold replacedStart at honest steady ⊢
  exact pool_one_representation halves (replacedSchedule oldFile) 4 4 0 0 fourBytes.actor.writer
    fourBytes.actor.allocator rfl (replacedRun oldFile) honest steady

/-- The file is replaced between the two answers, by one of the same length under
another strong validator. Both answers are accepted and the run returns well, with
the old first half and the new second half. -/
theorem halves_mixed :
    HonestPool (replacedSchedule newFile) replacedStart (replacedRun newFile) ∧
      (∀ index, (replacedSchedule newFile index).bytes.length = 4) ∧
      oldFile.etag ≠ newFile.etag ∧
      (∃ report, (replacedStart.run (replacedRun newFile)).control.point =
        .returned (.ok report)) ∧
      ¬ ∃ served, ∀ disk : Disk UInt8, ∀ pos,
        (replacedStart.run (replacedRun newFile)).actor.allocator.intervals.stateAt pos =
          some .complete →
        fourBytes.actor.allocator.intervals.stateAt pos ≠ some .complete →
        (replacedSchedule newFile served).bytes[pos]? =
          some ((disk.run (replacedStart.run (replacedRun newFile)).trace).visible pos) := by
  refine ⟨replaced_honest (Or.inr rfl), ?_, by decide, ⟨⟨.segmented 4 2, [⟨0, 2⟩, ⟨1, 2⟩]⟩,
      PoolAccounts.final_report_returned _ _ (by decide +kernel)⟩, ?_⟩
  · intro index
    unfold replacedSchedule
    split <;> rfl
  · rintro ⟨served, one⟩
    have first := one emptyDisk 0 (by decide +kernel) (by decide +kernel)
    have third := one emptyDisk 2 (by decide +kernel) (by decide +kernel)
    have old : (emptyDisk.run (replacedStart.run (replacedRun newFile)).trace).visible 0 = 1 := by
      decide +kernel
    have new : (emptyDisk.run (replacedStart.run (replacedRun newFile)).trace).visible 2 = 7 := by
      decide +kernel
    rw [old] at first
    rw [new] at third
    unfold replacedSchedule at first third
    split at first
    · rw [if_pos (by assumption)] at third
      exact absurd third (by decide)
    · exact absurd first (by decide)

end Downpour.PoolSplice
