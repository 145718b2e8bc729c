import Downpour.PoolInvariant

/-!
The actor serves a command of the pool or of a task. A write that the part file
took was at the first free byte of its worker, so the written part of its task
grows by exactly this block; every other command leaves the free bytes of all
tasks as they are.
-/

namespace Downpour.PoolServe
open Segments Intervals JournalFormat Allocator Writer Http Actor ActorSafety ActorOwnership Pool
open PoolInvariant

variable {Url : Type} {setup : Setup Url}

def servedTask (served : Served) (entry : Queued) (task : Task Url setup.backend.State) :
    Task Url setup.backend.State :=
  { task with
    activity := task.activity.mapAsk fun ask => ask.deliver entry.ticket served.reply
    written := System.reached served entry task }

structure Steady (actor after : StateActor) (worker : WorkerId) : Prop where
  free : ∀ pos, Free after worker pos ↔ Free actor worker pos
  owned : ∀ pos, Owns after worker pos → Owns actor worker pos

variable {actor after : StateActor} {durable : List DurableBlock}
    {sys : System Url setup.backend} {entry : Queued} {rest : List Queued} {worker : WorkerId}

theorem settles_steady (settles : Settles actor after durable) (worker : WorkerId) :
    Steady actor after worker :=
  ⟨fun pos => (settles_owns actor durable settles worker pos).2,
    fun pos => (settles_owns actor durable settles worker pos).1⟩

theorem steady_sound {task : Task Url setup.backend.State} (sound : TaskSound actor task)
    (steady : Steady actor after task.worker)
    (same : System.reached served entry task = task.written) :
    TaskSound after (servedTask served entry task) ∧
      task.written ≤ System.reached served entry task := by
  have written : (servedTask served entry task).written = task.written := same
  refine ⟨⟨?_, ?_, ?_, ?_⟩, Nat.le_of_eq same.symm⟩
  · rw [written]
    exact sound.cursor
  · rw [written]
    exact sound.stop
  · intro pos
    rw [written]
    exact (steady.free pos).trans (sound.free pos)
  · intro pos owned
    exact sound.owned pos (steady.owned pos owned)

/-- What serving a command does to the bytes of all tasks and of the writes that
stay in the queue. -/
structure Effect (sys : System Url setup.backend) (entry : Queued) (rest : List Queued)
    (served : Served) : Prop where
  lined : Lined served.actor
  sound : ∀ task ∈ sys.tasks, TaskSound served.actor (servedTask served entry task) ∧
    task.written ≤ System.reached served entry task
  front : ∀ other ∈ rest, ∀ worker offset bytes now,
    other.command = .write worker offset bytes now →
    ∀ pos, Free served.actor worker pos → Free sys.actor worker pos

theorem steady_effect (rest : List Queued) (base : Base sys)
    (lined : Lined served.actor) (steady : ∀ worker, Steady sys.actor served.actor worker)
    (same : ∀ task ∈ sys.tasks, System.reached served entry task = task.written) :
    Effect sys entry rest served := by
  refine ⟨lined, ?_, ?_⟩
  · intro task mem
    exact steady_sound (base.sound task mem) (steady task.worker) (same task mem)
  · intro _ _ worker _ _ _ _ pos free
    exact ((steady worker).free pos).mp free

theorem alone_effect (entry : Queued) (lined : Lined served.actor) (tasks : sys.tasks = [])
    (writes : ∀ other ∈ rest, ∀ worker offset bytes now,
      other.command ≠ .write worker offset bytes now) : Effect sys entry rest served := by
  refine ⟨lined, by simp [tasks], ?_⟩
  intro other mem worker offset bytes now command
  exact absurd command (writes other mem worker offset bytes now)

theorem settled_effect (rest : List Queued) (base : Base sys)
    (settles : Settles sys.actor served.actor served.durable)
    (same : ∀ task ∈ sys.tasks, System.reached served entry task = task.written) :
    Effect sys entry rest served :=
  steady_effect rest base
    (settles_lined base.lined settles)
    (settles_steady settles) same

theorem unwritten_reached (task : Task Url setup.backend.State)
    (unwritten : (∀ worker offset bytes now, entry.command ≠ .write worker offset bytes now) ∨
      served.wrote = false) : System.reached served entry task = task.written := by
  unfold System.reached
  split
  next worker offset bytes now command =>
    rcases unwritten with other | missing
    · exact absurd command (other worker offset bytes now)
    · simp [missing]
  next => rfl

theorem write_effect (base : Base sys) (queued : sys.queue = entry :: rest) {id : Nat}
    (sender : entry.sender = some id) {offset : Nat} {bytes : List UInt8} {now : Nat}
    (command : entry.command = .write worker offset bytes now) (io : StageIo) :
    Effect sys entry rest
      (sys.actor.write setup.blake3 setup.crc32c worker offset bytes now io) := by
  have shape := (base.sent entry (queued ▸ List.mem_cons_self) id sender).2
  rw [Queueable, command] at shape
  rcases shape with impossible | ⟨_, _, _, _, same, front, only⟩
  · cases impossible
  cases same
  have ended := write_end setup.blake3 setup.crc32c sys.actor worker offset bytes now io
  generalize sys.actor.write setup.blake3 setup.crc32c worker offset bytes now io = served
    at ended ⊢
  cases ended with
  | refused error =>
    exact settled_effect rest base (Settles.kept sys.actor.writer rfl)
      fun task _ => unwritten_reached task (Or.inr rfl)
  | failed _ error replied unwritten settles =>
    exact settled_effect rest base settles fun task _ => unwritten_reached task (Or.inr unwritten)
  | staged _ wrote ready settles replied =>
    have owns := settles_owns (pushed setup.blake3 sys.actor worker offset bytes now)
      served.durable settles
    have taken := ready_free sys.actor worker offset bytes ready
    have free : ∀ other pos, Free served.actor other pos ↔
        Free sys.actor other pos ∧ ¬ Inside ⟨offset, offset + bytes.length⟩ pos := by
      intro other pos
      rw [(owns other pos).2, push_free]
    refine ⟨settles_lined (push_lined setup.blake3 sys.actor worker offset bytes now
      base.lined ready front) settles, ?_, ?_⟩
    · intro task mem
      have sound := base.sound task mem
      by_cases mine : task.id = id
      · have owner := (only task mem).mpr mine
        have reach : System.reached served entry task = offset + bytes.length := by
          simp [System.reached, command, wrote, sender, mine]
        -- The block starts at the first free byte of the task.
        have positive := ready.positive
        have first := (sound.free offset).mp (owner.symm ▸ taken offset ⟨by simp, by simp; omega⟩)
        have last := (sound.free (offset + bytes.length - 1)).mp
          (owner.symm ▸ taken _ ⟨by simp only; omega, by simp only; omega⟩)
        have least := front task.written
          (owner ▸ (sound.free task.written).mpr ⟨Nat.le_refl _, by omega⟩)
        have cursor := sound.cursor
        refine ⟨⟨?_, ?_, ?_, ?_⟩, by omega⟩
        · show task.sink.target.nextOffset ≤ System.reached served entry task
          omega
        · show System.reached served entry task ≤ task.grant.range.stop
          omega
        · intro pos
          show Free served.actor task.worker pos ↔
            System.reached served entry task ≤ pos ∧ pos < task.grant.range.stop
          rw [free, sound.free, reach]
          simp only [Inside]
          omega
        · intro pos owned
          exact sound.owned pos ((owns task.worker pos).1 owned)
      · refine steady_sound sound ⟨?_, ?_⟩ ?_
        · intro pos
          rw [free]
          refine and_iff_left_of_imp fun held inside => mine ((only task mem).mp ?_)
          exact owner_unique held.1 (taken pos inside).1
        · intro pos owned
          exact (owns task.worker pos).1 owned
        · simp [System.reached, command, sender, Ne.symm mine]
    · intro _ _ other _ _ _ _ pos held
      exact ((free other pos).mp held).1

theorem control_effect (base : Base sys) (io : StageIo)
    (other : ∀ worker offset bytes now, entry.command ≠ .write worker offset bytes now)
    (allocating : ∀ worker, entry.command = .allocate worker → sys.tasks = [] ∧
      ∀ waiting ∈ rest, ∀ worker offset bytes now,
        waiting.command ≠ .write worker offset bytes now)
    (abandoning : ∀ worker, entry.command = .abandon worker →
      ∀ task ∈ sys.tasks, task.worker ≠ worker) :
    Effect sys entry rest
      (sys.actor.handle setup.blake3 setup.crc32c entry.command io) := by
  have ended := handle_end setup.blake3 setup.crc32c sys.actor entry.command io
  generalize sys.actor.handle setup.blake3 setup.crc32c entry.command io = served at ended ⊢
  have same : ∀ task ∈ sys.tasks, System.reached served entry task = task.written :=
    fun task _ => unwritten_reached task (Or.inl other)
  generalize asked : entry.command = command at ended
  cases ended with
  | settled _ _ settles => exact settled_effect rest base settles same
  | staged worker offset bytes now => exact absurd asked (other worker offset bytes now)
  | allocated worker fence durable settles empty allocation next found events =>
    obtain ⟨tasks, writes⟩ := allocating worker asked
    have fenced := settles_lined base.lined settles
    exact alone_effect entry (allocate_lined fenced empty found) tasks writes
  | abandoned worker fence durable settles empty events =>
    have fenced := settles_lined base.lined settles
    have steady := settles_steady settles
    have free : ∀ owner pos,
        Free ⟨fence.writer, (fence.allocator.abandon worker).1⟩ owner pos ↔
          owner ≠ worker ∧ Free sys.actor owner pos := by
      intro owner pos
      rw [free_unstaged ⟨fence.writer, (fence.allocator.abandon worker).1⟩ empty, abandon_owns,
        ← (steady owner).free pos, free_unstaged fence empty]
    refine ⟨abandon_lined worker empty fenced, ?_, ?_⟩
    · intro task mem
      have different := abandoning worker asked task mem
      refine steady_sound (base.sound task mem) ⟨?_, ?_⟩ (same task mem)
      · intro pos
        exact (free task.worker pos).trans (and_iff_right different)
      · intro pos owned
        exact (steady task.worker).owned pos ((abandon_owns fence worker _ _).mp owned).2
    · intro _ _ owner _ _ _ _ pos held
      exact ((free owner pos).mp held).2

/-! The invariant after a command was served. -/

def servedSystem (sys : System Url setup.backend) (entry : Queued) (rest : List Queued)
    (served : Served) : System Url setup.backend :=
  { sys with
    actor := served.actor
    queue := rest
    tasks := sys.tasks.map (servedTask served entry)
    control := { sys.control with
      point := match sys.control.point with
        | .awaiting stage ask => .awaiting stage (ask.deliver entry.ticket served.reply)
        | point => point }
    trace := sys.trace ++ served.events
    durable := sys.durable ++ served.durable }

theorem served_eq (queued : sys.queue = entry :: rest) (io : StageIo) :
    sys.serve io = servedSystem sys entry rest
      (sys.actor.handle setup.blake3 setup.crc32c entry.command io) := by
  unfold System.serve
  rw [queued]
  rfl

theorem served_call (queued : sys.queue = entry :: rest) (base : Base sys)
    (mem : task ∈ sys.tasks) (grown : task.written ≤ System.reached
      (sys.actor.handle setup.blake3 setup.crc32c entry.command io) entry task) :
    CallSound (servedTask (sys.actor.handle setup.blake3 setup.crc32c entry.command io) entry
      task) := by
  have call := base.calls task mem
  have waiting := base.waiting task mem
  have head : entry ∈ sys.queue := queued ▸ List.mem_cons_self
  unfold CallSound at call ⊢
  cases activity : task.activity with
  | fetching state => simp [servedTask, activity, Activity.mapAsk]
  | refused error state => simp [servedTask, activity, Activity.mapAsk]
  | ended ending => simp [servedTask, activity, Activity.mapAsk]
  | syncing state ask =>
    rw [activity] at call
    simp only [servedTask, activity, Activity.mapAsk, Ask.deliver]
    split
    next => split <;> exact call
    next => exact call
  | committing ask =>
    rw [activity] at call
    simp only [servedTask, activity, Activity.mapAsk, Ask.deliver]
    split
    next => split <;> exact call
    next => exact call
  | accepting bytes state ask =>
    rw [activity] at call
    obtain ⟨⟨now, command⟩, answered⟩ := call
    simp only [servedTask, activity, Activity.mapAsk, Ask.deliver]
    cases status : ask.status with
    | unsent => exact ⟨⟨now, command⟩, by simp [status]⟩
    | answered reply =>
      refine ⟨⟨now, command⟩, ?_⟩
      intro receipt same
      exact Nat.le_trans (answered receipt same) grown
    | sent ticket =>
      simp only
      split
      next mine =>
        refine ⟨⟨now, command⟩, ?_⟩
        intro receipt same
        -- The reply belongs to this call, so the part file took exactly its bytes.
        obtain ⟨_, matched⟩ := waiting ask ticket (by rw [activity]; rfl) status
        obtain ⟨sender, asked⟩ := matched entry head mine.symm
        have written := asked.trans command
        simp only [Status.answered.injEq] at same
        have wrote : (sys.actor.handle setup.blake3 setup.crc32c entry.command io).wrote =
            true := by
          rw [written] at same ⊢
          exact write_accepted setup.blake3 setup.crc32c same
        show _ ≤ System.reached _ entry task
        unfold System.reached
        rw [wrote, sender, written]
        simp
      next other =>
        refine ⟨⟨now, command⟩, ?_⟩
        intro receipt same
        rw [status] at same
        cases same

theorem mapped_pending (activity : Activity Url setup.backend.State) (change : Ask → Ask) :
    (activity.mapAsk change).pending = activity.pending.map change := by
  cases activity <;> rfl

theorem delivered_sent (ask : Ask) (status : (ask.deliver ticket reply).status = .sent awaited) :
    ask.status = .sent awaited ∧ ask.deliver ticket reply = ask ∧ awaited ≠ ticket := by
  unfold Ask.deliver at status ⊢
  split at status
  next mine sent =>
    split at status
    · cases status
    next other =>
      simp only [sent, if_neg other]
      rw [sent] at status
      cases status
      exact ⟨rfl, trivial, other⟩
  next other => exact ⟨status, rfl, fun _ => other awaited status⟩

theorem served_base (queued : sys.queue = entry :: rest) (base : Base sys)
    (effect : Effect sys entry rest
      (sys.actor.handle setup.blake3 setup.crc32c entry.command io)) :
    Base (sys.serve io) := by
  rw [served_eq queued io]
  have ended := handle_end setup.blake3 setup.crc32c sys.actor entry.command io
  have grown := fun task mem => served_call queued base mem
    (effect.sound task mem).2
  generalize sys.actor.handle setup.blake3 setup.crc32c entry.command io = served
    at effect ended grown ⊢
  have behind : ∀ other ∈ rest, other ∈ sys.queue := fun other mem =>
    queued ▸ List.mem_cons_of_mem _ mem
  constructor
  · exact effect.lined
  · exact handle_recorded setup.blake3 base.recorded ended
  · exact List.pairwise_map.mpr base.apart
  · intro task mem
    obtain ⟨before, found, rfl⟩ := List.mem_map.mp mem
    exact base.known before found
  · intro task mem
    obtain ⟨before, found, rfl⟩ := List.mem_map.mp mem
    exact (effect.sound before found).1
  · intro task mem
    obtain ⟨before, found, rfl⟩ := List.mem_map.mp mem
    exact grown before found
  · exact (List.pairwise_cons.mp (queued ▸ base.ordered)).2
  · exact fun other mem => base.issued other (behind other mem)
  · intro task mem ask ticket pending status
    obtain ⟨before, found, rfl⟩ := List.mem_map.mp mem
    simp only [servedTask, mapped_pending, Option.map_eq_some_iff] at pending
    obtain ⟨asked, was, rfl⟩ := pending
    obtain ⟨sent, same, _⟩ := delivered_sent asked status
    rw [same]
    obtain ⟨issued, matched⟩ := base.waiting before found asked ticket was sent
    exact ⟨issued, fun other mem => matched other (behind other mem)⟩
  · intro other mem id sender
    obtain ⟨known, shape⟩ := base.sent other (behind other mem) id sender
    refine ⟨known, ?_⟩
    rcases shape with flush | ⟨owner, offset, bytes, now, command, front, only⟩
    · exact Or.inl flush
    · refine Or.inr ⟨owner, offset, bytes, now, command, ?_, ?_⟩
      · intro pos free
        exact front pos (effect.front other mem owner offset bytes now command pos free)
      · intro task mem
        obtain ⟨before, found, rfl⟩ := List.mem_map.mp mem
        exact only before found

/-! Where the pool stands after a command was served. -/

theorem own_single (inv : Inv sys) (queued : sys.queue = entry :: rest)
    (own : entry.sender = none) :
    ∀ other ∈ rest, other.sender ≠ none := by
  intro other mem also
  obtain ⟨stage, here⟩ := inv.own entry (queued ▸ List.mem_cons_self) own
  obtain ⟨_, there⟩ := inv.own other (queued ▸ List.mem_cons_of_mem _ mem) also
  have ordered := (List.pairwise_cons.mp (queued ▸ inv.base.ordered)).1 other mem
  simp only [here, Point.awaiting.injEq, Ask.mk.injEq, Status.sent.injEq] at there
  omega

theorem settles_unstaged (settles : Settles actor after durable) (empty : actor.writer.staged = [])
    :
    after.writer.staged = [] := by
  cases settles with
  | kept writer same => exact same.trans empty
  | committed writer next sequence emptied owned => exact emptied

theorem unstaged_owns (settles : Settles actor fence durable)
    (empty : actor.writer.staged = []) (worker : WorkerId) (pos : Nat) :
    Owns fence worker pos ↔ Owns actor worker pos := by
  rw [← free_unstaged fence (settles_unstaged settles empty),
    ← free_unstaged actor empty]
  exact (settles_owns actor durable settles worker pos).2

theorem holds_congr (same : ∀ pos, Owns after grant.worker pos ↔ Owns actor grant.worker pos)
    (holds : Holds actor grant) : Holds after grant :=
  ⟨holds.ordered, fun pos => (same pos).trans (holds.owned pos)⟩

theorem mem_insert_grant (mem : other ∈ insertGrant grants grant) :
    other = grant ∨ (other ∈ grants ∧ other.worker ≠ grant.worker) := by
  simp only [insertGrant, List.mem_append, List.mem_cons, List.mem_filter,
    decide_eq_true_eq] at mem
  rcases mem with ⟨found, less⟩ | same | ⟨found, more⟩
  · exact Or.inr ⟨found, Nat.ne_of_lt less⟩
  · exact Or.inl same
  · exact Or.inr ⟨found, Nat.ne_of_gt more⟩

theorem insert_sorted (grant : Grant)
    (sorted : grants.Pairwise fun left right => left.worker < right.worker) :
    (insertGrant grants grant).Pairwise fun left right => left.worker < right.worker := by
  refine List.pairwise_append.mpr ⟨sorted.filter _, ?_, ?_⟩
  · refine List.Pairwise.cons ?_ (sorted.filter _)
    intro other mem
    exact of_decide_eq_true (List.mem_filter.mp mem).2
  · intro left leftMember right rightMember
    have less := of_decide_eq_true (List.mem_filter.mp leftMember).2
    rcases List.mem_cons.mp rightMember with same | found
    · exact same ▸ less
    · exact Nat.lt_trans less (of_decide_eq_true (List.mem_filter.mp found).2)

theorem record_accurate
    (accurate : Accurate actor grants) (allocates : Allocates actor worker allocation after) :
    Accurate after (recordAllocation grants allocation) := by
  have others : ∀ grant ∈ grants, grant.worker ≠ worker →
      (∀ shortened, allocation.shortened = some shortened → shortened.worker ≠ grant.worker) →
      Holds after grant := fun grant mem different elsewhere =>
    holds_congr (allocates.others grant.worker different elsewhere)
      (accurate.held grant mem)
  unfold recordAllocation
  cases shortened : allocation.shortened with
  | none =>
    refine ⟨insert_sorted _ accurate.sorted, ?_⟩
    intro grant mem
    rcases mem_insert_grant mem with rfl | ⟨found, different⟩
    · exact allocates.granted
    · exact others grant found (allocates.recipient ▸ different) (by simp [shortened])
  | some source =>
    refine ⟨insert_sorted _ (insert_sorted _ accurate.sorted), ?_⟩
    intro grant mem
    rcases mem_insert_grant mem with rfl | ⟨found, different⟩
    · exact allocates.granted
    rcases mem_insert_grant found with rfl | ⟨found, elsewhere⟩
    · exact allocates.shortened _ shortened
    · refine others grant found (allocates.recipient ▸ different) ?_
      intro other same
      rw [shortened, Option.some.injEq] at same
      exact same ▸ Ne.symm elsewhere

theorem allocate_replies (lined : Lined actor) (empty : actor.writer.staged = [])
    (worker : WorkerId) (io : FlushIo) (crc32c : List UInt8 → UInt32) :
    let served := actor.allocate crc32c worker io
    served.actor.writer.staged = [] ∧
      match served.reply with
      | .ok (.allocation (some allocation) _) => Allocates actor worker allocation served.actor
      | _ => ∀ owner pos, Owns served.actor owner pos ↔ Owns actor owner pos := by
  intro served
  rcases allocate_end crc32c actor worker io with ⟨error, failed, settles⟩ |
    ⟨fence, durable, events, allocation, next, settles, fenced, found, result⟩
  · refine ⟨settles_unstaged settles empty, ?_⟩
    rw [failed]
    exact unstaged_owns settles empty
  · have same := unstaged_owns settles empty
    simp only [served, result]
    refine ⟨fenced, ?_⟩
    cases allocation with
    | none =>
      have ended := fence.allocator.allocate_end worker
      rw [found] at ended
      cases ended with
      | none => exact same
    | some allocation =>
      have allocates := allocate_allocates (settles_lined lined settles) found
      exact ⟨allocates.recipient, allocates.granted, allocates.shortened,
        fun other different elsewhere pos =>
          (allocates.others other different elsewhere pos).trans (same other pos)⟩

theorem flush_replies (crc32c : List UInt8 → UInt32) (actor : StateActor) (io : FlushIo) :
    Settles actor (actor.flush crc32c io).actor (actor.flush crc32c io).durable ∧
      ∀ receipt, (actor.flush crc32c io).reply = .ok receipt →
        (actor.flush crc32c io).actor.writer.staged = [] := by
  have settles := flush_settles crc32c actor
    (flush_end crc32c actor.writer actor.allocator.intervals io)
  refine ⟨settles.1, ?_⟩
  intro receipt replied
  cases result : (Writer.flush crc32c actor.writer actor.allocator.intervals io).result with
  | error error =>
    simp only [StateActor.flush, result] at replied
    cases replied
  | ok blocks => exact settles.2 blocks result

theorem quiet_served (entry : Queued)
    (tasks : sys.tasks = []) (staged : served.actor.writer.staged = []) (last : rest = []) :
    Quiet (servedSystem sys entry rest served) :=
  ⟨by simp [servedSystem, tasks], staged, by simp [servedSystem, last]⟩

theorem served_worker (rest : List Queued)
    (served : Served) (none : ∀ task ∈ sys.tasks, task.worker ≠ worker) :
    ∀ task ∈ (servedSystem sys entry rest served).tasks, task.worker ≠ worker := by
  intro task mem
  obtain ⟨before, found, rfl⟩ := List.mem_map.mp mem
  exact none before found

theorem served_none (entry : Queued) (rest : List Queued)
    (served : Served) (tasks : sys.tasks = []) :
    (servedSystem sys entry rest served).tasks = [] := by
  simp [servedSystem, tasks]

theorem allocate_accurate (lined : Lined actor) (empty : actor.writer.staged = [])
    (accurate : Accurate actor grants) (worker : WorkerId) (io : FlushIo)
    (crc32c : List UInt8 → UInt32) :
    match Status.answered (actor.allocate crc32c worker io).reply with
    | .answered (.ok (.allocation (some allocation) _)) =>
      Accurate (actor.allocate crc32c worker io).actor (recordAllocation grants allocation)
    | _ => Accurate (actor.allocate crc32c worker io).actor grants := by
  have granted := (allocate_replies lined empty worker io crc32c).2
  split
  next allocation durable replied =>
    simp only [Status.answered.injEq] at replied
    rw [replied] at granted
    exact record_accurate accurate granted
  next other =>
    split at granted
    next allocation durable replied => exact absurd rfl (replied ▸ other allocation durable)
    next =>
      refine ⟨accurate.sorted, fun grant mem => ?_⟩
      exact holds_congr (granted grant.worker) (accurate.held grant mem)

theorem allocate_holds (lined : Lined actor) (empty : actor.writer.staged = [])
    (worker : WorkerId) (io : FlushIo) (crc32c : List UInt8 → UInt32) :
    match Status.answered (actor.allocate crc32c worker io).reply with
    | .answered (.ok (.allocation (some allocation) _)) =>
      Holds (actor.allocate crc32c worker io).actor allocation.grant
    | _ => True := by
  have granted := (allocate_replies lined empty worker io crc32c).2
  split
  next allocation durable replied =>
    simp only [Status.answered.injEq] at replied
    rw [replied] at granted
    exact granted.granted
  next => trivial

/-- In a quiet state the queue holds nothing but the pool's own command. -/
theorem own_last (inv : Inv sys) (queued : sys.queue = entry :: rest) (own : entry.sender = none)
    (quiet : Quiet sys) : rest = [] := by
  rw [List.eq_nil_iff_forall_not_mem]
  intro other mem
  exact own_single inv queued own other mem
    (quiet.queue other (queued ▸ List.mem_cons_of_mem _ mem))

/-- Behind the newest command nothing is queued. -/
theorem newest_last (inv : Inv sys) (queued : sys.queue = entry :: rest)
    (newest : ∀ other ∈ sys.queue, other.ticket ≤ entry.ticket) : rest = [] := by
  rw [List.eq_nil_iff_forall_not_mem]
  intro other mem
  have later := (List.pairwise_cons.mp (queued ▸ inv.base.ordered)).1 other mem
  have earlier := newest other (queued ▸ List.mem_cons_of_mem _ mem)
  omega

theorem flush_sound (io : FlushIo) (entry : Queued) (tasks : sys.tasks = []) (last : rest = []) :
    StageSound (servedSystem sys entry rest (sys.actor.flush setup.crc32c io)) .flushing
      ⟨.flush, .answered (sys.actor.flush setup.crc32c io).reply⟩ := by
  refine ⟨rfl, served_none _ rest _ tasks, ?_⟩
  split
  next awaited same => cases same
  next receipt same =>
    simp only [Status.answered.injEq] at same
    exact quiet_served _ tasks ((flush_replies setup.crc32c sys.actor io).2 receipt same) last
  next => trivial

/-- The pool's own command was served: what the reply says about the new state. -/
theorem own_point (inv : Inv sys) (queued : sys.queue = entry :: rest)
    (own : entry.sender = none) (io : StageIo) : PointSound (sys.serve io) := by
  obtain ⟨stage, here⟩ := inv.own entry (queued ▸ List.mem_cons_self) own
  have last := own_last inv queued own
  have lined := inv.base.lined
  have point := inv.point
  rw [PointSound, here] at point
  rw [served_eq queued io]
  have answered : ∀ served, (servedSystem sys entry rest served).control.point =
      .awaiting stage ⟨entry.command, .answered served.reply⟩ := by
    intro served
    simp only [servedSystem, here, Ask.deliver, ↓reduceIte]
  rw [PointSound, answered]
  obtain ⟨ticket, sender, command⟩ := entry
  simp only at point
  cases stage with
  | identity =>
    obtain ⟨rfl, quiet, grants⟩ := point
    exact ⟨rfl, quiet_served _ quiet.tasks quiet.staged (last quiet), grants⟩
  | allocating index =>
    obtain ⟨rfl, quiet, accurate⟩ := point
    have unstaged := (allocate_replies lined quiet.staged index io.flush setup.crc32c).1
    exact ⟨rfl, quiet_served _ quiet.tasks unstaged (last quiet),
      allocate_accurate lined quiet.staged accurate index io.flush setup.crc32c⟩
  | flushing =>
    obtain ⟨rfl, tasks, newest⟩ := point
    exact flush_sound io.flush _ tasks (newest_last inv queued newest)
  | surveying =>
    obtain ⟨rfl, quiet⟩ := point
    exact ⟨rfl, quiet_served _ quiet.tasks quiet.staged (last quiet)⟩
  | reassigning =>
    obtain ⟨⟨worker, rfl⟩, quiet, _⟩ := point
    have unstaged := (allocate_replies lined quiet.staged worker io.flush setup.crc32c).1
    exact ⟨⟨worker, rfl⟩, quiet_served _ quiet.tasks unstaged (last quiet),
      allocate_holds lined quiet.staged worker io.flush setup.crc32c⟩
  | restarting =>
    obtain ⟨rfl, quiet, _⟩ := point
    exact ⟨rfl, quiet_served _ quiet.tasks quiet.staged (last quiet), rfl⟩
  | ticking => exact point
  | abandoning attempt delay =>
    obtain ⟨rfl, gone⟩ := point
    exact ⟨rfl, served_worker rest _ gone⟩
  | reclaiming error remaining =>
    exact ⟨point.1, served_none _ rest _ point.2⟩
  | lastFlush =>
    obtain ⟨rfl, quiet⟩ := point
    have settles := (flush_replies setup.crc32c sys.actor io.flush).1
    exact ⟨rfl, quiet_served _ quiet.tasks (settles_unstaged settles quiet.staged) (last quiet)⟩
  | lastSnapshot =>
    obtain ⟨rfl, quiet, _⟩ := point
    exact ⟨rfl, quiet_served _ quiet.tasks quiet.staged (last quiet), rfl⟩

theorem task_point (inv : Inv sys) (queued : sys.queue = entry :: rest) {id : Nat}
    (sender : entry.sender = some id) (io : StageIo) : PointSound (sys.serve io) := by
  -- A command of a task was served: the pool still waits for its own.
  have first : entry ∈ sys.queue := queued ▸ List.mem_cons_self
  have busy : ¬ Quiet sys := by
    intro quiet
    have none := quiet.queue entry first
    rw [sender] at none
    cases none
  have grows := handle_grows setup.blake3
    (handle_end setup.blake3 setup.crc32c sys.actor entry.command io)
  rw [served_eq queued io]
  generalize sys.actor.handle setup.blake3 setup.crc32c entry.command io = served at grows ⊢
  have point := inv.point
  unfold PointSound at point ⊢
  cases here : sys.control.point with
  | awaiting stage ask =>
    have unanswered : ask.deliver entry.ticket served.reply = ask := by
      unfold Ask.deliver
      split
      next awaited status =>
        refine if_neg ?_
        intro same
        have none := (inv.awaited stage ask awaited here status).2 entry first same.symm
        rw [sender] at none
        cases none
      next => rfl
    rw [here] at point
    simp only [servedSystem, here, unanswered]
    cases stage with
    | identity => exact absurd point.2.1 busy
    | allocating index => exact absurd point.2.1 busy
    | flushing =>
      obtain ⟨command, tasks, newest⟩ := point
      refine ⟨command, served_none entry rest served tasks, ?_⟩
      split
      next awaited status =>
        simp only [status] at newest
        exact fun other mem => newest other (queued ▸ List.mem_cons_of_mem _ mem)
      next receipt status =>
        simp only [status] at newest
        exact absurd newest busy
      next => trivial
    | surveying => exact absurd point.2 busy
    | reassigning => exact absurd point.2.1 busy
    | restarting => exact absurd point.2.1 busy
    | ticking => exact point
    | abandoning attempt delay =>
      exact ⟨point.1, served_worker rest served point.2⟩
    | reclaiming error remaining => exact ⟨point.1, served_none entry rest served point.2⟩
    | lastFlush => exact absurd point.2 busy
    | lastSnapshot => exact absurd point.2.1 busy
  | selecting => simp only [servedSystem, here]
  | sleeping delay => simp only [servedSystem, here]
  | joining error => simp only [servedSystem, here]
  | returned result =>
    rw [here] at point
    simp only [servedSystem, here]
    cases result with
    | error error => trivial
    | ok report =>
      intro pos inside
      exact grows.complete pos (point pos (grows.totalLength ▸ inside))

theorem control_own (inv : Inv sys) (mem : entry ∈ sys.queue)
    (notFlush : entry.command ≠ .flush) (notWrite : ∀ worker, ¬ Writes entry.command worker) :
    ∃ stage, sys.control.point = .awaiting stage ⟨entry.command, .sent entry.ticket⟩ := by
  cases sender : entry.sender with
  | none => exact inv.own entry mem sender
  | some id =>
    rcases (inv.base.sent entry mem id sender).2 with flush |
      ⟨worker, offset, bytes, now, command, _⟩
    · exact absurd flush notFlush
    · exact absurd ⟨offset, bytes, now, command⟩ (notWrite worker)

theorem allocate_quiet (inv : Inv sys) (mem : entry ∈ sys.queue)
    (command : entry.command = .allocate worker) :
    Quiet sys ∧ ∃ stage ask, sys.control.point = .awaiting stage ask ∧
      (stage = .reassigning ∨ ∃ index, stage = .allocating index) := by
  obtain ⟨stage, here⟩ := control_own inv mem (by simp [command])
    (by simp [command, Writes])
  have point := inv.point
  rw [PointSound, here] at point
  cases stage with
  | allocating index => exact ⟨point.2.1, _, _, here, Or.inr ⟨index, rfl⟩⟩
  | reassigning => exact ⟨point.2.1, _, _, here, Or.inl rfl⟩
  | ticking =>
    obtain ⟨now, asked⟩ := point
    simp [command] at asked
  | reclaiming error rest =>
    obtain ⟨⟨other, asked⟩, _⟩ := point
    simp [command] at asked
  | _ =>
    have asked := point.1
    simp [command] at asked

theorem abandon_gone (inv : Inv sys) (mem : entry ∈ sys.queue) (worker : WorkerId)
    (command : entry.command = .abandon worker) :
    ∀ task ∈ sys.tasks, task.worker ≠ worker := by
  obtain ⟨stage, here⟩ := control_own inv mem (by simp [command])
    (by simp [command, Writes])
  have point := inv.point
  rw [PointSound, here] at point
  cases stage with
  | abandoning attempt delay =>
    have same := point.1
    simp only [command, Command.abandon.injEq] at same
    exact same ▸ point.2
  | reclaiming error rest => simp [point.2]
  | ticking =>
    obtain ⟨now, asked⟩ := point
    simp [command] at asked
  | reassigning =>
    obtain ⟨⟨other, asked⟩, _⟩ := point
    simp [command] at asked
  | _ =>
    have asked := point.1
    simp [command] at asked

theorem own_unwritten (inv : Inv sys) {stage : Stage Url} {asked : Ask}
    (here : sys.control.point = .awaiting stage asked) (worker : WorkerId) :
    ¬ Writes asked.command worker := by
  rintro ⟨offset, bytes, now, command⟩
  have point := inv.point
  rw [PointSound, here] at point
  cases stage with
  | ticking =>
    obtain ⟨now, other⟩ := point
    simp [command] at other
  | reassigning =>
    obtain ⟨⟨recipient, other⟩, _⟩ := point
    simp [command] at other
  | reclaiming error rest =>
    obtain ⟨⟨worker, other⟩, _⟩ := point
    simp [command] at other
  | _ =>
    have other := point.1
    simp [command] at other

theorem quiet_unwritten (inv : Inv sys) (quiet : Quiet sys) (mem : entry ∈ sys.queue)
    (worker : WorkerId) :
    ¬ Writes entry.command worker := by
  obtain ⟨stage, here⟩ := inv.own entry mem (quiet.queue entry mem)
  exact own_unwritten inv here worker

theorem first_effect (inv : Inv sys) (queued : sys.queue = entry :: rest) (io : StageIo) :
    Effect sys entry rest (sys.actor.handle setup.blake3 setup.crc32c entry.command io) := by
  have first : entry ∈ sys.queue := queued ▸ List.mem_cons_self
  by_cases writing : ∃ worker, Writes entry.command worker
  · obtain ⟨worker, offset, bytes, now, command⟩ := writing
    cases sender : entry.sender with
    | none =>
      obtain ⟨stage, here⟩ := inv.own entry first sender
      exact absurd ⟨offset, bytes, now, command⟩ (own_unwritten inv here worker)
    | some id =>
      rw [command]
      exact write_effect inv.base queued sender
        command io
  · refine control_effect inv.base io ?_ ?_ (abandon_gone inv first)
    · intro worker offset bytes now command
      exact writing ⟨worker, offset, bytes, now, command⟩
    · intro worker command
      obtain ⟨quiet, _⟩ := allocate_quiet inv first command
      refine ⟨quiet.tasks, fun waiting mem other offset bytes now write => ?_⟩
      exact quiet_unwritten inv quiet (queued ▸ List.mem_cons_of_mem _ mem) other
        ⟨offset, bytes, now, write⟩

theorem serve_inv (inv : Inv sys) (io : StageIo) :
    Inv (sys.serve io) := by
  cases queued : sys.queue with
  | nil =>
    have idle : sys.serve io = sys := by
      unfold System.serve
      rw [queued]
    rw [idle]
    exact inv
  | cons entry rest =>
    have effect := first_effect inv queued io
    have point : PointSound (sys.serve io) := by
      cases sender : entry.sender with
      | none => exact own_point inv queued sender io
      | some id => exact task_point inv queued sender io
    refine ⟨served_base queued inv.base effect, ?_, ?_, point⟩
    · rw [served_eq queued io]
      intro other mem own
      have waits : other ∈ sys.queue := queued ▸ List.mem_cons_of_mem _ mem
      have later := (List.pairwise_cons.mp (queued ▸ inv.base.ordered)).1 other mem
      obtain ⟨stage, here⟩ := inv.own other waits own
      refine ⟨stage, ?_⟩
      simp only [servedSystem, here, Ask.deliver]
      rw [if_neg (Nat.ne_of_gt later)]
    · rw [served_eq queued io]
      intro stage ask ticket here status
      simp only [servedSystem] at here
      split at here
      next before asked was =>
        cases here
        obtain ⟨sent, _, _⟩ := delivered_sent asked status
        obtain ⟨issued, mine⟩ := inv.awaited stage asked ticket was sent
        exact ⟨issued, fun other mem => mine other (queued ▸ List.mem_cons_of_mem _ mem)⟩
      next point other => exact absurd here (other stage ask)

end Downpour.PoolServe
