import Downpour.Writer

/-!
Crash safety of the durable writer. The disk is safe when its log is a cut of a
written journal and every record of that journal describes bytes that were
written successfully and that no crash can change. Safety is shown before,
inside and after every disk event of a run. Three facts carry it between calls:
a live writer's log ends with a whole record, every recorded byte is `Complete`
in the map and so is never written again, and staged bytes can be read back.
-/

namespace Downpour.WriterCrash
open Intervals JournalFormat JournalReplay CrashDisk Writer

section Crash
variable (blake3 : List UInt8 → Digest) (crc32c : List UInt8 → UInt32)
variable (header : FileHeader) (written : List (Event UInt8))

structure Describes (record : JournalRecord) (offset : Nat) (bytes : List UInt8) : Prop where
  shape : record = .blockComplete (UInt64.ofNat offset) (UInt32.ofNat bytes.length) (blake3 bytes)
  short : bytes.length < 2 ^ 32
  representable : offset + bytes.length < 2 ^ 64
  wrote : Event.write offset bytes ∈ written

def Claimed (disk : Disk UInt8) (frame : FramedRecord) : Prop :=
  ∃ offset bytes, Describes blake3 written frame.record offset bytes ∧ Settled disk offset bytes

def Safe (disk : Disk UInt8) : Prop :=
  ∃ frames bytes, Framed crc32c frames bytes ∧ disk.log <+: header.encode crc32c ++ bytes ∧
    ∀ frame ∈ frames, Claimed blake3 written disk frame

def StagedAs (disk : Disk UInt8) (block : StagedBlock) : Prop :=
  ∃ bytes, Describes blake3 written block.record block.range.start bytes ∧
    block.range.stop = block.range.start + bytes.length ∧ Shows disk block.range.start bytes

structure Live (intervals : IntervalMap) (batch : List StagedBlock) (disk : Disk UInt8)
    (frames : List FramedRecord) (bytes : List UInt8) : Prop where
  framed : Framed crc32c frames bytes
  log : disk.log = header.encode crc32c ++ bytes
  claimed : ∀ frame ∈ frames, ∃ offset block, Describes blake3 written frame.record offset block ∧
    Settled disk offset block ∧
    ∀ pos, offset ≤ pos → pos < offset + block.length →
      intervals.stateAt pos = some .complete
  staged : ∀ block ∈ batch, StagedAs blake3 written disk block

def Guarded (poisoned : Bool) (intervals : IntervalMap) (batch : List StagedBlock)
    (disk : Disk UInt8) : Prop :=
  if poisoned then Safe blake3 crc32c header written disk
  else ∃ frames bytes, Live blake3 crc32c header written intervals batch disk frames bytes

variable {blake3 crc32c header written} {intervals : IntervalMap} {batch : List StagedBlock} {disk fresh : Disk UInt8}
    {frames : List FramedRecord} {bytes block : List UInt8} {writer : DurableWriter}
    {worker : WorkerId} {offset : Nat} {outcome : Outcome} {session : Session}

theorem live_safe (live : Live blake3 crc32c header written intervals batch disk frames bytes) :
    Safe blake3 crc32c header written disk := by
  refine ⟨frames, bytes, live.framed, live.log ▸ List.prefix_rfl, ?_⟩
  intro frame mem
  obtain ⟨offset, block, describes, settled, _⟩ := live.claimed frame mem
  exact ⟨offset, block, describes, settled⟩

theorem guarded_safe
    (guarded : Guarded blake3 crc32c header written poisoned intervals batch disk) :
    Safe blake3 crc32c header written disk := by
  unfold Guarded at guarded
  split at guarded
  · exact guarded
  · obtain ⟨frames, bytes, live⟩ := guarded
    exact live_safe live

theorem live_write
    (live : Live blake3 crc32c header written intervals writer.staged disk frames bytes)
    (ready : StageReady writer intervals worker offset block)
    (logged : (disk.apply event).log = disk.log) (reach : ∀ pos, Touches event pos →
      offset ≤ pos ∧ pos < offset + block.length) :
    Live blake3 crc32c header written intervals writer.staged (disk.apply event) frames bytes := by
  obtain ⟨after, owned⟩ := ready.owned
  have moves := intervals.complete_moves after _ worker owned
  refine ⟨live.framed, logged.trans live.log, ?_, ?_⟩
  · intro frame mem
    obtain ⟨start, content, describes, settled, completed⟩ := live.claimed frame mem
    refine ⟨start, content, describes, avoids_settled ?_ settled, completed⟩
    -- A touched byte is in progress, a recorded one is complete.
    intro pos touched
    obtain ⟨lower, upper⟩ := reach pos touched
    cases found : placed start content pos with
    | none => rfl
    | some byte =>
      have inside := placed_some found
      have held := moves.held pos lower upper
      rw [completed pos inside.1 inside.2] at held
      cases held
  · intro staged mem
    obtain ⟨content, describes, stop, shows⟩ := live.staged staged mem
    refine ⟨content, describes, stop, avoids_shows ?_ shows⟩
    intro pos touched
    have inside := reach pos touched
    have clear := ready.unstaged staged mem
    apply placed_outside
    omega

theorem interrupted_write_reach
    (source : event = .write offset block ∨ ∃ landed, event = .writeFailed offset block landed)
    (interrupted : Interrupted event torn) :
    ∃ landed, torn = .writeFailed offset block landed := by
  rcases source with rfl | ⟨_, rfl⟩
  · cases interrupted
    exact ⟨_, rfl⟩
  · cases interrupted
    exact ⟨_, rfl⟩

theorem live_write_failed
    (live : Live blake3 crc32c header written intervals writer.staged disk frames bytes)
    (ready : StageReady writer intervals worker offset block) (landed : Nat → Bool) :
    Live blake3 crc32c header written intervals writer.staged (disk.apply (.writeFailed offset block landed))
      frames bytes :=
  live_write live ready
    rfl fun _ touched => touched

theorem write_throughout
    (live : Live blake3 crc32c header written intervals writer.staged disk frames bytes)
    (ready : StageReady writer intervals worker offset block)
    (source : event = .write offset block ∨ ∃ landed, event = .writeFailed offset block landed) :
    Throughout (Safe blake3 crc32c header written) disk [event] ∧
      Live blake3 crc32c header written intervals writer.staged (disk.apply event) frames bytes := by
  -- The event of a stage, and every way to be interrupted inside it, is safe.
  have after : Live blake3 crc32c header written intervals writer.staged (disk.apply event) frames bytes := by
    rcases source with rfl | ⟨landed, rfl⟩
    · exact live_write live ready rfl fun _ touched => touched
    · exact live_write_failed live ready landed
  refine ⟨⟨live_safe live, ?_, live_safe after⟩, after⟩
  intro torn interrupted
  obtain ⟨landed, rfl⟩ := interrupted_write_reach source interrupted
  exact live_safe (live_write_failed live ready landed)

theorem claimed_same (disk other : Disk UInt8)
    (visible : other.visible = disk.visible) (surviving : other.surviving = disk.surviving)
    (claimed : Claimed blake3 written disk frame) : Claimed blake3 written other frame := by
  obtain ⟨offset, bytes, describes, settled⟩ := claimed
  refine ⟨offset, bytes, describes, ?_, ?_⟩
  · intro pos byte found
    rw [visible]
    exact settled.shows pos byte found
  · intro pos byte found
    rw [surviving]
    exact settled.fixed pos byte found

theorem torn_append_safe (framed : Framed crc32c frames bytes)
    (log : disk.log = header.encode crc32c ++ bytes)
    (claimed : ∀ frame ∈ frames, Claimed blake3 written disk frame)
    (encodes : record.encode crc32c = .ok encoded)
    (settled : Claimed blake3 written disk record) (landed : Nat) :
    Safe blake3 crc32c header written (disk.apply (.appendFailed encoded landed)) := by
  refine ⟨frames ++ [record], bytes ++ encoded,
    framed_append crc32c framed (framed_single crc32c record encodes), ?_, ?_⟩
  · have cut : (disk.apply (.appendFailed encoded landed)).log =
        header.encode crc32c ++ (bytes ++ encoded.take landed) := by
      rw [← List.append_assoc, ← log]
      exact (List.append_assoc _ _ _).symm
    rw [cut, List.prefix_append_right_inj, List.prefix_append_right_inj]
    exact List.take_prefix landed encoded
  · intro frame mem
    apply claimed_same disk (disk.apply (.appendFailed encoded landed)) rfl rfl
    rcases List.mem_append.mp mem with old | new
    · exact claimed frame old
    · exact List.mem_singleton.mp new ▸ settled

theorem append_run_safe (run : AppendRun crc32c records events complete) (disk : Disk UInt8)
    (frames : List FramedRecord) (bytes : List UInt8) (framed : Framed crc32c frames bytes)
    (log : disk.log = header.encode crc32c ++ bytes)
    (claimed : ∀ frame ∈ frames, Claimed blake3 written disk frame)
    (settled : ∀ record ∈ records, Claimed blake3 written disk record) :
    Throughout (Safe blake3 crc32c header written) disk events ∧
      (disk.run events).visible = disk.visible ∧
      (disk.run events).surviving = disk.surviving ∧
      (complete = true → ∃ more, Framed crc32c records more ∧
        (disk.run events).log = header.encode crc32c ++ (bytes ++ more)) := by
  have here : Safe blake3 crc32c header written disk :=
    ⟨frames, bytes, framed, log ▸ List.prefix_rfl, claimed⟩
  induction run generalizing disk frames bytes with
  | done => exact ⟨here, rfl, rfl, fun _ => ⟨[], Framed.nil, by simpa [Disk.run] using log⟩⟩
  | unencodable records => exact ⟨here, rfl, rfl, by simp⟩
  | torn record rest encoded landed encodes =>
    have cut := torn_append_safe framed log claimed encodes (settled record List.mem_cons_self)
    refine ⟨⟨here, ?_, cut landed⟩, rfl, rfl, by simp⟩
    intro torn interrupted
    cases interrupted
    exact cut _
  | next record rest encoded events complete encodes later ih =>
    have first := settled record List.mem_cons_self
    have grown : (disk.apply (.append encoded)).log =
        header.encode crc32c ++ (bytes ++ encoded) := by
      rw [← List.append_assoc, ← log]
      exact (List.append_assoc _ _ _).symm
    have grownFramed := framed_append crc32c framed (framed_single crc32c record encodes)
    have grownClaimed : ∀ frame ∈ frames ++ [record],
        Claimed blake3 written (disk.apply (.append encoded)) frame := by
      intro frame mem
      apply claimed_same disk (disk.apply (.append encoded)) rfl rfl
      rcases List.mem_append.mp mem with old | new
      · exact claimed frame old
      · exact List.mem_singleton.mp new ▸ first
    have restSettled : ∀ other ∈ rest,
        Claimed blake3 written (disk.apply (.append encoded)) other := by
      intro other mem
      exact claimed_same disk _ rfl rfl (settled other (List.mem_cons_of_mem _ mem))
    obtain ⟨safe, visible, surviving, whole⟩ := ih (disk.apply (.append encoded))
      (frames ++ [record]) (bytes ++ encoded) grownFramed grown grownClaimed restSettled
      ⟨_, _, grownFramed, grown ▸ List.prefix_rfl, grownClaimed⟩
    refine ⟨⟨here, ?_, safe⟩, visible, surviving, ?_⟩
    · intro torn interrupted
      cases interrupted
      exact torn_append_safe framed log claimed encodes first _
    · intro isComplete
      obtain ⟨more, restFramed, restLog⟩ := whole isComplete
      refine ⟨encoded ++ more, Framed.cons record rest encoded more encodes restFramed, ?_⟩
      rw [← List.append_assoc bytes]
      exact restLog

theorem framed_records_member {sequence : Nat} {staged : List StagedBlock} {frame : FramedRecord}
    (mem : frame ∈ framedRecords sequence staged) :
    ∃ block ∈ staged, frame.record = block.record := by
  induction staged generalizing sequence with
  | nil => simp [framedRecords] at mem
  | cons block rest ih =>
    rcases List.mem_cons.mp mem with same | later
    · exact ⟨block, List.mem_cons_self, by rw [same]⟩
    · obtain ⟨other, found, equal⟩ := ih later
      exact ⟨other, List.mem_cons_of_mem _ found, equal⟩

theorem log_sync_log (disk : Disk UInt8) : (disk.apply .syncLog).log = disk.log := by
  simp [Disk.log, Disk.apply]

theorem safe_sync_log (safe : Safe blake3 crc32c header written disk) :
    Safe blake3 crc32c header written (disk.apply .syncLog) := by
  obtain ⟨frames, bytes, framed, cut, claimed⟩ := safe
  refine ⟨frames, bytes, framed, log_sync_log disk ▸ cut, ?_⟩
  intro frame mem
  exact claimed_same disk (disk.apply .syncLog) rfl rfl (claimed frame mem)

theorem guarded_of_live (poisoned : Bool)
    (live : Live blake3 crc32c header written intervals batch disk frames bytes) :
    Guarded blake3 crc32c header written poisoned intervals batch disk := by
  cases poisoned with
  | true => exact live_safe live
  | false => exact ⟨frames, bytes, live⟩

theorem staged_settles {block : StagedBlock} (staged : StagedAs blake3 written disk block) :
    ∃ bytes, Describes blake3 written block.record block.range.start bytes ∧
      block.range.stop = block.range.start + bytes.length ∧
      Settled (disk.apply .syncData) block.range.start bytes := by
  obtain ⟨bytes, describes, stop, shows⟩ := staged
  exact ⟨bytes, describes, stop, sync_settles shows⟩

theorem live_synced
    (live : Live blake3 crc32c header written intervals writer.staged disk frames bytes) :
    (∀ frame ∈ frames, Claimed blake3 written (disk.apply .syncData) frame) ∧
      ∀ frame ∈ framedRecords writer.nextSequence writer.staged,
        Claimed blake3 written (disk.apply .syncData) frame := by
  -- The data sync of a flush: old records stay settled, staged blocks become so.
  constructor
  · intro frame mem
    obtain ⟨offset, block, describes, settled, _⟩ := live.claimed frame mem
    exact ⟨offset, block, describes, sync_settles settled.shows⟩
  · intro frame mem
    obtain ⟨block, staged, same⟩ := framed_records_member mem
    obtain ⟨content, describes, _, settled⟩ := staged_settles (live.staged block staged)
    exact ⟨block.range.start, content, same ▸ describes, settled⟩

theorem live_committed {next : IntervalMap} {more : List UInt8}
    (live : Live blake3 crc32c header written intervals writer.staged disk frames bytes)
    (completes : CompletesAll intervals writer.staged next)
    (visible : synced.visible = (disk.apply .syncData).visible)
    (surviving : synced.surviving = (disk.apply .syncData).surviving)
    (framed : Framed crc32c (framedRecords writer.nextSequence writer.staged) more)
    (log : synced.log = header.encode crc32c ++ (bytes ++ more)) :
    Live blake3 crc32c header written next [] synced
      (frames ++ framedRecords writer.nextSequence writer.staged) (bytes ++ more) := by
  have sameSettled : ∀ offset block, Settled (disk.apply .syncData) offset block →
      Settled synced offset block := by
    intro offset block settled
    refine ⟨?_, ?_⟩
    · intro pos byte found
      rw [visible]
      exact settled.shows pos byte found
    · intro pos byte found
      rw [surviving]
      exact settled.fixed pos byte found
  refine ⟨framed_append crc32c live.framed framed, log, ?_, ?_⟩
  · intro frame mem
    rcases List.mem_append.mp mem with old | new
    · obtain ⟨offset, block, describes, settled, completed⟩ := live.claimed frame old
      refine ⟨offset, block, describes,
        sameSettled _ _ (sync_settles settled.shows), ?_⟩
      intro pos lower upper
      exact complete_all_keeps completes pos (completed pos lower upper)
    · obtain ⟨block, staged, same⟩ := framed_records_member new
      obtain ⟨content, describes, stop, settled⟩ := staged_settles (live.staged block staged)
      refine ⟨block.range.start, content, same ▸ describes, sameSettled _ _ settled, ?_⟩
      intro pos lower upper
      exact completes.completed block staged pos lower (by omega)
  · intro block mem
    cases mem

theorem flush_guarded
    (live : Live blake3 crc32c header written intervals writer.staged disk frames bytes)
    (ended : FlushEnd crc32c writer intervals outcome) :
    Throughout (Safe blake3 crc32c header written) disk outcome.events ∧
      Guarded blake3 crc32c header written outcome.writer.poisoned outcome.intervals
        outcome.writer.staged (disk.run outcome.events) := by
  have safe := live_safe live
  obtain ⟨oldSettled, newSettled⟩ := live_synced live
  have syncedSafe : Safe blake3 crc32c header written (disk.apply .syncData) :=
    ⟨frames, bytes, live.framed, live.log ▸ List.prefix_rfl, oldSettled⟩
  have tornSync : ∀ torn, Interrupted .syncData torn →
      Safe blake3 crc32c header written (disk.apply torn) := by
    intro torn interrupted
    cases interrupted
    exact safe
  cases ended with
  | refused error =>
    exact ⟨safe, guarded_of_live _ live⟩
  | idle usable empty =>
    exact ⟨safe, guarded_of_live _ live⟩
  | unowned error rejected => exact ⟨safe, safe⟩
  | dataSyncFailed error usable =>
    refine ⟨⟨safe, ?_, safe⟩, safe⟩
    intro torn interrupted
    cases interrupted
    exact safe
  | appendFailed error journalBytes appends usable run =>
    obtain ⟨throughout, _⟩ := append_run_safe run
      (disk.apply .syncData) frames bytes live.framed live.log oldSettled newSettled
    have whole : Throughout (Safe blake3 crc32c header written) disk (.syncData :: appends) :=
      ⟨safe, tornSync, throughout⟩
    exact ⟨whole, throughout_end _ _ _ whole⟩
  | journalSyncFailed error journalBytes appends usable run =>
    obtain ⟨throughout, _⟩ := append_run_safe run
      (disk.apply .syncData) frames bytes live.framed live.log oldSettled newSettled
    have appended := throughout_end _ _ _ throughout
    have whole : Throughout (Safe blake3 crc32c header written) disk
        (.syncData :: appends ++ [.syncLogFailed]) := by
      refine throughout_append _ _ _ _ ⟨safe, tornSync, throughout⟩ ⟨appended, ?_, appended⟩
      intro torn interrupted
      cases interrupted
      exact appended
    exact ⟨whole, throughout_end _ _ _ whole⟩
  | committed next io usable sameLength owned numbered complete =>
    have run := append_all_runs crc32c io.append 0 writer.journalBytes
      (framedRecords writer.nextSequence writer.staged)
    obtain ⟨throughout, visible, surviving, appended⟩ := append_run_safe run (disk.apply .syncData) frames bytes live.framed live.log oldSettled
      newSettled
    obtain ⟨more, framed, log⟩ := appended (by rw [complete]; rfl)
    have beforeSync := throughout_end _ _ _ throughout
    refine ⟨throughout_append _ _ _ _ ⟨safe, tornSync, throughout⟩ ⟨beforeSync, ?_, ?_⟩, ?_⟩
    · intro torn interrupted
      cases interrupted
      exact beforeSync
    · exact safe_sync_log beforeSync
    · refine guarded_of_live _ (live_committed
         live (complete_all_completes _ _ _ owned)
        ?_ ?_ framed ?_)
      · rw [run_append]
        exact visible
      · rw [run_append]
        exact surviving
      · rw [run_append]
        exact (log_sync_log _).trans log

theorem poisoned_flush (poisoned : writer.poisoned = true)
    (ended : FlushEnd crc32c writer intervals outcome) :
    outcome.events = [] ∧ outcome.writer.poisoned = true := by
  cases ended with
  | refused error => exact ⟨rfl, poisoned⟩
  | unowned error rejected => exact ⟨rfl, rfl⟩
  | idle usable | dataSyncFailed error usable | appendFailed error journalBytes appends usable
  | journalSyncFailed error journalBytes appends usable | committed next io usable =>
    rw [poisoned] at usable
    cases usable

theorem live_pushed
    (live : Live blake3 crc32c header written intervals writer.staged disk frames bytes) (now : Nat)
    (ready : StageReady writer intervals worker offset block)
    (wrote : Event.write offset block ∈ written) :
    Live blake3 crc32c header written intervals
      (pushStaged blake3 writer worker offset block now).staged (disk.apply (.write offset block))
      frames bytes := by
  have after := (write_throughout live ready (Or.inl rfl)).2
  refine ⟨after.framed, after.log, after.claimed, ?_⟩
  intro staged mem
  rcases List.mem_append.mp mem with old | new
  · exact after.staged staged old
  · rw [List.mem_singleton.mp new]
    exact ⟨block, ⟨rfl, ready.short, ready.representable, wrote⟩, rfl, write_shows disk offset block⟩

theorem stage_guarded
    (guarded : Guarded blake3 crc32c header written writer.poisoned intervals writer.staged disk)
    (ended : StageEnd blake3 crc32c writer intervals worker offset block now outcome)
    (wrote : ∀ event ∈ outcome.events, event ∈ written) :
    Throughout (Safe blake3 crc32c header written) disk outcome.events ∧
      Guarded blake3 crc32c header written outcome.writer.poisoned outcome.intervals
        outcome.writer.staged (disk.run outcome.events) := by
  have opened : ∀ ready : StageReady writer intervals worker offset block,
      ∃ frames bytes,
        Live blake3 crc32c header written intervals writer.staged disk frames bytes := by
    intro ready
    simpa [Guarded, ready.usable] using guarded
  cases ended with
  | rejected error => exact ⟨guarded_safe guarded, guarded⟩
  | writeFailed ready error landed =>
    obtain ⟨frames, bytes, live⟩ := opened ready
    obtain ⟨throughout, after⟩ := write_throughout live ready (Or.inr ⟨landed, rfl⟩)
    exact ⟨throughout, live_safe after⟩
  | noSpace ready refused landed flushed ended =>
    obtain ⟨frames, bytes, live⟩ := opened ready
    obtain ⟨throughout, after⟩ := write_throughout live ready (Or.inr ⟨landed, rfl⟩)
    obtain ⟨flushThroughout, flushGuarded⟩ := flush_guarded after ended
    exact ⟨throughout_append _ _ [_] _ throughout flushThroughout, flushGuarded⟩
  | staged ready =>
    obtain ⟨frames, bytes, live⟩ := opened ready
    obtain ⟨throughout, _⟩ := write_throughout live ready (Or.inl rfl)
    exact ⟨throughout, guarded_of_live _ (live_pushed live now ready (wrote _ List.mem_cons_self))⟩
  | flushed ready flushed ended =>
    obtain ⟨frames, bytes, live⟩ := opened ready
    obtain ⟨throughout, _⟩ := write_throughout live ready (Or.inl rfl)
    have pushed := live_pushed live now ready (wrote _ List.mem_cons_self)
    obtain ⟨flushThroughout, flushGuarded⟩ := flush_guarded pushed ended
    exact ⟨throughout_append _ _ [_] _ throughout flushThroughout, flushGuarded⟩

theorem guarded_map (guarded : Guarded blake3 crc32c header written poisoned intervals batch disk)
    (keeps : ∀ pos, intervals.stateAt pos = some .complete → next.stateAt pos = some .complete) :
    Guarded blake3 crc32c header written poisoned next batch disk := by
  cases poisoned with
  | true => exact guarded
  | false =>
    obtain ⟨frames, bytes, live⟩ := guarded
    refine ⟨frames, bytes, live.framed, live.log, ?_, live.staged⟩
    intro frame mem
    obtain ⟨offset, block, describes, settled, completed⟩ := live.claimed frame mem
    exact ⟨offset, block, describes, settled,
      fun pos lower upper => keeps pos (completed pos lower upper)⟩

variable (blake3 crc32c header written)

structure Running (fresh : Disk UInt8) (session : Session) : Prop where
  throughout : Throughout (Safe blake3 crc32c header written) fresh session.trace
  guarded : Guarded blake3 crc32c header written session.writer.poisoned session.intervals
    session.writer.staged (fresh.run session.trace)

variable {blake3 crc32c header written}

theorem running_map (next : IntervalMap)
    (running : Running blake3 crc32c header written fresh session)
    (keeps : ∀ pos, session.intervals.stateAt pos = some .complete →
      next.stateAt pos = some .complete) :
    Running blake3 crc32c header written fresh { session with intervals := next } :=
  ⟨running.throughout, guarded_map running.guarded keeps⟩

theorem running_take (outcome : Outcome)
    (running : Running blake3 crc32c header written fresh session)
    (step : Throughout (Safe blake3 crc32c header written) (fresh.run session.trace)
        outcome.events ∧
      Guarded blake3 crc32c header written outcome.writer.poisoned outcome.intervals
        outcome.writer.staged ((fresh.run session.trace).run outcome.events)) :
    Running blake3 crc32c header written fresh (session.take outcome) := by
  refine ⟨throughout_append _ _ _ _ running.throughout step.1, ?_⟩
  rw [Session.take, run_append]
  exact step.2

theorem running_flush (running : Running blake3 crc32c header written fresh session)
    (ended : FlushEnd crc32c session.writer session.intervals outcome) :
    Running blake3 crc32c header written fresh (session.take outcome) := by
  apply running_take outcome running
  cases poisoned : session.writer.poisoned with
  | true =>
    obtain ⟨silent, still⟩ := poisoned_flush poisoned ended
    have safe := guarded_safe running.guarded
    rw [silent, still]
    exact ⟨safe, safe⟩
  | false =>
    have guarded := running.guarded
    rw [poisoned] at guarded
    obtain ⟨frames, bytes, live⟩ := guarded
    exact flush_guarded live ended

theorem running_call {call : Call} (running : Running blake3 crc32c header written fresh session)
    (wrote : ∀ event ∈ (session.call blake3 crc32c call).trace, event ∈ written) :
    Running blake3 crc32c header written fresh (session.call blake3 crc32c call) := by
  cases call with
  | grant range worker =>
    cases changed : session.intervals.grant range worker with
    | error error => simpa [Session.call, Session.changeMap, changed] using running
    | ok next =>
      have moves := session.intervals.grant_moves next worker changed
      simpa [Session.call, Session.changeMap, changed] using running_map next running fun pos held =>
          moves.keeps pos _ held (by simp)
  | splitInProgress splitAt source recipient =>
    cases changed : session.intervals.splitInProgress splitAt source recipient with
    | error error => simpa [Session.call, Session.changeMap, changed] using running
    | ok next =>
      obtain ⟨_, interval, _, _, _, moves⟩ := IntervalMap.split_moves _ _ changed
      simpa [Session.call, Session.changeMap, changed] using running_map next running fun pos held =>
          moves.keeps pos _ held (by simp)
  | abandon worker =>
    exact running_map _ running fun pos held =>
      session.intervals.abandon_keeps held (by simp)
  | stage worker offset bytes now io =>
    apply running_take _ running
    apply stage_guarded running.guarded
    · exact stage_end blake3 crc32c _ _ worker offset bytes now io
    · intro event mem
      exact wrote event (List.mem_append_right _ mem)
  | flush io =>
    exact running_flush running (flush_end crc32c _ _ io)
  | flushIfDue now io =>
    rcases flush_if_due_end crc32c session.writer session.intervals now io with
      ⟨result, idle⟩ | flushed
    · have same : session.call blake3 crc32c (.flushIfDue now io) = session := by
        simp [Session.call, idle, Session.take]
      rw [same]
      exact running
    · have same : session.call blake3 crc32c (.flushIfDue now io) =
          session.take (flush crc32c session.writer session.intervals io) := by
        simp [Session.call, flushed]
      rw [same]
      exact running_flush running (flush_end crc32c _ _ io)

theorem running_calls (running : Running blake3 crc32c header written fresh session)
    (wrote : ∀ event ∈ (session.calls blake3 crc32c calls).trace, event ∈ written) :
    Running blake3 crc32c header written fresh (session.calls blake3 crc32c calls) := by
  induction calls generalizing session with
  | nil => exact running
  | cons call rest ih =>
    refine ih ?_ wrote
    apply running_call running
    intro event mem
    exact wrote event ((calls_trace blake3 crc32c _ rest).subset mem)

end Crash

/-- The disk on which a writer starts: any part file, and a journal that holds
its synced header. -/
def freshDisk (crc32c : List UInt8 → UInt32) (header : FileHeader) (visible : Nat → UInt8)
    (surviving : Nat → Set UInt8) : Disk UInt8 where
  visible := visible
  surviving := surviving
  durableLog := header.encode crc32c
  pendingLog := []

def freshSession (writer : DurableWriter) (intervals : IntervalMap) : Session where
  writer := writer
  intervals := intervals
  trace := []
  flushFailed := false

section Origin
variable (blake3 : List UInt8 → Digest) (crc32c : List UInt8 → UInt32)

theorem append_run_writes (run : AppendRun crc32c records events complete) (offset : Nat)
    (bytes : List UInt8) : Event.write offset bytes ∉ events := by
  induction run with
  | done => simp
  | unencodable records => simp
  | torn record rest encoded landed written => simp
  | next record rest encoded events complete written later ih => simp [ih]

theorem flush_writes
    (ended : FlushEnd crc32c writer intervals outcome) (offset : Nat) (bytes : List UInt8) :
    Event.write offset bytes ∉ outcome.events := by
  cases ended with
  | refused error => simp
  | idle usable empty => simp
  | unowned error rejected => simp
  | dataSyncFailed error usable => simp
  | appendFailed error journalBytes appends usable run =>
    simpa using append_run_writes crc32c run offset bytes
  | journalSyncFailed error journalBytes appends usable run =>
    simpa using append_run_writes crc32c run offset bytes
  | committed next io usable sameLength owned numbered complete =>
    simpa using append_run_writes crc32c
      (append_all_runs crc32c io.append 0 writer.journalBytes _) offset bytes

theorem stage_writes
    (ended : StageEnd blake3 crc32c writer intervals worker offset bytes now outcome)
    (wrote : Event.write start block ∈ outcome.events) :
    start = offset ∧ block = bytes := by
  cases ended with
  | rejected error => simp [reject] at wrote
  | writeFailed ready error landed => simp at wrote
  | noSpace ready refused landed flushed ended =>
    simp [flush_writes crc32c ended] at wrote
  | staged ready => simpa using wrote
  | flushed ready flushed ended => simpa [flush_writes crc32c ended] using wrote

theorem write_staged (session : Session)
    (wrote : Event.write offset bytes ∈ (session.calls blake3 crc32c calls).trace) :
    Event.write offset bytes ∈ session.trace ∨
      ∃ worker now io, Call.stage worker offset bytes now io ∈ calls := by
  induction calls generalizing session with
  | nil => exact Or.inl wrote
  | cons call rest ih =>
    rcases ih (session.call blake3 crc32c call) wrote with here | ⟨worker, now, io, later⟩
    · cases call with
      | grant range worker => exact Or.inl (change_map_trace session _ ▸ here)
      | splitInProgress splitAt source recipient =>
        exact Or.inl (change_map_trace session _ ▸ here)
      | abandon worker => exact Or.inl here
      | stage worker start block now io =>
        rcases List.mem_append.mp here with old | new
        · exact Or.inl old
        · obtain ⟨rfl, rfl⟩ := stage_writes blake3 crc32c
            (stage_end blake3 crc32c _ _ worker start block now io) new
          exact Or.inr ⟨worker, now, io, List.mem_cons_self⟩
      | flush io =>
        rcases List.mem_append.mp here with old | new
        · exact Or.inl old
        · exact absurd new (flush_writes crc32c (flush_end crc32c _ _ io) offset bytes)
      | flushIfDue now io =>
        rcases List.mem_append.mp here with old | new
        · exact Or.inl old
        · rcases flush_if_due_end crc32c session.writer session.intervals now io with
            ⟨result, idle⟩ | flushed
          · rw [idle] at new
            cases new
          · rw [flushed] at new
            exact absurd new (flush_writes crc32c (flush_end crc32c _ _ io) offset bytes)
    · exact Or.inr ⟨worker, now, io, List.mem_cons_of_mem _ later⟩

end Origin

/-- Whatever calls are made, whichever I/O fails and wherever the machine stops,
a record that replay finds in the surviving journal describes a block whose
write succeeded in that run, whose bytes all survive, and whose digest it
records. -/
theorem replayed_blocks_survive (blake3 : List UInt8 → Digest) (crc32c : List UInt8 → UInt32)
    (header : FileHeader) (dataLength nextSequence : Nat) (writer : DurableWriter)
    (started : tryNew dataLength header.totalLength.toNat headerLen nextSequence = .ok writer)
    (intervals : IntervalMap) (visible : Nat → UInt8) (surviving : Nat → Set UInt8)
    (calls : List Call) (crashed : Disk UInt8)
    (crash : CrashPoint (freshDisk crc32c header visible surviving)
      ((freshSession writer intervals).calls blake3 crc32c calls).trace crashed)
    (file : Nat → UInt8) (log : List UInt8) (survives : Survives crashed file log)
    (schedule : List ReadEvent) (outcome : ReplayOutcome)
    (replayed : replayReader crc32c ⟨log, schedule⟩ = .ok outcome)
    (frame : FramedRecord) (found : frame ∈ outcome.records)
    (offset : UInt64) (len : UInt32) (digest : Digest)
    (block : frame.record = .blockComplete offset len digest) :
    ∃ (bytes : List UInt8) (worker : WorkerId) (now : Nat) (io : StageIo),
      Call.stage worker offset.toNat bytes now io ∈ calls ∧
      Event.write offset.toNat bytes ∈
        ((freshSession writer intervals).calls blake3 crc32c calls).trace ∧
      len.toNat = bytes.length ∧
      (∀ index, (inside : index < bytes.length) → file (offset.toNat + index) = bytes[index]) ∧
      digest = blake3 bytes := by
  generalize whole : ((freshSession writer intervals).calls blake3 crc32c calls).trace = written
    at crash
  have empty := try_new_unstaged started
  have fresh : Running blake3 crc32c header written (freshDisk crc32c header visible surviving)
      (freshSession writer intervals) := by
    have live : Live blake3 crc32c header written intervals writer.staged
        (freshDisk crc32c header visible surviving) [] [] :=
      ⟨Framed.nil, rfl, by simp, by simp [empty]⟩
    exact ⟨live_safe live, guarded_of_live _ live⟩
  have running := running_calls fresh fun event mem => whole ▸ mem
  -- Safety at the crash makes the surviving log a cut of a journal of settled blocks.
  have throughout := running.throughout
  rw [whole] at throughout
  obtain ⟨frames, bytes, framed, cut, claimed⟩ := throughout_crash _ _ crashed _ throughout crash
  obtain ⟨kept, keptCut, logIs⟩ := survives.log
  have logCut : log <+: header.encode crc32c ++ bytes := by
    rw [logIs]
    exact ((List.prefix_append_right_inj _).mpr keptCut).trans cut
  have records := (replay_cut crc32c header frames bytes framed ⟨log, schedule⟩ outcome logCut
    replayed).2
  obtain ⟨start, content, describes, settled⟩ := claimed frame (records.subset found)
  have shape := describes.shape
  rw [block, JournalRecord.blockComplete.injEq] at shape
  obtain ⟨offsetIs, lenIs, digestIs⟩ := shape
  have startIs : offset.toNat = start := by
    rw [offsetIs]
    exact UInt64.toNat_ofNat_of_lt'
      (Nat.lt_of_le_of_lt (Nat.le_add_right _ _) describes.representable)
  have lengthIs : len.toNat = content.length := by
    rw [lenIs]
    exact UInt32.toNat_ofNat_of_lt' describes.short
  have wrote := describes.wrote
  rw [← whole] at wrote
  rcases write_staged blake3 crc32c _ wrote with early | ⟨worker, now, io, staged⟩
  · cases early
  · refine ⟨content, worker, now, io, startIs ▸ staged, ?_, lengthIs, ?_, digestIs⟩
    · rw [startIs]
      exact describes.wrote
    · intro index inside
      rw [startIs]
      exact survives_settled settled survives inside

def oneByteHeader : FileHeader :=
  ⟨.replicate 16 0, 1, 1, .replicate 32 0⟩

def zeroDigest : List UInt8 → Digest := fun _ => .replicate 32 0

def zeroChecksum : List UInt8 → UInt32 := fun _ => 0

def flushSucceeds : FlushIo := ⟨none, fun _ => none, none⟩

def oneByteCalls : List Call :=
  [.grant ⟨0, 1⟩ 3, .stage 3 0 [7] 0 ⟨none, flushSucceeds⟩, .flush flushSucceeds]

def oneByteWriter : DurableWriter := ⟨1, headerLen, 0, [], 0, none, false, none, 0⟩

def oneByteDisk : Disk UInt8 :=
  (freshDisk zeroChecksum oneByteHeader (fun _ => 0) (fun _ => {0})).run
    ((freshSession oneByteWriter (.new 1)).calls zeroDigest zeroChecksum oneByteCalls).trace

def oneByteFrame : FramedRecord := ⟨0, .blockComplete 0 1 (zeroDigest [7])⟩

def oneByteEncoded : List UInt8 := oneByteFrame.body ++ u32Bytes 0

theorem one_byte_replays : replayReader zeroChecksum ⟨oneByteDisk.log, []⟩ =
    .ok ⟨oneByteHeader, [oneByteFrame], headerLen + oneByteEncoded.length, .cleanEof⟩ := by
  have framed := framed_single zeroChecksum oneByteFrame rfl
  exact replay_whole zeroChecksum oneByteHeader framed ⟨rfl, trivial⟩
    (by decide) (by decide)

theorem one_byte_survives : ∃ (bytes : List UInt8) (worker : WorkerId) (now : Nat) (io : StageIo),
    Call.stage worker (0 : UInt64).toNat bytes now io ∈ oneByteCalls ∧
    Event.write (0 : UInt64).toNat bytes ∈
      ((freshSession oneByteWriter (.new 1)).calls zeroDigest zeroChecksum oneByteCalls).trace ∧
    (1 : UInt32).toNat = bytes.length ∧
    (∀ index, (inside : index < bytes.length) →
      oneByteDisk.visible ((0 : UInt64).toNat + index) = bytes[index]) ∧
    zeroDigest [7] = zeroDigest bytes :=
  replayed_blocks_survive zeroDigest zeroChecksum oneByteHeader 1 0 oneByteWriter rfl (.new 1)
    (fun _ => 0) (fun _ => {0}) oneByteCalls oneByteDisk
    (.between _ [] (List.append_nil _).symm) oneByteDisk.visible oneByteDisk.log
    ⟨fun _ => rfl, oneByteDisk.pendingLog, List.prefix_rfl, rfl⟩ [] _ one_byte_replays oneByteFrame
    List.mem_cons_self 0 1 (zeroDigest [7]) rfl

end Downpour.WriterCrash
