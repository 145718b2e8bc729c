import Downpour.ActorOwnership
import Downpour.PoolWorker
import Downpour.WriterJournal

/-!
The body of one grant, fed chunk by chunk to the range sink of a pool worker. Each chunk
passes the window of the sink, the cursor of the grant writer, the actor and the batch of
the durable writer. The commands of other workers are left out while the body is fed;
what they have staged before is part of the state.
-/

namespace Downpour.Chunking
open CrashDisk Intervals JournalFormat JournalReplay Allocator Writer Http Actor ActorSafety
open ActorOwnership Pool

/-! I/O that succeeds. -/

structure Quiet (io : FlushIo) : Prop where
  dataSync : io.dataSync = none
  append : ∀ index, io.append index = none
  journalSync : io.journalSync = none

structure Calm (io : StageIo) : Prop where
  write : io.write = none
  flush : Quiet io.flush

def blockFrameLen : Nat := recordPrefixLen + 44 + checksumLen

section Frames
variable (crc32c : List UInt8 → UInt32)

theorem block_payload_length (block : StagedBlock) :
    (encodePayload block.record).2.length = 44 := by
  simp [StagedBlock.record, encodePayload, u64Bytes, u32Bytes]

theorem block_encodes (sequence : UInt64) (block : StagedBlock) :
    ∃ encoded, (⟨sequence, block.record⟩ : FramedRecord).encode crc32c = .ok encoded ∧
      encoded.length = blockFrameLen := by
  have short : ¬ (encodePayload block.record).2.length > maxPayloadLen := by
    rw [block_payload_length]
    decide
  have written : (⟨sequence, block.record⟩ : FramedRecord).encode crc32c = .ok _ := if_neg short
  refine ⟨_, written, ?_⟩
  rw [frame_length crc32c _ written, block_payload_length, blockFrameLen]

theorem framed_length {sequence : Nat} {staged : List StagedBlock} {bytes : List UInt8}
    (framed : Framed crc32c (framedRecords sequence staged) bytes) :
    bytes.length = blockFrameLen * staged.length := by
  induction staged generalizing sequence bytes with
  | nil =>
    cases framed
    rfl
  | cons block rest ih =>
    cases framed with
    | cons _ _ first tail written later =>
      obtain ⟨encoded, same, sized⟩ := block_encodes crc32c (UInt64.ofNat sequence) block
      rw [written] at same
      cases same
      rw [List.length_append, sized, ih later, List.length_cons, Nat.mul_succ, Nat.add_comm]

theorem append_all_quiet (index length sequence : Nat) (quiet : ∀ index, io index = none)
    (room : length + blockFrameLen * staged.length ≤ maxFileLength) :
    (appendAll crc32c io index length (framedRecords sequence staged)).2.2 = none := by
  induction staged generalizing index length sequence with
  | nil => rfl
  | cons block rest ih =>
    obtain ⟨encoded, written, sized⟩ := block_encodes crc32c (UInt64.ofNat sequence) block
    rw [List.length_cons, Nat.mul_succ] at room
    simp only [framedRecords, appendAll, written, quiet]
    rw [if_neg (by omega)]
    exact ih (index + 1) _ (sequence + 1) (by omega)

end Frames

/-! The sink, the actor and the disk while a body is fed. -/

structure Feeding where
  sink : RangeSink GrantWriter
  actor : StateActor
  disk : Disk UInt8

def Feeding.begin (grant : Grant) (actor : StateActor) (disk : Disk UInt8) : Feeding :=
  ⟨RangeSink.new (writerFor grant) grant.range.start (some (grant.range.stop - grant.range.start)),
    actor, disk⟩

section Feed
variable (blake3 : List UInt8 → Digest) (crc32c : List UInt8 → UInt32)
variable (serviceText : WriterServiceError → String)

def acceptChunk (feeding : Feeding) (now : Nat) (io : StageIo) (chunk : List UInt8) :
    Except SinkError Unit × Feeding :=
  match acceptCommand serviceText feeding.sink chunk now with
  | .error error => (.error error, feeding)
  | .ok command =>
    let served := feeding.actor.handle blake3 crc32c command io
    let accepted := acceptReply serviceText feeding.sink chunk served.reply
    (accepted.1, ⟨accepted.2, served.actor, feeding.disk.run served.events⟩)

theorem accept_chunk_accepts (feeding : Feeding) (now : Nat) (io : StageIo) (chunk : List UInt8) :
    feeding.sink.accept (writeAt serviceText now fun command =>
        (feeding.actor.handle blake3 crc32c command io).reply) chunk =
      ((acceptChunk blake3 crc32c serviceText feeding now io chunk).1,
        (acceptChunk blake3 crc32c serviceText feeding now io chunk).2.sink) := by
  rw [accept_halves, acceptChunk]
  cases acceptCommand serviceText feeding.sink chunk now <;> rfl

/-- The chunks in order, each with its own time and I/O, up to the first refusal. -/
def feed (now : Nat → Nat) (io : Nat → StageIo) :
    Nat → Feeding → List (List UInt8) → Except SinkError Unit × Feeding
  | _, feeding, [] => (.ok (), feeding)
  | index, feeding, chunk :: rest =>
    match acceptChunk blake3 crc32c serviceText feeding (now index) (io index) chunk with
    | (.error error, after) => (.error error, after)
    | (.ok (), after) => feed now io (index + 1) after rest

def sync (feeding : Feeding) (io : FlushIo) : Except SinkError Unit × Feeding :=
  let served := feeding.actor.flush crc32c io
  (syncReply serviceText feeding.sink served.reply,
    ⟨feeding.sink, served.actor, feeding.disk.run served.events⟩)

def Taken (actor : StateActor) (pos : Nat) : Prop :=
  Complete actor pos ∨ Staged actor pos

structure Open (grant : Grant) (feeding : Feeding) (done : Nat) : Prop where
  target : feeding.sink.target = ⟨grant, grant.range.start + done⟩
  base : feeding.sink.baseOffset = grant.range.start
  written : feeding.sink.written = done
  limit : feeding.sink.limit = some (grant.range.stop - grant.range.start)
  inside : grant.range.start + done ≤ grant.range.stop
  usable : feeding.actor.writer.poisoned = false
  sameLength : feeding.actor.allocator.intervals.totalLength = feeding.actor.writer.dataLength
  coherent : Coherent feeding.actor
  free : ∀ pos, grant.range.start + done ≤ pos → pos < grant.range.stop →
    Free feeding.actor grant.worker pos
  small : grant.range.stop < 2 ^ 63
  batch : feeding.actor.writer.stagedBytes + (grant.range.stop - (grant.range.start + done)) < 2 ^ 64

structure Advances (count offset : Nat) (bytes : List UInt8) (before after : Feeding) : Prop where
  visible : ∀ pos, after.disk.visible pos =
    (placed offset bytes pos).getD (before.disk.visible pos)
  taken : ∀ pos, Taken after.actor pos ↔
    Taken before.actor pos ∨ offset ≤ pos ∧ pos < offset + bytes.length
  numbered : after.actor.writer.nextSequence + after.actor.writer.staged.length =
    before.actor.writer.nextSequence + before.actor.writer.staged.length + count
  journal : after.actor.writer.journalBytes + blockFrameLen * after.actor.writer.staged.length =
    before.actor.writer.journalBytes + blockFrameLen * before.actor.writer.staged.length +
      blockFrameLen * count

def Durable (disk : Disk UInt8) : Prop :=
  ∀ pos, disk.surviving pos = {disk.visible pos}

def Flushed (feeding : Feeding) : Prop :=
  Durable feeding.disk ∧
    feeding.actor.writer.nextSequence + feeding.actor.writer.staged.length < 2 ^ 64

theorem placed_append (offset pos : Nat) (first second : List UInt8) (byte : UInt8) :
    (placed offset (first ++ second) pos).getD byte =
      (placed (offset + first.length) second pos).getD ((placed offset first pos).getD byte) := by
  unfold placed
  by_cases after : offset ≤ pos
  · by_cases behind : offset + first.length ≤ pos
    · have index : pos - offset - first.length = pos - (offset + first.length) := by omega
      rw [if_pos after, if_pos behind, if_pos after, List.getElem?_append_right (by omega), index,
        List.getElem?_eq_none (show first.length ≤ pos - offset by omega)]
      rfl
    · rw [if_pos after, if_neg behind, if_pos after, List.getElem?_append_left (by omega)]
      rfl
  · rw [if_neg after, if_neg after, if_neg (by omega)]
    rfl

theorem advances_nothing (offset : Nat) (feeding : Feeding) :
    Advances 0 offset [] feeding feeding := by
  refine ⟨fun pos => ?_, fun pos => ?_, rfl, rfl⟩
  · simp [placed]
  · simp only [List.length_nil, Nat.add_zero]
    exact ⟨Or.inl, fun either => either.resolve_right (by omega)⟩

variable {offset now done : Nat} {after feeding : Feeding} {outcome : Outcome} {actor : StateActor}
    {disk : Disk UInt8} {writer : DurableWriter} {intervals : IntervalMap} {worker : WorkerId}
    {bytes chunk : List UInt8} {io : StageIo} {grant : Grant}

theorem advances_after (one : Advances first offset left before between)
    (two : Advances second (offset + left.length) right between after) :
    Advances (first + second) offset (left ++ right) before after := by
  refine ⟨fun pos => ?_, fun pos => ?_, ?_, ?_⟩
  · rw [two.visible, one.visible, placed_append]
  · rw [two.taken, one.taken, List.length_append, or_assoc]
    apply or_congr_right
    omega
  · have := one.numbered
    have := two.numbered
    omega
  · have := one.journal
    have := two.journal
    rw [Nat.mul_add]
    omega

/-! A flush that succeeds. -/

theorem durable_run (disk : Disk UInt8)
    (keeps : ∀ event ∈ events, KeepsData event) (durable : Durable disk) :
    Durable (disk.run events) := by
  induction events generalizing disk with
  | nil => exact durable
  | cons event rest ih =>
    apply ih (disk.apply event) fun other mem => keeps other (List.mem_cons_of_mem _ mem)
    have kept := keeps event List.mem_cons_self
    cases event with
    | write offset bytes => exact kept.elim
    | writeFailed offset bytes landed => exact kept.elim
    | syncData => exact fun _ => rfl
    | _ => exact durable

/-- The batch is complete and empty, and its blocks have their numbers and frames. -/
structure Committed (actor : StateActor) (disk : Disk UInt8) (outcome : Outcome) : Prop where
  usable : outcome.writer.poisoned = false
  unstaged : outcome.writer.staged = []
  length : outcome.writer.dataLength = actor.writer.dataLength
  batch : outcome.writer.stagedBytes ≤ actor.writer.stagedBytes
  numbered : outcome.writer.nextSequence =
    actor.writer.nextSequence + actor.writer.staged.length
  journal : outcome.writer.journalBytes =
    actor.writer.journalBytes + blockFrameLen * actor.writer.staged.length
  completes : CompletesAll actor.allocator.intervals actor.writer.staged outcome.intervals
  visible : ∀ pos, (disk.run outcome.events).visible pos = disk.visible pos
  flushed : actor.writer.staged = [] ∨ Durable (disk.run outcome.events) ∧
    actor.writer.nextSequence + actor.writer.staged.length < 2 ^ 64

theorem flush_committed (actor : StateActor) (disk : Disk UInt8)
    (ended : FlushEnd crc32c actor.writer actor.allocator.intervals outcome)
    (succeeded : outcome.result.isOk = true) : Committed actor disk outcome := by
  have keeps := flush_keeps crc32c ended
  have visible : ∀ pos, (disk.run outcome.events).visible pos = disk.visible pos :=
    fun pos => untouched_run disk fun event mem =>
      keeps_untouched (keeps event mem) pos
  cases ended with
  | refused error => cases succeeded
  | idle usable empty =>
    refine ⟨usable, empty, rfl, Nat.le_refl _, by rw [empty]; rfl, by rw [empty]; rfl, ?_, visible,
      Or.inl empty⟩
    rw [empty]
    exact complete_all_completes _ _ [] rfl
  | unowned error rejected => cases succeeded
  | dataSyncFailed error usable => cases succeeded
  | appendFailed error journalBytes appends usable run => cases succeeded
  | journalSyncFailed error journalBytes appends usable run => cases succeeded
  | committed next io usable sameLength owned numbered complete =>
    have runs := append_all_runs crc32c io.append 0 actor.writer.journalBytes
      (framedRecords actor.writer.nextSequence actor.writer.staged)
    rw [complete] at runs
    obtain ⟨bytes, framed, _⟩ := (WriterJournal.append_run_log runs disk).2 rfl
    have grown := (append_all_length crc32c framed
      complete).1
    rw [framed_length crc32c framed] at grown
    refine ⟨usable, rfl, rfl, Nat.zero_le _, rfl, grown, complete_all_completes _ _ _ owned, visible,
      Or.inr ⟨?_, numbered⟩⟩
    apply durable_run (disk.apply .syncData) _ fun _ => rfl
    exact fun event mem => keeps event (List.mem_cons_of_mem _ mem)

theorem committed_taken (committed : Committed actor disk outcome) (pos : Nat) :
    Complete (actor.after outcome) pos ↔ Taken actor pos := by
  constructor
  · intro complete
    by_cases staged : Staged actor pos
    · exact Or.inr staged
    · left
      have same := committed.completes.others pos fun block mem inside =>
        staged ⟨block, mem, inside⟩
      exact same.symm.trans complete
  · rintro (complete | ⟨block, mem, inside⟩)
    · exact complete_all_keeps committed.completes pos complete
    · exact committed.completes.completed block mem pos inside.1 inside.2

theorem committed_unstaged (committed : Committed actor disk outcome) (pos : Nat) :
    ¬ Staged (actor.after outcome) pos := by
  rintro ⟨block, mem, _⟩
  have empty : (actor.after outcome).writer.staged = [] := committed.unstaged
  rw [empty] at mem
  cases mem

/-! A chunk that is accepted. -/

theorem stage_succeeded
    (ended : StageEnd blake3 crc32c writer intervals worker offset bytes now outcome)
    (succeeded : outcome.result.isOk = true) :
    StageReady writer intervals worker offset bytes ∧
      (outcome = ⟨.ok [], pushStaged blake3 writer worker offset bytes now, intervals,
          [.write offset bytes], false⟩ ∨
        ∃ flushed, FlushEnd crc32c (pushStaged blake3 writer worker offset bytes now) intervals flushed ∧
          flushed.result.isOk = true ∧
          outcome = { flushed with events := .write offset bytes :: flushed.events }) := by
  cases ended with
  | rejected error => cases succeeded
  | writeFailed ready error landed => cases succeeded
  | noSpace ready refused landed flushed ended => cases succeeded
  | staged ready => exact ⟨ready, Or.inl rfl⟩
  | flushed ready flushed ended => exact ⟨ready, Or.inr ⟨flushed, ended, succeeded, rfl⟩⟩

theorem write_replied
    (replied : (actor.write blake3 crc32c worker offset bytes now io).reply = .ok receipt) :
    let outcome := stage blake3 crc32c actor.writer actor.allocator.intervals worker offset bytes now io
    outcome.result.isOk = true ∧
      (actor.write blake3 crc32c worker offset bytes now io).actor = actor.after outcome ∧
      (actor.write blake3 crc32c worker offset bytes now io).events = outcome.events := by
  unfold StateActor.write at replied ⊢
  by_cases overflow : offset + bytes.length ≥ 2 ^ 64
  · rw [if_pos overflow] at replied
    cases replied
  · simp only [if_neg overflow] at replied ⊢
    cases owned : actor.allocator.intervals.complete ⟨offset, offset + bytes.length⟩ worker with
    | error error =>
      rw [owned] at replied
      cases replied
    | ok map =>
      simp only [owned] at replied ⊢
      refine ⟨?_, trivial, trivial⟩
      cases result : (stage blake3 crc32c actor.writer actor.allocator.intervals worker offset bytes
          now io).result with
      | error error =>
        rw [result] at replied
        cases replied
      | ok durable => rfl

theorem command_sent (opened : Open grant feeding done)
    (sent : acceptCommand serviceText feeding.sink chunk now = .ok command) :
    command = .write grant.worker (grant.range.start + done) chunk now ∧
      chunk.length ≤ maxWriteBlockBytes ∧
      grant.range.start + done + chunk.length ≤ grant.range.stop := by
  unfold acceptCommand at sent
  rw [opened.target] at sent
  split at sent
  · cases sent
  · simp only at sent
    split_ifs at sent
    split at sent
    · cases sent
    next written =>
      cases sent
      unfold GrantWriter.write at written
      split_ifs at written with large overflow beyond
      cases written
      exact ⟨rfl, Nat.not_lt.mp large, Nat.not_lt.mp beyond⟩

theorem open_moved (opened : Open grant feeding done)
    (within : grant.range.start + done + chunk.length ≤ grant.range.stop)
    (disk : Disk UInt8) (usable : actor.writer.poisoned = false)
    (sameLength : actor.allocator.intervals.totalLength = actor.writer.dataLength)
    (coherent : Coherent actor)
    (free : ∀ pos, grant.range.start + done + chunk.length ≤ pos →
      pos < grant.range.stop → Free actor grant.worker pos)
    (batch : actor.writer.stagedBytes ≤ feeding.actor.writer.stagedBytes + chunk.length) :
    Open grant ⟨{ feeding.sink with
        target := { feeding.sink.target with nextOffset := feeding.sink.target.nextOffset + chunk.length }
        written := min (feeding.sink.written + chunk.length) (2 ^ 64 - 1) }, actor, disk⟩
      (done + chunk.length) := by
  have small := opened.small
  refine ⟨?_, opened.base, ?_, opened.limit, by omega, usable, sameLength, coherent, ?_, small, ?_⟩
  · simp only [opened.target, Nat.add_assoc]
  · simp only [opened.written]
    omega
  · intro pos lower upper
    exact free pos (by omega) upper
  · have room := opened.batch
    simp only
    omega

theorem accept_advances (opened : Open grant feeding done)
    (accepted : acceptChunk blake3 crc32c serviceText feeding now io chunk = (.ok (), after)) :
    Open grant after (done + chunk.length) ∧
      Advances 1 (grant.range.start + done) chunk feeding after ∧
      chunk.length ≤ maxWriteBlockBytes ∧
      (after.actor.writer.staged ≠ [] ∨ Flushed after) := by
  unfold acceptChunk at accepted
  cases sent : acceptCommand serviceText feeding.sink chunk now with
  | error error =>
    rw [sent] at accepted
    cases accepted
  | ok command =>
    obtain ⟨rfl, short, within⟩ := command_sent serviceText opened sent
    simp only [sent, StateActor.handle] at accepted
    cases replied : (feeding.actor.write blake3 crc32c grant.worker (grant.range.start + done) chunk
        now io).reply with
    | error error =>
      rw [replied] at accepted
      cases accepted
    | ok receipt =>
      obtain ⟨succeeded, moved, events⟩ := write_replied blake3 crc32c replied
      have ended := stage_end blake3 crc32c feeding.actor.writer feeding.actor.allocator.intervals
        grant.worker (grant.range.start + done) chunk now io
      rw [replied, moved, events] at accepted
      generalize stage blake3 crc32c feeding.actor.writer feeding.actor.allocator.intervals
        grant.worker (grant.range.start + done) chunk now io = outcome
        at succeeded ended accepted
      obtain ⟨ready, shape⟩ := stage_succeeded blake3 crc32c ended succeeded
      simp only [acceptReply, GrantWriter.advance, Prod.mk.injEq, true_and] at accepted
      subst accepted
      have coherent : Coherent (pushed blake3 feeding.actor grant.worker _ chunk now) :=
        push_coherent blake3 now opened.coherent ready
      have free : ∀ pos, grant.range.start + done + chunk.length ≤ pos →
          pos < grant.range.stop → Free (pushed blake3 feeding.actor grant.worker
            (grant.range.start + done) chunk now) grant.worker pos := by
        intro pos lower upper
        rw [push_free]
        exact ⟨opened.free pos (by omega) upper, fun inside =>
          absurd inside.2 (Nat.not_lt.mpr lower)⟩
      have taken : ∀ pos, Taken (pushed blake3 feeding.actor grant.worker
            (grant.range.start + done) chunk now) pos ↔
          Taken feeding.actor pos ∨ grant.range.start + done ≤ pos ∧
            pos < grant.range.start + done + chunk.length := by
        intro pos
        rw [Taken, push_staged, Taken, or_assoc]
        rfl
      rcases shape with rfl | ⟨flushed, flushEnded, flushDone, rfl⟩
      · refine ⟨open_moved opened within _ opened.usable opened.sameLength coherent free
          (Nat.le_refl _), ⟨fun pos => rfl, taken, ?_, ?_⟩, short, Or.inl ?_⟩
        · simp [StateActor.after, pushStaged, Nat.add_assoc]
        · simp only [StateActor.after, pushStaged, List.length_append, List.length_singleton]
          ring
        · simp [StateActor.after, pushStaged]
      · -- The batch was full, so the chunk and everything staged before is committed.
        have committed := flush_committed crc32c (pushed blake3 feeding.actor grant.worker
          (grant.range.start + done) chunk now)
          (feeding.disk.apply (.write (grant.range.start + done) chunk)) flushEnded flushDone
        have settles := (flush_settles crc32c (pushed blake3 feeding.actor grant.worker
          (grant.range.start + done) chunk now) flushEnded).1
        have unstaged := committed.unstaged
        have numbered := committed.numbered
        have journal := committed.journal
        have count : (pushed blake3 feeding.actor grant.worker (grant.range.start + done) chunk
            now).writer.staged.length = feeding.actor.writer.staged.length + 1 := by
          simp [pushed, pushStaged]
        rw [count] at numbered journal
        refine ⟨open_moved opened within _ committed.usable ?_ ?_ ?_ committed.batch,
          ⟨committed.visible, ?_, ?_, ?_⟩, short, Or.inr ⟨?_, ?_⟩⟩
        · exact (committed.completes.totalLength.trans opened.sameLength).trans
            committed.length.symm
        · exact settles_coherent coherent settles
        · intro pos lower upper
          exact (settles_owns _ _ settles grant.worker pos).2.mpr (free pos lower upper)
        · intro pos
          rw [← taken, ← committed_taken committed]
          exact or_iff_left (committed_unstaged committed pos)
        · simp only [StateActor.after, unstaged, numbered]
          exact (Nat.add_assoc _ _ _).symm
        · simp only [StateActor.after, unstaged, journal, List.length_nil]
          rw [Nat.mul_zero, Nat.add_zero, Nat.mul_succ, Nat.mul_one]
          exact (Nat.add_assoc _ _ _).symm
        · exact (committed.flushed.resolve_left (by simp [pushed, pushStaged])).1
        · have fits := (committed.flushed.resolve_left (by simp [pushed, pushStaged])).2
          rw [count] at fits
          simp only [StateActor.after, unstaged, numbered, List.length_nil]
          exact fits

theorem feed_advances (opened : Open grant feeding done) {now : Nat → Nat} {io : Nat → StageIo}
    {index : Nat} {chunks : List (List UInt8)}
    (accepted : feed blake3 crc32c serviceText now io index feeding chunks = (.ok (), after)) :
    Open grant after (done + chunks.flatten.length) ∧
      Advances chunks.length (grant.range.start + done) chunks.flatten feeding after ∧
      (∀ chunk ∈ chunks, chunk.length ≤ maxWriteBlockBytes) ∧
      (chunks ≠ [] → after.actor.writer.staged ≠ [] ∨ Flushed after) := by
  -- A body that is accepted to its end. The induction is over its chunks.
  induction chunks generalizing feeding done index with
  | nil =>
    cases accepted
    exact ⟨opened, advances_nothing _ _, by simp, fun nonempty => absurd rfl nonempty⟩
  | cons chunk rest ih =>
    rw [feed] at accepted
    rcases first : acceptChunk blake3 crc32c serviceText feeding (now index) (io index) chunk with
      ⟨error | _, between⟩
    · rw [first] at accepted
      cases accepted
    · rw [first] at accepted
      obtain ⟨openedNext, step, short, stands⟩ := accept_advances blake3 crc32c serviceText opened first
      obtain ⟨openedLast, steps, shorts, ends⟩ := ih openedNext accepted
      refine ⟨?_, ?_, ?_, fun _ => ?_⟩
      · rw [List.flatten_cons, List.length_append, ← Nat.add_assoc]
        exact openedLast
      · rw [List.flatten_cons, List.length_cons, Nat.add_comm rest.length 1]
        rw [← Nat.add_assoc] at steps
        exact advances_after step steps
      · exact List.forall_mem_cons.mpr ⟨short, shorts⟩
      · by_cases last : rest = []
        · rw [last] at accepted
          cases accepted
          exact stands
        · exact ends last

/-! Chunks that are short enough. -/

theorem flush_succeeds (actor : StateActor) {io : FlushIo} (quiet : Quiet io)
    (usable : actor.writer.poisoned = false)
    (sameLength : actor.allocator.intervals.totalLength = actor.writer.dataLength)
    (coherent : Coherent actor)
    (room : actor.writer.journalBytes + blockFrameLen * actor.writer.staged.length ≤ maxFileLength)
    (numbered : actor.writer.nextSequence + actor.writer.staged.length < 2 ^ 64) :
    (Writer.flush crc32c actor.writer actor.allocator.intervals io).result.isOk = true := by
  obtain ⟨next, owned⟩ := complete_all_owned actor.allocator.intervals
    coherent.ordered coherent.apart coherent.owned
  have appended := append_all_quiet crc32c 0 actor.writer.journalBytes
    actor.writer.nextSequence quiet.append room
  unfold Writer.flush
  rw [if_neg (by rw [usable]; exact Bool.false_ne_true), if_neg (not_not.mpr sameLength)]
  by_cases empty : actor.writer.staged = []
  · rw [if_pos empty]
    rfl
  · rw [if_neg empty, owned]
    simp only [if_neg (Nat.not_le.mpr numbered), quiet.dataSync, appended, quiet.journalSync]
    rfl

theorem command_accepted (opened : Open grant feeding done) (now : Nat)
    (short : chunk.length ≤ maxWriteBlockBytes)
    (within : grant.range.start + done + chunk.length ≤ grant.range.stop) :
    acceptCommand serviceText feeding.sink chunk now =
      .ok (.write grant.worker (grant.range.start + done) chunk now) := by
  have small := opened.small
  have window : (some (grant.range.stop - grant.range.start)).filter (fun limit =>
      decide (limit < min (done + chunk.length) (2 ^ 64 - 1))) = none := by
    have fits : ¬ grant.range.stop - grant.range.start < min (done + chunk.length) (2 ^ 64 - 1) := by
      omega
    simp only [Option.filter, fits, decide_false, Bool.false_eq_true, ↓reduceIte]
  unfold acceptCommand
  simp only [opened.limit, opened.written, opened.base, opened.target, window]
  rw [if_neg (by omega), if_neg (by simp)]
  unfold GrantWriter.write
  simp only
  rw [if_neg (Nat.not_lt.mpr short), if_neg (by omega), if_neg (Nat.not_lt.mpr within)]

theorem stage_checked (opened : Open grant feeding done) (nonempty : chunk ≠ [])
    (short : chunk.length ≤ maxWriteBlockBytes)
    (within : grant.range.start + done + chunk.length ≤ grant.range.stop) :
    (∃ map, feeding.actor.allocator.intervals.complete
        ⟨grant.range.start + done, grant.range.start + done + chunk.length⟩ grant.worker = .ok map) ∧
      stageCheck feeding.actor.writer feeding.actor.allocator.intervals grant.worker
        (grant.range.start + done) chunk = none := by
  have positive := List.length_pos_iff.mpr nonempty
  have small := opened.small
  have batch := opened.batch
  have block : maxWriteBlockBytes < 2 ^ 32 := by decide
  have last := (feeding.actor.allocator.intervals.state_inside
    (grant.range.start + done + chunk.length - 1)).mp
      ⟨_, (opened.free _ (by omega) (by omega)).1⟩
  obtain ⟨map, owned⟩ := feeding.actor.allocator.intervals.complete_owned
    ⟨grant.range.start + done, grant.range.start + done + chunk.length⟩ (by simp; omega)
    (by simp only; omega) fun pos lower upper =>
      (opened.free pos lower (Nat.lt_of_lt_of_le upper within)).1
  refine ⟨⟨map, owned⟩, ?_⟩
  have clear : feeding.actor.writer.staged.find? (overlapping
      ⟨grant.range.start + done, grant.range.start + done + chunk.length⟩) = none := by
    rw [List.find?_eq_none]
    intro existing mem overlaps
    simp only [overlapping, Bool.and_eq_true, decide_eq_true_eq] at overlaps
    have ordered := opened.coherent.ordered existing mem
    -- A shared byte would be staged and free at once.
    exact (opened.free (max existing.range.start (grant.range.start + done)) (by omega) (by omega)).2
      ⟨existing, mem, by simp only [Inside]; omega⟩
  unfold stageCheck
  rw [if_neg (by rw [opened.usable]; exact Bool.false_ne_true),
    if_neg (not_not.mpr opened.sameLength), if_neg nonempty, if_neg (by omega), if_neg (by omega),
    owned]
  simp only [clear]
  rw [if_neg (by omega)]

theorem accept_succeeds (opened : Open grant feeding done) (now : Nat) (calm : Calm io)
    (nonempty : chunk ≠ []) (short : chunk.length ≤ maxWriteBlockBytes)
    (within : grant.range.start + done + chunk.length ≤ grant.range.stop)
    (room : feeding.actor.writer.journalBytes +
      blockFrameLen * (feeding.actor.writer.staged.length + 1) ≤ maxFileLength)
    (numbered : feeding.actor.writer.nextSequence + feeding.actor.writer.staged.length + 1 < 2 ^ 64)
    :
    (acceptChunk blake3 crc32c serviceText feeding now io chunk).1 = .ok () := by
  obtain ⟨⟨map, owned⟩, checked⟩ := stage_checked opened nonempty short within
  have small := opened.small
  have staged : (stage blake3 crc32c feeding.actor.writer feeding.actor.allocator.intervals grant.worker
      (grant.range.start + done) chunk now io).result.isOk = true := by
    simp only [stage, checked, calm.write]
    split
    · have count : (pushed blake3 feeding.actor grant.worker (grant.range.start + done) chunk
          now).writer.staged.length = feeding.actor.writer.staged.length + 1 := by
        simp [pushed, pushStaged]
      refine flush_succeeds crc32c (pushed blake3 feeding.actor grant.worker (grant.range.start + done)
        chunk now) calm.flush opened.usable opened.sameLength ?_ ?_ ?_
      · exact push_coherent blake3 now opened.coherent
          (stage_ready checked)
      · rw [count]
        exact room
      · rw [count]
        exact numbered
    · rfl
  rw [acceptChunk, command_accepted serviceText opened now short within]
  simp only [StateActor.handle, StateActor.write, if_neg (show ¬ grant.range.start + done + chunk.length ≥
    2 ^ 64 by omega), owned]
  cases result : (stage blake3 crc32c feeding.actor.writer feeding.actor.allocator.intervals grant.worker
      (grant.range.start + done) chunk now io).result with
  | error error =>
    rw [result] at staged
    cases staged
  | ok durable => rfl

theorem feed_succeeds (opened : Open grant feeding done) (now : Nat → Nat) {io : Nat → StageIo}
    (index : Nat) {chunks : List (List UInt8)} (calm : ∀ index, Calm (io index))
    (nonempty : ∀ chunk ∈ chunks, chunk ≠ [])
    (short : ∀ chunk ∈ chunks, chunk.length ≤ maxWriteBlockBytes)
    (within : grant.range.start + done + chunks.flatten.length ≤ grant.range.stop)
    (room : feeding.actor.writer.journalBytes +
      blockFrameLen * (feeding.actor.writer.staged.length + chunks.length) ≤ maxFileLength)
    (numbered : feeding.actor.writer.nextSequence + feeding.actor.writer.staged.length +
      chunks.length < 2 ^ 64) :
    (feed blake3 crc32c serviceText now io index feeding chunks).1 = .ok () := by
  induction chunks generalizing feeding done index with
  | nil => rfl
  | cons chunk rest ih =>
    rw [List.flatten_cons, List.length_append] at within
    rw [List.length_cons] at numbered
    simp only [List.length_cons, Nat.mul_add, Nat.mul_one] at room
    have accepted := accept_succeeds blake3 crc32c serviceText opened (now index)
      (calm index) (nonempty chunk List.mem_cons_self) (short chunk List.mem_cons_self) (by omega)
      (by rw [Nat.mul_add, Nat.mul_one]; omega) (by omega)
    rw [feed]
    rcases first : acceptChunk blake3 crc32c serviceText feeding (now index) (io index) chunk with
      ⟨result, between⟩
    rw [first] at accepted
    cases accepted
    obtain ⟨openedNext, step, _, _⟩ := accept_advances blake3 crc32c serviceText opened first
    have count := step.numbered
    have journal := step.journal
    refine ih openedNext (index + 1) (fun other mem => nonempty other (List.mem_cons_of_mem _ mem))
      (fun other mem => short other (List.mem_cons_of_mem _ mem)) (by omega) ?_ (by omega)
    rw [Nat.mul_add]
    omega

/-! The whole grant. -/

/-- A worker holds the grant, and nothing of it is staged yet. Others may have staged
blocks of their own. -/
structure Granted (actor : StateActor) (grant : Grant) : Prop where
  ordered : grant.range.start < grant.range.stop
  usable : actor.writer.poisoned = false
  sameLength : actor.allocator.intervals.totalLength = actor.writer.dataLength
  coherent : Coherent actor
  free : ∀ pos, grant.range.start ≤ pos → pos < grant.range.stop →
    Free actor grant.worker pos
  small : grant.range.stop < 2 ^ 63
  batch : actor.writer.stagedBytes + (grant.range.stop - grant.range.start) < 2 ^ 64

theorem granted_open (granted : Granted actor grant) (disk : Disk UInt8) :
    Open grant (Feeding.begin grant actor disk) 0 :=
  ⟨rfl, rfl, rfl, rfl, Nat.le_of_lt granted.ordered, granted.usable, granted.sameLength,
    granted.coherent, granted.free, granted.small, granted.batch⟩

/-! Grants of a running service. -/

def Settled (length : Nat) (writer : DurableWriter) : Prop :=
  writer.dataLength = length ∧ (writer.staged = [] → writer.stagedBytes = 0)

theorem flush_settled (length : Nat) (writer : DurableWriter) (intervals : IntervalMap)
    (outcome : Outcome) (ended : FlushEnd crc32c writer intervals outcome)
    (settled : Settled length writer) : Settled length outcome.writer := by
  cases ended with
  | refused error => exact settled
  | idle usable empty => exact settled
  | unowned error rejected => exact settled
  | dataSyncFailed error usable => exact settled
  | appendFailed error journalBytes appends usable run => exact settled
  | journalSyncFailed error journalBytes appends usable run => exact settled
  | committed next io usable sameLength owned numbered complete => exact ⟨settled.1, fun _ => rfl⟩

theorem stage_settled
    (ended : StageEnd blake3 crc32c writer intervals worker offset bytes now outcome)
    (settled : Settled length writer) : Settled length outcome.writer := by
  have pushed : Settled length (pushStaged blake3 writer worker offset bytes now) :=
    ⟨settled.1, fun empty => by simp [pushStaged] at empty⟩
  cases ended with
  | rejected error => exact settled
  | writeFailed ready error landed => exact settled
  | noSpace ready refused landed flushed ended =>
    exact flush_settled crc32c length writer intervals flushed ended settled
  | staged ready => exact pushed
  | flushed ready flushed ended => exact flush_settled crc32c length _ intervals flushed ended pushed

theorem handle_settled (command : Command) (io : StageIo) (settled : Settled length actor.writer) :
    Settled length (actor.handle blake3 crc32c command io).actor.writer := by
  have flushes := flush_settled crc32c length actor.writer actor.allocator.intervals _
    (flush_end crc32c _ _ io.flush) settled
  have fences : ∀ change, Settled length (actor.fenced crc32c io.flush change).actor.writer := by
    intro change
    unfold StateActor.fenced
    cases flushed : Writer.flush crc32c actor.writer actor.allocator.intervals io.flush with
    | mk result writer intervals events failed =>
      rw [flushed] at flushes
      cases result <;> exact flushes
  cases command with
  | allocate worker => exact fences _
  | write worker offset bytes now =>
    simp only [StateActor.handle, StateActor.write]
    split
    · exact settled
    · split
      · exact settled
      · exact stage_settled blake3 crc32c (stage_end blake3 crc32c _ _ _ _ _ now io)
          settled
  | flush => exact flushes
  | flushIfDue now =>
    simp only [StateActor.handle, StateActor.flushIfDue, StateActor.after]
    rcases flush_if_due_end crc32c actor.writer actor.allocator.intervals now io.flush with
      ⟨result, idle⟩ | flushed
    · rw [idle]
      exact settled
    · rw [flushed]
      exact flushes
  | abandon worker => exact fences _
  | snapshot => exact settled
  | shutdown => exact fences _

theorem run_settled (service : Service) (commands : List (Command × StageIo))
    (settled : Settled length service.actor.writer) :
    Settled length (service.run blake3 crc32c commands).actor.writer := by
  induction commands generalizing service with
  | nil => exact settled
  | cons next rest ih =>
    apply ih (service.serve blake3 crc32c next.1 next.2).2
    unfold Service.serve
    by_cases stopped : service.stopped = true
    · rw [if_pos stopped]
      exact settled
    · rw [if_neg stopped]
      exact handle_settled blake3 crc32c next.1 next.2 settled

theorem flush_usable {io : FlushIo}
    (succeeded : (Writer.flush crc32c writer intervals io).result.isOk = true) :
    writer.poisoned = false ∧ intervals.totalLength = writer.dataLength := by
  unfold Writer.flush at succeeded
  split at succeeded
  · cases succeeded
  next usable =>
    split at succeeded
    · cases succeeded
    next same => exact ⟨Bool.not_eq_true _ ▸ usable, not_not.mp same⟩

theorem allocated_owned {allocator : SegmentAllocator}
    (found : allocator.allocate worker = .ok (some allocation, next)) :
    allocation.grant.range.start < allocation.grant.range.stop ∧
      allocation.grant.range.stop ≤ next.intervals.totalLength ∧
      next.intervals.totalLength = allocator.intervals.totalLength ∧
      ∀ pos, Inside allocation.grant.range pos →
        next.intervals.stateAt pos = some (.inProgress allocation.grant.worker) := by
  have ended := allocator.allocate_end worker
  rw [found] at ended
  cases ended with
  | granted free interval mem pending after moves =>
    exact ⟨moves.ordered, moves.totalLength ▸ moves.bounded, moves.totalLength,
      fun pos inside => by rw [moves.reads, if_pos inside]⟩
  | split free interval source splitAt mem owned left after moves =>
    exact ⟨moves.ordered, moves.totalLength ▸ moves.bounded, moves.totalLength,
      fun pos inside => by rw [moves.reads, if_pos inside]⟩

theorem allocated_granted (actor : StateActor) (length : Nat) (small : length < 2 ^ 63)
    (settled : Settled length actor.writer) (worker : WorkerId) (io : FlushIo)
    (allocation : Allocation) (durable : List DurableBlock)
    (replied : (actor.allocate crc32c worker io).reply = .ok (.allocation (some allocation) durable)) :
    Granted (actor.allocate crc32c worker io).actor allocation.grant := by
  have ended := flush_end crc32c actor.writer actor.allocator.intervals io
  have kept := flush_settled crc32c length _ _ _ ended settled
  unfold StateActor.allocate StateActor.fenced at replied ⊢
  cases flushed : (Writer.flush crc32c actor.writer actor.allocator.intervals io).result with
  | error error =>
    simp only [flushed] at replied
    cases replied
  | ok blocks =>
    have succeeded : (Writer.flush crc32c actor.writer actor.allocator.intervals io).result.isOk =
        true := by
      rw [flushed]
      rfl
    have committed := flush_committed crc32c actor ⟨fun _ => 0, fun _ => ∅, [], []⟩ ended succeeded
    have sameLength := (flush_usable crc32c succeeded).2
    simp only [flushed] at replied ⊢
    cases found : (actor.after (Writer.flush crc32c actor.writer actor.allocator.intervals
        io)).allocator.allocate worker with
    | error error =>
      rw [found] at replied
      cases replied
    | ok result =>
      rw [found] at replied
      obtain ⟨granted, next⟩ := result
      cases replied
      obtain ⟨ordered, bounded, total, owned⟩ := allocated_owned found
      have same : next.intervals.totalLength = length :=
        ((total.trans committed.completes.totalLength).trans sameLength).trans settled.1
      refine ⟨ordered, committed.usable, same.trans kept.1.symm,
        coherent_empty _ committed.unstaged, ?_, by omega, ?_⟩
      · intro pos lower upper
        rw [free_unstaged _ committed.unstaged]
        exact owned pos ⟨lower, upper⟩
      · simp only [kept.2 committed.unstaged]
        omega

/-- Every grant that a running service hands out is one that can be fed. -/
theorem reached_granted (small : length < 2 ^ 63)
    (created : tryNew length journalLength journalBytes nextSequence = .ok writer)
    (started : Service.start writer allocator capacity = .ok service)
    (replied : ((service.run blake3 crc32c commands).actor.allocate crc32c worker io.flush).reply =
      .ok (.allocation (some allocation) durable)) :
    Granted ((service.run blake3 crc32c commands).actor.allocate crc32c worker io.flush).actor
      allocation.grant := by
  apply allocated_granted crc32c _ length small _ worker io.flush allocation durable replied
  apply run_settled
  unfold Service.start at started
  unfold tryNew at created
  split_ifs at started created
  cases created
  cases started
  exact ⟨rfl, fun _ => rfl⟩

/-- One byte of the grant of another worker is complete, and the rest of it is split. -/
theorem reached_granted_four :
    let quiet : StageIo := ⟨none, none, fun _ => none, none⟩
    let service : Service := ⟨⟨⟨4, 0, 0, [], 0, none, false, none, 0⟩, IntervalMap.new 4, 1,
      Nat.one_pos⟩, false, [], []⟩
    let run := service.run (fun _ => .replicate 32 0) (fun _ => 0)
      [(.allocate 0, quiet), (.write 0 0 [1] 0, quiet), (.flush, quiet)]
    Granted (run.actor.allocate (fun _ => 0) 1 quiet.flush).actor ⟨1, ⟨2, 4⟩⟩ := by
  intro quiet service run
  have replied : (run.actor.allocate (fun _ => 0) 1 quiet.flush).reply =
      .ok (.allocation (some ⟨⟨1, ⟨2, 4⟩⟩, some ⟨0, ⟨1, 2⟩⟩⟩) []) := by
    decide +kernel
  exact reached_granted _ _ (show 4 < 2 ^ 63 by decide) (show tryNew 4 4 0 0 = _ from rfl)
    (show Service.start _ ⟨IntervalMap.new 4, 1, Nat.one_pos⟩ 1 = .ok service from rfl) replied

/-- The bytes of the grant are the body, for good, and complete like the batch before. -/
structure Stored (grant : Grant) (body : List UInt8) (before after : Feeding) : Prop where
  visible : ∀ pos, after.disk.visible pos =
    (placed grant.range.start body pos).getD (before.disk.visible pos)
  durable : Durable after.disk
  complete : ∀ pos, Complete after.actor pos ↔
    Taken before.actor pos ∨ Inside grant.range pos

def Delivers (grant : Grant) (begins : Feeding) (now : Nat → Nat) (io : Nat → StageIo)
    (syncIo : FlushIo) (chunks : List (List UInt8)) : Prop :=
  ∃ fed after, feed blake3 crc32c serviceText now io 0 begins chunks = (.ok (), fed) ∧
    sync crc32c serviceText fed syncIo = (.ok (), after) ∧
    Stored grant chunks.flatten begins after

/-- No chunk is longer than a block, and the journal has a number for each of them. -/
def Fits (writer : DurableWriter) (chunks : List (List UInt8)) : Prop :=
  (∀ chunk ∈ chunks, chunk.length ≤ maxWriteBlockBytes) ∧
    writer.nextSequence + writer.staged.length + chunks.length < 2 ^ 64

theorem sync_flushed {io : FlushIo} (synced : sync crc32c serviceText feeding io = (.ok (), after))
    :
    let outcome := Writer.flush crc32c feeding.actor.writer feeding.actor.allocator.intervals io
    outcome.result.isOk = true ∧ after.actor = feeding.actor.after outcome ∧
      after.disk = feeding.disk.run outcome.events := by
  unfold sync StateActor.flush at synced
  simp only at synced
  cases result : (Writer.flush crc32c feeding.actor.writer feeding.actor.allocator.intervals io).result
    with
  | error error =>
    rw [result] at synced
    cases synced
  | ok durable =>
    rw [result] at synced
    cases synced
    exact ⟨by rw [result]; rfl, rfl, rfl⟩

theorem fed_stored (granted : Granted actor grant) {now : Nat → Nat} {io : Nat → StageIo}
    {syncIo : FlushIo} {chunks : List (List UInt8)}
    (whole : chunks.flatten.length = grant.range.stop - grant.range.start) {fed : Feeding}
    (accepted : feed blake3 crc32c serviceText now io 0 (Feeding.begin grant actor disk) chunks =
      (.ok (), fed)) (synced : sync crc32c serviceText fed syncIo = (.ok (), after)) :
    Fits actor.writer chunks ∧
      Stored grant chunks.flatten (Feeding.begin grant actor disk) after := by
  have ordered := granted.ordered
  obtain ⟨_, steps, short, stands⟩ := feed_advances blake3 crc32c serviceText
    (granted_open granted disk) accepted
  obtain ⟨succeeded, moved, events⟩ := sync_flushed crc32c serviceText synced
  have committed := flush_committed crc32c fed.actor fed.disk (flush_end crc32c _ _ syncIo) succeeded
  have some : chunks ≠ [] := by
    rintro rfl
    simp only [List.flatten_nil, List.length_nil] at whole
    omega
  have settled : Durable after.disk ∧
      fed.actor.writer.nextSequence + fed.actor.writer.staged.length < 2 ^ 64 := by
    rw [events]
    rcases committed.flushed with empty | flushed
    · obtain ⟨durable, numbered⟩ := (stands some).resolve_left (not_not.mpr empty)
      exact ⟨durable_run _ (flush_keeps crc32c (flush_end crc32c _ _ syncIo)) durable, numbered⟩
    · exact flushed
  have count := steps.numbered
  refine ⟨⟨short, count ▸ settled.2⟩, fun pos => ?_, settled.1, fun pos => ?_⟩
  · rw [events, committed.visible]
    exact steps.visible pos
  · rw [moved, committed_taken committed, steps.taken, whole]
    apply or_congr_right
    simp only [Inside]
    omega

theorem fits_delivers (granted : Granted actor grant) (disk : Disk UInt8) (now : Nat → Nat)
    {io : Nat → StageIo} {syncIo : FlushIo} {chunks : List (List UInt8)}
    (whole : chunks.flatten.length = grant.range.stop - grant.range.start)
    (nonempty : ∀ chunk ∈ chunks, chunk ≠ []) (calm : ∀ index, Calm (io index))
    (quiet : Quiet syncIo) (room : actor.writer.journalBytes +
      blockFrameLen * (actor.writer.staged.length + chunks.length) ≤ maxFileLength)
    (fits : Fits actor.writer chunks) :
    Delivers blake3 crc32c serviceText grant (Feeding.begin grant actor disk) now io syncIo chunks := by
  have ordered := granted.ordered
  have accepted := feed_succeeds blake3 crc32c serviceText (granted_open granted disk) now 0
    calm nonempty fits.1 (by omega) room fits.2
  rcases fed : feed blake3 crc32c serviceText now io 0 (Feeding.begin grant actor disk) chunks with
    ⟨result, between⟩
  rw [fed] at accepted
  cases accepted
  obtain ⟨opened, steps, _, _⟩ := feed_advances blake3 crc32c serviceText
    (granted_open granted disk) fed
  have numbered : between.actor.writer.nextSequence + between.actor.writer.staged.length < 2 ^ 64 := by
    rw [steps.numbered]
    exact fits.2
  have journal : between.actor.writer.journalBytes +
      blockFrameLen * between.actor.writer.staged.length ≤ maxFileLength := by
    rw [steps.journal, Nat.add_assoc, ← Nat.mul_add]
    exact room
  have flushed := flush_succeeds crc32c between.actor quiet opened.usable opened.sameLength
    opened.coherent journal numbered
  have synced : ∃ after, sync crc32c serviceText between syncIo = (.ok (), after) := by
    unfold sync StateActor.flush
    cases result : (Writer.flush crc32c between.actor.writer between.actor.allocator.intervals
        syncIo).result with
    | error error =>
      rw [result] at flushed
      cases flushed
    | ok durable => exact ⟨_, by simp only [result]; rfl⟩
  obtain ⟨after, done⟩ := synced
  exact ⟨between, after, fed, done, (fed_stored blake3 crc32c serviceText granted whole fed done).2⟩

/-- With I/O that succeeds, a cut of the body into chunks is accepted and stored exactly if
no chunk is longer than a block and the journal has numbers left. All cuts that are
accepted leave the same bytes and the same complete set. -/
theorem chunking_irrelevant_iff {actor : StateActor} {grant : Grant} (granted : Granted actor grant)
    (disk : Disk UInt8) (now otherNow : Nat → Nat) (io otherIo : Nat → StageIo)
    (syncIo otherSyncIo : FlushIo) (chunks others : List (List UInt8))
    (whole : chunks.flatten.length = grant.range.stop - grant.range.start)
    (same : others.flatten = chunks.flatten)
    (nonempty : ∀ chunk ∈ chunks, chunk ≠ []) (calm : ∀ index, Calm (io index)) (quiet : Quiet syncIo)
    (room : actor.writer.journalBytes +
      blockFrameLen * (actor.writer.staged.length + chunks.length) ≤ maxFileLength) :
    (Delivers blake3 crc32c serviceText grant (Feeding.begin grant actor disk) now io syncIo chunks ↔
      Fits actor.writer chunks) ∧
    ∀ fed after otherFed otherAfter,
      feed blake3 crc32c serviceText now io 0 (Feeding.begin grant actor disk) chunks =
        (.ok (), fed) →
      sync crc32c serviceText fed syncIo = (.ok (), after) →
      feed blake3 crc32c serviceText otherNow otherIo 0 (Feeding.begin grant actor disk) others =
        (.ok (), otherFed) →
      sync crc32c serviceText otherFed otherSyncIo = (.ok (), otherAfter) →
      after.disk.visible = otherAfter.disk.visible ∧
        after.disk.surviving = otherAfter.disk.surviving ∧
        ∀ pos, Complete after.actor pos ↔ Complete otherAfter.actor pos := by
  refine ⟨⟨?_, ?_⟩, ?_⟩
  · rintro ⟨fed, after, accepted, synced, _⟩
    exact (fed_stored blake3 crc32c serviceText granted whole
      accepted synced).1
  · exact fits_delivers blake3 crc32c serviceText granted disk now whole nonempty calm quiet room
  · intro fed after otherFed otherAfter accepted synced otherAccepted otherSynced
    have stored := (fed_stored blake3 crc32c serviceText granted whole accepted synced).2
    have otherStored := (fed_stored blake3 crc32c serviceText granted (by rw [same]; exact whole) otherAccepted otherSynced).2
    rw [same] at otherStored
    have visible : after.disk.visible = otherAfter.disk.visible := funext fun pos => by
      rw [stored.visible, otherStored.visible]
    refine ⟨visible, funext fun pos => ?_, fun pos => ?_⟩
    · rw [stored.durable, otherStored.durable, visible]
    · rw [stored.complete, otherStored.complete]

end Feed

/-! A grant of one byte more than a block. -/

def plainDigest (_ : List UInt8) : Digest := .replicate 32 0

def quietFlush : FlushIo := ⟨none, fun _ => none, none⟩

theorem quiet_flush : Quiet quietFlush := ⟨rfl, fun _ => rfl, rfl⟩

/-- A service over an empty file of this length, before its first command. -/
def fresh (length : Nat) : StateActor :=
  ⟨⟨length, headerLen, 0, [], 0, none, false, none, 0⟩, IntervalMap.new length, 1, Nat.one_pos⟩

def allotted (length : Nat) : StateActor := ((fresh length).allocate (fun _ => 0) 0 quietFlush).actor

def emptyDisk : Disk UInt8 := ⟨fun _ => 0, fun _ => {0}, [], []⟩

def longGrant : Grant := ⟨0, ⟨0, 262145⟩⟩

theorem long_granted : Granted (allotted 262145) longGrant :=
  allocated_granted (fun _ => 0) (fresh 262145) 262145 (by decide) ⟨rfl, fun _ => rfl⟩ 0 quietFlush
    ⟨longGrant, none⟩ [] (by decide +kernel)

-- Lengths of concrete chunks are given as facts: the lists themselves are never evaluated.
theorem long_refused (long : chunk.length = 262145) (now : Nat → Nat) (io : Nat → StageIo) :
    (feed plainDigest (fun _ => 0) (fun _ => "block too large") now io 0
      (Feeding.begin longGrant (allotted 262145) emptyDisk) [chunk]).1 =
        .error (.io 0 ⟨.other, none, "block too large"⟩) := by
  have refused : acceptCommand (fun _ => "block too large")
      (Feeding.begin longGrant (allotted 262145) emptyDisk).sink chunk (now 0) =
        .error (.io 0 ⟨.other, none, "block too large"⟩) := by
    simp [acceptCommand, Feeding.begin, RangeSink.new, longGrant, writerFor, GrantWriter.write,
      maxWriteBlockBytes, writerServiceError, Option.filter, long]
  rw [feed, acceptChunk, refused]

theorem halves_delivered (firstLong : first.length = 131072)
    (secondLong : second.length = 131073) (text : WriterServiceError → String) :
    Delivers plainDigest (fun _ => 0) text longGrant
      (Feeding.begin longGrant (allotted 262145) emptyDisk) (fun _ => 0)
      (fun _ => ⟨none, quietFlush⟩) quietFlush [first, second] := by
  apply fits_delivers plainDigest (fun _ => 0) _ long_granted emptyDisk
  · simp [longGrant, firstLong, secondLong]
  · intro chunk mem empty
    rcases List.mem_pair.mp mem with rfl | rfl <;> simp [empty] at firstLong secondLong
  · exact fun _ => ⟨rfl, quiet_flush⟩
  · exact quiet_flush
  · change (allotted 262145).writer.journalBytes +
      blockFrameLen * ((allotted 262145).writer.staged.length + 2) ≤ maxFileLength
    decide +kernel
  · have numbered : (allotted 262145).writer.nextSequence + (allotted 262145).writer.staged.length +
        2 < 2 ^ 64 := by decide +kernel
    refine ⟨?_, numbered⟩
    intro chunk mem
    rcases List.mem_pair.mp mem with rfl | rfl <;> simp [maxWriteBlockBytes, firstLong, secondLong]

/-- The body in one piece is refused, and in two halves it is accepted and stored. -/
theorem long_chunk_refused :
    Granted (allotted 262145) longGrant ∧
      (feed plainDigest (fun _ => 0) (fun _ => "block too large") (fun _ => 0)
        (fun _ => ⟨none, quietFlush⟩) 0 (Feeding.begin longGrant (allotted 262145) emptyDisk)
        [List.replicate 131072 7 ++ List.replicate 131073 7]).1 =
          .error (.io 0 ⟨.other, none, "block too large"⟩) ∧
      Delivers plainDigest (fun _ => 0) (fun _ => "block too large") longGrant
        (Feeding.begin longGrant (allotted 262145) emptyDisk) (fun _ => 0)
        (fun _ => ⟨none, quietFlush⟩) quietFlush
        [List.replicate 131072 7, List.replicate 131073 7] :=
  ⟨long_granted, long_refused (by rw [List.length_append, List.length_replicate,
    List.length_replicate]) _ _, halves_delivered List.length_replicate List.length_replicate _⟩

/-- Four bytes, cut once behind the first and once in the middle. -/
theorem chunking_irrelevant_four :
    Delivers plainDigest (fun _ => 0) (fun _ => "") ⟨0, ⟨0, 4⟩⟩
      (Feeding.begin ⟨0, ⟨0, 4⟩⟩ (allotted 4) emptyDisk) (fun _ => 0) (fun _ => ⟨none, quietFlush⟩)
      quietFlush [[1], [2, 3, 4]] := by
  have granted : Granted (allotted 4) ⟨0, ⟨0, 4⟩⟩ :=
    allocated_granted (fun _ => 0) (fresh 4) 4 (by decide) ⟨rfl, fun _ => rfl⟩ 0 quietFlush
      ⟨⟨0, ⟨0, 4⟩⟩, none⟩ [] (by decide +kernel)
  exact (chunking_irrelevant_iff plainDigest (fun _ => 0) (fun _ => "") granted emptyDisk (fun _ => 0)
    (fun _ => 0) (fun _ => ⟨none, quietFlush⟩) (fun _ => ⟨none, quietFlush⟩) quietFlush quietFlush
    [[1], [2, 3, 4]] [[1, 2], [3, 4]] rfl rfl (by simp) (fun _ => ⟨rfl, quiet_flush⟩) quiet_flush
    (by decide +kernel)).1.mpr ⟨by simp [maxWriteBlockBytes], by decide +kernel⟩

end Downpour.Chunking
