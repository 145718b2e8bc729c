import Downpour.Naming
import Downpour.Attempts
import Downpour.Splice

/-!
The invariant of a single-stream session of known length. Its sink is written from the
front to the back: a complete prefix, then the staged blocks, then what is still to
come. A commit moves the end of the prefix to the end of what is staged. The session is
followed over all attempts of one download, call by call.
-/

namespace Downpour.SessionTrace
open Segments CrashDisk Intervals PartFile Writer Remote Ranges Http H1H2 Probing Retry Completion
open Naming Sink SinkBytes SingleStream Attempts

def Lined : Nat → Nat → List StagedBlock → Prop
  | lo, hi, [] => lo = hi
  | lo, hi, block :: rest =>
    block.range.start = lo ∧ lo ≤ block.range.stop ∧ Lined block.range.stop hi rest

variable {blocks : List StagedBlock} {lo hi : Nat}

theorem lined_le (lined : Lined lo hi blocks) :
    lo ≤ hi := by
  induction blocks generalizing lo with
  | nil => exact Nat.le_of_eq lined
  | cons block rest ih => exact lined.2.1.trans (ih lined.2.2)

theorem lined_append (last : StagedBlock) (lined : Lined lo hi blocks)
    (begins : last.range.start = hi) (ordered : hi ≤ last.range.stop) :
    Lined lo last.range.stop (blocks ++ [last]) := by
  induction blocks generalizing lo with
  | nil =>
    have same : lo = hi := lined
    subst same
    exact ⟨begins, ordered, rfl⟩
  | cons block rest ih => exact ⟨lined.1, lined.2.1, ih lined.2.2⟩

theorem lined_covers (pos : Nat) (lined : Lined lo hi blocks) :
    (∃ block ∈ blocks, block.range.start ≤ pos ∧ pos < block.range.stop) ↔
      lo ≤ pos ∧ pos < hi := by
  induction blocks generalizing lo with
  | nil =>
    have same : lo = hi := lined
    simp only [List.not_mem_nil, false_and, exists_false, false_iff]
    omega
  | cons block rest ih =>
    obtain ⟨begins, ordered, later⟩ := lined
    have behind := lined_le later
    simp only [List.mem_cons, exists_eq_or_imp, ih later]
    omega

/-- A complete prefix of length `done`, and staged blocks behind it up to `cursor`. -/
structure Striped (writer : DurableWriter) (intervals : IntervalMap) (total done cursor : Nat) :
    Prop where
  total : intervals.totalLength = total
  complete : ∀ pos, intervals.stateAt pos = some .complete ↔ pos < done
  staged : Lined done cursor writer.staged

section Writing
variable (outside : Outside)

variable {total done cursor : Nat} {sink : StorageSink} {history : List SinkCall}
    {stop : Option Nat}

theorem flush_striped (striped : Striped writer intervals total done cursor)
    (ended : FlushEnd outside.crc32c writer intervals outcome) :
    ∃ now, Striped outcome.writer outcome.intervals total now cursor ∧
      (∀ blocks, outcome.result = .ok blocks → now = cursor) := by
  cases ended with
  | refused error => exact ⟨done, striped, nofun⟩
  | idle usable empty =>
    refine ⟨done, striped, fun _ _ => ?_⟩
    have lined := striped.staged
    rwa [empty] at lined
  | unowned error rejected => exact ⟨done, ⟨striped.total, striped.complete, striped.staged⟩, nofun⟩
  | dataSyncFailed error usable =>
    exact ⟨done, ⟨striped.total, striped.complete, striped.staged⟩, nofun⟩
  | appendFailed error journalBytes appends usable run =>
    exact ⟨done, ⟨striped.total, striped.complete, striped.staged⟩, nofun⟩
  | journalSyncFailed error journalBytes appends usable run =>
    exact ⟨done, ⟨striped.total, striped.complete, striped.staged⟩, nofun⟩
  | committed next io usable sameLength owned numbered complete =>
    have completes := complete_all_completes intervals next writer.staged owned
    have behind := lined_le striped.staged
    refine ⟨cursor, ⟨completes.totalLength.trans striped.total, fun pos => ?_, rfl⟩,
      fun _ _ => rfl⟩
    have covers := lined_covers pos striped.staged
    by_cases covered : ∃ block ∈ writer.staged,
        block.range.start ≤ pos ∧ pos < block.range.stop
    · obtain ⟨block, mem, inside⟩ := covered
      rw [completes.completed block mem pos inside.1 inside.2]
      have within := covers.mp ⟨block, mem, inside⟩
      simp [within.2]
    · rw [completes.others pos fun block mem inside => covered ⟨block, mem, inside⟩,
        striped.complete]
      rw [covers] at covered
      omega

theorem stage_striped (striped : Striped writer intervals total done cursor)
    (ended : StageEnd outside.hashes.blake3 outside.crc32c writer intervals singleStreamWorker cursor
      bytes now outcome) :
    ∃ later reached, Striped outcome.writer outcome.intervals total later reached ∧
      (∀ blocks, outcome.result = .ok blocks →
        reached = cursor + bytes.length ∧ cursor + bytes.length < 2 ^ 64) := by
  have pushed : Striped (pushStaged outside.hashes.blake3 writer singleStreamWorker cursor bytes now)
      intervals total done (cursor + bytes.length) :=
    ⟨striped.total, striped.complete, lined_append
      ⟨⟨cursor, cursor + bytes.length⟩, UInt32.ofNat bytes.length, singleStreamWorker,
        outside.hashes.blake3 bytes⟩ striped.staged rfl (Nat.le_add_right _ _)⟩
  cases ended with
  | rejected error => exact ⟨done, cursor, striped, nofun⟩
  | writeFailed ready error landed =>
    exact ⟨done, cursor, ⟨striped.total, striped.complete, striped.staged⟩, nofun⟩
  | noSpace ready refused landed flushed ended =>
    obtain ⟨later, after, _⟩ := flush_striped outside
      striped ended
    exact ⟨later, cursor, ⟨after.total, after.complete, after.staged⟩, nofun⟩
  | staged ready =>
    exact ⟨done, cursor + bytes.length, pushed, fun _ _ => ⟨rfl, ready.representable⟩⟩
  | flushed ready flushed ended =>
    obtain ⟨later, after, _⟩ := flush_striped outside pushed ended
    exact ⟨later, cursor + bytes.length, after, fun _ _ => ⟨rfl, ready.representable⟩⟩

def StripedSink (sink : StorageSink) (total done cursor : Nat) : Prop :=
  ∃ writer intervals disk, sink.backing = .journalled writer intervals disk ∧
    Striped writer intervals total done cursor

theorem write_striped (io : WriteIo) (bytes : List UInt8)
    (striped : StripedSink sink total done cursor) :
    ∃ later reached, StripedSink (writeAt outside io sink cursor bytes).2 total later reached ∧
      ((writeAt outside io sink cursor bytes).1 = .ok () →
        reached = cursor + bytes.length ∧ cursor + bytes.length < 2 ^ 64) := by
  obtain ⟨writer, intervals, disk, backing, shape⟩ := striped
  have ended := stage_end outside.hashes.blake3 outside.crc32c writer intervals singleStreamWorker
    cursor bytes io.now io.stage
  obtain ⟨later, reached, after, moved⟩ := stage_striped outside shape ended
  simp only [writeAt, backing]
  refine ⟨later, reached, ⟨_, _, _, rfl, after⟩, fun written => ?_⟩
  split at written
  next blocks succeeded => exact moved blocks succeeded
  next => cases written

theorem sync_striped (io : SyncIo) (striped : StripedSink sink total done cursor) :
    ∃ later, StripedSink (Sink.sync outside io sink).2 total later cursor ∧
      ((Sink.sync outside io sink).1 = .ok () → later = cursor) := by
  obtain ⟨writer, intervals, disk, backing, shape⟩ := striped
  have ended := flush_end outside.crc32c writer intervals io.flush
  obtain ⟨later, after, moved⟩ := flush_striped outside shape ended
  simp only [Sink.sync, backing]
  refine ⟨later, ⟨_, _, _, rfl, after⟩, fun synced => ?_⟩
  split at synced
  next blocks succeeded => exact moved blocks succeeded
  next => cases synced

/-- Writes that follow each other from the cursor on, with commits between them. The end
is known as long as no write has failed, and behind a failed write stands no other. -/
inductive Sequential : StorageSink → Nat → List SinkCall → Option Nat → Prop where
  | done (sink : StorageSink) (cursor : Nat) : Sequential sink cursor [] (some cursor)
  | wrote (sink : StorageSink) (cursor : Nat) (bytes : List UInt8) (io : WriteIo)
      (rest : List SinkCall) (stop : Option Nat)
      (succeeded : (writeAt outside io sink cursor bytes).1 = .ok ())
      (later : Sequential (writeAt outside io sink cursor bytes).2 (cursor + bytes.length) rest
        stop) :
      Sequential sink cursor (.write cursor bytes io :: rest) stop
  | failed (sink : StorageSink) (cursor : Nat) (bytes : List UInt8) (io : WriteIo)
      (rest : List SyncIo) : Sequential sink cursor (.write cursor bytes io :: rest.map .sync) none
  | synced (sink : StorageSink) (cursor : Nat) (io : SyncIo) (rest : List SinkCall)
      (stop : Option Nat) (later : Sequential (Sink.sync outside io sink).2 cursor rest stop) :
      Sequential sink cursor (.sync io :: rest) stop

theorem sequential_append {second : List SinkCall}
    {stop : Option Nat} (before : Sequential outside sink cursor first middle)
    (after : ∀ reached, middle = some reached →
      Sequential outside (calls outside sink first) reached second stop) (unfailed : middle ≠ none)
    : Sequential outside sink cursor (first ++ second) stop := by
  induction before with
  | done sink cursor => exact after cursor rfl
  | wrote sink cursor bytes io rest middle succeeded later ih =>
    exact .wrote sink cursor bytes io _ stop succeeded (ih after unfailed)
  | failed sink cursor bytes io rest => exact absurd rfl unfailed
  | synced sink cursor io rest middle later ih =>
    exact .synced sink cursor io _ stop (ih after unfailed)

theorem sequential_sync (io : SyncIo) (before : Sequential outside sink cursor history stop) :
    Sequential outside sink cursor (history ++ [.sync io]) stop := by
  induction before with
  | done sink cursor => exact .synced sink cursor io [] _ (.done _ _)
  | wrote sink cursor bytes writeIo rest stop succeeded later ih =>
    exact .wrote sink cursor bytes writeIo _ stop succeeded ih
  | failed sink cursor bytes writeIo rest =>
    have shape := @Sequential.failed outside sink cursor bytes writeIo (rest ++ [io])
    rwa [List.map_append] at shape
  | synced sink cursor syncIo rest stop later ih => exact .synced sink cursor syncIo _ stop ih

def sinkState (sink : StorageSink) (pos : Nat) : Option IntervalState :=
  match sink.backing with
  | .journalled _ intervals _ => intervals.stateAt pos
  | .lengthless _ => none

def PrefixDone (sink : StorageSink) (done : Nat) : Prop :=
  ∀ pos, sinkState sink pos = some .complete ↔ pos < done

theorem striped_prefix (striped : StripedSink sink total done cursor) : PrefixDone sink done := by
  obtain ⟨writer, intervals, disk, backing, shape⟩ := striped
  intro pos
  rw [sinkState, backing]
  exact shape.complete pos

def covers (pos : Nat) : SinkCall → Bool
  | .write offset bytes _ => decide (offset ≤ pos) && decide (pos < offset + bytes.length)
  | .sync _ => false

theorem syncs_cover (pos : Nat) (rest : List SyncIo) :
    (rest.map SinkCall.sync).countP (covers pos) = 0 := by
  simp [List.countP_map, List.countP_eq_zero, covers]

theorem sequential_once (sequential : Sequential outside sink cursor history stop) (pos : Nat) :
    history.countP (covers pos) ≤ if cursor ≤ pos then 1 else 0 := by
  induction sequential with
  | done sink cursor => simp
  | wrote sink cursor bytes io rest stop succeeded later ih =>
    simp only [List.countP_cons, covers, Bool.and_eq_true, decide_eq_true_eq]
    split at ih <;> split <;> split <;> omega
  | failed sink cursor bytes io rest =>
    simp only [List.countP_cons, syncs_cover, covers, Bool.and_eq_true, decide_eq_true_eq]
    split <;> split <;> omega
  | synced sink cursor io rest stop later ih => simpa [covers] using ih

theorem syncs_striped {history : List SyncIo} (striped : StripedSink sink total done cursor)
    {before : List SinkCall} (earlier : before <+: history.map .sync) :
    ∃ later, StripedSink (calls outside sink before) total later cursor := by
  induction history generalizing sink done before with
  | nil =>
    rw [List.prefix_nil.mp earlier]
    exact ⟨done, striped⟩
  | cons io rest ih =>
    cases before with
    | nil => exact ⟨done, striped⟩
    | cons first before =>
      obtain ⟨rfl, behind⟩ := List.cons_prefix_cons.mp earlier
      obtain ⟨later, after, _⟩ := sync_striped outside io striped
      exact ih after behind

theorem striped_throughout (striped : StripedSink sink total done cursor)
    (later : ∀ before, before <+: rest → ∃ settled reached,
      StripedSink (calls outside (call outside sink made) before) total settled reached) :
    ∀ before, before <+: made :: rest →
      ∃ settled reached, StripedSink (calls outside sink before) total settled reached := by
  rintro (_ | ⟨first, before⟩) earlier
  · exact ⟨done, cursor, striped⟩
  · obtain ⟨rfl, behind⟩ := List.cons_prefix_cons.mp earlier
    exact later before behind

theorem sequential_striped (sequential : Sequential outside sink cursor history stop)
    (striped : StripedSink sink total done cursor) :
    (∀ before, before <+: history →
      ∃ later reached, StripedSink (calls outside sink before) total later reached) ∧
    ∀ reached, stop = some reached →
      ∃ later, StripedSink (calls outside sink history) total later reached := by
  induction sequential generalizing done with
  | done sink cursor =>
    refine ⟨fun before earlier => ?_, ?_⟩
    · rw [List.prefix_nil.mp earlier]
      exact ⟨done, cursor, striped⟩
    · rintro _ ⟨⟩
      exact ⟨done, striped⟩
  | wrote sink cursor bytes io rest stop succeeded later ih =>
    obtain ⟨next, reached, after, moved⟩ := write_striped outside io bytes striped
    obtain ⟨rfl, _⟩ := moved succeeded
    obtain ⟨throughout, ends⟩ := ih after
    exact ⟨striped_throughout outside striped throughout, ends⟩
  | failed sink cursor bytes io rest =>
    obtain ⟨next, reached, after, _⟩ := write_striped outside io bytes striped
    refine ⟨striped_throughout outside striped fun before behind => ?_, nofun⟩
    obtain ⟨later, shape⟩ := syncs_striped outside after behind
    exact ⟨later, reached, shape⟩
  | synced sink cursor io rest stop later ih =>
    obtain ⟨next, after, _⟩ := sync_striped outside io striped
    obtain ⟨throughout, ends⟩ := ih after
    exact ⟨striped_throughout outside striped throughout, ends⟩

theorem body_sequential (url : Url) (declaredType : Option (List Char))
    (promised : Option Nat) (ending : BodyEnd) (io : Nat → WriteIo) (chunks : List (List UInt8))
    (index delivered : Nat) (sink : RangeSink StorageSink)
    (striped : StripedSink sink.target total done (sink.baseOffset + sink.written)) :
    ∃ stop, Sequential outside sink.target (sink.baseOffset + sink.written)
        (bodyCalls outside declaredType io index delivered sink chunks) stop ∧
      ((∃ error, (readBody (writeAt outside) url declaredType promised ending io index delivered sink
          chunks).1 = .error error ∧ Splice.Spoils error) ∨ stop = some
          ((readBody (writeAt outside) url declaredType promised ending io index delivered sink
              chunks).2.baseOffset +
            (readBody (writeAt outside) url declaredType promised ending io index delivered sink
              chunks).2.written)) := by
  -- The loop over a body writes from the end of the window on. Unless a write is refused, the
  -- window ends where the writes have arrived.
  induction chunks generalizing index delivered sink done with
  | nil =>
    refine ⟨_, .done _ _, Or.inr ?_⟩
    unfold readBody
    split
    · rfl
    · rfl
    · split <;> rfl
  | cons chunk rest ih =>
    unfold readBody bodyCalls
    by_cases empty : chunk = []
    · simp only [if_pos empty]
      exact ih index delivered sink striped
    simp only [if_neg empty]
    by_cases page : delivered = 0 ∧ bodyLooksLikeAWebPage declaredType chunk = true
    · simp only [if_pos page]
      exact ⟨_, .done _ _, Or.inr rfl⟩
    simp only [if_neg page]
    have ended := accept_end outside (io index) sink chunk
    generalize sink.accept (writeAt outside (io index)) chunk = result at ended ⊢
    generalize acceptCalls (io index) sink chunk = made at ended ⊢
    cases ended with
    | refused error =>
      refine ⟨_, .done _ _, Or.inl ?_⟩
      cases error <;> exact ⟨_, rfl, trivial⟩
    | failed error target written =>
      refine ⟨_, .failed _ _ chunk (io index) [], Or.inl ?_⟩
      cases error <;> exact ⟨_, rfl, trivial⟩
    | accepted target written =>
      obtain ⟨later, reached, after, moved⟩ := write_striped outside (io index) chunk striped
      rw [written] at after moved
      obtain ⟨rfl, small⟩ := moved rfl
      have grown : sink.baseOffset + sink.written + chunk.length =
          sink.baseOffset + min (sink.written + chunk.length) (2 ^ 64 - 1) := by omega
      rw [grown] at after
      obtain ⟨stop, sequential, ends⟩ := ih (index + 1) (min (delivered + chunk.length)
        (2 ^ 64 - 1))
        { sink with target, written := min (sink.written + chunk.length) (2 ^ 64 - 1) } after
      refine ⟨stop, .wrote _ _ chunk (io index) _ stop (by rw [written]) ?_, ends⟩
      rw [written, grown]
      exact sequential

theorem fetch_sequential (server : Server Url) (request : RangeRequest Url)
    (io : Nat → WriteIo) (sent : List (Exchange Url)) {sink : RangeSink StorageSink}
    (striped : StripedSink sink.target total done (sink.baseOffset + sink.written)) :
    ∃ stop, Sequential outside sink.target (sink.baseOffset + sink.written)
        (fetchCalls outside server request sink io sent) stop ∧
      ((∃ error, (fetchRange (writeAt outside) server request sink io sent).1 = .error error ∧
          Splice.Spoils error) ∨
        stop = some ((fetchRange (writeAt outside) server request sink io sent).2.1.baseOffset +
          (fetchRange (writeAt outside) server request sink io sent).2.1.written)) := by
  unfold fetchRange fetchCalls
  cases server sent.length request with
  | error error => cases error <;> exact ⟨_, .done _ _, Or.inr rfl⟩
  | ok response =>
    simp only
    cases checkResponse request response with
    | error error => exact ⟨_, .done _ _, Or.inr rfl⟩
    | ok range =>
      simp only
      obtain ⟨stop, sequential, ends⟩ := body_sequential outside request.url response.contentType
        (promisedLength response range) response.ending io response.chunks 0 0 sink
        striped
      refine ⟨stop, sequential, ?_⟩
      generalize readBody (writeAt outside) request.url response.contentType
        (promisedLength response range) response.ending io 0 0 sink response.chunks = body
        at ends ⊢
      rcases body with ⟨error | delivered, after⟩
      · rcases ends with ⟨_, same, spoils⟩ | reached
        · exact Or.inl ⟨error, rfl, Except.error.inj same ▸ spoils⟩
        · exact Or.inr reached
      · rcases ends with ⟨_, impossible, _⟩ | reached
        · cases impossible
        · exact Or.inr reached

theorem prefix_end_done (striped : StripedSink sink total done cursor) :
    sink.durablePrefixEnd = done := by
  obtain ⟨writer, intervals, disk, backing, shape⟩ := striped
  have inside : ∀ pos, pos < sink.durablePrefixEnd → pos < done := by
    intro pos durable
    have held := prefix_label 0 intervals.partitions (Nat.zero_le _) (by
        simpa [StorageSink.durablePrefixEnd, backing, prefixEnd] using durable)
    exact (shape.complete pos).mp held
  have reach : ¬ sink.durablePrefixEnd < done := by
    intro short
    have done := (shape.complete _).mpr short
    simp only [StorageSink.durablePrefixEnd, backing] at done
    cases found : intervals.intervals.find? fun interval =>
        decide (interval.label ≠ .complete) with
    | none =>
      simp only [found, Option.elim_none] at done
      exact absurd ((intervals.state_inside _).mp ⟨_, done⟩) (Nat.lt_irrefl _)
    | some interval =>
      simp only [found, Option.elim_some] at done
      have mem := List.mem_of_find?_eq_some found
      have other := List.find?_some found
      have bounds := chain_member_bounds intervals.partitions mem
      have here := label_member _ intervals.partitions mem
        ⟨Nat.le_refl _, bounds.2.1⟩
      rw [IntervalMap.stateAt, here] at done
      exact absurd (Option.some.inj done) (of_decide_eq_true other)
  by_contra differs
  rcases Nat.lt_or_gt_of_ne differs with short | long
  · exact reach short
  · exact absurd (inside done long) (Nat.lt_irrefl _)

theorem create_striped
    (created : create outside intervalText target journalPath (some total) transferId validatorHash
      digest io = .ok sink) : StripedSink sink total 0 0 ∧ total < 2 ^ 63 := by
  have fresh := (create_fresh created).2.1
  unfold create at created
  simp only at created
  split at created
  · cases created
  next made =>
    have small : total < 2 ^ 63 := by
      unfold createPart at made
      split at made
      · cases made
      next short => exact Nat.lt_of_not_le short
    split at created
    · cases created
    · split at created
      · cases created
      next writer started =>
        split at created
        · cases created
        next intervals granted =>
          cases created
          simp only [tryNew, ne_eq, not_true_eq_false, ↓reduceIte, Except.ok.injEq] at started
          subst started
          have length : intervals.totalLength = total := by
            unfold wholeGrant at granted
            split at granted
            · exact ((IntervalMap.new total).grant_moves _ _ granted).totalLength
            · cases granted
              rfl
          refine ⟨⟨_, _, _, rfl, length, fun pos => ?_, rfl⟩, small⟩
          constructor
          · intro done
            exact absurd (Or.inl done) (fresh pos)
          · intro negative
            exact absurd negative (Nat.not_lt_zero _)

end Writing

/-! Naming, as steps on the files. -/

def renamed : NamingStep → Bool
  | .rename _ _ none => true
  | _ => false

def completeSteps (outside : Outside) (finalPath : String) (io : CompletionIo) (sink : StorageSink) :
    List NamingStep :=
  match sink.backing with
  | .journalled writer intervals _ =>
    if writer.staged ≠ [] then []
    else verifyAndRenameSteps outside.hashes outside.crc32c sink.content sink.artifacts.partPath
      finalPath intervals.totalLength intervals sink.digest writer.journalBytes writer.nextSequence
      io
  | .lengthless _ => [.rename sink.artifacts.partPath finalPath io.renamed]

theorem seal_steps_count (crc32c : List UInt8 → UInt32) (partPath finalPath : String)
    (finalBlake3 : JournalFormat.Digest) (digestChecked : DigestOutcome)
    (journalBytes nextSequence : Nat) (io : CompletionIo) :
    (sealAndRenameSteps crc32c partPath finalPath finalBlake3 journalBytes nextSequence io).countP
        renamed =
      (sealAndRename crc32c finalPath finalBlake3 digestChecked journalBytes nextSequence
        io).1.isOk.toNat := by
  simp only [sealAndRenameSteps, sealAndRename, appendSeal]
  have journal : ∀ events : List (Event UInt8),
      (events.map NamingStep.journal).countP renamed = 0 := by
    intro events
    simp [List.countP_map, List.countP_eq_zero, renamed]
  rcases appendAll crc32c (fun _ => io.appended) 0 journalBytes
    [⟨UInt64.ofNat nextSequence, .sealed finalBlake3⟩] with ⟨events, length, _ | error⟩
  · cases io.synced with
    | some error => simp [List.countP_append, journal, renamed, Except.isOk, Except.toBool]
    | none =>
      cases io.renamed <;>
        simp [List.countP_append, journal, renamed, Except.isOk, Except.toBool]
  · simp [journal, Except.isOk, Except.toBool]

theorem verify_steps_count (hashes : Hashes) (crc32c : List UInt8 → UInt32) (content : List UInt8)
    (partPath finalPath : String) (totalLength : Nat) (intervals : IntervalMap)
    (digest : Option ContentDigest) (journalBytes nextSequence : Nat) (io : CompletionIo) :
    (verifyAndRenameSteps hashes crc32c content partPath finalPath totalLength intervals digest
        journalBytes nextSequence io).countP renamed =
      (verifyAndRename hashes crc32c content finalPath totalLength intervals digest journalBytes
        nextSequence io).1.isOk.toNat := by
  simp only [verifyAndRenameSteps, verifyAndRename]
  cases io.measured with
  | some error => rfl
  | none =>
    by_cases long : content.length ≠ totalLength
    · simp only [if_pos long]
      rfl
    · simp only [if_neg long]
      cases checkCoverage intervals totalLength with
      | error error => rfl
      | ok _ =>
        cases io.opened with
        | some error => rfl
        | none =>
          cases io.read with
          | some error => rfl
          | none =>
            cases checkDigest hashes content digest with
            | error error => rfl
            | ok digestChecked => exact seal_steps_count _ _ _ _ _ _ _ _

theorem complete_steps_count (outside : Outside) (finalPath : String) (io : CompletionIo)
    (sink : StorageSink) :
    (completeSteps outside finalPath io sink).countP renamed =
      (complete outside finalPath io sink).1.isOk.toNat := by
  rcases sink with ⟨⟨writer, intervals, disk⟩ | part, artifacts, digest⟩
  · simp only [completeSteps, complete]
    by_cases staged : writer.staged ≠ []
    · simp only [if_pos staged]
      rfl
    · simp only [if_neg staged, verify_steps_count]
      rcases verifyAndRename outside.hashes outside.crc32c _ finalPath intervals.totalLength intervals
        digest writer.journalBytes writer.nextSequence io with ⟨error | sealing, events⟩
      · rfl
      · rfl
  · simp only [completeSteps, complete]
    cases io.renamed <;> rfl

theorem named_complete (striped : StripedSink sink total done cursor) (small : total < 2 ^ 63)
    (named : complete outside finalPath io sink = (.ok sealing, after))
    (inside : pos < total) : sinkState sink pos = some .complete := by
  obtain ⟨writer, intervals, disk, backing, shape⟩ := striped
  simp only [complete, backing] at named
  split at named
  · cases named
  · split at named
    · cases named
    next result =>
      have covered := (named_checked _ _ result).1
      have bounded : intervals.totalLength < 2 ^ 64 := by
        rw [shape.total]
        omega
      rw [sinkState, backing]
      exact ((check_coverage_ok _ bounded).mp covered).2 pos (by rwa [shape.total])

section Engine
variable {Url : Type} (env : Environment Url)

def written (prepared : Prepared Url) (io : AttemptIo) : StorageSink :=
  calls env.outside prepared.held.sink.target (runCalls env prepared io)

/-- The commit and the fetch succeeded, and the file is as long as it has to be. -/
def fullLength (total : Option Nat) (synced : Except SinkError Unit)
    (fetched : Except (TransferError Url) RangeOutcome) (nextOffset : Nat) : Bool :=
  match synced, fetched with
  | .ok (), .ok outcome =>
    !(total.any (fun expected => decide (nextOffset ≠ expected)) || outcome.truncated)
  | _, _ => false

def arrives (prepared : Prepared Url) (io : AttemptIo) : Bool :=
  let (fetched, sink, _) := fetchRange (writeAt env.outside) env.server
    prepared.request prepared.held.sink io.writes prepared.log
  fullLength prepared.held.totalLength (Sink.sync env.outside io.sync sink.target).1 fetched
    sink.nextOffset

def runNaming (prepared : Prepared Url) (io : AttemptIo) : List NamingStep :=
  if arrives env prepared io then
    completeSteps env.outside prepared.held.finalPath io.completion
      (written env prepared io)
  else []

inductive RunEnd (prepared : Prepared Url) (io : AttemptIo) : Attempted Url → Prop where
  | unsynced (path : String) (source : SinkError) (left : Session Url) (log : List (Exchange Url))
      (short : arrives env prepared io = false) :
      RunEnd prepared io (.error (.sink path source), some left, log)
  | failed (error : DownloadError Url) (sink : RangeSink StorageSink) (status : Option Nat)
      (log : List (Exchange Url)) (short : arrives env prepared io = false)
      (target : sink.target = written env prepared io)
      (committed : (Sink.sync env.outside io.sync (calls env.outside
        prepared.held.sink.target (fetchCalls env.outside env.server
          prepared.request prepared.held.sink io.writes prepared.log))).1 = .ok ())
      (unspoiled : transientKindOf error ≠ none →
        ¬ ∃ spoiling, (fetchRange (writeAt env.outside) env.server prepared.request
          prepared.held.sink io.writes prepared.log).1 = .error spoiling ∧ Splice.Spoils spoiling) :
      RunEnd prepared io
        (.error error, some { prepared.held with sink, lastObservedStatus := status }, log)
  | unverified (source : SinkError) (path : String) (left : Session Url) (log : List (Exchange Url))
      (full : arrives env prepared io = true) (target : StorageSink)
      (refused : complete env.outside prepared.held.finalPath io.completion
        (written env prepared io) = (.error source, target)) :
      RunEnd prepared io (.error (.unverified path source), some left, log)
  | delivered (sealing : Option Sealed) (target : StorageSink) (log : List (Exchange Url))
      (full : arrives env prepared io = true)
      (named : complete env.outside prepared.held.finalPath io.completion
        (written env prepared io) = (.ok sealing, target)) :
      RunEnd prepared io (.ok ⟨prepared.held.finalPath, target.content⟩, none, log)

theorem run_end (prepared : Prepared Url) (io : AttemptIo) :
    RunEnd env prepared io
      (run env prepared.held prepared.request io prepared.log) := by
  have fetchTarget := fetch_target env.outside env.server prepared.request
    prepared.held.sink io.writes prepared.log
  have committed : written env prepared io = (Sink.sync env.outside io.sync
      (calls env.outside prepared.held.sink.target (fetchCalls env.outside
        env.server prepared.request prepared.held.sink io.writes prepared.log))).2 :=
    calls_append env.outside _ _ _
  have failed := @RunEnd.failed Url env prepared io
  unfold run
  rcases fetched : fetchRange (writeAt env.outside) env.server prepared.request
    prepared.held.sink io.writes prepared.log with ⟨result, sink, log⟩
  have arrived : arrives env prepared io = fullLength prepared.held.totalLength
      (Sink.sync env.outside io.sync sink.target).1 result sink.nextOffset := by
    rw [arrives, fetched]
  rw [fetched] at fetchTarget failed
  simp only at fetchTarget ⊢
  rw [← fetchTarget] at committed failed
  rcases synced : Sink.sync env.outside io.sync sink.target with ⟨error | _, target⟩
  · rw [synced] at arrived
    exact .unsynced _ error _ log arrived
  · rw [synced] at arrived committed failed
    simp only at arrived committed ⊢
    cases result with
    | error error =>
      refine failed (.transfer error) _ _ log arrived committed.symm rfl ?_
      rintro transient ⟨spoiling, same, spoils⟩
      obtain rfl := Except.error.inj same
      cases error <;> first | exact absurd rfl transient | exact spoils.elim
    | ok outcome =>
      simp only [fullLength] at arrived ⊢
      split
      next short =>
        have missed : arrives env prepared io = false := by
          rw [arrived]
          exact congrArg (! ·) short
        refine failed _ _ _ log missed committed.symm rfl ?_
        rintro _ ⟨spoiling, same, _⟩
        cases same
      next full =>
        have complete : arrives env prepared io = true := by
          rw [arrived]
          exact congrArg (! ·) (Bool.eq_false_of_not_eq_true full)
        split
        next source after refused =>
          exact .unverified source _ _ log complete after (by rw [committed]; exact refused)
        next sealing after named =>
          exact .delivered sealing after log complete (by rw [committed]; exact named)

theorem run_naming_count (prepared : Prepared Url) (io : AttemptIo) :
    (runNaming env prepared io).countP renamed =
      (run env prepared.held prepared.request io prepared.log).1.isOk.toNat := by
  have ended := run_end env prepared io
  have steps := complete_steps_count env.outside prepared.held.finalPath io.completion
    (written env prepared io)
  generalize run env prepared.held prepared.request io prepared.log = result at ended ⊢
  unfold runNaming
  cases ended with
  | unsynced path source left log short => simp [short, Except.isOk, Except.toBool]
  | failed error sink status log short target committed unspoiled =>
    simp [short, Except.isOk, Except.toBool]
  | unverified source path left log full target refused =>
    rw [if_pos full, steps, refused]
    rfl
  | delivered sealing target log full named =>
    rw [if_pos full, steps, named]
    rfl

end Engine

end Downpour.SessionTrace
