import Downpour.StorageSink

/-!
What the sink of a single stream does to the bytes of its part file. A byte is
held once it is staged or complete; only held bytes can count as durable.
-/

namespace Downpour.SinkBytes
open Segments CrashDisk Intervals PartFile Writer Http Sink

def Holds (sink : StorageSink) (pos : Nat) : Prop :=
  match sink.backing with
  | .journalled writer intervals _ =>
    intervals.stateAt pos = some .complete ∨
      ∃ block ∈ writer.staged, block.range.start ≤ pos ∧ pos < block.range.stop
  | .lengthless _ => False

def declared (sink : StorageSink) : Option Nat :=
  match sink.backing with
  | .journalled writer _ _ => some writer.dataLength
  | .lengthless _ => none

theorem declared_length (known : declared sink = some length) :
    sink.content.length = length := by
  rcases sink with ⟨backing, artifacts, digest⟩
  cases backing with
  | journalled writer intervals disk =>
    simpa [declared, StorageSink.content] using known
  | lengthless part => cases known

theorem durable_prefix_held
    (durable : pos < sink.durablePrefixEnd) : Holds sink pos := by
  rcases sink with ⟨backing, artifacts, digest⟩
  cases backing with
  | journalled writer intervals disk =>
    exact Or.inl (prefix_label 0 intervals.partitions (Nat.zero_le _) durable)
  | lengthless part => exact absurd durable (Nat.not_lt_zero _)

theorem create_fresh
    (created : create outside intervalText target journalPath totalLength transferId validatorHash
      digest io = .ok sink) :
    declared sink = totalLength ∧ (∀ pos, ¬ Holds sink pos) ∧
      (declared sink = none → sink.content.length = 0) := by
  unfold create at created
  split at created
  next length =>
    split at created
    · cases created
    · split at created
      · cases created
      · split at created
        · cases created
        next writer started =>
          split at created
          · cases created
          next intervals granted =>
            cases created
            simp only [tryNew, ne_eq, not_true_eq_false, ↓reduceIte, Except.ok.injEq] at started
            subst started
            refine ⟨rfl, ?_, fun unknown => absurd unknown (Option.some_ne_none _)⟩
            rintro pos (done | ⟨block, mem, _⟩)
            · unfold wholeGrant at granted
              split at granted
              next =>
                rw [((IntervalMap.new length).grant_moves _ _ granted).reads] at done
                split at done
                · cases done
                · rw [IntervalMap.new_state] at done
                  split at done <;> cases done
              next =>
                cases granted
                rw [IntervalMap.new_state] at done
                split at done <;> cases done
            · cases mem
  next =>
    split at created
    · cases created
    · cases created
      exact ⟨rfl, fun _ held => held, fun _ => rfl⟩

section Commit
variable (crc32c : List UInt8 → UInt32)

theorem flush_holds (ended : FlushEnd crc32c writer intervals outcome)
    (held : outcome.intervals.stateAt pos = some .complete ∨ ∃ block ∈ outcome.writer.staged,
        block.range.start ≤ pos ∧ pos < block.range.stop) :
    intervals.stateAt pos = some .complete ∨
      ∃ block ∈ writer.staged, block.range.start ≤ pos ∧ pos < block.range.stop := by
  cases ended with
  | committed next io usable sameLength owned numbered complete =>
    have completes := complete_all_completes intervals next writer.staged owned
    by_cases covered : ∃ block ∈ writer.staged,
        block.range.start ≤ pos ∧ pos < block.range.stop
    · exact Or.inr covered
    · have same := completes.others pos fun block mem inside =>
        covered ⟨block, mem, inside⟩
      rcases held with done | ⟨block, mem, _⟩
      · exact Or.inl (same ▸ done)
      · cases mem
  | _ => exact held

theorem flush_length (ended : FlushEnd crc32c writer intervals outcome) :
    outcome.writer.dataLength = writer.dataLength := by
  cases ended <;> rfl

end Commit

structure WriteDone (before after : StorageSink) (offset : Nat) (bytes : List UInt8) : Prop where
  representable : offset + bytes.length < 2 ^ 64
  declared : declared after = declared before
  inside : offset + bytes.length ≤ after.content.length
  grown : SinkBytes.declared before = none → after.content.length = offset + bytes.length
  reads : ∀ pos, after.content[pos]? =
    if offset ≤ pos ∧ pos < offset + bytes.length then bytes[pos - offset]?
    else before.content[pos]?
  holds : ∀ pos, Holds after pos →
    Holds before pos ∨ (offset ≤ pos ∧ pos < offset + bytes.length)

theorem placed_reads (offset : Nat) (bytes : List UInt8) (pos : Nat) (byte : UInt8) :
    some ((placed offset bytes pos).getD byte) =
      if offset ≤ pos ∧ pos < offset + bytes.length then bytes[pos - offset]?
      else some byte := by
  by_cases inside : offset ≤ pos ∧ pos < offset + bytes.length
  · have below : pos - offset < bytes.length := by omega
    simp [placed, inside, below]
  · have outside := placed_outside offset bytes pos (by omega)
    simp [outside, inside]

variable {outside : Outside} {offset : Nat} {bytes : List UInt8} {sink : StorageSink}

theorem growable_done (reach : offset ≤ part.length)
    (written : writeGrowable outside path part offset bytes io = (.ok (), after)) :
    offset + bytes.length < 2 ^ 64 ∧ after.length = offset + bytes.length ∧ ∀ pos, after[pos]? =
        if offset ≤ pos ∧ pos < offset + bytes.length then bytes[pos - offset]? else part[pos]? := by
  unfold writeGrowable at written
  simp only at written
  split at written
  · cases written
  next representable =>
    split at written
    · cases written
    next longer =>
      split at written
      · cases written
      next =>
        split at written
        · cases written
        next =>
          cases written
          refine ⟨Nat.lt_of_not_le representable, ?_, ?_⟩
          · simp only [overwrite, List.length_mapIdx, List.length_append, List.length_replicate]
            omega
          · intro pos
            simp only [overwrite, List.getElem?_mapIdx, ↓reduceIte]
            by_cases old : pos < part.length
            · rw [List.getElem?_append_left old, List.getElem?_eq_getElem old, Option.map_some,
                placed_reads]
            · rw [List.getElem?_append_right (by omega), List.getElem?_replicate]
              by_cases inside : pos < offset + bytes.length
              · rw [if_pos (by omega), Option.map_some, placed_reads]
                simp [inside, show offset ≤ pos by omega]
              · rw [if_neg (by omega), Option.map_none, if_neg (by omega),
                  List.getElem?_eq_none (by omega)]

theorem disk_content (length : Nat) (visible : Nat → UInt8) (pos : Nat) :
    ((List.range length).map visible)[pos]? =
      if pos < length then some (visible pos) else none := by
  by_cases inside : pos < length
  · simp [inside]
  · simp [inside]

theorem stage_done {outside : Outside} {io : WriteIo} (disk : Disk UInt8)
    (ended : StageEnd outside.hashes.blake3 outside.crc32c writer intervals singleStreamWorker offset
      bytes io.now outcome) (succeeded : outcome.result = .ok blocks) :
    StageReady writer intervals singleStreamWorker offset bytes ∧
      outcome.writer.dataLength = writer.dataLength ∧
      (∀ pos, (disk.run outcome.events).visible pos =
        (placed offset bytes pos).getD (disk.visible pos)) ∧
      ∀ pos, (outcome.intervals.stateAt pos = some .complete ∨ ∃ block ∈ outcome.writer.staged,
            block.range.start ≤ pos ∧ pos < block.range.stop) →
        (intervals.stateAt pos = some .complete ∨
          ∃ block ∈ writer.staged, block.range.start ≤ pos ∧ pos < block.range.stop) ∨
        (offset ≤ pos ∧ pos < offset + bytes.length) := by
  have pushed : ∀ pos, (∃ block ∈ (pushStaged outside.hashes.blake3 writer singleStreamWorker
      offset bytes io.now).staged, block.range.start ≤ pos ∧ pos < block.range.stop) →
      (∃ block ∈ writer.staged, block.range.start ≤ pos ∧ pos < block.range.stop) ∨
        (offset ≤ pos ∧ pos < offset + bytes.length) := by
    rintro pos ⟨block, mem, inside⟩
    rcases List.mem_append.mp mem with old | new
    · exact Or.inl ⟨block, old, inside⟩
    · rw [List.mem_singleton.mp new] at inside
      exact Or.inr inside
  cases ended with
  | rejected error => cases succeeded
  | writeFailed ready error landed => cases succeeded
  | noSpace ready refused landed flushed ended => cases succeeded
  | staged ready =>
    refine ⟨ready, rfl, fun _ => rfl, ?_⟩
    rintro pos (done | staged)
    · exact Or.inl (Or.inl done)
    · exact (pushed pos staged).imp Or.inr id
  | flushed ready flushed ended =>
    have length := flush_length outside.crc32c ended
    refine ⟨ready, length, ?_, ?_⟩
    · intro pos
      exact untouched_run (disk.apply (.write offset bytes)) fun event mem =>
          keeps_untouched (flush_keeps outside.crc32c ended event mem) pos
    · intro pos held
      rcases flush_holds outside.crc32c ended held with done | staged
      · exact Or.inl (Or.inl done)
      · exact (pushed pos staged).imp Or.inr id

theorem write_done (reach : offset ≤ sink.content.length)
    (written : writeAt outside io sink offset bytes = (.ok (), after)) :
    WriteDone sink after offset bytes := by
  rcases sink with ⟨backing, artifacts, digest⟩
  cases backing with
  | lengthless part =>
    simp only [writeAt] at written
    obtain ⟨done, rfl⟩ := Prod.mk.inj written
    obtain ⟨representable, length, reads⟩ := growable_done reach (Prod.ext done rfl)
    exact ⟨representable, rfl, length.ge, fun _ => length, reads, fun _ held => held.elim⟩
  | journalled writer intervals disk =>
    simp only [writeAt] at written
    obtain ⟨done, rfl⟩ := Prod.mk.inj written
    have ended := stage_end outside.hashes.blake3 outside.crc32c writer intervals
      singleStreamWorker offset bytes io.now io.stage
    obtain ⟨outcome, shape⟩ : ∃ outcome, outcome = stage outside.hashes.blake3 outside.crc32c
      writer intervals singleStreamWorker offset bytes io.now io.stage := ⟨_, rfl⟩
    rw [← shape] at ended done ⊢
    split at done
    next blocks succeeded =>
      obtain ⟨ready, length, visible, holds⟩ := stage_done disk ended succeeded
      obtain ⟨_, owned⟩ := ready.owned
      have bounded : offset + bytes.length ≤ writer.dataLength :=
        ready.sameLength ▸ (intervals.complete_moves _ _ _ owned).bounded
      refine ⟨ready.representable, congrArg some length, ?_,
        fun none => absurd none (Option.some_ne_none _), ?_, holds⟩
      · simpa [StorageSink.content, length] using bounded
      · intro pos
        simp only [StorageSink.content, disk_content, length, visible]
        by_cases inside : pos < writer.dataLength
        · rw [if_pos inside, if_pos inside, placed_reads]
        · rw [if_neg inside, if_neg inside, if_neg (by omega)]
    next => cases done

theorem sync_done (outside : Outside) (io : SyncIo) (sink : StorageSink) :
    (Sink.sync outside io sink).2.content = sink.content ∧
      declared (Sink.sync outside io sink).2 = declared sink ∧
      ∀ pos, Holds (Sink.sync outside io sink).2 pos → Holds sink pos := by
  rcases sink with ⟨backing, artifacts, digest⟩
  cases backing with
  | lengthless part =>
    simp only [Sink.sync]
    split
    · exact ⟨rfl, rfl, fun _ held => held⟩
    · exact ⟨rfl, rfl, fun _ held => held⟩
  | journalled writer intervals disk =>
    have ended := flush_end outside.crc32c writer intervals io.flush
    have length := flush_length outside.crc32c ended
    refine ⟨?_, congrArg some length, fun pos held =>
      flush_holds outside.crc32c ended held⟩
    simp only [Sink.sync, StorageSink.content, length]
    apply List.map_congr_left
    intro pos _
    exact untouched_run disk fun event mem =>
      keeps_untouched (flush_keeps outside.crc32c ended event mem) pos

theorem rename_keeps
    :
    ∀ event ∈ (Completion.verifyAndRename hashes crc32c content finalPath totalLength intervals
      digest journalBytes nextSequence io).2, KeepsData event := by
  have sealing : ∀ finalBlake3 checked, ∀ event ∈ (Completion.sealAndRename crc32c finalPath
      finalBlake3 checked journalBytes nextSequence io).2, KeepsData event := by
    intro finalBlake3 checked
    have appended := append_run_keeps crc32c (append_all_runs crc32c
      (fun _ => io.appended) 0 journalBytes [⟨UInt64.ofNat nextSequence, .sealed finalBlake3⟩])
    unfold Completion.sealAndRename
    split
    next events length error shape =>
      rw [shape] at appended
      exact appended
    next events length shape =>
      rw [shape] at appended
      split
      · simpa [KeepsData, or_imp, forall_and] using appended
      · split
        · simpa [KeepsData, or_imp, forall_and] using appended
        · simpa [KeepsData, or_imp, forall_and] using appended
  unfold Completion.verifyAndRename
  split
  · simp
  · split
    · simp
    · split
      · simp
      · split
        · simp
        · simp
        · split
          · simp
          · exact sealing _ _

theorem complete_content (named : Sink.complete outside finalPath io sink = (.ok sealing, after)) :
    after.content = sink.content := by
  rcases sink with ⟨backing, artifacts, digest⟩
  cases backing with
  | lengthless part =>
    simp only [Sink.complete] at named
    split at named
    · cases named
    · cases named
      rfl
  | journalled writer intervals disk =>
    simp only [Sink.complete] at named
    split at named
    · cases named
    next =>
      split at named
      · cases named
      · cases named
        simp only [StorageSink.content]
        apply List.map_congr_left
        intro pos _
        exact untouched_run disk fun event mem =>
          keeps_untouched (rename_keeps event mem) pos

/-! Sequences of calls. -/

inductive SinkCall where
  | write (offset : Nat) (bytes : List UInt8) (io : WriteIo)
  | sync (io : SyncIo)

def call (outside : Outside) (sink : StorageSink) : SinkCall → StorageSink
  | .write offset bytes io => (writeAt outside io sink offset bytes).2
  | .sync io => (Sink.sync outside io sink).2

def calls (outside : Outside) (sink : StorageSink) (history : List SinkCall) : StorageSink :=
  history.foldl (call outside) sink

def journalled (sink : StorageSink) : Bool :=
  match sink.backing with
  | .journalled _ _ _ => true
  | .lengthless _ => false

theorem call_keeps (outside : Outside) (sink : StorageSink) (next : SinkCall) :
    journalled (call outside sink next) = journalled sink ∧
      (call outside sink next).digest = sink.digest := by
  rcases sink with ⟨_ | part, artifacts, digest⟩
  · cases next <;> exact ⟨rfl, rfl⟩
  · cases next with
    | write offset bytes io => exact ⟨rfl, rfl⟩
    | sync io => cases growable : io.growable <;> simp [call, Sink.sync, growable, journalled]

theorem calls_keep (outside : Outside) (sink : StorageSink) (history : List SinkCall) :
    journalled (calls outside sink history) = journalled sink ∧
      (calls outside sink history).digest = sink.digest := by
  induction history generalizing sink with
  | nil => exact ⟨rfl, rfl⟩
  | cons next rest ih =>
    have first := call_keeps outside sink next
    have later := ih (call outside sink next)
    exact ⟨later.1.trans first.1, later.2.trans first.2⟩

theorem create_keeps
    (created : create outside intervalText target journalPath totalLength transferId validatorHash
      digest io = .ok sink) :
    journalled sink = totalLength.isSome ∧ sink.digest = digest ∧
      (totalLength = none → sink.backing = .lengthless []) := by
  unfold create at created
  cases totalLength with
  | some length =>
    simp only at created
    repeat' split at created
    all_goals cases created
    exact ⟨rfl, rfl, nofun⟩
  | none =>
    simp only at created
    split at created
    · cases created
    · cases created
      exact ⟨rfl, rfl, fun _ => rfl⟩

end Downpour.SinkBytes
