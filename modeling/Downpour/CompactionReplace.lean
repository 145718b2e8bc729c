import Downpour.Support.CrashDirectory
import Downpour.CompactionMeaning

/-!
`compact_journal` as a whole: the repair of the journal, the new journal written
beside it and renamed over it, and every way to fail or crash on the way. Each
file operation carries its outcome, and leaves the events that a crash can cut
short. The journal's bytes are on the disk when compaction starts.
-/

namespace Downpour.CompactionReplace
open JournalFormat JournalReplay JournalRepair JournalState ReplayExact Compaction CompactionMerge
open CompactionMeaning CrashDirectory

inductive ReplacementBoundary where
  | newFileCreated
  | newFileSynced
  | renamed
  | directorySynced

/-- The outcomes of the I/O of `replace_atomically`. A failed write says how much of
it landed; `directory` is the outcome of opening and syncing the parent. -/
structure ReplaceIo where
  created : Option IoError
  written : Option (IoError × Nat)
  synced : Option IoError
  renamed : Option IoError
  unix : Bool
  directory : Option IoError

def attempt (failure : Option IoError) (done undone : List (Event UInt8))
    (next : Except IoError Unit × List (Event UInt8)) : Except IoError Unit × List (Event UInt8) :=
  match failure with
  | some error => (.error error, undone)
  | none => (next.1, done ++ next.2)

def replaceAtomicallyWithHook (replacement : List UInt8) (io : ReplaceIo)
    (hook : ReplacementBoundary → Option IoError) : Except IoError Unit × List (Event UInt8) :=
  attempt io.created [.create] [.createFailed] <|
  attempt (hook .newFileCreated) [] [] <|
  attempt (io.written.map Prod.fst) [.write replacement]
    [.writeFailed replacement ((io.written.map Prod.snd).getD 0)] <|
  attempt io.synced [.syncFresh] [.syncFreshFailed] <|
  attempt (hook .newFileSynced) [] [] <|
  attempt io.renamed [.rename] [.renameFailed] <|
  attempt (hook .renamed) [] [] <|
  -- Only a Unix build syncs the directory.
  attempt (if io.unix then io.directory else none) (if io.unix then [.syncDirectory] else [])
    [.syncDirectoryFailed] <|
  attempt (hook .directorySynced) [] [] (.ok (), [])

def replaceAtomically (replacement : List UInt8) (io : ReplaceIo) :
    Except IoError Unit × List (Event UInt8) :=
  replaceAtomicallyWithHook replacement io fun _ => none

structure CompactIo where
  repair : RepairIo
  part : PartIo
  replace : ReplaceIo

def openPart (part : Option (List UInt8)) (io : PartIo) : Except CompactionError (List UInt8) :=
  match part, io.opened with
  | none, _ => .error (.io notFoundError)
  | some _, some error => .error (.io error)
  | some content, none => .ok content

section Compacting
variable (crc32c : List UInt8 → UInt32) (blake3 : List UInt8 → Digest)

def repairEvents (bytes : List UInt8) (io : RepairIo) : List (Event UInt8) :=
  match io.opened with
  | some _ => []
  | none =>
    match replayReader crc32c ⟨bytes, io.reads⟩ with
    | .error _ => []
    | .ok outcome =>
      if outcome.stop = .cleanEof then []
      else match io.setLen with
        | some _ => [.cutFailed outcome.validBytes]
        | none =>
          match io.syncAll with
          | some _ => [.cut outcome.validBytes, .syncNamedFailed]
          | none => [.cut outcome.validBytes, .syncNamed]

/-- The middle of `compact_journal`: from the replayed records to the new bytes. -/
def replacementFor (replayed : ReplayOutcome) (part : Option (List UInt8)) (wallClock : UInt64)
    (io : PartIo) : Except CompactionError (List UInt8) :=
  match effectiveState replayed.header replayed.records with
  | .error error => .error (.invalidState error.detail)
  | .ok state =>
    match openPart part io with
    | .error error => .error error
    | .ok content =>
      match verifyAndMerge blake3 content io state.blocks with
      | .error error => .error error
      | .ok merged => encodeReplacement crc32c replayed.header state merged wallClock

def compactJournal (journal : List UInt8) (part : Option (List UInt8)) (wallClock : UInt64)
    (io : CompactIo) : Except CompactionError Unit × List (Event UInt8) :=
  match (recoverJournal crc32c (some journal) io.repair).1 with
  | .error error => (.error (.replay error), repairEvents crc32c journal io.repair)
  | .ok replayed =>
    match replacementFor crc32c blake3 replayed part wallClock io.part with
    | .error error => (.error error, repairEvents crc32c journal io.repair)
    | .ok replacement =>
      let replaced := replaceAtomically replacement io.replace
      (replaced.1.mapError CompactionError.io,
        repairEvents crc32c journal io.repair ++ replaced.2)

/-! What the journal path can show. -/

/-- The journal as it was, or with its damaged tail cut off. -/
def Former (original bytes : List UInt8) : Prop :=
  bytes = original ∨
    ∃ outcome, replayBytes crc32c original = .ok outcome ∧ bytes = original.take outcome.validBytes

/-- The new journal that the records of the old one and the part file give. -/
def Replaced (original : List UInt8) (part : Option (List UInt8)) (wallClock : UInt64)
    (io : PartIo) (bytes : List UInt8) : Prop :=
  ∃ outcome, replayBytes crc32c original = .ok outcome ∧
    replacementFor crc32c blake3 outcome part wallClock io = .ok bytes

def Reads (bytes : List UInt8) (state : EffectiveState) : Prop :=
  ∃ outcome, replayBytes crc32c bytes = .ok outcome ∧
    effectiveState outcome.header outcome.records = .ok state

theorem former_reads (former : Former crc32c original bytes)
    (state : EffectiveState) : Reads crc32c bytes state ↔ Reads crc32c original state := by
  rcases former with rfl | ⟨outcome, replayed, rfl⟩
  · exact Iff.rfl
  · have repaired := replay_repaired crc32c replayed
    simp only [Reads, repaired, replayed, Except.ok.injEq, exists_eq_left']

theorem replacement_for_ok
    (prepared : replacementFor crc32c blake3 outcome part wallClock io = .ok bytes) :
    ∃ state content merged, effectiveState outcome.header outcome.records = .ok state ∧
      part = some content ∧ verifyAndMerge blake3 content io state.blocks = .ok merged ∧
      encodeReplacement crc32c outcome.header state merged wallClock = .ok bytes := by
  unfold replacementFor at prepared
  split at prepared
  next => cases prepared
  next state accepted =>
    split at prepared
    next => cases prepared
    next content opened =>
      split at prepared
      next => cases prepared
      next merged verified =>
        refine ⟨state, content, merged, accepted, ?_, verified, prepared⟩
        unfold openPart at opened
        split at opened
        · cases opened
        · cases opened
        · rw [Except.ok.inj opened]

theorem replaced_reads (part : Option (List UInt8)) (wallClock : UInt64) (io : PartIo)
    (replaced : Replaced crc32c blake3 original part wallClock io bytes)
    (representable : bytes.length < 2 ^ 64) :
    ∃ state after, Reads crc32c original state ∧ Reads crc32c bytes after ∧
      SameMeaning state after := by
  obtain ⟨outcome, replayed, prepared⟩ := replaced
  obtain ⟨state, content, merged, accepted, _, verified, encoded⟩ :=
    replacement_for_ok crc32c blake3 prepared
  obtain ⟨frames, replayedFrames, _, _, read⟩ := compacted_read crc32c blake3 content outcome.header
    outcome.records state wallClock bytes accepted verified encoded representable
  have same := (verify_and_merge_merged blake3 content
    (effective_state_accepted accepted) verified).2.2
  exact ⟨state, _, ⟨outcome, replayed, accepted⟩, ⟨_, replayedFrames, read⟩,
    ⟨rfl, rfl, rfl, rfl, same⟩⟩

/-! The events, in order. -/

theorem repair_throughout (original : List UInt8) (io : RepairIo) (fresh : File UInt8) :
    CrashTrace.Throughout Directory.apply Torn (Holds {bytes | Former crc32c original bytes})
      (settled original fresh) (repairEvents crc32c original io) := by
  have start := settled_holds {bytes | Former crc32c original bytes} fresh (Or.inl rfl)
  unfold repairEvents
  split
  next => exact start
  next =>
    split
    next => exact start
    next outcome finished =>
      have replayed := replay_reader_finished crc32c finished
      obtain ⟨cut, torn⟩ := cut_holds _ (settled original fresh) start
        (Or.inr ⟨outcome, replayed, rfl⟩)
      split
      next => exact start
      next =>
        split
        next =>
          refine ⟨start, ?_, torn⟩
          rintro _ ⟨⟩
          exact torn
        next =>
          split
          next =>
            refine ⟨start, ?_, cut, ?_, cut⟩
            · rintro _ ⟨⟩
              exact torn
            · rintro _ ⟨⟩
              exact cut
          next =>
            refine ⟨start, ?_, cut, ?_, sync_named_holds _ _ cut⟩
            · rintro _ ⟨⟩
              exact torn
            · rintro _ ⟨⟩
              exact cut

/-- What a replacement can do: stop before the rename with the path untouched, or
rename a complete and synced file over the journal. -/
inductive ReplaceEnd (replacement : List UInt8) (unix : Bool) :
    Except IoError Unit × List (Event UInt8) → Prop where
  | early (error : IoError) (events : List (Event UInt8)) (quiet : ∀ event ∈ events, Quiet event) :
      ReplaceEnd replacement unix (.error error, events)
  | late (result : Except IoError Unit) (events : List (Event UInt8))
      (tail : events = [] ∨ events = [.syncDirectory] ∨ events = [.syncDirectoryFailed])
      (synced : result = .ok () → unix = true → events = [.syncDirectory]) :
      ReplaceEnd replacement unix
        (result, .create :: .write replacement :: .syncFresh :: .rename :: events)

theorem replace_end (replacement : List UInt8) (io : ReplaceIo)
    (hook : ReplacementBoundary → Option IoError) :
    ReplaceEnd replacement io.unix (replaceAtomicallyWithHook replacement io hook) := by
  unfold replaceAtomicallyWithHook
  cases io.created with
  | some error => exact .early error _ (by simp [Quiet])
  | none =>
  cases hook .newFileCreated with
  | some error => exact .early error _ (by simp [Quiet, attempt])
  | none =>
  cases io.written with
  | some failure => exact .early failure.1 _ (by simp [Quiet, attempt])
  | none =>
  cases io.synced with
  | some error => exact .early error _ (by simp [Quiet, attempt])
  | none =>
  cases hook .newFileSynced with
  | some error => exact .early error _ (by simp [Quiet, attempt])
  | none =>
  cases io.renamed with
  | some error => exact .early error _ (by simp [Quiet, attempt])
  | none =>
  cases hook .renamed with
  | some error => exact .late (.error error) [] (Or.inl rfl) nofun
  | none =>
  cases io.unix with
  | false =>
    cases hook .directorySynced with
    | some error => exact .late (.error error) [] (Or.inl rfl) nofun
    | none => exact .late (.ok ()) [] (Or.inl rfl) nofun
  | true =>
    cases io.directory with
    | some error => exact .late (.error error) _ (Or.inr (Or.inr rfl)) nofun
    | none =>
      cases hook .directorySynced with
      | some error => exact .late (.error error) _ (Or.inr (Or.inl rfl)) nofun
      | none => exact .late (.ok ()) _ (Or.inr (Or.inl rfl)) fun _ _ => rfl

theorem replace_throughout (ended : ReplaceEnd replacement unix replaced)
    (held : Holds allowed directory) (mem : replacement ∈ allowed) :
    CrashTrace.Throughout Directory.apply Torn (Holds allowed) directory replaced.2 := by
  cases ended with
  | early error events quiet => exact quiet_throughout allowed directory events quiet held
  | late result events tail _ =>
    have prepared := quiet_throughout allowed directory
      [.create, .write replacement, .syncFresh] (by simp [Quiet]) held
    refine CrashTrace.throughout_append Directory.apply Torn (Holds allowed) directory
      [.create, .write replacement, .syncFresh] _ prepared ?_
    -- The new file is complete and on the disk when it is renamed.
    have whole := CrashTrace.throughout_end _ _ _ _ _ prepared
    have renamed := rename_holds allowed _ whole (show [] ++ replacement ∈ allowed from mem)
      (Set.singleton_subset_iff.mpr mem)
    refine ⟨whole, ?_, ?_⟩
    · rintro _ ⟨⟩
      exact whole
    rcases tail with rfl | rfl | rfl
    · exact renamed
    · refine ⟨renamed, ?_, sync_directory_holds allowed _ renamed⟩
      rintro _ ⟨⟩
      exact renamed
    · refine ⟨renamed, ?_, renamed⟩
      rintro _ ⟨⟩
      exact renamed

/-- What `compact_journal` can do: fail with the path touched by the repair alone, or
go on to the replacement of a journal that reads well. -/
inductive CompactEnd (journal : List UInt8) (part : Option (List UInt8)) (wallClock : UInt64)
    (io : CompactIo) : Except CompactionError Unit × List (Event UInt8) → Prop where
  | kept (error : CompactionError) :
      CompactEnd journal part wallClock io (.error error, repairEvents crc32c journal io.repair)
  | replacing (replacement : List UInt8)
      (replaced : Replaced crc32c blake3 journal part wallClock io.part replacement)
      (result : Except IoError Unit) (events : List (Event UInt8))
      (ended : ReplaceEnd replacement io.replace.unix (result, events)) :
      CompactEnd journal part wallClock io (result.mapError CompactionError.io,
        repairEvents crc32c journal io.repair ++ events)

theorem compact_end (journal : List UInt8) (part : Option (List UInt8)) (wallClock : UInt64)
    (io : CompactIo) : CompactEnd crc32c blake3 journal part wallClock io
      (compactJournal crc32c blake3 journal part wallClock io) := by
  have repaired := recover_journal_end crc32c (some journal) io.repair
  unfold compactJournal
  cases recovered : recoverJournal crc32c (some journal) io.repair with
  | mk result left =>
    rw [recovered] at repaired
    cases repaired with
    | recovered bytes outcome present replayed =>
      obtain rfl := Option.some.inj present
      simp only
      cases prepared : replacementFor crc32c blake3 outcome part wallClock io.part with
      | error error => exact .kept error
      | ok replacement =>
        exact .replacing replacement ⟨outcome, replayed, prepared⟩ _ _
          (replace_end replacement io.replace fun _ => none)
    | _ => exact .kept _

/-- `bytes` can be read at the journal path at some point of `events`, or after a
crash at that point. -/
def Shown (original : List UInt8) (fresh : File UInt8) (events : List (Event UInt8))
    (bytes : List UInt8) : Prop :=
  ∃ crashed, CrashTrace.CrashPoint Directory.apply Torn (settled original fresh) events crashed ∧
    Found crashed bytes

def leaves (original : List UInt8) (fresh : File UInt8) (events : List (Event UInt8)) : List UInt8 :=
  (CrashTrace.run Directory.apply (settled original fresh) events).named.visible

/-- The events of a repair leave the file that `recover_journal` leaves. -/
theorem repair_events_leave (journal : List UInt8) (io : RepairIo) (fresh : File UInt8) :
    (recoverJournal crc32c (some journal) io).2 =
      some (leaves journal fresh (repairEvents crc32c journal io)) := by
  simp only [recoverJournal, repairEvents]
  cases io.opened with
  | some error => rfl
  | none =>
    simp only
    cases replayReader crc32c ⟨journal, io.reads⟩ with
    | error error => rfl
    | ok outcome =>
      simp only
      split_ifs
      · rfl
      · cases io.setLen with
        | some error => rfl
        | none => cases io.syncAll <;> rfl

section Ending
variable {crc32c : List UInt8 → UInt32} {blake3 : List UInt8 → Digest}
  {original : List UInt8} {part : Option (List UInt8)} {wallClock : UInt64} {io : CompactIo}
  {compacted : Except CompactionError Unit × List (Event UInt8)}
  (ended : CompactEnd crc32c blake3 original part wallClock io compacted) (fresh : File UInt8)
include ended

theorem shown_allowed (bytes : List UInt8) (shown : Shown original fresh compacted.2 bytes) :
    Former crc32c original bytes ∨
      Replaced crc32c blake3 original part wallClock io.part bytes := by
  obtain ⟨crashed, point, found⟩ := shown
  have repaired := repair_throughout crc32c original io.repair fresh
  cases ended with
  | kept error =>
    exact Or.inl (CrashTrace.throughout_crash _ _ _ _ crashed _ repaired point bytes found)
  | replacing replacement replaced result events ended =>
    have wider := CrashTrace.throughout_mono _ _ _
      (Holds {bytes | Former crc32c original bytes ∨
        Replaced crc32c blake3 original part wallClock io.part bytes})
      (fun state => holds_mono _ state fun bytes former => Or.inl former) repaired
    have onward := replace_throughout ended
      (CrashTrace.throughout_end _ _ _ _ _ wider) (Or.inr replaced)
    have whole := CrashTrace.throughout_append _ _ _ _ _ _ wider onward
    exact CrashTrace.throughout_crash _ _ _ _ crashed _ whole point bytes found

theorem unrenamed_former (unrenamed : .rename ∉ compacted.2) :
    (∃ error, compacted.1 = .error error) ∧
      ∀ bytes, Shown original fresh compacted.2 bytes → Former crc32c original bytes := by
  have repaired := repair_throughout crc32c original io.repair fresh
  cases ended with
  | kept error =>
    refine ⟨⟨error, rfl⟩, ?_⟩
    rintro bytes ⟨crashed, point, found⟩
    exact CrashTrace.throughout_crash _ _ _ _ crashed _ repaired point bytes found
  | replacing replacement replaced result events ended =>
    cases ended with
    | early error events quiet =>
      refine ⟨⟨.io error, rfl⟩, ?_⟩
      rintro bytes ⟨crashed, point, found⟩
      have onward := quiet_throughout _ _ events quiet
        (CrashTrace.throughout_end _ _ _ _ _ repaired)
      have whole := CrashTrace.throughout_append _ _ _ _ _ _ repaired onward
      exact CrashTrace.throughout_crash _ _ _ _ crashed _ whole point bytes found
    | late result events tail synced => simp at unrenamed

theorem succeeded_visible (succeeded : compacted.1 = .ok ()) :
    Replaced crc32c blake3 original part wallClock io.part
      (leaves original fresh compacted.2) := by
  cases ended with
  | kept error => cases succeeded
  | replacing replacement replaced result events ended =>
    cases ended with
    | early error events quiet => cases succeeded
    | late result events tail synced =>
      rw [leaves, CrashTrace.run, List.foldl_append]
      rcases tail with rfl | rfl | rfl
      · exact replaced
      · exact replaced
      · exact replaced

theorem succeeded_replaced (succeeded : compacted.1 = .ok ()) (unix : io.replace.unix = true)
    (bytes : List UInt8)
    (found : Found (CrashTrace.run Directory.apply (settled original fresh) compacted.2) bytes) :
    Replaced crc32c blake3 original part wallClock io.part bytes := by
  cases ended with
  | kept error => cases succeeded
  | replacing replacement replaced result events ended =>
    cases ended with
    | early error events quiet => cases succeeded
    | late result events tail synced =>
      have done : result = .ok () := by
        cases result with
        | error error => cases succeeded
        | ok value => rfl
      rw [synced done unix, CrashTrace.run, List.foldl_append] at found
      rcases found with rfl | survived | undone
      · exact replaced
      · rw [Set.mem_singleton_iff.mp survived]
        exact replaced
      · exact absurd undone (Set.notMem_empty bytes)

end Ending

/-- Wherever compaction fails or the machine stops, the journal path shows the old
journal, at most without its damaged tail, or the complete new one. Both describe
the same download; without a rename it is the old one, and after a success the
new one, on the disk where the directory can be synced. -/
theorem replacement_all_or_nothing (original : List UInt8) (part : Option (List UInt8))
    (wallClock : UInt64) (io : CompactIo) (fresh : File UInt8) :
    (∀ bytes,
      Shown original fresh (compactJournal crc32c blake3 original part wallClock io).2 bytes →
      Former crc32c original bytes ∨
        Replaced crc32c blake3 original part wallClock io.part bytes) ∧
    (∀ bytes, Former crc32c original bytes → ∀ state,
      Reads crc32c bytes state ↔ Reads crc32c original state) ∧
    (∀ bytes, Replaced crc32c blake3 original part wallClock io.part bytes →
      bytes.length < 2 ^ 64 → ∃ state after, Reads crc32c original state ∧
        Reads crc32c bytes after ∧ SameMeaning state after) ∧
    (.rename ∉ (compactJournal crc32c blake3 original part wallClock io).2 →
      (∃ error, (compactJournal crc32c blake3 original part wallClock io).1 = .error error) ∧
      ∀ bytes,
        Shown original fresh (compactJournal crc32c blake3 original part wallClock io).2 bytes →
        Former crc32c original bytes) ∧
    ((compactJournal crc32c blake3 original part wallClock io).1 = .ok () →
      io.replace.unix = true → ∀ bytes,
      Found (CrashTrace.run Directory.apply (settled original fresh)
        (compactJournal crc32c blake3 original part wallClock io).2) bytes →
      Replaced crc32c blake3 original part wallClock io.part bytes) := by
  have ended := compact_end crc32c blake3 original part wallClock io
  exact ⟨shown_allowed ended fresh,
    fun bytes former => former_reads crc32c former,
    fun bytes => replaced_reads crc32c blake3 part wallClock io.part,
    unrenamed_former ended fresh, succeeded_replaced ended fresh⟩

/-! Compacting a compacted journal. -/

structure CompactIo.Clean (io : CompactIo) : Prop where
  repair : io.repair.Clean
  opened : io.part.opened = none
  seek : ∀ offset, io.part.seek offset = none
  read : ∀ offset, io.part.read offset = none
  replace : io.replace.created = none ∧ io.replace.written = none ∧ io.replace.synced = none ∧
    io.replace.renamed = none ∧ io.replace.directory = none

theorem replacement_again {outcome : ReplayOutcome} {part : Option (List UInt8)}
    {wallClock : UInt64} {io : PartIo} {bytes : List UInt8} {again : CompactIo} (clean : again.Clean)
    (prepared : replacementFor crc32c blake3 outcome part wallClock io = .ok bytes)
    (representable : bytes.length < 2 ^ 64) :
    ∃ next, replayBytes crc32c bytes = .ok next ∧
      replacementFor crc32c blake3 next part wallClock again.part = .ok bytes := by
  obtain ⟨state, content, merged, accepted, rfl, verified, encoded⟩ :=
    replacement_for_ok crc32c blake3 prepared
  obtain ⟨frames, replayed, _, _, read⟩ := compacted_read crc32c blake3 content outcome.header
    outcome.records state wallClock bytes accepted verified encoded representable
  obtain ⟨finished, _, _⟩ :=
    verify_and_merge_merged blake3 content (effective_state_accepted accepted) verified
  have sound := effective_state_accepted read
  obtain ⟨second, done⟩ := verify_and_merge_finishes blake3 content again.part sound
    finished.digests clean.seek clean.read
  obtain ⟨secondFinished, _, same⟩ := verify_and_merge_merged blake3 content sound done
  obtain rfl := merged_unique secondFinished finished same
  refine ⟨_, replayed, ?_⟩
  simp only [replacementFor, read, openPart, clean.opened, done]
  exact encoded

/-- Compacting a compacted journal again writes the same bytes, when no file
operation fails. -/
theorem compaction_idempotent (journal : List UInt8) (part : Option (List UInt8))
    (wallClock : UInt64) (io again : CompactIo) (fresh freshAgain : File UInt8)
    (succeeded : (compactJournal crc32c blake3 journal part wallClock io).1 = .ok ())
    (representable : (leaves journal fresh
      (compactJournal crc32c blake3 journal part wallClock io).2).length < 2 ^ 64)
    (clean : again.Clean) :
    let written := leaves journal fresh (compactJournal crc32c blake3 journal part wallClock io).2
    (compactJournal crc32c blake3 written part wallClock again).1 = .ok () ∧
      leaves written freshAgain (compactJournal crc32c blake3 written part wallClock again).2 =
        written := by
  intro written
  obtain ⟨outcome, replayed, prepared⟩ : Replaced crc32c blake3 journal part wallClock io.part written :=
    succeeded_visible (compact_end crc32c blake3 journal part wallClock io) fresh succeeded
  change written.length < 2 ^ 64 at representable
  clear_value written
  obtain ⟨next, replayedAgain, preparedAgain⟩ :=
    replacement_again crc32c blake3 clean prepared representable
  have repaired := recover_journal_clean crc32c again.repair clean.repair replayedAgain
  have done : (compactJournal crc32c blake3 written part wallClock again).1 = .ok () := by
    obtain ⟨created, wrote, synced, renamed, directory⟩ := clean.replace
    simp only [compactJournal, repaired, preparedAgain, replaceAtomically,
      replaceAtomicallyWithHook, created, wrote, synced, renamed, directory, attempt, ite_self]
    rfl
  obtain ⟨_, replayedThere, preparedThere⟩ :=
    succeeded_visible (compact_end crc32c blake3 written part wallClock again) freshAgain done
  obtain rfl := Except.ok.inj (replayedAgain.symm.trans replayedThere)
  exact ⟨done, (Except.ok.inj (preparedAgain.symm.trans preparedThere)).symm⟩

end Compacting

/-! The journal with the two small blocks, compacted without a failure. -/

def quietCompact : CompactIo where
  repair := .quiet
  part := quietIo
  replace := ⟨none, none, none, none, true, none⟩

def smallOriginal : List UInt8 :=
  smallHeader.encode zeroChecksum ++ (encodeAll zeroChecksum smallRecords).toOption.getD []

set_option maxRecDepth 8000 in
theorem small_original_replays : replayBytes zeroChecksum smallOriginal =
    .ok ⟨smallHeader, smallRecords, smallOriginal.length, .cleanEof⟩ :=
  journal_replays zeroChecksum
    ⟨numbered_contiguous 0 (by decide), _, encode_all_framed zeroChecksum _ rfl, rfl⟩
    (by decide)

theorem small_prepared : replacementFor zeroChecksum firstByteDigest
    ⟨smallHeader, smallRecords, smallOriginal.length, .cleanEof⟩ (some [7, 8, 9]) 0 quietIo =
      encodeReplacement zeroChecksum smallHeader ⟨5, some 5, [], smallBlocks, none⟩ smallMerged 0 := by
  have accepted : effectiveState smallHeader smallRecords = .ok ⟨5, some 5, [], smallBlocks, none⟩ := by
    decide
  have opened : openPart (some [7, 8, 9]) quietIo = .ok [7, 8, 9] := rfl
  simp only [replacementFor, accepted, opened, small_blocks_merge]

theorem quiet_clean : quietCompact.Clean :=
  ⟨⟨rfl, by simp [quietCompact, RepairIo.quiet], rfl, rfl⟩, rfl, fun _ => rfl, fun _ => rfl, rfl, rfl, rfl, rfl, rfl⟩

set_option maxRecDepth 8000 in
theorem small_succeeded : (compactJournal zeroChecksum firstByteDigest smallOriginal (some [7, 8, 9]) 0
    quietCompact).1 = .ok () := by
  have replayed := recover_journal_clean zeroChecksum quietCompact.repair quiet_clean.repair
    small_original_replays
  rw [compactJournal, replayed]
  simp only [show quietCompact.part = quietIo from rfl, small_prepared]
  rfl

theorem replacement_all_or_nothing_small : ∃ replacement,
    (compactJournal zeroChecksum firstByteDigest smallOriginal (some [7, 8, 9]) 0 quietCompact).1 =
      .ok () ∧
    Found (CrashTrace.run Directory.apply (settled smallOriginal ⟨[], ∅⟩)
      (compactJournal zeroChecksum firstByteDigest smallOriginal (some [7, 8, 9]) 0 quietCompact).2)
      replacement ∧
    Replaced zeroChecksum firstByteDigest smallOriginal (some [7, 8, 9]) 0 quietIo replacement :=
  ⟨_, small_succeeded, Or.inl rfl, (replacement_all_or_nothing zeroChecksum firstByteDigest
    smallOriginal (some [7, 8, 9]) 0 quietCompact ⟨[], ∅⟩).2.2.2.2 small_succeeded rfl _ (Or.inl rfl)⟩

set_option maxRecDepth 8000 in
theorem compaction_idempotent_small : ∃ written,
    (compactJournal zeroChecksum firstByteDigest smallOriginal (some [7, 8, 9]) 0 quietCompact).1 =
      .ok () ∧
    leaves smallOriginal ⟨[], ∅⟩ (compactJournal zeroChecksum firstByteDigest smallOriginal
      (some [7, 8, 9]) 0 quietCompact).2 = written ∧
    leaves written ⟨[], ∅⟩ (compactJournal zeroChecksum firstByteDigest written
      (some [7, 8, 9]) 0 quietCompact).2 = written := by
  refine ⟨_, small_succeeded, rfl, (compaction_idempotent zeroChecksum firstByteDigest smallOriginal
    (some [7, 8, 9]) 0 quietCompact quietCompact ⟨[], ∅⟩ ⟨[], ∅⟩ small_succeeded ?_ quiet_clean).2⟩
  obtain ⟨outcome, replayed, prepared⟩ := succeeded_visible
    (compact_end zeroChecksum firstByteDigest smallOriginal (some [7, 8, 9]) 0 quietCompact)
    ⟨[], ∅⟩ small_succeeded
  obtain rfl := Except.ok.inj (small_original_replays.symm.trans replayed)
  have encoded := small_prepared.symm.trans prepared
  rw [← Except.ok.inj encoded]
  decide

end Downpour.CompactionReplace
