import Downpour.JournalReplay

/-!
Replaying a journal again: under other reads, after a damaged tail was cut off,
and with more records behind it. `recover_journal` is replay followed by that
cut. The file is a byte list; the outcomes of its system calls are passed in.
-/

namespace Downpour.JournalRepair
open Bytes JournalFormat JournalReplay

section Replay
variable (crc32c : List UInt8 → UInt32)

theorem read_up_to_schedule (schedule : List ReadEvent) (remaining : List UInt8) (want : Nat) :
    (∀ filled, readUpTo schedule remaining want = .ok filled → filled.2.schedule <:+ schedule) ∧
      ∀ error, readUpTo schedule remaining want = .error error → .failed error ∈ schedule := by
  induction schedule generalizing remaining want with
  | nil =>
    constructor
    · rintro filled done
      cases done
      exact List.suffix_refl []
    · rintro error failed
      cases failed
  | cons event later ih =>
    simp only [readUpTo]
    split
    next =>
      constructor
      · rintro filled done
        cases done
        exact List.suffix_refl _
      · rintro error failed
        cases failed
    next =>
      cases event with
      | interrupted =>
        obtain ⟨read, failed⟩ := ih remaining want
        exact ⟨fun filled done => (read filled done).trans (List.suffix_cons _ _),
          fun error stopped => List.mem_cons_of_mem _ (failed error stopped)⟩
      | failed cause =>
        constructor
        · rintro filled done
          cases done
        · rintro error failed
          cases failed
          exact List.mem_cons_self
      | short count =>
        simp only
        split
        next =>
          constructor
          · rintro filled done
            cases done
            exact List.suffix_cons _ _
          · rintro error failed
            cases failed
        next =>
          generalize min (count + 1) (min want remaining.length) = read
          obtain ⟨later, failed⟩ := ih (remaining.drop read) (want - read)
          cases next : readUpTo _ (remaining.drop read) (want - read) with
          | error cause =>
            constructor
            · rintro filled done
              cases done
            · rintro error stopped
              cases stopped
              exact List.mem_cons_of_mem _ (failed cause next)
          | ok filled =>
            constructor
            · rintro _ done
              cases done
              exact (later filled next).trans (List.suffix_cons _ _)
            · rintro error stopped
              cases stopped

theorem replay_loop_schedule (header : FileHeader) (reader : Reader) (records : List FramedRecord)
    (expected validBytes : Nat) :
    replayLoop crc32c header reader records expected validBytes =
      replayLoop crc32c header ⟨reader.remaining, []⟩ records expected validBytes ∨
    ∃ cause, .failed cause ∈ reader.schedule ∧
      replayLoop crc32c header reader records expected validBytes = .error (.io cause) := by
  -- However the reads are cut, the record loop does what it does on the plain bytes, unless one of
  -- the reads fails.
  induction size : reader.remaining.length using Nat.strong_induction_on
    generalizing reader records expected validBytes with
  | _ total ih =>
    rw [replayLoop, replayLoop.eq_1 crc32c header ⟨reader.remaining, []⟩]
    split
    next cause prefixFailed =>
      exact Or.inr ⟨cause, (read_up_to_schedule _ _ _).2 cause prefixFailed, rfl⟩
    next start afterPrefix prefixRead =>
      obtain ⟨startTaken, afterStart⟩ := read_up_to_takes prefixRead
      have front := (read_up_to_schedule _ _ _).1 _ prefixRead
      simp only at startTaken afterStart front
      simp only [readUpTo, ← startTaken, ← afterStart]
      split
      · exact Or.inl rfl
      next present =>
        split
        · exact Or.inl rfl
        next whole =>
          split
          next cause suffixFailed =>
            have mem := (read_up_to_schedule _ _ _).2 cause suffixFailed
            exact Or.inr ⟨cause, front.subset mem, rfl⟩
          next suffix afterFrame suffixRead =>
            obtain ⟨suffixTaken, afterSuffix⟩ := read_up_to_takes suffixRead
            have behind := (read_up_to_schedule _ _ _).1 _ suffixRead
            have shrinks := frame_shrinks reader prefixRead
              suffixRead present
            simp only at suffixTaken afterSuffix behind
            simp only [← suffixTaken, ← afterSuffix]
            split
            · exact Or.inl rfl
            split
            · exact Or.inl rfl
            split
            · exact Or.inl rfl
            split
            · exact Or.inl rfl
            split
            · exact Or.inl rfl
            rcases ih _ (by omega) afterFrame _ _ _ rfl with same | ⟨cause, mem, failed⟩
            · exact Or.inl same
            · exact Or.inr ⟨cause, front.subset (behind.subset mem), failed⟩

theorem replay_schedule (reader : Reader) :
    replayReader crc32c reader = replayBytes crc32c reader.remaining ∨
    ∃ cause, .failed cause ∈ reader.schedule ∧ replayReader crc32c reader = .error (.io cause) := by
  simp only [replayReader, replayBytes, readUpTo]
  split
  next cause headerFailed =>
    exact Or.inr ⟨cause, (read_up_to_schedule _ _ _).2 cause headerFailed, rfl⟩
  next headerBytes afterHeader headerRead =>
    obtain ⟨taken, left⟩ := read_up_to_takes headerRead
    have front := (read_up_to_schedule _ _ _).1 _ headerRead
    simp only at taken left front
    simp only [← taken, ← left]
    split
    · exact Or.inl rfl
    next header decoded =>
      rcases replay_loop_schedule crc32c header afterHeader [] 0 headerLen with same | ⟨cause, mem, failed⟩
      · exact Or.inl same
      · exact Or.inr ⟨cause, front.subset mem, failed⟩

variable {bytes : List UInt8} {outcome : ReplayOutcome}

theorem replay_reader_finished (finished : replayReader crc32c ⟨bytes, reads⟩ = .ok outcome) :
    replayBytes crc32c bytes = .ok outcome := by
  rcases replay_schedule crc32c ⟨bytes, reads⟩ with same | ⟨cause, _, stopped⟩
  · rwa [same] at finished
  · rw [stopped] at finished
    cases finished

/-- What a finished record loop leaves: replaying the valid bytes again, with
anything behind them, comes back to the same point. -/
structure Resumes (header : FileHeader) (bytes : List UInt8) (records : List FramedRecord)
    (validBytes : Nat) (outcome : ReplayOutcome) : Prop where
  sameHeader : outcome.header = header
  grows : validBytes ≤ outcome.validBytes
  held : outcome.validBytes ≤ validBytes + bytes.length
  bounded : outcome.validBytes < 2 ^ 64
  counted : 15 * outcome.records.length + validBytes ≤ outcome.validBytes + 15 * records.length
  clean : outcome.stop = .cleanEof → outcome.validBytes = validBytes + bytes.length
  again : ∀ rest, replayLoop crc32c header
      ⟨bytes.take (outcome.validBytes - validBytes) ++ rest, []⟩ records records.length validBytes =
    replayLoop crc32c header ⟨rest, []⟩ outcome.records outcome.records.length outcome.validBytes

theorem replay_loop_resumes (bounded : validBytes < 2 ^ 64)
    (finished : replayLoop crc32c header reader records records.length validBytes = .ok outcome) :
    Resumes crc32c header reader.remaining records validBytes outcome := by
  induction size : reader.remaining.length using Nat.strong_induction_on
    generalizing reader records validBytes with
  | _ total ih =>
    rcases replay_loop_round crc32c finished with
      ⟨same, kept, reached, ended⟩ | ⟨frameLen, record, consumed, after, long, sized, held, decoded,
        inOrder, left, taken, bytesFit, countFits, next⟩
    · refine ⟨same, by omega, by omega, by omega, by rw [kept]; omega, ?_, ?_⟩
      · intro clean
        rw [ended clean, reached, List.length_nil, Nat.add_zero]
      intro rest
      rw [reached, kept, Nat.sub_self, List.take_zero, List.nil_append]
    · have sameLen : frameLen = consumed := taken.symm
      subst sameLen
      have positive : 15 ≤ frameLen := by
        rw [sized, recordPrefixLen, checksumLen]
        omega
      have shorter : after.remaining.length < total := by
        rw [left, List.length_drop]
        omega
      have count : records.length + 1 = (records ++ [record]).length := by simp
      rw [count] at next
      have later := ih _ shorter bytesFit next rfl
      have afterLength : after.remaining.length = reader.remaining.length - frameLen := by
        rw [left, List.length_drop]
      have grows := later.grows
      have inside := later.held
      have counted := later.counted
      rw [List.length_append, List.length_singleton] at counted
      refine ⟨later.sameHeader, by omega, by omega, later.bounded, by omega, ?_, ?_⟩
      · intro clean
        have whole := later.clean clean
        omega
      intro rest
      -- The first frame lies inside the valid bytes, so the round takes it again.
      have reach : outcome.validBytes - validBytes =
          frameLen + (outcome.validBytes - (validBytes + frameLen)) := by omega
      have bytesSplit : reader.remaining.take (outcome.validBytes - validBytes) ++ rest =
          reader.remaining.take frameLen ++
            (after.remaining.take (outcome.validBytes - (validBytes + frameLen)) ++ rest) := by
        rw [reach, List.take_add, left, List.append_assoc]
      have frontLength : (reader.remaining.take frameLen).length = frameLen := by
        rw [List.length_take]
        omega
      rw [bytesSplit]
      have start : (reader.remaining.take frameLen ++ (after.remaining.take
          (outcome.validBytes - (validBytes + frameLen)) ++ rest)).take recordPrefixLen =
            reader.remaining.take recordPrefixLen := by
        rw [List.take_append_of_le_length (by omega), List.take_take, Nat.min_eq_left (by omega)]
      rw [replay_loop_next crc32c header records
        (by rw [start]; exact sized) (by rw [List.length_append]; omega)
        (by rw [List.take_left' frontLength]; exact decoded) inOrder bytesFit countFits,
        List.drop_left' frontLength, count]
      exact later.again rest

/-- The valid part of a journal: replaying it, with anything behind it, comes
back to where the first replay stopped. -/
structure Resumable (bytes : List UInt8) (outcome : ReplayOutcome) : Prop where
  held : outcome.validBytes ≤ bytes.length
  bounded : outcome.validBytes < 2 ^ 64
  counted : 15 * outcome.records.length + headerLen ≤ outcome.validBytes
  clean : outcome.stop = .cleanEof → outcome.validBytes = bytes.length
  again : ∀ rest, replayBytes crc32c (bytes.take outcome.validBytes ++ rest) =
    replayLoop crc32c outcome.header ⟨rest, []⟩ outcome.records outcome.records.length
      outcome.validBytes

theorem replay_resumable (finished : replayBytes crc32c bytes = .ok outcome) :
    Resumable crc32c bytes outcome := by
  simp only [replayBytes, replayReader, readUpTo] at finished
  split at finished
  · cases finished
  next header decoded =>
    have long := header_decoded_length crc32c decoded
    rw [List.length_take] at long
    have resumes := replay_loop_resumes crc32c (by decide) finished
    have held := resumes.held
    have counted := resumes.counted
    have grows := resumes.grows
    rw [List.length_drop] at held
    rw [List.length_nil] at counted
    refine ⟨by omega, resumes.bounded, by omega, ?_, ?_⟩
    · intro clean
      rw [resumes.clean clean, List.length_drop]
      omega
    intro rest
    have validSplit : bytes.take outcome.validBytes =
        bytes.take headerLen ++ (bytes.drop headerLen).take (outcome.validBytes - headerLen) := by
      rw [← List.take_add, Nat.add_sub_cancel' grows]
    have frontLength : (bytes.take headerLen).length = headerLen := by
      rw [List.length_take]
      omega
    simp only [replayBytes, replayReader, readUpTo]
    rw [validSplit, List.append_assoc, List.take_left' frontLength, List.drop_left' frontLength,
      decoded, resumes.sameHeader]
    exact resumes.again rest

theorem replay_repaired (finished : replayBytes crc32c bytes = .ok outcome) :
    replayBytes crc32c (bytes.take outcome.validBytes) = .ok { outcome with stop := .cleanEof } := by
  have again := (replay_resumable crc32c finished).again []
  rw [List.append_nil] at again
  rw [again, replayLoop]
  simp [readUpTo]

theorem replay_extended (finished : replayBytes crc32c bytes = .ok outcome)
    (framed : Framed crc32c frames more) (ordered : Contiguous outcome.records.length frames)
    (bytesFit : outcome.validBytes + more.length < 2 ^ 64)
    (countFits : outcome.records.length + frames.length < 2 ^ 64) :
    replayBytes crc32c (bytes.take outcome.validBytes ++ more) =
      .ok ⟨outcome.header, outcome.records ++ frames, outcome.validBytes + more.length, .cleanEof⟩ := by
  rw [(replay_resumable crc32c finished).again more]
  exact replay_loop_whole crc32c framed _ _ _ ordered bytesFit countFits

/-! Where the errors of a replay come from. -/

theorem replay_loop_overflow
    (failed : replayLoop crc32c header ⟨bytes, []⟩ records expected validBytes = .error error) :
    ∃ message, error = overflowError message := by
  induction size : bytes.length using Nat.strong_induction_on
    generalizing bytes records expected validBytes with
  | _ total ih =>
    rw [replayLoop] at failed
    simp only [readUpTo] at failed
    split at failed
    · cases failed
    next present =>
      split at failed
      · cases failed
      split at failed
      · cases failed
      split at failed
      · cases failed
      split at failed
      · cases failed
      split at failed
      · cases failed
        exact ⟨_, rfl⟩
      split at failed
      · cases failed
        exact ⟨_, rfl⟩
      refine ih _ ?_ failed rfl
      rw [List.length_take, recordPrefixLen] at present
      rw [List.length_drop, List.length_drop, recordPrefixLen]
      omega

theorem replay_bytes_fails (failed : replayBytes crc32c bytes = .error error) :
    (∃ damage, error = .format damage) ∨ ∃ message, error = overflowError message := by
  simp only [replayBytes, replayReader, readUpTo] at failed
  split at failed
  next damage _ =>
    cases failed
    exact Or.inl ⟨damage, rfl⟩
  next header _ => exact Or.inr (replay_loop_overflow crc32c failed)

end Replay

/-- The outcomes of the I/O of `recover_journal`. No failure is of the kind
"not found": that one says that there is no journal. -/
structure RepairIo where
  opened : Option IoError
  reads : List ReadEvent
  setLen : Option IoError
  syncAll : Option IoError
  present : ∀ error, opened = some error ∨ .failed error ∈ reads ∨ setLen = some error ∨
    syncAll = some error → error.kind ≠ .notFound

/-- Every call succeeds, and one read takes the whole file. -/
def RepairIo.quiet : RepairIo := ⟨none, [], none, none, by simp⟩

def notFoundError : IoError := ⟨.notFound, some 2, "No such file or directory"⟩

section Repair
variable (crc32c : List UInt8 → UInt32)

def recoverJournal (journal : Option (List UInt8)) (io : RepairIo) :
    Except ReplayError ReplayOutcome × Option (List UInt8) :=
  match journal with
  | none => (.error (.io notFoundError), none)
  | some bytes =>
    match io.opened with
    | some error => (.error (.io error), some bytes)
    | none =>
      match replayReader crc32c ⟨bytes, io.reads⟩ with
      | .error error => (.error error, some bytes)
      | .ok outcome =>
        if outcome.stop = .cleanEof then (.ok outcome, some bytes)
        else match io.setLen with
          | some error => (.error (.io error), some bytes)
          | none =>
            match io.syncAll with
            | some error => (.error (.io error), some (bytes.take outcome.validBytes))
            | none => (.ok outcome, some (bytes.take outcome.validBytes))

/-- What `recover_journal` can do: read the valid records and cut off what is
behind them, refuse a damaged header, or fail without losing a valid record. -/
inductive RepairEnd (journal : Option (List UInt8)) :
    Except ReplayError ReplayOutcome × Option (List UInt8) → Prop where
  | missing (none : journal = none) : RepairEnd journal (.error (.io notFoundError), journal)
  | refused (bytes : List UInt8) (error : FormatError) (present : journal = some bytes)
      (unreadable : replayBytes crc32c bytes = .error (.format error)) :
      RepairEnd journal (.error (.format error), journal)
  | failed (error : IoError) (device : error.kind ≠ .notFound) :
      RepairEnd journal (.error (.io error), journal)
  | unsynced (bytes : List UInt8) (outcome : ReplayOutcome) (error : IoError)
      (device : error.kind ≠ .notFound) (present : journal = some bytes)
      (replayed : replayBytes crc32c bytes = .ok outcome) :
      RepairEnd journal (.error (.io error), some (bytes.take outcome.validBytes))
  | recovered (bytes : List UInt8) (outcome : ReplayOutcome) (present : journal = some bytes)
      (replayed : replayBytes crc32c bytes = .ok outcome) :
      RepairEnd journal (.ok outcome, some (bytes.take outcome.validBytes))

theorem recover_journal_end (journal : Option (List UInt8)) (io : RepairIo) :
    RepairEnd crc32c journal (recoverJournal crc32c journal io) := by
  unfold recoverJournal
  split
  next => exact RepairEnd.missing rfl
  next bytes =>
    split
    next error failed => exact RepairEnd.failed error (io.present error (Or.inl failed))
    next =>
      split
      next error failed =>
        rcases replay_schedule crc32c ⟨bytes, io.reads⟩ with same | ⟨cause, scheduled, stopped⟩
        · rw [same] at failed
          rcases replay_bytes_fails crc32c failed with ⟨damage, rfl⟩ | ⟨message, rfl⟩
          · exact RepairEnd.refused bytes damage rfl failed
          · exact RepairEnd.failed _ nofun
        · rw [stopped] at failed
          cases failed
          exact RepairEnd.failed cause (io.present cause (Or.inr (Or.inl scheduled)))
      next outcome finished =>
        have replayed := replay_reader_finished crc32c finished
        split
        next clean =>
          have whole := (replay_resumable crc32c replayed).clean clean
          have ended := RepairEnd.recovered bytes outcome rfl replayed
          rwa [whole, List.take_length] at ended
        next =>
          split
          next error failed =>
            exact RepairEnd.failed error (io.present error (Or.inr (Or.inr (Or.inl failed))))
          next =>
            split
            next error failed =>
              exact RepairEnd.unsynced bytes outcome error
                (io.present error (Or.inr (Or.inr (Or.inr failed)))) rfl replayed
            next => exact RepairEnd.recovered bytes outcome rfl replayed

/-- The I/O of a repair in which nothing fails; reads may still be short. -/
structure RepairIo.Clean (io : RepairIo) : Prop where
  opened : io.opened = none
  reads : ∀ error, .failed error ∉ io.reads
  setLen : io.setLen = none
  syncAll : io.syncAll = none

theorem recover_journal_clean (io : RepairIo)
    (clean : io.Clean) (replayed : replayBytes crc32c bytes = .ok outcome) :
    recoverJournal crc32c (some bytes) io = (.ok outcome, some (bytes.take outcome.validBytes)) := by
  have finished : replayReader crc32c ⟨bytes, io.reads⟩ = .ok outcome := by
    rcases replay_schedule crc32c ⟨bytes, io.reads⟩ with same | ⟨cause, scheduled, _⟩
    · rw [same, replayed]
    · exact absurd scheduled (clean.reads cause)
  simp only [recoverJournal, clean.opened, clean.setLen, clean.syncAll, finished]
  split
  next ended =>
    have whole := (replay_resumable crc32c replayed).clean ended
    rw [whole, List.take_length]
  next => rfl

end Repair

end Downpour.JournalRepair
