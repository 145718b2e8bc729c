import Downpour.WriterCrash
import Downpour.WriterJournal

/-!
From a fresh journal the writer and the reader agree: at every moment the synced
journal replays, folds into disjoint blocks inside the file, and covers every
byte the in-memory map calls complete.
-/

namespace Downpour.WriterRecovery
open Intervals JournalFormat JournalReplay JournalState CrashDisk Writer WriterCrash WriterJournal

def freshStart (crc32c : List UInt8 → UInt32) (header : FileHeader) : Start where
  log := header.encode crc32c
  records := 0
  length := header.totalLength.toNat
  complete _ := False
  completeBytes := 0
  bounded := header.totalLength.toNat_lt

section Fresh
variable (crc32c : List UInt8 → UInt32) (header : FileHeader)

structure Recovered (durable : List UInt8) (state : EffectiveState) : Prop where
  replayed : ∃ outcome, replayBytes crc32c durable = .ok outcome ∧ outcome.header = header ∧
    outcome.stop = .cleanEof ∧ Contiguous 0 outcome.records ∧
    effectiveState header outcome.records = .ok state
  apart : state.blocks.Pairwise CompletedBlock.Apart
  inside : ∀ block ∈ state.blocks, block.stop ≤ header.totalLength.toNat

theorem journal_recovered
    (holds : JournalHolds crc32c (freshStart crc32c header) durable frames bytes blocks) :
    ∃ state, Recovered crc32c header durable state ∧
      ∀ block, block ∈ state.blocks ↔ block ∈ blocks := by
  have bytesFit : headerLen + bytes.length < 2 ^ 64 := by
    rw [← header_length crc32c header]
    rcases holds.short with none | short
    · rw [none, header_length]
      decide
    · exact short.trans_lt (by decide)
  have replayed := replay_whole crc32c header holds.framed holds.ordered
    bytesFit
    (by simpa [freshStart] using holds.counted)
  have applied := apply_blocks (initialState header) header.totalLength.toNat_lt
    holds.recorded holds.fits
  have accepted := effective_state_disjoint applied
    (by simpa [initialState] using holds.apart)
  have sound := effective_state_accepted accepted
  have content : durable = header.encode crc32c ++ bytes := holds.content
  rw [← content] at replayed
  refine ⟨_, ⟨⟨_, replayed, rfl, rfl, holds.ordered, accepted⟩, ?_, ?_⟩, ?_⟩
  · exact sound.ordered.imp Or.inl
  · intro block mem
    exact (sound.fits block mem).inside
  · intro block
    simp [initialState]

end Fresh

theorem fresh_agrees (crc32c : List UInt8 → UInt32)
    (started : tryNew dataLength header.totalLength.toNat headerLen 0 = .ok writer)
    (visible : Nat → UInt8) (surviving : Nat → Set UInt8) :
    SessionAgrees crc32c (freshStart crc32c header) (freshDisk crc32c header visible surviving)
      (freshSession writer (.new header.totalLength.toNat)) := by
  have pending : ∀ pos, (IntervalMap.new header.totalLength.toNat).stateAt pos ≠
      some .complete := by
    intro pos
    rw [IntervalMap.new_state]
    split <;> simp
  have none : (IntervalMap.new header.totalLength.toNat).completeBytes = 0 := by
    simp [IntervalMap.completeBytes, pending]
  have sized := header_length crc32c header
  apply start_agrees
  · rw [freshStart, sized]
    exact started
  · rfl
  · intro pos
    exact ⟨fun held => pending pos held, False.elim⟩
  · exact none.symm
  · rfl
  · rfl
  · exact Nat.two_pow_pos 64

/-- After any calls the synced journal recovers to disjoint blocks that cover
the complete bytes of the map, and inside the next call it still does. As long
as no flush failed the blocks cover nothing else and `durableBytes` counts them. -/
theorem synced_journal_agrees (blake3 : List UInt8 → Digest) (crc32c : List UInt8 → UInt32)
    (header : FileHeader) (dataLength : Nat) (writer : DurableWriter)
    (started : tryNew dataLength header.totalLength.toNat headerLen 0 = .ok writer)
    (visible : Nat → UInt8) (surviving : Nat → Set UInt8) (calls : List Call) (session : Session)
    (ran : session = (freshSession writer (.new header.totalLength.toNat)).calls blake3 crc32c calls)
    (disk : Disk UInt8)
    (stored : disk = (freshDisk crc32c header visible surviving).run session.trace) :
    (∃ state, Recovered crc32c header disk.durableLog state ∧
      (∀ pos, session.intervals.stateAt pos = some .complete →
        ∃ block ∈ state.blocks, block.Covers pos) ∧
      (session.flushFailed = false →
        (∀ pos, (∃ block ∈ state.blocks, block.Covers pos) →
          session.intervals.stateAt pos = some .complete) ∧
        session.writer.durableBytes = session.intervals.completeBytes)) ∧
    ∀ (call : Call) (events : List (Event UInt8)) (moment : Disk UInt8),
      (session.call blake3 crc32c call).trace = session.trace ++ events →
      CrashPoint disk events moment →
      ∃ state, Recovered crc32c header moment.durableLog state ∧
        ∀ pos, session.intervals.stateAt pos = some .complete →
          ∃ block ∈ state.blocks, block.Covers pos := by
  have agrees : SessionAgrees crc32c (freshStart crc32c header) (freshDisk crc32c header visible surviving) session := by
    rw [ran]
    exact calls_agree blake3 _ calls (fresh_agrees crc32c started visible surviving)
  constructor
  · obtain ⟨frames, bytes, blocks, agreement⟩ := agrees
    rw [← stored] at agreement
    obtain ⟨state, recovered, same⟩ := journal_recovered crc32c header
      agreement.journal
    refine ⟨state, recovered, ?_, ?_⟩
    · intro pos held
      rcases agreement.covered pos held with before | ⟨block, mem, covers⟩
      · exact before.elim
      · exact ⟨block, (same block).mpr mem, covers⟩
    · intro succeeded
      obtain ⟨recorded, counted⟩ := agreement.exact (Or.inr succeeded)
      refine ⟨?_, counted⟩
      rintro pos ⟨block, mem, covers⟩
      exact recorded block ((same block).mp mem) pos covers
  · intro call events moment during point
    obtain ⟨happened, extended, throughout⟩ := (call_agrees blake3 call agrees).inside
    rw [during, List.append_cancel_left_eq] at extended
    rw [← stored, ← extended] at throughout
    obtain ⟨frames, bytes, blocks, journal, covered⟩ :=
      throughout_crash _ _ moment events throughout point
    obtain ⟨state, recovered, same⟩ := journal_recovered crc32c header journal
    refine ⟨state, recovered, ?_⟩
    intro pos held
    rcases covered pos held with before | ⟨block, mem, covers⟩
    · exact before.elim
    · exact ⟨block, (same block).mpr mem, covers⟩

def oneByteSession : Session :=
  (freshSession oneByteWriter (.new 1)).calls zeroDigest zeroChecksum oneByteCalls

theorem one_byte_agrees : ∃ state, Recovered zeroChecksum oneByteHeader oneByteDisk.durableLog state ∧
    (∀ pos, oneByteSession.intervals.stateAt pos = some .complete →
      ∃ block ∈ state.blocks, block.Covers pos) ∧
    (oneByteSession.flushFailed = false →
      (∀ pos, (∃ block ∈ state.blocks, block.Covers pos) →
        oneByteSession.intervals.stateAt pos = some .complete) ∧
      oneByteSession.writer.durableBytes = oneByteSession.intervals.completeBytes) :=
  (synced_journal_agrees zeroDigest zeroChecksum oneByteHeader 1 oneByteWriter rfl (fun _ => 0)
    (fun _ => {0}) oneByteCalls oneByteSession rfl oneByteDisk rfl).1

example : oneByteSession.flushFailed = false ∧ oneByteSession.writer.durableBytes = 1 := by
  constructor <;> rfl

end Downpour.WriterRecovery
