import Downpour.CompactionMerge
import Downpour.ReplayExact

/-!
What a compacted journal says, compared with the journal it replaces. The
replacement is read back with the same replay and the same `effective_state` as
any journal. Its length is below `2 ^ 64`, as that of every vector is.
-/

namespace Downpour.CompactionMeaning
open JournalFormat JournalReplay JournalState ReplayExact Compaction CompactionMerge

def Covered (blocks : List CompletedBlock) (byte : Nat) : Prop :=
  ∃ block ∈ blocks, block.Covers byte

/-- Two effective states that differ in how their covered bytes are cut into blocks. -/
structure SameMeaning (before after : EffectiveState) : Prop where
  length : after.effectiveLength = before.effectiveLength
  truncate : after.truncate = before.truncate
  identities : after.identities = before.identities
  seals : after.sealed = before.sealed
  covered : ∀ byte, Covered after.blocks byte ↔ Covered before.blocks byte

/-! The records of the replacement, read one group at a time. -/

theorem numbered_records (sequence : Nat) (records : List JournalRecord) :
    (numbered sequence records).map FramedRecord.record = records := by
  induction records generalizing sequence with
  | nil => rfl
  | cons record rest ih => rw [numbered, List.map_cons, ih]

theorem numbered_length (sequence : Nat) (records : List JournalRecord) :
    (numbered sequence records).length = records.length := by
  rw [← List.length_map (f := FramedRecord.record), numbered_records]

theorem numbered_contiguous (sequence : Nat) (representable : sequence + records.length < 2 ^ 64) :
    Contiguous sequence (numbered sequence records) := by
  induction records generalizing sequence with
  | nil => trivial
  | cons record rest ih =>
    rw [List.length_cons] at representable
    exact ⟨Nat.mod_eq_of_lt (by omega), ih (sequence + 1) (by omega)⟩

theorem apply_identities (state : EffectiveState) (identities : List (List UInt8))
    (recorded : frames.map FramedRecord.record = identities.map JournalRecord.identityUpdate) :
    applyRecords state frames = .ok { state with identities := state.identities ++ identities } := by
  induction frames generalizing state identities with
  | nil =>
    have none : identities = [] := by simpa using recorded.symm
    simp [applyRecords, none]
  | cons framed rest ih =>
    cases identities with
    | nil => simp at recorded
    | cons cbor others =>
      simp only [List.map_cons, List.cons.injEq] at recorded
      have tail := ih { state with identities := state.identities ++ [cbor] } others recorded.2
      rw [applyRecords, recorded.1, applyRecord]
      simpa using tail

def Recorded (total : Nat) (state : EffectiveState) : Prop :=
  state.effectiveLength = state.truncate.getD total

theorem applied_recorded (last : Bool) (state next : EffectiveState)
    (record : JournalRecord) (applied : Applied last state record next)
    (recorded : Recorded total state) : Recorded total next := by
  cases applied with
  | truncate newLength shorter => exact rfl
  | _ => exact recorded

theorem accepted_recorded (accepted : effectiveState header records = .ok state) :
    Recorded header.totalLength.toNat state := by
  obtain ⟨folded, applied, _, rfl⟩ := (effective_state_iff header records state).mp accepted
  exact apply_records_preserves _ (applied_recorded) _ folded records
    (show Recorded _ (initialState header) from rfl) applied

theorem apply_truncation (state : EffectiveState)
    (truncate : Option Nat) (unread : state.blocks = [] ∧ state.truncate = none)
    (shorter : truncate.getD state.effectiveLength ≤ state.effectiveLength)
    (bounded : state.effectiveLength < 2 ^ 64)
    (recorded : frames.map FramedRecord.record =
      truncate.toList.map fun newLength => JournalRecord.truncate (UInt64.ofNat newLength)) :
    applyRecords state frames =
      .ok { state with
        effectiveLength := truncate.getD state.effectiveLength
        truncate := truncate } := by
  cases truncate with
  | none =>
    have none : frames = [] := by simpa using recorded
    rw [none, applyRecords, Option.getD_none, ← unread.2]
  | some newLength =>
    obtain ⟨framed, rfl, same⟩ := List.map_eq_singleton_iff.mp recorded
    rw [Option.getD_some] at shorter
    have small : (UInt64.ofNat newLength).toNat = newLength :=
      Nat.mod_eq_of_lt (Nat.lt_of_le_of_lt shorter bounded)
    have applied := (apply_record_applied true state _ _).mpr
      (Applied.truncate (UInt64.ofNat newLength) (small.symm ▸ shorter))
    rw [applyRecords, same, List.isEmpty_nil, applied]
    simp [applyRecords, small, unread.1]

theorem apply_seal (state : EffectiveState) (digest : Option Digest)
    (unsealed : state.sealed = none)
    (recorded : frames.map FramedRecord.record = digest.toList.map JournalRecord.sealed) :
    applyRecords state frames = .ok { state with «sealed» := digest } := by
  cases digest with
  | none =>
    have none : frames = [] := by simpa using recorded
    simp [applyRecords, none, ← unsealed]
  | some finalBlake3 =>
    obtain ⟨framed, rfl, same⟩ := List.map_eq_singleton_iff.mp recorded
    have applied := (apply_record_applied true state _ _).mpr
      (Applied.finish finalBlake3 unsealed rfl)
    rw [applyRecords, same, List.isEmpty_nil, applied]
    rfl

theorem apply_compacted (state : EffectiveState)
    (merged : List CompletedBlock) (covered wallClock : UInt64) (frames : List FramedRecord)
    (listed : frames.map FramedRecord.record = semanticRecords state merged covered wallClock)
    (recorded : Recorded header.totalLength.toNat state)
    (shorter : state.effectiveLength ≤ header.totalLength.toNat)
    (fits : ∀ block ∈ merged, Fits state.effectiveLength block) :
    applyRecords (initialState header) frames = .ok { state with blocks := merged } := by
  have bounded : header.totalLength.toNat < 2 ^ 64 := header.totalLength.toNat_lt
  have length : state.truncate.getD header.totalLength.toNat = state.effectiveLength :=
    recorded.symm
  obtain ⟨identities, afterIdentities, rfl, identityRecords, listed⟩ :=
    List.map_eq_append_iff.mp listed
  obtain ⟨truncates, afterTruncates, rfl, truncateRecords, listed⟩ :=
    List.map_eq_append_iff.mp listed
  obtain ⟨checkpoint, afterCheckpoint, rfl, checkpointRecord, listed⟩ :=
    List.map_eq_cons_iff.mp listed
  obtain ⟨blocks, seals, rfl, blockRecords, sealRecords⟩ := List.map_eq_append_iff.mp listed
  have identified := apply_identities (initialState header) _ identityRecords
  have truncated := apply_truncation { initialState header with identities := state.identities }
    state.truncate ⟨rfl, rfl⟩ (length.trans_le shorter) bounded truncateRecords
  have filled := apply_blocks { state with blocks := [], «sealed» := none }
    (Nat.lt_of_le_of_lt shorter bounded) blockRecords fits
  have closed := apply_seal { state with blocks := merged, «sealed» := none } _ rfl sealRecords
  -- The checkpoint changes nothing, so the blocks are read in the state before it.
  have middle : applyRecords
      { initialState header with
        identities := state.identities
        effectiveLength := state.truncate.getD header.totalLength.toNat
        truncate := state.truncate } (checkpoint :: (blocks ++ seals)) =
      applyRecords { state with blocks := [], «sealed» := none } (blocks ++ seals) := by
    rw [applyRecords, checkpointRecord, applyRecord, length]
    rfl
  rw [apply_records_append _ identified rfl]
  refine (apply_records_append _ truncated rfl).trans ?_
  refine middle.trans ?_
  rw [apply_records_append _ filled rfl]
  exact closed

section Encoding
variable (crc32c : List UInt8 → UInt32) (blake3 : List UInt8 → Digest) (content : List UInt8)

theorem encode_all_framed (bytes : List UInt8)
    (encoded : encodeAll crc32c frames = .ok bytes) : Framed crc32c frames bytes := by
  induction frames generalizing bytes with
  | nil =>
    cases encoded
    exact Framed.nil
  | cons frame rest ih =>
    simp only [encodeAll] at encoded
    cases written : frame.encode crc32c with
    | error error => simp [written] at encoded
    | ok first =>
      cases tail : encodeAll crc32c rest with
      | error error => simp [written, tail, Except.map] at encoded
      | ok others =>
        simp only [written, tail, Except.map, Except.ok.injEq] at encoded
        rw [← encoded]
        exact Framed.cons frame rest first others written (ih others tail)

variable {merged : List CompletedBlock}

theorem replacement_journal
    (encoded : encodeReplacement crc32c header state merged wallClock = .ok replacement)
    (representable : replacement.length < 2 ^ 64) :
    ∃ covered, Journal crc32c header
        (numbered 0 (semanticRecords state merged covered wallClock)) replacement := by
  unfold encodeReplacement at encoded
  split at encoded
  next => cases encoded
  next covered _ =>
    simp only at encoded
    cases written : encodeAll crc32c
        (numbered 0 (semanticRecords state merged (UInt64.ofNat covered) wallClock)) with
    | error error => simp [written, Except.map] at encoded
    | ok framed =>
      simp only [written, Except.map, Except.ok.injEq] at encoded
      subst encoded
      have frames := encode_all_framed crc32c framed written
      have counted := framed_count crc32c frames
      rw [numbered_length] at counted
      rw [List.length_append] at representable
      exact ⟨UInt64.ofNat covered, numbered_contiguous 0 (by omega), framed, frames, rfl⟩

theorem journal_replays
    (valid : Journal crc32c header records journal) (representable : journal.length < 2 ^ 64) :
    replayBytes crc32c journal = .ok ⟨header, records, journal.length, .cleanEof⟩ := by
  have front := journal_front crc32c [] valid representable
  rw [List.append_nil] at front
  rw [front, replayLoop]
  simp [readUpTo]

theorem merged_fits (accepted : Accepted state) (finished : Merged blake3 content merged)
    (same : ∀ byte, Covered merged byte ↔ Covered state.blocks byte) :
    ∀ block ∈ merged, Fits state.effectiveLength block := by
  intro block mem
  have positive := (finished.sized block mem).1
  have width : block.stop = block.start + block.len.toNat := rfl
  -- The last byte of the record lies in an accepted block.
  obtain ⟨original, found, covers⟩ := (same (block.stop - 1)).mp
    ⟨block, mem, by omega, by omega⟩
  have inside := (accepted.fits original found).inside
  have below := covers.2
  exact ⟨positive, by omega⟩

theorem ordered_apart {blocks : List CompletedBlock}
    (ordered : blocks.Pairwise fun left right => left.stop ≤ right.start) :
    blocks.Pairwise CompletedBlock.Apart := ordered.imp Or.inl

theorem ordered_sorted {blocks : List CompletedBlock}
    (ordered : blocks.Pairwise fun left right => left.stop ≤ right.start) :
    blocks.insertionSort CompletedBlock.Earlier = blocks := by
  apply List.Pairwise.insertionSort_eq
  exact ordered.imp fun {left right} before => (Nat.le_add_right left.start _).trans before

theorem compacted_read (header : FileHeader) (records : List FramedRecord) (state : EffectiveState)
    (wallClock : UInt64) (replacement : List UInt8)
    (accepted : effectiveState header records = .ok state)
    (verified : verifyAndMerge blake3 content io state.blocks = .ok merged)
    (encoded : encodeReplacement crc32c header state merged wallClock = .ok replacement)
    (representable : replacement.length < 2 ^ 64) :
    ∃ frames, replayBytes crc32c replacement =
        .ok ⟨header, frames, replacement.length, .cleanEof⟩ ∧ Contiguous 0 frames ∧
      applyRecords (initialState header) frames = .ok { state with blocks := merged } ∧
      effectiveState header frames = .ok { state with blocks := merged } := by
  have sound := effective_state_accepted accepted
  obtain ⟨finished, _, same⟩ :=
    verify_and_merge_merged blake3 content sound verified
  obtain ⟨covered, journal⟩ :=
    replacement_journal crc32c encoded representable
  have applied := apply_compacted state merged covered wallClock _ (numbered_records 0 _)
    (accepted_recorded accepted)
    (effective_length_le accepted)
    (merged_fits blake3 content sound finished same)
  have read := effective_state_disjoint applied (ordered_apart finished.ordered)
  simp only [ordered_sorted finished.ordered] at read
  exact ⟨_, journal_replays crc32c journal representable, journal.numbered, applied, read⟩

/-- Compaction changes how the covered bytes are cut into records and nothing
else, and it succeeds only if the part file holds every block it covers. -/
theorem compaction_preserves_meaning (header : FileHeader) (records : List FramedRecord)
    (state : EffectiveState) (io : PartIo) (merged : List CompletedBlock) (wallClock : UInt64)
    (replacement : List UInt8) (accepted : effectiveState header records = .ok state)
    (verified : verifyAndMerge blake3 content io state.blocks = .ok merged)
    (encoded : encodeReplacement crc32c header state merged wallClock = .ok replacement)
    (representable : replacement.length < 2 ^ 64) :
    ∃ frames after,
      replayBytes crc32c replacement = .ok ⟨header, frames, replacement.length, .cleanEof⟩ ∧
      Contiguous 0 frames ∧ effectiveState header frames = .ok after ∧ SameMeaning state after ∧
      after.blocks = merged ∧ Merged blake3 content merged ∧
      ∀ block ∈ state.blocks, Verified blake3 content block := by
  have sound := effective_state_accepted accepted
  obtain ⟨finished, held, same⟩ :=
    verify_and_merge_merged blake3 content sound verified
  obtain ⟨frames, replayed, ordered, _, read⟩ := compacted_read crc32c blake3 content header records
    state wallClock replacement accepted verified encoded representable
  exact ⟨frames, _, replayed, ordered, read, ⟨rfl, rfl, rfl, rfl, same⟩, rfl, finished, held⟩

end Encoding

/-! Two adjacent blocks in front of a Truncate, under a digest that shows the first byte. -/

def firstByteDigest (bytes : List UInt8) : Digest := List.Vector.replicate 32 (bytes.headD 0)

def quietIo : PartIo := ⟨none, fun _ => none, fun _ => none⟩

def smallBlocks : List CompletedBlock :=
  [⟨0, 2, firstByteDigest [7, 8]⟩, ⟨2, 1, firstByteDigest [9]⟩]

def smallRecords : List FramedRecord :=
  numbered 0 (smallBlocks.map CompletedBlock.asRecord ++ [.truncate 5])

def smallMerged : List CompletedBlock := [⟨0, 3, firstByteDigest [7, 8, 9]⟩]

theorem small_blocks_merge :
    verifyAndMerge firstByteDigest [7, 8, 9] quietIo smallBlocks = .ok smallMerged := by
  simp [verifyAndMerge, smallBlocks, smallMerged, mergeBlocks, quietIo, readBlock, readExact,
    feedMerge, closeGap, hashBufferLen, maxRecordLen, freshBuilder, CompletedBlock.start,
    finishMerge, Except.map, recordOf]

set_option maxRecDepth 8000 in
theorem compaction_preserves_meaning_small : ∃ replacement frames after,
    encodeReplacement zeroChecksum smallHeader ⟨5, some 5, [], smallBlocks, none⟩ smallMerged 0 =
      .ok replacement ∧
    replayBytes zeroChecksum replacement =
      .ok ⟨smallHeader, frames, replacement.length, .cleanEof⟩ ∧
    effectiveState smallHeader frames = .ok after ∧ after.blocks = smallMerged := by
  obtain ⟨frames, after, replayed, _, read, _, blocks, _⟩ :=
    compaction_preserves_meaning zeroChecksum firstByteDigest [7, 8, 9] smallHeader smallRecords
      ⟨5, some 5, [], smallBlocks, none⟩ quietIo smallMerged 0 _ (by decide) small_blocks_merge rfl
      (by decide)
  exact ⟨_, frames, after, rfl, replayed, read, blocks⟩

end Downpour.CompactionMeaning
