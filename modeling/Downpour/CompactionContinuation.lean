import Downpour.CompactionMeaning

/-!
A compacted journal that goes on being written, compared with the journal it
replaced. `effective_state` does not read sequence numbers, so the same frames
stand behind both. A run of covered bytes is cut every `u32::MAX` bytes from its
start, wherever the blocks of the original ended: a later Truncate between such
a cut and the end of the block around it keeps bytes it would have discarded.
-/

namespace Downpour.CompactionContinuation
open JournalFormat JournalReplay JournalState ReplayExact Compaction CompactionMerge
open CompactionMeaning

/-! Blocks under a shrinking length. -/

def retained (length : Nat) (blocks : List CompletedBlock) : List CompletedBlock :=
  blocks.filter fun block => decide (block.stop < 2 ^ 64) && decide (block.stop ≤ length)

variable {length : Nat} {state : EffectiveState}

theorem mem_retained (bounded : length < 2 ^ 64) (blocks : List CompletedBlock)
    (block : CompletedBlock) :
    block ∈ retained length blocks ↔ block ∈ blocks ∧ block.stop ≤ length := by
  simp only [retained, List.mem_filter, Bool.and_eq_true, decide_eq_true_eq]
  constructor
  · rintro ⟨mem, _, inside⟩
    exact ⟨mem, inside⟩
  · rintro ⟨mem, inside⟩
    exact ⟨mem, Nat.lt_of_le_of_lt inside bounded, inside⟩

theorem retained_shorter (shrinks : shorter ≤ length) (blocks : List CompletedBlock) :
    retained shorter (retained length blocks) = retained shorter blocks := by
  rw [retained, retained, List.filter_filter, retained]
  congr 1
  funext block
  by_cases inside : block.stop ≤ shorter
  · simp [inside, inside.trans shrinks]
  · simp [inside]

theorem retained_append (length : Nat) (left right : List CompletedBlock) :
    retained length (left ++ right) = retained length left ++ retained length right :=
  List.filter_append ..

theorem retained_all (bounded : length < 2 ^ 64)
    (fits : ∀ block ∈ blocks, Fits length block) : retained length blocks = blocks := by
  rw [retained, List.filter_eq_self]
  intro block mem
  have inside := (fits block mem).inside
  simp only [Bool.and_eq_true, decide_eq_true_eq]
  exact ⟨Nat.lt_of_le_of_lt inside bounded, inside⟩

theorem applied_elsewhere (stands : state.blocks = retained state.effectiveLength old ++ new)
    (applied : Applied last state record next) :
    ∃ later, next.blocks = retained next.effectiveLength old ++ later ∧
      ∀ other, Applied last { state with blocks := retained state.effectiveLength other ++ new }
        record { next with blocks := retained next.effectiveLength other ++ later } := by
  -- What one record does to blocks recorded earlier and to blocks recorded since: whichever blocks
  -- stood before, the same new blocks stand behind those it retains.
  cases applied with
  | block offset len blake3 fits representable =>
    refine ⟨new ++ [⟨offset, len, blake3⟩], ?_, fun other => ?_⟩
    · simp only [stands, List.append_assoc]
    · rw [← List.append_assoc]
      exact Applied.block offset len blake3 fits representable
  | checkpoint coveredBytes wallClock =>
    exact ⟨new, stands, fun other => Applied.checkpoint coveredBytes wallClock⟩
  | identity cbor => exact ⟨new, stands, fun other => Applied.identity cbor⟩
  | truncate newLength shorter =>
    have twice : ∀ other, retained newLength.toNat (retained state.effectiveLength other ++ new) =
        retained newLength.toNat other ++ retained newLength.toNat new := by
      intro other
      rw [retained_append, retained_shorter shorter]
    refine ⟨retained newLength.toNat new, ?_, fun other => ?_⟩
    · rw [← twice old, ← stands]
      rfl
    · rw [← twice other]
      exact Applied.truncate newLength shorter
  | finish finalBlake3 unsealed final =>
    exact ⟨new, stands, fun other => Applied.finish finalBlake3 unsealed final⟩

theorem apply_records_elsewhere (stands : state.blocks = retained state.effectiveLength old ++ new)
    (applied : applyRecords state records = .ok final) :
    ∃ later, final.blocks = retained final.effectiveLength old ++ later ∧
      ∀ other, applyRecords { state with blocks := retained state.effectiveLength other ++ new }
        records = .ok { final with blocks := retained final.effectiveLength other ++ later } := by
  induction records generalizing state new with
  | nil =>
    cases applied
    exact ⟨new, stands, fun other => rfl⟩
  | cons framed rest ih =>
    simp only [applyRecords] at applied
    split at applied
    · cases applied
    next next first =>
      obtain ⟨middle, standing, elsewhere⟩ := applied_elsewhere stands
        ((apply_record_applied _ state next _).mp first)
      obtain ⟨later, standing', others⟩ := ih standing applied
      refine ⟨later, standing', fun other => ?_⟩
      rw [applyRecords, (apply_record_applied _ _ _ _).mpr (elsewhere other)]
      exact others other

def lengthAfter : Nat → List FramedRecord → Nat
  | length, [] => length
  | length, framed :: rest =>
    match framed.record with
    | .truncate newLength => lengthAfter (min length newLength.toNat) rest
    | _ => lengthAfter length rest

theorem apply_records_length (applied : applyRecords state records = .ok final) :
    final.effectiveLength = lengthAfter state.effectiveLength records := by
  induction records generalizing state with
  | nil =>
    cases applied
    rfl
  | cons framed rest ih =>
    simp only [applyRecords] at applied
    split at applied
    · cases applied
    next next first =>
      rw [ih applied]
      obtain ⟨sequence, record⟩ := framed
      cases (apply_record_applied _ state next record).mp first with
      | truncate newLength shorter => simp only [lengthAfter, Nat.min_eq_right shorter]
      | _ => rfl

/-! Where a run of covered bytes is cut. -/

/-- The covered bytes from `start` on, up to and with `pos`; the byte before
`start` is not covered. -/
structure Run (blocks : List CompletedBlock) (start pos : Nat) : Prop where
  reaches : start ≤ pos
  covered : ∀ byte, start ≤ byte → byte ≤ pos → Covered blocks byte
  first : start = 0 ∨ ¬ Covered blocks (start - 1)

/-- A cut of the merge inside a run: whole records of the greatest length behind its start. -/
def Cut (blocks : List CompletedBlock) (boundary : Nat) : Prop :=
  ∃ start count, 0 < count ∧ boundary = start + count * maxRecordLen ∧ Run blocks start boundary

def Severed (blocks : List CompletedBlock) (length : Nat) : Prop :=
  ∃ block ∈ blocks, ∃ boundary, Cut blocks boundary ∧ block.start < boundary ∧
    boundary ≤ length ∧ length < block.stop

theorem run_congr {left right : List CompletedBlock}
    (same : ∀ byte, Covered left byte ↔ Covered right byte) {start pos : Nat}
    (run : Run left start pos) : Run right start pos where
  reaches := run.reaches
  covered byte after before := (same byte).mp (run.covered byte after before)
  first := run.first.imp_right fun outside inside => outside ((same _).mpr inside)

theorem cut_congr (same : ∀ byte, Covered left byte ↔ Covered right byte)
    (cut : Cut left boundary) : Cut right boundary := by
  obtain ⟨start, count, positive, placed, run⟩ := cut
  exact ⟨start, count, positive, placed, run_congr same run⟩

instance : Std.Symm CompletedBlock.Apart := ⟨fun _ _ disjoint => disjoint.symm⟩

theorem apart_unique {blocks : List CompletedBlock} (apart : blocks.Pairwise CompletedBlock.Apart)
    {left right : CompletedBlock} (leftMember : left ∈ blocks) (rightMember : right ∈ blocks)
    {byte : Nat} (leftCovers : left.Covers byte) (rightCovers : right.Covers byte) :
    left = right := by
  by_contra different
  have leftStart := leftCovers.1
  have leftStop := leftCovers.2
  have rightStart := rightCovers.1
  have rightStop := rightCovers.2
  rcases apart.forall leftMember rightMember different with before | after
  · omega
  · omega

def Straddles (merged blocks : List CompletedBlock) (length : Nat) : Prop :=
  ∃ record ∈ merged, ∃ block ∈ blocks, ∃ byte,
    record.Covers byte ∧ block.Covers byte ∧ record.stop ≤ length ∧ length < block.stop

section Merging
variable (blake3 : List UInt8 → Digest) (content : List UInt8) (merged : List CompletedBlock)

theorem next_starts (finished : Merged blake3 content merged)
    (leftMember : left ∈ merged) (rightMember : right ∈ merged) (covers : right.Covers left.stop) :
    left.stop = right.start := by
  have after := covers.1
  have before := covers.2
  have width : left.start ≤ left.stop := Nat.le_add_right _ _
  by_cases same : left = right
  · subst same
    exact absurd before (Nat.lt_irrefl _)
  · rcases (ordered_apart finished.ordered).forall leftMember rightMember same with
      first | second
    · omega
    · omega

theorem touching_full (finished : Merged blake3 content merged)
    (leftMember : left ∈ merged) (rightMember : right ∈ merged) (touching : left.stop = right.start) :
    left.len.toNat = maxRecordLen := by
  -- A record that another one touches is full: the two are neighbours in the list.
  obtain ⟨ordered, sized, -, maximal⟩ := finished
  have wide : ∀ record ∈ merged, record.start < record.stop := by
    intro record mem
    have positive := (sized record mem).1
    have width : record.stop = record.start + record.len.toNat := rfl
    omega
  clear sized
  induction merged with
  | nil => exact absurd leftMember List.not_mem_nil
  | cons first rest ih =>
    obtain ⟨before, restOrdered⟩ := List.pairwise_cons.mp ordered
    have firstWide := wide first List.mem_cons_self
    have restWide := fun record mem => wide record (List.mem_cons_of_mem first mem)
    rcases List.mem_cons.mp rightMember with rfl | rightLater
    · -- Nothing stands in front of the first record.
      rcases List.mem_cons.mp leftMember with rfl | leftLater
      · omega
      · have behind := before left leftLater
        have leftWide := restWide left leftLater
        omega
    · rcases List.mem_cons.mp leftMember with rfl | leftLater
      · cases rest with
        | nil => exact absurd rightLater List.not_mem_nil
        | cons second others =>
          rcases List.mem_cons.mp rightLater with rfl | rightFar
          · exact (List.isChain_cons_cons.mp maximal).1 touching
          · have near := before second List.mem_cons_self
            have far := (List.pairwise_cons.mp restOrdered).1 right rightFar
            have secondWide := restWide second List.mem_cons_self
            omega
      · exact ih leftLater rightLater restOrdered maximal.tail restWide

theorem record_cut (finished : Merged blake3 content merged)
    (mem : record ∈ merged) (onward : Covered merged record.stop) : Cut merged record.stop := by
  induction placed : record.start using Nat.strong_induction_on generalizing record with
  | _ pos ih =>
    obtain ⟨next, nextMember, nextCovers⟩ := onward
    have full := touching_full blake3 content merged finished mem nextMember
      (next_starts blake3 content merged finished mem nextMember nextCovers)
    have width : record.stop = record.start + record.len.toNat := rfl
    have inside : ∀ byte, record.start ≤ byte → byte ≤ record.stop → Covered merged byte := by
      intro byte after before
      by_cases last : byte = record.stop
      · rw [last]
        exact ⟨next, nextMember, nextCovers⟩
      · exact ⟨record, mem, after, by omega⟩
    by_cases first : record.start = 0 ∨ ¬ Covered merged (record.start - 1)
    · exact ⟨record.start, 1, Nat.one_pos, by omega, ⟨by omega, inside, first⟩⟩
    · -- The record before it touches it, so the run is older.
      rw [not_or, not_not] at first
      obtain ⟨positive, previous, previousMember, previousCovers⟩ := first
      have after := previousCovers.1
      have before := previousCovers.2
      have recordPositive := (finished.sized record mem).1
      have different : previous ≠ record := by
        rintro rfl
        omega
      have joint : previous.stop = record.start := by
        rcases (ordered_apart finished.ordered).forall previousMember mem different with
          early | late
        · omega
        · omega
      have start : previous.start < pos := by omega
      obtain ⟨origin, count, counted, placed, run⟩ := ih previous.start start
        previousMember ⟨record, mem, by omega, by omega⟩ rfl
      refine ⟨origin, count + 1, Nat.succ_pos count, ?_, ?_, ?_, run.first⟩
      · rw [Nat.add_mul, Nat.one_mul]
        omega
      · have reaches := run.reaches
        omega
      · intro byte afterOrigin beforeStop
        by_cases early : byte ≤ previous.stop
        · exact run.covered byte afterOrigin early
        · exact inside byte (by omega) beforeStop

theorem multiple_starts (finished : Merged blake3 content merged)
    (run : Run merged start (start + count * maxRecordLen)) :
    ∃ record ∈ merged, record.start = start + count * maxRecordLen ∧
      (0 < count → ∃ previous ∈ merged, previous.stop = start + count * maxRecordLen) := by
  induction count with
  | zero =>
    obtain ⟨record, mem, covers⟩ := run.covered start le_rfl (Nat.le_add_right _ _)
    have after := covers.1
    refine ⟨record, mem, ?_, fun positive => absurd positive (Nat.lt_irrefl 0)⟩
    rw [Nat.zero_mul, Nat.add_zero]
    by_contra earlier
    rcases run.first with zero | outside
    · omega
    · have before := covers.2
      exact outside ⟨record, mem, by omega, by omega⟩
  | succ count ih =>
    have grows : (count + 1) * maxRecordLen = count * maxRecordLen + maxRecordLen :=
      Nat.succ_mul count maxRecordLen
    have shorter : Run merged start (start + count * maxRecordLen) :=
      ⟨Nat.le_add_right _ _, fun byte after before => run.covered byte after (by omega), run.first⟩
    obtain ⟨previous, previousMember, placed, _⟩ := ih shorter
    have width : previous.stop = previous.start + previous.len.toNat := rfl
    have sized := finished.sized previous previousMember
    obtain ⟨next, nextMember, nextCovers⟩ := run.covered previous.stop (by omega) (by omega)
    have joint := next_starts blake3 content merged finished previousMember
      nextMember nextCovers
    have full := touching_full blake3 content merged finished previousMember
      nextMember joint
    exact ⟨next, nextMember, by omega, fun _ => ⟨previous, previousMember, by omega⟩⟩

theorem severed_iff (finished : Merged blake3 content merged)
    (same : ∀ byte, Covered merged byte ↔ Covered blocks byte) (length : Nat) :
    Severed blocks length ↔ Straddles merged blocks length := by
  constructor
  · rintro ⟨block, mem, boundary, cut, inside, early, late⟩
    obtain ⟨start, count, positive, rfl, run⟩ :=
      cut_congr (fun byte => (same byte).symm) cut
    obtain ⟨_, _, _, ends⟩ := multiple_starts blake3 content merged finished run
    obtain ⟨record, found, stop⟩ := ends positive
    have sized := finished.sized record found
    have width : record.stop = record.start + record.len.toNat := rfl
    exact ⟨record, found, block, mem, record.stop - 1, ⟨by omega, by omega⟩,
      ⟨by omega, by omega⟩, by omega, late⟩
  · rintro ⟨record, found, block, mem, byte, recordCovers, blockCovers, early, late⟩
    have before := recordCovers.2
    have after := blockCovers.1
    have onward : Covered merged record.stop :=
      (same record.stop).mpr ⟨block, mem, by omega, by omega⟩
    have cut := record_cut blake3 content merged finished found onward
    exact ⟨block, mem, record.stop, cut_congr same cut, by omega, early, late⟩

end Merging

/-! Two journals under one continuation. -/

theorem apply_records_after (applied : applyRecords state left = .ok middle)
    (unsealed : state.sealed = none) (accepted : applyRecords state (left ++ right) = .ok final) :
    applyRecords middle right = .ok final ∧ (right = [] ∨ middle.sealed = none) := by
  by_cases done : right = []
  · rw [done, List.append_nil, applied] at accepted
    rw [done]
    exact ⟨accepted, Or.inl rfl⟩
  · by_cases unsealedMiddle : middle.sealed = none
    · rw [apply_records_append _ applied unsealedMiddle] at accepted
      exact ⟨accepted, Or.inr unsealedMiddle⟩
    · obtain ⟨error, failed⟩ := apply_records_sealed applied unsealed
        unsealedMiddle done
      rw [failed] at accepted
      cases accepted

theorem covered_sorted (blocks : List CompletedBlock) (byte : Nat) :
    Covered (blocks.insertionSort CompletedBlock.Earlier) byte ↔ Covered blocks byte := by
  simp only [Covered, List.mem_insertionSort]

theorem covered_append (left right : List CompletedBlock) (byte : Nat) :
    Covered (left ++ right) byte ↔ Covered left byte ∨ Covered right byte := by
  simp only [Covered, List.mem_append, or_and_right, exists_or]

/-- The records `continuation` behind `compacted` are accepted, say the same as in
`final`, and cover no byte that `final` does not cover. -/
structure SafeBehind (header : FileHeader) (compacted continuation : List FramedRecord)
    (final after : EffectiveState) : Prop where
  accepted : effectiveState header (compacted ++ continuation) = .ok after
  length : after.effectiveLength = final.effectiveLength
  identities : after.identities = final.identities
  seals : after.sealed = final.sealed
  covered : ∀ byte, Covered after.blocks byte → Covered final.blocks byte

theorem overlap_byte {left : CompletedBlock} (leftWide : left.start < left.stop)
    (rightWide : right.start < right.stop) (overlaps : ¬ left.Apart right) :
    ∃ byte, left.Covers byte ∧ right.Covers byte := by
  simp only [CompletedBlock.Apart, not_or, Nat.not_le] at overlaps
  exact ⟨max left.start right.start, ⟨le_max_left _ _, max_lt leftWide overlaps.1⟩,
    ⟨le_max_right _ _, max_lt overlaps.2 rightWide⟩⟩

section Retained
variable (merged blocks later : List CompletedBlock) (length : Nat) (bounded : length < 2 ^ 64)
  (same : ∀ byte, Covered merged byte ↔ Covered blocks byte)
  (apart : (retained length blocks ++ later).Pairwise CompletedBlock.Apart)
include bounded

theorem straddling_unsafe (blocksApart : blocks.Pairwise CompletedBlock.Apart)
    (safe : (retained length merged ++ later).Pairwise CompletedBlock.Apart)
    (covered : ∀ byte, Covered (retained length merged ++ later) byte →
      Covered (retained length blocks ++ later) byte) : ¬ Straddles merged blocks length := by
  rintro ⟨record, found, block, mem, byte, recordCovers, blockCovers, early, late⟩
  have kept : record ∈ retained length merged :=
    (mem_retained bounded merged record).mpr ⟨found, early⟩
  -- The byte stays covered, but not by the block that is gone.
  rcases (covered_append _ _ byte).mp
      (covered byte ⟨record, List.mem_append_left _ kept, recordCovers⟩) with
    ⟨other, otherMember, otherCovers⟩ | ⟨newer, newerMember, newerCovers⟩
  · obtain ⟨otherMember, inside⟩ := (mem_retained bounded blocks other).mp otherMember
    rw [apart_unique blocksApart otherMember mem otherCovers
      blockCovers] at inside
    omega
  · have after := newerCovers.1
    have before := newerCovers.2
    have first := recordCovers.1
    have last := recordCovers.2
    rcases (List.pairwise_append.mp safe).2.2 record kept newer newerMember with left | right
    · omega
    · omega

include same

theorem retained_covered (whole : ¬ Straddles merged blocks length) (record : CompletedBlock)
    (kept : record ∈ retained length merged) (byte : Nat) (covers : record.Covers byte) :
    Covered (retained length blocks) byte := by
  obtain ⟨found, early⟩ := (mem_retained bounded merged record).mp kept
  obtain ⟨block, mem, blockCovers⟩ := (same byte).mp ⟨record, found, covers⟩
  refine ⟨block, (mem_retained bounded blocks block).mpr ⟨mem, ?_⟩, blockCovers⟩
  by_contra late
  exact whole ⟨record, found, block, mem, byte, covers, blockCovers, early, Nat.not_le.mp late⟩

include apart

theorem unstraddled_safe (whole : ¬ Straddles merged blocks length)
    (mergedApart : merged.Pairwise CompletedBlock.Apart)
    (mergedWide : ∀ record ∈ merged, record.start < record.stop)
    (laterWide : ∀ record ∈ later, record.start < record.stop) :
    (retained length merged ++ later).Pairwise CompletedBlock.Apart ∧
      ∀ byte, Covered (retained length merged ++ later) byte →
        Covered (retained length blocks ++ later) byte := by
  have covered := retained_covered merged blocks length bounded same whole
  obtain ⟨_, laterApart, across⟩ := List.pairwise_append.mp apart
  constructor
  · refine List.pairwise_append.mpr ⟨mergedApart.filter _, laterApart, ?_⟩
    intro record kept newer newerMember
    by_contra overlaps
    have found := ((mem_retained bounded merged record).mp kept).1
    obtain ⟨byte, recordCovers, newerCovers⟩ := overlap_byte (mergedWide record found)
      (laterWide newer newerMember) overlaps
    obtain ⟨block, mem, blockCovers⟩ := covered record kept byte recordCovers
    have after := newerCovers.1
    have before := newerCovers.2
    have first := blockCovers.1
    have last := blockCovers.2
    rcases across block mem newer newerMember with left | right
    · omega
    · omega
  · intro byte found
    rcases (covered_append _ _ byte).mp found with ⟨record, kept, covers⟩ | newer
    · exact (covered_append _ _ byte).mpr (Or.inl (covered record kept byte covers))
    · exact (covered_append _ _ byte).mpr (Or.inr newer)

end Retained

theorem fits_wide {limit : Nat} {blocks : List CompletedBlock}
    (fits : ∀ block ∈ blocks, Fits limit block) : ∀ block ∈ blocks, block.start < block.stop := by
  intro block mem
  have positive := (fits block mem).positive
  have width : block.stop = block.start + block.len.toNat := rfl
  omega

section Continuing
variable (crc32c : List UInt8 → UInt32) (blake3 : List UInt8 → Digest) (content : List UInt8)

theorem continued_folds (applied : applyRecords (initialState header) records = .ok folded)
    (compactedApplied : applyRecords (initialState header) compacted =
      .ok { folded with blocks := merged })
    (continued : applyRecords (initialState header) (records ++ continuation) = .ok final) :
    final.effectiveLength = lengthAfter folded.effectiveLength continuation ∧
    ∃ later, final.blocks = retained final.effectiveLength folded.blocks ++ later ∧
      applyRecords (initialState header) (compacted ++ continuation) =
        .ok { final with blocks := retained final.effectiveLength merged ++ later } := by
  have invariant := apply_records_folded (initial_folded header) applied
  have compactedInvariant := apply_records_folded (initial_folded header) compactedApplied
  obtain ⟨onward, unsealed⟩ :=
    apply_records_after applied rfl continued
  have stands : folded.blocks = retained folded.effectiveLength folded.blocks ++ [] := by
    rw [retained_all invariant.bounded invariant.fits, List.append_nil]
  obtain ⟨later, standing, elsewhere⟩ :=
    apply_records_elsewhere stands onward
  refine ⟨apply_records_length onward, later, standing, ?_⟩
  have other := elsewhere merged
  rw [retained_all invariant.bounded compactedInvariant.fits, List.append_nil] at other
  rcases unsealed with rfl | unsealed
  · rw [List.append_nil, compactedApplied]
    exact other
  · rw [apply_records_append _ compactedApplied unsealed]
    exact other

/-- A compacted journal that goes on with any accepted continuation of the original
says the same and covers no more, exactly when no cut of the merge lies inside an
original block that the continuation cuts off behind that cut. -/
theorem continuation_safe_iff_unsevered (header : FileHeader)
    (records continuation : List FramedRecord) (state final : EffectiveState) (io : PartIo)
    (merged : List CompletedBlock) (wallClock : UInt64) (replacement : List UInt8)
    (outcome : ReplayOutcome) (accepted : effectiveState header records = .ok state)
    (verified : verifyAndMerge blake3 content io state.blocks = .ok merged)
    (encoded : encodeReplacement crc32c header state merged wallClock = .ok replacement)
    (representable : replacement.length < 2 ^ 64)
    (replayed : replayBytes crc32c replacement = .ok outcome)
    (continued : effectiveState header (records ++ continuation) = .ok final) :
    (∃ after, SafeBehind header outcome.records continuation final after) ↔
      ¬ Severed state.blocks (lengthAfter state.effectiveLength continuation) := by
  have sound := effective_state_accepted accepted
  obtain ⟨finished, _, same⟩ :=
    verify_and_merge_merged blake3 content sound verified
  obtain ⟨frames, replayedFrames, _, compactedApplied, _⟩ := compacted_read crc32c blake3 content
    header records state wallClock replacement accepted verified encoded representable
  rw [replayed] at replayedFrames
  cases replayedFrames
  rw [severed_iff blake3 content merged finished same]
  obtain ⟨folded, applied, blocksApart, rfl⟩ :=
    (effective_state_iff header records state).mp accepted
  obtain ⟨reached, reachedApplied, reachedApart, rfl⟩ :=
    (effective_state_iff header (records ++ continuation) final).mp continued
  obtain ⟨length, later, standing, compactedReached⟩ := continued_folds applied compactedApplied reachedApplied
  have invariant := apply_records_folded (initial_folded header) reachedApplied
  simp only [Straddles, List.mem_insertionSort, ← length]
  have sameFolded : ∀ byte, Covered merged byte ↔ Covered folded.blocks byte :=
    fun byte => (same byte).trans (covered_sorted folded.blocks byte)
  rw [standing] at reachedApart
  constructor
  · rintro ⟨after, safe⟩
    obtain ⟨afterFold, afterApplied, afterApart, rfl⟩ :=
      (effective_state_iff header (frames ++ continuation) after).mp safe.accepted
    rw [compactedReached] at afterApplied
    cases afterApplied
    refine straddling_unsafe merged folded.blocks later _ invariant.bounded blocksApart afterApart ?_
    intro byte found
    have covered := safe.covered byte
    simp only [covered_sorted, standing] at covered
    exact covered found
  · intro whole
    have laterWide : ∀ record ∈ later, record.start < record.stop := by
      intro record mem
      refine fits_wide invariant.fits record ?_
      rw [standing]
      exact List.mem_append_right _ mem
    obtain ⟨apart, covered⟩ := unstraddled_safe merged folded.blocks later _ invariant.bounded
      sameFolded reachedApart whole (ordered_apart finished.ordered)
      (fits_wide (apply_records_folded (initial_folded header) compactedApplied).fits)
      laterWide
    have afterAccepted := effective_state_disjoint compactedReached apart
    refine ⟨_, afterAccepted, rfl, rfl, rfl, ?_⟩
    intro byte found
    simp only [covered_sorted, standing] at found ⊢
    exact covered byte found

end Continuing

theorem short_unsevered (blocks : List CompletedBlock) (length : Nat)
    (short : length < maxRecordLen) : ¬ Severed blocks length := by
  rintro ⟨_, _, boundary, ⟨start, count, positive, placed, _⟩, _, inside, _⟩
  have least : 1 * maxRecordLen ≤ count * maxRecordLen := Nat.mul_le_mul_right _ positive
  omega

set_option maxRecDepth 8000 in
/-- Short blocks are never cut: the continuation drops one of them from both journals. -/
theorem continuation_safe_iff_unsevered_small : ∃ replacement outcome after,
    encodeReplacement zeroChecksum smallHeader ⟨5, some 5, [], smallBlocks, none⟩ smallMerged 0 =
      .ok replacement ∧
    replayBytes zeroChecksum replacement = .ok outcome ∧
    SafeBehind smallHeader outcome.records [⟨3, .truncate 2⟩]
      ⟨2, some 2, [], smallBlocks.take 1, none⟩ after := by
  obtain ⟨frames, replayed, _⟩ := compacted_read zeroChecksum firstByteDigest [7, 8, 9] smallHeader
    smallRecords ⟨5, some 5, [], smallBlocks, none⟩ 0 _ (by decide)
    small_blocks_merge rfl (by decide)
  obtain ⟨after, safe⟩ := (continuation_safe_iff_unsevered zeroChecksum firstByteDigest [7, 8, 9]
    smallHeader smallRecords [⟨3, .truncate 2⟩] ⟨5, some 5, [], smallBlocks, none⟩
    ⟨2, some 2, [], smallBlocks.take 1, none⟩ quietIo smallMerged 0 _ _ (by decide)
    small_blocks_merge rfl (by decide) replayed (by decide)).mpr
    (short_unsevered _ _ (by decide))
  exact ⟨_, _, after, rfl, replayed, safe⟩

/-! Two adjacent blocks whose join is longer than one record. -/

def zeroDigest : Digest := List.Vector.replicate 32 0

def longContent : List UInt8 := List.replicate 4294967306 0

def longHeader : FileHeader := ⟨List.Vector.replicate 16 0, 4294967306, 4, zeroDigest⟩

def longBlocks : List CompletedBlock :=
  [⟨0, 4294967294, zeroDigest⟩, ⟨4294967294, 12, zeroDigest⟩]

def longRecords : List FramedRecord := numbered 0 (longBlocks.map CompletedBlock.asRecord)

def longState : EffectiveState := ⟨4294967306, none, [], longBlocks, none⟩

def longMerged : List CompletedBlock :=
  [⟨0, 4294967295, zeroDigest⟩, ⟨4294967295, 11, zeroDigest⟩]

theorem long_accepted : effectiveState longHeader longRecords = .ok longState := by decide

theorem long_covered (byte : Nat) : Covered longState.blocks byte ↔ byte < 4294967306 := by
  simp [Covered, longState, longBlocks, CompletedBlock.Covers, CompletedBlock.start,
    CompletedBlock.stop]
  omega

theorem long_merged
    (verified : verifyAndMerge (fun _ => zeroDigest) longContent quietIo longState.blocks =
      .ok merged) : merged = longMerged := by
  obtain ⟨finished, _, same⟩ := verify_and_merge_merged (fun _ => zeroDigest) longContent
    (effective_state_accepted long_accepted) verified
  refine merged_unique finished ⟨?_, ?_, ?_, ?_⟩ fun byte =>
    ((same byte).trans (long_covered byte)).trans ?_
  · simp [longMerged, CompletedBlock.start, CompletedBlock.stop]
  · simp [longMerged, maxRecordLen]
  · intro record mem
    have length : longContent.length = 4294967306 := List.length_replicate
    rw [length]
    simp only [longMerged, List.mem_cons, List.not_mem_nil, or_false] at mem
    rcases mem with rfl | rfl
    · exact ⟨by decide, rfl⟩
    · exact ⟨by decide, rfl⟩
  · simp [longMerged, maxRecordLen]
  · simp [longMerged, CompletedBlock.Covers, CompletedBlock.start, CompletedBlock.stop]
    omega

set_option maxRecDepth 8000 in
/-- The byte `2 ^ 32 - 2` belongs to a block that the Truncate discards. Behind the
compacted journal the same Truncate keeps it. -/
theorem compaction_keeps_discarded_byte : ∃ merged replacement outcome final after,
    verifyAndMerge (fun _ => zeroDigest) longContent quietIo longState.blocks = .ok merged ∧
    encodeReplacement zeroChecksum longHeader longState merged 0 = .ok replacement ∧
    replayBytes zeroChecksum replacement = .ok outcome ∧
    effectiveState longHeader (longRecords ++ [⟨2, .truncate 4294967296⟩]) = .ok final ∧
    effectiveState longHeader (outcome.records ++ [⟨2, .truncate 4294967296⟩]) = .ok after ∧
    Covered after.blocks 4294967294 ∧ ¬ Covered final.blocks 4294967294 := by
  have sound := effective_state_accepted long_accepted
  have held : ∀ block ∈ longState.blocks, Verified (fun _ => zeroDigest) longContent block := by
    intro block mem
    have inside := (sound.fits block mem).inside
    have recorded : block.blake3 = zeroDigest := by
      simp only [longState, longBlocks, List.mem_cons, List.not_mem_nil, or_false] at mem
      rcases mem with rfl | rfl
      · rfl
      · rfl
    refine ⟨?_, recorded⟩
    rw [longContent, List.length_replicate]
    exact inside
  obtain ⟨merged, verified⟩ := verify_and_merge_finishes (fun _ => zeroDigest) longContent quietIo sound held (fun _ => rfl) (fun _ => rfl)
  obtain rfl := long_merged verified
  obtain ⟨frames, replayed, _, applied, _⟩ := compacted_read zeroChecksum (fun _ => zeroDigest)
    longContent longHeader longRecords longState 0 _ long_accepted verified rfl
    (by decide)
  have onward : applyRecords (initialState longHeader) (frames ++ [⟨2, .truncate 4294967296⟩]) =
      .ok ⟨4294967296, some 4294967296, [], longMerged.take 1, none⟩ := by
    rw [apply_records_append _ applied rfl]
    decide
  have after := effective_state_disjoint onward (by simp [longMerged])
  refine ⟨longMerged, _, _, ⟨4294967296, some 4294967296, [], longBlocks.take 1, none⟩, _, verified,
    rfl, replayed, by decide, after, ?_, ?_⟩
  · simp [Covered, longMerged, CompletedBlock.Covers, CompletedBlock.start, CompletedBlock.stop]
  · simp [Covered, longBlocks, CompletedBlock.Covers, CompletedBlock.start, CompletedBlock.stop]

end Downpour.CompactionContinuation
