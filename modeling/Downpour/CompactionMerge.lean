import Downpour.Compaction

/-!
What the merge loop of compaction computes. The loop state is read as the
finished records and one open record that ends at the current position; a state
without a builder has an empty open record there. Every step extends the open
record by bytes of the part file, and a finished record is only ever followed
directly by the next one when it is full.
-/

namespace Downpour.CompactionMerge
open JournalFormat JournalState Compaction

def slice (content : List UInt8) (start size : Nat) : List UInt8 := (content.drop start).take size

theorem slice_append (content : List UInt8) (start first second : Nat) :
    slice content start (first + second) =
      slice content start first ++ slice content (start + first) second := by
  simp only [slice, List.take_add, List.drop_drop]

theorem slice_cut (content : List UInt8) (start size front : Nat) (inside : front ≤ size) :
    (slice content start size).take front = slice content start front ∧
      (slice content start size).drop front = slice content (start + front) (size - front) := by
  constructor
  · rw [slice, List.take_take, Nat.min_eq_left inside, slice]
  · rw [slice, List.drop_take, List.drop_drop, slice]

section Merging
variable (blake3 : List UInt8 → Digest) (content : List UInt8)

/-- The finished records: in order and without overlap, none empty or too long, each
with the digest of its part-file bytes; two that touch could not have been one. -/
structure Merged (records : List CompletedBlock) : Prop where
  ordered : records.Pairwise fun left right => left.stop ≤ right.start
  sized : ∀ record ∈ records, 1 ≤ record.len.toNat ∧ record.len.toNat ≤ maxRecordLen
  digests : ∀ record ∈ records, record.stop ≤ content.length ∧
    record.blake3 = blake3 (slice content record.start record.len.toNat)
  maximal : records.IsChain fun left right =>
    left.stop = right.start → left.len.toNat = maxRecordLen

/-- Bytes `hashed` of the part file, from `start` on, that can become a record. -/
structure Piece (start : Nat) (hashed : List UInt8) : Prop where
  representable : start + hashed.length < 2 ^ 64
  short : hashed.length ≤ maxRecordLen
  same : hashed = slice content start hashed.length
  inside : hashed ≠ [] → start + hashed.length ≤ content.length

variable {start pos : Nat} {hashed : List UInt8} {merge : Merge} {covered : Nat → Prop}
    {io : PartIo} {state : EffectiveState}

theorem record_start (piece : Piece content start hashed) :
    (recordOf blake3 start hashed).start = start := by
  have small := piece.representable
  simp only [CompletedBlock.start, recordOf, UInt64.toNat_ofNat']
  omega

theorem record_length (piece : Piece content start hashed) :
    (recordOf blake3 start hashed).len.toNat = hashed.length := by
  have short := piece.short
  rw [maxRecordLen] at short
  simp only [recordOf, UInt32.toNat_ofNat']
  omega

theorem record_stop (piece : Piece content start hashed) :
    (recordOf blake3 start hashed).stop = start + hashed.length := by
  have first := record_start blake3 content piece
  have length := record_length blake3 content piece
  rw [CompletedBlock.start] at first
  rw [CompletedBlock.stop, first, length]

theorem merged_push {records : List CompletedBlock} (finished : Merged blake3 content records)
    (piece : Piece content start hashed) (present : hashed ≠ [])
    (before : ∀ record ∈ records, record.stop ≤ start)
    (joint : ∀ last, records.getLast? = some last → last.stop = start →
      last.len.toNat = maxRecordLen) :
    Merged blake3 content (records ++ [recordOf blake3 start hashed]) where
  ordered := by
    rw [List.pairwise_append]
    refine ⟨finished.ordered, List.pairwise_singleton _ _, ?_⟩
    intro record mem last final
    rw [List.mem_singleton.mp final, record_start blake3 content piece]
    exact before record mem
  sized record mem := by
    rcases List.mem_append.mp mem with old | new
    · exact finished.sized record old
    · rw [List.mem_singleton.mp new, record_length blake3 content piece]
      exact ⟨List.length_pos_iff.mpr present, piece.short⟩
  digests record mem := by
    rcases List.mem_append.mp mem with old | new
    · exact finished.digests record old
    · rw [List.mem_singleton.mp new, record_start blake3 content piece,
        record_stop blake3 content piece,
        record_length blake3 content piece, ← piece.same]
      exact ⟨piece.inside present, rfl⟩
  maximal := by
    rw [List.isChain_append]
    refine ⟨finished.maximal, List.isChain_singleton _, ?_⟩
    intro last final first head touching
    cases head
    rw [record_start blake3 content piece] at touching
    exact joint last final touching

def openAt (merge : Merge) (pos : Nat) : MergeBuilder :=
  merge.current.getD (freshBuilder pos)

/-- The merge loop at `pos`, after it was fed exactly the bytes in `covered`. -/
structure Held (covered : Nat → Prop) (pos : Nat) (merge : Merge) : Prop where
  finished : Merged blake3 content merge.merged
  piece : Piece content (openAt merge pos).start (openAt merge pos).hashed
  ends : (openAt merge pos).start + (openAt merge pos).hashed.length = pos
  before : ∀ record ∈ merge.merged, record.stop ≤ (openAt merge pos).start
  joint : ∀ last, merge.merged.getLast? = some last → last.stop = (openAt merge pos).start →
    last.len.toNat = maxRecordLen
  covers : ∀ byte, covered byte ↔ (∃ record ∈ merge.merged, record.Covers byte) ∨
    ((openAt merge pos).start ≤ byte ∧ byte < pos)

theorem held_congr
    (same : ∀ byte, after byte ↔ before byte) (held : Held blake3 content before pos merge) :
    Held blake3 content after pos merge :=
  ⟨held.finished, held.piece, held.ends, held.before, held.joint,
    fun byte => (same byte).trans (held.covers byte)⟩

def Fed (covered : Nat → Prop) (pos size byte : Nat) : Prop :=
  covered byte ∨ (pos ≤ byte ∧ byte < pos + size)

theorem fed_zero (covered : Nat → Prop) (pos byte : Nat) :
    Fed covered pos 0 byte ↔ covered byte := by
  constructor
  · rintro (old | new)
    · exact old
    · omega
  · exact Or.inl

theorem fed_add (covered : Nat → Prop) (pos first second byte : Nat) :
    Fed covered pos (first + second) byte ↔
      Fed (Fed covered pos first) (pos + first) second byte := by
  constructor
  · rintro (old | new)
    · exact Or.inl (Or.inl old)
    · by_cases early : byte < pos + first
      · exact Or.inl (Or.inr ⟨new.1, early⟩)
      · exact Or.inr ⟨by omega, by omega⟩
  · rintro ((old | new) | later)
    · exact Or.inl old
    · exact Or.inr ⟨new.1, by omega⟩
    · exact Or.inr ⟨by omega, by omega⟩

theorem piece_grows (piece : Piece content start hashed)
    (fits : hashed.length + size ≤ maxRecordLen)
    (representable : start + hashed.length + size < 2 ^ 64)
    (inside : start + hashed.length + size ≤ content.length) :
    Piece content start (hashed ++ slice content (start + hashed.length) size) := by
  have length : (slice content (start + hashed.length) size).length = size := by
    rw [slice, List.length_take, List.length_drop]
    omega
  have same := piece.same
  refine ⟨by rw [List.length_append, length]; omega, by rw [List.length_append, length]; exact fits,
    ?_, ?_⟩
  · rw [List.length_append, length, slice_append, ← same]
  · intro _
    rw [List.length_append, length]
    omega

theorem feed_round (size : Nat) (held : Held blake3 content covered pos merge)
    (positive : 0 < size) (fits : (openAt merge pos).hashed.length + size ≤ maxRecordLen)
    (representable : pos + size < 2 ^ 64) (inside : pos + size ≤ content.length)
    (grows : grown = (openAt merge pos).hashed ++ slice content pos size) :
    (∀ room : grown.length < maxRecordLen,
      Held blake3 content (Fed covered pos size) (pos + size)
        ⟨merge.merged, some ⟨(openAt merge pos).start, grown, room⟩⟩) ∧
    (grown.length = maxRecordLen →
      Held blake3 content (Fed covered pos size) (pos + size)
        ⟨merge.merged ++ [recordOf blake3 (openAt merge pos).start grown], none⟩) := by
  obtain ⟨finished, oldPiece, ends, before, joint, covers⟩ := held
  generalize openAt merge pos = builder at *
  have length : (slice content pos size).length = size := by
    rw [slice, List.length_take, List.length_drop]
    omega
  have grownLength : grown.length = builder.hashed.length + size := by
    rw [grows, List.length_append, length]
  have piece : Piece content builder.start grown := by
    have extended := piece_grows content oldPiece fits (by omega) (by omega)
    rwa [ends, ← grows] at extended
  have reach : builder.start + grown.length = pos + size := by omega
  have fed : ∀ byte, Fed covered pos size byte ↔
      (∃ record ∈ merge.merged, record.Covers byte) ∨
        (builder.start ≤ byte ∧ byte < pos + size) := by
    intro byte
    rw [Fed, covers byte]
    constructor
    · rintro ((finished | still) | new)
      · exact Or.inl finished
      · exact Or.inr ⟨still.1, by omega⟩
      · exact Or.inr ⟨by omega, new.2⟩
    · rintro (finished | still)
      · exact Or.inl (Or.inl finished)
      · by_cases old : byte < pos
        · exact Or.inl (Or.inr ⟨still.1, old⟩)
        · exact Or.inr ⟨by omega, still.2⟩
  constructor
  · intro room
    exact ⟨finished, piece, reach, before, joint, fed⟩
  · intro full
    have present : grown ≠ [] := List.length_pos_iff.mp (by omega)
    have start := record_start blake3 content piece
    have stop := record_stop blake3 content piece
    refine ⟨merged_push blake3 content finished piece present before joint,
      ⟨representable, Nat.zero_le _, rfl, fun some => absurd rfl some⟩, rfl, ?_, ?_, ?_⟩
    · intro record mem
      change record.stop ≤ pos + size
      rcases List.mem_append.mp mem with old | new
      · have earlier := before record old
        omega
      · rw [List.mem_singleton.mp new, stop, reach]
    · intro last final _
      rw [List.getLast?_append_of_ne_nil _ (by simp), List.getLast?_singleton, Option.some.injEq]
        at final
      rw [← final, record_length blake3 content piece, full]
    · intro byte
      change _ ↔ _ ∨ (pos + size ≤ byte ∧ byte < pos + size)
      rw [fed byte]
      simp only [List.mem_append, List.mem_singleton]
      constructor
      · rintro (⟨record, mem, inside⟩ | still)
        · exact Or.inl ⟨record, Or.inl mem, inside⟩
        · refine Or.inl ⟨_, Or.inr rfl, ?_⟩
          rwa [CompletedBlock.Covers, start, stop, reach]
      · rintro (⟨record, mem | rfl, inside⟩ | none)
        · exact Or.inl ⟨record, mem, inside⟩
        · rw [CompletedBlock.Covers, start, stop, reach] at inside
          exact Or.inr inside
        · omega

theorem feed_unfold (present : bytes ≠ [])
    (taken : take = min (maxRecordLen - (openAt merge pos).hashed.length) bytes.length)
    (grows : grown = (openAt merge pos).hashed ++ bytes.take take)
    (left : rest = bytes.drop take) (representable : pos + take < 2 ^ 64) :
    feedMerge blake3 merge pos bytes = if room : grown.length < maxRecordLen then
        feedMerge blake3 ⟨merge.merged, some ⟨(openAt merge pos).start, grown, room⟩⟩
          (pos + take) rest else feedMerge blake3
          ⟨merge.merged ++ [recordOf blake3 (openAt merge pos).start grown], none⟩
          (pos + take) rest := by
  -- A round of `feed_merge` with its locals named.
  subst taken grows left
  rw [feedMerge, dif_neg present]
  exact if_neg (Nat.not_le.mpr representable)

theorem feed_held (size : Nat) (held : Held blake3 content covered pos merge)
    (inside : pos + size ≤ content.length) (representable : pos + size < 2 ^ 64) :
    ∃ next, feedMerge blake3 merge pos (slice content pos size) = .ok next ∧
      Held blake3 content (Fed covered pos size) (pos + size) next := by
  -- Feeding the part-file bytes at `pos` keeps the loop's reading, and only an offset outside 64
  -- bits stops it.
  induction size using Nat.strong_induction_on generalizing covered pos merge with
  | _ size ih =>
    have length : (slice content pos size).length = size := by
      rw [slice, List.length_take, List.length_drop]
      omega
    by_cases none : size = 0
    · subst none
      refine ⟨merge, ?_, held_congr blake3 content (fed_zero covered pos) held⟩
      rw [feedMerge, dif_pos (List.length_eq_zero_iff.mp length)]
    · have room := (openAt merge pos).room
      -- One round takes what fits into the open record; the rest follows by induction.
      obtain ⟨take, taken⟩ : ∃ take, take =
          min (maxRecordLen - (openAt merge pos).hashed.length) size := ⟨_, rfl⟩
      obtain ⟨front, rest⟩ := slice_cut content pos size take (by omega)
      have step := feed_round blake3 content take held (by omega)
        (by omega) (by omega) (by omega) rfl
      have together : pos + take + (size - take) = pos + size := by omega
      have whole : take + (size - take) = size := by omega
      have onward : ∀ next, Held blake3 content (Fed covered pos take) (pos + take) next →
          ∃ final, feedMerge blake3 next (pos + take)
              (slice content (pos + take) (size - take)) = .ok final ∧
            Held blake3 content (Fed covered pos size) (pos + size) final := by
        intro next heldNext
        obtain ⟨final, fed, heldFinal⟩ := ih (size - take) (by omega) heldNext (by omega)
          (by omega)
        rw [together] at heldFinal
        refine ⟨final, fed, held_congr blake3 content (fun byte => ?_) heldFinal⟩
        rw [← fed_add, whole]
      have grownLength : ((openAt merge pos).hashed ++ slice content pos take).length =
          (openAt merge pos).hashed.length + take := by
        rw [List.length_append, slice, List.length_take, List.length_drop]
        omega
      rw [feed_unfold blake3
        (List.length_pos_iff.mp (by omega)) (by rw [length, taken]) (by rw [front]) rest.symm
        (by omega)]
      by_cases still : ((openAt merge pos).hashed ++ slice content pos take).length <
          maxRecordLen
      · rw [dif_pos still]
        exact onward _ (step.1 still)
      · rw [dif_neg still]
        exact onward _ (step.2 (by omega))

theorem read_exact_ok (read : readExact content io pos size = .ok bytes) :
    pos + size ≤ content.length ∧ bytes = slice content pos size := by
  unfold readExact at read
  split at read
  next => cases read
  next =>
    split at read
    next held =>
      cases read
      exact ⟨held, rfl⟩
    next => cases read

theorem read_block_held (held : Held blake3 content covered pos merge)
    (representable : pos + remaining < 2 ^ 64)
    (read : readBlock blake3 content io merge original pos remaining = .ok (next, final)) :
    (0 < remaining → pos + remaining ≤ content.length) ∧
      final = original ++ slice content pos remaining ∧
      Held blake3 content (Fed covered pos remaining) (pos + remaining) next := by
  induction remaining using Nat.strong_induction_on
    generalizing covered merge original pos with
  | _ remaining ih =>
    rw [readBlock] at read
    split at read
    next none =>
      subst none
      cases read
      exact ⟨by omega, by simp [slice], held_congr blake3 content (fed_zero covered pos) held⟩
    next some =>
      simp only at read
      split at read
      next => cases read
      next bytes chunk =>
        obtain ⟨inside, rfl⟩ := read_exact_ok content chunk
        have buffer : 0 < hashBufferLen := by decide
        generalize taken : min remaining hashBufferLen = take at read chunk inside
        obtain ⟨middle, fed, heldMiddle⟩ := feed_held blake3 content take held
          inside (by omega)
        rw [fed] at read
        simp only at read
        rw [if_neg (by omega)] at read
        obtain ⟨reach, joined, heldNext⟩ := ih (remaining - take) (by omega) heldMiddle
          (by omega) read
        have together : pos + take + (remaining - take) = pos + remaining := by omega
        rw [together] at heldNext reach
        have whole : take + (remaining - take) = remaining := by omega
        refine ⟨fun _ => ?_, ?_, held_congr blake3 content (fun byte => ?_) heldNext⟩
        · by_cases last : remaining - take = 0
          · omega
          · exact reach (by omega)
        · rw [joined, List.append_assoc, ← slice_append, whole]
        · rw [← fed_add, whole]

theorem read_block_finishes (original : List UInt8) (remaining : Nat)
    (held : Held blake3 content covered pos merge)
    (representable : pos + remaining < 2 ^ 64) (inside : pos + remaining ≤ content.length)
    (readable : ∀ offset, io.read offset = none) :
    ∃ done, readBlock blake3 content io merge original pos remaining = .ok done := by
  induction remaining using Nat.strong_induction_on
    generalizing covered merge original pos with
  | _ remaining ih =>
    rw [readBlock]
    by_cases none : remaining = 0
    · rw [dif_pos none]
      exact ⟨_, rfl⟩
    · rw [dif_neg none]
      have buffer : 0 < hashBufferLen := by decide
      generalize taken : min remaining hashBufferLen = take
      have chunk : readExact content io pos take = .ok (slice content pos take) := by
        rw [readExact, readable]
        exact if_pos (by omega)
      obtain ⟨middle, fed, heldMiddle⟩ := feed_held blake3 content take held
        (by omega) (by omega)
      simp only [chunk, fed]
      rw [if_neg (by omega)]
      exact ih (remaining - take) (by omega) _ heldMiddle (by omega) (by omega)

/-! The whole list of blocks. -/

theorem finish_merged (held : Held blake3 content covered pos merge) :
    Merged blake3 content (finishMerge blake3 merge).merged ∧
      (finishMerge blake3 merge).current = none ∧
      (∀ record ∈ (finishMerge blake3 merge).merged, record.stop ≤ pos) ∧
      ∀ byte, covered byte ↔ ∃ record ∈ (finishMerge blake3 merge).merged, record.Covers byte := by
  obtain ⟨finished, piece, ends, before, joint, covers⟩ := held
  unfold finishMerge
  split
  next none =>
    simp only [openAt, none, Option.getD_none, freshBuilder] at before covers
    refine ⟨finished, none, before, ?_⟩
    intro byte
    rw [covers byte]
    exact ⟨fun covered => covered.elim id fun empty => absurd empty (by omega), Or.inl⟩
  next builder current =>
    have opened : openAt merge pos = builder := by rw [openAt, current, Option.getD_some]
    rw [opened] at piece ends before joint covers
    split
    next present =>
      have start := record_start blake3 content piece
      have stop := record_stop blake3 content piece
      refine ⟨merged_push blake3 content finished piece
        (fun none => present (by rw [none]; rfl)) before joint, rfl, ?_, ?_⟩
      · intro record mem
        rcases List.mem_append.mp mem with old | new
        · have earlier := before record old
          omega
        · rw [List.mem_singleton.mp new, stop, ends]
      · intro byte
        rw [covers byte]
        simp only [List.mem_append, List.mem_singleton]
        constructor
        · rintro (⟨record, mem, inside⟩ | still)
          · exact ⟨record, Or.inl mem, inside⟩
          · refine ⟨_, Or.inr rfl, ?_⟩
            rwa [CompletedBlock.Covers, start, stop, ends]
        · rintro ⟨record, mem | rfl, inside⟩
          · exact Or.inl ⟨record, mem, inside⟩
          · rw [CompletedBlock.Covers, start, stop, ends] at inside
            exact Or.inr inside
    next empty =>
      rw [not_not] at empty
      refine ⟨finished, rfl, ?_, ?_⟩
      · intro record mem
        have earlier := before record mem
        omega
      · intro byte
        rw [covers byte]
        exact ⟨fun covered => covered.elim id fun none => absurd none (by omega), Or.inl⟩

theorem close_gap_held (held : Held blake3 content covered pos merge)
    (later : pos ≤ offset) (representable : offset < 2 ^ 64) :
    Held blake3 content covered offset (closeGap blake3 merge offset) := by
  have empty : Piece content (freshBuilder offset).start (freshBuilder offset).hashed :=
    ⟨representable, Nat.zero_le _, rfl, fun some => absurd rfl some⟩
  -- Without an open record only the position moves.
  have moved : ∀ closed : Merge, closed.current = none → Merged blake3 content closed.merged →
      (∀ record ∈ closed.merged, record.stop ≤ offset) →
      (∀ last, closed.merged.getLast? = some last → last.stop = offset →
        last.len.toNat = maxRecordLen) →
      (∀ byte, covered byte ↔ ∃ record ∈ closed.merged, record.Covers byte) →
      Held blake3 content covered offset closed := by
    intro closed none finished before joint covers
    have opened : openAt closed offset = freshBuilder offset := by
      rw [openAt, none, Option.getD_none]
    refine ⟨finished, by rw [opened]; exact empty, by rw [opened]; rfl, by rw [opened]; exact before,
      by rw [opened]; exact joint, ?_⟩
    intro byte
    rw [covers byte, opened]
    exact ⟨Or.inl, fun covered => covered.elim id fun none => absurd none (by
      simp only [freshBuilder]
      omega)⟩
  obtain ⟨closedMerged, closedNone, closedBefore, closedCovers⟩ :=
    finish_merged blake3 content held
  cases current : merge.current with
  | none =>
    have same : finishMerge blake3 merge = merge := by rw [finishMerge, current]
    have kept : closeGap blake3 merge offset = merge := by simp [closeGap, current]
    rw [same] at closedMerged closedBefore closedCovers
    rw [kept]
    refine moved merge current closedMerged (fun record mem => ?_) ?_ closedCovers
    · exact (closedBefore record mem).trans later
    · intro last final reach
      have bound := closedBefore last (List.mem_of_getLast? final)
      apply held.joint last final
      rw [openAt, current, Option.getD_none]
      change last.stop = pos
      omega
  | some builder =>
    have ends := held.ends
    rw [openAt, current, Option.getD_some] at ends
    by_cases touching : pos = offset
    · subst touching
      have kept : closeGap blake3 merge pos = merge := by simp [closeGap, current, ends]
      rwa [kept]
    · have closed : closeGap blake3 merge offset = finishMerge blake3 merge := by
        simp [closeGap, current, ends, touching]
      rw [closed]
      refine moved _ closedNone closedMerged (fun record mem => ?_) ?_ closedCovers
      · exact (closedBefore record mem).trans later
      · intro last final reach
        have bound := closedBefore last (List.mem_of_getLast? final)
        omega

/-- Blocks that can be merged behind `pos`: in order, non-empty, inside 64 bits. -/
structure Mergeable (pos : Nat) (blocks : List CompletedBlock) : Prop where
  ordered : blocks.Pairwise fun left right => left.stop ≤ right.start
  behind : ∀ block ∈ blocks, pos ≤ block.start
  positive : ∀ block ∈ blocks, 0 < block.len.toNat
  representable : ∀ block ∈ blocks, block.stop < 2 ^ 64

theorem mergeable_tail (mergeable : Mergeable pos (block :: rest)) : Mergeable block.stop rest where
  ordered := (List.pairwise_cons.mp mergeable.ordered).2
  behind := (List.pairwise_cons.mp mergeable.ordered).1
  positive other mem := mergeable.positive other (List.mem_cons_of_mem _ mem)
  representable other mem := mergeable.representable other (List.mem_cons_of_mem _ mem)

/-- The block lies inside the part file and its bytes have the recorded digest. -/
def Verified (block : CompletedBlock) : Prop :=
  block.stop ≤ content.length ∧ block.blake3 = blake3 (slice content block.start block.len.toNat)

theorem merge_blocks_merged
    (held : Held blake3 content covered pos merge) (mergeable : Mergeable pos blocks)
    (done : mergeBlocks blake3 content io merge blocks = .ok final) :
    Merged blake3 content final.merged ∧ (∀ block ∈ blocks, Verified blake3 content block) ∧
      ∀ byte, (∃ record ∈ final.merged, record.Covers byte) ↔
        covered byte ∨ ∃ block ∈ blocks, block.Covers byte := by
  induction blocks generalizing covered pos merge with
  | nil =>
    cases done
    obtain ⟨finished, _, _, covers⟩ := finish_merged blake3 content held
    refine ⟨finished, by simp, fun byte => ?_⟩
    rw [← covers byte]
    simp
  | cons block rest ih =>
    have reach : block.stop = block.start + block.len.toNat := rfl
    have small := mergeable.representable block List.mem_cons_self
    have behind := mergeable.behind block List.mem_cons_self
    have positive := mergeable.positive block List.mem_cons_self
    unfold mergeBlocks at done
    split at done
    next => cases done
    next =>
      split at done
      next => cases done
      next next original read =>
        split at done
        next => cases done
        next sameDigest =>
          have closed := close_gap_held blake3 content held behind
            (by omega)
          obtain ⟨inside, fed, heldNext⟩ := read_block_held blake3 content closed (by omega) read
          obtain ⟨finished, verified, covers⟩ := ih heldNext
            (mergeable_tail mergeable) done
          rw [not_not, fed, List.nil_append] at sameDigest
          refine ⟨finished, ?_, ?_⟩
          · intro other mem
            rcases List.mem_cons.mp mem with rfl | later
            · exact ⟨inside positive, sameDigest.symm⟩
            · exact verified other later
          · intro byte
            rw [covers byte, List.exists_mem_cons_iff, ← or_assoc]
            exact Iff.rfl

theorem merge_blocks_finishes {io : PartIo}
    (held : Held blake3 content covered pos merge) (mergeable : Mergeable pos blocks)
    (verified : ∀ block ∈ blocks, Verified blake3 content block)
    (seekable : ∀ offset, io.seek offset = none) (readable : ∀ offset, io.read offset = none) :
    ∃ final, mergeBlocks blake3 content io merge blocks = .ok final := by
  induction blocks generalizing covered pos merge with
  | nil => exact ⟨_, rfl⟩
  | cons block rest ih =>
    have reach : block.stop = block.start + block.len.toNat := rfl
    have small := mergeable.representable block List.mem_cons_self
    obtain ⟨inside, digest⟩ := verified block List.mem_cons_self
    have closed := close_gap_held blake3 content held
      (mergeable.behind block List.mem_cons_self) (by omega)
    obtain ⟨⟨next, original⟩, read⟩ := read_block_finishes blake3 content []
      block.len.toNat closed (by omega) (by omega) readable
    obtain ⟨_, fed, heldNext⟩ := read_block_held blake3 content closed (by omega) read
    have sameDigest : blake3 original = block.blake3 := by rw [fed, List.nil_append, digest]
    simp only [mergeBlocks, seekable, read, sameDigest, ne_eq, not_true_eq_false, ↓reduceIte]
    exact ih heldNext (mergeable_tail mergeable)
      fun other mem => verified other (List.mem_cons_of_mem _ mem)

theorem start_held : Held blake3 content (fun _ => False) 0 ⟨[], none⟩ where
  finished := ⟨List.Pairwise.nil, by simp, by simp, List.isChain_nil⟩
  piece := ⟨by decide, Nat.zero_le _, rfl, fun some => absurd rfl some⟩
  ends := rfl
  before := by simp
  joint := by simp
  covers byte := by simp

theorem accepted_mergeable (accepted : Accepted state) :
    Mergeable 0 state.blocks where
  ordered := accepted.ordered
  behind _ _ := Nat.zero_le _
  positive block mem := (accepted.fits block mem).positive
  representable block mem :=
    Nat.lt_of_le_of_lt (accepted.fits block mem).inside accepted.bounded

theorem verify_and_merge_merged (accepted : Accepted state)
    (done : verifyAndMerge blake3 content io state.blocks = .ok merged) :
    Merged blake3 content merged ∧ (∀ block ∈ state.blocks, Verified blake3 content block) ∧
      ∀ byte, (∃ record ∈ merged, record.Covers byte) ↔
        ∃ block ∈ state.blocks, block.Covers byte := by
  unfold verifyAndMerge at done
  cases result : mergeBlocks blake3 content io ⟨[], none⟩ state.blocks with
  | error error =>
    rw [result] at done
    cases done
  | ok final =>
    rw [result] at done
    cases done
    obtain ⟨finished, verified, covers⟩ := merge_blocks_merged blake3 content
      (start_held blake3 content) (accepted_mergeable accepted) result
    refine ⟨finished, verified, fun byte => ?_⟩
    rw [covers byte, false_or]

theorem verify_and_merge_finishes (io : PartIo) (accepted : Accepted state)
    (verified : ∀ block ∈ state.blocks, Verified blake3 content block)
    (seekable : ∀ offset, io.seek offset = none) (readable : ∀ offset, io.read offset = none) :
    ∃ merged, verifyAndMerge blake3 content io state.blocks = .ok merged := by
  obtain ⟨final, done⟩ := merge_blocks_finishes blake3 content (start_held blake3 content)
    (accepted_mergeable accepted) verified seekable readable
  exact ⟨final.merged, by rw [verifyAndMerge, done]; rfl⟩

theorem block_same {left right : CompletedBlock} (start : left.start = right.start)
    (stop : left.stop = right.stop) (digest : left.blake3 = right.blake3) : left = right := by
  obtain ⟨leftOffset, leftLen, leftDigest⟩ := left
  obtain ⟨rightOffset, rightLen, rightDigest⟩ := right
  simp only [CompletedBlock.start, CompletedBlock.stop] at start stop digest
  have length : leftLen.toNat = rightLen.toNat := by omega
  rw [UInt64.toNat_inj.mp start, UInt32.toNat_inj.mp length, digest]

variable {blake3 content}

theorem merged_tail (finished : Merged blake3 content (record :: rest)) :
    Merged blake3 content rest ∧ (∀ byte, (∃ other ∈ rest, other.Covers byte) ↔
      (∃ other ∈ record :: rest, other.Covers byte) ∧ record.stop ≤ byte) ∧
      ∀ byte, (∃ other ∈ record :: rest, other.Covers byte) → record.start ≤ byte := by
  obtain ⟨behind, ordered⟩ := List.pairwise_cons.mp finished.ordered
  have width : record.stop = record.start + record.len.toNat := rfl
  refine ⟨⟨ordered, fun other mem => finished.sized other (List.mem_cons_of_mem _ mem),
    fun other mem => finished.digests other (List.mem_cons_of_mem _ mem),
    finished.maximal.tail⟩, fun byte => ⟨?_, ?_⟩, ?_⟩
  · rintro ⟨other, mem, covers⟩
    exact ⟨⟨other, List.mem_cons_of_mem _ mem, covers⟩, (behind other mem).trans covers.1⟩
  · rintro ⟨⟨other, mem, covers⟩, later⟩
    rcases List.mem_cons.mp mem with rfl | mem
    · exact absurd covers.2 (Nat.not_lt.mpr later)
    · exact ⟨other, mem, covers⟩
  · rintro byte ⟨other, mem, covers⟩
    rcases List.mem_cons.mp mem with rfl | mem
    · exact covers.1
    · have := behind other mem
      have := covers.1
      omega

theorem first_full (finished : Merged blake3 content (record :: rest))
    (onward : ∃ other ∈ record :: rest, other.Covers record.stop) :
    record.len.toNat = maxRecordLen := by
  obtain ⟨other, mem, covers⟩ := ((merged_tail finished).2.1 record.stop).mpr ⟨onward, le_rfl⟩
  cases rest with
  | nil => cases mem
  | cons next rest =>
    have behind := (List.pairwise_cons.mp finished.ordered).1
    refine (List.isChain_cons_cons.mp finished.maximal).1 (le_antisymm (behind next (by simp)) ?_)
    exact ((merged_tail (merged_tail finished).1).2.2 _ ⟨other, mem, covers⟩)

theorem merged_unique (leftMerged : Merged blake3 content left)
    (rightMerged : Merged blake3 content right)
    (same : ∀ byte, (∃ record ∈ left, record.Covers byte) ↔ ∃ record ∈ right, record.Covers byte) :
    left = right := by
  -- The bytes that records cover determine how they are cut.
  have positive (record : CompletedBlock) (records : List CompletedBlock)
      (finished : Merged blake3 content (record :: records)) :
      record.stop = record.start + record.len.toNat ∧ 1 ≤ record.len.toNat ∧
        record.len.toNat ≤ maxRecordLen := ⟨rfl, finished.sized record List.mem_cons_self⟩
  induction left generalizing right with
  | nil =>
    cases right with
    | nil => rfl
    | cons first rest =>
      have wide := positive first rest rightMerged
      simpa using (same first.start).mpr ⟨first, List.mem_cons_self, le_rfl, by omega⟩
  | cons record records ih =>
    have wide := positive record records leftMerged
    cases right with
    | nil => simpa using (same record.start).mp ⟨record, List.mem_cons_self, le_rfl, by omega⟩
    | cons first rest =>
      have otherWide := positive first rest rightMerged
      obtain ⟨leftTail, leftBehind, leftFirst⟩ := merged_tail leftMerged
      obtain ⟨rightTail, rightBehind, rightFirst⟩ := merged_tail rightMerged
      have starts : record.start = first.start := by
        apply le_antisymm
        · exact leftFirst _ ((same _).mpr ⟨first, List.mem_cons_self, le_rfl, by omega⟩)
        · exact rightFirst _ ((same _).mp ⟨record, List.mem_cons_self, le_rfl, by omega⟩)
      -- The shorter of the two would be full, so neither is shorter.
      have stops : record.stop = first.stop := by
        rcases lt_trichotomy record.stop first.stop with shorter | equal | longer
        · have := first_full leftMerged
            ((same _).mpr ⟨first, List.mem_cons_self, by omega, shorter⟩)
          omega
        · exact equal
        · have := first_full rightMerged
            ((same _).mp ⟨record, List.mem_cons_self, by omega, longer⟩)
          omega
      have heads : record = first := block_same starts stops (by
        rw [(leftMerged.digests record List.mem_cons_self).2,
          (rightMerged.digests first List.mem_cons_self).2, starts]
        congr 2
        omega)
      rw [heads, ih leftTail rightTail fun byte => by
        rw [leftBehind, rightBehind, same, stops]]

end Merging

end Downpour.CompactionMerge
