import Downpour.JournalCodec
import Downpour.JournalRepair

/-!
Replay returns exactly the longest valid journal at the front of its input. Byte
strings are shorter than `2 ^ 64`, as every file is, so the counters of the
source cannot overflow. Reads may be short or interrupted in any way; a read that
fails outright is left to the callers.
-/

namespace Downpour.ReplayExact
open Bytes JournalFormat JournalCodec JournalReplay JournalRepair

section Replay
variable (crc32c : List UInt8 → UInt32)

variable {frames : List FramedRecord} {bytes : List UInt8} {header : FileHeader}
    {outcome : ReplayOutcome}

theorem framed_count (framed : Framed crc32c frames bytes) : frames.length ≤ bytes.length := by
  induction framed with
  | nil => exact Nat.le_refl _
  | cons frame rest first tail written _ ih =>
    have sized := frame_length crc32c frame written
    rw [recordPrefixLen] at sized
    rw [List.length_append, List.length_cons]
    omega

/-! The record loop. -/

theorem replay_loop_front (rest : List UInt8) (framed : Framed crc32c frames bytes)
    (header : FileHeader) (records : List FramedRecord) (validBytes : Nat)
    (ordered : Contiguous expected frames) (bytesFit : validBytes + bytes.length < 2 ^ 64)
    (countFits : expected + frames.length < 2 ^ 64) :
    replayLoop crc32c header ⟨bytes ++ rest, []⟩ records expected validBytes =
      replayLoop crc32c header ⟨rest, []⟩ (records ++ frames) (expected + frames.length)
        (validBytes + bytes.length) := by
  -- The loop takes every whole frame that stands in front, in order.
  induction framed generalizing records expected validBytes with
  | nil => simp
  | cons frame others first tail written _ ih =>
    obtain ⟨inOrder, later⟩ := ordered
    have extent := frame_extent crc32c frame (tail ++ rest) written
    have decoded := frame_round_trip crc32c frame first [] written
    rw [List.append_nil] at decoded
    simp only [List.length_append, List.length_cons] at bytesFit countFits
    rw [List.append_assoc, replay_loop_next crc32c header records
       extent.symm (by simp) (by rwa [List.take_left]) inOrder
      (by omega) (by omega), List.drop_left, ih _ _ later (by omega) (by omega)]
    simp [Nat.add_assoc, Nat.add_comm 1]

structure Gathered (bytes : List UInt8) (records : List FramedRecord) (expected validBytes : Nat)
    (outcome : ReplayOutcome) (more : List FramedRecord) : Prop where
  records : outcome.records = records ++ more
  numbered : Contiguous expected more
  grows : validBytes ≤ outcome.validBytes
  framed : Framed crc32c more (bytes.take (outcome.validBytes - validBytes))

theorem replay_loop_gathered
    (finished : replayLoop crc32c header reader records expected validBytes = .ok outcome) :
    ∃ more, Gathered crc32c reader.remaining records expected validBytes outcome more := by
  induction size : reader.remaining.length using Nat.strong_induction_on
    generalizing reader records expected validBytes with
  | _ total ih =>
    rcases replay_loop_round crc32c finished with
      ⟨_, kept, reached, _⟩ | ⟨frameLen, record, consumed, after, long, sized, held, decoded,
        inOrder, left, taken, _, _, next⟩
    · refine ⟨[], by rw [kept, List.append_nil], trivial, by omega, ?_⟩
      rw [reached, Nat.sub_self]
      exact Framed.nil
    · subst consumed
      have shorter : after.remaining.length < total := by
        rw [left, List.length_drop]
        rw [recordPrefixLen] at sized long
        omega
      obtain ⟨more, gathered⟩ := ih _ shorter next rfl
      have grows := gathered.grows
      -- The decoded frame is the encoding of its record, so the taken bytes stay framed.
      have written := (frame_written crc32c _ record frameLen decoded).1
      rw [List.take_take, Nat.min_self] at written
      have reach : outcome.validBytes - validBytes =
          frameLen + (outcome.validBytes - (validBytes + frameLen)) := by omega
      refine ⟨record :: more, ?_, ⟨inOrder, gathered.numbered⟩, by omega, ?_⟩
      · rw [gathered.records, List.append_assoc, List.singleton_append]
      · rw [reach, List.take_add, ← left]
        exact Framed.cons record more _ _ written gathered.framed

theorem replay_loop_finishes (header : FileHeader) (bytes : List UInt8)
    (records : List FramedRecord) (expected validBytes : Nat)
    (bytesFit : validBytes + bytes.length < 2 ^ 64) (counted : expected ≤ validBytes) :
    ∃ outcome, replayLoop crc32c header ⟨bytes, []⟩ records expected validBytes = .ok outcome := by
  induction size : bytes.length using Nat.strong_induction_on
    generalizing bytes records expected validBytes with
  | _ total ih =>
    rw [replayLoop]
    simp only [readUpTo]
    split
    next => exact ⟨_, rfl⟩
    next present =>
      split
      next => exact ⟨_, rfl⟩
      next whole =>
        split
        next => exact ⟨_, rfl⟩
        next complete =>
          split
          next => exact ⟨_, rfl⟩
          next record consumed decoded =>
            split
            next => exact ⟨_, rfl⟩
            next =>
              have inside := (frame_written crc32c _ record consumed decoded).2
              have extent := decode_prefix_consumed crc32c decoded
              simp only [List.length_append, List.length_take, List.length_drop] at *
              rw [recordPrefixLen, checksumLen] at *
              rw [if_neg (by omega), if_neg (by omega)]
              refine ih _ ?_ _ _ _ _ ?_ (by omega) rfl
              · simp only [List.length_drop]
                omega
              · simp only [List.length_drop]
                omega

/-! The whole journal. -/

theorem replay_finishes (representable : bytes.length < 2 ^ 64)
    (decoded : FileHeader.decode crc32c (bytes.take headerLen) = .ok header) :
    ∃ outcome, replayBytes crc32c bytes = .ok outcome := by
  have long := header_decoded_length crc32c decoded
  rw [List.length_take] at long
  have finishes := replay_loop_finishes crc32c header (bytes.drop headerLen) [] 0 headerLen
    (by rw [List.length_drop]; omega) (Nat.zero_le _)
  simpa only [replayBytes, replayReader, readUpTo, decoded] using finishes

/-- `framed` is a header and the encodings of `records`, numbered from zero. -/
structure Journal (header : FileHeader) (records : List FramedRecord) (bytes : List UInt8) : Prop where
  numbered : Contiguous 0 records
  encoded : ∃ framed, Framed crc32c records framed ∧ bytes = header.encode crc32c ++ framed

theorem replay_journal (finished : replayBytes crc32c bytes = .ok outcome) :
    Journal crc32c outcome.header outcome.records (bytes.take outcome.validBytes) := by
  have held := (replay_resumable crc32c finished).held
  simp only [replayBytes, replayReader, readUpTo] at finished
  split at finished
  next => cases finished
  next header decoded =>
    have resumes := replay_loop_resumes crc32c (by decide) finished
    obtain ⟨more, gathered⟩ := replay_loop_gathered crc32c finished
    have written := header_written crc32c decoded
    rw [List.take_take, Nat.min_self] at written
    have records := gathered.records
    rw [List.nil_append] at records
    refine ⟨records ▸ gathered.numbered, _, records ▸ gathered.framed, ?_⟩
    rw [resumes.sameHeader, ← written, ← List.take_add, Nat.add_sub_cancel' gathered.grows]

theorem journal_front (rest : List UInt8)
    (valid : Journal crc32c header records journal) (representable : journal.length < 2 ^ 64) :
    replayBytes crc32c (journal ++ rest) =
      replayLoop crc32c header ⟨rest, []⟩ records records.length journal.length := by
  obtain ⟨framed, written, rfl⟩ := valid.encoded
  have sized := header_length crc32c header
  have counted := framed_count crc32c written
  rw [List.length_append, sized] at representable
  have front : (header.encode crc32c ++ framed ++ rest).take headerLen =
      header.encode crc32c ++ [] := by
    rw [List.append_assoc, List.take_left' sized, List.append_nil]
  have body : (header.encode crc32c ++ framed ++ rest).drop headerLen = framed ++ rest := by
    rw [List.append_assoc, List.drop_left' sized]
  simp only [replayBytes, replayReader, readUpTo, front, body, header_round_trip]
  rw [replay_loop_front crc32c rest written header [] headerLen valid.numbered
    (by omega) (by omega), List.length_append, sized, List.nil_append, Nat.zero_add]

theorem replay_longest (header : FileHeader) (records : List FramedRecord)
    (journal bytes : List UInt8) (valid : Journal crc32c header records journal)
    (front : journal <+: bytes) (representable : bytes.length < 2 ^ 64) :
    ∃ outcome, replayBytes crc32c bytes = .ok outcome ∧ outcome.header = header ∧
      records <+: outcome.records ∧ journal.length ≤ outcome.validBytes := by
  -- What a journal in front of the input forces on the replay.
  obtain ⟨rest, rfl⟩ := front
  rw [List.length_append] at representable
  have counted : records.length ≤ journal.length := by
    obtain ⟨framed, written, rfl⟩ := valid.encoded
    have few := framed_count crc32c written
    rw [List.length_append]
    omega
  obtain ⟨outcome, finished⟩ := replay_loop_finishes crc32c header rest records records.length
    journal.length representable counted
  have resumes := replay_loop_resumes crc32c (by omega) finished
  obtain ⟨more, gathered⟩ := replay_loop_gathered crc32c finished
  refine ⟨outcome, ?_, resumes.sameHeader, ⟨more, gathered.records.symm⟩, gathered.grows⟩
  rw [journal_front crc32c rest valid (by omega), finished]

theorem replay_clean_iff (finished : replayBytes crc32c bytes = .ok outcome) :
    outcome.stop = .cleanEof ↔ outcome.validBytes = bytes.length := by
  have resumable := replay_resumable crc32c finished
  constructor
  · exact resumable.clean
  · intro whole
    -- Nothing is left behind the valid bytes, so the loop ends there.
    have again := resumable.again []
    rw [List.append_nil, whole, List.take_length, finished, replayLoop] at again
    simp only [readUpTo, List.take_nil, List.length_nil, ↓reduceDIte] at again
    rw [Except.ok.inj again]

structure Exact (bytes : List UInt8) (outcome : ReplayOutcome) : Prop where
  held : outcome.validBytes ≤ bytes.length
  valid : Journal crc32c outcome.header outcome.records (bytes.take outcome.validBytes)
  longest : ∀ header records journal, Journal crc32c header records journal → journal <+: bytes →
    journal.length ≤ outcome.validBytes
  clean : outcome.stop = .cleanEof ↔ outcome.validBytes = bytes.length

/-- However the input is cut into reads, replay fails on the header or returns the
longest valid journal in front of the input; cutting the rest off and replaying
again, under any reads, gives the same records and a clean end. -/
theorem replay_exact (bytes : List UInt8) (representable : bytes.length < 2 ^ 64)
    (reads : List ReadEvent) (readable : ∀ error, .failed error ∉ reads) :
    replayReader crc32c ⟨bytes, reads⟩ = replayBytes crc32c bytes ∧
    ((∃ error, FileHeader.decode crc32c (bytes.take headerLen) = .error error ∧
        replayReader crc32c ⟨bytes, reads⟩ = .error (.format error)) ∨
      ∃ outcome, replayReader crc32c ⟨bytes, reads⟩ = .ok outcome ∧ Exact crc32c bytes outcome ∧
        ∀ again, (∀ error, .failed error ∉ again) →
          replayReader crc32c ⟨bytes.take outcome.validBytes, again⟩ =
            .ok ⟨outcome.header, outcome.records, outcome.validBytes, .cleanEof⟩) := by
  have plain : ∀ input schedule, (∀ error, .failed error ∉ schedule) →
      replayReader crc32c ⟨input, schedule⟩ = replayBytes crc32c input := by
    intro input schedule whole
    rcases replay_schedule crc32c ⟨input, schedule⟩ with same | ⟨cause, mem, _⟩
    · exact same
    · exact absurd mem (whole cause)
  refine ⟨plain bytes reads readable, ?_⟩
  rw [plain bytes reads readable]
  cases decoded : FileHeader.decode crc32c (bytes.take headerLen) with
  | error error =>
    refine Or.inl ⟨error, rfl, ?_⟩
    simp only [replayBytes, replayReader, readUpTo, decoded]
  | ok header =>
    obtain ⟨outcome, finished⟩ := replay_finishes crc32c representable decoded
    refine Or.inr ⟨outcome, finished, ⟨?_, ?_, ?_, ?_⟩, ?_⟩
    · exact (replay_resumable crc32c finished).held
    · exact replay_journal crc32c finished
    · intro other records journal valid front
      obtain ⟨found, same, _, _, reach⟩ := replay_longest crc32c other records journal bytes valid
        front representable
      rw [finished] at same
      cases same
      exact reach
    · exact replay_clean_iff crc32c finished
    · intro again whole
      rw [plain _ again whole]
      exact replay_repaired crc32c finished

/-! A damaged journal. -/

theorem framed_unique (first : Framed crc32c frames left)
    (second : Framed crc32c frames right) : left = right := by
  induction first generalizing right with
  | nil =>
    cases second
    rfl
  | cons frame rest encoded tail written _ ih =>
    cases second with
    | cons _ _ other behind also framed =>
      rw [written] at also
      rw [Except.ok.inj also, ih framed]

theorem framed_split (framed : Framed crc32c (left ++ right) bytes) :
    ∃ before after, bytes = before ++ after ∧ Framed crc32c left before ∧
      Framed crc32c right after := by
  induction left generalizing bytes with
  | nil => exact ⟨[], bytes, rfl, Framed.nil, framed⟩
  | cons frame rest ih =>
    cases framed with
    | cons _ _ first tail written later =>
      obtain ⟨before, after, rfl, leftFramed, rightFramed⟩ := ih later
      exact ⟨first ++ before, after, (List.append_assoc _ _ _).symm,
        Framed.cons frame rest first before written leftFramed, rightFramed⟩

end Replay

def frameLength (frame : FramedRecord) : Nat :=
  recordPrefixLen + (encodePayload frame.record).2.length + checksumLen

def endsFrom : Nat → List FramedRecord → List (FramedRecord × Nat)
  | _, [] => []
  | offset, frame :: rest =>
    (frame, offset + frameLength frame) :: endsFrom (offset + frameLength frame) rest

def endedBy (cut : Nat) (records : List FramedRecord) : List FramedRecord :=
  ((endsFrom headerLen records).filter fun ended => decide (ended.2 ≤ cut)).map Prod.fst

theorem ends_beyond (offset cut : Nat) (records : List FramedRecord) (beyond : cut < offset) :
    (endsFrom offset records).filter (fun ended => decide (ended.2 ≤ cut)) = [] := by
  induction records generalizing offset with
  | nil => rfl
  | cons frame rest ih =>
    have outside : ¬ offset + frameLength frame ≤ cut := by omega
    simp only [endsFrom, List.filter_cons, outside, decide_false, Bool.false_eq_true, ↓reduceIte]
    exact ih _ (by omega)

section Damage
variable (crc32c : List UInt8 → UInt32)

theorem framed_reach
    (framed : Framed crc32c (frame :: rest) bytes) : frameLength frame ≤ bytes.length := by
  cases framed with
  | cons _ _ first tail written _ =>
    rw [List.length_append, frame_length crc32c frame written]
    exact Nat.le_add_right _ _

variable {cut : Nat} {records : List FramedRecord} {header : FileHeader} {journal : List UInt8}

theorem ended_split (framed : Framed crc32c records bytes) (inside : offset ≤ cut) :
    ∃ right before after,
      records = ((endsFrom offset records).filter fun ended => decide (ended.2 ≤ cut)).map Prod.fst ++
        right ∧ bytes = before ++ after ∧ Framed crc32c
        (((endsFrom offset records).filter fun ended => decide (ended.2 ≤ cut)).map Prod.fst) before ∧
      Framed crc32c right after ∧ offset + before.length ≤ cut ∧
      ∀ frame rest, right = frame :: rest → cut < offset + before.length + frameLength frame := by
  induction framed generalizing offset with
  | nil => exact ⟨[], [], [], rfl, rfl, Framed.nil, Framed.nil, inside, nofun⟩
  | cons frame rest first tail written later ih =>
    have sized : first.length = frameLength frame := frame_length crc32c frame written
    by_cases ended : offset + frameLength frame ≤ cut
    · obtain ⟨right, before, after, records, rfl, leftFramed, rightFramed, held, next⟩ :=
        ih ended
      refine ⟨right, first ++ before, after, ?_, by rw [List.append_assoc], ?_, rightFramed, ?_, ?_⟩
      · simp only [endsFrom, List.filter_cons, ended, decide_true, ↓reduceIte, List.map_cons,
          List.cons_append]
        rw [← records]
      · simp only [endsFrom, List.filter_cons, ended, decide_true, ↓reduceIte, List.map_cons]
        exact Framed.cons frame _ first before written leftFramed
      · rw [List.length_append]
        omega
      · intro following others shape
        have reach := next following others shape
        rw [List.length_append]
        omega
    · have none := ends_beyond (offset + frameLength frame) cut rest (by omega)
      refine ⟨frame :: rest, [], first ++ tail, ?_, rfl, ?_,
        Framed.cons frame rest first tail written later, inside, ?_⟩
      · simp [endsFrom, ended, none]
      · simp only [endsFrom, List.filter_cons, ended, none, decide_false, Bool.false_eq_true,
          ↓reduceIte, List.map_nil]
        exact Framed.nil
      · intro following others shape
        cases shape
        rw [List.length_nil]
        omega

def Boundary (records : List FramedRecord) (cut : Nat) : Prop :=
  ∃ left right before, records = left ++ right ∧ Framed crc32c left before ∧
    cut = headerLen + before.length

theorem journal_cut (valid : Journal crc32c header records journal) (whole : headerLen ≤ cut) :
    ∃ right before after, records = endedBy cut records ++ right ∧
      journal = header.encode crc32c ++ (before ++ after) ∧
      Framed crc32c (endedBy cut records) before ∧ Framed crc32c right after ∧
      Journal crc32c header (endedBy cut records) (header.encode crc32c ++ before) ∧
      headerLen + before.length ≤ cut ∧
      ∀ frame rest, right = frame :: rest → cut < headerLen + before.length + frameLength frame := by
  obtain ⟨framed, written, rfl⟩ := valid.encoded
  obtain ⟨right, before, after, split, rfl, leftFramed, rightFramed, held, next⟩ :=
    ended_split crc32c written whole
  have numbered := valid.numbered
  rw [split] at numbered
  exact ⟨right, before, after, split, rfl, leftFramed, rightFramed,
    ⟨((contiguous_append 0 _ _).mp numbered).1, before, leftFramed, rfl⟩, held, next⟩

theorem agreeing_front (isFront : front <+: journal)
    (short : front.length ≤ cut) (agrees : bytes.take cut = journal.take cut) :
    front <+: bytes := by
  have cutFront : front <+: journal.take cut := List.prefix_take_iff.mpr ⟨isFront, short⟩
  rw [← agrees] at cutFront
  exact cutFront.trans (List.take_prefix cut bytes)

theorem boundary_journal (valid : Journal crc32c header records journal)
    (boundary : Boundary crc32c records cut) :
    ∃ left front, Journal crc32c header left front ∧ front <+: journal ∧ front.length = cut := by
  obtain ⟨framed, written, rfl⟩ := valid.encoded
  obtain ⟨left, right, before, rfl, leftFramed, rfl⟩ := boundary
  obtain ⟨other, after, rfl, otherFramed, _⟩ := framed_split crc32c written
  rw [framed_unique crc32c otherFramed leftFramed]
  refine ⟨left, header.encode crc32c ++ before, ⟨?_, before, leftFramed, rfl⟩, ?_, ?_⟩
  · exact ((contiguous_append 0 _ _).mp valid.numbered).1
  · rw [← List.append_assoc]
    exact List.prefix_append _ _
  · rw [List.length_append, header_length]

theorem cut_records (valid : Journal crc32c header records journal)
    (representable : journal.length < 2 ^ 64) (whole : headerLen ≤ cut)
    (finished : replayBytes crc32c (journal.take cut) = .ok outcome) :
    outcome.records = endedBy cut records := by
  -- Nothing of the record behind the cut is read.
  obtain ⟨right, before, after, split, rfl, leftFramed, rightFramed, front, held, next⟩ :=
    journal_cut crc32c valid whole
  have sized := header_length crc32c header
  simp only [List.length_append, sized] at representable
  have taken : (header.encode crc32c ++ (before ++ after)).take cut =
      (header.encode crc32c ++ before) ++ after.take (cut - (headerLen + before.length)) := by
    rw [← List.append_assoc, List.take_append, List.take_of_length_le (by
      rw [List.length_append, sized]
      exact held), List.length_append, sized]
  have cutOf := replay_cut crc32c header records (before ++ after)
    (split ▸ framed_append crc32c leftFramed rightFramed) ⟨_, []⟩ outcome
    (List.take_prefix cut _) finished
  rw [taken, journal_front crc32c _ front (by
    rw [List.length_append, sized]
    omega)] at finished
  obtain ⟨more, gathered⟩ := replay_loop_gathered crc32c finished
  have fronts : endedBy cut records ++ more <+: endedBy cut records ++ right := by
    rw [← split, ← gathered.records]
    exact cutOf.2
  have moreFront := (List.prefix_append_right_inj _).mp fronts
  cases shape : more with
  | nil => rw [gathered.records, shape, List.append_nil]
  | cons frame rest =>
    -- One more record would have to fit in front of the cut.
    rw [shape] at moreFront
    obtain ⟨behind, rightShape⟩ := moreFront
    have reach := next frame (rest ++ behind) rightShape.symm
    have framed := gathered.framed
    rw [shape] at framed
    have fits := framed_reach crc32c framed
    rw [List.length_take, List.length_take] at fits
    omega

/-- Replaying any bytes that agree with a journal up to `cut` returns the records that
end there, unchanged, and a clean cut returns nothing else; it ends cleanly exactly
at a record boundary. -/
theorem damage_confined (header : FileHeader) (records : List FramedRecord) (journal : List UInt8)
    (valid : Journal crc32c header records journal) (representable : journal.length < 2 ^ 64)
    (cut : Nat) (whole : headerLen ≤ cut) :
    (∀ bytes, bytes.length < 2 ^ 64 → bytes.take cut = journal.take cut →
      ∃ outcome, replayBytes crc32c bytes = .ok outcome ∧ outcome.header = header ∧
        endedBy cut records <+: outcome.records) ∧
    ∃ outcome, replayBytes crc32c (journal.take cut) = .ok outcome ∧ outcome.header = header ∧
      outcome.records = endedBy cut records ∧
      (outcome.stop = .cleanEof ↔ Boundary crc32c records (min cut journal.length)) := by
  obtain ⟨right, before, after, split, shape, leftFramed, _, front, held, _⟩ :=
    journal_cut crc32c valid whole
  have sized := header_length crc32c header
  have isFront : header.encode crc32c ++ before <+: journal := by
    rw [shape, ← List.append_assoc]
    exact List.prefix_append _ _
  have frontLength : (header.encode crc32c ++ before).length = headerLen + before.length := by
    rw [List.length_append, sized]
  have cutLength : (journal.take cut).length = min cut journal.length := List.length_take
  have agreeing : ∀ bytes, bytes.length < 2 ^ 64 → bytes.take cut = journal.take cut →
      ∃ outcome, replayBytes crc32c bytes = .ok outcome ∧ outcome.header = header ∧
        endedBy cut records <+: outcome.records := by
    intro bytes short agrees
    obtain ⟨outcome, finished, sameHeader, kept, _⟩ := replay_longest crc32c header _ _ bytes front
      (agreeing_front isFront (frontLength ▸ held) agrees) short
    exact ⟨outcome, finished, sameHeader, kept⟩
  refine ⟨agreeing, ?_⟩
  obtain ⟨outcome, finished, sameHeader, _⟩ := agreeing (journal.take cut) (by omega) (by
    rw [List.take_take, Nat.min_self])
  have exactly := cut_records crc32c valid representable whole
    finished
  refine ⟨outcome, finished, sameHeader, exactly, ?_⟩
  rw [replay_clean_iff crc32c finished, cutLength]
  constructor
  · intro reached
    refine ⟨endedBy cut records, right, before, split, leftFramed, ?_⟩
    -- The valid bytes are the header and the records that ended, and nothing else.
    obtain ⟨framed, written, taken⟩ := (replay_journal crc32c finished).encoded
    rw [exactly] at written
    rw [framed_unique crc32c written leftFramed] at taken
    have length := congrArg List.length taken
    rw [List.length_take, List.length_append, header_length, cutLength] at length
    omega
  · intro boundary
    obtain ⟨left, start, shorter, isStart, reach⟩ :=
      boundary_journal crc32c valid boundary
    obtain ⟨found, same, _, _, long⟩ := replay_longest crc32c header left start (journal.take cut)
      shorter (List.prefix_take_iff.mpr ⟨isStart, by omega⟩) (by omega)
    rw [finished] at same
    cases same
    have inside := (replay_resumable crc32c finished).held
    omega

end Damage

/-! A journal with one record, under a constant checksum. -/

def zeroChecksum : List UInt8 → UInt32 := fun _ => 0

def smallHeader : FileHeader := ⟨List.Vector.replicate 16 0, 10, 4, List.Vector.replicate 32 0⟩

def smallFrame : FramedRecord := ⟨0, .truncate 5⟩

def smallJournal : List UInt8 :=
  smallHeader.encode zeroChecksum ++ (smallFrame.body ++ u32Bytes (zeroChecksum smallFrame.body))

/-- The journal with one stray byte behind it, read in pieces. -/
theorem replay_exact_stray :
    ∃ outcome, replayReader zeroChecksum ⟨smallJournal ++ [7], [.short 4, .interrupted]⟩ = .ok outcome ∧
      Exact zeroChecksum (smallJournal ++ [7]) outcome := by
  have short : (smallJournal ++ [7]).length < 2 ^ 64 := by
    simp [smallJournal, header_length, frame_body_length, smallFrame, encodePayload, headerLen,
      recordPrefixLen]
  obtain ⟨_, ⟨error, refused, _⟩ | ⟨outcome, finished, exactly, _⟩⟩ :=
    replay_exact zeroChecksum (smallJournal ++ [7]) short [.short 4, .interrupted] (by simp)
  · have front : (smallJournal ++ [7]).take headerLen = smallHeader.encode zeroChecksum ++ [] := by
      rw [smallJournal, List.append_assoc, List.take_left' (header_length _ _), List.append_nil]
    rw [front, header_round_trip] at refused
    cases refused
  · exact ⟨outcome, finished, exactly⟩

def laterFrame : FramedRecord := ⟨1, .truncate 4⟩

def pairJournal : List UInt8 :=
  smallJournal ++ (laterFrame.body ++ u32Bytes (zeroChecksum laterFrame.body))

theorem pair_journal_valid :
    Journal zeroChecksum smallHeader [smallFrame, laterFrame] pairJournal :=
  ⟨⟨rfl, rfl, trivial⟩, _, framed_append zeroChecksum (framed_single zeroChecksum smallFrame rfl)
    (framed_single zeroChecksum laterFrame rfl), List.append_assoc _ _ _⟩

/-- A cut inside the second record leaves the first one. -/
theorem damage_confined_small :
    ∃ outcome, replayBytes zeroChecksum (pairJournal.take 100) = .ok outcome ∧
      outcome.header = smallHeader ∧ outcome.records = [smallFrame] := by
  have short : pairJournal.length < 2 ^ 64 := by
    simp [pairJournal, smallJournal, header_length, frame_body_length, smallFrame, laterFrame,
      encodePayload, headerLen, recordPrefixLen]
  obtain ⟨_, outcome, finished, sameHeader, exactly, _⟩ := damage_confined zeroChecksum smallHeader
    [smallFrame, laterFrame] pairJournal pair_journal_valid short 100 (by decide)
  exact ⟨outcome, finished, sameHeader, exactly⟩

end Downpour.ReplayExact
