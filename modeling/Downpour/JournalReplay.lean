import Downpour.JournalFormat

/-!
Replay of a recovery journal. A reader hands out the bytes of a file under a
schedule of short reads, interruptions and failures; once the schedule is used
up every read returns what was asked for. Replay keeps the longest run of valid
frames whose sequence numbers count from zero. The `u64` counters of the source
are natural numbers with the overflow tests written out.
-/

namespace Downpour.JournalReplay
open Bytes JournalFormat

inductive IoErrorKind where
  | invalidData
  | alreadyExists
  | notFound
  | other
  deriving DecidableEq, Repr

structure IoError where
  kind : IoErrorKind
  rawOsError : Option Int
  message : String
  deriving DecidableEq, Repr

inductive ReadEvent where
  | short (count : Nat)
  | interrupted
  | failed (error : IoError)
  deriving DecidableEq, Repr

structure Reader where
  remaining : List UInt8
  schedule : List ReadEvent
  deriving DecidableEq, Repr

/-- `read_up_to`, with the bytes it placed in the destination. -/
def readUpTo : List ReadEvent → List UInt8 → Nat → Except IoError (List UInt8 × Reader)
  | [], remaining, want => .ok (remaining.take want, ⟨remaining.drop want, []⟩)
  | event :: later, remaining, want =>
    if want = 0 then .ok ([], ⟨remaining, event :: later⟩)
    else match event with
      | .interrupted => readUpTo later remaining want
      | .failed error => .error error
      | .short count =>
        let read := min (count + 1) (min want remaining.length)
        if read = 0 then .ok ([], ⟨remaining, later⟩)
        else (readUpTo later (remaining.drop read) (want - read)).map fun filled =>
          (remaining.take read ++ filled.1, filled.2)

theorem read_up_to_takes (done : readUpTo schedule remaining want = .ok filled) :
    filled.1 = remaining.take want ∧ filled.2.remaining = remaining.drop want := by
  -- However the reads are cut, a successful `read_up_to` returns the next `want` bytes, or all
  -- that are left.
  induction schedule generalizing remaining want filled with
  | nil =>
    cases done
    exact ⟨rfl, rfl⟩
  | cons event later ih =>
    simp only [readUpTo] at done
    split at done
    next none =>
      cases done
      simp [none]
    next wanted =>
      cases event with
      | interrupted => exact ih done
      | failed error => cases done
      | short count =>
        simp only at done
        split at done
        next ended =>
          cases done
          have empty : remaining = [] := by
            cases remaining with
            | nil => rfl
            | cons first rest => simp at ended; omega
          simp [empty]
        next progress =>
          generalize size : min (count + 1) (min want remaining.length) = read at done progress
          have within : read ≤ want := by omega
          cases next : readUpTo later (remaining.drop read) (want - read) with
          | error error => simp [next, Except.map] at done
          | ok rest =>
            simp only [next, Except.map, Except.ok.injEq] at done
            subst filled
            obtain ⟨taken, left⟩ := ih next
            constructor
            · rw [taken, ← List.take_add, Nat.add_sub_cancel' within]
            · rw [left, List.drop_drop, Nat.add_sub_cancel' within]

theorem frame_shrinks (reader : Reader)
    (prefixRead : readUpTo reader.schedule reader.remaining recordPrefixLen =
      .ok (start, afterPrefix))
    (suffixRead : readUpTo afterPrefix.schedule afterPrefix.remaining suffixLen =
      .ok (suffix, afterFrame))
    (present : start.length ≠ 0) : afterFrame.remaining.length < reader.remaining.length := by
  have first := read_up_to_takes prefixRead
  have second := read_up_to_takes suffixRead
  have sized := congrArg List.length first.1
  rw [second.2, first.2]
  simp only [List.length_take, List.length_drop] at sized ⊢
  rw [recordPrefixLen] at *
  omega

inductive ReplayStop where
  | cleanEof
  | damagedTail (error : FormatError)
  | sequenceGap (expected found : Nat)
  deriving DecidableEq

structure ReplayOutcome where
  header : FileHeader
  records : List FramedRecord
  validBytes : Nat
  stop : ReplayStop
  deriving DecidableEq

inductive ReplayError where
  | format (error : FormatError)
  | io (error : IoError)
  deriving DecidableEq

def overflowError (message : String) : ReplayError :=
  .io ⟨.invalidData, none, message⟩

section Replay
variable (crc32c : List UInt8 → UInt32)

/-- The record loop of `replay_reader`. -/
def replayLoop (header : FileHeader) (reader : Reader) (records : List FramedRecord)
    (expected validBytes : Nat) : Except ReplayError ReplayOutcome :=
  match prefixRead : readUpTo reader.schedule reader.remaining recordPrefixLen with
  | .error error => .error (.io error)
  | .ok (start, afterPrefix) =>
    if ended : start.length = 0 then .ok ⟨header, records, validBytes, .cleanEof⟩
    else if start.length < recordPrefixLen then
      .ok ⟨header, records, validBytes, .damagedTail (.truncated recordPrefixLen start.length)⟩
    else
      let suffixLen := ofLittleEndian (start.drop 9) + checksumLen
      match suffixRead : readUpTo afterPrefix.schedule afterPrefix.remaining suffixLen with
      | .error error => .error (.io error)
      | .ok (suffix, afterFrame) =>
        if suffix.length < suffixLen then
          .ok ⟨header, records, validBytes,
            .damagedTail (.truncated (recordPrefixLen + suffixLen)
              (recordPrefixLen + suffix.length))⟩
        else match FramedRecord.decodePrefix crc32c (start ++ suffix) with
          | .error error => .ok ⟨header, records, validBytes, .damagedTail error⟩
          | .ok (record, consumed) =>
            if record.sequence.toNat ≠ expected then
              .ok ⟨header, records, validBytes, .sequenceGap expected record.sequence.toNat⟩
            else if validBytes + consumed ≥ 2 ^ 64 then
              .error (overflowError "journal byte offset overflow")
            else if expected + 1 ≥ 2 ^ 64 then
              .error (overflowError "journal sequence overflow")
            else
              have := frame_shrinks reader prefixRead suffixRead ended
              replayLoop header afterFrame (records ++ [record]) (expected + 1)
                (validBytes + consumed)
termination_by reader.remaining.length

def replayReader (reader : Reader) : Except ReplayError ReplayOutcome :=
  match readUpTo reader.schedule reader.remaining headerLen with
  | .error error => .error (.io error)
  | .ok (headerBytes, afterHeader) =>
    match FileHeader.decode crc32c headerBytes with
    | .error error => .error (.format error)
    | .ok header => replayLoop crc32c header afterHeader [] 0 headerLen

def replayBytes (bytes : List UInt8) : Except ReplayError ReplayOutcome :=
  replayReader crc32c ⟨bytes, []⟩

variable {header : FileHeader} {expected : Nat} {frames : List FramedRecord} {bytes : List UInt8}

theorem replay_loop_round
    (finished : replayLoop crc32c header reader records expected validBytes = .ok outcome) :
    (outcome.header = header ∧ outcome.records = records ∧ outcome.validBytes = validBytes ∧
      (outcome.stop = .cleanEof → reader.remaining = [])) ∨ ∃ frameLen record consumed afterFrame,
      recordPrefixLen ≤ reader.remaining.length ∧ frameLen = recordPrefixLen +
        (ofLittleEndian ((reader.remaining.take recordPrefixLen).drop 9) + checksumLen) ∧
      frameLen ≤ reader.remaining.length ∧
      FramedRecord.decodePrefix crc32c (reader.remaining.take frameLen) = .ok (record, consumed) ∧
      record.sequence.toNat = expected ∧ afterFrame.remaining = reader.remaining.drop frameLen ∧
      consumed = frameLen ∧ validBytes + consumed < 2 ^ 64 ∧ expected + 1 < 2 ^ 64 ∧
      replayLoop crc32c header afterFrame (records ++ [record]) (expected + 1)
        (validBytes + consumed) = .ok outcome := by
  -- One round of the record loop: it stops with what it has, or takes one whole frame with the
  -- expected sequence number and goes on behind it.
  rw [replayLoop] at finished
  split at finished
  · cases finished
  next start afterPrefix prefixRead =>
    obtain ⟨startTaken, afterStart⟩ := read_up_to_takes prefixRead
    simp only at startTaken afterStart
    split at finished
    next ended =>
      cases finished
      have empty : reader.remaining = [] := by
        have sized := congrArg List.length startTaken
        rw [ended, List.length_take, recordPrefixLen] at sized
        exact List.length_eq_zero_iff.mp (by omega)
      exact Or.inl ⟨rfl, rfl, rfl, fun _ => empty⟩
    split at finished
    · cases finished
      exact Or.inl ⟨rfl, rfl, rfl, by simp⟩
    next present whole =>
      simp only at finished
      split at finished
      · cases finished
      next suffix afterFrame suffixRead =>
        obtain ⟨suffixTaken, afterSuffix⟩ := read_up_to_takes suffixRead
        simp only at suffixTaken afterSuffix
        split at finished
        · cases finished
          exact Or.inl ⟨rfl, rfl, rfl, by simp⟩
        next complete =>
          have startLength := congrArg List.length startTaken
          have suffixLength := congrArg List.length suffixTaken
          simp only [List.length_take, afterStart, List.length_drop] at startLength suffixLength
          have joined : start ++ suffix = reader.remaining.take (recordPrefixLen +
              (ofLittleEndian (start.drop 9) + checksumLen)) := by
            rw [List.take_add, ← startTaken, suffixTaken, afterStart]
          split at finished
          · cases finished
            exact Or.inl ⟨rfl, rfl, rfl, by simp⟩
          next record consumed decoded =>
            rw [joined] at decoded
            split at finished
            · cases finished
              exact Or.inl ⟨rfl, rfl, rfl, by simp⟩
            next inOrder =>
              split at finished
              · cases finished
              next bytesFit =>
                split at finished
                · cases finished
                next countFits =>
                  have whole : reader.remaining.take recordPrefixLen = start := startTaken.symm
                  have extent := decode_prefix_consumed crc32c decoded
                  rw [List.take_take, Nat.min_eq_left (Nat.le_add_right _ _), whole] at extent
                  refine Or.inr ⟨_, record, consumed, afterFrame, by omega, rfl, ?_, ?_,
                    not_not.mp inOrder, ?_, ?_, Nat.lt_of_not_le bytesFit,
                    Nat.lt_of_not_le countFits, finished⟩
                  · rw [whole]
                    omega
                  · rw [whole]
                    exact decoded
                  · rw [afterSuffix, afterStart, List.drop_drop, whole]
                  · rw [extent, whole]

/-- `bytes` is the encodings of `frames`, one behind the other. -/
inductive Framed : List FramedRecord → List UInt8 → Prop where
  | nil : Framed [] []
  | cons (frame : FramedRecord) (rest : List FramedRecord) (first bytes : List UInt8)
      (written : frame.encode crc32c = .ok first) (tail : Framed rest bytes) :
      Framed (frame :: rest) (first ++ bytes)

theorem framed_append
    (leftFramed : Framed crc32c left before) (rightFramed : Framed crc32c right after) :
    Framed crc32c (left ++ right) (before ++ after) := by
  induction leftFramed with
  | nil => exact rightFramed
  | cons frame rest first bytes written tail ih =>
    rw [List.cons_append, List.append_assoc]
    exact Framed.cons frame _ first _ written ih

theorem framed_single (frame : FramedRecord)
    (written : frame.encode crc32c = .ok encoded) : Framed crc32c [frame] encoded := by
  have framed := Framed.cons frame [] encoded [] written Framed.nil
  rwa [List.append_nil] at framed

theorem frame_extent (frame : FramedRecord) (rest : List UInt8)
    (written : frame.encode crc32c = .ok encoded) :
    recordPrefixLen + (ofLittleEndian (((encoded ++ rest).take recordPrefixLen).drop 9) +
      checksumLen) = encoded.length := by
  have sized := frame_length crc32c frame written
  have exactLen := payload_len_exact crc32c written
  obtain ⟨_, rfl⟩ := frame_encoded crc32c frame written
  have start : (frame.body ++ u32Bytes (crc32c frame.body) ++ rest).take recordPrefixLen =
      (u64Bytes frame.sequence ++ [(encodePayload frame.record).1]) ++
        u16Bytes (UInt16.ofNat (encodePayload frame.record).2.length) := by
    simp only [FramedRecord.body, List.append_assoc]
    rw [← List.append_assoc [_], ← List.append_assoc (u64Bytes _)]
    exact List.take_left' (by simp [recordPrefixLen])
  have field : ((u64Bytes frame.sequence ++ [(encodePayload frame.record).1]) ++
      u16Bytes (UInt16.ofNat (encodePayload frame.record).2.length)).drop 9 =
        u16Bytes (UInt16.ofNat (encodePayload frame.record).2.length) :=
    List.drop_left' (by simp)
  rw [start, field, u16Bytes, little_endian_read 2 _ (UInt16.toNat_lt _), exactLen, sized]
  omega

theorem replay_loop_cut (framed : Framed crc32c frames bytes) (cut : reader.remaining <+: bytes)
    (finished : replayLoop crc32c header reader records expected validBytes = .ok outcome) :
    outcome.header = header ∧ ∃ more, more <+: frames ∧ outcome.records = records ++ more := by
  induction framed generalizing reader records expected validBytes with
  | nil =>
    have empty : reader.remaining = [] := List.prefix_nil.mp cut
    rcases replay_loop_round crc32c finished with
      ⟨same, kept, _, _⟩ | ⟨_, _, _, _, long, _⟩
    · exact ⟨same, [], List.nil_prefix, by simp [kept]⟩
    · simp [empty, recordPrefixLen] at long
  | cons frame rest first tail written _ ih =>
    rcases replay_loop_round crc32c finished with
      ⟨same, kept, _, _⟩ | ⟨frameLen, record, consumed, after, long, sized, held, decoded, _, left, _, _, _, next⟩
    · exact ⟨same, [], List.nil_prefix, by simp [kept]⟩
    · have extent := frame_extent crc32c frame tail written
      have sameStart : (first ++ tail).take recordPrefixLen =
          reader.remaining.take recordPrefixLen := by
        obtain ⟨missing, joined⟩ := cut
        rw [← joined, List.take_append_of_le_length long]
      rw [sameStart, ← sized] at extent
      -- The reader holds the whole first frame, so what it decoded is that frame.
      have whole : reader.remaining = first ++ reader.remaining.drop frameLen := by
        obtain ⟨missing, joined⟩ := cut
        have taken := congrArg (List.take frameLen) joined
        rw [List.take_append_of_le_length held, extent, List.take_left, ← extent] at taken
        rw [← taken, List.take_append_drop]
      have frameTaken : reader.remaining.take frameLen = first ++ [] := by
        rw [whole, extent, List.take_left, List.append_nil]
      rw [frameTaken, frame_round_trip crc32c frame first [] written] at decoded
      cases decoded
      have cutTail : after.remaining <+: tail := by
        rw [left]
        rw [whole] at cut
        exact (List.prefix_append_right_inj first).mp cut
      obtain ⟨same, more, isCut, kept⟩ := ih cutTail next
      refine ⟨same, frame :: more, ?_, by simp [kept]⟩
      exact List.cons_prefix_cons.mpr ⟨rfl, isCut⟩

theorem header_decoded_length (decoded : FileHeader.decode crc32c bytes = .ok header) :
    headerLen ≤ bytes.length := by
  by_contra short
  have truncated : requireLen bytes headerLen = .error (.truncated headerLen bytes.length) := by
    rw [requireLen, if_neg short]
  simp [FileHeader.decode, truncated, bind, Except.bind] at decoded

theorem replay_cut (header : FileHeader) (frames : List FramedRecord) (bytes : List UInt8)
    (framed : Framed crc32c frames bytes) (reader : Reader) (outcome : ReplayOutcome)
    (cut : reader.remaining <+: header.encode crc32c ++ bytes)
    (finished : replayReader crc32c reader = .ok outcome) :
    outcome.header = header ∧ outcome.records <+: frames := by
  -- Replaying any cut of a written journal returns its header and a leading part of the records
  -- written to it.
  unfold replayReader at finished
  split at finished
  · cases finished
  next headerBytes afterHeader headerRead =>
    obtain ⟨taken, left⟩ := read_up_to_takes headerRead
    simp only at taken left
    split at finished
    · cases finished
    next found decoded =>
      have sized := header_length crc32c header
      have long : headerLen ≤ reader.remaining.length := by
        have held := header_decoded_length crc32c decoded
        rw [taken, List.length_take] at held
        omega
      have whole : reader.remaining.take headerLen = header.encode crc32c := by
        obtain ⟨missing, joined⟩ := cut
        have taken := congrArg (List.take headerLen) joined
        rwa [List.take_append_of_le_length long, ← sized, List.take_left, sized] at taken
      have cutBody : afterHeader.remaining <+: bytes := by
        rw [left]
        rw [← List.take_append_drop headerLen reader.remaining, whole] at cut
        exact (List.prefix_append_right_inj _).mp cut
      rw [taken, whole, ← List.append_nil (header.encode crc32c), header_round_trip] at decoded
      cases decoded
      obtain ⟨same, more, isCut, kept⟩ :=
        replay_loop_cut crc32c framed cutBody finished
      rw [kept]
      exact ⟨same, isCut⟩

def Contiguous : Nat → List FramedRecord → Prop
  | _, [] => True
  | expected, frame :: rest => frame.sequence.toNat = expected ∧ Contiguous (expected + 1) rest

theorem contiguous_append (expected : Nat) (left right : List FramedRecord) :
    Contiguous expected (left ++ right) ↔
      Contiguous expected left ∧ Contiguous (expected + left.length) right := by
  induction left generalizing expected with
  | nil => simp [Contiguous]
  | cons frame rest ih =>
    have shift : expected + 1 + rest.length = expected + (rest.length + 1) := by omega
    simp only [List.cons_append, Contiguous, ih, List.length_cons, shift, and_assoc]

theorem replay_loop_next (header : FileHeader) (records : List FramedRecord)
     (sized : frameLen = recordPrefixLen +
      (ofLittleEndian ((bytes.take recordPrefixLen).drop 9) + checksumLen))
    (held : frameLen ≤ bytes.length)
    (decoded : FramedRecord.decodePrefix crc32c (bytes.take frameLen) = .ok (record, frameLen))
    (inOrder : record.sequence.toNat = expected) (bytesFit : validBytes + frameLen < 2 ^ 64)
    (countFits : expected + 1 < 2 ^ 64) :
    replayLoop crc32c header ⟨bytes, []⟩ records expected validBytes =
      replayLoop crc32c header ⟨bytes.drop frameLen, []⟩ (records ++ [record]) (expected + 1)
        (validBytes + frameLen) := by
  -- One round over bytes that start with a whole frame of the expected number.
  generalize suffix : ofLittleEndian ((bytes.take recordPrefixLen).drop 9) + checksumLen =
    suffixLen at sized
  subst sized
  have startLength : (bytes.take recordPrefixLen).length = recordPrefixLen := by
    rw [List.length_take]
    omega
  have suffixLength : ((bytes.drop recordPrefixLen).take suffixLen).length = suffixLen := by
    rw [List.length_take, List.length_drop]
    omega
  have joined : bytes.take recordPrefixLen ++ (bytes.drop recordPrefixLen).take suffixLen =
      bytes.take (recordPrefixLen + suffixLen) := List.take_add.symm
  rw [replayLoop]
  simp only [readUpTo, suffix, startLength, suffixLength, joined, List.drop_drop, decoded, inOrder,
    lt_self_iff_false, ↓reduceIte, ne_eq, not_true_eq_false]
  rw [dif_neg (by decide), if_neg (by omega), if_neg (by omega)]

theorem replay_loop_whole (framed : Framed crc32c frames bytes) (header : FileHeader)
    (records : List FramedRecord) (validBytes : Nat) (ordered : Contiguous expected frames)
    (bytesFit : validBytes + bytes.length < 2 ^ 64) (countFits : expected + frames.length < 2 ^ 64)
    :
    replayLoop crc32c header ⟨bytes, []⟩ records expected validBytes =
      .ok ⟨header, records ++ frames, validBytes + bytes.length, .cleanEof⟩ := by
  induction framed generalizing records expected validBytes with
  | nil =>
    rw [replayLoop]
    simp [readUpTo]
  | cons frame rest first tail written _ ih =>
    obtain ⟨inOrder, later⟩ := ordered
    have extent := frame_extent crc32c frame tail written
    have decoded := frame_round_trip crc32c frame first [] written
    rw [List.append_nil] at decoded
    simp only [List.length_append, List.length_cons] at bytesFit countFits
    rw [replay_loop_next crc32c header records
      extent.symm (by simp) (by rwa [List.take_left]) inOrder (by omega) (by omega),
      List.drop_left, ih _ _ later (by omega) (by omega)]
    simp [Nat.add_assoc]

theorem replay_whole (header : FileHeader) (framed : Framed crc32c frames bytes)
    (ordered : Contiguous 0 frames) (bytesFit : headerLen + bytes.length < 2 ^ 64)
    (countFits : frames.length < 2 ^ 64) :
    replayBytes crc32c (header.encode crc32c ++ bytes) =
      .ok ⟨header, frames, headerLen + bytes.length, .cleanEof⟩ := by
  have sized := header_length crc32c header
  have headerTaken : (header.encode crc32c ++ bytes).take headerLen =
      header.encode crc32c ++ [] := by
    rw [← sized, List.take_left, List.append_nil]
  have bodyLeft : (header.encode crc32c ++ bytes).drop headerLen = bytes := by
    rw [← sized, List.drop_left]
  have looped := replay_loop_whole crc32c framed header [] headerLen ordered
    bytesFit (by omega)
  simp only [replayBytes, replayReader, readUpTo, headerTaken, bodyLeft, header_round_trip]
  rw [looped, List.nil_append]

end Replay

end Downpour.JournalReplay
