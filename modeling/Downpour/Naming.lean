import Downpour.Completion

/-!
A file gets its final name only behind the checks. Next to the result of
`verify_and_rename` stand the steps it takes on the files, in their order: the
events of the journal and the rename. A rename that fails leaves the files as they
are. Nothing else touches the part file between the checks and the rename.
-/

namespace Downpour.Naming
open Segments CrashDisk Intervals JournalFormat JournalReplay Remote Writer Completion

inductive NamingStep where
  | journal (event : Event UInt8)
  | rename (source target : String) (failed : Option IoError)

structure Files where
  named : String → Option (List UInt8)
  journal : Disk UInt8

def Files.apply (files : Files) : NamingStep → Files
  | .journal event => { files with journal := files.journal.apply event }
  | .rename _ _ (some _) => files
  | .rename source target none =>
    if source = target then files
    else { files with
      named := fun path => if path = target then files.named source
        else if path = source then none else files.named path }

def Files.run (files : Files) (steps : List NamingStep) : Files :=
  steps.foldl Files.apply files

def journalEvents (steps : List NamingStep) : List (Event UInt8) :=
  steps.filterMap fun step => match step with
    | .journal event => some event
    | .rename _ _ _ => none

section Steps
variable (hashes : Hashes) (crc32c : List UInt8 → UInt32)

def appendSeal (finalBlake3 : Digest) (journalBytes nextSequence : Nat) (io : CompletionIo) :
    List (Event UInt8) × Nat × Option WriterError :=
  appendAll crc32c (fun _ => io.appended) 0 journalBytes
    [⟨UInt64.ofNat nextSequence, .sealed finalBlake3⟩]

def sealAndRenameSteps (partPath finalPath : String) (finalBlake3 : Digest)
    (journalBytes nextSequence : Nat) (io : CompletionIo) : List NamingStep :=
  match appendSeal crc32c finalBlake3 journalBytes nextSequence io with
  | (events, _, some _) => events.map .journal
  | (events, _, none) =>
    match io.synced with
    | some _ => events.map .journal ++ [.journal .syncLogFailed]
    | none => events.map .journal ++ [.journal .syncLog, .rename partPath finalPath io.renamed]

def verifyAndRenameSteps (content : List UInt8) (partPath finalPath : String) (totalLength : Nat)
    (intervals : IntervalMap) (digest : Option ContentDigest) (journalBytes nextSequence : Nat)
    (io : CompletionIo) : List NamingStep :=
  match io.measured with
  | some _ => []
  | none =>
    if content.length ≠ totalLength then []
    else match checkCoverage intervals totalLength with
      | .error _ => []
      | .ok () =>
        match io.opened, io.read with
        | some _, _ => []
        | none, some _ => []
        | none, none =>
          match checkDigest hashes content digest with
          | .error _ => []
          | .ok _ =>
            sealAndRenameSteps crc32c partPath finalPath (hashes.blake3 content) journalBytes
              nextSequence io

theorem seal_steps_agree (partPath finalPath : String) (finalBlake3 : Digest)
    (digestChecked : DigestOutcome) (journalBytes nextSequence : Nat) (io : CompletionIo) :
    let steps := sealAndRenameSteps crc32c partPath finalPath finalBlake3 journalBytes nextSequence io
    let outcome := sealAndRename crc32c finalPath finalBlake3 digestChecked journalBytes
      nextSequence io
    journalEvents steps = outcome.2 ∧
      ((∃ sealing, outcome.1 = .ok sealing) ↔ .rename partPath finalPath none ∈ steps) := by
  simp only [sealAndRenameSteps, sealAndRename, appendSeal]
  rcases appendAll crc32c (fun _ => io.appended) 0 journalBytes
    [⟨UInt64.ofNat nextSequence, .sealed finalBlake3⟩] with ⟨events, length, _ | error⟩
  · cases io.synced with
    | some error => simp [journalEvents]
    | none => cases io.renamed <;> simp [journalEvents]
  · simp [journalEvents]

theorem steps_agree (content : List UInt8) (partPath finalPath : String) (totalLength : Nat)
    (intervals : IntervalMap) (digest : Option ContentDigest) (journalBytes nextSequence : Nat)
    (io : CompletionIo) :
    let steps := verifyAndRenameSteps hashes crc32c content partPath finalPath totalLength intervals
      digest journalBytes nextSequence io
    let outcome := verifyAndRename hashes crc32c content finalPath totalLength intervals digest
      journalBytes nextSequence io
    journalEvents steps = outcome.2 ∧
      ((∃ sealing, outcome.1 = .ok sealing) ↔ .rename partPath finalPath none ∈ steps) := by
  simp only [verifyAndRenameSteps, verifyAndRename]
  cases io.measured with
  | some error => simp [journalEvents]
  | none =>
    by_cases long : content.length ≠ totalLength
    · simp [journalEvents, long]
    · simp only [if_neg long]
      cases checkCoverage intervals totalLength with
      | error error => simp [journalEvents]
      | ok _ =>
        cases io.opened with
        | some error => simp [journalEvents]
        | none =>
          cases io.read with
          | some error => simp [journalEvents]
          | none =>
            cases checkDigest hashes content digest with
            | error error => simp [journalEvents]
            | ok digestChecked =>
              exact seal_steps_agree crc32c partPath finalPath (hashes.blake3 content)
                digestChecked journalBytes nextSequence io

theorem named_checked
    (named : (verifyAndRename hashes crc32c content finalPath totalLength intervals digest
      journalBytes nextSequence io).1 = .ok sealing) :
    checkCoverage intervals totalLength = .ok () ∧
      ∃ outcome, checkDigest hashes content digest = .ok outcome := by
  unfold verifyAndRename at named
  cases covered : checkCoverage intervals totalLength with
  | error error =>
    simp only [covered] at named
    repeat' split at named
    all_goals cases named
  | ok _ =>
    cases checked : checkDigest hashes content digest with
    | ok outcome => exact ⟨rfl, outcome, rfl⟩
    | error error =>
      simp only [covered, checked] at named
      repeat' split at named
      all_goals cases named

end Steps

/-! What each check accepts. -/

theorem coverage_gap (intervals : List Interval) (covered : Nat) (gap : Option Nat) :
    (coverage covered gap intervals).2 = none ↔
      gap = none ∧ ∀ interval ∈ intervals, interval.label = .complete := by
  induction intervals generalizing covered gap with
  | nil => simp [coverage]
  | cons interval rest ih =>
    by_cases complete : interval.label = .complete
    · simp [coverage, complete, ih]
    · cases gap <;> simp [coverage, complete, ih]

theorem coverage_sum {intervals : List Interval} {lo hi : Nat} (gap : Option Nat)
    (chain : Chain lo hi intervals) (bounded : hi < 2 ^ 64)
    (complete : ∀ interval ∈ intervals, interval.label = .complete) :
    (coverage lo gap intervals).1 = hi := by
  -- The saturating sum is the exact one while the partition ends below `2 ^ 64`.
  induction intervals generalizing lo with
  | nil => exact chain
  | cons interval rest ih =>
    obtain ⟨begins, positive, tail⟩ := chain
    have within := chain_le tail
    have exact : saturatingAdd lo (interval.stop - interval.start) = interval.stop := by
      rw [saturatingAdd]
      omega
    rw [coverage, if_pos (complete interval List.mem_cons_self), exact]
    exact ih tail fun later mem => complete later (List.mem_cons_of_mem _ mem)

theorem check_coverage_ok (total : Nat) (bounded : intervals.totalLength < 2 ^ 64) :
    checkCoverage intervals total = .ok () ↔
      intervals.totalLength = total ∧
        ∀ pos, pos < total → intervals.stateAt pos = some .complete := by
  have gapless := coverage_gap intervals.intervals 0 none
  have sum := coverage_sum none intervals.partitions
    bounded
  have bytes := intervals.all_complete_iff
  rw [checkCoverage]
  generalize coverage 0 none intervals.intervals = counted at gapless sum ⊢
  rcases counted with ⟨covered, _ | gap⟩
  · have every := (gapless.mp rfl).2
    have exact : covered = intervals.totalLength := sum every
    subst exact
    by_cases same : intervals.totalLength = total
    · subst same
      simpa using bytes.mp every
    · simp [same]
  · -- A gap is a byte that is not complete.
    simp only [reduceCtorEq, false_iff, not_and]
    rintro rfl every
    cases gapless.mpr ⟨rfl, bytes.mpr every⟩

theorem difference_zero (pairs : List (UInt8 × UInt8)) (diff : UInt8) :
    pairs.foldl (fun diff pair => diff ||| (pair.1 ^^^ pair.2)) diff = 0 ↔
      diff = 0 ∧ ∀ pair ∈ pairs, pair.1 = pair.2 := by
  induction pairs generalizing diff with
  | nil => simp
  | cons pair rest ih =>
    simp [ih, UInt8.or_eq_zero_iff, and_assoc]

theorem constant_time_eq_iff (left right : List UInt8) :
    constantTimeEq left right = true ↔ left = right := by
  simp only [constantTimeEq, Bool.and_eq_true, beq_iff_eq, difference_zero, true_and]
  constructor
  · rintro ⟨lengths, equal⟩
    refine List.ext_getElem lengths fun index inLeft inRight => ?_
    exact equal (left[index], right[index])
      (List.mem_iff_getElem.mpr ⟨index, by simp [inLeft, inRight], by simp⟩)
  · rintro rfl
    refine ⟨rfl, fun pair mem => ?_⟩
    obtain ⟨index, _, rfl⟩ := List.mem_iff_getElem.mp mem
    simp

def digestLength : DigestAlgorithm → Nat
  | .sha256 => 32
  | .sha512 => 64

/-- The decoder of padded base64: four ASCII characters for every three bytes. -/
def Padded (hashes : Hashes) : Prop :=
  ∀ text bytes, hashes.base64 text = some bytes →
    utf8Length text = 4 * ((bytes.length + 2) / 3)

theorem decode_digest_some (padded : Padded hashes) (offered : ContentDigest)
    (expected : List UInt8) :
    decodeDigest hashes offered = some expected ↔ hashes.base64 offered.encoded = some expected ∧
        expected.length = digestLength offered.algorithm := by
  -- The bound on the encoded length refuses no digest of a known algorithm.
  have size : decodeDigest hashes offered = some expected ↔
      ¬ utf8Length offered.encoded > maxDigestBase64 ∧
        hashes.base64 offered.encoded = some expected ∧
          expected.length = digestLength offered.algorithm := by
    rw [decodeDigest]
    by_cases long : utf8Length offered.encoded > maxDigestBase64
    · simp [long]
    · cases algorithm : offered.algorithm <;>
        simp [long, digestLength, Option.filter_eq_some_iff]
  rw [size, and_iff_right_iff_imp]
  rintro ⟨decoded, length⟩
  have exact := padded _ _ decoded
  cases algorithm : offered.algorithm <;>
    simp only [algorithm, digestLength] at length <;> rw [exact, length] <;> decide

theorem check_digest_ok (padded : Padded hashes) (content : List UInt8)
    (digest : Option ContentDigest) :
    (∃ outcome, checkDigest hashes content digest = .ok outcome) ↔
      ∀ offered expected, digest = some offered → hashes.base64 offered.encoded = some expected →
        expected.length = digestLength offered.algorithm →
          expected = serverHash hashes content offered.algorithm := by
  cases digest with
  | none => simp [checkDigest]
  | some offered =>
    have decodes := decode_digest_some padded offered
    simp only [checkDigest, Option.some.injEq]
    cases decoded : decodeDigest hashes offered with
    | none =>
      simp only [Except.ok.injEq, exists_eq', true_iff]
      rintro _ expected rfl some length
      rw [(decodes expected).mpr ⟨some, length⟩] at decoded
      exact absurd decoded (by simp)
    | some bytes =>
      obtain ⟨some, length⟩ := (decodes bytes).mp decoded
      have same := constant_time_eq_iff bytes (serverHash hashes content offered.algorithm)
      by_cases equal : bytes = serverHash hashes content offered.algorithm
      · simp only [if_pos (same.mpr equal), Except.ok.injEq, exists_eq', true_iff]
        rintro _ expected rfl found _
        rw [some] at found
        rw [← Option.some.inj found, equal]
      · simp only [if_neg (mt same.mp equal), reduceCtorEq, exists_false, false_iff]
        exact fun all => equal (all offered bytes rfl some length)

structure Verified (hashes : Hashes) (content : List UInt8) (totalLength : Nat)
    (intervals : IntervalMap) (digest : Option ContentDigest) : Prop where
  length : content.length = totalLength
  covers : intervals.totalLength = totalLength
  complete : ∀ pos, pos < totalLength → intervals.stateAt pos = some .complete
  matching : ∀ offered expected, digest = some offered →
    hashes.base64 offered.encoded = some expected →
      expected.length = digestLength offered.algorithm →
        expected = serverHash hashes content offered.algorithm

structure Readable (io : CompletionIo) : Prop where
  measured : io.measured = none
  opened : io.opened = none
  read : io.read = none

section Checks
variable (hashes : Hashes) (crc32c : List UInt8 → UInt32) (padded : Padded hashes)
variable (content : List UInt8) (partPath finalPath : String) (totalLength : Nat)
variable (intervals : IntervalMap) (bounded : intervals.totalLength < 2 ^ 64)
variable (digest : Option ContentDigest) (journalBytes nextSequence : Nat)
variable (io : CompletionIo) (readable : Readable io)
include padded bounded readable

theorem verified_steps (verified : Verified hashes content totalLength intervals digest) :
    verifyAndRenameSteps hashes crc32c content partPath finalPath totalLength intervals digest
        journalBytes nextSequence io =
      sealAndRenameSteps crc32c partPath finalPath (hashes.blake3 content) journalBytes nextSequence
        io := by
  have covered := (check_coverage_ok totalLength bounded).mpr ⟨verified.covers, verified.complete⟩
  obtain ⟨outcome, matched⟩ :=
    (check_digest_ok padded content digest).mpr verified.matching
  simp [verifyAndRenameSteps, readable.measured, readable.opened, readable.read, verified.length,
    covered, matched]

theorem unverified_steps (unverified : ¬ Verified hashes content totalLength intervals digest) :
    verifyAndRenameSteps hashes crc32c content partPath finalPath totalLength intervals digest
      journalBytes nextSequence io = [] := by
  simp only [verifyAndRenameSteps, readable.measured, readable.opened, readable.read]
  by_cases long : content.length ≠ totalLength
  · rw [if_pos long]
  · rw [if_neg long]
    cases covered : checkCoverage intervals totalLength with
    | error error => rfl
    | ok _ =>
      cases matched : checkDigest hashes content digest with
      | error error => rfl
      | ok outcome =>
        -- Every check has passed, against the assumption.
        obtain ⟨covers, complete⟩ := (check_coverage_ok totalLength bounded).mp covered
        exact absurd ⟨not_not.mp long, covers, complete,
          (check_digest_ok padded content digest).mp ⟨outcome, matched⟩⟩ unverified

end Checks

theorem append_seal_none
    (appended : (appendSeal crc32c finalBlake3 journalBytes nextSequence io).2.2 = none) :
    ∃ encoded, FramedRecord.encode crc32c ⟨UInt64.ofNat nextSequence, .sealed finalBlake3⟩ =
        .ok encoded ∧
      (appendSeal crc32c finalBlake3 journalBytes nextSequence io).1 = [.append encoded] := by
  simp only [appendSeal, appendAll] at appended ⊢
  cases framed : FramedRecord.encode crc32c ⟨UInt64.ofNat nextSequence, .sealed finalBlake3⟩ with
  | error error => simp [framed] at appended
  | ok encoded =>
    refine ⟨encoded, rfl, ?_⟩
    simp only [framed] at appended ⊢
    cases failed : io.appended with
    | some failure => simp [failed] at appended
    | none =>
      simp only [failed] at appended ⊢
      by_cases large : journalBytes + encoded.length > maxFileLength
      · simp [large] at appended
      · simp [large]

theorem seal_steps_rename (crc32c : List UInt8 → UInt32) (partPath finalPath : String)
    (finalBlake3 : Digest) (journalBytes nextSequence : Nat) (io : CompletionIo)
    (failed : Option IoError) :
    .rename partPath finalPath failed ∈
        sealAndRenameSteps crc32c partPath finalPath finalBlake3 journalBytes nextSequence io ↔
      failed = io.renamed ∧
        (appendSeal crc32c finalBlake3 journalBytes nextSequence io).2.2 = none ∧
          io.synced = none := by
  rw [sealAndRenameSteps]
  rcases appendSeal crc32c finalBlake3 journalBytes nextSequence io with ⟨events, length, _ | error⟩
  · cases io.synced <;> simp
  · simp

theorem seal_steps_done (partPath finalPath : String)
    (appended : (appendSeal crc32c finalBlake3 journalBytes nextSequence io).2.2 = none)
    (synced : io.synced = none) :
    ∃ encoded, FramedRecord.encode crc32c ⟨UInt64.ofNat nextSequence, .sealed finalBlake3⟩ =
        .ok encoded ∧
      sealAndRenameSteps crc32c partPath finalPath finalBlake3 journalBytes nextSequence io =
        [.journal (.append encoded), .journal .syncLog, .rename partPath finalPath io.renamed] := by
  obtain ⟨encoded, framed, events⟩ :=
    append_seal_none appended
  refine ⟨encoded, framed, ?_⟩
  rw [sealAndRenameSteps]
  generalize appendSeal crc32c finalBlake3 journalBytes nextSequence io = attempt
    at appended events ⊢
  obtain ⟨_, _, _⟩ := attempt
  subst appended events
  simp [synced]

/-- The steps are those of the modelled function. A rename is attempted exactly behind
every check and a durable seal; the steps are then the append, its sync and the rename, in
this order. Before the seal nothing is touched. -/
theorem rename_iff_verified (hashes : Hashes) (crc32c : List UInt8 → UInt32)
    (padded : Padded hashes) (files : Files) (content : List UInt8) (partPath finalPath : String)
    (part : files.named partPath = some content) (totalLength : Nat) (intervals : IntervalMap)
    (bounded : intervals.totalLength < 2 ^ 64) (digest : Option ContentDigest)
    (journalBytes nextSequence : Nat) (io : CompletionIo) (readable : Readable io) :
    let steps := verifyAndRenameSteps hashes crc32c content partPath finalPath totalLength intervals
      digest journalBytes nextSequence io
    let outcome := verifyAndRename hashes crc32c content finalPath totalLength intervals digest
      journalBytes nextSequence io
    let finalBlake3 := hashes.blake3 content
    (journalEvents steps = outcome.2 ∧
      ((∃ sealing, outcome.1 = .ok sealing) ↔ .rename partPath finalPath none ∈ steps)) ∧
    ((∃ failed, .rename partPath finalPath failed ∈ steps) ↔
      Verified hashes content totalLength intervals digest ∧
        (appendSeal crc32c finalBlake3 journalBytes nextSequence io).2.2 = none ∧
          io.synced = none) ∧
    ((∃ failed, .rename partPath finalPath failed ∈ steps) →
      (∃ encoded, FramedRecord.encode crc32c ⟨UInt64.ofNat nextSequence, .sealed finalBlake3⟩ =
          .ok encoded ∧
        steps = [.journal (.append encoded), .journal .syncLog,
          .rename partPath finalPath io.renamed]) ∧
      (io.renamed = none → (files.run steps).named finalPath = some content)) ∧
    (¬ Verified hashes content totalLength intervals digest → files.run steps = files) := by
  intro steps outcome finalBlake3
  have agree := steps_agree hashes crc32c content partPath finalPath totalLength intervals digest
    journalBytes nextSequence io
  by_cases verified : Verified hashes content totalLength intervals digest
  · have same : steps = sealAndRenameSteps crc32c partPath finalPath finalBlake3 journalBytes
        nextSequence io :=
      verified_steps hashes crc32c padded content partPath finalPath totalLength intervals bounded
        digest journalBytes nextSequence io readable verified
    have attempted : (∃ failed, .rename partPath finalPath failed ∈ steps) ↔
        (appendSeal crc32c finalBlake3 journalBytes nextSequence io).2.2 = none ∧
          io.synced = none := by
      simp only [same, seal_steps_rename, exists_eq_left]
    refine ⟨agree, by rw [attempted, and_iff_right verified], fun renames => ?_,
      fun unverified => absurd verified unverified⟩
    obtain ⟨appended, synced⟩ := attempted.mp renames
    obtain ⟨encoded, framed, exact⟩ := seal_steps_done partPath finalPath appended synced
    rw [← same] at exact
    refine ⟨⟨encoded, framed, exact⟩, fun renamed => ?_⟩
    rw [exact, renamed]
    by_cases paths : partPath = finalPath
    · simp [Files.run, Files.apply, paths, ← part]
    · simp [Files.run, Files.apply, paths, part]
  · have none : steps = [] :=
      unverified_steps hashes crc32c padded content partPath finalPath totalLength intervals bounded
        digest journalBytes nextSequence io readable verified
    exact ⟨agree, by simp [none, verified], by simp [none], fun _ => by rw [none]; rfl⟩

/-- The SHA-256 of three small files, with its text in base64. -/
def knownDigests : List (List UInt8 × List UInt8 × List Char) := [
  ([0], [110, 52, 11, 156, 255, 179, 122, 152, 156, 165, 68, 230, 187, 120, 10, 44, 120, 144, 29,
      63, 179, 55, 56, 118, 133, 17, 163, 6, 23, 175, 160, 29],
    "bjQLnP+zepicpUTmu3gKLHiQHT+zNzh2hRGjBhevoB0=".toList),
  ([1], [75, 245, 18, 47, 52, 69, 84, 197, 59, 222, 46, 187, 140, 210, 183, 227, 209, 96, 10,
      214, 49, 195, 133, 165, 215, 204, 226, 60, 119, 133, 69, 154],
    "S/USLzRFVMU73i67jNK349FgCtYxw4Wl18ziPHeFRZo=".toList),
  ([1, 2, 3, 4], [159, 100, 167, 71, 225, 185, 127, 19, 31, 171, 182, 180, 71, 41, 108, 155, 111, 2, 1,
      231, 159, 179, 197, 53, 110, 108, 119, 232, 155, 106, 128, 106],
    "n2SnR+G5fxMfq7a0Rylsm28CAeefs8U1bmx36JtqgGo=".toList)]

/-- The digests of these files are the real ones; the texts of others are not decoded. -/
def knownHashes : Hashes where
  blake3 := fun _ => List.Vector.replicate 32 0
  sha256 := fun content =>
    ((knownDigests.find? fun row => row.1 == content).map (·.2.1)).getD (List.replicate 32 0)
  sha512 := fun _ => List.replicate 64 0
  base64 := fun text => (knownDigests.find? fun row => row.2.2 == text).map (·.2.1)

def zeroDigest : ContentDigest := ⟨.sha256, "bjQLnP+zepicpUTmu3gKLHiQHT+zNzh2hRGjBhevoB0=".toList⟩

theorem known_padded : Padded knownHashes := by
  have rows : ∀ row ∈ knownDigests, utf8Length row.2.2 = 4 * ((row.2.1.length + 2) / 3) := by
    decide +kernel
  intro text bytes decoded
  obtain ⟨row, found, rfl⟩ := Option.map_eq_some_iff.mp decoded
  have same : row.2.2 = text := by simpa using List.find?_some found
  rw [← same]
  exact rows row (List.mem_of_find?_eq_some found)

def oneByte : IntervalMap where
  totalLength := 1
  intervals := [⟨0, 1, .complete⟩]
  partitions := ⟨rfl, Nat.one_pos, rfl⟩
  merged := by simp [Reduced]

def workingIo : CompletionIo := ⟨none, none, none, none, none, none⟩

theorem rename_verified_byte :
    ∃ failed, .rename "a.part" "a" failed ∈
      verifyAndRenameSteps knownHashes (fun _ => 0) [0] "a.part" "a" 1 oneByte (some zeroDigest)
        100 2 workingIo := by
  refine (rename_iff_verified knownHashes (fun _ => 0) known_padded
    ⟨fun path => if path = "a.part" then some [0] else none, ⟨fun _ => 0, fun _ => {0}, [], []⟩⟩
    [0] "a.part" "a" rfl 1 oneByte (by decide) (some zeroDigest) 100 2 workingIo
    ⟨rfl, rfl, rfl⟩).2.1.mpr ⟨⟨rfl, rfl, ?_, ?_⟩, ?_, rfl⟩
  · decide
  · rintro _ expected ⟨⟩ decoded _
    exact (Option.some.inj decoded).symm
  · decide +kernel

end Downpour.Naming
