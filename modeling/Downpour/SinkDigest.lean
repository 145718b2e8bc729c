import Downpour.Naming
import Downpour.SinkBytes

/-!
What a digest of the server says about a named file. A sink is followed through any
sequence of writes and syncs, failing ones included, up to `complete`. The backing of
a known length compares the digest before the rename; the growable one does not look
at it.
-/

namespace Downpour.SinkDigest
open Segments CrashDisk Intervals JournalFormat Writer Remote Completion Sink SinkBytes Naming

theorem journalled_complete (known : journalled sink = true)
    (named : complete outside finalPath io sink = (.ok sealing, after)) :
    ∃ outcome, checkDigest outside.hashes sink.content sink.digest = .ok outcome := by
  rcases sink with ⟨⟨writer, intervals, disk⟩ | part, artifacts, digest⟩
  · simp only [complete] at named
    split at named
    · cases named
    · split at named
      · cases named
      next result =>
        exact (named_checked _ _ result).2
  · cases known

def Bound (outside : Outside) (sink : StorageSink) (algorithm : DigestAlgorithm)
    (expected : List UInt8) : Prop :=
  ∀ (history : List SinkCall) (finalPath : String) (io : CompletionIo) (sealing : Option Sealed)
    (after : StorageSink),
    complete outside finalPath io (calls outside sink history) = (.ok sealing, after) →
      serverHash outside.hashes after.content algorithm = expected

def writeWorks : WriteIo := ⟨0, ⟨none, ⟨none, fun _ => none, none⟩⟩, none, none⟩

theorem growable_first (outside : Outside) (path : String)
    (representable : content.length < 2 ^ 64) :
    writeGrowable outside path [] 0 content writeWorks = (.ok (), content) := by
  have written : writeGrowable outside path [] 0 content writeWorks =
      (.ok (), overwrite (List.replicate content.length 0) 0 content fun _ => true) := by
    simpa [writeGrowable, writeWorks] using representable
  obtain ⟨_, length, reads⟩ := growable_done (Nat.le_refl _)
    written
  rw [written]
  congr 1
  refine List.ext_getElem? fun pos => ?_
  rw [reads pos]
  by_cases inside : pos < content.length
  · simp [inside]
  · simp [inside]

theorem lengthless_named (outside : Outside) (artifacts : Artifacts)
    (digest : Option ContentDigest) (content : List UInt8) (representable : content.length < 2 ^ 64)
    (finalPath : String) :
    complete outside finalPath workingIo
        (calls outside ⟨.lengthless [], artifacts, digest⟩ [.write 0 content writeWorks]) =
      (.ok none, ⟨.lengthless content, { artifacts with journalPath := none }, digest⟩) := by
  have first := growable_first outside artifacts.partPath representable
  simp only [calls, List.foldl_cons, List.foldl_nil, call, writeAt, first]
  rfl

/-- A digest that can be decoded binds the final name in every history exactly when the
total length is known. The hash is only assumed to tell some file from the digest. -/
theorem digest_bound_iff (outside : Outside) (padded : Padded outside.hashes)
    (intervalText : IntervalMapError → String) (target journalPath : String)
    (totalLength : Option Nat) (transferId : List.Vector UInt8 16) (validatorHash : Digest)
    (offered : ContentDigest) (expected : List UInt8)
    (decodes : outside.hashes.base64 offered.encoded = some expected)
    (sized : expected.length = digestLength offered.algorithm)
    (varies : ∃ content : List UInt8, content.length < 2 ^ 64 ∧
      serverHash outside.hashes content offered.algorithm ≠ expected)
    (io : CreateIo) (sink : StorageSink)
    (created : create outside intervalText target journalPath totalLength transferId validatorHash
      (some offered) io = .ok sink) :
    Bound outside sink offered.algorithm expected ↔ totalLength.isSome = true := by
  obtain ⟨kind, carried, empty⟩ := create_keeps created
  constructor
  · intro bound
    cases totalLength with
    | some length => rfl
    | none =>
      -- The file that the digest does not describe is written and named.
      obtain ⟨content, representable, differs⟩ := varies
      have lengthless : sink = ⟨.lengthless [], sink.artifacts, sink.digest⟩ := by
        rw [← empty rfl]
      have named := lengthless_named outside sink.artifacts sink.digest content representable "file"
      rw [← lengthless] at named
      exact absurd (bound _ _ _ _ _ named) differs
  · intro known history finalPath completionIo sealing after named
    obtain ⟨same, offer⟩ := calls_keep outside sink history
    have checked := journalled_complete
      (same.trans (kind.trans known)) named
    rw [offer, carried] at checked
    have equal := (check_digest_ok padded _ _).mp checked offered expected rfl decodes
      sized
    rw [complete_content named]
    exact equal.symm

def plainOutside : Outside where
  hashes := knownHashes
  crc32c := fun _ => 0
  writerText := fun _ => ""
  partText := fun _ => ""
  fileName := lastComponent
  completionText := fun _ => ""

def createWorks : CreateIo := ⟨none, none, none, none, none⟩

/-- Without a length the file `[1]` is named against the digest of `[0]`. -/
theorem digest_ignored :
    ∃ sink, create plainOutside (fun _ => "") "file" "journal" none (List.Vector.replicate 16 0)
        (List.Vector.replicate 32 0) (some zeroDigest) createWorks = .ok sink ∧
      ¬ Bound plainOutside sink .sha256 (knownHashes.sha256 [0]) := by
  refine ⟨⟨.lengthless [], ⟨"file.dppart", none⟩, some zeroDigest⟩, rfl, fun bound => ?_⟩
  have named := lengthless_named plainOutside ⟨"file.dppart", none⟩ (some zeroDigest) [1] (by decide)
    "file"
  exact absurd (bound _ _ _ _ _ named) (by decide)

theorem digest_bound_known :
    ∃ sink, create plainOutside (fun _ => "") "file" "journal" (some 1) (List.Vector.replicate 16 0)
        (List.Vector.replicate 32 0) (some zeroDigest) createWorks = .ok sink ∧
      Bound plainOutside sink .sha256 (knownHashes.sha256 [0]) := by
  refine ⟨_, rfl, ?_⟩
  exact (digest_bound_iff plainOutside known_padded (fun _ => "") "file" "journal" (some 1)
    (List.Vector.replicate 16 0) (List.Vector.replicate 32 0) zeroDigest (knownHashes.sha256 [0])
    (by decide +kernel) (by decide +kernel) ⟨[1], by decide, by decide⟩ createWorks _ rfl).mpr rfl

end Downpour.SinkDigest
