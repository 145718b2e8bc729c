import Downpour.JournalReplay

/-!
Part files, as far as recovery and the durable writer look at them: the length
found on disk, the content and the extent that is restored. The platform calls
that open, measure and reserve are outcomes passed in; paths are carried only in
errors.
-/

namespace Downpour.PartFile
open JournalReplay

inductive PartFileError where
  | missing (path : String)
  | cannotShrink (current requested : Nat)
  | invalidTarget (target : String)
  | unsupportedLength (length : Nat)
  | alreadyExists (path : String)
  | outOfBounds (offset length totalLength : Nat)
  | bufferTooLarge
  | io (operation path : String) (source : IoError)
  deriving DecidableEq, Repr

inductive PreallocationMethod where
  | notNeeded
  | fallocateKeepSize
  | posixFallocate
  | fileAllocationInfo
  | setLength
  deriving DecidableEq, Repr

def PreallocationMethod.spaceReserved : PreallocationMethod → Bool
  | .setLength => false
  | _ => true

structure OpenIo where
  opened : Option IoError
  measured : Option IoError
  prepare : Except IoError PreallocationMethod
  allocatedSize : Except IoError Nat

structure RecoveredPartFile where
  content : List UInt8
  observedLength : Nat
  reextended : Bool
  spaceReserved : Bool
  deriving DecidableEq

/-- `open_existing` on a file with the given content. A short file is extended
with zero bytes to the total length; a long one keeps every byte. -/
def openExisting (path : String) (content : List UInt8) (totalLength : Nat) (io : OpenIo) :
    Except PartFileError RecoveredPartFile :=
  if totalLength ≥ 2 ^ 63 then .error (.unsupportedLength totalLength)
  else match io.opened with
    | some source =>
      if source.kind = .notFound then .error (.missing path)
      else .error (.io "reopen part file for recovery" path source)
    | none =>
      match io.measured with
      | some source => .error (.io "measure recovered part-file extent" path source)
      | none =>
        if content.length < totalLength then
          match io.prepare with
          | .error source => .error (.io "restore part-file extent" path source)
          | .ok method =>
            .ok ⟨content ++ List.replicate (totalLength - content.length) 0, content.length,
              true, method.spaceReserved⟩
        else match io.allocatedSize with
          | .error source => .error (.io "query part-file allocation" path source)
          | .ok allocated =>
            .ok ⟨content, content.length, false, decide (totalLength ≤ allocated)⟩

theorem open_existing_extent (opened : openExisting path content totalLength io = .ok recovered) :
    recovered.observedLength = content.length ∧
      recovered.content.length = max content.length totalLength := by
  unfold openExisting at opened
  split at opened
  · cases opened
  split at opened
  · split at opened <;> cases opened
  split at opened
  · cases opened
  split at opened
  next short =>
    split at opened
    · cases opened
    · cases opened
      constructor
      · rfl
      · simp only [List.length_append, List.length_replicate]
        omega
  next long =>
    split at opened
    · cases opened
    · cases opened
      constructor
      · rfl
      · simp only
        omega

end Downpour.PartFile
