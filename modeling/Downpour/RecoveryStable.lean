import Downpour.RecoveryMap

/-!
A second `reconcile_download` over what the first one left. The first call stores
the effective length in the row, and the second compares the journal's header
with the row: after a Truncate to a shorter length the two differ.
-/

namespace Downpour.RecoveryStable
open Segments Intervals JournalFormat JournalReplay JournalRepair JournalState PartFile Metadata
open WriterCrash Recovery RecoverySteps RecoverySafety RecoveryMap

theorem map_exact_count (exactly : MapExact state observedLength intervals coveredBytes) :
    coveredBytes = Set.ncard {pos | intervals.stateAt pos = some .complete} := by
  rw [exactly.counted]
  congr 1
  ext pos
  exact (exactly.complete pos).symm

section Calls
variable (crc32c : List UInt8 → UInt32)

variable {merged : List Range} {content bytes : List UInt8} {outcome : ReplayOutcome}

end Calls

/-! A journal with one whole block, and a journal that a Truncate shortens. -/

def wholeWorld : World := { tornWorld with partFile := some (List.replicate 10 1) }

def cutFrame : FramedRecord := ⟨0, .truncate 5⟩

def cutJournal : List UInt8 :=
  tornHeader.encode zeroChecksum ++ (cutFrame.body ++ u32Bytes (zeroChecksum cutFrame.body))

end Downpour.RecoveryStable
