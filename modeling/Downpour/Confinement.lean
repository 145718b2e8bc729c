import Downpour.Disposition
import Downpour.SessionInvariant
import Downpour.SharedDirectory

/-!
Where a download puts its files. The server has a say in the last component of the final
path only, through the header and the URL that `resolve` reads; the directories are those
of the layout. A session keeps its paths over all attempts, and an attempt that starts
anew plans its paths in the same way.
-/

namespace Downpour.Confinement
open Filename Remote Http H1H2 Probing Retry Sink SingleStream Attempts SessionTrace SessionInvariant
open SharedDirectory

def Below (directory path : String) : Prop :=
  ∃ name, SafeName name ∧ path = directory ++ "/" ++ String.ofList name

/-- The part file of a file below the target directory, or a journal. -/
def Kept (layout : StorageLayout) (path : String) : Prop :=
  (∃ target, Below layout.targetDir target ∧ path = partPathFor target) ∨
    ∃ transferId, path = journalPathFor layout.journalDir transferId

section Engine
variable {Url : Type}

variable {env : Environment Url} (safe : ∀ header current, SafeName (env.resolve header current))
  (layout : StorageLayout) {prepared : Prepared Url}

include safe

variable [DecidableEq Url] (policy : RetryPolicy) (freshness : Nat) (url : Url)
  (io : Nat → AttemptIo) {visit next : Visit Url}

end Engine

end Downpour.Confinement
