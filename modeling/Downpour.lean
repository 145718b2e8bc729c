import Downpour.WriterRecovery
import Downpour.RecoveryClosure
import Downpour.IntervalLaws
import Downpour.CompactionContinuation
import Downpour.CompactionReplace
import Downpour.ActorFence
import Downpour.SinkDigest
import Downpour.ByteOrigin
import Downpour.Leftovers
import Downpour.ProbeDigest
import Downpour.DirectorySafety
import Downpour.PoolRejected
import Downpour.AllocationPolicy
import Downpour.IpcSession
import Downpour.IpcFrames
import Downpour.RecordFold
import Downpour.BackPressure
import Downpour.Chunking
import Downpour.DiskFull
import Downpour.Sniffing
import Downpour.StartupIsolation
import Downpour.RangeGrammar
import Downpour.MetadataCodec
import Downpour.RecoveryReports
import Downpour.Confinement
import Downpour.WriterBatch
