import Downpour.Completion
import Downpour.Http

/-!
The target that a single stream writes to: the durable writer over a file of
known length, or a file that grows where no length was stated. The bytes of the
part file are part of the state. Each call receives the outcomes of its I/O. A
panic in a blocking thread is left out, and so is the file system around the two
files: whether a path is free is an outcome. The texts of wrapped errors are
parameters.
-/

namespace Downpour.Sink
open Segments CrashDisk Intervals JournalFormat JournalReplay PartFile Writer Remote Http Completion

def singleStreamWorker : WorkerId := 1

structure Artifacts where
  partPath : String
  journalPath : Option String
  deriving DecidableEq

inductive Backing where
  | journalled (writer : DurableWriter) (intervals : IntervalMap) (disk : Disk UInt8)
  | lengthless (part : List UInt8)

structure StorageSink where
  backing : Backing
  artifacts : Artifacts
  digest : Option ContentDigest

/-- What the sink takes from outside: hashes, checksum, `Path::file_name` and error texts. -/
structure Outside where
  hashes : Hashes
  crc32c : List UInt8 → UInt32
  fileName : String → Option String
  writerText : WriterError → String
  partText : PartFileError → String
  completionText : CompletionError → String

/-- What `Path::file_name` finds where a path ends in a plain name. -/
def lastComponent (path : String) : Option String :=
  some (String.ofList (path.toList.rtakeWhile (· != '/')))

def otherError (message : String) : IoError := ⟨.other, none, message⟩

def classifyIo (offset : Nat) (error : IoError) : SinkError :=
  if error.rawOsError = some enospc then .noSpace offset else .io offset error

section Errors
variable (outside : Outside)

def partError (offset : Nat) : PartFileError → SinkError
  | .io _ _ source => classifyIo offset source
  | .outOfBounds start length totalLength => .beyondGrant totalLength start length
  | error => .io offset (otherError (outside.partText error))

def writerError (offset : Nat) : WriterError → SinkError
  | .partFile error => partError outside offset error
  | .io _ source => classifyIo offset source
  | error => .io offset (otherError (outside.writerText error))

def completionError (error : CompletionError) : SinkError :=
  .io 0 (otherError (outside.completionText error))

end Errors

/-! Creation. -/

structure CreateIo where
  part : Option IoError
  prepare : Option IoError
  journal : Option WriterError
  removeOrphan : Option IoError
  journalAgain : Option WriterError

def partPathFor (target : String) : String := target ++ ".dppart"

/-- `PartFile::create`: an exclusive file of the whole length. -/
def createPart (outside : Outside) (target : String) (totalLength : Nat) (io : CreateIo) :
    Except PartFileError Unit :=
  if totalLength ≥ 2 ^ 63 then .error (.unsupportedLength totalLength)
  else if (outside.fileName target).isNone then .error (.invalidTarget target)
  else match io.part with
    | some source =>
      if source.kind = .alreadyExists then .error (.alreadyExists (partPathFor target))
      else .error (.io "create part file exclusively" (partPathFor target) source)
    | none =>
      match io.prepare with
      | some source => .error (.io "prepare part-file extent" (partPathFor target) source)
      | none => .ok ()

def createGrowable (outside : Outside) (target : String) (io : CreateIo) :
    Except PartFileError Unit :=
  if (outside.fileName target).isNone then .error (.invalidTarget target)
  else match io.part with
  | some source =>
    if source.kind = .alreadyExists then .error (.alreadyExists (partPathFor target))
    else .error (.io "create growable part file exclusively" (partPathFor target) source)
  | none => .ok ()

/-- The journal file; one that is in the way without its part file is replaced. -/
def createJournal (outside : Outside) (io : CreateIo) : Except SinkError Unit :=
  match io.journal with
  | none => .ok ()
  | some (.journalAlreadyExists _) =>
    match io.removeOrphan with
    | some source => .error (.io 0 source)
    | none =>
      match io.journalAgain with
      | some error => .error (writerError outside 0 error)
      | none => .ok ()
  | some error => .error (writerError outside 0 error)

/-- An empty file of the prepared length next to a journal that holds its header. -/
def preparedDisk (outside : Outside) (header : FileHeader) : Disk UInt8 where
  visible _ := 0
  surviving _ := {0}
  durableLog := header.encode outside.crc32c
  pendingLog := []

/-- The whole representation belongs to the one worker of a single stream. -/
def wholeGrant (totalLength : Nat) : Except IntervalMapError IntervalMap :=
  if totalLength > 0 then
    (IntervalMap.new totalLength).grant ⟨0, totalLength⟩ singleStreamWorker
  else .ok (IntervalMap.new totalLength)

def create (outside : Outside) (intervalText : IntervalMapError → String)
    (target journalPath : String) (totalLength : Option Nat) (transferId : List.Vector UInt8 16)
    (validatorHash : Digest) (digest : Option ContentDigest) (io : CreateIo) :
    Except SinkError StorageSink :=
  match totalLength with
  | some totalLength =>
    match createPart outside target totalLength io with
    | .error error => .error (partError outside 0 error)
    | .ok () =>
      match createJournal outside io with
      | .error error => .error error
      | .ok () =>
        match tryNew totalLength totalLength headerLen 0 with
        | .error error => .error (writerError outside 0 error)
        | .ok writer =>
          match wholeGrant totalLength with
          | .error error => .error (.io 0 (otherError (intervalText error)))
          | .ok intervals =>
            .ok ⟨.journalled writer intervals (preparedDisk outside
              ⟨transferId, UInt64.ofNat totalLength, 0, validatorHash⟩),
              ⟨partPathFor target, some journalPath⟩, digest⟩
  | none =>
    match createGrowable outside target io with
    | .error error => .error (partError outside 0 error)
    | .ok () => .ok ⟨.lengthless [], ⟨partPathFor target, none⟩, digest⟩

/-! Writing, committing and naming. -/

structure WriteIo where
  now : Nat
  stage : StageIo
  extend : Option IoError
  write : Option (IoError × (Nat → Bool))

structure SyncIo where
  flush : FlushIo
  growable : Option IoError

/-- The bytes of a file after a positional write inside its extent. -/
def overwrite (content : List UInt8) (offset : Nat) (bytes : List UInt8) (landed : Nat → Bool) :
    List UInt8 :=
  content.mapIdx fun pos byte =>
    if landed (pos - offset) then (placed offset bytes pos).getD byte else byte

/-- `extend_to` and `write_all_at` of a file without a stated length. -/
def writeGrowable (outside : Outside) (path : String) (part : List UInt8) (offset : Nat)
    (bytes : List UInt8) (io : WriteIo) : Except SinkError Unit × List UInt8 :=
  let stop := offset + bytes.length
  if stop ≥ 2 ^ 64 then (.error .lengthOverflow, part)
  else if stop < part.length then
    (.error (partError outside offset (.cannotShrink part.length stop)), part)
  else match io.extend.filter fun _ => decide (part.length < stop) with
    | some source =>
      (.error (partError outside offset (.io "extend growable part-file extent" path source)), part)
    | none =>
      let grown := part ++ List.replicate (stop - part.length) 0
      match io.write with
      | some (source, landed) =>
        (.error (partError outside offset
          (.io "write part-file bytes positionally" path source)),
          overwrite grown offset bytes landed)
      | none => (.ok (), overwrite grown offset bytes fun _ => true)

def writeAt (outside : Outside) (io : WriteIo) (sink : StorageSink) (offset : Nat)
    (bytes : List UInt8) : Except SinkError Unit × StorageSink :=
  match sink.backing with
  | .journalled writer intervals disk =>
    let outcome := stage outside.hashes.blake3 outside.crc32c writer intervals singleStreamWorker
      offset bytes io.now io.stage
    (match outcome.result with
      | .ok _ => .ok ()
      | .error error => .error (writerError outside offset error),
      { sink with backing :=
        .journalled outcome.writer outcome.intervals (disk.run outcome.events) })
  | .lengthless part =>
    let (result, after) := writeGrowable outside sink.artifacts.partPath part offset bytes io
    (result, { sink with backing := .lengthless after })

def sync (outside : Outside) (io : SyncIo) (sink : StorageSink) :
    Except SinkError Unit × StorageSink :=
  match sink.backing with
  | .journalled writer intervals disk =>
    let outcome := flush outside.crc32c writer intervals io.flush
    (match outcome.result with
      | .ok _ => .ok ()
      | .error error => .error (writerError outside 0 error),
      { sink with backing :=
        .journalled outcome.writer outcome.intervals (disk.run outcome.events) })
  | .lengthless _ =>
    match io.growable with
    | some source =>
      (.error (partError outside 0
        (.io "synchronise part-file data" sink.artifacts.partPath source)), sink)
    | none => (.ok (), sink)

def StorageSink.content (sink : StorageSink) : List UInt8 :=
  match sink.backing with
  | .journalled writer _ disk => (List.range writer.dataLength).map disk.visible
  | .lengthless part => part

/-- The end of the durable prefix: where a resume may continue. -/
def StorageSink.durablePrefixEnd (sink : StorageSink) : Nat :=
  match sink.backing with
  | .journalled _ intervals _ =>
    (intervals.intervals.find? fun interval => decide (interval.label ≠ .complete)).elim
      intervals.totalLength Segment.start
  | .lengthless _ => 0

/-- `complete`: the file under the final name, or a refusal. The journal of a
named file is removed; that this may fail is only logged. -/
def complete (outside : Outside) (finalPath : String) (io : CompletionIo) (sink : StorageSink) :
    Except SinkError (Option Sealed) × StorageSink :=
  match sink.backing with
  | .journalled writer intervals disk =>
    if writer.staged ≠ [] then
      (.error (.io 0 (otherError "cannot seal a journal with work still staged; flush first")),
        sink)
    else
      let (result, events) := verifyAndRename outside.hashes outside.crc32c sink.content finalPath
        intervals.totalLength intervals sink.digest writer.journalBytes writer.nextSequence io
      let after := { sink with backing := .journalled writer intervals (disk.run events) }
      match result with
      | .error error => (.error (completionError outside error), after)
      | .ok sealing =>
        (.ok (some sealing),
          { after with artifacts := { after.artifacts with journalPath := none } })
  | .lengthless _ =>
    match io.renamed with
    | some source => (.error (.io 0 source), sink)
    | none =>
      (.ok none, { sink with artifacts := { sink.artifacts with journalPath := none } })

end Downpour.Sink
