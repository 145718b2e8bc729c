import Downpour.H1H2
import Downpour.Retry
import Downpour.StorageSink

/-!
The single-stream download: probe, fetch, commit, verify, rename, and the retry
loop around it. One call sees one server, which answers its requests in order,
and one record of I/O outcomes for each attempt. The files of an abandoned
attempt are removed by the source; here only the session is dropped, because
whether a path is free is an outcome of the next attempt. Log messages and the
waiting itself are left out.
-/

namespace Downpour.SingleStream
open Ranges Remote Http H1H2 Retry Intervals JournalFormat JournalReplay Completion Sink

section Engine
variable {Url : Type}

inductive DownloadError (Url : Type) where
  | probe (error : ProbeError Url)
  | transfer (error : TransferError Url)
  | incomplete (path : String) (expected : Option Nat) (actual : Nat)
  | targetExists (path : String)
  | sink (path : String) (source : SinkError)
  | unverified (path : String) (source : SinkError)
  | io (path : String) (source : IoError)

def transientKindOf : DownloadError Url → Option TransientKind
  | .probe (.transport ..) | .transfer (.transport ..) => some .connectionReset
  | .probe (.timeout ..) | .transfer (.timeout ..) => some .timeout
  | .transfer (.truncatedBody ..) => some .truncatedBody
  | .incomplete .. => some .truncatedBody
  | .probe (.unexpectedStatus _ status _) | .transfer (.unexpectedStatus _ status _) =>
    TransientKind.fromStatus status
  | _ => none

def retryAfterOf : DownloadError Url → Option (List Char)
  | .probe (.unexpectedStatus _ _ retryAfter) | .transfer (.unexpectedStatus _ _ retryAfter) =>
    retryAfter
  | _ => none

def observedStatusOf : TransferError Url → Option Nat
  | .unexpectedStatus _ status _ | .validatorMismatch _ _ status _ => some status
  | _ => none

def utf8 (text : List Char) : List UInt8 := text.flatMap String.utf8EncodeChar

def transferIdFor (blake3 : List UInt8 → Digest) (finalUrl : List Char) : List.Vector UInt8 16 :=
  ⟨(blake3 (utf8 finalUrl)).toList.take 16, by simp⟩

def validatorHashOf (blake3 : List UInt8 → Digest) : Validator → Digest
  | .strongETag value => blake3 (utf8 ("etag:".toList ++ value))
  | .lastModified value => blake3 (utf8 ("last-modified:".toList ++ value))
  | .none => ⟨List.replicate 32 0, rfl⟩

structure StorageLayout where
  targetDir : String
  journalDir : String

def hexByte (byte : UInt8) : String :=
  String.ofList [Nat.digitChar (byte.toNat / 16), Nat.digitChar (byte.toNat % 16)]

def journalPathFor (journalDir : String) (transferId : List.Vector UInt8 16) : String :=
  journalDir ++ "/" ++ String.join (transferId.toList.map hexByte) ++ ".dpj"

structure Environment (Url : Type) where
  server : Server Url
  join : Url → List Char → Option Url
  resolve : Option (List Char) → Url → List Char
  urlText : Url → List Char
  outside : Outside
  intervalText : IntervalMapError → String

/-- The clocks and I/O outcomes of one attempt. `target` is what a look at the
final path returns. -/
structure AttemptIo where
  probedAt : Nat
  now : Nat
  target : Except IoError Unit
  create : CreateIo
  writes : Nat → WriteIo
  sync : SyncIo
  completion : CompletionIo
  clock : RetryClock

structure Session (Url : Type) where
  sink : RangeSink StorageSink
  validator : Validator
  recorded : RemoteObject Url
  finalUrl : Url
  totalLength : Option Nat
  finalPath : String
  artifacts : Artifacts
  lastObservedStatus : Option Nat

def Session.durablePrefixEnd (session : Session Url) : Nat := session.sink.target.durablePrefixEnd

structure Delivered where
  path : String
  content : List UInt8
  deriving DecidableEq

/-- What an attempt returns, the session it leaves and the requests sent so far. -/
abbrev Attempted (Url : Type) :=
  Except (DownloadError Url) Delivered × Option (Session Url) × List (Exchange Url)

variable (env : Environment Url)

/-- Fetch into a session, commit, verify and rename. The commit comes before the
result of the fetch is looked at. -/
def run (held : Session Url) (request : RangeRequest Url) (io : AttemptIo)
    (sent : List (Exchange Url)) : Attempted Url :=
  let (fetched, sink, log) :=
    fetchRange (writeAt env.outside) env.server request held.sink io.writes sent
  let (synced, target) := Sink.sync env.outside io.sync sink.target
  let held := { held with sink := { sink with target } }
  match synced with
  | .error source => (.error (.sink held.artifacts.partPath source), some held, log)
  | .ok () =>
    match fetched with
    | .error error =>
      (.error (.transfer error),
        some { held with lastObservedStatus := observedStatusOf error }, log)
    | .ok outcome =>
      let delivered := held.sink.nextOffset
      if held.totalLength.any (fun expected => decide (delivered ≠ expected)) ||
          outcome.truncated then
        (.error (.incomplete held.artifacts.partPath held.totalLength delivered), some held, log)
      else
        match Sink.complete env.outside held.finalPath io.completion held.sink.target with
        | (.error source, target) =>
          (.error (.unverified held.artifacts.partPath source),
            some { held with sink := { held.sink with target } }, log)
        | (.ok _, target) => (.ok ⟨held.finalPath, target.content⟩, none, log)

/-- A new probe before a resume. It replaces the URL and the evidence, never the
validator; where it shows another validator or length, the resume is refused. -/
def refreshCapabilities (held : Session Url) (io : AttemptIo) (sent : List (Exchange Url)) :
    Except (DownloadError Url) (Session Url) × List (Exchange Url) :=
  match probe env.server env.join env.resolve
      (ProbeRequest.new held.finalUrl) io.probedAt sent with
  | (.error error, log) => (.error (.probe error), log)
  | (.ok fresh, log) =>
    if fresh.validator ≠ held.validator ∨
        (fresh.totalLength.isSome = true ∧ fresh.totalLength ≠ held.totalLength) then
      (.error (.transfer (.validatorMismatch fresh.finalUrl held.durablePrefixEnd 200
        (held.validator.ifRangeValue.getD "<none recorded>".toList))), log)
    else
      (.ok { held with
        finalUrl := fresh.finalUrl, recorded := fresh, lastObservedStatus := none }, log)

def resumeFrom (held : Session Url) (io : AttemptIo) (sent : List (Exchange Url)) : Attempted Url :=
  let begins := held.durablePrefixEnd
  match held.validator.ifRangeValue with
  | none => (.error (.incomplete held.artifacts.partPath none begins), some held, sent)
  | some validator =>
    let remaining := held.totalLength.map fun total => total - begins
    run env { held with sink := held.sink.rebase begins remaining }
      (RangeRequest.resume held.finalUrl (.from begins) validator) io sent

def resume [DecidableEq Url] (freshness : Nat) (held : Session Url) (io : AttemptIo)
    (sent : List (Exchange Url)) : Attempted Url :=
  let plan : ResumePlan Url := ⟨held.recorded, io.now, held.finalUrl, none, held.lastObservedStatus⟩
  if (triggers freshness plan).isEmpty then resumeFrom env held io sent
  else match refreshCapabilities env held io sent with
    | (.error error, log) => (.error error, none, log)
    | (.ok held, log) => resumeFrom env held io log

/-- The first attempt of a session: probe, look at the target, create the files
and fetch the whole representation. -/
def start (url : Url) (layout : StorageLayout) (io : AttemptIo) (sent : List (Exchange Url)) :
    Attempted Url :=
  match probe env.server env.join env.resolve (ProbeRequest.new url)
      io.probedAt sent with
  | (.error error, log) => (.error (.probe error), none, log)
  | (.ok remote, log) =>
    let name := remote.suggestedFilename.getD "download".toList
    let finalPath := layout.targetDir ++ "/" ++ String.ofList name
    match io.target with
    | .ok () => (.error (.targetExists finalPath), none, log)
    | .error source =>
      if source.kind ≠ .notFound then (.error (.io finalPath source), none, log)
      else
        let blake3 := env.outside.hashes.blake3
        let transferId := transferIdFor blake3 (env.urlText remote.finalUrl)
        match Sink.create env.outside env.intervalText finalPath
            (journalPathFor layout.journalDir transferId) remote.totalLength transferId
            (validatorHashOf blake3 remote.validator) remote.digest io.create with
        | .error source => (.error (.sink finalPath source), none, log)
        | .ok target =>
          run env
            { sink := RangeSink.new target 0 remote.totalLength
              validator := remote.validator
              recorded := remote
              finalUrl := remote.finalUrl
              totalLength := remote.totalLength
              finalPath
              artifacts := target.artifacts
              lastObservedStatus := none }
            (RangeRequest.whole remote.finalUrl) io log

def attempt [DecidableEq Url] (freshness : Nat) (url : Url) (layout : StorageLayout)
    (session : Option (Session Url)) (io : AttemptIo) (sent : List (Exchange Url)) : Attempted Url :=
  match session with
  | some existing => resume env freshness existing io sent
  | none => start env url layout io sent

/-- A session that a retry continues: its validator can stand in `If-Range`, and
a durable prefix is there to continue from. -/
def resumable (session : Option (Session Url)) : Bool :=
  session.any fun held => held.validator.ifRangeValue.isSome && decide (held.durablePrefixEnd > 0)

/-- The retry loop. The outcomes of an attempt are those of its number. -/
def downloadLoop [DecidableEq Url] (policy : RetryPolicy) (freshness : Nat) (url : Url)
    (layout : StorageLayout) (io : Nat → AttemptIo) (failures : Nat)
    (session : Option (Session Url)) (sent : List (Exchange Url)) :
    Except (DownloadError Url) Delivered × List (Exchange Url) :=
  match attempt env freshness url layout session (io failures) sent with
  | (.ok delivered, _, log) => (.ok delivered, log)
  | (.error error, left, log) =>
    match transientKindOf error with
    | none => (.error error, log)
    | some kind =>
      match _decided : policy.decide (io failures).clock kind failures (retryAfterOf error) with
      | .giveUp => (.error error, log)
      | .retryAfter _ =>
        downloadLoop policy freshness url layout io (failures + 1)
          (if resumable left then left else none) log
  termination_by policy.maxRetries - failures
  decreasing_by
    have allowed := (RetryPolicy.decide_retries _ _decided).2
    omega

def download [DecidableEq Url] (policy : RetryPolicy) (freshness : Nat) (url : Url)
    (layout : StorageLayout) (io : Nat → AttemptIo) :
    Except (DownloadError Url) Delivered × List (Exchange Url) :=
  downloadLoop env policy freshness url layout io 0 none []

end Engine

end Downpour.SingleStream
