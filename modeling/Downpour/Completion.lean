import Downpour.Writer
import Downpour.Remote

/-!
Verification before naming: length, coverage, the digest of the server, the seal
in the journal, then the rename. The hash functions and the base64 decoder are
parameters; the outcomes of the I/O are passed in. The part file is given by its
content.
-/

namespace Downpour.Completion
open CrashDisk Intervals JournalFormat JournalReplay Remote Writer

inductive CompletionError where
  | lengthMismatch (expected actual : Nat)
  | incompleteCoverage (covered total gap : Nat)
  | digestMismatch (algorithm : DigestAlgorithm)
  | io (operation : String) (source : IoError)
  | seal (error : WriterError)
  deriving DecidableEq

inductive DigestOutcome where
  | notOffered
  | verified (algorithm : DigestAlgorithm)
  | unusable (reason : String)
  deriving DecidableEq

structure Sealed where
  finalPath : String
  finalBlake3 : Digest
  digestChecked : DigestOutcome
  deriving DecidableEq

structure Hashes where
  blake3 : List UInt8 → Digest
  sha256 : List UInt8 → List UInt8
  sha512 : List UInt8 → List UInt8
  base64 : List Char → Option (List UInt8)

structure CompletionIo where
  measured : Option IoError
  opened : Option IoError
  read : Option IoError
  appended : Option (WriterError × Nat)
  synced : Option WriterError
  renamed : Option IoError

/-- The loop of `check_coverage`: the complete bytes and the first gap. -/
def coverage : Nat → Option Nat → List Interval → Nat × Option Nat
  | covered, gap, [] => (covered, gap)
  | covered, gap, interval :: rest =>
    if interval.label = .complete then
      coverage (saturatingAdd covered (interval.stop - interval.start)) gap rest
    else coverage covered (gap <|> some interval.start) rest

def checkCoverage (intervals : IntervalMap) (total : Nat) : Except CompletionError Unit :=
  match coverage 0 none intervals.intervals with
  | (covered, some gap) => .error (.incompleteCoverage covered total gap)
  | (covered, none) =>
    if covered ≠ total then .error (.incompleteCoverage covered total covered) else .ok ()

def maxDigestBase64 : Nat := 128

def utf8Length (text : List Char) : Nat := (text.map Char.utf8Size).sum

def decodeDigest (hashes : Hashes) (digest : ContentDigest) : Option (List UInt8) :=
  if utf8Length digest.encoded > maxDigestBase64 then none
  else
    let expectedLen := match digest.algorithm with
      | .sha256 => 32
      | .sha512 => 64
    (hashes.base64 digest.encoded).filter fun decoded => decide (decoded.length = expectedLen)

def constantTimeEq (left right : List UInt8) : Bool :=
  left.length == right.length &&
    (left.zip right).foldl (fun diff pair => diff ||| (pair.1 ^^^ pair.2)) 0 == 0

def serverHash (hashes : Hashes) (content : List UInt8) : DigestAlgorithm → List UInt8
  | .sha256 => hashes.sha256 content
  | .sha512 => hashes.sha512 content

/-- The comparison with the digest of the server. One that cannot be decoded
proves nothing and is only reported. -/
def checkDigest (hashes : Hashes) (content : List UInt8) (digest : Option ContentDigest) :
    Except CompletionError DigestOutcome :=
  match digest with
  | none => .ok .notOffered
  | some offered =>
    match decodeDigest hashes offered with
    | none => .ok (.unusable "digest payload is not valid base64 of the algorithm's length")
    | some expected =>
      if constantTimeEq expected (serverHash hashes content offered.algorithm) then
        .ok (.verified offered.algorithm)
      else .error (.digestMismatch offered.algorithm)

section Naming
variable (hashes : Hashes) (crc32c : List UInt8 → UInt32)

/-- The seal is durable before the rename. The events are those of the journal. -/
def sealAndRename (finalPath : String) (finalBlake3 : Digest) (digestChecked : DigestOutcome)
    (journalBytes nextSequence : Nat) (io : CompletionIo) :
    Except CompletionError Sealed × List (Event UInt8) :=
  match appendAll crc32c (fun _ => io.appended) 0 journalBytes
      [⟨UInt64.ofNat nextSequence, .sealed finalBlake3⟩] with
  | (events, _, some error) => (.error (.seal error), events)
  | (events, _, none) =>
    match io.synced with
    | some error => (.error (.seal error), events ++ [.syncLogFailed])
    | none =>
      match io.renamed with
      | some source =>
        (.error (.io "rename the verified part file to its final name" source),
          events ++ [.syncLog])
      | none => (.ok ⟨finalPath, finalBlake3, digestChecked⟩, events ++ [.syncLog])

def verifyAndRename (content : List UInt8) (finalPath : String) (totalLength : Nat)
    (intervals : IntervalMap) (digest : Option ContentDigest) (journalBytes nextSequence : Nat)
    (io : CompletionIo) : Except CompletionError Sealed × List (Event UInt8) :=
  match io.measured with
  | some source => (.error (.io "measure the part file before verification" source), [])
  | none =>
    if content.length ≠ totalLength then
      (.error (.lengthMismatch totalLength content.length), [])
    else match checkCoverage intervals totalLength with
      | .error error => (.error error, [])
      | .ok () =>
        match io.opened, io.read with
        | some source, _ => (.error (.io "open the part file for verification" source), [])
        | none, some source => (.error (.io "read the part file for verification" source), [])
        | none, none =>
          match checkDigest hashes content digest with
          | .error error => (.error error, [])
          | .ok digestChecked =>
            sealAndRename crc32c finalPath (hashes.blake3 content) digestChecked
              journalBytes nextSequence io

end Naming

end Downpour.Completion
