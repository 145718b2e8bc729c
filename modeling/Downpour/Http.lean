import Downpour.JournalReplay
import Downpour.Remote

/-!
The boundary between the engine and a protocol backend: requests, responses,
errors, and the append-only window through which fetched bytes reach a target.
A URL is any type. Durations and instants are nanoseconds.
-/

namespace Downpour.Http
open JournalReplay Ranges Remote

inductive SinkError where
  | beyondGrant (grant alreadyWritten attempted : Nat)
  | noSpace (offset : Nat)
  | io (offset : Nat) (source : IoError)
  | lengthOverflow
  deriving DecidableEq

inductive ProbeError (Url : Type) where
  | transport (url : Url) (source : String)
  | timeout (url : Url)
  | tooManyRedirects (start : Url) (limit : Nat)
  | redirectWithoutLocation (url : Url) (status : Nat)
  | unusableRedirectTarget (url : Url) (location : List Char)
  | unexpectedStatus (url : Url) (status : Nat) (retryAfter : Option (List Char))
  | needsRefresh (url : Url) (status : Nat)
  | looksLikeAnErrorPage (url : Url) (contentType : List Char)
  | contentEncoding (url : Url) (source : RangeProofError)

inductive TransferError (Url : Type) where
  | transport (url : Url) (source : String)
  | timeout (url : Url) (bytesDelivered : Nat)
  | truncatedBody (url : Url) (expected delivered : Nat)
  | unexpectedStatus (url : Url) (status : Nat) (retryAfter : Option (List Char))
  | looksLikeAnErrorPage (url : Url) (declaredType : List Char)
  | unusableRangeResponse (url : Url) (source : RangeProofError)
  | overDelivery (url : Url) (source : SinkError)
  | sink (url : Url) (source : SinkError)
  | validatorMismatch (url : Url) (resumeOffset status : Nat) (validator : List Char)

structure ProbeRequest (Url : Type) where
  url : Url
  headers : List (List Char × List Char)
  maxRedirects : Nat
  timeout : Nat

def ProbeRequest.new {Url : Type} (url : Url) : ProbeRequest Url := ⟨url, [], 10, 15000000000⟩

/-- One request: a byte range or the whole representation, and on a resume the
validator for `If-Range`. -/
structure RangeRequest (Url : Type) where
  url : Url
  range : Option ByteRangeSpec
  ifRange : Option (List Char)
  headers : List (List Char × List Char)
  timeout : Nat

namespace RangeRequest
variable {Url : Type}

def whole (url : Url) : RangeRequest Url := ⟨url, none, none, [], 300000000000⟩

def ranged (url : Url) (range : ByteRangeSpec) : RangeRequest Url :=
  ⟨url, some range, none, [], 300000000000⟩

def resume (url : Url) (range : ByteRangeSpec) (validator : List Char) : RangeRequest Url :=
  ⟨url, some range, some validator, [], 300000000000⟩

end RangeRequest

structure RangeOutcome where
  bytesDelivered : Nat
  status : Nat
  contentRange : Option ContentRange
  protocol : NegotiatedProtocol
  truncated : Bool
  deriving DecidableEq

/-! What the HTTP library hands over. -/

inductive SendError where
  | timeout
  | transport (source : String)
  deriving DecidableEq

inductive BodyEnd where
  | finished
  | timedOut
  | failed (source : String)
  deriving DecidableEq

structure Response where
  status : Nat
  location : Option (List Char)
  etag : Option (List Char)
  lastModified : Option (List Char)
  contentRange : Option (List Char)
  contentEncoding : Option (List Char)
  contentLength : Option (List Char)
  contentType : Option (List Char)
  contentDisposition : Option (List Char)
  reprDigest : Option (List Char)
  contentDigest : Option (List Char)
  retryAfter : Option (List Char)
  protocol : NegotiatedProtocol
  chunks : List (List UInt8)
  ending : BodyEnd

/-! The append-only window onto a target. -/

structure RangeSink (Target : Type) where
  target : Target
  baseOffset : Nat
  written : Nat
  limit : Option Nat

namespace RangeSink
variable {Target : Type}

def new (target : Target) (baseOffset : Nat) (limit : Option Nat) : RangeSink Target :=
  ⟨target, baseOffset, 0, limit⟩

def nextOffset (sink : RangeSink Target) : Nat :=
  min (sink.baseOffset + sink.written) (2 ^ 64 - 1)

def rebase (sink : RangeSink Target) (baseOffset : Nat) (limit : Option Nat) : RangeSink Target :=
  ⟨sink.target, baseOffset, 0, limit⟩

def accept (writeAt : Target → Nat → List UInt8 → Except SinkError Unit × Target)
    (sink : RangeSink Target) (bytes : List UInt8) : Except SinkError Unit × RangeSink Target :=
  match sink.limit.filter fun limit => decide (limit < min (sink.written + bytes.length) (2 ^ 64 - 1)) with
  | some limit => (.error (.beyondGrant limit sink.written bytes.length), sink)
  | none =>
    if sink.baseOffset + sink.written ≥ 2 ^ 64 then (.error .lengthOverflow, sink)
    else match writeAt sink.target (sink.baseOffset + sink.written) bytes with
      | (.error error, target) => (.error error, { sink with target })
      | (.ok (), target) =>
        (.ok (), { sink with target, written := min (sink.written + bytes.length) (2 ^ 64 - 1) })

end RangeSink

end Downpour.Http
