import Downpour.Http

/-!
The HTTP/1.1 and HTTP/2 backend. The HTTP library is a parameter: it answers the
n-th request with a response or a failure to send. Resolving a redirect target
and choosing a file name are parameters as well. Log messages are left out.
-/

namespace Downpour.H1H2
open Text Ranges Remote Http

structure Exchange (Url : Type) where
  probing : Bool
  request : RangeRequest Url

/-- The answer to each request, in the order they are sent. -/
abbrev Server (Url : Type) := Nat → RangeRequest Url → Except SendError Response

def isRedirect (status : Nat) : Bool := [301, 302, 303, 307, 308].contains status

def looksLikeAWebPage (contentType : Option (List Char)) : Bool :=
  contentType.any fun value =>
    "text/html".toList.isPrefixOf (toAsciiLowercase (trim value)) ||
      "application/xhtml+xml".toList.isPrefixOf (toAsciiLowercase (trim value))

def declaredGeneric (contentType : Option (List Char)) : Bool :=
  match contentType with
  | none => true
  | some value =>
    ["application/octet-stream", "binary/octet-stream", "application/binary"].any fun generic =>
      generic.toList.isPrefixOf (toAsciiLowercase (trim value))

def isAsciiWhitespaceByte (byte : UInt8) : Bool := [9, 10, 12, 13, 32].contains byte

def lowerByte (byte : UInt8) : UInt8 := if 65 ≤ byte && byte ≤ 90 then byte + 32 else byte

/-- The text as it stands in a body: one byte for each ASCII character. -/
def asciiBytes (text : String) : List UInt8 := text.toList.map fun char => UInt8.ofNat char.toNat

def markers : List (List UInt8) :=
  ["<!doctype html", "<html", "<head", "<body", "<!doctype"].map asciiBytes

def stripBom (head : List UInt8) : List UInt8 :=
  if [0xEF, 0xBB, 0xBF].isPrefixOf head then head.drop 3 else head

def bodyLooksLikeAWebPage (contentType : Option (List Char)) (head : List UInt8) : Bool :=
  if declaredGeneric contentType then
    let start := (((stripBom head).dropWhile isAsciiWhitespaceByte).take 64).map lowerByte
    markers.any fun marker => marker.isPrefixOf start
  else false

section Backend
variable {Url : Type}

/-! The probe. -/

def probeRange : ByteRangeSpec := .fromTo 0 0

def contentLengthOf (response : Response) : Option Nat :=
  response.contentLength.bind (parseUnsigned 64)

def probeConclusion (resolve : Option (List Char) → Url → List Char) (current : Url)
    (chain : List Url) (withRange : Bool) (now : Nat) (response : Response) :
    Except (ProbeError Url) (RemoteObject Url) :=
  if looksLikeAWebPage response.contentType then
    .error (.looksLikeAnErrorPage current (response.contentType.getD []))
  else
    let object (totalLength : Option Nat) (rangeSupport : RangeSupport) : RemoteObject Url :=
      { finalUrl := current
        redirectChain := chain
        totalLength
        rangeSupport
        validator := Validator.fromHeaders response.etag response.lastModified
        digest := (response.reprDigest <|> response.contentDigest).bind ContentDigest.parse
        protocol := response.protocol
        suggestedFilename := some (resolve response.contentDisposition current)
        probedAt := now }
    match response.ending with
    | .timedOut => .error (.transport current "operation timed out")
    | .failed source => .error (.transport current source)
    | .finished =>
      if withRange then
        match RangeProof.fromObservedResponse probeRange response.status response.contentRange
            response.contentEncoding response.chunks.flatten.length with
        | .ok proof => .ok (object (some proof.totalLength) (.proven proof))
        | .error (.unexpectedContentEncoding encoding) =>
          .error (.contentEncoding current (.unexpectedContentEncoding encoding))
        | .error _ =>
          -- Only a whole response says by its length how long the representation is.
          .ok (object (if response.status = 200 then contentLengthOf response else none) .absent)
      else
        match refusedEncoding response.contentEncoding with
        | some encoding => .error (.contentEncoding current (.unexpectedContentEncoding encoding))
        | none => .ok (object (contentLengthOf response) .absent)

/-- The loop of `probe`. It follows redirects by hand, and asks once more without
a range where the range itself was refused. -/
def probeLoop (server : Server Url) (join : Url → List Char → Option Url)
    (resolve : Option (List Char) → Url → List Char) (request : ProbeRequest Url) (now : Nat)
    (current : Url) (chain : List Url) (hops : Nat) (withRange : Bool) (sent : List (Exchange Url)) :
    Except (ProbeError Url) (RemoteObject Url) × List (Exchange Url) :=
  if _limit : hops > request.maxRedirects then
    (.error (.tooManyRedirects request.url request.maxRedirects), sent)
  else
    let asked : RangeRequest Url := ⟨current, if withRange then some probeRange else none, none,
      request.headers, request.timeout⟩
    let log := sent ++ [⟨true, asked⟩]
    match server sent.length asked with
    | .error .timeout => (.error (.timeout current), log)
    | .error (.transport source) => (.error (.transport current source), log)
    | .ok response =>
      if isRedirect response.status then
        match response.location with
        | none => (.error (.redirectWithoutLocation current response.status), log)
        | some location =>
          match join current location with
          | none => (.error (.unusableRedirectTarget current location), log)
          | some next =>
            probeLoop server join resolve request now next (chain ++ [next]) (hops + 1)
              withRange log
      else if _refused : response.status = 416 ∧ withRange = true then
        probeLoop server join resolve request now current chain hops false log
      else if [401, 403, 410].contains response.status then
        (.error (.needsRefresh current response.status), log)
      else if response.status ≠ 200 ∧ response.status ≠ 206 then
        (.error (.unexpectedStatus current response.status response.retryAfter), log)
      else (probeConclusion resolve current chain withRange now response, log)
  termination_by (request.maxRedirects + 1 - hops, if withRange then 1 else 0)
  decreasing_by
    · exact Prod.Lex.left _ _ (by omega)
    · simp [_refused.2]
      exact Prod.Lex.right _ (by decide)

def probe (server : Server Url) (join : Url → List Char → Option Url)
    (resolve : Option (List Char) → Url → List Char) (request : ProbeRequest Url) (now : Nat)
    (sent : List (Exchange Url)) :
    Except (ProbeError Url) (RemoteObject Url) × List (Exchange Url) :=
  probeLoop server join resolve request now request.url [request.url] 0 true sent

/-! The fetch. -/

section Fetch
variable {Target Io : Type} (writeAt : Io → Target → Nat → List UInt8 → Except SinkError Unit × Target)

/-- The loop over the chunks of a body: what was delivered in the end. Each
accepted chunk has its own write outcome. -/
def readBody (url : Url) (declaredType : Option (List Char)) (promised : Option Nat)
    (ending : BodyEnd) (io : Nat → Io) :
    Nat → Nat → RangeSink Target → List (List UInt8) →
      Except (TransferError Url) Nat × RangeSink Target
  | _, delivered, sink, [] =>
    match ending with
    | .finished => (.ok delivered, sink)
    | .timedOut => (.error (.timeout url delivered), sink)
    | .failed source =>
      match promised.filter fun expected => decide (delivered < expected) with
      | some expected => (.error (.truncatedBody url expected delivered), sink)
      | none => (.error (.transport url source), sink)
  | index, delivered, sink, chunk :: rest =>
    if chunk = [] then readBody url declaredType promised ending io index delivered sink rest
    else if delivered = 0 ∧ bodyLooksLikeAWebPage declaredType chunk = true then
      (.error (.looksLikeAnErrorPage url (declaredType.getD [])), sink)
    else match sink.accept (writeAt (io index)) chunk with
      | (.error (.beyondGrant grant alreadyWritten attempted), sink) =>
        (.error (.overDelivery url (.beyondGrant grant alreadyWritten attempted)), sink)
      | (.error error, sink) => (.error (.sink url error), sink)
      | (.ok (), sink) =>
        readBody url declaredType promised ending io (index + 1)
          (min (delivered + chunk.length) (2 ^ 64 - 1)) sink rest

def resumeOffset : Option ByteRangeSpec → Nat
  | some (.from first) | some (.fromTo first _) => first
  | _ => 0

/-- The checks of `fetch_range` before the first byte is accepted. -/
def checkResponse (request : RangeRequest Url) (response : Response) :
    Except (TransferError Url) (Option ContentRange) :=
  match request.ifRange.filter fun _ => decide (response.status ≠ 206) with
  | some validator =>
    .error (.validatorMismatch request.url (resumeOffset request.range) response.status validator)
  | none =>
    if response.status ≠ 200 ∧ response.status ≠ 206 then
      .error (.unexpectedStatus request.url response.status response.retryAfter)
    else match request.range with
      | some requested =>
        -- The length of the body is not known yet and is taken to be the described one.
        let described := match response.contentRange.map ContentRange.fromStr with
          | some (.ok range) => range.len.getD 0
          | _ => 0
        match RangeProof.fromObservedResponse requested response.status response.contentRange
            response.contentEncoding described with
        | .error source => .error (.unusableRangeResponse request.url source)
        | .ok proof => .ok (some proof.observed)
      | none =>
        match refusedEncoding response.contentEncoding with
        | some encoding =>
          .error (.unusableRangeResponse request.url (.unexpectedContentEncoding encoding))
        | none => .ok none

def promisedLength (response : Response) (contentRange : Option ContentRange) : Option Nat :=
  contentRange.bind ContentRange.len <|> contentLengthOf response

def fetchRange (server : Server Url) (request : RangeRequest Url) (sink : RangeSink Target)
    (io : Nat → Io) (sent : List (Exchange Url)) :
    Except (TransferError Url) RangeOutcome × RangeSink Target × List (Exchange Url) :=
  let log := sent ++ [⟨false, request⟩]
  match server sent.length request with
  | .error .timeout => (.error (.timeout request.url 0), sink, log)
  | .error (.transport source) => (.error (.transport request.url source), sink, log)
  | .ok response =>
    match checkResponse request response with
    | .error error => (.error error, sink, log)
    | .ok contentRange =>
      let promised := promisedLength response contentRange
      match readBody writeAt request.url response.contentType promised response.ending io 0 0
          sink response.chunks with
      | (.error error, sink) => (.error error, sink, log)
      | (.ok delivered, sink) =>
        (.ok ⟨delivered, response.status, contentRange, response.protocol,
          promised.any fun expected => decide (delivered < expected)⟩, sink, log)

end Fetch

end Backend

end Downpour.H1H2
