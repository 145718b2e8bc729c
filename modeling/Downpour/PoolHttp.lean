import Downpour.H1H2
import Downpour.Pool

/-!
`fetch_range` of the HTTP backend as a machine for the worker pool. The library
reports the head of the response and then, one at a time, that the next part of
the body can be read; a call on the sink is open until the actor has answered it.
Driven over a sink that answers at once, the machine is the function of the
backend.
-/

namespace Downpour.PoolHttp
open Ranges Remote Http H1H2 Pool

variable {Url : Type}

inductive HttpEvent where
  | answered (answer : Except SendError Response)
  | chunk

inductive Fetch (Url : Type) where
  | sending (request : RangeRequest Url)
  | reading (request : RangeRequest Url) (response : Response) (contentRange : Option ContentRange)
      (delivered : Nat) (rest : List (List UInt8))
  | accepting (request : RangeRequest Url) (response : Response)
      (contentRange : Option ContentRange) (delivered : Nat) (chunk : List UInt8)
      (rest : List (List UInt8))

def bodyEnded (request : RangeRequest Url) (response : Response)
    (contentRange : Option ContentRange) (delivered : Nat) :
    Except (TransferError Url) RangeOutcome :=
  let promised := promisedLength response contentRange
  match response.ending with
  | .finished => .ok ⟨delivered, response.status, contentRange, response.protocol,
      promised.any fun expected => decide (delivered < expected)⟩
  | .timedOut => .error (.timeout request.url delivered)
  | .failed source =>
    match promised.filter fun expected => decide (delivered < expected) with
    | some expected => .error (.truncatedBody request.url expected delivered)
    | none => .error (.transport request.url source)

def sinkFailure (url : Url) (error : SinkError) : TransferError Url :=
  match error with
  | .beyondGrant grant alreadyWritten attempted =>
    .overDelivery url (.beyondGrant grant alreadyWritten attempted)
  | error => .sink url error

def next (fetch : Fetch Url) (signal : Signal HttpEvent) : Move Url (Fetch Url) :=
  match fetch, signal with
  | .sending request, .event (.answered (.error .timeout)) =>
    .finish (.error (.timeout request.url 0))
  | .sending request, .event (.answered (.error (.transport source))) =>
    .finish (.error (.transport request.url source))
  | .sending request, .event (.answered (.ok response)) =>
    match checkResponse request response with
    | .error error => .finish (.error error)
    | .ok contentRange => .wait (.reading request response contentRange 0 response.chunks)
  | .reading request response contentRange delivered [], .event .chunk =>
    .finish (bodyEnded request response contentRange delivered)
  | .reading request response contentRange delivered (chunk :: rest), .event .chunk =>
    if chunk = [] then .wait (.reading request response contentRange delivered rest)
    else if delivered = 0 ∧ bodyLooksLikeAWebPage response.contentType chunk = true then
      .finish (.error (.looksLikeAnErrorPage request.url (response.contentType.getD [])))
    else .accept chunk (.accepting request response contentRange delivered chunk rest)
  | .accepting request response contentRange delivered chunk rest, .accepted (.ok ()) =>
    .wait (.reading request response contentRange
      (min (delivered + chunk.length) (2 ^ 64 - 1)) rest)
  | .accepting request _ _ _ _ _, .accepted (.error error) =>
    .finish (.error (sinkFailure request.url error))
  | fetch, _ => .wait fetch

def http (Url : Type) : Backend Url where
  State := Fetch Url
  Event := HttpEvent
  supportsRanges := true
  fetchRange := .sending
  next := next

def overHttp (setup : Setup Url) : Setup Url := { setup with backend := http Url }

/-! The machine over a sink that answers at once. -/

section Drive
variable {Target Io : Type} (writeAt : Io → Target → Nat → List UInt8 → Except SinkError Unit × Target)

/-- Reads the body part by part; `index` counts the calls on the sink. -/
def drive (io : Nat → Io) : Nat → Nat → Fetch Url → RangeSink Target →
    Option (Except (TransferError Url) RangeOutcome × RangeSink Target)
  | 0, _, _, _ => none
  | fuel + 1, index, fetch, sink =>
    match next fetch (.event .chunk) with
    | .finish result => some (result, sink)
    | .wait fetch => drive io fuel index fetch sink
    | .accept bytes fetch =>
      let accepted := sink.accept (writeAt (io index)) bytes
      match next fetch (.accepted accepted.1) with
      | .finish result => some (result, accepted.2)
      | .wait fetch => drive io fuel (index + 1) fetch accepted.2
      | _ => none
    | _ => none

/-- What `fetch_range` returns when the body has been read. -/
def concluded (response : Response) (contentRange : Option ContentRange)
    (read : Except (TransferError Url) Nat × RangeSink Target) :
    Except (TransferError Url) RangeOutcome × RangeSink Target :=
  match read with
  | (.error error, sink) => (.error error, sink)
  | (.ok delivered, sink) => (.ok ⟨delivered, response.status, contentRange, response.protocol,
      (promisedLength response contentRange).any fun expected => decide (delivered < expected)⟩, sink)

theorem drive_reads (io : Nat → Io) (request : RangeRequest Url) (response : Response)
    (contentRange : Option ContentRange) (rest : List (List UInt8)) (index delivered : Nat)
    (sink : RangeSink Target) :
    drive writeAt io (rest.length + 1) index
        (.reading request response contentRange delivered rest) sink =
      some (concluded response contentRange (readBody writeAt request.url response.contentType
        (promisedLength response contentRange) response.ending io index delivered sink rest)) := by
  induction rest generalizing index delivered sink with
  | nil =>
    simp only [drive, next, bodyEnded, readBody]
    cases response.ending with
    | finished => rfl
    | timedOut => rfl
    | failed source =>
      simp only
      cases (promisedLength response contentRange).filter fun expected =>
          decide (delivered < expected) with
      | some expected => rfl
      | none => rfl
  | cons chunk rest ih =>
    rw [List.length_cons, drive, readBody]
    simp only [next]
    by_cases empty : chunk = []
    · simp only [if_pos empty]
      exact ih index delivered sink
    · simp only [if_neg empty]
      by_cases page : delivered = 0 ∧ bodyLooksLikeAWebPage response.contentType chunk = true
      · simp only [if_pos page, concluded]
      · simp only [if_neg page]
        cases accepted : sink.accept (writeAt (io index)) chunk with
        | mk result after =>
          cases result with
          | error error => cases error <;> rfl
          | ok done => exact ih (index + 1) _ after

/-- Answered by a server, the machine returns what `fetch_range` returns. -/
theorem drive_fetches (server : Server Url) (request : RangeRequest Url) (sink : RangeSink Target)
    (io : Nat → Io) (sent : List (Exchange Url)) :
    let fetched := fetchRange writeAt server request sink io sent
    let started := next (.sending request) (.event (.answered (server sent.length request)))
    (started = .finish fetched.1 ∧ fetched.2.1 = sink) ∨
      ∃ fetch fuel, started = .wait fetch ∧
        drive writeAt io fuel 0 fetch sink = some (fetched.1, fetched.2.1) := by
  unfold fetchRange
  -- Only a response that passes the checks has its body read.
  generalize server sent.length request = answer
  cases answer with
  | error error =>
    cases error with
    | timeout => exact Or.inl ⟨rfl, rfl⟩
    | transport source => exact Or.inl ⟨rfl, rfl⟩
  | ok response =>
    cases checked : checkResponse request response with
    | error error => exact Or.inl ⟨by simp only [next, checked], by simp only [checked]⟩
    | ok contentRange =>
      refine Or.inr ⟨.reading request response contentRange 0 response.chunks,
        response.chunks.length + 1, by simp only [next, checked], ?_⟩
      rw [drive_reads]
      simp only [checked]
      cases readBody writeAt request.url response.contentType
          (promisedLength response contentRange) response.ending io 0 0 sink response.chunks with
      | mk outcome final =>
        cases outcome with
        | error error => rfl
        | ok delivered => rfl

end Drive

end Downpour.PoolHttp
