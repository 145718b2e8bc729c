import Downpour.IpcSession
import Downpour.Support.Bytes

/-!
Frames of the local IPC contract: how a typed message becomes a frame, and how frames are read
from a transport that delivers its bytes in chunks. The JSON library is a parameter again, here
with the fact that it reads back what it has written, and so is `read_exact` of the transport.
-/

namespace Downpour.IpcFrames
open Ipc IpcSession Bytes

def maxFrameBytes : Nat := 1024 * 1024

inductive ResponseKind where
  | hello
  | added
  | download
  | resumed
  | status
  deriving DecidableEq, Repr

/-- How one type is written as JSON and read from it. -/
structure Schema (Written Message : Type) where
  write : Message → Option Written
  read : Written → Option Message
  back : ∀ message written, write message = some written → read written = some message

/-- A JSON document: an object with its fields in the order of their names, or anything else. -/
inductive Document (Value : Type) where
  | object (fields : List (String × Value))
  | other (value : Value)
  deriving DecidableEq

def Document.get {Value : Type} (document : Document Value) (name : String) : Option Value :=
  match document with
  | .object fields => fields.lookup name
  | .other _ => none

structure Json where
  Value : Type
  request : Schema (List UInt8) (Envelope Value)
  document : Schema (List UInt8) (Document Value)
  text : Schema Value String
  number : Schema Value UInt64
  helloParams : Schema Value HelloParams
  addParams : Schema Value AddParams
  idParams : Schema Value IdParams
  versionParams : Schema Value VersionParams
  helloResult : Schema Value HelloResult
  stateResult : Schema Value StateResult
  downloadView : Schema Value DownloadView
  systemStatus : Schema Value SystemStatus
  rpcError : Schema Value RpcError
  /-- An envelope may also be read from an array of its three values. -/
  sequence : Value → Option (String × UInt64 × Value)

section Codec
variable (json : Json)

def Json.serde : Serde :=
  ⟨json.Value, json.request.read, json.helloParams.read, json.addParams.read, json.idParams.read,
    json.versionParams.read⟩

def encodeJson (written : Option (List UInt8)) : Except CodecError (List UInt8) :=
  match written with
  | none => .error .invalidMessage
  | some payload =>
    if payload.length > maxFrameBytes then
      .error (.frameTooLarge payload.length maxFrameBytes)
    else if payload.length ≥ 2 ^ 32 then .error (.frameTooLarge payload.length maxFrameBytes)
    else .ok (toLittleEndian 4 payload.length ++ payload)

def encodeParams (id : UInt64) (method : String) (params : Option json.Value) :
    Except CodecError (List UInt8) :=
  match params with
  | none => .error .invalidMessage
  | some params => encodeJson (json.request.write ⟨"2.0", id, method, params⟩)

def encodeRequest (id : UInt64) (request : Request) : Except CodecError (List UInt8) :=
  match request with
  | .hello params => encodeParams json id "hello" (json.helloParams.write params)
  | .downloadAdd params => encodeParams json id "download.add" (json.addParams.write params)
  | .downloadGet params => encodeParams json id "download.get" (json.idParams.write params)
  | .downloadResume params => encodeParams json id "download.resume" (json.idParams.write params)
  | .systemStatus params => encodeParams json id "system.status" (json.versionParams.write params)

/-- An envelope with these fields, from the written id, version and body. -/
def encodeFields (fields : json.Value → json.Value → json.Value → List (String × json.Value))
    (id : UInt64) (body : Option json.Value) : Except CodecError (List UInt8) :=
  encodeJson (match json.number.write id, json.text.write "2.0", body with
    | some id, some version, some body => json.document.write (.object (fields id version body))
    | _, _, _ => none)

def encodeSuccess (id : UInt64) (result : Option json.Value) : Except CodecError (List UInt8) :=
  encodeFields json (fun id version result =>
    [("id", id), ("jsonrpc", version), ("result", result)]) id result

def encodeError (id : UInt64) (error : Option json.Value) : Except CodecError (List UInt8) :=
  encodeFields json (fun id version error =>
    [("error", error), ("id", id), ("jsonrpc", version)]) id error

def encodeResponse (id : UInt64) (response : Response) : Except CodecError (List UInt8) :=
  match response with
  | .error error => encodeError json id (json.rpcError.write error)
  | .hello result => encodeSuccess json id (json.helloResult.write result)
  | .added result => encodeSuccess json id (json.stateResult.write result)
  | .resumed result => encodeSuccess json id (json.stateResult.write result)
  | .download result => encodeSuccess json id (json.downloadView.write result)
  | .status result => encodeSuccess json id (json.systemStatus.write result)

/-- An envelope with the body under `name`: all its fields have to be there, and no others. -/
def Json.envelope (name : String) (document : Document json.Value) :
    Option (String × UInt64 × json.Value) :=
  match document with
  | .other value => json.sequence value
  | .object fields =>
    if fields.all fun field => ["jsonrpc", "id", name].contains field.1 then
      match (fields.lookup "jsonrpc").bind json.text.read, (fields.lookup "id").bind json.number.read,
          fields.lookup name with
      | some version, some id, some body => some (version, id, body)
      | _, _, _ => none
    else none

/-- The last step of `decode_response`: the result as the kind it was asked for. -/
def decodeResult (expected : ResponseKind) (body : json.Value) : Except CodecError Response :=
  match expected with
  | .hello => (decodeParams (json.helloResult.read body)).map Response.hello
  | .added => (decodeParams (json.stateResult.read body)).map Response.added
  | .download => (decodeParams (json.downloadView.read body)).map Response.download
  | .resumed => (decodeParams (json.stateResult.read body)).map Response.resumed
  | .status => (decodeParams (json.systemStatus.read body)).map Response.status

def decodeResponse (payload : List UInt8) (expected : ResponseKind) :
    Except CodecError (UInt64 × Response) :=
  match json.document.read payload with
  | none => .error .invalidMessage
  | some document =>
    if (document.get "error").isSome then
      match json.envelope "error" document with
      | none => .error .invalidMessage
      | some (version, id, body) =>
        match json.rpcError.read body with
        | none => .error .invalidMessage
        | some error =>
          if version ≠ "2.0" then .error .invalidMessage else .ok (id, .error error)
    else
      match json.envelope "result" document with
      | none => .error .invalidMessage
      | some (version, id, body) =>
        if version ≠ "2.0" then .error .invalidMessage
        else (decodeResult json expected body).map fun response => (id, response)

end Codec

/-- A result is asked for by its own kind; an error may answer every request. -/
def Registered (response : Response) (kind : ResponseKind) : Prop :=
  match response with
  | .hello _ => kind = .hello
  | .added _ => kind = .added
  | .download _ => kind = .download
  | .resumed _ => kind = .resumed
  | .status _ => kind = .status
  | .error _ => True

/-- `read_exact` for so many bytes of a transport, given by the chunks it still delivers. It
fills the buffer where that many bytes come, and fails where the stream ends before. -/
structure Transport where
  readExact : Nat → List (List UInt8) → Option (List UInt8) × List (List UInt8)
  enough : ∀ count chunks, [] ∉ chunks → count ≤ chunks.flatten.length →
    ∃ left, readExact count chunks = (some (chunks.flatten.take count), left) ∧
      left.flatten = chunks.flatten.drop count ∧ [] ∉ left
  short : ∀ count chunks, chunks.flatten.length < count → (readExact count chunks).1 = none

section Frames
variable (transport : Transport)

def readFrame (chunks : List (List UInt8)) :
    Except CodecError (List UInt8) × List (List UInt8) :=
  match transport.readExact 4 chunks with
  | (none, left) => (.error .truncatedHeader, left)
  | (some header, left) =>
    let declared := ofLittleEndian header
    if declared > maxFrameBytes then (.error (.frameTooLarge declared maxFrameBytes), left)
    else
      match transport.readExact declared left with
      | (none, left) => (.error .truncatedBody, left)
      | (some payload, left) => (.ok payload, left)

/-- What `count` calls of `read_frame` return, one after the other. -/
def receive : Nat → List (List UInt8) → List (Except CodecError (List UInt8))
  | 0, _ => []
  | count + 1, chunks =>
    (readFrame transport chunks).1 :: receive count (readFrame transport chunks).2

end Frames

def wholeBefore (cut : Nat) : List (List UInt8) → Nat
  | [] => 0
  | frame :: rest =>
    if frame.length ≤ cut then wholeBefore (cut - frame.length) rest + 1 else 0

structure Framed (payload frame : List UInt8) : Prop where
  small : payload.length ≤ maxFrameBytes
  shape : frame = toLittleEndian 4 payload.length ++ payload

/-! Reading. -/

section Reading
variable {transport : Transport}

theorem read_header (filled : [] ∉ chunks) (small : length ≤ maxFrameBytes)
    (header : chunks.flatten.take 4 = toLittleEndian 4 length) :
    ∃ middle, middle.flatten = chunks.flatten.drop 4 ∧ [] ∉ middle ∧
      readFrame transport chunks = match transport.readExact length middle with
        | (none, left) => (.error .truncatedBody, left)
        | (some payload, left) => (.ok payload, left) := by
  have long := congrArg List.length header
  rw [List.length_take, little_endian_length] at long
  obtain ⟨middle, read, after, filled⟩ := transport.enough 4 chunks filled (by omega)
  have declared : ofLittleEndian (toLittleEndian 4 length) = length :=
    little_endian_read 4 _ (by unfold maxFrameBytes at small; omega)
  refine ⟨middle, after, filled, ?_⟩
  simp only [readFrame, read, header, declared, if_neg (not_lt.mpr small)]

theorem read_frame_whole (filled : [] ∉ chunks) (framed : Framed payload frame)
    (stream : chunks.flatten = frame ++ rest) :
    ∃ left, readFrame transport chunks = (.ok payload, left) ∧ left.flatten = rest ∧ [] ∉ left := by
  obtain ⟨small, rfl⟩ := framed
  rw [List.append_assoc] at stream
  have sized := little_endian_length 4 payload.length
  obtain ⟨middle, after, filled, read⟩ :=
    read_header filled small (by rw [stream, List.take_left' sized])
  rw [stream, List.drop_left' sized] at after
  obtain ⟨left, body, remaining, filled⟩ := transport.enough payload.length middle filled
    (by simp [after])
  rw [after, List.take_left] at body
  rw [after, List.drop_left] at remaining
  exact ⟨left, by rw [read, body], remaining, filled⟩

theorem read_frame_cut (filled : [] ∉ chunks) (framed : Framed payload frame)
    (stream : chunks.flatten = frame.take cut) (inside : cut < frame.length) :
    (readFrame transport chunks).1 = .error .truncatedHeader ∨
      (readFrame transport chunks).1 = .error .truncatedBody := by
  obtain ⟨small, rfl⟩ := framed
  have sized := little_endian_length 4 payload.length
  have long : chunks.flatten.length = cut := by
    rw [stream, List.length_take, Nat.min_eq_left inside.le]
  rw [List.length_append, sized] at inside
  by_cases short : cut < 4
  · left
    have nothing := transport.short 4 chunks (by omega)
    rw [readFrame]
    split <;> simp_all
  · right
    obtain ⟨middle, after, -, read⟩ := read_header filled small (by
      rw [stream, List.take_take, Nat.min_eq_left (by omega), List.take_left' sized])
    have nothing := transport.short payload.length middle (by
      rw [after, List.length_drop]
      omega)
    rw [read]
    split <;> simp_all

theorem receive_whole (framed : List.Forall₂ Framed payloads frames) (filled : [] ∉ chunks)
    (stream : chunks.flatten = frames.flatten ++ rest) :
    ∃ left, left.flatten = rest ∧ [] ∉ left ∧
      ∀ more, receive transport (frames.length + more) chunks =
        payloads.map .ok ++ receive transport more left := by
  induction framed generalizing chunks with
  | nil => exact ⟨chunks, stream, filled, fun more => by simp⟩
  | @cons payload frame payloads frames one _ ih =>
    rw [List.flatten_cons, List.append_assoc] at stream
    obtain ⟨middle, read, after, filled⟩ := read_frame_whole filled one stream
    obtain ⟨left, rest, filled, others⟩ := ih filled after
    refine ⟨left, rest, filled, ?_⟩
    intro more
    rw [List.length_cons, Nat.add_right_comm, receive, read]
    exact congrArg _ (others more)

theorem take_whole (framed : List.Forall₂ Framed payloads frames) (cut : Nat) :
    ∃ payload frame inside, Framed payload frame ∧ inside < frame.length ∧
      frames.flatten.take cut =
        (frames.take (wholeBefore cut frames)).flatten ++ frame.take inside := by
  -- Behind the whole frames a cut leaves the beginning of a frame, and be it an empty one.
  induction framed generalizing cut with
  | nil => exact ⟨[], _, 0, ⟨Nat.zero_le _, rfl⟩, by simp, by simp [wholeBefore]⟩
  | @cons payload frame payloads frames one _ ih =>
    rw [wholeBefore, List.flatten_cons]
    split
    next whole =>
      obtain ⟨last, cutFrame, inside, framed, short, shape⟩ := ih (cut - frame.length)
      refine ⟨last, cutFrame, inside, framed, short, ?_⟩
      rw [List.take_append, List.take_of_length_le whole, shape, List.take_succ_cons,
        List.flatten_cons, List.append_assoc]
    next inside =>
      refine ⟨payload, frame, cut, one, by omega, ?_⟩
      rw [List.take_append_of_le_length (by omega)]
      rfl

theorem whole_before_le (cut : Nat) (frames : List (List UInt8)) :
    wholeBefore cut frames ≤ frames.length := by
  fun_induction wholeBefore cut frames with
  | case1 => exact le_rfl
  | case2 _ _ _ _ ih => exact Nat.succ_le_succ ih
  | case3 => exact Nat.zero_le _

theorem receive_cut {payloads frames : List (List UInt8)}
    (framed : List.Forall₂ Framed payloads frames) (filled : [] ∉ chunks)
    (stream : chunks.flatten = frames.flatten.take cut) :
    ∃ truncation, (truncation = .truncatedHeader ∨ truncation = .truncatedBody) ∧
      receive transport (wholeBefore cut frames + 1) chunks =
        (payloads.take (wholeBefore cut frames)).map .ok ++ [.error truncation] := by
  obtain ⟨payload, frame, inside, one, short, shape⟩ := take_whole framed cut
  obtain ⟨left, rest, filled, received⟩ :=
    receive_whole (List.forall₂_take _ framed) filled (stream.trans shape)
  have last := received 1
  rw [List.length_take_of_le (whole_before_le cut frames)] at last
  rcases read_frame_cut filled one rest short with refused | refused
  · exact ⟨_, .inl rfl, by rw [last, receive, receive, refused]⟩
  · exact ⟨_, .inr rfl, by rw [last, receive, receive, refused]⟩

end Reading

/-! Writing and reading back. -/

section RoundTrip
variable {json : Json} {transport : Transport}

theorem encode_json_framed (encoded : encodeJson written = .ok frame) :
    ∃ payload, written = some payload ∧ Framed payload frame := by
  unfold encodeJson at encoded
  split at encoded
  · cases encoded
  next payload =>
    split at encoded
    · cases encoded
    next small =>
      split at encoded
      · cases encoded
      · cases encoded
        exact ⟨payload, rfl, not_lt.mp small, rfl⟩

theorem encode_params_back {id : UInt64} {params : Option json.Value}
    (encoded : encodeParams json id method params = .ok frame) :
    ∃ payload body, params = some body ∧ Framed payload frame ∧
      json.request.read payload = some ⟨"2.0", id, method, body⟩ := by
  cases params with
  | none => cases encoded
  | some body =>
    obtain ⟨payload, written, framed⟩ := encode_json_framed encoded
    exact ⟨payload, body, rfl, framed, json.request.back _ _ written⟩

theorem encode_request_back {id : UInt64}
    (encoded : encodeRequest json id request = .ok frame) :
    ∃ payload, Framed payload frame ∧ decodeRequest json.serde payload = .ok (id, request) := by
  cases request with
  | hello params | downloadAdd params | downloadGet params | downloadResume params
  | systemStatus params =>
    obtain ⟨payload, body, written, framed, read⟩ := encode_params_back encoded
    refine ⟨payload, framed, ?_⟩
    simp [decodeRequest, Json.serde, read, Schema.back _ _ _ written, decodeParams, Except.map]

theorem encode_fields_back {id : UInt64} {body : Option json.Value}
    {fields : json.Value → json.Value → json.Value → List (String × json.Value)}
    (encoded : encodeFields json fields id body = .ok frame) :
    ∃ payload number version written, body = some written ∧ Framed payload frame ∧
      json.document.read payload = some (.object (fields number version written)) ∧
      json.number.read number = some id ∧ json.text.read version = some "2.0" := by
  obtain ⟨payload, printed, framed⟩ := encode_json_framed encoded
  split at printed
  next number version written numbered versioned =>
    exact ⟨payload, number, version, written, rfl, framed, json.document.back _ _ printed,
      json.number.back _ _ numbered, json.text.back _ _ versioned⟩
  · cases printed

theorem encode_success_back {id : UInt64} {result : Option json.Value}
    (encoded : encodeSuccess json id result = .ok frame) :
    ∃ payload body, result = some body ∧ Framed payload frame ∧ ∀ kind,
      decodeResponse json payload kind =
        (decodeResult json kind body).map fun response => (id, response) := by
  -- A result has no field `error`, so it is read as what it was asked for.
  obtain ⟨payload, number, version, body, same, framed, read, numbered, versioned⟩ :=
    encode_fields_back encoded
  refine ⟨payload, body, same, framed, ?_⟩
  intro kind
  simp [decodeResponse, read, Document.get, Json.envelope, List.lookup, numbered, versioned]

theorem encode_error_back {id : UInt64}
    (encoded : encodeError json id (json.rpcError.write error) = .ok frame) :
    ∃ payload, Framed payload frame ∧
      ∀ kind, decodeResponse json payload kind = .ok (id, .error error) := by
  obtain ⟨payload, number, version, body, written, framed, read, numbered, versioned⟩ :=
    encode_fields_back encoded
  refine ⟨payload, framed, ?_⟩
  intro kind
  simp [decodeResponse, read, Document.get, Json.envelope, List.lookup, numbered, versioned,
    json.rpcError.back _ _ written]

theorem encode_response_back {id : UInt64}
    (encoded : encodeResponse json id response = .ok frame) (registered : Registered response kind) :
    ∃ payload, Framed payload frame ∧ decodeResponse json payload kind = .ok (id, response) := by
  cases response with
  | error error =>
    obtain ⟨payload, framed, decoded⟩ := encode_error_back encoded
    exact ⟨payload, framed, decoded kind⟩
  | hello result | added result | resumed result | download result | status result =>
    obtain ⟨payload, body, written, framed, decoded⟩ := encode_success_back encoded
    cases registered
    refine ⟨payload, framed, (decoded _).trans ?_⟩
    rw [decodeResult, Schema.back _ _ _ written]
    rfl

/-- What a reader gets of the frames of some messages: each message as it was sent, and from a
stream that is cut the messages before the cut and then an error. -/
structure Delivered {Message : Type} (transport : Transport) (decodes : List UInt8 → Message → Prop)
    (sent : List Message) (frames payloads : List (List UInt8)) : Prop where
  decoded : List.Forall₂ decodes payloads sent
  whole : ∀ chunks, [] ∉ chunks → chunks.flatten = frames.flatten →
    receive transport frames.length chunks = payloads.map .ok
  cut : ∀ cut chunks, [] ∉ chunks → chunks.flatten = frames.flatten.take cut →
    ∃ truncation, (truncation = .truncatedHeader ∨ truncation = .truncatedBody) ∧
      receive transport (wholeBefore cut frames + 1) chunks =
        (payloads.take (wholeBefore cut frames)).map .ok ++ [.error truncation]

theorem frames_delivered {Message : Type} {decodes : List UInt8 → Message → Prop}
    {encode : Message → Except CodecError (List UInt8)} {sent : List Message}
    (encoded : sent.mapM encode = .ok frames)
    (back : ∀ message ∈ sent, ∀ frame, encode message = .ok frame →
      ∃ payload, Framed payload frame ∧ decodes payload message) :
    ∃ payloads, Delivered transport decodes sent frames payloads := by
  -- The induction is on the messages; each frame has its payload.
  obtain ⟨payloads, framed, decoded⟩ : ∃ payloads, List.Forall₂ Framed payloads frames ∧
      List.Forall₂ decodes payloads sent := by
    induction sent generalizing frames with
    | nil =>
      cases encoded
      exact ⟨[], .nil, .nil⟩
    | cons message sent ih =>
      rw [List.mapM_cons] at encoded
      cases first : encode message with
      | error => simp [first, bind, Except.bind] at encoded
      | ok frame =>
        cases others : sent.mapM encode with
        | error => simp [first, others, bind, Except.bind] at encoded
        | ok rest =>
          rw [first, others] at encoded
          cases encoded
          obtain ⟨payload, framed, decoded⟩ := back message List.mem_cons_self frame first
          obtain ⟨payloads, allFramed, allDecoded⟩ := ih others fun other mem =>
            back other (List.mem_cons_of_mem _ mem)
          exact ⟨payload :: payloads, .cons framed allFramed, .cons decoded allDecoded⟩
  refine ⟨payloads, decoded, ?_, fun cut chunks filled stream => receive_cut framed filled stream⟩
  intro chunks filled stream
  obtain ⟨left, -, -, received⟩ :=
    receive_whole framed filled (stream.trans (List.append_nil _).symm)
  simpa [receive] using received 0

end RoundTrip

/-- Requests and responses come through any transport as they were sent, a cut stream is
reported as truncated, and a header that declares too much is refused before anything behind it
is read. -/
theorem messages_delivered (json : Json) (transport : Transport) :
    (∀ (sent : List (UInt64 × Request)) frames,
      sent.mapM (fun message => encodeRequest json message.1 message.2) = .ok frames →
      ∃ payloads, Delivered transport (fun payload message =>
        decodeRequest json.serde payload = .ok message) sent frames payloads) ∧
    (∀ (sent : List ((UInt64 × Response) × ResponseKind)) frames,
      sent.mapM (fun message => encodeResponse json message.1.1 message.1.2) = .ok frames →
      (∀ message ∈ sent, Registered message.1.2 message.2) →
      ∃ payloads, Delivered transport (fun payload message =>
        decodeResponse json payload message.2 = .ok message.1) sent frames payloads) ∧
    ∀ chunks, [] ∉ chunks → 4 ≤ chunks.flatten.length →
      ofLittleEndian (chunks.flatten.take 4) > maxFrameBytes →
      ∃ left, readFrame transport chunks =
          (.error (.frameTooLarge (ofLittleEndian (chunks.flatten.take 4)) maxFrameBytes), left) ∧
        left.flatten = chunks.flatten.drop 4 := by
  refine ⟨?_, ?_, ?_⟩
  · intro sent frames encoded
    exact frames_delivered encoded fun _ _ _ => encode_request_back
  · intro sent frames encoded registered
    exact frames_delivered encoded fun message mem _ written =>
      encode_response_back written (registered message mem)
  · intro chunks filled long large
    obtain ⟨left, read, after, -⟩ := transport.enough 4 chunks filled long
    exact ⟨left, by simp only [readFrame, read, if_pos large], after⟩

/-! A transport that hands its chunks out one by one, and what the JSON library makes of a
hello, a status request and their answers. A value is given by its text. -/

def readChunks (count : Nat) : List (List UInt8) → Option (List UInt8) × List (List UInt8)
  | [] => (if count = 0 then some [] else none, [])
  | chunk :: rest =>
    if count = 0 then (some [], chunk :: rest)
    -- A read of nothing is the end of the stream.
    else if chunk = [] then (none, rest)
    else if count < chunk.length then (some (chunk.take count), chunk.drop count :: rest)
    else
      let (bytes, left) := readChunks (count - chunk.length) rest
      (bytes.map (chunk ++ ·), left)

theorem read_chunks_enough (count : Nat) (chunks : List (List UInt8)) (filled : [] ∉ chunks)
    (enough : count ≤ chunks.flatten.length) :
    ∃ left, readChunks count chunks = (some (chunks.flatten.take count), left) ∧
      left.flatten = chunks.flatten.drop count ∧ [] ∉ left := by
  induction chunks generalizing count with
  | nil =>
    have none : count = 0 := by simpa using enough
    exact ⟨[], by simp [readChunks, none]⟩
  | cons chunk rest ih =>
    obtain ⟨bytes, others⟩ := not_or.mp (mt List.mem_cons.mpr filled)
    rw [List.flatten_cons, List.length_append] at enough
    rw [List.flatten_cons, readChunks]
    split
    next none => exact ⟨_, by rw [none]; rfl, by rw [none]; rfl, filled⟩
    rw [if_neg (Ne.symm bytes)]
    split
    next inside =>
      refine ⟨_, by rw [List.take_append_of_le_length inside.le], ?_, ?_⟩
      · rw [List.flatten_cons, List.drop_append_of_le_length inside.le]
      · simp [others, inside]
    next whole =>
      obtain ⟨left, read, after, filled⟩ := ih (count - chunk.length) others (by omega)
      have covered : chunk.length ≤ count := not_lt.mp whole
      refine ⟨left, ?_, ?_, filled⟩
      · rw [read, List.take_append, List.take_of_length_le covered]
        rfl
      · rw [after, List.drop_append, List.drop_of_length_le covered, List.nil_append]

theorem read_chunks_short (count : Nat) (chunks : List (List UInt8))
    (short : chunks.flatten.length < count) : (readChunks count chunks).1 = none := by
  induction chunks generalizing count with
  | nil =>
    have some : count ≠ 0 := by simp at short; omega
    simp [readChunks, some]
  | cons chunk rest ih =>
    rw [List.flatten_cons, List.length_append] at short
    rw [readChunks, if_neg (by omega)]
    split
    · rfl
    rw [if_neg (by omega)]
    simp only
    rw [ih _ (by omega), Option.map_none]

def chunked : Transport := ⟨readChunks, read_chunks_enough, read_chunks_short⟩

section Table
variable {Written Message : Type} [DecidableEq Written] [DecidableEq Message]

theorem table_back (entries : List (Message × Written)) (distinct : (entries.map Prod.snd).Nodup)
    (message : Message) (written : Written)
    (found : (entries.find? fun entry => entry.1 = message).map Prod.snd = some written) :
    (entries.find? fun entry => entry.2 = written).map Prod.fst = some message := by
  obtain ⟨entry, here, rfl⟩ := Option.map_eq_some_iff.mp found
  have mem := List.mem_of_find?_eq_some here
  have same : entry.1 = message := by simpa using List.find?_some here
  cases other : entries.find? fun candidate => candidate.2 = entry.2 with
  | none =>
    have apart := List.find?_eq_none.mp other entry mem
    simp at apart
  | some candidate =>
    have equal : candidate.2 = entry.2 := by simpa using List.find?_some other
    rw [List.inj_on_of_nodup_map distinct (List.mem_of_find?_eq_some other) mem equal]
    exact congrArg some same

def Schema.table (entries : List (Message × Written)) (distinct : (entries.map Prod.snd).Nodup) :
    Schema Written Message where
  write message := (entries.find? fun entry => entry.1 = message).map Prod.snd
  read written := (entries.find? fun entry => entry.2 = written).map Prod.fst
  back := table_back entries distinct

end Table

def helloAnswer : HelloResult := ⟨1, "0.1.0", ["events"]⟩

def statusRefusal : RpcError := ⟨-32000, "refused", ⟨1, "busy", none, true, none⟩⟩

def helloAnswerValue : List Char :=
  joined ["\x7b\"capabilities\":[\"events\"],", "\"daemon_version\":\"0.1.0\",",
    "\"protocol_version\":1\x7d"]

def statusRefusalValue : List Char :=
  joined ["\x7b\"code\":-32000,", "\"data\":\x7b\"download_id\":null,", "\"kind\":\"busy\",",
    "\"protocol_version\":1,", "\"recoverable\":true,", "\"suggestion\":null\x7d,",
    "\"message\":\"refused\"\x7d"]

-- A result is written field by field as its type has them, a value in the order of the names.
def helloAnswerMessage : List UInt8 :=
  ascii (joined ["\x7b\"jsonrpc\":\"2.0\",", "\"id\":1,\"result\":", "\x7b\"protocol_version\":1,",
    "\"daemon_version\":\"0.1.0\",", "\"capabilities\":[\"events\"]\x7d\x7d"])

def statusRefusalMessage : List UInt8 :=
  ascii (joined ["\x7b\"jsonrpc\":\"2.0\",", "\"id\":2,\"error\":", "\x7b\"code\":-32000,",
    "\"message\":\"refused\",", "\"data\":\x7b\"protocol_version\":1,", "\"kind\":\"busy\",",
    "\"download_id\":null,", "\"recoverable\":true,", "\"suggestion\":null\x7d\x7d\x7d"])

def exchange : Json where
  Value := List Char
  request := .table [(⟨"2.0", 1, "hello", helloValue⟩, helloMessage),
    (⟨"2.0", 2, "system.status", statusValue⟩, statusMessage)] (by decide +kernel)
  document := .table
    [(.object [("id", ['1']), ("jsonrpc", "\"2.0\"".toList), ("result", helloAnswerValue)],
      helloAnswerMessage),
    (.object [("error", statusRefusalValue), ("id", ['2']), ("jsonrpc", "\"2.0\"".toList)],
      statusRefusalMessage)] (by decide +kernel)
  text := .table [("2.0", "\"2.0\"".toList)] (List.nodup_singleton _)
  number := .table [(1, ['1']), (2, ['2'])] (by decide +kernel)
  helloParams := .table [(⟨1, "cli", zeroToken.toWire⟩, helloValue)] (List.nodup_singleton _)
  addParams := .table [] List.nodup_nil
  idParams := .table [] List.nodup_nil
  versionParams := .table [(⟨1⟩, statusValue)] (List.nodup_singleton _)
  helloResult := .table [(helloAnswer, helloAnswerValue)] (List.nodup_singleton _)
  stateResult := .table [] List.nodup_nil
  downloadView := .table [] List.nodup_nil
  systemStatus := .table [] List.nodup_nil
  rpcError := .table [(statusRefusal, statusRefusalValue)] (List.nodup_singleton _)
  sequence _ := none

def frameOf (payload : List UInt8) : List UInt8 := toLittleEndian 4 payload.length ++ payload

/-- Both requests come through a stream that is cut into two chunks, and of the answers the
first one where the stream ends inside the second. -/
theorem messages_delivered_twice :
    (∃ payloads, List.Forall₂ (fun payload message =>
        decodeRequest exchange.serde payload = .ok message) payloads
        [(1, .hello ⟨1, "cli", zeroToken.toWire⟩), (2, .systemStatus ⟨1⟩)] ∧
      receive chunked 2 [frameOf helloMessage ++ (frameOf statusMessage).take 1,
        (frameOf statusMessage).drop 1] = payloads.map .ok) ∧
    ∃ payload truncation, decodeResponse exchange payload .hello = .ok (1, .hello helloAnswer) ∧
      receive chunked 2 [frameOf helloAnswerMessage, (frameOf statusRefusalMessage).take 7] =
        [.ok payload, .error truncation] := by
  obtain ⟨requests, responses, -⟩ := messages_delivered exchange chunked
  refine ⟨?_, ?_⟩
  · obtain ⟨payloads, delivered⟩ := requests
      [(1, .hello ⟨1, "cli", zeroToken.toWire⟩), (2, .systemStatus ⟨1⟩)]
      [frameOf helloMessage, frameOf statusMessage] (by decide +kernel)
    exact ⟨payloads, delivered.decoded, delivered.whole _ (by decide +kernel) (by decide +kernel)⟩
  · obtain ⟨payloads, delivered⟩ := responses
      [((1, .hello helloAnswer), .hello), ((2, .error statusRefusal), .status)]
      [frameOf helloAnswerMessage, frameOf statusRefusalMessage] (by decide +kernel) (by simp [Registered])
    obtain ⟨truncation, -, received⟩ := delivered.cut ((frameOf helloAnswerMessage).length + 7)
      [frameOf helloAnswerMessage, (frameOf statusRefusalMessage).take 7] (by decide +kernel)
      (by decide +kernel)
    have decoded := delivered.decoded
    cases decoded with
    | @cons payload _ _ _ first others =>
      refine ⟨payload, truncation, first, ?_⟩
      have whole : wholeBefore ((frameOf helloAnswerMessage).length + 7)
          [frameOf helloAnswerMessage, frameOf statusRefusalMessage] = 1 := by decide +kernel
      rw [whole] at received
      exact received

/-! What a reader accepts. -/

section Accepting
variable {transport : Transport}

theorem read_exact_split (filled : [] ∉ chunks)
    (read : transport.readExact count chunks = (some bytes, left)) :
    bytes.length = count ∧ chunks.flatten = bytes ++ left.flatten ∧ [] ∉ left := by
  have enough : count ≤ chunks.flatten.length := by
    by_contra few
    have failed := transport.short count chunks (not_le.mp few)
    rw [read] at failed
    cases failed
  obtain ⟨rest, taken, behind, others⟩ := transport.enough count chunks filled enough
  rw [read] at taken
  cases taken
  exact ⟨List.length_take_of_le enough, by rw [behind, List.take_append_drop], others⟩

theorem accepted_framed (filled : [] ∉ chunks)
    (read : readFrame transport chunks = (.ok payload, left)) :
    ∃ frame, Framed payload frame ∧ chunks.flatten = frame ++ left.flatten ∧ [] ∉ left := by
  unfold readFrame at read
  split at read
  next => cases read
  next header middle first =>
    simp only at read
    split at read
    next => cases read
    next small =>
      split at read
      next => cases read
      next second =>
        cases read
        obtain ⟨four, start, filled⟩ := read_exact_split filled first
        obtain ⟨length, rest, filled⟩ := read_exact_split filled second
        refine ⟨header ++ payload, ⟨by omega, ?_⟩, ?_, filled⟩
        · rw [length, ← four, little_endian_written]
        · rw [start, rest, List.append_assoc]

/-- In any chunking, reads return payloads one after the other exactly if the stream begins
with their frames. -/
theorem received_framed_iff (transport : Transport) (filled : [] ∉ chunks)
    (payloads : List (List UInt8)) :
    receive transport payloads.length chunks = payloads.map .ok ↔
      ∃ frames rest, List.Forall₂ Framed payloads frames ∧
        chunks.flatten = frames.flatten ++ rest := by
  constructor
  · intro received
    -- The induction is on the payloads: each read takes one frame off the stream.
    induction payloads generalizing chunks with
    | nil => exact ⟨[], _, .nil, rfl⟩
    | cons payload payloads ih =>
      obtain ⟨first, others⟩ := List.cons.inj received
      obtain ⟨frame, framed, here, filled⟩ := accepted_framed filled (Prod.ext first rfl)
      obtain ⟨frames, rest, all, later⟩ := ih filled others
      exact ⟨frame :: frames, rest, .cons framed all, by simp [here, later]⟩
  · rintro ⟨frames, rest, framed, stream⟩
    obtain ⟨_, _, _, read⟩ := receive_whole framed filled stream
    simpa [receive, framed.length_eq] using read 0

end Accepting

theorem received_framed_seven : ∃ frames rest, List.Forall₂ Framed [[7]] frames ∧
    [[1, 0], [0, 0, 7, 5]].flatten = frames.flatten ++ rest :=
  (received_framed_iff chunked (by decide) [[7]]).mp rfl

end Downpour.IpcFrames
