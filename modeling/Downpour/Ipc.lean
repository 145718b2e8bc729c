import Mathlib

/-!
The typed messages of the local IPC contract and how a request is read from a JSON
payload. The JSON library is a parameter: it reads the envelope and the parameters
of each method, or refuses them. A secret text is given by its UTF-8 bytes.
-/

namespace Downpour.Ipc

def protocolVersion : UInt32 := 1

structure SecretString where
  expose : List UInt8
  deriving DecidableEq, Repr

structure HelloParams where
  protocolVersion : UInt32
  client : String
  token : SecretString
  deriving DecidableEq, Repr

structure AddOptions where
  connections : Option UInt16
  deriving DecidableEq, Repr

structure AddParams where
  protocolVersion : UInt32
  url : SecretString
  target : Option String
  options : AddOptions
  deriving DecidableEq, Repr

def isLowerHex (character : Char) : Bool :=
  ('0' ≤ character && character ≤ '9') || ('a' ≤ character && character ≤ 'f')

structure DownloadId where
  text : List Char
  sized : text.length = 32
  digits : text.all isLowerHex = true
  deriving DecidableEq

structure IdParams where
  protocolVersion : UInt32
  id : DownloadId
  deriving DecidableEq

structure VersionParams where
  protocolVersion : UInt32
  deriving DecidableEq, Repr

inductive Request where
  | hello (params : HelloParams)
  | downloadAdd (params : AddParams)
  | downloadGet (params : IdParams)
  | downloadResume (params : IdParams)
  | systemStatus (params : VersionParams)
  deriving DecidableEq

structure HelloResult where
  protocolVersion : UInt32
  daemonVersion : String
  capabilities : List String
  deriving DecidableEq, Repr

inductive WireState where
  | submitted
  | probing
  | planned
  | transferring
  | paused
  | stalled
  | verifying
  | completed
  | failed
  deriving DecidableEq, Repr

structure StateResult where
  protocolVersion : UInt32
  id : DownloadId
  state : WireState
  deriving DecidableEq

structure DownloadView where
  protocolVersion : UInt32
  id : DownloadId
  state : WireState
  covered : UInt64
  total : Option UInt64
  errorKind : Option String
  deriving DecidableEq

structure SystemStatus where
  protocolVersion : UInt32
  version : String
  uptimeSeconds : UInt64
  active : UInt32
  queued : UInt32
  throughput : UInt64
  deriving DecidableEq, Repr

structure ErrorData where
  protocolVersion : UInt32
  kind : String
  downloadId : Option DownloadId
  recoverable : Bool
  suggestion : Option String
  deriving DecidableEq

structure RpcError where
  code : Int32
  message : String
  data : ErrorData
  deriving DecidableEq

inductive Response where
  | hello (result : HelloResult)
  | added (result : StateResult)
  | download (result : DownloadView)
  | resumed (result : StateResult)
  | status (result : SystemStatus)
  | error (error : RpcError)
  deriving DecidableEq

inductive CodecError where
  | frameTooLarge (declared maximum : Nat)
  | truncatedHeader
  | truncatedBody
  | invalidMessage
  deriving DecidableEq, Repr

structure Envelope (Value : Type) where
  jsonrpc : String
  id : UInt64
  method : String
  params : Value
  deriving DecidableEq

/-- What the JSON library makes of a payload and of the parameters of a method. -/
structure Serde where
  Value : Type
  envelope : List UInt8 → Option (Envelope Value)
  hello : Value → Option HelloParams
  add : Value → Option AddParams
  id : Value → Option IdParams
  version : Value → Option VersionParams

variable (serde : Serde)

def decodeParams {Params : Type} (params : Option Params) : Except CodecError Params :=
  match params with
  | some params => .ok params
  | none => .error .invalidMessage

def decodeRequest (payload : List UInt8) : Except CodecError (UInt64 × Request) :=
  match serde.envelope payload with
  | none => .error .invalidMessage
  | some envelope =>
    if envelope.jsonrpc ≠ "2.0" then .error .invalidMessage
    else
      let request : Except CodecError Request := match envelope.method with
        | "hello" => (decodeParams (serde.hello envelope.params)).map Request.hello
        | "download.add" => (decodeParams (serde.add envelope.params)).map Request.downloadAdd
        | "download.get" => (decodeParams (serde.id envelope.params)).map Request.downloadGet
        | "download.resume" =>
          (decodeParams (serde.id envelope.params)).map Request.downloadResume
        | "system.status" =>
          (decodeParams (serde.version envelope.params)).map Request.systemStatus
        | _ => .error .invalidMessage
      request.map fun request => (envelope.id, request)

end Downpour.Ipc
