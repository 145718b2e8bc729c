import Downpour.Ranges

/-!
What a probe learns about a remote object: the proof that byte ranges work, the
validator to resume against and the digest the server offers. The parsed media
type is left out, because nothing reads it.
-/

namespace Downpour.Remote
open Text Ranges

inductive RangeProofError where
  | statusNot206 (status : Nat)
  | unexpectedContentEncoding (encoding : List Char)
  | contentRangeAbsent
  | contentRangeMalformed (error : ContentRangeError)
  | contentRangeMismatch (mismatch : RangeMismatch)
  | totalLengthUnknown
  | bodyLengthMismatch (expected actual : Nat)
  deriving DecidableEq, Repr

structure RangeObservation where
  requested : ByteRangeSpec
  status : Nat
  contentRange : Option (List Char)
  contentEncoding : Option (List Char)
  bodyLen : Nat
  deriving DecidableEq, Repr

structure RangeProof where
  totalLength : Nat
  observed : ContentRange
  requested : ByteRangeSpec
  observation : RangeObservation
  deriving DecidableEq, Repr

/-- The encoding that makes a body unusable, if the header names one. -/
def refusedEncoding (contentEncoding : Option (List Char)) : Option (List Char) :=
  match contentEncoding with
  | none => none
  | some encoding =>
    if trim encoding ≠ [] ∧ eqIgnoreAsciiCase (trim encoding) "identity".toList = false then
      some (trim encoding)
    else none

/-- The only way to a proof: every check of the response has to pass. -/
def RangeProof.fromObservedResponse (requested : ByteRangeSpec) (status : Nat)
    (contentRange contentEncoding : Option (List Char)) (bodyLen : Nat) :
    Except RangeProofError RangeProof :=
  if status ≠ 206 then .error (.statusNot206 status)
  else match refusedEncoding contentEncoding with
    | some encoding => .error (.unexpectedContentEncoding encoding)
    | none =>
      match contentRange with
      | none => .error .contentRangeAbsent
      | some header =>
        match ContentRange.fromStr header with
        | .error error => .error (.contentRangeMalformed error)
        | .ok observed =>
          match observed.isConsistentWith requested with
          | .error mismatch => .error (.contentRangeMismatch mismatch)
          | .ok () =>
            match observed.completeLength, observed.len with
            | some totalLength, some expected =>
              if bodyLen ≠ expected then .error (.bodyLengthMismatch expected bodyLen)
              else .ok ⟨totalLength, observed, requested,
                ⟨requested, status, contentRange, contentEncoding, bodyLen⟩⟩
            | _, _ => .error .totalLengthUnknown

inductive RangeSupport where
  | proven (proof : RangeProof)
  | absent
  | unknown
  deriving DecidableEq, Repr

namespace RangeSupport

def isProven : RangeSupport → Bool
  | .proven _ => true
  | _ => false

def totalLength : RangeSupport → Option Nat
  | .proven proof => some proof.totalLength
  | _ => none

end RangeSupport

/-- The validator recorded for a representation. A weak tag counts as none. -/
inductive Validator where
  | strongETag (value : List Char)
  | lastModified (value : List Char)
  | none
  deriving DecidableEq, Repr

namespace Validator

def fromLastModified (lastModified : Option (List Char)) : Validator :=
  match lastModified with
  | some value => if trim value = [] then .none else .lastModified (trim value)
  | Option.none => .none

def fromHeaders (etag lastModified : Option (List Char)) : Validator :=
  match etag with
  | some value =>
    if trim value ≠ [] ∧ ¬ ['W', '/'] <+: trim value ∧ ['"'] <+: trim value then
      .strongETag (trim value)
    else fromLastModified lastModified
  | Option.none => fromLastModified lastModified

def ifRangeValue : Validator → Option (List Char)
  | .strongETag value | .lastModified value => some value
  | .none => Option.none

end Validator

inductive DigestAlgorithm where
  | sha256
  | sha512
  deriving DecidableEq, Repr

structure ContentDigest where
  algorithm : DigestAlgorithm
  encoded : List Char
  deriving DecidableEq, Repr

namespace ContentDigest

def algorithmOf (key : List Char) : Option DigestAlgorithm :=
  if toAsciiLowercase (trim key) = "sha-256".toList then some .sha256
  else if toAsciiLowercase (trim key) = "sha-512".toList then some .sha512
  else none

def payload (value : List Char) : Option (List Char) :=
  match trim value with
  | ':' :: rest =>
    match rest.reverse with
    | ':' :: reversed => if reversed = [] then none else some reversed.reverse
    | _ => none
  | _ => none

def parseMember (mem : List Char) : Option ContentDigest := do
  let (key, value) ← splitOnce '=' mem
  let algorithm ← algorithmOf key
  let encoded ← payload value
  return ⟨algorithm, encoded⟩

def stronger (best : Option ContentDigest) (candidate : ContentDigest) : Option ContentDigest :=
  match best with
  | none => some candidate
  | some current =>
    if candidate.algorithm = .sha512 ∧ current.algorithm = .sha256 then some candidate
    else some current

/-- The strongest digest of the dictionary; members that cannot be read are skipped. -/
def parse (raw : List Char) : Option ContentDigest :=
  ((splitAll ',' raw).filterMap parseMember).foldl stronger none

end ContentDigest

inductive NegotiatedProtocol where
  | http11
  | http2
  | http3
  deriving DecidableEq, Repr

structure RemoteObject (Url : Type) where
  finalUrl : Url
  redirectChain : List Url
  totalLength : Option Nat
  rangeSupport : RangeSupport
  validator : Validator
  digest : Option ContentDigest
  protocol : NegotiatedProtocol
  suggestedFilename : Option (List Char)
  probedAt : Nat

end Downpour.Remote
