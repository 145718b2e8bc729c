import Downpour.Support.Text

/-!
`Range` requests and `Content-Range` answers. Header values are lists of
characters and byte positions natural numbers; the parser enforces the 64-bit
bounds.
-/

namespace Downpour.Ranges
open Text

inductive ByteRangeSpec where
  | fromTo (first last : Nat)
  | «from» (first : Nat)
  | suffix (len : Nat)
  deriving DecidableEq, Repr

inductive ContentRangeError where
  | empty
  | unsupportedUnit (unit : List Char)
  | malformed (reason : String)
  | reversed (first last : Nat)
  | lastByteBeyondComplete (last completeLength : Nat)
  | numericOverflow
  deriving DecidableEq, Repr

inductive RangeMismatch where
  | unsatisfied
  | wrongStart (requested returned : Nat)
  | endBeyondRequest (requestedLast returnedLast : Nat)
  | unverifiableSuffix
  deriving DecidableEq, Repr

inductive ContentRange where
  | bytes (first last : Nat) (completeLength : Option Nat)
  | unsatisfied (completeLength : Nat)
  deriving DecidableEq, Repr

def parseDecimal (text : List Char) : Except ContentRangeError Nat :=
  if !isDecimal text then .error (.malformed "expected a decimal digit sequence")
  else if decimalValue text < 2 ^ 64 then .ok (decimalValue text)
  else .error .numericOverflow

namespace ContentRange

def len : ContentRange → Option Nat
  | .bytes first last _ => some (last - first + 1)
  | .unsatisfied _ => none

def completeLength : ContentRange → Option Nat
  | .bytes _ _ completeLength => completeLength
  | .unsatisfied completeLength => some completeLength

/-- The first position has to be the requested one; the last may fall short. -/
def isConsistentWith (range : ContentRange) (requested : ByteRangeSpec) :
    Except RangeMismatch Unit :=
  match range with
  | .unsatisfied _ => .error .unsatisfied
  | .bytes first last completeLength =>
    match requested with
    | .fromTo wantFirst wantLast =>
      if first ≠ wantFirst then .error (.wrongStart wantFirst first)
      else if last > wantLast then .error (.endBeyondRequest wantLast last)
      else .ok ()
    | .from wantFirst =>
      if first ≠ wantFirst then .error (.wrongStart wantFirst first) else .ok ()
    | .suffix len =>
      match completeLength with
      | none => .error .unverifiableSuffix
      | some total =>
        if first ≠ total - len then .error (.wrongStart (total - len) first)
        else if last ≠ total - 1 then .error (.endBeyondRequest (total - 1) last)
        else .ok ()

/-- The byte positions and the length behind the unit, without blanks inside. -/
def parseParts (rangePart lengthPart : List Char) : Except ContentRangeError ContentRange := do
  let completeLength ← if lengthPart = ['*'] then pure none
    else some <$> parseDecimal lengthPart
  if rangePart = ['*'] then
    match completeLength with
    | some completeLength => return .unsatisfied completeLength
    | none => throw (.malformed "both the range and the complete-length are unknown")
  let some (firstRaw, lastRaw) := splitOnce '-' rangePart
    | throw (.malformed "no '-' between the byte positions")
  let first ← parseDecimal firstRaw
  let last ← parseDecimal lastRaw
  if first > last then throw (.reversed first last)
  -- Without the largest position the number of bytes fits 64 bits.
  if last = 2 ^ 64 - 1 then throw .numericOverflow
  match completeLength with
  | some total =>
    if last ≥ total then throw (.lastByteBeyondComplete last total)
    return .bytes first last (some total)
  | none => return .bytes first last none

def fromStr (raw : List Char) : Except ContentRangeError ContentRange := do
  let text := trim raw
  if text = [] then throw .empty
  let some (unit, rest) := splitOnce ' ' text
    | throw (.malformed "no space after the range unit")
  if !eqIgnoreAsciiCase unit "bytes".toList then throw (.unsupportedUnit unit)
  let some (rangePart, lengthPart) := splitOnce '/' (rest.dropWhile (· == ' '))
    | throw (.malformed "no '/' before the complete-length")
  if rangePart = [] ∨ lengthPart = [] then throw (.malformed "empty range or complete-length")
  if rangePart.any isAsciiWhitespace || lengthPart.any isAsciiWhitespace then
    throw (.malformed "internal whitespace")
  parseParts rangePart lengthPart

end ContentRange

end Downpour.Ranges
