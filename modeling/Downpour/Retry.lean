import Downpour.Remote

/-!
When a failed request is tried again, after which delay, and when a resume has to
probe again first. Durations and instants are nanoseconds. The clock, the source
of jitter and the parser of HTTP dates are parameters.
-/

namespace Downpour.Retry
open Text Remote

inductive TransientKind where
  | connectionReset
  | timeout
  | rateLimited
  | serviceUnavailable
  | serverError
  | truncatedBody
  | notRetryable
  deriving DecidableEq, Repr

namespace TransientKind

def fromStatus (status : Nat) : Option TransientKind :=
  if status = 401 ∨ status = 403 ∨ status = 410 then none
  else if status = 408 then some .timeout
  else if status = 429 then some .rateLimited
  else if status = 503 then some .serviceUnavailable
  else if 500 ≤ status ∧ status ≤ 599 then some .serverError
  else if 400 ≤ status ∧ status ≤ 499 then some .notRetryable
  else none

def isRetryable : TransientKind → Bool
  | .notRetryable => false
  | _ => true

end TransientKind

inductive RetryDecision where
  | retryAfter (delay : Nat)
  | giveUp
  deriving DecidableEq, Repr

def millisecond : Nat := 1000000
def second : Nat := 1000000000
def maxDuration : Nat := (2 ^ 64 - 1) * second + (second - 1)

structure RetryPolicy where
  maxRetries : Nat
  baseDelay : Nat
  maxDelay : Nat
  maxServerDelay : Nat
  deriving DecidableEq, Repr

structure RetryClock where
  now : Nat
  jitter : Nat
  parseHttpDate : List Char → Option Nat

def parseRetryAfter (clock : RetryClock) (value : List Char) : Option Nat :=
  if trim value = [] then none
  else if (trim value).all isDigit then (parseUnsigned 64 (trim value)).map (· * second)
  else (clock.parseHttpDate (trim value)).map (· - clock.now)

namespace RetryPolicy

def default : RetryPolicy := ⟨5, 500 * millisecond, 30 * second, 3600 * second⟩

def exponential (policy : RetryPolicy) (attempt : Nat) : Nat :=
  let grown := policy.baseDelay * 2 ^ min attempt 16
  if grown > maxDuration then policy.maxDelay else min grown policy.maxDelay

/-- The delay without an instruction of the server, in the upper half of the
exponential window. -/
def backoff (policy : RetryPolicy) (clock : RetryClock) (attempt : Nat) : Nat :=
  let half := min (policy.exponential attempt / millisecond) (2 ^ 64 - 1) / 2
  let spread := if half = 0 then 0 else clock.jitter % half
  max (min (half + spread) (2 ^ 64 - 1)) 1 * millisecond

def decide (policy : RetryPolicy) (clock : RetryClock) (kind : TransientKind) (attempt : Nat)
    (retryAfter : Option (List Char)) : RetryDecision :=
  if kind.isRetryable = false ∨ attempt ≥ policy.maxRetries then .giveUp
  else match retryAfter.bind (parseRetryAfter clock) with
    | some requested => .retryAfter (min requested policy.maxServerDelay)
    | none => .retryAfter (policy.backoff clock attempt)

theorem decide_retries (policy : RetryPolicy)
    (decided : policy.decide clock kind attempt header = .retryAfter delay) :
    kind.isRetryable = true ∧ attempt < policy.maxRetries := by
  unfold decide at decided
  split at decided
  · cases decided
  next allowed =>
    rw [not_or, Bool.not_eq_false, Nat.not_le] at allowed
    exact allowed

def fastForTests : RetryPolicy := ⟨5, 10 * millisecond, 50 * millisecond, 3600 * second⟩

/-- The policies that can be built: the fields are private. -/
inductive Built : RetryPolicy → Prop
  | default : Built default
  | fastForTests : Built fastForTests

theorem jittered_le (half jitter : Nat) :
    half + (if half = 0 then 0 else jitter % half) ≤ 2 * half := by
  split
  next => omega
  next positive =>
    have below := Nat.mod_lt jitter (Nat.pos_of_ne_zero positive)
    omega

theorem backoff_le (policy : RetryPolicy) (clock : RetryClock) (attempt : Nat) :
    policy.backoff clock attempt ≤ max policy.maxDelay millisecond := by
  have capped : policy.exponential attempt ≤ policy.maxDelay := by
    simp only [exponential]
    split
    · exact Nat.le_refl _
    · exact Nat.min_le_right _ _
  have window := jittered_le (min (policy.exponential attempt / millisecond) (2 ^ 64 - 1) / 2) clock.jitter
  simp only [backoff, millisecond] at window ⊢
  omega

/-- A delay in seconds is obeyed up to the ceiling, as long as it fits 64 bits. A longer
number does not parse, and the computed delay is always shorter. -/
theorem retry_after_obeyed_iff {policy : RetryPolicy} (built : Built policy) (clock : RetryClock)
    {kind : TransientKind} (retryable : kind.isRetryable = true) {attempt : Nat}
    (allowed : attempt < policy.maxRetries) {header : List Char} (seconds : isDecimal (trim header) = true) :
    policy.decide clock kind attempt (some header) =
        .retryAfter (min (decimalValue (trim header) * second) policy.maxServerDelay) ↔
      decimalValue (trim header) < 2 ^ 64 := by
  have digits := seconds
  rw [isDecimal, Bool.and_eq_true, Bool.not_eq_true', List.isEmpty_eq_false_iff] at digits
  have unsigned : parseUnsigned 64 (trim header) = if decimalValue (trim header) < 2 ^ 64 then
      some (decimalValue (trim header)) else none := by
    unfold parseUnsigned
    split
    next rest plus =>
      rw [plus] at digits
      cases digits.2
    next => simp [seconds]
  have kept : ¬ (kind.isRetryable = false ∨ attempt ≥ policy.maxRetries) := by
    rw [retryable]
    simpa using allowed
  rw [decide, if_neg kept, Option.bind_some, parseRetryAfter, if_neg digits.1, if_pos digits.2, unsigned]
  by_cases fits : decimalValue (trim header) < 2 ^ 64
  · exact iff_of_true (by rw [if_pos fits]; rfl) fits
  · have shorter := policy.backoff_le clock attempt
    rw [if_neg fits]
    refine iff_of_false (fun same => ?_) fits
    have equal := RetryDecision.retryAfter.inj same
    cases built <;> simp only [default, fastForTests, millisecond, second] at shorter equal <;> omega

theorem retry_after_obeyed_minute :
    default.decide ⟨0, 0, fun _ => none⟩ .rateLimited 0 (some ['6', '0']) =
      .retryAfter (min (decimalValue (trim ['6', '0']) * second) default.maxServerDelay) :=
  (retry_after_obeyed_iff .default ⟨0, 0, fun _ => none⟩ rfl (by decide) rfl).mpr (by decide)

/-- The number `2 ^ 64`. -/
theorem retry_after_shortened :
    default.decide ⟨0, 0, fun _ => none⟩ .rateLimited 0
        (some (Nat.toDigits 10 18446744073709551616)) = .retryAfter (250 * millisecond) ∧
      250 * millisecond < min (18446744073709551616 * second) default.maxServerDelay := by
  decide +kernel

end RetryPolicy

/-! When the evidence of a probe is too old or contradicted. -/

inductive ReprobeTrigger (Url : Type) where
  | refreshedUrlSupplied (url : Url)
  | finalUrlChanged (recorded planned : Url)
  | statusContradictsCapabilities (status : Nat) (reason : String)
  | freshnessWindowElapsed (elapsed window : Nat)

structure ResumePlan (Url : Type) where
  recorded : RemoteObject Url
  now : Nat
  plannedUrl : Url
  refreshedUrl : Option Url
  lastObservedStatus : Option Nat

def contradiction (status : Nat) (rangeSupport : RangeSupport) : Option String :=
  if status = 200 ∧ rangeSupport.isProven = true then
    some "range support was proven but the server answered a ranged request with 200"
  else if status = 416 then some "the server rejected a range the recorded length says exists"
  else if status = 401 ∨ status = 403 ∨ status = 410 then
    some "the URL or credential that produced the recorded evidence no longer applies"
  else none

def capabilityFreshness : Nat := 15 * 60 * second

/-- Every trigger that applies, in the order of the four rules. -/
def triggers {Url : Type} [DecidableEq Url] (freshness : Nat) (plan : ResumePlan Url) :
    List (ReprobeTrigger Url) :=
  let refreshed := plan.refreshedUrl.toList.map .refreshedUrlSupplied
  let moved := if plan.plannedUrl ≠ plan.recorded.finalUrl then
    [.finalUrlChanged plan.recorded.finalUrl plan.plannedUrl] else []
  let contradicted := match plan.lastObservedStatus with
    | none => []
    | some status =>
      (contradiction status plan.recorded.rangeSupport).toList.map
        (.statusContradictsCapabilities status)
  -- A probe from the future has an unknown age and counts as stale.
  let elapsed := if plan.recorded.probedAt ≤ plan.now then plan.now - plan.recorded.probedAt
    else freshness + 1
  let stale := if elapsed > freshness then [.freshnessWindowElapsed elapsed freshness] else []
  refreshed ++ moved ++ contradicted ++ stale

end Downpour.Retry
