import Downpour.ResumeRequests

/-!
What the retry loop makes of an answer that asks for patience. To a conditional request
every answer other than a 206 counts as a changed representation, whatever its status.
-/

namespace Downpour.BackPressure
open Remote Http H1H2 Retry SingleStream Attempts

section Reaction
variable {Url : Type}

/-! The decision on a failed attempt. -/

def decision (policy : RetryPolicy) (clock : RetryClock) (failures : Nat)
    (error : DownloadError Url) : RetryDecision :=
  match transientKindOf error with
  | none => .giveUp
  | some kind => policy.decide clock kind failures (retryAfterOf error)

def reaction (policy : RetryPolicy) (clock : RetryClock) (failures : Nat) :
    Except (DownloadError Url) Delivered → Option RetryDecision
  | .ok _ => none
  | .error error => some (decision policy clock failures error)

theorem retries_reaction [DecidableEq Url] (env : Environment Url) (policy : RetryPolicy)
    (freshness : Nat) (url : Url) (layout : StorageLayout) (io : Nat → AttemptIo)
    (visit : Visit Url) :
    (visit.retries env policy freshness url layout io).isSome = true ↔
      ∃ delay, reaction policy (io visit.number).clock visit.number
        (visit.outcome env freshness url layout io).1 = some (.retryAfter delay) := by
  unfold Visit.retries
  rcases visit.outcome env freshness url layout io with ⟨error | delivered, left, log⟩
  · simp only [reaction, decision]
    cases transientKindOf error with
    | none => simp
    | some kind =>
      simp only
      cases policy.decide (io visit.number).clock kind visit.number (retryAfterOf error) <;> simp
  · simp [reaction]

def Transient (status : Nat) : Prop := status = 408 ∨ status = 429 ∨ 500 ≤ status ∧ status ≤ 599

theorem transient_kind (transient : Transient status) :
    ∃ kind, TransientKind.fromStatus status = some kind ∧ kind.isRetryable = true := by
  unfold Transient at transient
  unfold TransientKind.fromStatus
  have patient : ¬ (status = 401 ∨ status = 403 ∨ status = 410) := by omega
  rw [if_neg patient]
  split
  · exact ⟨_, rfl, rfl⟩
  · split
    · exact ⟨_, rfl, rfl⟩
    · split
      · exact ⟨_, rfl, rfl⟩
      · split
        · exact ⟨_, rfl, rfl⟩
        · omega

theorem check_transient (request : RangeRequest Url) (transient : Transient response.status) :
    checkResponse request response = .error (match request.ifRange with
      | some validator =>
        .validatorMismatch request.url (resumeOffset request.range) response.status validator
      | none => .unexpectedStatus request.url response.status response.retryAfter) := by
  unfold Transient at transient
  have neither : response.status ≠ 200 ∧ response.status ≠ 206 := by omega
  unfold checkResponse
  cases request.ifRange with
  | none => simp only [Option.filter_none, if_pos neither]
  | some validator => simp [Option.filter, neither.2]

theorem run_unchecked {env : Environment Url} {held : Session Url}
    {io : AttemptIo} {sent : List (Exchange Url)}
    (answered : env.server sent.length request = .ok response)
    (unchecked : checkResponse request response = .error error)
    (committed : (Sink.sync env.outside io.sync held.sink.target).1 = .ok ()) :
    (run env held request io sent).1 = .error (.transfer error) := by
  unfold run fetchRange
  simp only [answered, unchecked]
  rw [committed]

theorem transient_reaction (env : Environment Url) (policy : RetryPolicy)
    (clock : RetryClock) (failures : Nat) (held : Session Url)
    (io : AttemptIo) (sent : List (Exchange Url)) (transient : Transient response.status)
    (answered : env.server sent.length request = .ok response)
    (committed : (Sink.sync env.outside io.sync held.sink.target).1 = .ok ()) :
    reaction policy clock failures (run env held request io sent).1 =
      some (if request.ifRange = none ∧ failures < policy.maxRetries then
        .retryAfter (match response.retryAfter.bind (parseRetryAfter clock) with
          | some requested => min requested policy.maxServerDelay
          | none => policy.backoff clock failures) else .giveUp) := by
  rw [run_unchecked answered (check_transient request transient) committed]
  cases request.ifRange with
  | some validator => simp [reaction, decision, transientKindOf]
  | none =>
    obtain ⟨kind, known, retryable⟩ := transient_kind transient
    simp only [reaction, decision, transientKindOf, known, retryAfterOf, RetryPolicy.decide,
      retryable, Bool.true_eq_false, false_or, true_and]
    by_cases spent : failures ≥ policy.maxRetries
    · rw [if_pos spent, if_neg (Nat.not_lt.mpr spent)]
    · rw [if_neg spent, if_pos (Nat.lt_of_not_le spent)]
      cases response.retryAfter.bind (parseRetryAfter clock) <;> rfl

/-- The same transient answer, once to some request of a session and once to a first whole
fetch: the loop treats both alike where the request is unconditional or no retry is left. -/
theorem same_reaction_iff (env : Environment Url) (policy : RetryPolicy)
    (clock : RetryClock) (failures : Nat) (response : Response)
    (transient : Transient response.status) (held first : Session Url)
    (request : RangeRequest Url) (url : Url) (io firstIo : AttemptIo)
    (sent firstSent : List (Exchange Url))
    (answered : env.server sent.length request = .ok response)
    (firstAnswered : env.server firstSent.length (RangeRequest.whole url) = .ok response)
    (committed : (Sink.sync env.outside io.sync held.sink.target).1 = .ok ())
    (firstCommitted : (Sink.sync env.outside firstIo.sync first.sink.target).1 = .ok ()) :
    reaction policy clock failures (run env held request io sent).1 =
        reaction policy clock failures
          (run env first (RangeRequest.whole url) firstIo firstSent).1 ↔
      request.ifRange = none ∨ policy.maxRetries ≤ failures := by
  rw [transient_reaction env policy clock failures held io sent transient
      answered committed,
    transient_reaction env policy clock failures first firstIo firstSent transient
      firstAnswered firstCommitted]
  simp only [RangeRequest.whole, true_and]
  by_cases left : failures < policy.maxRetries
  · cases request.ifRange with
    | none => simp
    | some validator => simp [left]
  · simp [left, Nat.not_lt.mp left]

end Reaction

/-! A busy server. -/

section Busy
open Splice ResumeRequests

def busy : Response := { plainResponse 503 oldFile with retryAfter := some "120".toList }

/-- A session that has fetched nothing yet, of a representation of unknown length. -/
def growing : Session Unit where
  sink := RangeSink.new ⟨.lengthless [], ⟨"downloads/f.dppart", none⟩, none⟩ 0 none
  validator := .strongETag (tagged 'A')
  recorded := learned .absent
  finalUrl := ()
  totalLength := none
  finalPath := "downloads/f"
  artifacts := ⟨"downloads/f.dppart", none⟩
  lastObservedStatus := none

/-- The session that a first attempt leaves after two bytes can be resumed. The answer 503
to its resume is treated as to a whole fetch only once no retry is left. -/
theorem same_reaction_busy :
    let env := script provenProbe (broken 2) busy
    ∃ left, (attempt env capabilityFreshness () cutLayout none cutIo []).2.1 = some left ∧
      resumable (some left) = true ∧
      let resumed := (run env left (RangeRequest.resume () (.from 2) (tagged 'A')) cutIo
        (cutLog.take 2)).1
      let whole := (run env growing (RangeRequest.whole ()) cutIo (cutLog.take 2)).1
      reaction RetryPolicy.default cutIo.clock 0 resumed ≠
          reaction RetryPolicy.default cutIo.clock 0 whole ∧
        reaction RetryPolicy.default cutIo.clock 5 resumed =
          reaction RetryPolicy.default cutIo.clock 5 whole := by
  intro env
  obtain ⟨left, first, continues, committed⟩ :
      ∃ left, (attempt env capabilityFreshness () cutLayout none cutIo []).2.1 = some left ∧
        resumable (some left) = true ∧
        (Sink.sync env.outside cutIo.sync left.sink.target).1 = .ok () := by
    simp only [attempt, start, env]
    rw [script_proven]
    exact ⟨_, rfl, rfl, rfl⟩
  have alike := fun failures => same_reaction_iff env RetryPolicy.default cutIo.clock failures busy
    (Or.inr (Or.inr ⟨by decide, by decide⟩)) left growing
    (RangeRequest.resume () (.from 2) (tagged 'A')) () cutIo cutIo (cutLog.take 2) (cutLog.take 2)
    rfl rfl committed rfl
  refine ⟨left, first, continues, fun same => ?_, (alike 5).mpr (Or.inr (by decide))⟩
  exact absurd ((alike 0).mp same) (by decide)

/-- A 503 that asks for two minutes is waited for on the whole fetch. On the resume it
ends the download. -/
theorem busy_resume_ends :
    reaction RetryPolicy.default cutIo.clock 0
        ((firstVisit : Visit Unit).outcome (script provenProbe busy busy) capabilityFreshness ()
          cutLayout fun _ => cutIo).1 = some (.retryAfter (120 * second)) ∧
      download (script provenProbe (broken 2) busy) RetryPolicy.default capabilityFreshness ()
          cutLayout (fun _ => cutIo) =
        (.error (.transfer (.validatorMismatch () 2 503 (tagged 'A'))), cutLog) := by
  constructor
  · simp only [Visit.outcome, firstVisit, attempt, start]
    rw [script_proven]
    decide +kernel
  · obtain ⟨left, first, continues, second⟩ :
        ∃ left, attempt (script provenProbe (broken 2) busy) capabilityFreshness () cutLayout none
            cutIo [] = (.error (.transfer (.transport () "connection reset")), some left,
              cutLog.take 2) ∧ resumable (some left) = true ∧
          attempt (script provenProbe (broken 2) busy) capabilityFreshness () cutLayout (some left)
            cutIo (cutLog.take 2) = (.error (.transfer (.validatorMismatch () 2 503 (tagged 'A'))),
              some { left with
                sink := left.sink.rebase 2 (some 2), lastObservedStatus := some 503 }, cutLog) := by
      simp only [attempt, start]
      rw [script_proven]
      exact ⟨_, rfl, rfl, rfl⟩
    rw [download, downloadLoop, first]
    simp only [transientKindOf, retryAfterOf]
    split
    next giveUp => cases giveUp
    next =>
      rw [if_pos continues, downloadLoop, second]
      simp only [transientKindOf]

end Busy

end Downpour.BackPressure
