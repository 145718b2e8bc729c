import Downpour.SessionInvariant

/-!
The files of a download between its attempts. A session owns the part file and the
journal that its creation has made. An attempt without a session creates new ones, so no
file of an earlier attempt may be there any more. A probe before a resume that fails
drops the session and leaves its files.
-/

namespace Downpour.Leftovers
open Remote Http H1H2 Probing Retry Completion Sink SingleStream Attempts SessionTrace
open SessionInvariant

section Engine
variable {Url : Type} (env : Environment Url)

/-! What a resume does to the session it takes. -/

theorem resume_artifacts {held : Session Url} {log : List (Exchange Url)} {prepared : Prepared Url}
    (ready : prepareResume held log = .ok prepared) :
    prepared.held.artifacts = held.artifacts := by
  obtain ⟨_, _, rfl⟩ := resume_prepared ready
  rfl

theorem resume_returned {held : Session Url} {log : List (Exchange Url)} {result : Attempted Url}
    (refused : prepareResume held log = .error result) : result.2.1 = some held := by
  unfold prepareResume at refused
  cases usable : held.validator.ifRangeValue with
  | none =>
    simp only [usable, Except.error.injEq] at refused
    rw [← refused]
  | some validator => simp [usable] at refused

theorem refresh_end (held : Session Url) (io : AttemptIo) (sent : List (Exchange Url)) :
    match refreshCapabilities env held io sent with
    | (.ok fresh, _) => fresh.artifacts = held.artifacts
    | (.error error, log) => transientKindOf error = none ∨
        ∃ cause, error = .probe cause ∧ probe env.server env.join
          env.resolve (ProbeRequest.new held.finalUrl) io.probedAt sent = (.error cause, log) := by
  unfold refreshCapabilities
  rcases probe env.server env.join env.resolve
    (ProbeRequest.new held.finalUrl) io.probedAt sent with ⟨cause | fresh, log⟩
  · exact Or.inr ⟨cause, rfl, rfl⟩
  · by_cases changed : fresh.validator ≠ held.validator ∨
        (fresh.totalLength.isSome = true ∧ fresh.totalLength ≠ held.totalLength)
    · simp only [if_pos changed]
      exact Or.inl rfl
    · simp only [if_neg changed]

variable [DecidableEq Url] (policy : RetryPolicy) (freshness : Nat) (url : Url)
variable (layout : StorageLayout) (io : Nat → AttemptIo)

def reprobes (held : Session Url) (attemptIo : AttemptIo) : Bool :=
  !(triggers freshness ⟨held.recorded, attemptIo.now, held.finalUrl, none,
    held.lastObservedStatus⟩).isEmpty

def ReprobeFails (visit : Visit Url) : Prop :=
  ∃ held cause log kind delay, visit.session = some held ∧
    reprobes freshness held (io visit.number) = true ∧
    probe env.server env.join env.resolve (ProbeRequest.new held.finalUrl)
      (io visit.number).probedAt visit.sent = (.error cause, log) ∧
    transientKindOf (.probe cause : DownloadError Url) = some kind ∧
    policy.decide (io visit.number).clock kind visit.number
      (retryAfterOf (.probe cause : DownloadError Url)) = .retryAfter delay

variable {env policy freshness url layout io}

theorem prepared_artifacts {visit : Visit Url} (carried : visit.session = some held)
    (ready : visit.prepared env freshness url layout io = .ok prepared) :
    prepared.held.artifacts = held.artifacts := by
  unfold Visit.prepared prepare at ready
  simp only [carried] at ready
  split at ready
  · exact resume_artifacts ready
  · have ended := refresh_end env held (io visit.number) visit.sent
    generalize refreshCapabilities env held (io visit.number) visit.sent = refreshed
      at ready ended
    rcases refreshed with ⟨error | fresh, log⟩
    · cases ready
    · exact (resume_artifacts ready).trans ended

theorem resume_refused (visit : Visit Url) (carried : visit.session = some held)
    (refused : visit.prepared env freshness url layout io = .error result) :
    (∃ back, result.2.1 = some back ∧ back.artifacts = held.artifacts) ∨
      (∃ error, result.1 = .error error ∧ transientKindOf error = none) ∨
      ∃ cause log, reprobes freshness held (io visit.number) = true ∧
        probe env.server env.join env.resolve
          (ProbeRequest.new held.finalUrl) (io visit.number).probedAt visit.sent =
          (.error cause, log) ∧ result = (.error (.probe cause), none, log) := by
  unfold Visit.prepared prepare at refused
  simp only [carried] at refused
  split at refused
  · exact Or.inl ⟨held, resume_returned refused, rfl⟩
  next stale =>
    have ended := refresh_end env held (io visit.number) visit.sent
    generalize refreshCapabilities env held (io visit.number) visit.sent = refreshed
      at refused ended
    rcases refreshed with ⟨error | fresh, log⟩
    · cases refused
      rcases ended with final | ⟨cause, rfl, failed⟩
      · exact Or.inr (Or.inl ⟨error, rfl, final⟩)
      · exact Or.inr (Or.inr ⟨cause, log, by simp [reprobes, stale], failed, rfl⟩)
    · exact Or.inl ⟨fresh, resume_returned refused, ended⟩

/-! The files that stand when an attempt begins. -/

def Owned (visit : Visit Url) : Prop :=
  visit.files = (visit.session.map fun held => artifactPaths held.artifacts).getD []

omit [DecidableEq Url] in
theorem filter_own (artifacts : Artifacts) :
    (artifactPaths artifacts).filter (fun path => !(artifactPaths artifacts).contains path) = [] := by
  simp

theorem next_owned (visit : Visit Url) (log : List (Exchange Url))
    (files : visit.filesLeft env freshness url layout io = artifactPaths left.artifacts) :
    Owned (visit.next env freshness url layout io (some left) log) := by
  unfold Visit.next Owned
  rw [files]
  by_cases continues : resumable (some left) = true
  · simp only [if_pos continues, Option.map_some, Option.getD_some]
  · simp only [if_neg continues, Option.map_some, Option.all_some, Option.map_none, Option.getD_none]
    exact filter_own left.artifacts

variable (env policy freshness url layout io)

theorem next_dropped (visit : Visit Url) (log : List (Exchange Url)) :
    (visit.next env freshness url layout io none log).session = none ∧
      (visit.next env freshness url layout io none log).files =
        visit.filesLeft env freshness url layout io := by
  simp [Visit.next, resumable]

variable {env policy freshness url layout io} {visit : Visit Url}

theorem ran_files (owned : Owned visit)
    (ready : visit.prepared env freshness url layout io = .ok prepared) :
    visit.filesLeft env freshness url layout io = artifactPaths prepared.held.artifacts := by
  unfold Visit.filesLeft
  unfold Owned at owned
  rw [owned, ready]
  cases session : visit.session with
  | none => simp
  | some held =>
    rw [prepared_artifacts session ready]
    rfl

theorem refused_files (refused : visit.prepared env freshness url layout io = .error result) :
    visit.filesLeft env freshness url layout io = visit.files := by
  rw [Visit.filesLeft, refused]
  cases visit.session <;> rfl

theorem retries_owned (owned : Owned visit)
    (retried : visit.retries env policy freshness url layout io = some next)
    (reprobed : ¬ ReprobeFails env policy freshness io visit) : Owned next := by
  obtain ⟨error, left, log, kind, delay, ended, transient, decided, rfl⟩ :=
    retries_decided visit retried
  rw [outcome_prepared] at ended
  cases ready : visit.prepared env freshness url layout io with
  | ok prepared =>
    have files := ran_files owned ready
    have outcome := run_end env prepared (io visit.number)
    rw [ready, finish] at ended
    rw [ended] at outcome
    cases outcome with
    | unsynced path source left log short => cases transient
    | unverified source path left log full target refused => cases transient
    | failed error sink status log short target committed unspoiled =>
      exact next_owned visit _ files
  | error result =>
    have files := refused_files ready
    rw [ready] at ended
    cases show result = _ from ended
    cases session : visit.session with
    | none =>
      have none := (start_refused env
        (by simpa only [Visit.prepared, prepare, session] using ready)).1
      have dropped := next_dropped env freshness url layout io visit log
      cases none
      rw [Owned, dropped.1, dropped.2, files, owned, session]
    | some held =>
      rw [owned, session] at files
      rcases resume_refused visit session ready with
        ⟨back, handed, same⟩ | ⟨other, failed, final⟩ | ⟨cause, sent, stale, failed, shape⟩
      · cases handed
        apply next_owned visit log
        rw [files, same]
        rfl
      · cases failed
        rw [final] at transient
        cases transient
      · cases shape
        exact absurd ⟨held, cause, log, kind, delay, session, stale, failed, transient, decided⟩
          reprobed

/-- The session of an attempt is on the disk, whatever has been left beside it. -/
def Kept (visit : Visit Url) : Prop :=
  ∀ held, visit.session = some held → held.artifacts.partPath ∈ visit.files

theorem retries_kept (kept : Kept visit)
    (retried : visit.retries env policy freshness url layout io = some next) :
    Kept next := by
  intro held carried
  rcases next_session retried with
    ⟨dropped, _⟩ | ⟨prepared, sink, status, log, ran, continues, rfl⟩
  · rw [dropped] at carried
    cases carried
  · simp only [Visit.next, if_pos continues, Option.some.injEq] at carried ⊢
    rw [← carried, Visit.filesLeft, ran.ready]
    cases session : visit.session with
    | none => simp [artifactPaths]
    | some before =>
      rw [prepared_artifacts session ran.ready]
      exact kept before session

theorem reprobe_leaves (reprobed : ReprobeFails env policy freshness io visit) :
    ∃ next, visit.retries env policy freshness url layout io = some next ∧
      next.session = none ∧ next.files = visit.files := by
  obtain ⟨held, cause, log, kind, delay, session, stale, failed, transient, decided⟩ := reprobed
  have refused : visit.prepared env freshness url layout io =
      .error (.error (.probe cause), none, log) := by
    have outdated : ¬ (triggers freshness ⟨held.recorded, (io visit.number).now, held.finalUrl, none,
        held.lastObservedStatus⟩).isEmpty = true := by
      simpa [reprobes] using stale
    simp only [Visit.prepared, prepare, session, if_neg outdated, refreshCapabilities, failed]
  have dropped := next_dropped env freshness url layout io visit log
  refine ⟨visit.next env freshness url layout io none log, ?_, dropped.1, ?_⟩
  · simp only [Visit.retries, outcome_prepared, refused, finish, transient, decided]
  · rw [dropped.2]
    exact refused_files refused

variable (env policy freshness url layout io)

/-- An attempt without a session finds no file of an earlier one, exactly if no probe
before a resume fails and is tried again. -/
theorem restart_clean_iff :
    (∀ visit ∈ visits env policy freshness url layout io firstVisit,
      visit.session = none → visit.files = []) ↔
    ∀ visit ∈ visits env policy freshness url layout io firstVisit,
      ¬ ReprobeFails env policy freshness io visit := by
  constructor
  · intro clean visit reached reprobed
    have kept : ∀ visit ∈ visits env policy freshness url layout io firstVisit, Kept visit := by
      apply visits_invariant Kept
      · intro earlier next _ before retried
        exact retries_kept before retried
      · exact fun held carried => nomatch carried
    obtain ⟨next, retried, dropped, files⟩ := reprobe_leaves reprobed
    have later := visits_next reached retried
    obtain ⟨held, _, _, _, _, session, _⟩ := reprobed
    have mem := kept visit reached held session
    rw [← files, clean next later dropped] at mem
    cases mem
  · intro reprobed visit reached none
    have owned : ∀ visit ∈ visits env policy freshness url layout io firstVisit,
        Owned visit := by
      apply visits_invariant Owned
      · intro earlier next inside before retried
        exact retries_owned before retried (reprobed earlier inside)
      · rfl
    have shape := owned visit reached
    rw [Owned, none] at shape
    exact shape

end Engine

/-! A download that is cut after two of four bytes. Its evidence is too old to resume
without a new probe, and the server refuses the connection. -/

def refusingEnvironment : Environment Unit :=
  { Splice.cutEnvironment Splice.oldFile with
    server := fun index request => match index with
      | 0 | 1 => (Splice.cutEnvironment Splice.oldFile).server index request
      | _ => .error (.transport "connection refused") }

def lateIo : AttemptIo := { Splice.cutIo with now := capabilityFreshness + 1 }

theorem refusing_probe :
    probe refusingEnvironment.server refusingEnvironment.join refusingEnvironment.resolve
      (ProbeRequest.new ()) lateIo.probedAt [] =
    (.ok ⟨(), [()], some 4, .proven ⟨4, .bytes 0 0 (some 4), .fromTo 0 0,
        ⟨.fromTo 0 0, 206, some "bytes 0-0/4".toList, none, 1⟩⟩, .strongETag (Splice.tagged 'A'),
        none, .http11, some ['f'], 0⟩, Splice.cutLog.take 1) := by
  rw [probe, probeLoop]
  rfl

theorem refusing_first :
    ∃ second left, firstVisit.retries refusingEnvironment RetryPolicy.default capabilityFreshness ()
        Splice.cutLayout (fun _ => lateIo) = some second ∧
      second.session = some left ∧ second.number = 1 ∧ second.sent = Splice.cutLog.take 2 ∧
      reprobes capabilityFreshness left lateIo = true ∧
      second.files = ["downloads/f.dppart", "state/00000000000000000000000000000000.dpj"] := by
  have ready : ∃ prepared, firstVisit.prepared refusingEnvironment capabilityFreshness ()
      Splice.cutLayout (fun _ => lateIo) = .ok prepared ∧
      artifactPaths prepared.held.artifacts =
        ["downloads/f.dppart", "state/00000000000000000000000000000000.dpj"] := by
    simp only [Visit.prepared, firstVisit, prepare, prepareStart]
    rw [refusing_probe]
    exact ⟨_, rfl, by decide +kernel⟩
  have ended : ∃ left, attempt refusingEnvironment capabilityFreshness () Splice.cutLayout none lateIo
      [] = (.error (.transfer (.truncatedBody () 4 2)), some left, Splice.cutLog.take 2) ∧
      resumable (some left) = true ∧ reprobes capabilityFreshness left lateIo = true := by
    simp only [attempt, start]
    rw [refusing_probe]
    exact ⟨_, rfl, rfl, rfl⟩
  obtain ⟨prepared, made, paths⟩ := ready
  obtain ⟨left, failed, continues, stale⟩ := ended
  refine ⟨firstVisit.next refusingEnvironment capabilityFreshness () Splice.cutLayout (fun _ => lateIo)
    (some left) (Splice.cutLog.take 2), left, ?_, ?_⟩
  · simp only [Visit.retries, Visit.outcome, firstVisit, failed, transientKindOf, retryAfterOf]
    rfl
  · rw [Visit.next, if_pos continues]
    refine ⟨rfl, rfl, rfl, stale, ?_⟩
    simp only [Visit.filesLeft, made]
    exact paths

/-- The third attempt begins without a session and beside the files of the first. -/
theorem refusing_collides :
    ∃ visit ∈ visits refusingEnvironment RetryPolicy.default capabilityFreshness () Splice.cutLayout
        (fun _ => lateIo) firstVisit,
      visit.session = none ∧
        visit.files = ["downloads/f.dppart", "state/00000000000000000000000000000000.dpj"] := by
  obtain ⟨second, left, retried, session, number, sent, stale, files⟩ := refusing_first
  have reached := visits_next (by rw [visits_eq]; exact List.mem_cons_self) retried
  have reprobed : ReprobeFails refusingEnvironment RetryPolicy.default capabilityFreshness
      (fun _ => lateIo) second := by
    refine ⟨left, .transport () "connection refused", Splice.cutLog.take 2 ++
      [⟨true, ⟨(), some (.fromTo 0 0), none, [], 15000000000⟩⟩], .connectionReset,
      RetryPolicy.default.backoff lateIo.clock 1, session, stale, ?_, rfl, ?_⟩
    · rw [sent, probe, probeLoop]
      rfl
    · rw [number]
      rfl
  obtain ⟨third, again, dropped, left⟩ := reprobe_leaves reprobed
  exact ⟨third, visits_next reached again, dropped, left.trans files⟩

end Downpour.Leftovers
