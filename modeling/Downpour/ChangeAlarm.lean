import Downpour.SessionInvariant

/-!
Whether a download reports a change that has not happened. The server has one
representation under one strong validator and describes it correctly in every 200 and
206; everything else it may answer at will, and it may cut any body. A conditional
request that is not answered with a part is taken for a change, whatever the answer was.
-/

namespace Downpour.ChangeAlarm
open Text Ranges Remote Http H1H2 Probing Retry Sink SinkBytes SingleStream Attempts SessionTrace
open SessionInvariant Splice

/-- A 200 or a 206 describes the representation, and its body is a leading part of what
it describes. Whether ranges are supported is left open. -/
structure Steady {Url : Type} (representation : Representation) (request : RangeRequest Url)
    (response : Response) : Prop where
  tagged : response.status = 200 ∨ response.status = 206 →
    response.etag = some representation.etag
  whole : response.status = 200 → response.chunks.flatten <+: representation.bytes ∧
    ∀ header, response.contentLength = some header →
      parseUnsigned 64 header = some representation.bytes.length
  part : response.status = 206 → ∃ range first last, request.range = some range ∧
    response.contentRange.map ContentRange.fromStr =
      some (.ok (.bytes first last (some representation.bytes.length))) ∧
    (ContentRange.bytes first last (some representation.bytes.length)).isConsistentWith range =
      .ok () ∧
    response.chunks.flatten <+: (representation.bytes.drop first).take (last + 1 - first)

section Runs
variable {Url : Type}

def Answered (server : Server Url) (log : List (Exchange Url))
    (accepts : RangeRequest Url → Response → Prop) : Prop :=
  ∀ index exchange response, log[index]? = some exchange →
    server index exchange.request = .ok response → accepts exchange.request response

variable {server : Server Url} {representation : Representation} {request : RangeRequest Url}

theorem answered_earlier (earlier : log <+: final)
    (answered : Answered server final accepts) : Answered server log accepts := by
  intro index exchange response found
  apply answered index exchange response
  rw [found_later earlier index (List.getElem?_eq_some_iff.mp found).1, found]

def Continues (request : RangeRequest Url) (response : Response) : Prop :=
  request.ifRange ≠ none → response.status = 206

/-! What a probe of a steady server shows. -/

theorem length_of_whole (steady : Steady representation request response)
    (status : response.status = 200) :
    contentLengthOf response = none ∨
      contentLengthOf response = some representation.bytes.length := by
  unfold contentLengthOf
  cases stated : response.contentLength with
  | none => exact Or.inl rfl
  | some header => exact Or.inr ((steady.whole status).2 header stated)

theorem steady_conclusion {resolve : Option (List Char) → Url → List Char} {current : Url}
    {chain : List Url} {withRange : Bool} {now : Nat} {response : Response}
    {remote : RemoteObject Url} (steady : Steady representation request response)
    (asked : request.range = if withRange then some probeRange else none)
    (status : response.status = 200 ∨ response.status = 206)
    (concluded : probeConclusion resolve current chain withRange now response = .ok remote) :
    remote.validator = .strongETag representation.etag ∧
      (remote.totalLength = none ∨ remote.totalLength = some representation.bytes.length) := by
  have validator := probe_conclusion_validator
    concluded
  rw [steady.tagged status, strong_headers] at validator
  refine ⟨validator, ?_⟩
  unfold probeConclusion at concluded
  simp only at concluded
  split at concluded
  · cases concluded
  · split at concluded
    · cases concluded
    · cases concluded
    · cases withRange with
      | true =>
        simp only [↓reduceIte] at concluded
        split at concluded
        next proof proven =>
          cases concluded
          obtain ⟨partial206, header, observed, found, parsed, _, complete⟩ :=
            proof_observed proven
          obtain ⟨range, first, last, _, described, _⟩ := steady.part partial206
          rw [found, Option.map_some, parsed] at described
          cases described
          exact Or.inr complete.symm
        next => cases concluded
        next =>
          cases concluded
          by_cases whole : response.status = 200
          · simpa [whole] using length_of_whole steady whole
          · simp [whole]
      | false =>
        simp only [Bool.false_eq_true, ↓reduceIte] at concluded asked
        have whole : response.status = 200 := by
          by_contra other
          obtain ⟨range, _, _, ranged, _⟩ := steady.part (status.resolve_left other)
          rw [asked] at ranged
          cases ranged
        split at concluded
        · cases concluded
        · cases concluded
          exact length_of_whole steady whole

theorem steady_probe {join : Url → List Char → Option Url}
    {resolve : Option (List Char) → Url → List Char} {request : ProbeRequest Url} {now : Nat}
    {sent log : List (Exchange Url)} {remote : RemoteObject Url}
    (probed : probe server join resolve request now sent = (.ok remote, log))
    (steady : Answered server log (Steady representation)) :
    remote.validator = .strongETag representation.etag ∧
      (remote.totalLength = none ∨ remote.totalLength = some representation.bytes.length) := by
  have learned := (probe_concluded server join resolve request now sent).learned
  rw [probed] at learned
  obtain ⟨before, exchange, response, current, chain, withRange, ends, answered, asked, status,
    concluded⟩ := learned remote rfl
  simp only at ends
  have here : log[before.length]? = some exchange := by simp [ends]
  exact steady_conclusion (steady before.length exchange response here answered) asked status concluded

/-! Where the alarm comes from. -/

theorem body_alarm (outside : Outside) (url : Url) (declaredType : Option (List Char))
    (promised : Option Nat) (ending : BodyEnd) (io : Nat → WriteIo) (chunks : List (List UInt8))
    (index delivered : Nat) (sink : RangeSink StorageSink) (place : Url) (offset status : Nat)
    (validator : List Char) :
    (readBody (writeAt outside) url declaredType promised ending io index delivered sink chunks).1 ≠
      .error (.validatorMismatch place offset status validator) := by
  induction chunks generalizing index delivered sink with
  | nil =>
    unfold readBody
    split
    · simp
    · simp
    · split <;> simp
  | cons chunk rest ih =>
    unfold readBody
    by_cases empty : chunk = []
    · rw [if_pos empty]
      exact ih index delivered sink
    rw [if_neg empty]
    by_cases page : delivered = 0 ∧ bodyLooksLikeAWebPage declaredType chunk = true
    · simp [if_pos page]
    rw [if_neg page]
    split
    · simp
    · simp
    next after _ => exact ih (index + 1) _ after

theorem fetch_alarm (alarm : (fetchRange (writeAt outside) server request sink io sent).1 =
      .error (.validatorMismatch place offset status validator)) :
    ∃ response, server sent.length request = .ok response ∧ ¬ Continues request response := by
  unfold fetchRange at alarm
  cases answered : server sent.length request with
  | error error => cases error <;> simp [answered] at alarm
  | ok response =>
    refine ⟨response, rfl, fun continues => ?_⟩
    simp only [answered] at alarm
    cases checked : checkResponse request response with
    | ok range =>
      simp only [checked] at alarm
      have body := body_alarm outside request.url response.contentType
        (promisedLength response range) response.ending io response.chunks 0 0 sink place offset
        status validator
      generalize readBody (writeAt outside) request.url response.contentType
        (promisedLength response range) response.ending io 0 0 sink response.chunks = result
        at alarm body
      rcases result with ⟨error | delivered, after⟩
      · exact body (congrArg Except.error (Except.error.inj alarm))
      · cases alarm
    | error error =>
      simp only [checked, Except.error.injEq] at alarm
      subst alarm
      unfold checkResponse at checked
      cases conditional : request.ifRange.filter fun _ => decide (response.status ≠ 206) with
      | some found =>
        obtain ⟨given, other⟩ := Option.filter_eq_some_iff.mp conditional
        exact of_decide_eq_true other (continues (by rw [given]; exact Option.some_ne_none _))
      | none =>
        simp only [conditional] at checked
        repeat' split at checked
        all_goals cases checked

variable (env : Environment Url)

theorem run_alarm (prepared : Prepared Url)
    (failed : (run env prepared.held prepared.request io prepared.log).1 =
      .error (.transfer error)) :
    (fetchRange (writeAt env.outside) env.server prepared.request prepared.held.sink
      io.writes prepared.log).1 = .error error := by
  unfold run at failed
  generalize fetchRange (writeAt env.outside) env.server prepared.request
    prepared.held.sink io.writes prepared.log = fetched at failed ⊢
  obtain ⟨result, sink, log⟩ := fetched
  simp only at failed
  split at failed
  · cases failed
  · split at failed
    · cases failed
      rfl
    · split at failed
      · cases failed
      · split at failed
        · cases failed
        · cases failed

def Faithful (representation : Representation) (held : Session Url) : Prop :=
  held.validator = .strongETag representation.etag ∧
    (held.totalLength = none ∨ held.totalLength = some representation.bytes.length)

variable [DecidableEq Url] (policy : RetryPolicy) (freshness : Nat) (url : Url)
variable (layout : StorageLayout) (io : Nat → AttemptIo)

/-- What the preparation of an attempt of a steady server comes to: no alarm, and a
session of the representation. -/
def Prepares (representation : Representation) :
    Except (Attempted Url) (Prepared Url) → Prop
  | .error result => ∀ place offset status validator,
      result.1 ≠ .error (.transfer (.validatorMismatch place offset status validator))
  | .ok prepared => Faithful representation prepared.held

omit [DecidableEq Url] in
theorem resume_faithful (log : List (Exchange Url)) (faithful : Faithful representation held) :
    Prepares representation (prepareResume held log) := by
  unfold prepareResume
  cases held.validator.ifRangeValue with
  | none => exact nofun
  | some validator => exact faithful

variable {representation : Representation} {visit : Visit Url}

omit [DecidableEq Url] in
theorem refresh_faithful (attemptIo : AttemptIo) (sent : List (Exchange Url))
    (faithful : Faithful representation held) (known : held.totalLength ≠ none)
    (steady : Answered env.server
      (refreshCapabilities env held attemptIo sent).2 (Steady representation)) :
    match (refreshCapabilities env held attemptIo sent).1 with
    | .error error => ∀ place offset status validator,
        error ≠ .transfer (.validatorMismatch place offset status validator)
    | .ok fresh => Faithful representation fresh := by
  unfold refreshCapabilities at steady ⊢
  rcases probed : probe env.server env.join env.resolve
    (ProbeRequest.new held.finalUrl) attemptIo.probedAt sent with ⟨error | fresh, log⟩
  · exact nofun
  · simp only [probed] at steady ⊢
    by_cases changed : fresh.validator ≠ held.validator ∨
        (fresh.totalLength.isSome = true ∧ fresh.totalLength ≠ held.totalLength)
    · simp only [if_pos changed] at steady
      obtain ⟨validator, length⟩ := steady_probe probed steady
      have total := faithful.2.resolve_left known
      rcases changed with differs | ⟨stated, differs⟩
      · exact absurd (validator.trans faithful.1.symm) differs
      · rcases length with unknown | same
        · simp [unknown] at stated
        · exact absurd (same.trans total.symm) differs
    · simp only [if_neg changed]
      exact faithful

variable {env policy freshness url layout io}

theorem prepared_faithful (resting : Resting env visit)
    (carried : ∀ held, visit.session = some held → Faithful representation held)
    (steady : Answered env.server (visit.outcome env freshness url layout io).2.2
      (Steady representation)) :
    Prepares representation (visit.prepared env freshness url layout io) := by
  rw [outcome_prepared] at steady
  unfold Visit.prepared prepare at steady ⊢
  unfold Resting at resting
  cases session : visit.session with
  | none =>
    simp only [session] at steady ⊢
    cases ready : prepareStart env url layout (io visit.number) visit.sent with
    | error result =>
      have other := (start_refused env ready).2.2
      exact fun place offset status validator => other _
    | ok prepared =>
      obtain ⟨probed, total, _⟩ := start_probed env ready
      have founded := (start_founded env ready).1
      rw [ready, finish, run_logged] at steady
      obtain ⟨validator, length⟩ := steady_probe probed
        (answered_earlier (List.prefix_append _ _) steady)
      exact ⟨founded.validator.trans validator, by rw [total]; exact length⟩
  | some held =>
    simp only [session] at steady resting ⊢
    obtain ⟨born, done, _, traced, known⟩ := resting
    have faithful := carried held session
    by_cases current : (triggers freshness ⟨held.recorded, (io visit.number).now, held.finalUrl,
        none, held.lastObservedStatus⟩).isEmpty = true
    · simp only [if_pos current]
      exact resume_faithful _ faithful
    · simp only [if_neg current] at steady ⊢
      have refresh := refresh_faithful env (io visit.number) visit.sent
        faithful (by rw [traced.total]; exact known)
      generalize refreshCapabilities env held (io visit.number) visit.sent = refreshed
        at steady refresh ⊢
      rcases refreshed with ⟨error | fresh, log⟩
      · exact fun place offset status validator same =>
          refresh steady place offset status validator (Except.error.inj same)
      · refine resume_faithful log (refresh ?_)
        rw [← resume_from_prepared] at steady
        exact answered_earlier (resume_from_logged env fresh _ log) steady

theorem retries_faithful (resting : Resting env visit)
    (carried : ∀ held, visit.session = some held → Faithful representation held)
    (steady : Answered env.server (visit.outcome env freshness url layout io).2.2
      (Steady representation))
    (retried : visit.retries env policy freshness url layout io = some next) :
    ∀ held, next.session = some held → Faithful representation held := by
  have prepares := prepared_faithful resting carried steady
  rcases next_session retried with
    ⟨dropped, _⟩ | ⟨prepared, sink, status, log, ran, continues, rfl⟩
  · intro held impossible
    rw [dropped] at impossible
    cases impossible
  rw [ran.ready] at prepares
  simp only [Visit.next, if_pos continues]
  rintro _ ⟨⟩
  exact prepares

theorem outcome_quiet (resting : Resting env visit)
    (carried : ∀ held, visit.session = some held → Faithful representation held)
    (steady : Answered env.server (visit.outcome env freshness url layout io).2.2
      (Steady representation)) (continued : Answered env.server
      (visit.outcome env freshness url layout io).2.2 Continues) (place : Url)
    (offset status : Nat) (validator : List Char) :
    (visit.outcome env freshness url layout io).1 ≠
      .error (.transfer (.validatorMismatch place offset status validator)) := by
  have prepares := prepared_faithful resting carried steady
  rw [outcome_prepared] at continued ⊢
  cases ready : visit.prepared env freshness url layout io with
  | error result =>
    rw [ready] at prepares
    exact prepares place offset status validator
  | ok prepared =>
    rw [ready, finish, run_logged] at continued
    intro alarm
    obtain ⟨response, answered, other⟩ := fetch_alarm (run_alarm env prepared alarm)
    exact other (continued prepared.log.length ⟨false, prepared.request⟩ response (by simp) answered)

theorem outcome_logged (visit : Visit Url) :
    (visit.outcome env freshness url layout io).2.2 <+:
      (downloadLoop env policy freshness url layout io visit.number visit.session
        visit.sent).2 := by
  rw [loop_turn]
  cases retried : visit.retries env policy freshness url layout io with
  | none => exact List.prefix_rfl
  | some next =>
    obtain ⟨_, error, left, log, ended, _, rfl⟩ := retries_cases visit next retried
    rw [ended]
    have longer := loop_extends env policy freshness url layout io
      (visit.next env freshness url layout io left log).number
      (visit.next env freshness url layout io left log).session
      (visit.next env freshness url layout io left log).sent
    simp only
    rw [next_sent] at longer ⊢
    exact longer

theorem visits_logged :
    ∀ visit ∈ visits env policy freshness url layout io firstVisit,
      (visit.outcome env freshness url layout io).2.2 <+:
        (download env policy freshness url layout io).2 := by
  intro visit mem
  have ends := visits_end visit mem
  rw [download, ← show _ = downloadLoop env policy freshness url layout io 0 none []
    from ends]
  exact outcome_logged visit

end Runs

/-- In every download from a steady server whose conditional requests are all answered
with a part, no change is reported. -/
theorem no_false_alarm {Url : Type} [DecidableEq Url] (env : Environment Url)
    (policy : RetryPolicy) (freshness : Nat) (url : Url) (layout : StorageLayout)
    (io : Nat → AttemptIo) (representation : Representation)
    (steady : Answered env.server (download env policy freshness url layout io).2
      (Steady representation))
    (continued : Answered env.server
      (download env policy freshness url layout io).2 Continues)
    (place : Url) (offset status : Nat) (validator : List Char) :
    (download env policy freshness url layout io).1 ≠
      .error (.transfer (.validatorMismatch place offset status validator)) := by
  have faithful : ∀ visit ∈ visits env policy freshness url layout io firstVisit,
      ∀ held, visit.session = some held → Faithful representation held := by
    apply visits_invariant (fun visit =>
      ∀ held, visit.session = some held → Faithful representation held)
    · intro visit next mem carried retried
      exact retries_faithful (visits_resting visit mem).1 carried
        (answered_earlier (visits_logged visit mem) steady) retried
    · intro held impossible
      cases impossible
  obtain ⟨_, last, _, reached, _, returned⟩ := download_last env policy freshness url layout io
  rw [returned]
  exact outcome_quiet (visits_resting last reached).1
    (faithful last reached) (answered_earlier (visits_logged last reached) steady)
    (answered_earlier (visits_logged last reached) continued) place offset status validator

/-! A download that is cut after two of four bytes. -/

theorem cut_steadily : Answered (cutEnvironment oldFile).server cutLog (Steady oldFile) := by
  intro index exchange response found answered
  have honest := cut_honest (Or.inl rfl) index exchange response found answered
  have same : cutSchedule oldFile index = oldFile := by simp [cutSchedule]
  rw [same] at honest
  exact ⟨honest.tagged, honest.whole, honest.part⟩

theorem cut_continued : Answered (cutEnvironment oldFile).server cutLog Continues := by
  intro index exchange response found answered
  match index with
  | 0 =>
    cases found
    exact fun conditional => absurd rfl conditional
  | 1 =>
    cases found
    exact fun conditional => absurd rfl conditional
  | 2 =>
    cases found
    cases answered
    exact fun _ => rfl
  | rest + 3 => cases found

/-- The server continues the file, and no change is reported. -/
theorem cut_quiet : ¬ ∃ place offset status validator,
    (download (cutEnvironment oldFile) RetryPolicy.default capabilityFreshness () cutLayout
      fun _ => cutIo).1 = .error (.transfer (.validatorMismatch place offset status validator)) := by
  rintro ⟨place, offset, status, validator, alarm⟩
  have log : (download (cutEnvironment oldFile) RetryPolicy.default capabilityFreshness () cutLayout
      fun _ => cutIo).2 = cutLog := congrArg Prod.snd (cut_returns (Or.inl rfl))
  refine no_false_alarm (cutEnvironment oldFile) RetryPolicy.default capabilityFreshness () cutLayout
    (fun _ => cutIo) oldFile ?_ ?_ place offset status validator alarm
  · rw [log]
    exact cut_steadily
  · rw [log]
    exact cut_continued

def busyEnvironment : Environment Unit :=
  { cutEnvironment oldFile with
    server := fun index request => match index with
      | 2 => .ok (plainResponse 503 oldFile)
      | _ => (cutEnvironment oldFile).server index request }

theorem busy_probe :
    probe busyEnvironment.server busyEnvironment.join busyEnvironment.resolve (ProbeRequest.new ())
      cutIo.probedAt [] =
    (.ok ⟨(), [()], some 4, .proven ⟨4, .bytes 0 0 (some 4), .fromTo 0 0,
        ⟨.fromTo 0 0, 206, some "bytes 0-0/4".toList, none, 1⟩⟩, .strongETag (tagged 'A'), none,
        .http11, some ['f'], 0⟩, cutLog.take 1) := by
  rw [probe, probeLoop]
  rfl

theorem busy_attempts :
    ∃ left, attempt busyEnvironment capabilityFreshness () cutLayout none cutIo [] =
        (.error (.transfer (.truncatedBody () 4 2)), some left, cutLog.take 2) ∧
      resumable (some left) = true ∧
      (attempt busyEnvironment capabilityFreshness () cutLayout (some left) cutIo (cutLog.take 2)).1 =
        .error (.transfer (.validatorMismatch () 2 503 (tagged 'A'))) ∧
      (attempt busyEnvironment capabilityFreshness () cutLayout (some left) cutIo
        (cutLog.take 2)).2.2 = cutLog := by
  simp only [attempt, start]
  rw [busy_probe]
  exact ⟨_, rfl, rfl, rfl, rfl⟩

theorem busy_steadily : Answered busyEnvironment.server cutLog (Steady oldFile) := by
  intro index exchange response found answered
  match index with
  | 0 => exact cut_steadily 0 exchange response found answered
  | 1 => exact cut_steadily 1 exchange response found answered
  | 2 =>
    cases answered
    refine ⟨?_, ?_, ?_⟩
    · rintro (impossible | impossible)
      · exact absurd (show 503 = 200 from impossible) (by decide)
      · exact absurd (show 503 = 206 from impossible) (by decide)
    · exact fun impossible => absurd (show 503 = 200 from impossible) (by decide)
    · exact fun impossible => absurd (show 503 = 206 from impossible) (by decide)
  | rest + 3 => cases found

/-- One answer with 503 to the resume ends the download as a change of the file. -/
theorem busy_alarmed :
    download busyEnvironment RetryPolicy.default capabilityFreshness () cutLayout (fun _ => cutIo) =
        (.error (.transfer (.validatorMismatch () 2 503 (tagged 'A'))), cutLog) ∧
      Answered busyEnvironment.server cutLog (Steady oldFile) := by
  refine ⟨?_, busy_steadily⟩
  obtain ⟨left, first, continues, alarm, log⟩ := busy_attempts
  rw [download, downloadLoop, first]
  simp only [transientKindOf, retryAfterOf]
  split
  next giveUp => cases giveUp
  next =>
    rw [if_pos continues, downloadLoop]
    generalize attempt busyEnvironment capabilityFreshness () cutLayout (some left) cutIo
      (cutLog.take 2) = second at alarm log
    obtain ⟨result, session, sent⟩ := second
    subst alarm log
    rfl

end Downpour.ChangeAlarm
