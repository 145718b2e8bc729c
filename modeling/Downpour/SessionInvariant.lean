import Downpour.SessionTrace

/-!
The invariant of a single-stream session over all attempts of one download. A session is
traced back to its creation: its sink is the created one after a sequence of calls, its
validator is that of its first probe.
-/

namespace Downpour.SessionInvariant
open Segments Intervals Writer Remote Ranges Http H1H2 Probing Retry Completion Naming Sink SinkBytes
open SingleStream Attempts SessionTrace

section Engine
variable {Url : Type} (env : Environment Url)

/-! The beginning of an attempt. -/

structure Founded (held : Session Url) : Prop where
  window : held.sink.baseOffset + held.sink.written = 0
  validator : held.validator = held.recorded.validator
  known : ∀ total, held.totalLength = some total →
    StripedSink held.sink.target total 0 0 ∧ total < 2 ^ 63
  unknown : held.totalLength = none → journalled held.sink.target = false

variable {prepared : Prepared Url}

theorem start_founded (ready : prepareStart env url layout io sent = .ok prepared) :
    Founded prepared.held ∧ prepared.request = RangeRequest.whole prepared.held.finalUrl := by
  unfold prepareStart at ready
  split at ready
  · cases ready
  next remote log probed =>
    simp only at ready
    split at ready
    · cases ready
    next source _ =>
      split at ready
      · cases ready
      · split at ready
        · cases ready
        next target created =>
          cases ready
          refine ⟨⟨rfl, rfl, ?_, ?_⟩, rfl⟩
          · intro total known
            simp only at known
            rw [known] at created
            exact create_striped env.outside created
          · intro unknown
            simp only at unknown
            have kept := (create_keeps created).1
            rw [unknown] at kept
            exact kept

theorem start_probed (ready : prepareStart env url layout io sent = .ok prepared) :
    probe env.server env.join env.resolve (ProbeRequest.new url) io.probedAt
        sent = (.ok prepared.held.recorded, prepared.log) ∧
      prepared.held.totalLength = prepared.held.recorded.totalLength ∧
      prepared.held.sink.target.digest = prepared.held.recorded.digest := by
  unfold prepareStart at ready
  split at ready
  · cases ready
  next remote log probed =>
    simp only at ready
    split at ready
    · cases ready
    · split at ready
      · cases ready
      · split at ready
        · cases ready
        next target created =>
          cases ready
          exact ⟨probed, rfl, (create_keeps created).2.1⟩

theorem start_refused (refused : prepareStart env url layout io sent = .error result) :
    result.2.1 = none ∧ result.1.isOk = false ∧ ∀ error, result.1 ≠ .error (.transfer error) := by
  unfold prepareStart at refused
  split at refused
  · cases refused
    exact ⟨rfl, rfl, nofun⟩
  · simp only at refused
    split at refused
    · cases refused
      exact ⟨rfl, rfl, nofun⟩
    · split at refused
      · cases refused
        exact ⟨rfl, rfl, nofun⟩
      · split at refused
        · cases refused
          exact ⟨rfl, rfl, nofun⟩
        · cases refused

theorem resume_prepared (ready : prepareResume held log = .ok prepared) :
    ∃ validator, held.validator.ifRangeValue = some validator ∧ prepared = ⟨{ held with
          sink := held.sink.rebase held.durablePrefixEnd
            (held.totalLength.map fun total => total - held.durablePrefixEnd) },
        RangeRequest.resume held.finalUrl (.from held.durablePrefixEnd) validator, log⟩ := by
  unfold prepareResume at ready
  cases usable : held.validator.ifRangeValue with
  | none => simp [usable] at ready
  | some validator =>
    simp only [usable, Except.ok.injEq] at ready
    exact ⟨validator, rfl, ready.symm⟩

theorem run_striped (striped : StripedSink prepared.held.sink.target total done done)
    (window : prepared.held.sink.baseOffset + prepared.held.sink.written = done)
    (committed : (Sink.sync env.outside attemptIo.sync (calls env.outside
      prepared.held.sink.target (fetchCalls env.outside env.server
        prepared.request prepared.held.sink attemptIo.writes prepared.log))).1 = .ok ())
    (unspoiled : ¬ ∃ spoiling, (fetchRange (writeAt env.outside) env.server
      prepared.request prepared.held.sink attemptIo.writes prepared.log).1 = .error spoiling ∧
        Splice.Spoils spoiling) :
    ∃ reached, Sequential env.outside prepared.held.sink.target done
        (runCalls env prepared attemptIo) (some reached) ∧
      StripedSink (written env prepared attemptIo) total reached reached ∧
      reached = (fetchRange (writeAt env.outside) env.server prepared.request
          prepared.held.sink attemptIo.writes prepared.log).2.1.baseOffset +
        (fetchRange (writeAt env.outside) env.server prepared.request
          prepared.held.sink attemptIo.writes prepared.log).2.1.written := by
  subst window
  obtain ⟨stop, sequential, ends⟩ := fetch_sequential env.outside env.server
    prepared.request attemptIo.writes prepared.log striped
  have stops := ends.resolve_left unspoiled
  subst stops
  obtain ⟨later, after⟩ := (sequential_striped env.outside sequential
    striped).2 _ rfl
  obtain ⟨now, final, moved⟩ := sync_striped env.outside attemptIo.sync after
  refine ⟨_, sequential_sync env.outside attemptIo.sync sequential, ?_, rfl⟩
  rw [moved committed] at final
  rw [written, runCalls, calls_append]
  exact final

theorem unjournalled_prefix (kind : journalled sink = false) :
    sink.durablePrefixEnd = 0 := by
  unfold journalled at kind
  unfold StorageSink.durablePrefixEnd
  cases backing : sink.backing with
  | journalled part intervals writer =>
    simp only [backing] at kind
    cases kind
  | lengthless part => rfl

structure Traced (born : Session Url) (past : List SinkCall) (held : Session Url) (done : Nat) :
    Prop where
  founded : Founded born
  target : held.sink.target = calls env.outside born.sink.target past
  validator : held.validator = born.recorded.validator
  total : held.totalLength = born.totalLength
  sequential : ∀ total, born.totalLength = some total →
    Sequential env.outside born.sink.target 0 past (some done) ∧
      StripedSink held.sink.target total done done

def Resting (visit : Visit Url) : Prop :=
  match visit.session with
  | none => visit.born = none ∧ visit.past = []
  | some held => ∃ born done, visit.born = some born ∧
      Traced env born visit.past held done ∧ born.totalLength ≠ none

theorem first_resting : Resting env (firstVisit : Visit Url) := ⟨rfl, rfl⟩

structure Begun (visit : Visit Url) (prepared : Prepared Url) (born : Session Url) (done : Nat) :
    Prop where
  origin : visit.born.getD prepared.held = born
  traced : Traced env born visit.past prepared.held done
  window : prepared.held.sink.baseOffset + prepared.held.sink.written = done
  whole : visit.session = none →
    done = 0 ∧ prepared.request = RangeRequest.whole prepared.held.finalUrl
  resumes : visit.session ≠ none → ∃ validator,
    born.recorded.validator.ifRangeValue = some validator ∧
      prepared.request = RangeRequest.resume prepared.held.finalUrl (.from done) validator

variable [DecidableEq Url] (policy : RetryPolicy) (freshness : Nat) (url : Url)
variable (layout : StorageLayout) (io : Nat → AttemptIo)

variable {visit next : Visit Url}

variable {env policy freshness url layout io}

theorem prepared_begun (resting : Resting env visit)
    (ready : visit.prepared env freshness url layout io = .ok prepared) :
    ∃ born done, Begun env visit prepared born done := by
  unfold Visit.prepared prepare at ready
  unfold Resting at resting
  cases session : visit.session with
  | none =>
    simp only [session] at ready resting
    obtain ⟨unborn, empty⟩ := resting
    obtain ⟨founded, whole⟩ := start_founded env ready
    refine ⟨prepared.held, 0, by simp [unborn], ⟨founded, by rw [empty]; rfl, founded.validator, rfl,
      ?_⟩, founded.window, fun _ => ⟨rfl, whole⟩, fun carried => absurd session carried⟩
    intro total known
    rw [empty]
    exact ⟨.done _ _, (founded.known total known).1⟩
  | some held =>
    simp only [session] at ready resting
    obtain ⟨born, done, origin, traced, known⟩ := resting
    obtain ⟨total, length⟩ := Option.ne_none_iff_exists'.mp known
    have resumed : ∀ fresh log, fresh.sink = held.sink → fresh.validator = held.validator →
        fresh.totalLength = held.totalLength → prepareResume fresh log = .ok prepared →
        ∃ born done, Begun env visit prepared born done := by
      intro fresh log sink validator kept continued
      obtain ⟨value, usable, rfl⟩ := resume_prepared continued
      have ends : fresh.durablePrefixEnd = done := by
        rw [Session.durablePrefixEnd, sink]
        exact prefix_end_done (traced.sequential total length).2
      refine ⟨born, done, by rw [origin]; rfl, ⟨traced.founded, ?_, validator.trans traced.validator,
        kept.trans traced.total, ?_⟩, ?_, fun started => ?_, fun _ => ⟨value, ?_, ?_⟩⟩
      · rw [← traced.target, ← sink]
        rfl
      · intro total known
        refine ⟨(traced.sequential total known).1, ?_⟩
        have shape := (traced.sequential total known).2
        rw [← sink] at shape
        exact shape
      · exact ends
      · rw [session] at started
        cases started
      · rw [← traced.validator, ← validator]
        exact usable
      · rw [ends]
    split at ready
    · exact resumed held _ rfl rfl rfl ready
    · rcases refreshed : refreshCapabilities env held (io visit.number) visit.sent with
        ⟨error | fresh, log⟩
      · rw [refreshed] at ready
        cases ready
      · rw [refreshed] at ready
        obtain ⟨sink, validator, kept⟩ := Splice.refresh_keeps env held fresh _ _ _ refreshed
        exact resumed fresh log sink validator kept ready

theorem unprepared_left (refused : visit.prepared env freshness url layout io = .error result) :
    resumable result.2.1 = false ∧ result.1.isOk = false := by
  have resumed : ∀ (held : Session Url) log, prepareResume held log = .error result →
      resumable result.2.1 = false ∧ result.1.isOk = false := by
    intro held log stopped
    unfold prepareResume at stopped
    cases usable : held.validator.ifRangeValue with
    | none =>
      simp only [usable, Except.error.injEq] at stopped
      subst stopped
      exact ⟨by simp [resumable, usable], rfl⟩
    | some validator => simp [usable] at stopped
  unfold Visit.prepared prepare at refused
  split at refused
  · obtain ⟨none, failed, _⟩ := start_refused env refused
    exact ⟨by rw [none]; rfl, failed⟩
  · simp only at refused
    split at refused
    · exact resumed _ _ refused
    · split at refused
      · cases refused
        exact ⟨rfl, rfl⟩
      · exact resumed _ _ refused

variable (env policy freshness url layout io)

/-- The attempt has written its sink and committed it; no write was refused. -/
structure Ran (visit : Visit Url) (prepared : Prepared Url) (sink : RangeSink StorageSink) : Prop where
  ready : visit.prepared env freshness url layout io = .ok prepared
  target : sink.target = written env prepared (io visit.number)
  committed : (Sink.sync env.outside (io visit.number).sync (calls env.outside
    prepared.held.sink.target (fetchCalls env.outside env.server
      prepared.request prepared.held.sink (io visit.number).writes prepared.log))).1 = .ok ()
  unspoiled : ¬ ∃ spoiling, (fetchRange (writeAt env.outside) env.server
    prepared.request prepared.held.sink (io visit.number).writes prepared.log).1 =
      .error spoiling ∧ Splice.Spoils spoiling

inductive RetryEnd (visit : Visit Url) : Option (Session Url) → Prop where
  | unprepared (result : Attempted Url)
      (refused : visit.prepared env freshness url layout io = .error result) :
      RetryEnd visit result.2.1
  | ran (prepared : Prepared Url) (sink : RangeSink StorageSink) (status : Option Nat)
      (ran : Ran env freshness url layout io visit prepared sink) :
      RetryEnd visit (some { prepared.held with sink, lastObservedStatus := status })

variable {env policy freshness url layout io}

theorem outcome_prepared (visit : Visit Url) :
    visit.outcome env freshness url layout io =
      finish env (io visit.number) (visit.prepared env freshness url layout io) :=
  attempt_prepared env freshness url layout visit.session (io visit.number) visit.sent

theorem retries_end (retried : visit.retries env policy freshness url layout io = some next) :
    ∃ left log, next = visit.next env freshness url layout io left log ∧
      RetryEnd env freshness url layout io visit left := by
  -- Errors of the commit and of the naming end the download; so do refused writes.
  obtain ⟨_, error, left, log, ended, transient, rfl⟩ := retries_cases visit next retried
  refine ⟨left, log, rfl, ?_⟩
  rw [outcome_prepared] at ended
  cases ready : visit.prepared env freshness url layout io with
  | error result =>
    rw [ready] at ended
    have left := @RetryEnd.unprepared Url env _ freshness url layout io visit result ready
    rw [show result = _ from ended] at left
    exact left
  | ok prepared =>
    have outcome := run_end env prepared (io visit.number)
    rw [ready, finish] at ended
    rw [ended] at outcome
    cases outcome with
    | unsynced path source left log short => exact absurd rfl transient
    | unverified source path left log full target refused => exact absurd rfl transient
    | failed error sink status log short target committed unspoiled =>
      exact .ran prepared sink status ⟨ready, target, committed, unspoiled transient⟩

theorem next_session (retried : visit.retries env policy freshness url layout io = some next) :
    next.session = none ∧ next.born = none ∧ next.past = [] ∨
      ∃ prepared sink status log, Ran env freshness url layout io visit prepared sink ∧
        resumable (some { prepared.held with sink, lastObservedStatus := status }) = true ∧
        next = visit.next env freshness url layout io
          (some { prepared.held with sink, lastObservedStatus := status }) log := by
  obtain ⟨left, log, rfl, ended⟩ := retries_end retried
  by_cases continues : resumable left = true
  · cases ended with
    | unprepared result refused =>
      have dropped := (unprepared_left refused).1
      rw [continues] at dropped
      cases dropped
    | ran prepared sink status ran =>
      exact Or.inr ⟨prepared, sink, status, log, ran, continues, rfl⟩
  · refine Or.inl ?_
    simp only [Visit.next, if_neg continues, and_self]

theorem retries_resting (resting : Resting env visit)
    (retried : visit.retries env policy freshness url layout io = some next) :
    Resting env next := by
  rcases next_session retried with
    ⟨dropped, unborn, empty⟩ | ⟨prepared, sink, status, log, ran, continues, rfl⟩
  · rw [Resting, dropped]
    exact ⟨unborn, empty⟩
  simp only [Resting, Visit.next, if_pos continues]
  obtain ⟨born, done, begun⟩ := prepared_begun resting ran.ready
  have length : born.totalLength ≠ none := by
    intro unknown
    -- A sink of unknown length reports no durable prefix.
    have none : sink.target.durablePrefixEnd = 0 := by
      apply unjournalled_prefix
      rw [ran.target, written, (calls_keep env.outside _ _).1, begun.traced.target,
        (calls_keep env.outside _ _).1]
      exact begun.traced.founded.unknown unknown
    simp [resumable, Session.durablePrefixEnd, none] at continues
  obtain ⟨total, known⟩ := Option.ne_none_iff_exists'.mp length
  obtain ⟨reached, sequential, striped, _⟩ := run_striped env
    (begun.traced.sequential total known).2 begun.window ran.committed ran.unspoiled
  refine ⟨born, reached, ?_, ⟨begun.traced.founded, ?_, begun.traced.validator,
    begun.traced.total, ?_⟩, length⟩
  · have origin := begun.origin
    have ready := ran.ready
    cases earlier : visit.born <;> simp_all [Except.toOption]
  · rw [calls_append, ← begun.traced.target, Visit.calls, ran.ready]
    exact ran.target
  · intro other same
    rw [known] at same
    cases same
    refine ⟨?_, by rw [ran.target]; exact striped⟩
    apply sequential_append env.outside
      (begun.traced.sequential total known).1 _ (Option.some_ne_none _)
    rintro _ ⟨⟩
    rw [← begun.traced.target, Visit.calls, ran.ready]
    exact sequential

/-! The requests of an attempt. -/

variable (env policy freshness url layout io)

theorem prepared_logged (visit : Visit Url) :
    ∃ added, (∀ exchange ∈ added, exchange.request.ifRange = none) ∧
      match visit.prepared env freshness url layout io with
      | .error result => result.2.2 = visit.sent ++ added
      | .ok prepared => prepared.log = visit.sent ++ added := by
  have resumed : ∀ (held : Session Url) (log : List (Exchange Url)),
      match prepareResume held log with
      | .error result => result.2.2 = log
      | .ok prepared => prepared.log = log := by
    intro held log
    unfold prepareResume
    cases held.validator.ifRangeValue <;> rfl
  unfold Visit.prepared prepare
  cases visit.session with
  | none =>
    obtain ⟨added, shape, plain⟩ := (probe_concluded env.server env.join
      env.resolve (ProbeRequest.new url) (io visit.number).probedAt visit.sent).logged
    refine ⟨added, fun exchange mem => (plain exchange mem).2, ?_⟩
    simp only [prepareStart]
    generalize probe env.server env.join env.resolve (ProbeRequest.new url)
      (io visit.number).probedAt visit.sent = probed at shape ⊢
    rcases probed with ⟨error | remote, log⟩
    · exact shape
    · cases (io visit.number).target with
      | ok _ => exact shape
      | error source =>
        by_cases unclear : source.kind ≠ .notFound
        · simp only [if_pos unclear]
          exact shape
        · simp only [if_neg unclear]
          cases Sink.create env.outside env.intervalText _ _ _ _ _ _
            (io visit.number).create <;> exact shape
  | some held =>
    simp only
    by_cases current : (triggers freshness ⟨held.recorded, (io visit.number).now, held.finalUrl,
        none, held.lastObservedStatus⟩).isEmpty = true
    · simp only [if_pos current]
      refine ⟨[], by simp, ?_⟩
      rw [List.append_nil]
      exact resumed held visit.sent
    · simp only [if_neg current]
      obtain ⟨added, shape, plain⟩ := (probe_concluded env.server env.join
        env.resolve (ProbeRequest.new held.finalUrl) (io visit.number).probedAt
        visit.sent).logged
      refine ⟨added, fun exchange mem => (plain exchange mem).2, ?_⟩
      rw [← shape]
      unfold refreshCapabilities
      rcases probe env.server env.join env.resolve
        (ProbeRequest.new held.finalUrl) (io visit.number).probedAt visit.sent with
        ⟨error | fresh, log⟩
      · rfl
      · by_cases changed : fresh.validator ≠ held.validator ∨
            (fresh.totalLength.isSome = true ∧ fresh.totalLength ≠ held.totalLength)
        · simp only [if_pos changed]
        · simp only [if_neg changed]
          exact resumed _ log

/-- Every conditional request in the log is the request of an attempt that had a session. -/
def Recorded (first visit : Visit Url) (log : List (Exchange Url)) : Prop :=
  ∀ exchange ∈ log, exchange.request.ifRange ≠ none →
    exchange ∈ visit.sent ∨
      ∃ earlier ∈ visits env policy freshness url layout io first,
        ∃ prepared, earlier.prepared env freshness url layout io = .ok prepared ∧
          earlier.session ≠ none ∧ exchange.request = prepared.request

variable {env policy freshness url layout io}

theorem outcome_recorded (reached : visit ∈ visits env policy freshness url layout io first)
    (resting : Resting env visit) :
    Recorded env policy freshness url layout io first visit
      (visit.outcome env freshness url layout io).2.2 := by
  intro exchange mem conditional
  obtain ⟨added, plain, shape⟩ := prepared_logged env freshness url layout io visit
  rw [outcome_prepared] at mem
  cases ready : visit.prepared env freshness url layout io with
  | error result =>
    simp only [ready] at shape mem
    rw [show (finish env (io visit.number) (.error result)).2.2 = visit.sent ++ added
      from shape] at mem
    rcases List.mem_append.mp mem with old | probing
    · exact Or.inl old
    · exact absurd (plain exchange probing) conditional
  | ok prepared =>
    simp only [ready] at shape mem
    rw [finish, Splice.run_logged, shape] at mem
    rcases List.mem_append.mp mem with before | own
    · rcases List.mem_append.mp before with old | probing
      · exact Or.inl old
      · exact absurd (plain exchange probing) conditional
    · rw [List.mem_singleton.mp own] at conditional ⊢
      obtain ⟨born, done, begun⟩ := prepared_begun resting ready
      exact Or.inr ⟨visit, reached, prepared, ready,
        fun fresh => conditional (by rw [(begun.whole fresh).2]; rfl), rfl⟩

theorem next_sent (visit : Visit Url) (left : Option (Session Url)) (log : List (Exchange Url)) :
    (visit.next env freshness url layout io left log).sent = log := by
  unfold Visit.next
  by_cases continues : resumable left = true
  · simp only [if_pos continues]
  · simp only [if_neg continues]

theorem visits_resting :
    ∀ visit ∈ visits env policy freshness url layout io firstVisit,
      Resting env visit ∧
        Recorded env policy freshness url layout io firstVisit firstVisit visit.sent := by
  -- All attempts of a download begin at rest, and their logs are accounted for.
  apply visits_invariant (fun visit =>
    Resting env visit ∧
      Recorded env policy freshness url layout io firstVisit firstVisit visit.sent)
  · rintro visit next reached ⟨resting, recorded⟩ retried
    refine ⟨retries_resting resting retried, ?_⟩
    obtain ⟨_, error, left, log, ended, _, rfl⟩ := retries_cases visit next retried
    have grown := outcome_recorded reached resting
    rw [ended] at grown
    rw [next_sent]
    intro exchange mem conditional
    rcases grown exchange mem conditional with old | found
    · exact recorded exchange old conditional
    · exact Or.inr found
  · exact ⟨first_resting env, fun exchange mem => by cases mem⟩

theorem conditional_sent (exchange : Exchange Url)
    (mem : exchange ∈ (download env policy freshness url layout io).2)
    (conditional : exchange.request.ifRange ≠ none) :
    ∃ visit ∈ visits env policy freshness url layout io firstVisit, ∃ prepared,
      visit.prepared env freshness url layout io = .ok prepared ∧ visit.session ≠ none ∧
        exchange.request = prepared.request := by
  obtain ⟨_, last, _, reached, _, returned⟩ := download_last env policy freshness url layout io
  rw [returned] at mem
  rcases outcome_recorded reached (visits_resting last reached).1 exchange mem conditional
    with old | found
  · exact ((visits_resting last reached).2 exchange old conditional).resolve_left (by
      intro impossible
      cases impossible)
  · exact found

/-! What a session of known length guarantees. -/

variable (env policy freshness url layout io)

/-- The guarantees of one attempt, over everything done to its sink since the creation. -/
structure SessionSound (visit : Visit Url) (prepared : Prepared Url) (total : Nat) : Prop where
  /-- The history is the history of the sink that the attempt writes to. -/
  traced : prepared.held.sink.target = calls env.outside
    (visit.born.getD prepared.held).sink.target visit.past
  prefixes : ∀ before, before <+: visit.past ++ runCalls env prepared (io visit.number) →
    ∃ done, done ≤ total ∧ PrefixDone
      (calls env.outside (visit.born.getD prepared.held).sink.target before) done
  once : ∀ pos, (visit.past ++ runCalls env prepared (io visit.number)).countP
    (covers pos) ≤ 1
  resumes : visit.session ≠ none → ∃ done validator, PrefixDone prepared.held.sink.target done ∧
    (visit.born.getD prepared.held).recorded.validator.ifRangeValue = some validator ∧
      prepared.request = RangeRequest.resume prepared.held.finalUrl (.from done) validator

theorem striped_within (striped : StripedSink sink total done cursor) : done ≤ total := by
  obtain ⟨writer, intervals, disk, backing, shape⟩ := striped
  by_contra beyond
  have complete := (shape.complete total).mpr (Nat.lt_of_not_le beyond)
  have inside := (intervals.state_inside total).mp ⟨_, complete⟩
  rw [shape.total] at inside
  exact absurd inside (Nat.lt_irrefl _)

omit [DecidableEq Url] in
theorem begun_sequential (begun : Begun env visit prepared born done)
    (known : prepared.held.totalLength = some total) :
    ∃ stop, Sequential env.outside born.sink.target 0
      (visit.past ++ runCalls env prepared (io visit.number)) stop := by
  obtain ⟨past, striped⟩ := begun.traced.sequential total (begun.traced.total ▸ known)
  obtain ⟨stop, fetched, _⟩ := fetch_sequential env.outside env.server
    prepared.request (io visit.number).writes prepared.log
    (by rw [begun.window]; exact striped)
  have ran := sequential_sync env.outside (io visit.number).sync fetched
  rw [begun.window] at ran
  refine ⟨stop, sequential_append env.outside past ?_ (Option.some_ne_none _)⟩
  rintro _ ⟨⟩
  rw [← begun.traced.target]
  exact ran

omit [DecidableEq Url] in
theorem begun_striped (begun : Begun env visit prepared born done)
    (known : prepared.held.totalLength = some total) (before : List SinkCall)
    (earlier : before <+: visit.past ++ runCalls env prepared (io visit.number)) :
    ∃ later reached,
      StripedSink (calls env.outside born.sink.target before) total later reached := by
  obtain ⟨stop, whole⟩ := begun_sequential env io begun known
  have length : born.totalLength = some total := begun.traced.total ▸ known
  exact (sequential_striped env.outside whole
    (begun.traced.founded.known total length).1).1 before earlier

omit [DecidableEq Url] in
theorem begun_sound (begun : Begun env visit prepared born done)
    (known : prepared.held.totalLength = some total) :
    SessionSound env io visit prepared total := by
  have throughout := begun_striped env io begun known
  obtain ⟨stop, whole⟩ := begun_sequential env io begun known
  constructor
  · rw [begun.origin]
    exact begun.traced.target
  · intro before earlier
    rw [begun.origin]
    obtain ⟨later, reached, shape⟩ := throughout before earlier
    exact ⟨later, striped_within shape, striped_prefix shape⟩
  · intro pos
    have counted := sequential_once env.outside whole pos
    simpa using counted
  · intro carried
    obtain ⟨validator, usable, asked⟩ := begun.resumes carried
    have striped := (begun.traced.sequential total (begun.traced.total ▸ known)).2
    rw [begun.origin]
    exact ⟨done, validator, striped_prefix striped, usable, asked⟩

def visitNaming (visit : Visit Url) : List NamingStep :=
  match visit.prepared env freshness url layout io with
  | .error _ => []
  | .ok prepared => runNaming env prepared (io visit.number)

theorem visit_naming_count (visit : Visit Url) :
    (visitNaming env freshness url layout io visit).countP renamed =
      (visit.outcome env freshness url layout io).1.isOk.toNat := by
  rw [outcome_prepared, visitNaming]
  cases ready : visit.prepared env freshness url layout io with
  | error result =>
    have failed := (unprepared_left ready).2
    simp only [finish, failed, List.countP_nil, Bool.toNat_false]
  | ok prepared => exact run_naming_count env prepared (io visit.number)

variable {env policy freshness url layout io}

theorem retried_failed
    (retried : (visit.retries env policy freshness url layout io).isSome = true) :
    (visit.outcome env freshness url layout io).1.isOk = false := by
  obtain ⟨next, here⟩ := Option.isSome_iff_exists.mp retried
  obtain ⟨_, error, left, log, ended, _⟩ := retries_cases visit next here
  rw [ended]
  rfl

theorem returned_complete (resting : Resting env visit)
    (ready : visit.prepared env freshness url layout io = .ok prepared)
    (returned : (visit.outcome env freshness url layout io).1.isOk = true) (total : Nat)
    (known : prepared.held.totalLength = some total) (pos : Nat) (inside : pos < total) :
    sinkState (written env prepared (io visit.number)) pos = some .complete := by
  obtain ⟨born, done, begun⟩ := prepared_begun resting ready
  obtain ⟨later, reached, striped⟩ := begun_striped env io
    begun known _ List.prefix_rfl
  rw [calls_append, ← begun.traced.target] at striped
  have small := (begun.traced.founded.known total (begun.traced.total ▸ known)).2
  have ended := run_end env prepared (io visit.number)
  rw [outcome_prepared, ready, finish] at returned
  generalize run env prepared.held prepared.request (io visit.number) prepared.log = result
    at ended returned
  cases ended with
  | unsynced path source left log short => cases returned
  | failed error sink status log short target committed unspoiled => cases returned
  | unverified source path left log full target refused => cases returned
  | delivered sealing target log full named =>
    exact named_complete striped small
      named inside

end Engine

/-- In every download: a session of known length has a complete prefix after every call,
writes no position twice and asks on a resume for what follows the prefix, under the
validator of its first probe. There are no other conditional requests. A download that
returns has renamed one file once, and all its bytes were complete before. -/
theorem session_invariant {Url : Type} [DecidableEq Url] (env : Environment Url)
    (policy : RetryPolicy) (freshness : Nat) (url : Url) (layout : StorageLayout)
    (io : Nat → AttemptIo) :
    (∀ visit ∈ visits env policy freshness url layout io firstVisit, ∀ prepared total,
      visit.prepared env freshness url layout io = .ok prepared →
      prepared.held.totalLength = some total → SessionSound env io visit prepared total) ∧
    (∀ exchange ∈ (download env policy freshness url layout io).2,
      exchange.request.ifRange ≠ none →
      ∃ visit ∈ visits env policy freshness url layout io firstVisit, ∃ prepared,
        visit.prepared env freshness url layout io = .ok prepared ∧ visit.session ≠ none ∧
          exchange.request = prepared.request) ∧
    (∀ delivered log, download env policy freshness url layout io = (.ok delivered, log) →
      ((visits env policy freshness url layout io firstVisit).flatMap
        (visitNaming env freshness url layout io)).countP renamed = 1 ∧
      ∃ before last prepared,
        visits env policy freshness url layout io firstVisit = before ++ [last] ∧
        last.prepared env freshness url layout io = .ok prepared ∧
        (visitNaming env freshness url layout io last).countP renamed = 1 ∧
        ∀ total, prepared.held.totalLength = some total → ∀ pos, pos < total →
          sinkState (written env prepared (io last.number)) pos = some .complete) := by
  obtain ⟨before, last, shape, reached, retried, returned⟩ :=
    download_last env policy freshness url layout io
  refine ⟨?_, conditional_sent, ?_⟩
  · intro visit mem prepared total ready known
    obtain ⟨born, done, begun⟩ := prepared_begun (visits_resting visit mem).1 ready
    exact begun_sound env io begun known
  · intro delivered log ended
    rw [returned] at ended
    have success : (last.outcome env freshness url layout io).1.isOk = true := by
      rw [(Prod.mk.inj ended).1]
      rfl
    have once : (visitNaming env freshness url layout io last).countP renamed = 1 := by
      rw [visit_naming_count, success]
      rfl
    have silent : ∀ earlier ∈ before,
        (visitNaming env freshness url layout io earlier).countP renamed = 0 := by
      intro earlier mem
      rw [visit_naming_count, retried_failed (retried earlier mem)]
      rfl
    refine ⟨?_, before, last, ?_⟩
    · rw [shape, List.flatMap_append, List.countP_append, List.countP_flatMap]
      have nothing : (before.map (List.countP renamed ∘
          visitNaming env freshness url layout io)).sum = 0 := by
        apply List.sum_eq_zero
        intro count mem
        obtain ⟨earlier, inside, rfl⟩ := List.mem_map.mp mem
        exact silent earlier inside
      simpa [nothing] using once
    · cases ready : last.prepared env freshness url layout io with
      | error result =>
        have failed := (unprepared_left ready).2
        rw [outcome_prepared, ready, finish, failed] at success
        cases success
      | ok prepared =>
        exact ⟨prepared, shape, rfl, once, returned_complete (visits_resting last reached).1 ready success⟩

/-- A download that is cut after two of four bytes and resumed renames its file once. -/
theorem session_invariant_cut :
    ((visits (Splice.cutEnvironment Splice.oldFile) RetryPolicy.default capabilityFreshness ()
      Splice.cutLayout (fun _ => Splice.cutIo) firstVisit).flatMap
        (visitNaming (Splice.cutEnvironment Splice.oldFile) capabilityFreshness () Splice.cutLayout
          fun _ => Splice.cutIo)).countP renamed = 1 :=
  ((session_invariant (Splice.cutEnvironment Splice.oldFile) RetryPolicy.default capabilityFreshness
    () Splice.cutLayout fun _ => Splice.cutIo).2.2 _ _
      (Splice.cut_returns (Or.inl rfl))).1

end Downpour.SessionInvariant
