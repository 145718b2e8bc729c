import Downpour.SessionInvariant

/-!
When the retry loop sends a conditional request. The loop decides on a resume from the
durable prefix and the validator. Whether ranges are proven and whether anything is left
to ask for is no part of that decision.
-/

namespace Downpour.ResumeRequests
open Ranges Remote Http H1H2 Probing Retry Completion Sink SingleStream Attempts SessionTrace
open SessionInvariant

/-! How far a body moves the window of its sink. -/

section Window
variable {Url Target Io : Type}
variable (writeAt : Io → Target → Nat → List UInt8 → Except SinkError Unit × Target)

/-- The window grows by at most the given number of bytes and never beyond its limit. -/
structure Grows (sink : RangeSink Target) (count : Nat) (after : RangeSink Target) : Prop where
  base : after.baseOffset = sink.baseOffset
  limit : after.limit = sink.limit
  most : after.written ≤ sink.written + count
  bounded : ∀ limit, sink.limit = some limit → sink.written ≤ limit → after.written ≤ limit

theorem grows_not (sink : RangeSink Target) (target : Target) (count : Nat) :
    Grows sink count { sink with target } :=
  ⟨rfl, rfl, Nat.le_add_right _ _, fun _ _ held => held⟩

theorem grows_accept (write : Target → Nat → List UInt8 → Except SinkError Unit × Target)
    (sink : RangeSink Target) (chunk : List UInt8) :
    Grows sink chunk.length (sink.accept write chunk).2 := by
  unfold RangeSink.accept
  cases beyond : sink.limit.filter fun limit =>
      decide (limit < min (sink.written + chunk.length) (2 ^ 64 - 1)) with
  | some limit => exact grows_not sink sink.target _
  | none =>
    simp only
    split
    · exact grows_not sink sink.target _
    · split
      next target _ => exact grows_not sink target _
      next target _ =>
        refine ⟨rfl, rfl, Nat.min_le_left _ _, ?_⟩
        intro limit known _
        rw [known] at beyond
        have inside : ¬ limit < min (sink.written + chunk.length) (2 ^ 64 - 1) := by
          intro outside
          simp only [Option.filter, outside, decide_true, ↓reduceIte, reduceCtorEq] at beyond
        exact Nat.not_lt.mp inside

theorem grows_after {sink between after : RangeSink Target} {first second : Nat}
    (one : Grows sink first between) (two : Grows between second after) :
    Grows sink (first + second) after := by
  refine ⟨two.base.trans one.base, two.limit.trans one.limit, ?_, ?_⟩
  · have := one.most
    have := two.most
    omega
  · intro limit known held
    exact two.bounded limit (one.limit.trans known) (one.bounded limit known held)

theorem grows_body (url : Url) (declaredType : Option (List Char)) (promised : Option Nat)
    (ending : BodyEnd) (io : Nat → Io) (chunks : List (List UInt8)) (index delivered : Nat)
    (sink : RangeSink Target) :
    Grows sink chunks.flatten.length
      (readBody writeAt url declaredType promised ending io index delivered sink chunks).2 := by
  induction chunks generalizing index delivered sink with
  | nil =>
    unfold readBody
    split
    · exact grows_not sink sink.target _
    · exact grows_not sink sink.target _
    · split <;> exact grows_not sink sink.target _
  | cons chunk rest ih =>
    unfold readBody
    rw [List.flatten_cons, List.length_append]
    split
    next empty => simpa [empty] using ih index delivered sink
    · split
      · exact grows_not sink sink.target _
      · have step := grows_accept (writeAt (io index)) sink chunk
        split
        next after accepted =>
          rw [accepted] at step
          exact grows_after step (grows_not after after.target _)
        next after _ accepted =>
          rw [accepted] at step
          exact grows_after step (grows_not after after.target _)
        next after accepted =>
          rw [accepted] at step
          exact grows_after step (ih _ _ after)

theorem finished_body (url : Url) (declaredType : Option (List Char)) (promised : Option Nat)
    (io : Nat → Io) (chunks : List (List UInt8)) (index delivered : Nat) (sink : RangeSink Target) :
    match readBody writeAt url declaredType promised .finished io index delivered sink chunks with
    | (.ok arrived, after) =>
      min arrived (2 ^ 64 - 1) = min (delivered + chunks.flatten.length) (2 ^ 64 - 1) ∧
        min after.written (2 ^ 64 - 1) =
          min (sink.written + chunks.flatten.length) (2 ^ 64 - 1)
    | (.error error, _) => transientKindOf (.transfer error) = none := by
  -- A body without an error of the transport is accepted whole, or the error that stops it is not
  -- a transient one.
  induction chunks generalizing index delivered sink with
  | nil => simp [readBody]
  | cons chunk rest ih =>
    rw [readBody, List.flatten_cons, List.length_append]
    by_cases empty : chunk = []
    · rw [if_pos empty]
      simpa [empty] using ih index delivered sink
    rw [if_neg empty]
    by_cases page : delivered = 0 ∧ bodyLooksLikeAWebPage declaredType chunk = true
    · rw [if_pos page]
      rfl
    rw [if_neg page]
    have grown : ∀ after, sink.accept (writeAt (io index)) chunk = (.ok (), after) →
        after.written = min (sink.written + chunk.length) (2 ^ 64 - 1) := by
      intro after accepted
      unfold RangeSink.accept at accepted
      split at accepted
      · cases accepted
      · split at accepted
        · cases accepted
        · split at accepted
          · cases accepted
          · cases accepted
            rfl
    rcases accepted : sink.accept (writeAt (io index)) chunk with ⟨error | _, after⟩
    · cases error <;> rfl
    · have later := ih (index + 1) (min (delivered + chunk.length) (2 ^ 64 - 1)) after
      rw [grown after accepted] at later
      simp only
      generalize readBody writeAt url declaredType promised .finished io (index + 1)
        (min (delivered + chunk.length) (2 ^ 64 - 1)) after rest = read at later ⊢
      rcases read with ⟨error | arrived, final⟩
      · exact later
      · simp only at later ⊢
        omega

end Window

/-! The evidence of a probe. -/

section Evidence
variable {Url : Type}

/-- An answer that a probe takes for the representation is a proof that ranges work. -/
def Proves (exchange : Exchange Url) (response : Response) : Prop :=
  response.status = 200 ∨ response.status = 206 → exchange.request.range = some probeRange ∧
    (RangeProof.fromObservedResponse probeRange response.status response.contentRange
      response.contentEncoding response.chunks.flatten.length).isOk = true

/-- Where the log ends with a probe, the probe was answered with a proof. -/
def Evident (server : Server Url) (log : List (Exchange Url)) : Prop :=
  ∀ before exchange response, log = before ++ [exchange] → exchange.probing = true →
    server before.length exchange.request = .ok response → Proves exchange response

variable {server : Server Url} {log : List (Exchange Url)}
    {resolve : Option (List Char) → Url → List Char} {now : Nat} {remote : RemoteObject Url}

theorem probe_loop_last
    (learned : probeLoop server join resolve request now current chain hops withRange sent =
      (.ok remote, log)) : ∃ before asked, log = before ++ [⟨true, asked⟩] := by
  fun_induction probeLoop server join resolve request now current chain hops withRange sent with
  | case1 => cases learned
  | case2 => cases learned
  | case3 => cases learned
  | case4 => cases learned
  | case5 => cases learned
  | case6 current chain hops withRange sent _ asked log response _ _ location _ next _ ih =>
    exact ih learned
  | case7 current chain hops withRange sent _ asked log response _ _ _ ih => exact ih learned
  | case8 => cases learned
  | case9 => cases learned
  | case10 current chain hops withRange sent _ asked log response _ _ _ _ _ =>
    exact ⟨sent, asked, (congrArg Prod.snd learned).symm⟩

theorem conclusion_proven
    (proven : RangeProof.fromObservedResponse probeRange response.status response.contentRange
      response.contentEncoding response.chunks.flatten.length = .ok proof)
    (concluded : probeConclusion resolve current chain true now response = .ok remote) :
    remote.rangeSupport = .proven proof := by
  unfold probeConclusion at concluded
  simp only [proven, ↓reduceIte] at concluded
  split at concluded
  · cases concluded
  · split at concluded
    · cases concluded
    · cases concluded
    · cases concluded
      rfl

theorem probe_proven (learned : probe server join resolve request now sent = (.ok remote, log))
    (evident : Evident server log) : remote.rangeSupport.isProven = true := by
  have concluded := probe_concluded server join resolve request now sent
  rw [learned] at concluded
  obtain ⟨before, exchange, response, current, chain, withRange, shape, answered, ranged, status,
    concludes⟩ := concluded.learned remote rfl
  obtain ⟨front, asked, last⟩ := probe_loop_last learned
  have same : before = front ∧ [exchange] = [⟨true, asked⟩] :=
    List.append_inj' (shape.symm.trans last) rfl
  have own : exchange.probing = true := by rw [List.singleton_inj.mp same.2]
  obtain ⟨range, proves⟩ := evident before exchange response shape own answered status
  cases proven : RangeProof.fromObservedResponse probeRange response.status response.contentRange
      response.contentEncoding response.chunks.flatten.length with
  | error error =>
    rw [proven] at proves
    cases proves
  | ok proof =>
    cases withRange with
    | false =>
      rw [range] at ranged
      cases ranged
    | true =>
      rw [conclusion_proven proven concludes]
      rfl

end Evidence

/-! The attempts of a download. -/

section Engine
variable {Url : Type} (env : Environment Url)

/-- The body stops short of the representation, or it ends properly behind all that its
headers promised. -/
def Settles (total : Nat) (request : RangeRequest Url) (response : Response) : Prop :=
  resumeOffset request.range + response.chunks.flatten.length < total ∨
    response.ending = .finished ∧ ∀ range, checkResponse request response = .ok range →
      (promisedLength response range).all
        (fun expected => decide (expected ≤ response.chunks.flatten.length)) = true

theorem fetch_grows (request : RangeRequest Url) (sink : RangeSink StorageSink)
    (io : Nat → WriteIo) (sent : List (Exchange Url)) :
    (fetchRange (writeAt env.outside) env.server request sink io sent).2.1 = sink ∨
      ∃ response range, env.server sent.length request = .ok response ∧
        checkResponse request response = .ok range ∧
        Grows sink response.chunks.flatten.length
          (fetchRange (writeAt env.outside) env.server request sink io sent).2.1 := by
  unfold fetchRange
  cases env.server sent.length request with
  | error error => cases error <;> exact Or.inl rfl
  | ok response =>
    simp only
    cases checked : checkResponse request response with
    | error error => exact Or.inl rfl
    | ok range =>
      refine Or.inr ⟨response, range, rfl, checked, ?_⟩
      have grows := grows_body (writeAt env.outside) request.url response.contentType
        (promisedLength response range) response.ending io response.chunks 0 0 sink
      simp only
      generalize readBody (writeAt env.outside) request.url response.contentType
        (promisedLength response range) response.ending io 0 0 sink response.chunks = read
        at grows ⊢
      rcases read with ⟨error | delivered, after⟩ <;> exact grows

theorem full_run (answered : env.server sent.length request = .ok response)
    (checked : checkResponse request response = .ok range) (finished : response.ending = .finished)
    (promise : (promisedLength response range).all
      (fun expected => decide (expected ≤ response.chunks.flatten.length)) = true)
    (known : held.totalLength = some total) (small : total < 2 ^ 63)
    (window : held.sink.written = 0) (limit : held.sink.limit = some (total - held.sink.baseOffset))
    (inside : held.sink.baseOffset ≤ total)
    (long : total ≤ held.sink.baseOffset + response.chunks.flatten.length)
    (failed : (run env held request io sent).1 = .error error) :
    transientKindOf error = none := by
  -- A run whose body reaches the end of the representation without an error of the transport is
  -- not tried again.
  have body := finished_body (writeAt env.outside) request.url response.contentType
    (promisedLength response range) io.writes response.chunks 0 0 held.sink
  have grows := grows_body (writeAt env.outside) request.url response.contentType
    (promisedLength response range) .finished io.writes response.chunks 0 0 held.sink
  unfold run fetchRange at failed
  simp only [answered, checked, finished] at failed
  generalize readBody (writeAt env.outside) request.url response.contentType
    (promisedLength response range) .finished io.writes 0 0 held.sink response.chunks = read
    at body grows failed
  rcases read with ⟨stopped | delivered, after⟩
  · simp only at failed body
    generalize Sink.sync env.outside io.sync after.target = synced at failed
    rcases synced with ⟨source | _, target⟩
    · cases failed
      rfl
    · cases failed
      exact body
  · simp only at failed body grows
    have reached := grows.bounded _ limit (by rw [window]; exact Nat.zero_le _)
    have least := grows.most
    have base := grows.base
    -- Everything that came was accepted, so the window ends where the representation does.
    have exact_end : ({ after with target := (Sink.sync env.outside io.sync
        after.target).2 } : RangeSink StorageSink).nextOffset = total := by
      unfold RangeSink.nextOffset
      simp only
      omega
    have all : response.chunks.flatten.length ≤ delivered := by omega
    have whole : (promisedLength response range).any
        (fun expected => decide (delivered < expected)) = false := by
      cases promised : promisedLength response range with
      | none => rfl
      | some expected =>
        rw [promised] at promise
        simp only [Option.all_some, decide_eq_true_eq] at promise
        simp only [Option.any_some, decide_eq_false_iff_not]
        omega
    generalize Sink.sync env.outside io.sync after.target = synced at failed exact_end
    rcases synced with ⟨source | _, target⟩
    · cases failed
      rfl
    · simp only [known, Option.any_some, exact_end, ne_eq, not_true_eq_false, decide_false, whole,
        Bool.or_self, Bool.false_eq_true, ↓reduceIte] at failed
      split at failed
      · cases failed
        rfl
      · cases failed

def RecordedBy (sent : List (Exchange Url)) (prepared : Prepared Url) : Prop :=
  ∃ request now, probe env.server env.join env.resolve request now sent =
    (.ok prepared.held.recorded, prepared.log)

inductive Origin (visit : Visit Url) (prepared : Prepared Url) : Prop where
  | started (fresh : visit.session = none) (recorded : RecordedBy env visit.sent prepared)
      (request : prepared.request = RangeRequest.whole prepared.held.finalUrl)
      (base : prepared.held.sink.baseOffset = 0) (written : prepared.held.sink.written = 0)
      (limit : prepared.held.sink.limit = prepared.held.totalLength)
  | resumed (held : Session Url) (validator : List Char) (carried : visit.session = some held)
      (recorded : prepared.held.recorded = held.recorded ∨
        RecordedBy env visit.sent prepared)
      (request : prepared.request =
        RangeRequest.resume prepared.held.finalUrl (.from held.durablePrefixEnd) validator)
      (total : prepared.held.totalLength = held.totalLength)
      (sink : prepared.held.sink = held.sink.rebase held.durablePrefixEnd
        (held.totalLength.map fun total => total - held.durablePrefixEnd))

theorem refresh_probed (refreshed : refreshCapabilities env held io sent = (.ok fresh, log)) :
    probe env.server env.join env.resolve (ProbeRequest.new held.finalUrl)
      io.probedAt sent = (.ok fresh.recorded, log) := by
  unfold refreshCapabilities at refreshed
  split at refreshed
  · cases refreshed
  next remote after probed =>
    split at refreshed
    · cases refreshed
    · cases refreshed
      exact probed

theorem start_window (ready : prepareStart env url layout io sent = .ok prepared) :
    prepared.held.sink.baseOffset = 0 ∧ prepared.held.sink.written = 0 ∧
      prepared.held.sink.limit = prepared.held.totalLength := by
  unfold prepareStart at ready
  split at ready
  · cases ready
  · simp only at ready
    split at ready
    · cases ready
    · split at ready
      · cases ready
      · split at ready
        · cases ready
        · cases ready
          exact ⟨rfl, rfl, rfl⟩

theorem carried_known {visit : Visit Url} (resting : Resting env visit)
    (carried : visit.session = some held) : ∃ total, held.totalLength = some total := by
  rw [Resting, carried] at resting
  obtain ⟨born, _, _, traced, length⟩ := resting
  rw [traced.total]
  exact Option.ne_none_iff_exists'.mp length

variable [DecidableEq Url] (policy : RetryPolicy) (freshness : Nat) (url : Url)
variable (layout : StorageLayout) (io : Nat → AttemptIo)

variable {prepared : Prepared Url} {visit : Visit Url}

variable {env policy freshness url layout io}

theorem prepared_origin (ready : visit.prepared env freshness url layout io = .ok prepared) :
    Origin env visit prepared := by
  unfold Visit.prepared prepare at ready
  cases session : visit.session with
  | none =>
    simp only [session] at ready
    obtain ⟨base, written, limit⟩ := start_window env ready
    exact .started session
      ⟨_, _, (start_probed env ready).1⟩
      (start_founded env ready).2 base written limit
  | some held =>
    simp only [session] at ready
    split at ready
    · obtain ⟨validator, _, rfl⟩ := resume_prepared ready
      exact .resumed held validator session (Or.inl rfl) rfl rfl rfl
    · rcases refreshed : refreshCapabilities env held (io visit.number) visit.sent with
        ⟨error | fresh, log⟩
      · rw [refreshed] at ready
        cases ready
      · rw [refreshed] at ready
        obtain ⟨validator, _, rfl⟩ := resume_prepared ready
        obtain ⟨sink, _, total⟩ := Splice.refresh_keeps env held fresh _ _ _ refreshed
        have same : fresh.durablePrefixEnd = held.durablePrefixEnd := by
          rw [Session.durablePrefixEnd, sink, Session.durablePrefixEnd]
        have probed := refresh_probed env refreshed
        exact .resumed held validator session (Or.inr ⟨_, _, probed⟩) (by rw [same])
          total (by rw [← same, ← sink, ← total])

/-- A session that may be resumed: ranges are proven, and something is left to ask for. -/
def Justified (visit : Visit Url) : Prop :=
  ∀ held, visit.session = some held → held.recorded.rangeSupport.isProven = true ∧
    ∃ total, held.totalLength = some total ∧ held.durablePrefixEnd < total

variable (env policy freshness url layout io)

/-- The attempt after this one carries its session on. -/
def Continues (visit : Visit Url) : Prop :=
  ∃ next, visit.retries env policy freshness url layout io = some next ∧ next.session ≠ none

variable {env policy freshness url layout io}

theorem prepared_proven (ready : visit.prepared env freshness url layout io = .ok prepared)
    (justified : Justified visit) (evident : Evident env.server prepared.log) :
    prepared.held.recorded.rangeSupport.isProven = true := by
  have learned : RecordedBy env visit.sent prepared →
      prepared.held.recorded.rangeSupport.isProven = true := by
    rintro ⟨request, now, probed⟩
    exact probe_proven probed evident
  cases prepared_origin ready with
  | started fresh recorded request base written limit => exact learned recorded
  | resumed held validator carried recorded request total sink =>
    rcases recorded with kept | recorded
    · rw [kept]
      exact (justified held carried).1
    · exact learned recorded

theorem prepared_window (ready : visit.prepared env freshness url layout io = .ok prepared)
    (justified : Justified visit) (known : prepared.held.totalLength = some total) :
    prepared.held.sink.written = 0 ∧
      prepared.held.sink.limit = some (total - prepared.held.sink.baseOffset) ∧
      prepared.held.sink.baseOffset = resumeOffset prepared.request.range ∧
      (prepared.held.sink.baseOffset = 0 ∨ prepared.held.sink.baseOffset < total) := by
  cases prepared_origin ready with
  | started fresh recorded request base written limit =>
    rw [request, base, limit, known]
    exact ⟨written, rfl, rfl, Or.inl rfl⟩
  | resumed held validator carried recorded request same sink =>
    obtain ⟨_, length, here, below⟩ := justified held carried
    rw [same, here] at known
    cases known
    rw [request, sink, here]
    exact ⟨rfl, rfl, rfl, Or.inr below⟩

theorem retries_justified (resting : Resting env visit) (justified : Justified visit)
    (evident : Continues env policy freshness url layout io visit → ∀ prepared,
      visit.prepared env freshness url layout io = .ok prepared →
      Evident env.server prepared.log)
    (settled : Continues env policy freshness url layout io visit →
      ∀ prepared total response,
      visit.prepared env freshness url layout io = .ok prepared →
      prepared.held.totalLength = some total →
      env.server prepared.log.length prepared.request = .ok response →
      Settles total prepared.request response)
    (retried : visit.retries env policy freshness url layout io = some next) :
    Justified next := by
  intro left carried
  have goes : Continues env policy freshness url layout io visit :=
    ⟨next, retried, by rw [carried]; simp⟩
  rcases next_session retried with
    ⟨dropped, _⟩ | ⟨prepared, sink, status, log, ran, continues, shape⟩
  · rw [dropped] at carried
    cases carried
  · have same : some { prepared.held with sink, lastObservedStatus := status } = some left := by
      rw [← carried, shape]
      simp only [Visit.next, if_pos continues]
    cases same
    refine ⟨prepared_proven ran.ready justified (evident goes prepared ran.ready), ?_⟩
    obtain ⟨total, (known : prepared.held.totalLength = some total)⟩ :=
      carried_known env (retries_resting resting retried) carried
    refine ⟨total, known, ?_⟩
    obtain ⟨born, done, begun⟩ := prepared_begun resting ran.ready
    have length : born.totalLength = some total := begun.traced.total ▸ known
    obtain ⟨reached, _, striped, ends⟩ := run_striped env
      (begun.traced.sequential total length).2 begun.window ran.committed ran.unspoiled
    have durable : sink.target.durablePrefixEnd = reached := by
      rw [ran.target]
      exact prefix_end_done striped
    have progress : 0 < sink.target.durablePrefixEnd := by
      simp only [resumable, Option.any_some, Bool.and_eq_true, decide_eq_true_eq] at continues
      exact continues.2
    rw [Session.durablePrefixEnd, durable]
    rw [durable] at progress
    obtain ⟨window, limit, offset, start⟩ := prepared_window ran.ready justified known
    rcases fetch_grows env prepared.request prepared.held.sink (io visit.number).writes
      prepared.log with still | ⟨response, range, answered, checked, grows⟩
    · rw [still] at ends
      omega
    · have most := grows.most
      have base := grows.base
      rcases settled goes prepared total response ran.ready known answered with short | ⟨finished, promise⟩
      · omega
      · by_contra beyond
        obtain ⟨_, error, _, _, ended, transient, _⟩ := retries_cases visit next retried
        rw [outcome_prepared, ran.ready, finish] at ended
        apply transient
        exact full_run env answered checked finished (promise range checked) known
          (begun.traced.founded.known total length).2 window limit (by omega) (by omega)
          (by rw [ended])

end Engine

/-- In every download whose sessions, where they are carried on, rest on probes that prove
ranges and on bodies that stop short of the end or end properly: every resume is sent while
ranges are proven and asks for a byte of the representation. All conditional requests are
such resumes. -/
theorem resumes_justified {Url : Type} [DecidableEq Url] (env : Environment Url)
    (policy : RetryPolicy) (freshness : Nat) (url : Url) (layout : StorageLayout)
    (io : Nat → AttemptIo)
    (evident : ∀ visit ∈ visits env policy freshness url layout io firstVisit,
      visit.session ≠ none ∨ Continues env policy freshness url layout io visit →
      ∀ prepared, visit.prepared env freshness url layout io = .ok prepared →
        Evident env.server prepared.log)
    (settled : ∀ visit ∈ visits env policy freshness url layout io firstVisit,
      Continues env policy freshness url layout io visit → ∀ prepared total response,
        visit.prepared env freshness url layout io = .ok prepared →
        prepared.held.totalLength = some total →
        env.server prepared.log.length prepared.request = .ok response →
        Settles total prepared.request response) :
    (∀ visit ∈ visits env policy freshness url layout io firstVisit, ∀ prepared,
      visit.prepared env freshness url layout io = .ok prepared → visit.session ≠ none →
      prepared.held.recorded.rangeSupport.isProven = true ∧ ∃ first validator total,
        prepared.request = RangeRequest.resume prepared.held.finalUrl (.from first) validator ∧
          prepared.held.totalLength = some total ∧ first < total) ∧
    ∀ exchange ∈ (download env policy freshness url layout io).2,
      exchange.request.ifRange ≠ none →
      ∃ visit ∈ visits env policy freshness url layout io firstVisit, ∃ prepared,
        visit.prepared env freshness url layout io = .ok prepared ∧ visit.session ≠ none ∧
          exchange.request = prepared.request := by
  have justified : ∀ visit ∈ visits env policy freshness url layout io firstVisit,
      Justified visit := by
    apply visits_invariant
    · intro visit next reached justified retried
      exact retries_justified
        (visits_resting visit reached).1 justified (fun goes => evident visit reached (Or.inr goes))
        (settled visit reached) retried
    · intro held carried
      cases carried
  refine ⟨?_, conditional_sent⟩
  intro visit reached prepared ready resumes
  refine ⟨prepared_proven ready
    (justified visit reached) (evident visit reached (Or.inl resumes) prepared ready), ?_⟩
  cases prepared_origin ready with
  | started fresh recorded request base written limit => exact absurd fresh resumes
  | resumed held validator carried recorded request same sink =>
    obtain ⟨_, total, length, below⟩ := justified visit reached held carried
    exact ⟨held.durablePrefixEnd, validator, total, request, same.trans length, below⟩

/-! Downloads of four bytes, each by a script of three answers. -/

section Scripts
open Splice

def script (probed whole resumed : Response) : Environment Unit :=
  { cutEnvironment oldFile with
    server := fun index _ => match index with
      | 0 => .ok probed
      | 1 => .ok whole
      | 2 => .ok resumed
      | _ => .error (.transport "connection refused") }

def provenProbe : Response :=
  { plainResponse 206 oldFile with
    contentRange := some "bytes 0-0/4".toList, chunks := [[1]] }

def plainProbe : Response :=
  { plainResponse 200 oldFile with contentLength := some ['4'], chunks := [[1, 2, 3, 4]] }

def broken (count : Nat) : Response :=
  { plainResponse 200 oldFile with
    chunks := [oldFile.bytes.take count], ending := .failed "connection reset" }

def behindTwo : Response :=
  { plainResponse 206 oldFile with
    contentRange := some "bytes 2-3/4".toList, chunks := [[3, 4]] }

def learned (rangeSupport : RangeSupport) : RemoteObject Unit :=
  ⟨(), [()], some 4, rangeSupport, .strongETag (tagged 'A'), none, .http11, some ['f'], 0⟩

def provenSupport : RangeSupport :=
  .proven ⟨4, .bytes 0 0 (some 4), .fromTo 0 0,
    ⟨.fromTo 0 0, 206, some "bytes 0-0/4".toList, none, 1⟩⟩

theorem script_proven (whole resumed : Response) :
    probe (script provenProbe whole resumed).server (script provenProbe whole resumed).join
      (script provenProbe whole resumed).resolve (ProbeRequest.new ()) cutIo.probedAt [] =
    (.ok (learned provenSupport), cutLog.take 1) := by
  rw [probe, probeLoop]
  rfl

theorem script_absent (whole resumed : Response) :
    probe (script plainProbe whole resumed).server (script plainProbe whole resumed).join
      (script plainProbe whole resumed).resolve (ProbeRequest.new ()) cutIo.probedAt [] =
    (.ok (learned .absent), cutLog.take 1) := by
  rw [probe, probeLoop]
  rfl

def secondVisit (env : Environment Unit) (left : Session Unit) : Visit Unit :=
  firstVisit.next env capabilityFreshness () cutLayout (fun _ => cutIo) (some left)
    (cutLog.take 2)

variable {left : Session Unit}

theorem script_visits (first : attempt env capabilityFreshness () cutLayout none cutIo [] =
      (.error (.transfer (.transport () source)), some left, cutLog.take 2)) :
    visits env RetryPolicy.default capabilityFreshness () cutLayout (fun _ => cutIo)
      firstVisit = firstVisit :: visits env RetryPolicy.default capabilityFreshness ()
        cutLayout (fun _ => cutIo) (secondVisit env left) := by
  have retried : (firstVisit : Visit Unit).retries env RetryPolicy.default capabilityFreshness
      () cutLayout (fun _ => cutIo) = some (secondVisit env left) := by
    unfold Visit.retries Visit.outcome
    rw [show attempt env capabilityFreshness () cutLayout (firstVisit : Visit Unit).session
      cutIo (firstVisit : Visit Unit).sent = _ from first]
    rfl
  rw [visits_eq, retried]

theorem script_second (env : Environment Unit) (continues : resumable (some left) = true) :
    (secondVisit env left).session = some left ∧
      (secondVisit env left).sent = cutLog.take 2 ∧
      (secondVisit env left).number = 1 := by
  simp only [secondVisit, Visit.next, if_pos continues, firstVisit, and_self]

theorem script_resumes (first : attempt env capabilityFreshness () cutLayout none cutIo [] =
      (.error (.transfer (.transport () source)), some left, cutLog.take 2))
    (continues : resumable (some left) = true)
    (ready : prepare env capabilityFreshness () cutLayout (some left) cutIo (cutLog.take 2) =
      .ok prepared) :
    ∃ visit ∈ visits env RetryPolicy.default capabilityFreshness () cutLayout
      (fun _ => cutIo) firstVisit, visit.prepared env capabilityFreshness () cutLayout
        (fun _ => cutIo) = .ok prepared := by
  obtain ⟨session, sent, _⟩ := script_second env continues
  refine ⟨secondVisit env left, ?_, ?_⟩
  · rw [script_visits first, visits_eq env _ _ _ _ _ (secondVisit _ _)]
    simp
  · rw [Visit.prepared, session, sent]
    exact ready

/-- Ranges that were never proven are asked for, and so is what lies behind the last byte. -/
theorem resumes_unjustified :
    (∃ visit ∈ visits (script plainProbe (broken 2) behindTwo) RetryPolicy.default
        capabilityFreshness () cutLayout (fun _ => cutIo) firstVisit, ∃ prepared,
      visit.prepared (script plainProbe (broken 2) behindTwo) capabilityFreshness () cutLayout
        (fun _ => cutIo) = .ok prepared ∧
      prepared.request = RangeRequest.resume () (.from 2) (tagged 'A') ∧
      prepared.held.recorded.rangeSupport.isProven = false) ∧
    ∃ visit ∈ visits (script provenProbe (broken 4) behindTwo) RetryPolicy.default
        capabilityFreshness () cutLayout (fun _ => cutIo) firstVisit, ∃ prepared,
      visit.prepared (script provenProbe (broken 4) behindTwo) capabilityFreshness () cutLayout
        (fun _ => cutIo) = .ok prepared ∧
      prepared.request = RangeRequest.resume () (.from 4) (tagged 'A') ∧
      prepared.held.totalLength = some 4 := by
  constructor
  · obtain ⟨left, first, continues, prepared, ready, asked⟩ :
        ∃ left, attempt (script plainProbe (broken 2) behindTwo) capabilityFreshness () cutLayout none
            cutIo [] = (.error (.transfer (.transport () "connection reset")), some left,
              cutLog.take 2) ∧ resumable (some left) = true ∧
          ∃ prepared, prepare (script plainProbe (broken 2) behindTwo) capabilityFreshness ()
            cutLayout (some left) cutIo (cutLog.take 2) = .ok prepared ∧
          prepared.request = RangeRequest.resume () (.from 2) (tagged 'A') ∧
          prepared.held.recorded.rangeSupport.isProven = false := by
      simp only [attempt, start]
      rw [script_absent]
      exact ⟨_, rfl, rfl, _, rfl, rfl, rfl⟩
    obtain ⟨visit, reached, resumes⟩ := script_resumes first continues ready
    exact ⟨visit, reached, prepared, resumes, asked⟩
  · obtain ⟨left, first, continues, prepared, ready, asked⟩ :
        ∃ left, attempt (script provenProbe (broken 4) behindTwo) capabilityFreshness () cutLayout none
            cutIo [] = (.error (.transfer (.transport () "connection reset")), some left,
              cutLog.take 2) ∧ resumable (some left) = true ∧
          ∃ prepared, prepare (script provenProbe (broken 4) behindTwo) capabilityFreshness ()
            cutLayout (some left) cutIo (cutLog.take 2) = .ok prepared ∧
          prepared.request = RangeRequest.resume () (.from 4) (tagged 'A') ∧
          prepared.held.totalLength = some 4 := by
      simp only [attempt, start]
      rw [script_proven]
      exact ⟨_, rfl, rfl, _, rfl, rfl, rfl⟩
    obtain ⟨visit, reached, resumes⟩ := script_resumes first continues ready
    exact ⟨visit, reached, prepared, resumes, asked⟩

def interrupted : Environment Unit := script provenProbe (broken 2) behindTwo

theorem interrupted_attempts :
    ∃ (whole resumed : Prepared Unit) (left : Session Unit),
      prepare interrupted capabilityFreshness () cutLayout none cutIo [] = .ok whole ∧
      whole.held.totalLength = some 4 ∧ whole.request = RangeRequest.whole () ∧
      whole.log = cutLog.take 1 ∧
      attempt interrupted capabilityFreshness () cutLayout none cutIo [] =
        (.error (.transfer (.transport () "connection reset")), some left, cutLog.take 2) ∧
      resumable (some left) = true ∧
      prepare interrupted capabilityFreshness () cutLayout (some left) cutIo (cutLog.take 2) =
        .ok resumed ∧
      resumed.held.totalLength = some 4 ∧
      resumed.request = RangeRequest.resume () (.from 2) (tagged 'A') ∧
      resumed.log = cutLog.take 2 ∧
      attempt interrupted capabilityFreshness () cutLayout (some left) cutIo (cutLog.take 2) =
        (.ok ⟨"downloads/f", [1, 2, 3, 4]⟩, none, cutLog) := by
  simp only [prepare, prepareStart, attempt, start, interrupted]
  rw [script_proven]
  exact ⟨_, _, _, rfl, rfl, rfl, rfl, rfl, rfl, rfl, rfl, rfl, rfl, rfl⟩

theorem interrupted_evident : Evident interrupted.server (cutLog.take 1) ∧
    Evident interrupted.server (cutLog.take 2) := by
  constructor
  · intro before exchange response last probing answered
    have shape : [] ++ cutLog.take 1 = before ++ [exchange] := last
    obtain ⟨rfl, same⟩ := List.append_inj' shape rfl
    cases same
    cases answered
    exact fun _ => ⟨rfl, rfl⟩
  · intro before exchange response last probing answered
    have shape : cutLog.take 1 ++ [⟨false, RangeRequest.whole ()⟩] = before ++ [exchange] := last
    obtain ⟨_, same⟩ := List.append_inj' shape rfl
    cases same
    cases probing

/-- Where ranges are proven and two of four bytes have come, the resume is in order. -/
theorem resumes_justified_interrupted :
    ∃ visit ∈ visits interrupted RetryPolicy.default capabilityFreshness () cutLayout
      (fun _ => cutIo) firstVisit, ∃ prepared,
      visit.prepared interrupted capabilityFreshness () cutLayout (fun _ => cutIo) = .ok prepared ∧
      prepared.held.recorded.rangeSupport.isProven = true ∧ ∃ first validator total,
        prepared.request = RangeRequest.resume prepared.held.finalUrl (.from first) validator ∧
          prepared.held.totalLength = some total ∧ first < total := by
  obtain ⟨whole, resumed, left, wholeReady, wholeTotal, wholeAsked, wholeLog, first, continues,
    resumedReady, _, _, resumedLog, second⟩ := interrupted_attempts
  obtain ⟨session, sent, number⟩ := script_second interrupted continues
  have wholePrepared : (firstVisit : Visit Unit).prepared interrupted capabilityFreshness () cutLayout
      (fun _ => cutIo) = .ok whole := wholeReady
  have resumedPrepared : (secondVisit interrupted left).prepared interrupted capabilityFreshness ()
      cutLayout (fun _ => cutIo) = .ok resumed := by
    rw [Visit.prepared, session, sent]
    exact resumedReady
  have final : (secondVisit interrupted left).outcome interrupted capabilityFreshness () cutLayout
      (fun _ => cutIo) = (.ok ⟨"downloads/f", [1, 2, 3, 4]⟩, none, cutLog) := by
    rw [Visit.outcome, session, sent]
    exact second
  have stops : (secondVisit interrupted left).retries interrupted RetryPolicy.default
      capabilityFreshness () cutLayout (fun _ => cutIo) = none := by
    rw [Visit.retries, final]
  have shape : visits interrupted RetryPolicy.default capabilityFreshness () cutLayout
      (fun _ => cutIo) firstVisit = [firstVisit, secondVisit interrupted left] := by
    rw [script_visits first,
      visits_eq interrupted _ _ _ _ _ (secondVisit interrupted left), stops]
  have here : secondVisit interrupted left ∈ visits interrupted RetryPolicy.default
      capabilityFreshness () cutLayout (fun _ => cutIo) firstVisit := by
    rw [shape]
    simp
  refine ⟨secondVisit interrupted left, here, resumed, resumedPrepared,
    (resumes_justified interrupted RetryPolicy.default capabilityFreshness () cutLayout
      (fun _ => cutIo) ?_ ?_).1 _ here resumed resumedPrepared (by rw [session]; simp)⟩
  · intro visit mem _ prepared ready
    rw [shape] at mem
    rcases List.mem_cons.mp mem with rfl | mem
    · rw [wholePrepared] at ready
      cases ready
      rw [wholeLog]
      exact interrupted_evident.1
    · rw [List.mem_singleton.mp mem, resumedPrepared] at ready
      cases ready
      rw [resumedLog]
      exact interrupted_evident.2
  · intro visit mem goes prepared total response ready known answered
    rw [shape] at mem
    rcases List.mem_cons.mp mem with rfl | mem
    · rw [wholePrepared] at ready
      cases ready
      rw [wholeTotal] at known
      rw [wholeLog, wholeAsked] at answered
      cases known
      cases answered
      rw [wholeAsked]
      exact Or.inl (by decide)
    · obtain ⟨next, retried, _⟩ := goes
      rw [List.mem_singleton.mp mem, stops] at retried
      cases retried

end Scripts

end Downpour.ResumeRequests
