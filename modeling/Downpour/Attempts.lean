import Downpour.SinkBytes
import Downpour.SingleStream

/-!
The retry loop of a single stream as a list of attempts. An attempt first prepares a
session and a request and then runs the fetch. What a fetch does to its sink is a list
of calls. The history of a session stands next to it: the session as it was created
and the calls on its sink since then, and the files that this download has created and
not removed. No part of the program reads these three. Removal of a file succeeds.
-/

namespace Downpour.Attempts
open Ranges Remote Http H1H2 Retry JournalFormat Completion Sink SinkBytes SingleStream

/-! The calls that a fetch makes on its sink. -/

section Calls
variable (outside : Outside)

/-- The write of an accepted chunk. A chunk beyond the window is not written. -/
def acceptCalls (io : WriteIo) (sink : RangeSink StorageSink) (chunk : List UInt8) : List SinkCall :=
  match sink.limit.filter fun limit =>
      decide (limit < min (sink.written + chunk.length) (2 ^ 64 - 1)) with
  | some _ => []
  | none =>
    if sink.baseOffset + sink.written ≥ 2 ^ 64 then []
    else [.write (sink.baseOffset + sink.written) chunk io]

def bodyCalls (declaredType : Option (List Char)) (io : Nat → WriteIo) :
    Nat → Nat → RangeSink StorageSink → List (List UInt8) → List SinkCall
  | _, _, _, [] => []
  | index, delivered, sink, chunk :: rest =>
    if chunk = [] then bodyCalls declaredType io index delivered sink rest
    else if delivered = 0 ∧ bodyLooksLikeAWebPage declaredType chunk = true then []
    else
      acceptCalls (io index) sink chunk ++
        match sink.accept (writeAt outside (io index)) chunk with
        | (.error _, _) => []
        | (.ok (), after) =>
          bodyCalls declaredType io (index + 1) (min (delivered + chunk.length) (2 ^ 64 - 1)) after
            rest

def fetchCalls {Url : Type} (server : Server Url) (request : RangeRequest Url)
    (sink : RangeSink StorageSink) (io : Nat → WriteIo) (sent : List (Exchange Url)) :
    List SinkCall :=
  match server sent.length request with
  | .error _ => []
  | .ok response =>
    match checkResponse request response with
    | .error _ => []
    | .ok _ => bodyCalls outside response.contentType io 0 0 sink response.chunks

theorem calls_append (sink : StorageSink) (first second : List SinkCall) :
    calls outside sink (first ++ second) = calls outside (calls outside sink first) second :=
  List.foldl_append

inductive AcceptEnd (io : WriteIo) (sink : RangeSink StorageSink) (chunk : List UInt8) :
    Except SinkError Unit × RangeSink StorageSink → List SinkCall → Prop where
  | refused (error : SinkError) : AcceptEnd io sink chunk (.error error, sink) []
  | failed (error : SinkError) (target : StorageSink)
      (written : writeAt outside io sink.target (sink.baseOffset + sink.written) chunk =
        (.error error, target)) :
      AcceptEnd io sink chunk (.error error, { sink with target })
        [.write (sink.baseOffset + sink.written) chunk io]
  | accepted (target : StorageSink)
      (written : writeAt outside io sink.target (sink.baseOffset + sink.written) chunk =
        (.ok (), target)) :
      AcceptEnd io sink chunk
        (.ok (), { sink with target, written := min (sink.written + chunk.length) (2 ^ 64 - 1) })
        [.write (sink.baseOffset + sink.written) chunk io]

theorem accept_end (io : WriteIo) (sink : RangeSink StorageSink) (chunk : List UInt8) :
    AcceptEnd outside io sink chunk (sink.accept (writeAt outside io) chunk)
      (acceptCalls io sink chunk) := by
  unfold RangeSink.accept acceptCalls
  cases sink.limit.filter fun limit =>
      decide (limit < min (sink.written + chunk.length) (2 ^ 64 - 1)) with
  | some limit => exact .refused _
  | none =>
    by_cases large : sink.baseOffset + sink.written ≥ 2 ^ 64
    · simp only [if_pos large]
      exact .refused _
    · simp only [if_neg large]
      cases written : writeAt outside io sink.target (sink.baseOffset + sink.written) chunk with
      | mk result target =>
        cases result with
        | error error => exact .failed error target written
        | ok _ => exact .accepted target written

theorem accept_target (io : WriteIo) (sink : RangeSink StorageSink) (chunk : List UInt8) :
    (sink.accept (writeAt outside io) chunk).2.target =
      calls outside sink.target (acceptCalls io sink chunk) := by
  have ended := accept_end outside io sink chunk
  generalize sink.accept (writeAt outside io) chunk = result at ended ⊢
  generalize acceptCalls io sink chunk = made at ended ⊢
  cases ended with
  | refused error => rfl
  | failed error target written => simp [calls, call, written]
  | accepted target written => simp [calls, call, written]

theorem body_target (url : Url) (declaredType : Option (List Char))
    (promised : Option Nat) (ending : BodyEnd) (io : Nat → WriteIo) (chunks : List (List UInt8))
    (index delivered : Nat) (sink : RangeSink StorageSink) :
    (readBody (writeAt outside) url declaredType promised ending io index delivered sink
        chunks).2.target =
      calls outside sink.target (bodyCalls outside declaredType io index delivered sink chunks) := by
  induction chunks generalizing index delivered sink with
  | nil =>
    unfold readBody bodyCalls
    split
    · rfl
    · rfl
    · split <;> rfl
  | cons chunk rest ih =>
    unfold readBody bodyCalls
    by_cases empty : chunk = []
    · rw [if_pos empty, if_pos empty, ih]
    rw [if_neg empty, if_neg empty]
    by_cases page : delivered = 0 ∧ bodyLooksLikeAWebPage declaredType chunk = true
    · rw [if_pos page, if_pos page]
      rfl
    rw [if_neg page, if_neg page]
    have target := accept_target outside (io index) sink chunk
    rw [calls_append, ← target]
    rcases sink.accept (writeAt outside (io index)) chunk with ⟨error | _, after⟩
    · cases error <;> rfl
    · exact ih (index + 1) _ after

theorem fetch_target (server : Server Url) (request : RangeRequest Url)
    (sink : RangeSink StorageSink) (io : Nat → WriteIo) (sent : List (Exchange Url)) :
    (fetchRange (writeAt outside) server request sink io sent).2.1.target =
      calls outside sink.target (fetchCalls outside server request sink io sent) := by
  unfold fetchRange fetchCalls
  simp only
  cases server sent.length request with
  | error error => cases error <;> rfl
  | ok response =>
    simp only
    cases checkResponse request response with
    | error error => rfl
    | ok range =>
      simp only
      have target := body_target outside request.url response.contentType
        (promisedLength response range) response.ending io response.chunks 0 0 sink
      rw [← target]
      rcases readBody (writeAt outside) request.url response.contentType
        (promisedLength response range) response.ending io 0 0 sink response.chunks with
        ⟨error | delivered, after⟩
      · rfl
      · rfl

end Calls

/-! One attempt. -/

section Engine
variable {Url : Type} (env : Environment Url)

structure Prepared (Url : Type) where
  held : Session Url
  request : RangeRequest Url
  log : List (Exchange Url)

def prepareResume (held : Session Url) (log : List (Exchange Url)) :
    Except (Attempted Url) (Prepared Url) :=
  let begins := held.durablePrefixEnd
  match held.validator.ifRangeValue with
  | none => .error (.error (.incomplete held.artifacts.partPath none begins), some held, log)
  | some validator =>
    .ok ⟨{ held with
        sink := held.sink.rebase begins (held.totalLength.map fun total => total - begins) },
      RangeRequest.resume held.finalUrl (.from begins) validator, log⟩

def prepareStart (url : Url) (layout : StorageLayout) (io : AttemptIo) (sent : List (Exchange Url)) :
    Except (Attempted Url) (Prepared Url) :=
  match probe env.server env.join env.resolve (ProbeRequest.new url)
      io.probedAt sent with
  | (.error error, log) => .error (.error (.probe error), none, log)
  | (.ok remote, log) =>
    let name := remote.suggestedFilename.getD "download".toList
    let finalPath := layout.targetDir ++ "/" ++ String.ofList name
    match io.target with
    | .ok () => .error (.error (.targetExists finalPath), none, log)
    | .error source =>
      if source.kind ≠ .notFound then .error (.error (.io finalPath source), none, log)
      else
        let blake3 := env.outside.hashes.blake3
        let transferId := transferIdFor blake3 (env.urlText remote.finalUrl)
        match Sink.create env.outside env.intervalText finalPath
            (journalPathFor layout.journalDir transferId) remote.totalLength transferId
            (validatorHashOf blake3 remote.validator) remote.digest io.create with
        | .error source => .error (.error (.sink finalPath source), none, log)
        | .ok target =>
          .ok ⟨{ sink := RangeSink.new target 0 remote.totalLength
                 validator := remote.validator
                 recorded := remote
                 finalUrl := remote.finalUrl
                 totalLength := remote.totalLength
                 finalPath
                 artifacts := target.artifacts
                 lastObservedStatus := none },
            RangeRequest.whole remote.finalUrl, log⟩

def prepare [DecidableEq Url] (freshness : Nat) (url : Url) (layout : StorageLayout)
    (session : Option (Session Url)) (io : AttemptIo) (sent : List (Exchange Url)) :
    Except (Attempted Url) (Prepared Url) :=
  match session with
  | none => prepareStart env url layout io sent
  | some held =>
    let plan : ResumePlan Url :=
      ⟨held.recorded, io.now, held.finalUrl, none, held.lastObservedStatus⟩
    if (triggers freshness plan).isEmpty then prepareResume held sent
    else match refreshCapabilities env held io sent with
      | (.error error, log) => .error (.error error, none, log)
      | (.ok fresh, log) => prepareResume fresh log

def finish (io : AttemptIo) : Except (Attempted Url) (Prepared Url) → Attempted Url
  | .error result => result
  | .ok prepared => run env prepared.held prepared.request io prepared.log

theorem resume_from_prepared (held : Session Url) (io : AttemptIo) (log : List (Exchange Url)) :
    resumeFrom env held io log = finish env io (prepareResume held log) := by
  unfold resumeFrom prepareResume
  cases held.validator.ifRangeValue <;> rfl

theorem start_prepared (url : Url) (layout : StorageLayout) (io : AttemptIo)
    (sent : List (Exchange Url)) :
    start env url layout io sent =
      finish env io (prepareStart env url layout io sent) := by
  unfold start prepareStart
  rcases probe env.server env.join env.resolve (ProbeRequest.new url)
    io.probedAt sent with ⟨error | remote, log⟩
  · rfl
  · cases io.target with
    | ok _ => rfl
    | error source =>
      by_cases unclear : source.kind ≠ .notFound
      · simp only [if_pos unclear, finish]
      · simp only [if_neg unclear]
        cases Sink.create env.outside env.intervalText _ _ _ _ _ _ io.create <;> rfl

theorem attempt_prepared [DecidableEq Url] (freshness : Nat) (url : Url) (layout : StorageLayout)
    (session : Option (Session Url)) (io : AttemptIo) (sent : List (Exchange Url)) :
    attempt env freshness url layout session io sent =
      finish env io (prepare env freshness url layout session io sent) := by
  cases session with
  | none => exact start_prepared env url layout io sent
  | some held =>
    simp only [attempt, resume, prepare]
    by_cases current : (triggers freshness ⟨held.recorded, io.now, held.finalUrl, none,
        held.lastObservedStatus⟩).isEmpty = true
    · rw [if_pos current, if_pos current, resume_from_prepared]
    · rw [if_neg current, if_neg current]
      rcases refreshCapabilities env held io sent with ⟨error | fresh, log⟩
      · rfl
      · exact resume_from_prepared env fresh io log

def runCalls (prepared : Prepared Url) (io : AttemptIo) : List SinkCall :=
  fetchCalls env.outside env.server prepared.request prepared.held.sink io.writes
    prepared.log ++ [.sync io.sync]

/-! The loop. -/

/-- The beginning of an attempt, with the history of the session it carries. -/
structure Visit (Url : Type) where
  number : Nat
  session : Option (Session Url)
  sent : List (Exchange Url)
  born : Option (Session Url)
  past : List SinkCall
  files : List String

def firstVisit : Visit Url := ⟨0, none, [], none, [], []⟩

variable [DecidableEq Url] (policy : RetryPolicy) (freshness : Nat) (url : Url)
variable (layout : StorageLayout) (io : Nat → AttemptIo)

def Visit.prepared (visit : Visit Url) : Except (Attempted Url) (Prepared Url) :=
  prepare env freshness url layout visit.session (io visit.number) visit.sent

def Visit.outcome (visit : Visit Url) : Attempted Url :=
  attempt env freshness url layout visit.session (io visit.number) visit.sent

def Visit.calls (visit : Visit Url) : List SinkCall :=
  match visit.prepared env freshness url layout io with
  | .error _ => []
  | .ok prepared => runCalls env prepared (io visit.number)

def artifactPaths (artifacts : Artifacts) : List String :=
  artifacts.partPath :: artifacts.journalPath.toList

/-- The files of the download when an attempt has failed. A new session has created its
part file and a journal; a creation that fails is never retried. -/
def Visit.filesLeft (visit : Visit Url) : List String :=
  match visit.session, visit.prepared env freshness url layout io with
  | none, .ok prepared => visit.files ++ artifactPaths prepared.held.artifacts
  | _, _ => visit.files

/-- The attempt after this one: the session is carried on, or dropped with its files. -/
def Visit.next (visit : Visit Url) (left : Option (Session Url)) (log : List (Exchange Url)) :
    Visit Url :=
  let files := visit.filesLeft env freshness url layout io
  if resumable left then
    { number := visit.number + 1, session := left, sent := log
      born := visit.born <|>
        (visit.prepared env freshness url layout io).toOption.map Prepared.held
      past := visit.past ++ visit.calls env freshness url layout io
      files }
  else
    { number := visit.number + 1, session := none, sent := log, born := none, past := []
      files := files.filter fun path =>
        (left.map fun held => artifactPaths held.artifacts).all fun paths => !paths.contains path }

def Visit.retries (visit : Visit Url) : Option (Visit Url) :=
  match visit.outcome env freshness url layout io with
  | (.ok _, _, _) => none
  | (.error error, left, log) =>
    match transientKindOf error with
    | none => none
    | some kind =>
      match policy.decide (io visit.number).clock kind visit.number (retryAfterOf error) with
      | .giveUp => none
      | .retryAfter _ => some (visit.next env freshness url layout io left log)

variable {env policy freshness url layout io}

theorem retries_decided (visit : Visit Url)
    (retried : visit.retries env policy freshness url layout io = some next) :
    ∃ error left log kind delay,
      visit.outcome env freshness url layout io = (.error error, left, log) ∧
        transientKindOf error = some kind ∧
        policy.decide (io visit.number).clock kind visit.number (retryAfterOf error) =
          .retryAfter delay ∧ next = visit.next env freshness url layout io left log := by
  unfold Visit.retries at retried
  rcases ended : visit.outcome env freshness url layout io with ⟨error | _, left, log⟩
  · simp only [ended] at retried
    cases transient : transientKindOf error with
    | none => simp [transient] at retried
    | some kind =>
      simp only [transient] at retried
      cases decided : policy.decide (io visit.number).clock kind visit.number
          (retryAfterOf error) with
      | giveUp => simp [decided] at retried
      | retryAfter delay =>
        simp only [decided, Option.some.injEq] at retried
        exact ⟨error, left, log, kind, delay, rfl, transient, decided, retried.symm⟩
  · simp [ended] at retried

theorem retries_cases (visit next : Visit Url)
    (retried : visit.retries env policy freshness url layout io = some next) :
    visit.number < policy.maxRetries ∧
      ∃ error left log, visit.outcome env freshness url layout io = (.error error, left, log) ∧
        transientKindOf error ≠ none ∧ next = visit.next env freshness url layout io left log := by
  obtain ⟨error, left, log, kind, delay, ended, transient, decided, shape⟩ :=
    retries_decided visit retried
  exact ⟨(RetryPolicy.decide_retries _ decided).2, error, left, log, ended,
    by simp [transient], shape⟩

theorem next_number (visit : Visit Url) (left : Option (Session Url)) (log : List (Exchange Url)) :
    (visit.next env freshness url layout io left log).number = visit.number + 1 := by
  unfold Visit.next
  by_cases continues : resumable left = true
  · simp only [if_pos continues]
  · simp only [if_neg continues]

variable (env policy freshness url layout io)

def visits (visit : Visit Url) : List (Visit Url) :=
  visit :: match _retried : visit.retries env policy freshness url layout io with
    | none => []
    | some next => visits next
  termination_by policy.maxRetries - visit.number
  decreasing_by
    obtain ⟨below, error, left, log, _, _, rfl⟩ := retries_cases visit next _retried
    rw [next_number]
    omega

theorem visits_eq (visit : Visit Url) :
    visits env policy freshness url layout io visit = visit ::
      match visit.retries env policy freshness url layout io with
      | none => []
      | some next => visits env policy freshness url layout io next := by
  rw [visits]
  split
  next finished => rw [finished]
  next next retried => rw [retried]

variable {env policy freshness url layout io}

theorem visits_invariant (invariant : Visit Url → Prop) (visit : Visit Url)
    (step : ∀ earlier next, earlier ∈ visits env policy freshness url layout io visit →
      invariant earlier → earlier.retries env policy freshness url layout io = some next →
      invariant next)
    (start : invariant visit) :
    ∀ later ∈ visits env policy freshness url layout io visit, invariant later := by
  induction visit using visits.induct env policy freshness url layout io with
  | case1 visit ih =>
    intro later mem
    rw [visits_eq] at mem
    rcases List.mem_cons.mp mem with rfl | behind
    · exact start
    · cases retried : visit.retries env policy freshness url layout io with
      | none => simp [retried] at behind
      | some next =>
        rw [retried] at behind
        have here : visit ∈ visits env policy freshness url layout io visit := by
          rw [visits_eq]
          exact List.mem_cons_self
        refine ih next retried ?_ (step visit next here start retried) later behind
        intro earlier after inside
        apply step earlier after
        rw [visits_eq, retried]
        exact List.mem_cons_of_mem _ inside

theorem visits_next (reached : earlier ∈ visits env policy freshness url layout io visit)
    (retried : earlier.retries env policy freshness url layout io = some next) :
    next ∈ visits env policy freshness url layout io visit := by
  induction visit using visits.induct env policy freshness url layout io with
  | case1 visit ih =>
    rw [visits_eq] at reached ⊢
    rcases List.mem_cons.mp reached with rfl | behind
    · have head : next ∈ visits env policy freshness url layout io next := by
        rw [visits_eq]
        exact List.mem_cons_self
      rw [retried]
      exact List.mem_cons_of_mem _ head
    · cases follows : visit.retries env policy freshness url layout io with
      | none => simp [follows] at behind
      | some second =>
        rw [follows] at behind
        exact List.mem_cons_of_mem _ (ih second follows behind)

theorem loop_turn (visit : Visit Url) :
    downloadLoop env policy freshness url layout io visit.number visit.session visit.sent =
      match visit.retries env policy freshness url layout io with
      | none => ((visit.outcome env freshness url layout io).1,
          (visit.outcome env freshness url layout io).2.2)
      | some next =>
        downloadLoop env policy freshness url layout io next.number next.session
          next.sent := by
  -- One turn of the loop.
  rw [downloadLoop]
  unfold Visit.retries Visit.outcome
  rcases attempt env freshness url layout visit.session (io visit.number) visit.sent with
    ⟨error | delivered, left, log⟩
  · simp only
    cases transientKindOf error with
    | none => rfl
    | some kind =>
      simp only
      split
      next decided => rw [decided]
      next delay decided =>
        rw [decided]
        unfold Visit.next
        by_cases continues : resumable left = true
        · simp only [if_pos continues]
        · simp only [if_neg continues]
  · rfl

theorem visits_end :
    ∀ later ∈ visits env policy freshness url layout io visit,
      downloadLoop env policy freshness url layout io later.number later.session later.sent =
        downloadLoop env policy freshness url layout io visit.number visit.session
          visit.sent := by
  apply visits_invariant (fun later =>
    downloadLoop env policy freshness url layout io later.number later.session later.sent =
      downloadLoop env policy freshness url layout io visit.number visit.session visit.sent)
  · intro earlier next _ same retried
    rw [← same, loop_turn earlier, retried]
  · rfl

variable (env policy freshness url layout io)

theorem loop_last (visit : Visit Url) :
    ∃ before last, visits env policy freshness url layout io visit = before ++ [last] ∧
      (∀ earlier ∈ before,
        (earlier.retries env policy freshness url layout io).isSome = true) ∧
      downloadLoop env policy freshness url layout io visit.number visit.session visit.sent =
        ((last.outcome env freshness url layout io).1,
          (last.outcome env freshness url layout io).2.2) := by
  -- The loop returns what its last attempt returned; every attempt before was retried.
  induction visit using visits.induct env policy freshness url layout io with
  | case1 visit ih =>
    rw [visits_eq, loop_turn]
    cases retried : visit.retries env policy freshness url layout io with
    | none => exact ⟨[], visit, rfl, by simp, rfl⟩
    | some next =>
      obtain ⟨before, last, shape, every, returned⟩ := ih next retried
      refine ⟨visit :: before, last, by simp only [shape]; rfl, ?_, returned⟩
      intro earlier mem
      rcases List.mem_cons.mp mem with rfl | behind
      · rw [retried]
        rfl
      · exact every earlier behind

theorem download_last :
    ∃ before last, visits env policy freshness url layout io firstVisit = before ++ [last] ∧
      last ∈ visits env policy freshness url layout io firstVisit ∧
      (∀ earlier ∈ before,
        (earlier.retries env policy freshness url layout io).isSome = true) ∧
      download env policy freshness url layout io =
        ((last.outcome env freshness url layout io).1,
          (last.outcome env freshness url layout io).2.2) := by
  obtain ⟨before, last, shape, every, returned⟩ :=
    loop_last env policy freshness url layout io firstVisit
  exact ⟨before, last, shape, by rw [shape]; simp, every, returned⟩

end Engine

end Downpour.Attempts
