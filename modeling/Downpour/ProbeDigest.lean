import Downpour.ChangeAlarm

/-!
The digest that a download compares its file with. It is taken from the response that
concludes the probe. `Repr-Digest` describes the representation, `Content-Digest` the
content of that one response, which for a ranged probe is a single byte.
-/

namespace Downpour.ProbeDigest
open Text Ranges Remote Http H1H2 Probing Retry Intervals Writer Completion Naming Sink SinkBytes
open SingleStream Attempts SessionTrace SessionInvariant ChangeAlarm

/-! What a header of digests says. -/

variable {offered : ContentDigest} {hashes : Hashes}

theorem stronger_either (chosen : ContentDigest.stronger best candidate = some offered) :
    best = some offered ∨ candidate = offered := by
  unfold ContentDigest.stronger at chosen
  split at chosen
  · exact Or.inr (Option.some.inj chosen)
  · split at chosen
    · exact Or.inr (Option.some.inj chosen)
    · exact Or.inl chosen

theorem strongest_member (candidates : List ContentDigest)
    (chosen : candidates.foldl ContentDigest.stronger best = some offered) :
    best = some offered ∨ offered ∈ candidates := by
  induction candidates generalizing best with
  | nil => exact Or.inl chosen
  | cons candidate rest ih =>
    rcases ih chosen with early | later
    · rcases stronger_either early with kept | rfl
      · exact Or.inl kept
      · exact Or.inr List.mem_cons_self
    · exact Or.inr (List.mem_cons_of_mem _ later)

def Digests (hashes : Hashes) (header : List Char) (bytes : List UInt8) : Prop :=
  ∀ mem ∈ splitAll ',' header, ∀ offered, ContentDigest.parseMember mem = some offered →
    hashes.base64 offered.encoded = some (serverHash hashes bytes offered.algorithm)

theorem parse_digests
    (described : Digests hashes header bytes) (parsed : ContentDigest.parse header = some offered) :
    hashes.base64 offered.encoded = some (serverHash hashes bytes offered.algorithm) := by
  rcases strongest_member _ parsed with impossible | found
  · cases impossible
  · obtain ⟨mem, inside, read⟩ := List.mem_filterMap.mp found
    exact described mem inside offered read

structure Conforms (hashes : Hashes) (representation : List UInt8) (response : Response) : Prop where
  repr : ∀ header, response.reprDigest = some header → Digests hashes header representation
  content : ∀ header, response.contentDigest = some header → response.ending = .finished →
    Digests hashes header response.chunks.flatten

def Sized (hashes : Hashes) : Prop :=
  ∀ content algorithm, (serverHash hashes content algorithm).length = digestLength algorithm

def offeredDigest (response : Response) : Option ContentDigest :=
  (response.reprDigest <|> response.contentDigest).bind ContentDigest.parse

/-- The digest of the response is one of the whole representation, or there is none. -/
def Fits (hashes : Hashes) (representation : List UInt8) (response : Response) : Prop :=
  response.reprDigest.isSome = true ∨
    ∀ offered, response.contentDigest.bind ContentDigest.parse = some offered →
      serverHash hashes response.chunks.flatten offered.algorithm =
        serverHash hashes representation offered.algorithm

theorem check_digest_iff (padded : Padded hashes) (sized : Sized hashes)
    (conforms : Conforms hashes representation response) (finished : response.ending = .finished) :
    (∃ outcome, checkDigest hashes representation (offeredDigest response) = .ok outcome) ↔
      Fits hashes representation response := by
  rw [check_digest_ok padded]
  cases repr : response.reprDigest with
  | some header =>
    simp only [Fits, repr, Option.isSome_some, true_or, iff_true]
    intro offered expected parsed decoded _
    rw [offeredDigest, repr] at parsed
    have stated := parse_digests (conforms.repr header repr) parsed
    rw [decoded] at stated
    exact Option.some.inj stated
  | none =>
    have source : offeredDigest response = response.contentDigest.bind ContentDigest.parse := by
      simp [offeredDigest, repr]
    simp only [Fits, repr, Option.isSome_none, Bool.false_eq_true, false_or, source]
    have stated : ∀ offered, response.contentDigest.bind ContentDigest.parse = some offered →
        hashes.base64 offered.encoded =
          some (serverHash hashes response.chunks.flatten offered.algorithm) := by
      intro offered taken
      obtain ⟨header, present, parsed⟩ := Option.bind_eq_some_iff.mp taken
      exact parse_digests (conforms.content header present finished) parsed
    constructor
    · intro matching offered taken
      exact matching offered _ taken (stated offered taken) (sized _ _)
    · intro same offered expected taken decoded _
      rw [stated offered taken] at decoded
      rw [← Option.some.inj decoded]
      exact same offered taken

/-! What a completion reports. -/

def refusal (outside : Outside) (finalPath : String) (io : CompletionIo) (sink : StorageSink) :
    Option CompletionError :=
  match sink.backing with
  | .journalled writer intervals _ =>
    if writer.staged ≠ [] then none
    else match (verifyAndRename outside.hashes outside.crc32c sink.content finalPath
        intervals.totalLength intervals sink.digest writer.journalBytes writer.nextSequence io).1 with
      | .error error => some error
      | .ok _ => none
  | .lengthless _ => none

theorem refusal_complete (refused : refusal outside finalPath io sink = some error) :
    (complete outside finalPath io sink).1 = .error (completionError outside error) := by
  rcases sink with ⟨⟨writer, intervals, disk⟩ | part, artifacts, digest⟩
  · simp only [refusal, complete] at refused ⊢
    by_cases staged : writer.staged ≠ []
    · simp [if_pos staged] at refused
    · simp only [if_neg staged] at refused ⊢
      generalize verifyAndRename outside.hashes outside.crc32c _ finalPath intervals.totalLength
        intervals digest writer.journalBytes writer.nextSequence io = outcome at refused ⊢
      rcases outcome with ⟨source | sealing, events⟩
      · cases refused
        rfl
      · cases refused
  · cases refused

theorem check_digest_error (failed : checkDigest hashes content digest = .error error) :
    ∃ algorithm, error = .digestMismatch algorithm := by
  unfold checkDigest at failed
  split at failed
  · cases failed
  next offered =>
    split at failed
    · cases failed
    · split at failed
      · cases failed
      · cases failed
        exact ⟨offered.algorithm, rfl⟩

theorem seal_error (crc32c : List UInt8 → UInt32) (finalPath : String)
    (finalBlake3 : JournalFormat.Digest) (digestChecked : DigestOutcome)
    (journalBytes nextSequence : Nat) (io : CompletionIo) (algorithm : DigestAlgorithm) :
    (sealAndRename crc32c finalPath finalBlake3 digestChecked journalBytes nextSequence io).1 ≠
      .error (.digestMismatch algorithm) := by
  unfold sealAndRename
  repeat' split
  all_goals exact nofun

theorem verify_mismatch_iff (hashes : Hashes) (crc32c : List UInt8 → UInt32)
    (finalPath : String) (digest : Option ContentDigest)
    (journalBytes nextSequence : Nat) (io : CompletionIo) (length : content.length = total)
    (covered : checkCoverage intervals total = .ok ()) :
    (∃ algorithm, (verifyAndRename hashes crc32c content finalPath total intervals digest
      journalBytes nextSequence io).1 = .error (.digestMismatch algorithm)) ↔
      Readable io ∧ ¬ ∃ outcome, checkDigest hashes content digest = .ok outcome := by
  unfold verifyAndRename
  cases measured : io.measured with
  | some source =>
    simp only [reduceCtorEq, Except.error.injEq, exists_false, false_iff, not_and]
    exact fun readable => absurd readable.measured (by simp [measured])
  | none =>
    simp only [length, ne_eq, not_true_eq_false, if_false, covered]
    cases opened : io.opened with
    | some source =>
      simp only [reduceCtorEq, Except.error.injEq, exists_false, false_iff, not_and]
      exact fun readable => absurd readable.opened (by simp [opened])
    | none =>
      cases read : io.read with
      | some source =>
        simp only [reduceCtorEq, Except.error.injEq, exists_false, false_iff, not_and]
        exact fun readable => absurd readable.read (by simp [read])
      | none =>
        have readable : Readable io := ⟨measured, opened, read⟩
        cases checked : checkDigest hashes content digest with
        | ok outcome =>
          simp only [Except.ok.injEq, exists_eq', not_true_eq_false, and_false, iff_false,
            not_exists]
          exact fun algorithm => seal_error _ _ _ _ _ _ _ algorithm
        | error error =>
          obtain ⟨algorithm, rfl⟩ := check_digest_error checked
          simp [readable]

/-! The sink of a transfer that has succeeded. -/

theorem flush_settled (crc32c : List UInt8 → UInt32) (writer : DurableWriter)
    (intervals : IntervalMap) (io : FlushIo) (blocks : List DurableBlock)
    (flushed : (flush crc32c writer intervals io).result = .ok blocks) :
    (flush crc32c writer intervals io).writer.staged = [] ∧
      (flush crc32c writer intervals io).writer.dataLength =
        (flush crc32c writer intervals io).intervals.totalLength := by
  have ended := flush_end crc32c writer intervals io
  have length : writer.dataLength = intervals.totalLength := by
    by_contra differs
    unfold flush at flushed
    split at flushed
    · cases flushed
    · rw [if_pos (Ne.symm differs)] at flushed
      cases flushed
  generalize flush crc32c writer intervals io = outcome at ended flushed ⊢
  cases ended with
  | idle _ empty => exact ⟨empty, length⟩
  | committed next io _ _ owned _ _ =>
    exact ⟨rfl, length.trans (complete_all_completes _ _ _ owned).totalLength.symm⟩
  | _ => cases flushed

theorem sync_settled (synced : (Sink.sync outside io sink).1 = .ok ())
    (backing : (Sink.sync outside io sink).2.backing = .journalled writer intervals disk) :
    writer.staged = [] ∧ writer.dataLength = intervals.totalLength := by
  rcases sink with ⟨⟨before, map, old⟩ | part, artifacts, digest⟩
  · simp only [Sink.sync] at synced backing
    split at synced
    next blocks succeeded =>
      have settled := flush_settled outside.crc32c before map io.flush blocks succeeded
      cases backing
      exact settled
    next => cases synced
  · simp only [Sink.sync] at backing
    split at backing
    · cases backing
    · cases backing

section Engine
variable {Url : Type} (env : Environment Url)

theorem arrives_full (arrived : arrives env prepared io = true) :
    ∃ outcome sink log, fetchRange (writeAt env.outside) env.server prepared.request
        prepared.held.sink io.writes prepared.log = (.ok outcome, sink, log) ∧
      (Sink.sync env.outside io.sync sink.target).1 = .ok () ∧
      ∀ total, prepared.held.totalLength = some total → sink.nextOffset = total := by
  unfold arrives at arrived
  generalize fetchRange (writeAt env.outside) env.server prepared.request
    prepared.held.sink io.writes prepared.log = fetched at arrived ⊢
  obtain ⟨result, sink, log⟩ := fetched
  simp only at arrived
  rcases synced : (Sink.sync env.outside io.sync sink.target).1 with error | _
  · simp [synced, fullLength] at arrived
  · cases result with
    | error error => simp [fullLength, synced] at arrived
    | ok outcome =>
      refine ⟨outcome, sink, log, rfl, synced, fun total known => ?_⟩
      by_contra differs
      simp [fullLength, synced, known, differs] at arrived

theorem arrived_settled (known : prepared.held.totalLength = some total) (small : total < 2 ^ 63)
    (striped : StripedSink prepared.held.sink.target total done done)
    (window : prepared.held.sink.baseOffset + prepared.held.sink.written = done)
    (arrived : arrives env prepared io = true) :
    ∃ writer intervals disk, (written env prepared io).backing = .journalled writer intervals disk ∧
        writer.staged = [] ∧ writer.dataLength = intervals.totalLength ∧
        checkCoverage intervals intervals.totalLength = .ok () := by
  obtain ⟨outcome, sink, log, fetched, synced, full⟩ := arrives_full env arrived
  have target := fetch_target env.outside env.server prepared.request
    prepared.held.sink io.writes prepared.log
  rw [fetched] at target
  have committed : written env prepared io =
      (Sink.sync env.outside io.sync sink.target).2 := by
    rw [written, runCalls, calls_append, ← target]
    rfl
  obtain ⟨reached, _, after, shape⟩ := run_striped env striped window
    (by rw [← target]; exact synced) (by rw [fetched]; simp)
  have final : reached = total := by
    have offset := full total known
    rw [fetched] at shape
    rw [RangeSink.nextOffset] at offset
    simp only at shape
    omega
  subst final
  obtain ⟨writer, intervals, disk, backing, stripes⟩ := after
  have settled := sync_settled synced (by rw [← committed]; exact backing)
  refine ⟨writer, intervals, disk, backing, settled.1, settled.2, ?_⟩
  rw [check_coverage_ok _ (by rw [stripes.total]; omega)]
  refine ⟨rfl, fun pos inside => (stripes.complete pos).mpr ?_⟩
  rwa [stripes.total] at inside

theorem probe_offered {server : Server Url} {join : Url → List Char → Option Url}
    {resolve : Option (List Char) → Url → List Char} {request : ProbeRequest Url} {now : Nat}
    {sent log : List (Exchange Url)} {remote : RemoteObject Url}
    (probed : probe server join resolve request now sent = (.ok remote, log)) :
    ∃ before exchange response, log = before ++ [exchange] ∧
      server before.length exchange.request = .ok response ∧
      (response.status = 200 ∨ response.status = 206) ∧ response.ending = .finished ∧
      remote.digest = offeredDigest response := by
  have concluded := (probe_concluded server join resolve request now sent).learned
  rw [probed] at concluded
  obtain ⟨before, exchange, response, current, chain, withRange, shape, answered, _, status,
    conclusion⟩ := concluded remote rfl
  refine ⟨before, exchange, response, shape, answered, status, ?_⟩
  unfold probeConclusion at conclusion
  repeat' split at conclusion
  all_goals cases conclusion
  all_goals exact ⟨by assumption, rfl⟩

variable [DecidableEq Url] (policy : RetryPolicy) (freshness : Nat) (url : Url)
variable (layout : StorageLayout) (io : Nat → AttemptIo)

/-- The attempt that created the session, and the session as it was created. -/
structure Opened (opening : Visit Url) (created : Prepared Url) : Prop where
  reached : opening ∈ visits env policy freshness url layout io firstVisit
  fresh : opening.session = none
  ready : opening.prepared env freshness url layout io = .ok created

variable {env policy freshness url layout io}

theorem visits_opened :
    ∀ visit ∈ visits env policy freshness url layout io firstVisit,
      visit.session ≠ none → ∃ opening created,
        Opened env policy freshness url layout io opening created ∧
          visit.born = some created.held := by
  apply visits_invariant (fun visit =>
    visit.session ≠ none → ∃ opening created,
      Opened env policy freshness url layout io opening created ∧
        visit.born = some created.held)
  · intro visit next reached before retried carried
    rcases next_session retried with
      ⟨dropped, _⟩ | ⟨prepared, sink, status, log, ran, continues, rfl⟩
    · exact absurd dropped carried
    · simp only [Visit.next, if_pos continues, ran.ready]
      cases session : visit.session with
      | none =>
        have unborn := (visits_resting visit reached).1
        rw [Resting, session] at unborn
        rw [unborn.1]
        exact ⟨visit, prepared, ⟨reached, session, ran.ready⟩, rfl⟩
      | some held =>
        obtain ⟨opening, created, opened, born⟩ := before (by simp [session])
        rw [born]
        exact ⟨opening, created, opened, rfl⟩
  · exact fun carried => absurd rfl carried

variable (env policy freshness url layout io)

/-- The response from which the session of the attempt has its digest: the last one that
the probe of the creating attempt has received. -/
def ProbeAnswer (visit : Visit Url) (prepared : Prepared Url) (response : Response) : Prop :=
  ∃ opening created before exchange,
    Opened env policy freshness url layout io opening created ∧
      visit.born.getD prepared.held = created.held ∧ created.log = before ++ [exchange] ∧
      env.server before.length exchange.request = .ok response

variable {env policy freshness url layout io}

theorem session_answer (reached : visit ∈ visits env policy freshness url layout io firstVisit)
    (ready : visit.prepared env freshness url layout io = .ok prepared) :
    ∃ opening created, Opened env policy freshness url layout io opening created ∧
      visit.born.getD prepared.held = created.held := by
  cases session : visit.session with
  | none =>
    have unborn := (visits_resting visit reached).1
    rw [Resting, session] at unborn
    rw [unborn.1]
    exact ⟨visit, prepared, ⟨reached, session, ready⟩, rfl⟩
  | some held =>
    obtain ⟨opening, created, opened, born⟩ := visits_opened visit reached (by simp [session])
    rw [born]
    exact ⟨opening, created, opened, rfl⟩

theorem written_digest {visit : Visit Url} {prepared : Prepared Url}
    (reached : visit ∈ visits env policy freshness url layout io firstVisit)
    (ready : visit.prepared env freshness url layout io = .ok prepared) :
    ∃ response, ProbeAnswer env policy freshness url layout io visit prepared response ∧
      (∃ index exchange, (download env policy freshness url layout io).2[index]? =
          some exchange ∧ env.server index exchange.request = .ok response) ∧
      (response.status = 200 ∨ response.status = 206) ∧ response.ending = .finished ∧
      (written env prepared (io visit.number)).digest = offeredDigest response := by
  obtain ⟨opening, created, opened, origin⟩ := session_answer reached ready
  obtain ⟨born, done, begun⟩ := prepared_begun (visits_resting visit reached).1 ready
  have started : prepareStart env url layout (io opening.number) opening.sent = .ok created := by
    have start := opened.ready
    simpa only [Visit.prepared, prepare, opened.fresh] using start
  obtain ⟨probed, _, digest⟩ := start_probed env started
  obtain ⟨before, exchange, response, shape, answered, status, finished, offered⟩ :=
    probe_offered probed
  refine ⟨response, ⟨opening, created, before, exchange, opened, origin, shape, answered⟩,
    ⟨before.length, exchange, ?_, answered⟩, status, finished, ?_⟩
  · have logged := visits_logged opening opened.reached
    rw [outcome_prepared, opened.ready, finish, Splice.run_logged, shape] at logged
    rw [Splice.found_later logged _ (by simp)]
    simp
  · rw [written, (calls_keep env.outside _ _).2, begun.traced.target,
      (calls_keep env.outside _ _).2, ← begun.origin, origin, digest, offered]

end Engine

/-- A completed transfer of exactly the representation, from a server whose digests
conform: it is not refused for its digest exactly if the digest was taken from a
`Repr-Digest`, from no digest at all, or from a content with the hash of the whole. -/
theorem honest_digest_iff {Url : Type} [DecidableEq Url] (env : Environment Url)
    (policy : RetryPolicy) (freshness : Nat) (url : Url) (layout : StorageLayout)
    (io : Nat → AttemptIo) (representation : List UInt8) (padded : Padded env.outside.hashes)
    (sized : Sized env.outside.hashes)
    (conforms : Answered env.server (download env policy freshness url layout io).2
      fun _ response => response.status = 200 ∨ response.status = 206 →
        Conforms env.outside.hashes representation response)
    (visit : Visit Url)
    (reached : visit ∈ visits env policy freshness url layout io firstVisit)
    (prepared : Prepared Url)
    (ready : visit.prepared env freshness url layout io = .ok prepared)
    (arrived : arrives env prepared (io visit.number) = true)
    (intact : (written env prepared (io visit.number)).content = representation) :
    ∃ response, ProbeAnswer env policy freshness url layout io visit prepared response ∧
      ((∀ algorithm, refusal env.outside prepared.held.finalPath (io visit.number).completion
          (written env prepared (io visit.number)) ≠ some (.digestMismatch algorithm)) ↔
        prepared.held.totalLength = none ∨ ¬ Readable (io visit.number).completion ∨
          Fits env.outside.hashes representation response) := by
  obtain ⟨response, answer, ⟨index, exchange, found, answered⟩, status, finished, digest⟩ :=
    written_digest reached ready
  refine ⟨response, answer, ?_⟩
  obtain ⟨born, done, begun⟩ := prepared_begun (visits_resting visit reached).1 ready
  have honest := conforms index exchange response found answered status
  have fits := check_digest_iff padded sized honest finished
  cases known : prepared.held.totalLength with
  | none =>
    -- The backing of an unknown length verifies nothing.
    have kind : journalled (written env prepared (io visit.number)) = false := by
      rw [written, (calls_keep env.outside _ _).1, begun.traced.target,
        (calls_keep env.outside _ _).1]
      exact begun.traced.founded.unknown (begun.traced.total ▸ known)
    simp only [true_or, iff_true]
    intro algorithm refused
    unfold refusal at refused
    unfold journalled at kind
    split at refused
    next backing => simp [backing] at kind
    next => cases refused
  | some total =>
    obtain ⟨_, striped⟩ := begun.traced.sequential total (begun.traced.total ▸ known)
    obtain ⟨writer, intervals, disk, backing, staged, length, covered⟩ :=
      arrived_settled env known
        (begun.traced.founded.known total (begun.traced.total ▸ known)).2 striped begun.window arrived
    have measured : representation.length = intervals.totalLength := by
      rw [← intact, StorageSink.content, backing, ← length]
      simp
    have mismatch := verify_mismatch_iff env.outside.hashes env.outside.crc32c
      prepared.held.finalPath (offeredDigest response)
      writer.journalBytes writer.nextSequence (io visit.number).completion measured covered
    have reported : ∀ algorithm, refusal env.outside prepared.held.finalPath
        (io visit.number).completion (written env prepared (io visit.number)) =
          some (.digestMismatch algorithm) ↔
        (verifyAndRename env.outside.hashes env.outside.crc32c representation
          prepared.held.finalPath intervals.totalLength intervals (offeredDigest response)
          writer.journalBytes writer.nextSequence (io visit.number).completion).1 =
          .error (.digestMismatch algorithm) := by
      intro algorithm
      simp only [refusal, backing, staged, ne_eq, not_true_eq_false, if_false, intact, digest]
      split
      next error failed => rw [failed]; simp
      next sealing named => rw [named]; simp
    rw [fits] at mismatch
    simp only [ne_eq, reported, ← not_exists, mismatch, not_and_or, not_not, reduceCtorEq, false_or]

/-! A file of four bytes, probed by its first byte. -/

theorem known_sized : Sized knownHashes := by
  have rows : ∀ row ∈ knownDigests, row.2.1.length = 32 := by decide +kernel
  intro content algorithm
  cases algorithm with
  | sha512 => simp [serverHash, knownHashes, digestLength]
  | sha256 =>
    simp only [serverHash, knownHashes, digestLength]
    cases found : knownDigests.find? fun row => row.1 == content with
    | none => simp
    | some row => exact rows row (List.mem_of_find?_eq_some found)

def byteText : List Char := "S/USLzRFVMU73i67jNK349FgCtYxw4Wl18ziPHeFRZo=".toList

def fileText : List Char := "n2SnR+G5fxMfq7a0Rylsm28CAeefs8U1bmx36JtqgGo=".toList

def digestHeader (text : List Char) : List Char := "sha-256=:".toList ++ text ++ [':']

/-- The probe is answered with one byte and the digest of that byte, and with a digest of
the representation where `described` is set; everything else with the whole file. -/
def digestServer (described : Bool) : Server Unit := fun index _ =>
  match index with
  | 0 => .ok { Splice.plainResponse 206 Splice.oldFile with
      contentRange := some "bytes 0-0/4".toList, chunks := [[1]]
      reprDigest := if described then some (digestHeader fileText) else none
      contentDigest := some (digestHeader byteText) }
  | _ => .ok { Splice.plainResponse 200 Splice.oldFile with
      contentLength := some ['4'], chunks := [[1, 2, 3, 4]] }

def digestEnvironment (described : Bool) : Environment Unit :=
  { Splice.cutEnvironment Splice.oldFile with
    server := digestServer described
    outside :=
      { hashes := knownHashes
        crc32c := fun _ => 0
        writerText := fun _ => ""
        partText := fun _ => ""
        fileName := lastComponent
        completionText := fun error => match error with
          | .digestMismatch _ => "the digest of the server does not match"
          | _ => "" } }

def digestLog : List (Exchange Unit) :=
  [⟨true, ⟨(), some (.fromTo 0 0), none, [], 15000000000⟩⟩, ⟨false, RangeRequest.whole ()⟩]

theorem digest_probe (described : Bool) :
    probe (digestEnvironment described).server (digestEnvironment described).join
      (digestEnvironment described).resolve (ProbeRequest.new ()) Splice.cutIo.probedAt [] =
    (.ok ⟨(), [()], some 4, .proven ⟨4, .bytes 0 0 (some 4), .fromTo 0 0,
        ⟨.fromTo 0 0, 206, some "bytes 0-0/4".toList, none, 1⟩⟩, .strongETag (Splice.tagged 'A'),
        some ⟨.sha256, if described then fileText else byteText⟩, .http11, some ['f'], 0⟩,
      digestLog.take 1) := by
  cases described <;> rw [probe, probeLoop] <;> rfl

theorem digest_attempt (described : Bool) :
    ∃ prepared, firstVisit.prepared (digestEnvironment described) capabilityFreshness ()
        Splice.cutLayout (fun _ => Splice.cutIo) = .ok prepared ∧
      prepared.held.totalLength = some 4 ∧
      arrives (digestEnvironment described) prepared Splice.cutIo = true ∧
      (written (digestEnvironment described) prepared Splice.cutIo).content = [1, 2, 3, 4] ∧
      refusal (digestEnvironment described).outside prepared.held.finalPath Splice.cutIo.completion
        (written (digestEnvironment described) prepared Splice.cutIo) =
        if described then none else some (.digestMismatch .sha256) := by
  simp only [Visit.prepared, firstVisit, prepare, prepareStart]
  rw [digest_probe described]
  cases described
  · exact ⟨_, rfl, rfl, by decide +kernel, by decide +kernel, by decide +kernel⟩
  · exact ⟨_, rfl, rfl, by decide +kernel, by decide +kernel, by decide +kernel⟩

theorem digest_returns (described : Bool) :
    download (digestEnvironment described) RetryPolicy.default capabilityFreshness () Splice.cutLayout
      (fun _ => Splice.cutIo) =
    (if described then .ok ⟨"downloads/f", [1, 2, 3, 4]⟩
      else .error (.unverified "downloads/f.dppart" (completionError
        (digestEnvironment described).outside (.digestMismatch .sha256))), digestLog) := by
  rw [download, downloadLoop, attempt, start, digest_probe described]
  cases described
  · rfl
  · rfl

theorem header_digests (bytes : List UInt8)
    (single : splitAll ',' (digestHeader text) = [digestHeader text])
    (read : ContentDigest.parseMember (digestHeader text) = some ⟨.sha256, text⟩)
    (decoded : knownHashes.base64 text = some (knownHashes.sha256 bytes)) :
    Digests knownHashes (digestHeader text) bytes := by
  intro mem inside offered parsed
  rw [single, List.mem_singleton] at inside
  subst inside
  rw [read] at parsed
  cases parsed
  exact decoded

theorem digest_conforms (described : Bool) (log : List (Exchange Unit)) :
    Answered (digestServer described) log fun _ response =>
      response.status = 200 ∨ response.status = 206 →
        Conforms knownHashes [1, 2, 3, 4] response := by
  intro index exchange response _ answered _
  match index with
  | 0 =>
    cases answered
    constructor
    · intro header given
      cases described
      · cases given
      · cases given
        exact header_digests [1, 2, 3, 4] (by decide +kernel) (by decide +kernel)
          (by decide +kernel)
    · rintro header ⟨⟩ _
      exact header_digests [1] (by decide +kernel) (by decide +kernel) (by decide +kernel)
  | rest + 1 =>
    cases answered
    exact ⟨nofun, nofun⟩

/-- The digest of one byte is compared with the hash of the file: a server that conforms
and a part file with exactly the representation, refused. -/
theorem content_digest_condemns :
    download (digestEnvironment false) RetryPolicy.default capabilityFreshness () Splice.cutLayout
        (fun _ => Splice.cutIo) =
      (.error (.unverified "downloads/f.dppart" (completionError (digestEnvironment false).outside
        (.digestMismatch .sha256))), digestLog) ∧
    (Answered (digestEnvironment false).server digestLog fun _ response =>
      response.status = 200 ∨ response.status = 206 → Conforms knownHashes [1, 2, 3, 4] response) ∧
    ∃ prepared, firstVisit.prepared (digestEnvironment false) capabilityFreshness ()
        Splice.cutLayout (fun _ => Splice.cutIo) = .ok prepared ∧
      (written (digestEnvironment false) prepared Splice.cutIo).content = [1, 2, 3, 4] := by
  obtain ⟨prepared, ready, _, _, intact, _⟩ := digest_attempt false
  exact ⟨digest_returns false, digest_conforms false digestLog, prepared, ready, intact⟩

/-- With a digest of the representation beside it the file is accepted. -/
theorem repr_digest_accepted :
    ∃ prepared response, ProbeAnswer (digestEnvironment true) RetryPolicy.default capabilityFreshness
        () Splice.cutLayout (fun _ => Splice.cutIo) firstVisit prepared response ∧
      Fits knownHashes [1, 2, 3, 4] response := by
  obtain ⟨prepared, ready, known, arrived, intact, accepted⟩ := digest_attempt true
  obtain ⟨response, answer, refused⟩ := honest_digest_iff (digestEnvironment true)
    RetryPolicy.default capabilityFreshness () Splice.cutLayout (fun _ => Splice.cutIo) [1, 2, 3, 4]
    known_padded known_sized (digest_conforms true _) firstVisit
    (by rw [visits_eq]; exact List.mem_cons_self) prepared ready arrived intact
  refine ⟨prepared, response, answer, ?_⟩
  have holds := refused.mp (by rw [show (_ : Option CompletionError) = none from accepted]; exact nofun)
  rw [known] at holds
  rcases holds with impossible | unreadable | fits
  · cases impossible
  · exact absurd ⟨rfl, rfl, rfl⟩ unreadable
  · exact fits

end Downpour.ProbeDigest
