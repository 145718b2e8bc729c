import Downpour.SessionInvariant

/-!
Where the bytes of a part file come from. A whole fetch is described by a 200, a resume
by a 206 whose range starts where it was asked to and belongs to a representation of the
session's length. The checks before the first write let two more responses through: a
206 that nobody asked for, and a 206 that belongs to another length.
-/

namespace Downpour.ByteOrigin
open Text Ranges Remote Http H1H2 Probing Retry Sink SinkBytes SingleStream Attempts SessionTrace
open SessionInvariant

section Bodies
variable (outside : Outside)

theorem write_representable (written : (writeAt outside io sink offset bytes).1 = .ok ()) :
    offset + bytes.length < 2 ^ 64 := by
  rcases sink with ⟨⟨writer, intervals, disk⟩ | part, artifacts, digest⟩
  · simp only [writeAt] at written
    have ended := Writer.stage_end outside.hashes.blake3 outside.crc32c writer intervals
      singleStreamWorker offset bytes io.now io.stage
    split at written
    next blocks succeeded =>
      exact (stage_done disk ended succeeded).1.representable
    next => cases written
  · simp only [writeAt, writeGrowable] at written
    by_contra large
    rw [if_pos (Nat.le_of_not_lt large)] at written
    cases written

theorem body_offsets (mem : .write offset bytes writeIo ∈
      bodyCalls outside declaredType io index delivered sink chunks) :
    sink.baseOffset + sink.written ≤ offset ∧
      bytes <+: chunks.flatten.drop (offset - (sink.baseOffset + sink.written)) := by
  induction chunks generalizing index delivered sink with
  | nil => simp [bodyCalls] at mem
  | cons chunk rest ih =>
    unfold bodyCalls at mem
    by_cases empty : chunk = []
    · rw [if_pos empty] at mem
      simpa [empty] using ih mem
    rw [if_neg empty] at mem
    by_cases page : delivered = 0 ∧ bodyLooksLikeAWebPage declaredType chunk = true
    · simp [if_pos page] at mem
    rw [if_neg page] at mem
    have ended := accept_end outside (io index) sink chunk
    generalize sink.accept (writeAt outside (io index)) chunk = result at ended mem
    generalize acceptCalls (io index) sink chunk = made at ended mem
    have here : bytes = chunk → bytes <+: (chunk :: rest).flatten.drop 0 := by
      rintro rfl
      exact List.prefix_append _ _
    cases ended with
    | refused error => simp at mem
    | failed error target written =>
      simp only [List.append_nil, List.mem_singleton, SinkCall.write.injEq] at mem
      obtain ⟨rfl, same, _⟩ := mem
      exact ⟨Nat.le_refl _, by rw [Nat.sub_self]; exact here same⟩
    | accepted target written =>
      simp only [List.mem_append, List.mem_singleton, SinkCall.write.injEq] at mem
      rcases mem with ⟨rfl, same, _⟩ | later
      · exact ⟨Nat.le_refl _, by rw [Nat.sub_self]; exact here same⟩
      · have small := write_representable outside (by rw [written])
        obtain ⟨behind, part⟩ := ih later
        have grown : min (sink.written + chunk.length) (2 ^ 64 - 1) =
            sink.written + chunk.length := by omega
        simp only [grown] at behind part
        refine ⟨by omega, ?_⟩
        have moved : offset - (sink.baseOffset + sink.written) =
            chunk.length + (offset - (sink.baseOffset + (sink.written + chunk.length))) := by omega
        rw [List.flatten_cons, moved, ← List.drop_drop, List.drop_left]
        exact part

/-- The chunk ends inside the window, and its first byte has an offset. -/
def Room (sink : RangeSink StorageSink) (chunk : List UInt8) : Prop :=
  (∀ limit, sink.limit = some limit → min (sink.written + chunk.length) (2 ^ 64 - 1) ≤ limit) ∧
    sink.baseOffset + sink.written < 2 ^ 64

/-- The first bytes of a body are not those of a web page, and there is room for them. -/
def Admits (declaredType : Option (List Char)) (sink : RangeSink StorageSink)
    (chunks : List (List UInt8)) : Prop :=
  ∃ chunk, chunks.find? (fun chunk => decide (chunk ≠ [])) = some chunk ∧
    bodyLooksLikeAWebPage declaredType chunk = false ∧ Room sink chunk

theorem accept_calls_room (io : WriteIo) (sink : RangeSink StorageSink) (chunk : List UInt8) :
    (Room sink chunk ∧
        acceptCalls io sink chunk = [.write (sink.baseOffset + sink.written) chunk io]) ∨
      (¬ Room sink chunk ∧ acceptCalls io sink chunk = []) := by
  unfold acceptCalls Room
  cases sink.limit with
  | none => grind
  | some limit => grind

theorem body_writes (io : Nat → WriteIo) (index : Nat) (sink : RangeSink StorageSink)
    (chunks : List (List UInt8)) :
    (∃ offset bytes writeIo, SinkCall.write offset bytes writeIo ∈
      bodyCalls outside declaredType io index 0 sink chunks) ↔ Admits declaredType sink chunks := by
  induction chunks with
  | nil => simp [bodyCalls, Admits]
  | cons chunk rest ih =>
    unfold bodyCalls
    by_cases empty : chunk = []
    · simpa [empty, Admits] using ih
    cases page : bodyLooksLikeAWebPage declaredType chunk with
    | true => simp [empty, page, Admits]
    | false =>
      simp only [if_neg empty, Bool.false_eq_true, and_false, ↓reduceIte]
      have ended := accept_end outside (io index) sink chunk
      rcases accept_calls_room (io index) sink chunk with ⟨room, made⟩ | ⟨full, made⟩
      · rw [made]
        refine iff_of_true ⟨_, _, _, List.mem_cons_self⟩ ⟨chunk, ?_, page, room⟩
        simp [empty]
      · -- A chunk that does not reach the storage is refused, and the body is given up.
        rw [made] at ended ⊢
        generalize sink.accept (writeAt outside (io index)) chunk = result at ended ⊢
        cases ended
        simp [Admits, empty, page, full]

end Bodies

section Responses
variable {Url : Type}

/-- The response describes the bytes from the requested offset on, of a representation
of the given length. -/
def Describes (total : Option Nat) (request : RangeRequest Url) (response : Response) : Prop :=
  match request.range with
  | none => response.status = 200
  | some _ => response.status = 206 ∧ ∃ header last complete,
      response.contentRange = some header ∧
      ContentRange.fromStr header = .ok (.bytes (resumeOffset request.range) last complete) ∧
      ∀ length, complete = some length → total = some length

/-- A whole fetch is not answered with a part, and no part of a representation of
another length is sent. -/
structure Fits (total : Option Nat) (request : RangeRequest Url) (response : Response) : Prop where
  whole : request.range = none → response.status ≠ 206
  part : request.range ≠ none → response.status = 206 → ∀ header observed length,
    response.contentRange = some header → ContentRange.fromStr header = .ok observed →
    observed.completeLength = some length → total = some length

variable {url : Url} {response : Response} {range : Option ContentRange}

theorem whole_describes (checked : checkResponse (RangeRequest.whole url) response = .ok range)
    (fits : Fits total (RangeRequest.whole url) response) :
    Describes total (RangeRequest.whole url) response := by
  have part := fits.whole rfl
  by_contra other
  have unexpected : response.status ≠ 200 ∧ response.status ≠ 206 := ⟨other, part⟩
  simp [checkResponse, RangeRequest.whole, unexpected] at checked

theorem resume_observed (status : response.status = 206)
    (checked : checkResponse (RangeRequest.resume url (.from begins) validator) response =
      .ok range) :
    ∃ header observed, response.contentRange = some header ∧
      ContentRange.fromStr header = .ok observed ∧
      observed.isConsistentWith (.from begins) = .ok () := by
  simp only [checkResponse, RangeRequest.resume, Option.filter, status, ne_eq, not_true_eq_false,
    decide_false, Bool.false_eq_true, ↓reduceIte, and_false] at checked
  split at checked
  · cases checked
  next proof proven =>
    obtain ⟨_, header, observed, found, parsed, consistent, _⟩ :=
      proof_observed proven
    exact ⟨header, observed, found, parsed, consistent⟩

theorem resume_describes
    (checked : checkResponse (RangeRequest.resume url (.from begins) validator) response = .ok range)
    (fits : Fits total (RangeRequest.resume url (.from begins) validator) response) :
    Describes total (RangeRequest.resume url (.from begins) validator) response := by
  have status : response.status = 206 := by
    by_contra other
    simp [checkResponse, RangeRequest.resume, Option.filter, other] at checked
  obtain ⟨header, observed, found, parsed, consistent⟩ := resume_observed status checked
  cases observed with
  | unsatisfied complete => cases consistent
  | bytes first last complete =>
    have same : first = begins := by
      by_contra moved
      simp [ContentRange.isConsistentWith, moved] at consistent
    subst same
    exact ⟨status, header, last, complete, found, parsed, fun length stated =>
      fits.part (by simp [RangeRequest.resume]) status header _ length found parsed stated⟩

end Responses

section Engine
variable {Url : Type} [DecidableEq Url]

def answer (env : Environment Url) (prepared : Prepared Url) : Except SendError Response :=
  env.server prepared.log.length prepared.request

/-- Every chunk that an attempt writes belongs at its offset: it is the part of a
describing answer that stands there. -/
def Placed (env : Environment Url) (prepared : Prepared Url) (attemptIo : AttemptIo) :
    Prop :=
  ∀ offset bytes writeIo, .write offset bytes writeIo ∈ runCalls env prepared attemptIo →
    ∃ response, answer env prepared = .ok response ∧
      Describes prepared.held.totalLength prepared.request response ∧
      resumeOffset prepared.request.range ≤ offset ∧
      bytes <+: response.chunks.flatten.drop (offset - resumeOffset prepared.request.range)

omit [DecidableEq Url] in
/-- An attempt writes what passes the checks of the response and of its first bytes. -/
theorem run_writes (env : Environment Url) (prepared : Prepared Url) (attemptIo : AttemptIo) :
    (∃ offset bytes writeIo, .write offset bytes writeIo ∈ runCalls env prepared attemptIo) ↔
      ∃ response range, answer env prepared = .ok response ∧
        checkResponse prepared.request response = .ok range ∧
        Admits response.contentType prepared.held.sink response.chunks := by
  have asked : answer env prepared = env.server prepared.log.length prepared.request := rfl
  simp only [runCalls, fetchCalls, List.mem_append, List.mem_singleton, reduceCtorEq, or_false,
    ← asked]
  cases answer env prepared with
  | error error => simp
  | ok response =>
    cases checked : checkResponse prepared.request response with
    | error error => simp [checked]
    | ok range => simpa [checked] using body_writes env.outside attemptIo.writes 0 _ _

omit [DecidableEq Url] in
theorem describes_fits {total : Option Nat} {request : RangeRequest Url} {response : Response}
    (describes : Describes total request response) : Fits total request response := by
  unfold Describes at describes
  cases asked : request.range with
  | none =>
    simp only [asked] at describes
    exact ⟨fun _ => by rw [describes]; decide, fun ranged => absurd asked ranged⟩
  | some requested =>
    simp only [asked] at describes
    obtain ⟨status, header, last, complete, found, parsed, stated⟩ := describes
    refine ⟨fun whole => absurd (asked.symm.trans whole) (Option.some_ne_none _), ?_⟩
    intro _ _ other observed length here read known
    rw [found] at here
    cases here
    rw [parsed] at read
    cases read
    exact stated length known

end Engine

/-- In every download, the bytes that an attempt writes all come from a response that
describes them exactly when an answer that passes its checks also fits its request. -/
theorem written_bytes_described {Url : Type} [DecidableEq Url] (env : Environment Url)
    (policy : RetryPolicy) (freshness : Nat) (url : Url) (layout : StorageLayout)
    (io : Nat → AttemptIo) (visit : Visit Url)
    (reached : visit ∈ visits env policy freshness url layout io firstVisit)
    (prepared : Prepared Url)
    (ready : visit.prepared env freshness url layout io = .ok prepared) :
    Placed env prepared (io visit.number) ↔
      ∀ response range, answer env prepared = .ok response →
        checkResponse prepared.request response = .ok range →
        Admits response.contentType prepared.held.sink response.chunks →
        Fits prepared.held.totalLength prepared.request response := by
  obtain ⟨born, done, begun⟩ := prepared_begun (visits_resting visit reached).1 ready
  constructor
  · intro placed response range answered checked admitted
    obtain ⟨offset, bytes, writeIo, mem⟩ := (run_writes env prepared (io visit.number)).mpr
      ⟨response, range, answered, checked, admitted⟩
    obtain ⟨described, same, describes, _⟩ := placed offset bytes writeIo mem
    rw [answered] at same
    cases same
    exact describes_fits describes
  intro fits offset bytes writeIo mem
  obtain ⟨response, range, answered, checked, admitted⟩ :=
    (run_writes env prepared (io visit.number)).mp ⟨offset, bytes, writeIo, mem⟩
  have fit := fits response range answered checked admitted
  simp only [runCalls, fetchCalls, List.mem_append, List.mem_singleton, reduceCtorEq, or_false,
    show env.server prepared.log.length prepared.request = _ from answered, checked] at mem
  obtain ⟨behind, part⟩ := body_offsets env.outside mem
  rw [begun.window] at behind part
  refine ⟨response, answered, ?_⟩
  cases session : visit.session with
  | none =>
    obtain ⟨first, asked⟩ := begun.whole session
    rw [first] at behind part
    rw [asked] at fit checked ⊢
    exact ⟨whole_describes checked fit, behind, part⟩
  | some held =>
    obtain ⟨validator, usable, asked⟩ := begun.resumes (by simp [session])
    rw [asked] at fit checked ⊢
    exact ⟨resume_describes checked fit, behind, part⟩

/-! A whole fetch of four bytes. -/

def answering (whole : Response) : Environment Unit :=
  { Splice.cutEnvironment Splice.oldFile with
    server := fun index _ => match index with
      | 0 => .ok { Splice.plainResponse 206 Splice.oldFile with
          contentRange := some "bytes 0-0/4".toList, chunks := [[1]] }
      | _ => .ok whole }

def unsolicitedPart : Response :=
  { Splice.plainResponse 206 Splice.oldFile with
    contentRange := some "bytes 4-7/8".toList, chunks := [[5, 6, 7, 8]] }

def wholeFile : Response :=
  { Splice.plainResponse 200 Splice.oldFile with chunks := [[1, 2, 3, 4]] }

theorem answering_probe (whole : Response) :
    probe (answering whole).server (answering whole).join (answering whole).resolve
      (ProbeRequest.new ()) Splice.cutIo.probedAt [] =
    (.ok ⟨(), [()], some 4, .proven ⟨4, .bytes 0 0 (some 4), .fromTo 0 0,
        ⟨.fromTo 0 0, 206, some "bytes 0-0/4".toList, none, 1⟩⟩, .strongETag (Splice.tagged 'A'),
        none, .http11, some ['f'], 0⟩, Splice.cutLog.take 1) := by
  rw [probe, probeLoop]
  rfl

theorem answering_prepared (whole : Response) :
    ∃ prepared, firstVisit.prepared (answering whole) capabilityFreshness () Splice.cutLayout
        (fun _ => Splice.cutIo) = .ok prepared ∧
      prepared.request = RangeRequest.whole () ∧ answer (answering whole) prepared = .ok whole := by
  simp only [Visit.prepared, firstVisit, prepare, prepareStart]
  rw [answering_probe]
  exact ⟨_, rfl, rfl, rfl⟩

theorem first_visited (whole : Response) :
    firstVisit ∈ visits (answering whole) RetryPolicy.default capabilityFreshness () Splice.cutLayout
      (fun _ => Splice.cutIo) firstVisit := by
  rw [visits_eq]
  exact List.mem_cons_self

theorem unsolicited_attempt :
    attempt (answering unsolicitedPart) capabilityFreshness () Splice.cutLayout none Splice.cutIo [] =
      (.ok ⟨"downloads/f", [5, 6, 7, 8]⟩, none, Splice.cutLog.take 2) := by
  simp only [attempt, start]
  rw [answering_probe]
  rfl

/-- The part that nobody asked for is written to the front and returned as the file. -/
theorem unsolicited_part_written :
    download (answering unsolicitedPart) RetryPolicy.default capabilityFreshness () Splice.cutLayout
        (fun _ => Splice.cutIo) = (.ok ⟨"downloads/f", [5, 6, 7, 8]⟩, Splice.cutLog.take 2) ∧
      ∃ prepared, firstVisit.prepared (answering unsolicitedPart) capabilityFreshness ()
          Splice.cutLayout (fun _ => Splice.cutIo) = .ok prepared ∧
        ¬ Placed (answering unsolicitedPart) prepared Splice.cutIo := by
  constructor
  · rw [download, downloadLoop, unsolicited_attempt]
  · have ready : ∃ prepared, firstVisit.prepared (answering unsolicitedPart) capabilityFreshness ()
          Splice.cutLayout (fun _ => Splice.cutIo) = .ok prepared ∧
        prepared.request = RangeRequest.whole () ∧
        answer (answering unsolicitedPart) prepared = .ok unsolicitedPart ∧
        .write 0 [5, 6, 7, 8] (Splice.cutIo.writes 0) ∈
          runCalls (answering unsolicitedPart) prepared Splice.cutIo := by
      simp only [Visit.prepared, firstVisit, prepare, prepareStart]
      rw [answering_probe]
      exact ⟨_, rfl, rfl, rfl, List.Mem.head _⟩
    obtain ⟨prepared, ready, asked, answered, mem⟩ := ready
    refine ⟨prepared, ready, fun placed => ?_⟩
    obtain ⟨response, same, describes, _⟩ := placed _ _ _ mem
    rw [answered] at same
    cases same
    rw [asked] at describes
    exact absurd (show unsolicitedPart.status = 200 from describes) (by decide)

theorem whole_file_described :
    ∃ prepared, firstVisit.prepared (answering wholeFile) capabilityFreshness () Splice.cutLayout
        (fun _ => Splice.cutIo) = .ok prepared ∧
      Placed (answering wholeFile) prepared Splice.cutIo := by
  obtain ⟨prepared, ready, asked, answered⟩ := answering_prepared wholeFile
  refine ⟨prepared, ready, (written_bytes_described (answering wholeFile) RetryPolicy.default
    capabilityFreshness () Splice.cutLayout (fun _ => Splice.cutIo) firstVisit
    (first_visited wholeFile) prepared ready).mpr ?_⟩
  intro response _ same _ _
  rw [answered] at same
  cases same
  exact ⟨fun _ => by decide, fun ranged => absurd (by rw [asked]; rfl) ranged⟩

end Downpour.ByteOrigin
