import Downpour.Probing
import Downpour.SinkBytes
import Downpour.SingleStream

/-!
Whether a resumed download can mix representations. The server may change what it
serves between any two requests and answers each request honestly from what is
current. The validator of a session is taken from the probe; the whole fetch that
follows is not checked against it. So the final file comes from one
representation in every run in which each whole fetch that is resumed later was
answered from the representation that its probe described.
-/

namespace Downpour.Splice
open Text Ranges Remote Http H1H2 Probing Retry Sink SinkBytes SingleStream

structure Representation where
  etag : List Char
  bytes : List UInt8
  strong : Validator.fromHeaders (some etag) none = .strongETag etag

/-- The response describes the representation and carries a leading part of what
it describes. A conditional request is answered with a part exactly where the
validator is that of the representation. -/
structure Honest {Url : Type} (representation : Representation) (request : RangeRequest Url)
    (response : Response) : Prop where
  tagged : response.status = 200 ∨ response.status = 206 →
    response.etag = some representation.etag
  whole : response.status = 200 → response.chunks.flatten <+: representation.bytes ∧
    ∀ header, response.contentLength = some header →
      parseUnsigned 64 header = some representation.bytes.length
  part : response.status = 206 → ∃ range first last, request.range = some range ∧
    response.contentRange.map ContentRange.fromStr =
      some (.ok (.bytes first last (some representation.bytes.length))) ∧
    (ContentRange.bytes first last (some representation.bytes.length)).isConsistentWith range =
      .ok () ∧
    response.chunks.flatten <+: (representation.bytes.drop first).take (last + 1 - first)
  conditional : ∀ validator, request.ifRange = some validator →
    response.status = 200 ∨ response.status = 206 →
    (response.status = 206 ↔ validator = representation.etag)

section Runs
variable {Url : Type}

def IsWhole (exchange : Exchange Url) : Prop :=
  exchange.probing = false ∧ exchange.request.ifRange = none

def IsResume (exchange : Exchange Url) : Prop :=
  exchange.probing = false ∧ exchange.request.ifRange.isSome = true

def HonestRun (schedule : Nat → Representation) (server : Server Url) (log : List (Exchange Url)) :
    Prop :=
  ∀ index exchange response, log[index]? = some exchange →
    server index exchange.request = .ok response →
    Honest (schedule index) exchange.request response

/-- A whole fetch that is resumed before the next one was answered from the
representation that answered the request before it, the last one of the probe. -/
def Confirmed (schedule : Nat → Representation) (log : List (Exchange Url)) : Prop :=
  ∀ index later whole resumed, log[index + 1]? = some whole → IsWhole whole →
    log[later]? = some resumed → IsResume resumed → index + 1 < later →
    (∀ between exchange, index + 1 < between → between < later →
      log[between]? = some exchange → ¬ IsWhole exchange) →
    schedule index = schedule (index + 1)

end Runs

def Agrees (content bytes : List UInt8) (pos : Nat) : Prop :=
  ∃ byte, content[pos]? = some byte ∧ bytes[pos]? = some byte

/-- Everything the window has written, and everything the target holds, is taken
from `bytes`. -/
structure Filled (bytes : List UInt8) (sink : RangeSink StorageSink) : Prop where
  written : ∀ pos, pos < sink.baseOffset + sink.written →
    Agrees sink.target.content bytes pos
  held : ∀ pos, Holds sink.target pos → Agrees sink.target.content bytes pos
  exact : declared sink.target = none →
    sink.target.content.length = sink.baseOffset + sink.written

theorem filled_reach
    (filled : Filled bytes sink) : sink.baseOffset + sink.written ≤ sink.target.content.length := by
  by_contra short
  obtain ⟨byte, found, _⟩ := filled.written (sink.baseOffset + sink.written - 1) (by omega)
  obtain ⟨inside, _⟩ := List.getElem?_eq_some_iff.mp found
  omega

theorem agrees_prefix (agrees : ∀ pos, pos < content.length → Agrees content bytes pos) :
    content <+: bytes := by
  rw [List.prefix_iff_getElem?]
  intro pos inside
  obtain ⟨byte, found, same⟩ := agrees pos inside
  rw [same, ← found, List.getElem?_eq_getElem inside]

section Windows
variable (outside : Outside)

theorem accept_filled
    (filled : Filled bytes sink) (served : chunk <+: bytes.drop (sink.baseOffset + sink.written))
    (accepted : sink.accept (writeAt outside io) chunk = (.ok (), after)) :
    Filled bytes after ∧ after.baseOffset + after.written =
        sink.baseOffset + sink.written + chunk.length ∧
      declared after.target = declared sink.target := by
  unfold RangeSink.accept at accepted
  split at accepted
  · cases accepted
  next =>
    split at accepted
    · cases accepted
    next =>
      split at accepted
      · cases accepted
      next target done =>
        cases accepted
        have write := write_done (filled_reach filled)
          done
        have small := write.representable
        have grown : min (sink.written + chunk.length) (2 ^ 64 - 1) = sink.written + chunk.length := by
          omega
        have fresh : ∀ pos, sink.baseOffset + sink.written ≤ pos →
            pos < sink.baseOffset + sink.written + chunk.length →
            Agrees target.content bytes pos := by
          intro pos lower upper
          have below : pos - (sink.baseOffset + sink.written) < chunk.length := by omega
          refine ⟨chunk[pos - (sink.baseOffset + sink.written)], ?_, ?_⟩
          · rw [write.reads, if_pos ⟨lower, upper⟩, List.getElem?_eq_getElem below]
          · have read := List.prefix_iff_getElem?.mp served _ below
            rwa [List.getElem?_drop, Nat.add_sub_cancel' lower] at read
        have kept : ∀ pos, Agrees sink.target.content bytes pos →
            Agrees target.content bytes pos := by
          rintro pos ⟨byte, found, same⟩
          by_cases inside : sink.baseOffset + sink.written ≤ pos ∧
              pos < sink.baseOffset + sink.written + chunk.length
          · exact fresh pos inside.1 inside.2
          · exact ⟨byte, by rw [write.reads, if_neg inside, found], same⟩
        refine ⟨⟨?_, ?_, ?_⟩, ?_, write.declared⟩
        · intro pos inside
          by_cases old : pos < sink.baseOffset + sink.written
          · exact kept pos (filled.written pos old)
          · exact fresh pos (Nat.not_lt.mp old) (by simp only [grown] at inside; omega)
        · intro pos holds
          rcases write.holds pos holds with old | ⟨lower, upper⟩
          · exact kept pos (filled.held pos old)
          · exact fresh pos lower upper
        · intro unknown
          rw [write.declared] at unknown
          simp only [grown, write.grown unknown]
          omega
        · simp only [grown]
          omega

def Spoils {Url : Type} : TransferError Url → Prop
  | .sink .. | .overDelivery .. => True
  | _ => False

theorem read_body_filled (url : Url) (declaredType : Option (List Char))
    (promised : Option Nat) (ending : BodyEnd) (io : Nat → WriteIo)
    (index delivered : Nat) (filled : Filled bytes sink)
    (served : chunks.flatten <+: bytes.drop (sink.baseOffset + sink.written)) :
    (∃ error, (readBody (writeAt outside) url declaredType promised ending io index delivered sink
      chunks).1 = .error error ∧ Spoils error) ∨
    Filled bytes (readBody (writeAt outside) url declaredType promised ending io index delivered sink
      chunks).2 ∧
    declared (readBody (writeAt outside) url declaredType promised ending io index delivered sink
      chunks).2.target = declared sink.target := by
  induction chunks generalizing index delivered sink with
  | nil =>
    apply Or.inr
    unfold readBody
    split
    · exact ⟨filled, rfl⟩
    · exact ⟨filled, rfl⟩
    · split
      · exact ⟨filled, rfl⟩
      · exact ⟨filled, rfl⟩
  | cons chunk rest ih =>
    rw [List.flatten_cons] at served
    unfold readBody
    by_cases empty : chunk = []
    · rw [if_pos empty]
      rw [empty, List.nil_append] at served
      exact ih index delivered filled served
    rw [if_neg empty]
    by_cases page : delivered = 0 ∧ bodyLooksLikeAWebPage declaredType chunk = true
    · rw [if_pos page]
      exact Or.inr ⟨filled, rfl⟩
    rw [if_neg page]
    split
    · exact Or.inl ⟨_, rfl, trivial⟩
    · exact Or.inl ⟨_, rfl, trivial⟩
    next after accepted =>
      have front : chunk <+: bytes.drop (sink.baseOffset + sink.written) :=
        (List.prefix_append _ _).trans served
      obtain ⟨next, moved, same⟩ := accept_filled outside filled
        front accepted
      have behind : rest.flatten <+: bytes.drop (after.baseOffset + after.written) := by
        rw [moved, ← List.drop_drop]
        have cut := served.drop chunk.length
        rwa [List.drop_left] at cut
      rw [← same]
      exact ih (index + 1) _ next behind

end Windows

section Attempts
variable {Url : Type} (env : Environment Url)

/-- The answers to this request that pass the checks carry bytes of `bytes` from
`offset` on. -/
def Serves (server : Server Url) (index : Nat) (request : RangeRequest Url) (offset : Nat)
    (bytes : List UInt8) : Prop :=
  ∀ response range, server index request = .ok response →
    checkResponse request response = .ok range → response.chunks.flatten <+: bytes.drop offset

theorem fetch_logged (request : RangeRequest Url) (io : Nat → WriteIo)
    (sink : RangeSink StorageSink) (sent : List (Exchange Url)) :
    (fetchRange (writeAt env.outside) env.server request sink io sent).2.2 =
      sent ++ [⟨false, request⟩] := by
  unfold fetchRange
  simp only
  split
  · rfl
  · rfl
  · split
    · rfl
    · split
      · rfl
      · rfl

theorem run_logged (held : Session Url) (request : RangeRequest Url) (io : AttemptIo)
    (sent : List (Exchange Url)) :
    (run env held request io sent).2.2 = sent ++ [⟨false, request⟩] := by
  have logged := fetch_logged env request io.writes held.sink sent
  unfold run
  simp only
  split
  · exact logged
  · split
    · exact logged
    · split
      · exact logged
      · split
        · exact logged
        · exact logged

variable {bytes : List UInt8} {held : Session Url} {response : Response} {url : Url}
    {schedule : Nat → Representation} {log final : List (Exchange Url)}

theorem fetch_filled (io : Nat → WriteIo) (filled : Filled bytes sink)
    (serves : Serves env.server sent.length request (sink.baseOffset + sink.written) bytes) :
    (∃ error, (fetchRange (writeAt env.outside) env.server request sink io sent).1 =
        .error error ∧ Spoils error) ∨ Filled bytes
        (fetchRange (writeAt env.outside) env.server request sink io sent).2.1 ∧
      declared (fetchRange (writeAt env.outside) env.server request sink io
        sent).2.1.target = declared sink.target := by
  unfold fetchRange
  simp only
  split
  · exact Or.inr ⟨filled, rfl⟩
  · exact Or.inr ⟨filled, rfl⟩
  next response answered =>
    split
    · exact Or.inr ⟨filled, rfl⟩
    next range checked =>
      have body := read_body_filled env.outside request.url response.contentType
        (promisedLength response range) response.ending io 0 0 filled
        (serves response range answered checked)
      split
      next error after read =>
        rw [read] at body
        refine body.imp ?_ id
        rintro ⟨other, same, spoils⟩
        exact ⟨error, rfl, Except.error.inj same ▸ spoils⟩
      next delivered after read =>
        rw [read] at body
        refine body.imp ?_ id
        rintro ⟨_, same, _⟩
        cases same

structure Sound (bytes : List UInt8) (held : Session Url) : Prop where
  total : held.totalLength = declared held.sink.target
  filled : Filled bytes held.sink

theorem sync_filled (bytes : List UInt8) (io : SyncIo) (sink : RangeSink StorageSink)
    (filled : Filled bytes sink) :
    Filled bytes { sink with target := (Sink.sync env.outside io sink.target).2 } := by
  obtain ⟨content, length, holds⟩ := sync_done env.outside io sink.target
  constructor
  · intro pos inside
    rw [content]
    exact filled.written pos inside
  · intro pos held
    rw [content]
    exact filled.held pos (holds pos held)
  · intro unknown
    rw [length] at unknown
    rw [content]
    exact filled.exact unknown

theorem delivered_prefix (sound : Sound bytes held)
    (full : ¬ held.totalLength.any (fun expected => decide (held.sink.nextOffset ≠ expected)) = true)
    :
    held.sink.target.content <+: bytes := by
  apply agrees_prefix
  intro pos inside
  apply sound.filled.written
  cases known : declared held.sink.target with
  | none => rwa [sound.filled.exact known] at inside
  | some length =>
    rw [declared_length known] at inside
    rw [sound.total, known] at full
    have same : held.sink.nextOffset = length := by
      by_contra other
      exact full (by simp [other])
    unfold RangeSink.nextOffset at same
    omega

theorem run_sound (held : Session Url) (io : AttemptIo) (sound : Sound bytes held)
    (serves : Serves env.server sent.length request
      (held.sink.baseOffset + held.sink.written) bytes) :
    (∀ delivered, (run env held request io sent).1 = .ok delivered → delivered.content <+: bytes) ∧
    ∀ error, (run env held request io sent).1 = .error error → transientKindOf error ≠ none →
      ∃ left, (run env held request io sent).2.1 = some left ∧ Sound bytes left ∧
        left.validator = held.validator := by
  have fetched := fetch_filled env io.writes sound.filled serves
  unfold run
  generalize fetchRange (writeAt env.outside) env.server request held.sink io.writes
    sent = fetch at fetched
  obtain ⟨result, sink, log⟩ := fetch
  simp only at fetched ⊢
  have synced := sync_filled env bytes io.sync sink
  have known := (sync_done env.outside io.sync sink.target).2.1
  split
  · refine ⟨by simp, ?_⟩
    intro error same transient
    obtain rfl := Except.error.inj same
    exact absurd rfl transient
  next =>
    split
    next error =>
      refine ⟨by simp, ?_⟩
      intro other same transient
      obtain rfl := Except.error.inj same
      rcases fetched with ⟨spoiled, here, spoils⟩ | ⟨filled, kept⟩
      · obtain rfl := Except.error.inj here
        cases error <;> first | exact absurd rfl transient | exact spoils.elim
      · exact ⟨_, rfl, ⟨sound.total.trans (known.trans kept).symm, synced filled⟩, rfl⟩
    next outcome =>
      rcases fetched with ⟨_, impossible, _⟩ | ⟨filled, kept⟩
      · cases impossible
      have after : Sound bytes { held with
          sink := { sink with target := (Sink.sync env.outside io.sync sink.target).2 } } :=
        ⟨sound.total.trans (known.trans kept).symm, synced filled⟩
      split
      · refine ⟨by simp, ?_⟩
        intro error same transient
        exact ⟨_, rfl, after, rfl⟩
      next full =>
        rw [Bool.or_eq_true, not_or] at full
        split
        · refine ⟨by simp, ?_⟩
          intro error same transient
          obtain rfl := Except.error.inj same
          exact absurd rfl transient
        next sealing target named =>
          refine ⟨?_, by simp⟩
          intro delivered same
          obtain rfl := Except.ok.inj same
          simp only
          rw [complete_content named]
          exact delivered_prefix after full.1

/-- A probe logs its own requests only, and what it learns comes from the answer
to the last of them. -/
structure Probed (server : Server Url) (sent : List (Exchange Url))
    (result : Except (ProbeError Url) (RemoteObject Url) × List (Exchange Url)) : Prop where
  logged : ∃ added, result.2 = sent ++ added ∧ ∀ exchange ∈ added, exchange.probing = true
  learned : ∀ remote, result.1 = .ok remote → ∃ before exchange response,
    result.2 = before ++ [exchange] ∧ server before.length exchange.request = .ok response ∧
    (response.status = 200 ∨ response.status = 206) ∧
    remote.validator = Validator.fromHeaders response.etag response.lastModified

theorem probe_conclusion_validator {resolve : Option (List Char) → Url → List Char} {current : Url}
    {chain : List Url} {withRange : Bool} {now : Nat} {remote : RemoteObject Url}
    (concluded : probeConclusion resolve current chain withRange now response = .ok remote) :
    remote.validator = Validator.fromHeaders response.etag response.lastModified := by
  unfold probeConclusion at concluded
  simp only at concluded
  split at concluded
  · cases concluded
  · split at concluded
    · cases concluded
    · cases concluded
    · split at concluded
      · split at concluded
        · cases concluded
          rfl
        · cases concluded
        · cases concluded
          rfl
      · split at concluded
        · cases concluded
        · cases concluded
          rfl

theorem probe_loop_probed (server : Server Url) (join : Url → List Char → Option Url)
    (resolve : Option (List Char) → Url → List Char) (request : ProbeRequest Url) (now : Nat)
    (current : Url) (chain : List Url) (hops : Nat) (withRange : Bool) (sent : List (Exchange Url)) :
    Probed server sent
      (probeLoop server join resolve request now current chain hops withRange sent) := by
  obtain ⟨⟨added, shape, every⟩, learned⟩ := probe_loop_concluded server join resolve request now
    current chain hops withRange sent
  refine ⟨⟨added, shape, fun exchange mem => (every exchange mem).1⟩, ?_⟩
  intro remote known
  obtain ⟨before, exchange, response, last, visited, ranged, ends, answered, _, status, concluded⟩ :=
    learned remote known
  exact ⟨before, exchange, response, ends, answered, status,
    probe_conclusion_validator concluded⟩

theorem strong_headers (representation : Representation) (lastModified : Option (List Char)) :
    Validator.fromHeaders (some representation.etag) lastModified =
      .strongETag representation.etag := by
  have strong := representation.strong
  unfold Validator.fromHeaders at strong ⊢
  simp only at strong ⊢
  split at strong
  next usable => rw [if_pos usable, strong]
  next => cases strong

theorem whole_served (honest : Honest representation (RangeRequest.whole url) response)
    (checked : checkResponse (RangeRequest.whole url) response = .ok range) :
    response.chunks.flatten <+: representation.bytes.drop 0 := by
  have status : response.status = 200 ∨ response.status = 206 := by
    unfold checkResponse at checked
    simp only [RangeRequest.whole, Option.filter_none] at checked
    split at checked
    · cases checked
    next usable =>
      by_contra neither
      exact usable (not_or.mp neither)
  rw [List.drop_zero]
  rcases status with whole | part
  · exact (honest.whole whole).1
  · obtain ⟨requested, _, _, impossible, _⟩ := honest.part part
    cases impossible

theorem resume_served
    (honest : Honest representation (RangeRequest.resume url (.from begins) validator) response)
    (checked : checkResponse (RangeRequest.resume url (.from begins) validator) response =
      .ok range) :
    validator = representation.etag ∧
      response.chunks.flatten <+: representation.bytes.drop begins := by
  have status : response.status = 206 := by
    by_contra other
    simp [checkResponse, RangeRequest.resume, Option.filter, other] at checked
  obtain ⟨requested, first, last, asked, _, consistent, body⟩ := honest.part status
  cases asked
  have same : first = begins := by
    by_contra moved
    simp [ContentRange.isConsistentWith, moved] at consistent
  rw [same] at body
  exact ⟨(honest.conditional validator rfl (Or.inr status)).mp status,
    body.trans (List.take_prefix _ _)⟩

/-- A session whose whole fetch stands behind the request with the given index. -/
structure Tracked (schedule : Nat → Representation) (log : List (Exchange Url))
    (held : Session Url) (index : Nat) : Prop where
  whole : ∃ exchange, log[index + 1]? = some exchange ∧ IsWhole exchange
  later : ∀ pos exchange, index + 1 < pos → log[pos]? = some exchange →
    ¬ IsWhole exchange
  validator : held.validator = .strongETag (schedule index).etag
  sound : Sound (schedule (index + 1)).bytes held

structure Attested (schedule : Nat → Representation) (result : Attempted Url) : Prop where
  delivered : ∀ delivered, result.1 = .ok delivered →
    ∃ index, delivered.content <+: (schedule index).bytes
  left : ∀ error, result.1 = .error error → transientKindOf error ≠ none →
    ∀ held, result.2.1 = some held → ∃ index, Tracked schedule result.2.2 held index

theorem attested_without (schedule : Nat → Representation) (error : DownloadError Url)
    (log : List (Exchange Url)) : Attested schedule (.error error, none, log) :=
  ⟨fun _ impossible => (by cases impossible), fun _ _ _ _ impossible => (by cases impossible)⟩

theorem probe_extends (request : ProbeRequest Url) (now : Nat) (sent : List (Exchange Url)) :
    sent <+: (probe env.server env.join env.resolve request now sent).2 := by
  obtain ⟨added, shape, _⟩ := (probe_loop_probed env.server env.join
    env.resolve request now request.url [request.url] 0 true sent).logged
  exact ⟨added, shape.symm⟩

theorem start_extends (url : Url) (layout : StorageLayout) (io : AttemptIo)
    (sent : List (Exchange Url)) : sent <+: (start env url layout io sent).2.2 := by
  have longer := probe_extends env (ProbeRequest.new url) io.probedAt sent
  unfold start
  split
  next error log probed =>
    rw [probed] at longer
    exact longer
  next remote log probed =>
    rw [probed] at longer
    simp only
    split
    · exact longer
    · split
      · exact longer
      · split
        · exact longer
        · rw [run_logged]
          exact longer.trans (List.prefix_append _ _)

theorem first_fetch_attested (io : AttemptIo)
    (honest : HonestRun schedule env.server
      (before ++ [exchange] ++ [⟨false, RangeRequest.whole held.finalUrl⟩]))
    (answered : env.server before.length exchange.request = .ok response)
    (status : response.status = 200 ∨ response.status = 206)
    (validator : held.validator = Validator.fromHeaders response.etag response.lastModified)
    (fresh : held.sink.baseOffset + held.sink.written = 0)
    (sound : Sound (schedule (before.length + 1)).bytes held) :
    Attested schedule (run env held (RangeRequest.whole held.finalUrl) io
      (before ++ [exchange])) := by
  have logged := run_logged env held (RangeRequest.whole held.finalUrl) io
    (before ++ [exchange])
  have described := honest before.length exchange response (by simp) answered
  have serves : Serves env.server (before ++ [exchange]).length
      (RangeRequest.whole held.finalUrl) (held.sink.baseOffset + held.sink.written)
      (schedule (before.length + 1)).bytes := by
    intro answer range sent checked
    rw [fresh]
    rw [List.length_append, List.length_singleton] at sent
    exact whole_served
      (honest (before.length + 1) ⟨false, RangeRequest.whole held.finalUrl⟩ answer (by simp) sent)
      checked
  obtain ⟨delivers, leaves⟩ := run_sound env held io sound serves
  constructor
  · intro delivered returned
    exact ⟨before.length + 1, delivers delivered returned⟩
  · intro error failed transient left remains
    obtain ⟨next, same, kept, tag⟩ := leaves error failed transient
    rw [remains] at same
    cases same
    refine ⟨before.length, ?_, ?_, ?_, kept⟩
    · rw [logged]
      exact ⟨⟨false, RangeRequest.whole held.finalUrl⟩, by simp, rfl, rfl⟩
    · intro pos other behind found
      rw [logged] at found
      have inside := (List.getElem?_eq_some_iff.mp found).1
      simp only [List.length_append, List.length_singleton] at inside
      omega
    · rw [tag, validator, described.tagged status, strong_headers]

theorem start_attested (honest : HonestRun schedule env.server (start env url layout io sent).2.2) :
    Attested schedule (start env url layout io sent) := by
  have probed := probe_loop_probed env.server env.join env.resolve
    (ProbeRequest.new url) io.probedAt url [url] 0 true sent
  unfold start at honest ⊢
  split at honest
  · exact attested_without _ _ _
  next remote log learned =>
    obtain ⟨before, exchange, response, shape, answered, status, validator⟩ :=
      probed.learned remote (congrArg Prod.fst learned)
    have split : log = before ++ [exchange] := (congrArg Prod.snd learned).symm.trans shape
    subst split
    simp only at honest ⊢
    split at honest
    · exact attested_without _ _ _
    next source _ =>
      by_cases unclear : source.kind ≠ .notFound
      · rw [if_pos unclear]
        exact attested_without _ _ _
      rw [if_neg unclear] at honest ⊢
      split at honest
      · exact attested_without _ _ _
      next target created =>
        rw [run_logged] at honest
        obtain ⟨length, empty, unsized⟩ := create_fresh created
        have filled : Filled (schedule (before.length + 1)).bytes
            (RangeSink.new target 0 remote.totalLength) := by
          refine ⟨?_, ?_, unsized⟩
          · intro pos inside
            exact absurd inside (Nat.not_lt_zero _)
          · intro pos held
            exact absurd held (empty pos)
        exact first_fetch_attested env io honest answered status validator rfl ⟨length.symm, filled⟩

theorem refresh_keeps (held fresh : Session Url) (io : AttemptIo) (sent log : List (Exchange Url))
    (refreshed : refreshCapabilities env held io sent = (.ok fresh, log)) :
    fresh.sink = held.sink ∧ fresh.validator = held.validator ∧
      fresh.totalLength = held.totalLength := by
  unfold refreshCapabilities at refreshed
  split at refreshed
  · cases refreshed
  · split at refreshed
    · cases refreshed
    · cases refreshed
      exact ⟨rfl, rfl, rfl⟩

theorem refresh_logged (held : Session Url) (io : AttemptIo) (sent : List (Exchange Url)) :
    ∃ added, (refreshCapabilities env held io sent).2 = sent ++ added ∧
      ∀ exchange ∈ added, exchange.probing = true := by
  have probed := (probe_loop_probed env.server env.join env.resolve
    (ProbeRequest.new held.finalUrl) io.probedAt held.finalUrl [held.finalUrl] 0 true sent).logged
  unfold refreshCapabilities
  split
  next error log learned =>
    obtain ⟨added, shape, every⟩ := probed
    exact ⟨added, (congrArg Prod.snd learned).symm.trans shape, every⟩
  next fresh log learned =>
    obtain ⟨added, shape, every⟩ := probed
    have same : log = sent ++ added := (congrArg Prod.snd learned).symm.trans shape
    split
    · exact ⟨added, same, every⟩
    · exact ⟨added, same, every⟩

theorem resume_from_logged (held : Session Url) (io : AttemptIo) (sent : List (Exchange Url)) :
    sent <+: (resumeFrom env held io sent).2.2 := by
  unfold resumeFrom
  simp only
  split
  · exact List.prefix_rfl
  · rw [run_logged]
    exact List.prefix_append _ _

theorem attempt_extends [DecidableEq Url] (freshness : Nat) (url : Url) (layout : StorageLayout)
    (session : Option (Session Url)) (io : AttemptIo) (sent : List (Exchange Url)) :
    sent <+: (attempt env freshness url layout session io sent).2.2 := by
  unfold attempt
  split
  next held =>
    unfold resume
    simp only
    split
    · exact resume_from_logged env held io sent
    · obtain ⟨added, shape, _⟩ := refresh_logged env held io sent
      split
      next error log refreshed =>
        rw [refreshed] at shape
        exact ⟨added, shape.symm⟩
      next fresh log refreshed =>
        rw [refreshed] at shape
        exact List.IsPrefix.trans ⟨added, shape.symm⟩ (resume_from_logged env fresh io log)
  next => exact start_extends env url layout io sent

theorem tracked_after_probe (tracked : Tracked schedule log held index)
    (probing : ∀ exchange ∈ added, exchange.probing = true) (sink : fresh.sink = held.sink)
    (validator : fresh.validator = held.validator) (total : fresh.totalLength = held.totalLength) :
    Tracked schedule (log ++ added) fresh index := by
  obtain ⟨⟨exchange, found, whole⟩, later, tag, sound⟩ := tracked
  refine ⟨⟨exchange, ?_, whole⟩, ?_, validator.trans tag, ?_, ?_⟩
  · rw [List.getElem?_append_left (List.getElem?_eq_some_iff.mp found).1, found]
  · intro pos other behind here
    by_cases old : pos < log.length
    · rw [List.getElem?_append_left old] at here
      exact later pos other behind here
    · rw [List.getElem?_append_right (Nat.not_lt.mp old)] at here
      intro isWhole
      have probes := probing other (List.mem_of_getElem? here)
      rw [isWhole.1] at probes
      cases probes
  · rw [total, sink]
    exact sound.total
  · rw [sink]
    exact sound.filled

theorem rebase_filled (limit : Option Nat)
    (filled : Filled bytes sink) (durable : 0 < sink.target.durablePrefixEnd) :
    Filled bytes (sink.rebase sink.target.durablePrefixEnd limit) := by
  refine ⟨?_, filled.held, ?_⟩
  · intro pos inside
    exact filled.held pos (durable_prefix_held inside)
  · intro unknown
    -- A file that grows has no durable prefix.
    have holds := durable_prefix_held durable
    change declared sink.target = none at unknown
    unfold declared at unknown
    unfold Holds at holds
    split at unknown
    · cases unknown
    next part backing =>
      rw [backing] at holds
      exact holds.elim

theorem resume_from_runs (io : AttemptIo) (sent : List (Exchange Url))
    (usable : held.validator.ifRangeValue = some validator) :
    resumeFrom env held io sent =
      run env { held with
          sink := held.sink.rebase held.durablePrefixEnd
            (held.totalLength.map fun total => total - held.durablePrefixEnd) }
        (RangeRequest.resume held.finalUrl (.from held.durablePrefixEnd) validator) io sent := by
  unfold resumeFrom
  simp only
  split
  next unusable =>
    rw [usable] at unusable
    cases unusable
  next other same =>
    rw [usable] at same
    cases same
    rfl

theorem resume_from_attested (unique : ∀ left right, (schedule left).etag = (schedule right).etag →
      schedule left = schedule right) (tracked : Tracked schedule sent held index)
    (durable : 0 < held.durablePrefixEnd)
    (honest : HonestRun schedule env.server (resumeFrom env held io sent).2.2)
    (confirmed : Confirmed schedule (resumeFrom env held io sent).2.2) :
    Attested schedule (resumeFrom env held io sent) := by
  -- A resume continues a session with bytes of the representation it has.
  obtain ⟨⟨whole, found, isWhole⟩, later, validator, sound⟩ := tracked
  have before := (List.getElem?_eq_some_iff.mp found).1
  rw [resume_from_runs env io sent (by rw [validator]; rfl)] at honest confirmed ⊢
  obtain ⟨request, asked⟩ : ∃ request, request = RangeRequest.resume held.finalUrl
    (.from held.durablePrefixEnd) (schedule index).etag := ⟨_, rfl⟩
  rw [← asked] at honest confirmed ⊢
  rw [run_logged] at honest confirmed
  have wholeStill : (sent ++ [⟨false, request⟩])[index + 1]? = some whole := by
    rw [List.getElem?_append_left before, found]
  have resumed : (sent ++ [(⟨false, request⟩ : Exchange Url)])[sent.length]? =
      some ⟨false, request⟩ := by simp
  have same : schedule index = schedule (index + 1) := by
    apply confirmed index sent.length whole ⟨false, request⟩ wholeStill isWhole resumed
      ⟨rfl, by rw [asked]; rfl⟩ before
    intro between exchange behind inside here
    rw [List.getElem?_append_left inside] at here
    exact later between exchange behind here
  have serves : Serves env.server sent.length request (held.durablePrefixEnd + 0)
      (schedule (index + 1)).bytes := by
    intro response range answered checked
    have told := honest sent.length ⟨false, request⟩ response resumed answered
    rw [asked] at told checked
    obtain ⟨tag, body⟩ := resume_served told checked
    rw [← unique index sent.length tag, same] at body
    exact body
  obtain ⟨delivers, leaves⟩ := run_sound env { held with
      sink := held.sink.rebase held.durablePrefixEnd
        (held.totalLength.map fun total => total - held.durablePrefixEnd) } io
    ⟨sound.total, rebase_filled _ sound.filled durable⟩ serves
  constructor
  · intro delivered returned
    exact ⟨index + 1, delivers delivered returned⟩
  · intro error failed transient left remains
    obtain ⟨next, here, kept, tag⟩ := leaves error failed transient
    rw [remains] at here
    cases here
    refine ⟨index, ?_, ?_, ?_, kept⟩
    · rw [run_logged]
      exact ⟨whole, wholeStill, isWhole⟩
    · intro pos exchange behind place
      rw [run_logged] at place
      by_cases old : pos < sent.length
      · rw [List.getElem?_append_left old] at place
        exact later pos exchange behind place
      · rw [List.getElem?_append_right (Nat.not_lt.mp old)] at place
        have last := List.mem_singleton.mp (List.mem_of_getElem? place)
        rw [last, asked]
        intro isWhole
        cases isWhole.2
    · rw [tag]
      exact validator

theorem found_later (earlier : log <+: final) (index : Nat) (inside : index < log.length) :
    final[index]? = log[index]? := by
  obtain ⟨rest, rfl⟩ := earlier
  exact List.getElem?_append_left inside

theorem honest_earlier (earlier : log <+: final)
    (honest : HonestRun schedule server final) : HonestRun schedule server log := by
  intro index exchange response found
  apply honest index exchange response
  rw [found_later earlier index (List.getElem?_eq_some_iff.mp found).1, found]

theorem confirmed_earlier (earlier : log <+: final) (confirmed : Confirmed schedule final) :
    Confirmed schedule log := by
  intro index later whole resumed found isWhole here isResume behind between
  have inside := (List.getElem?_eq_some_iff.mp here).1
  have still := found_later earlier
  apply confirmed index later whole resumed _ isWhole _ isResume behind
  · intro pos exchange lower upper place
    rw [still pos (upper.trans inside)] at place
    exact between pos exchange lower upper place
  · rw [still (index + 1) (behind.trans inside), found]
  · rw [still later inside, here]

variable [DecidableEq Url]

def Carried (schedule : Nat → Representation) (log : List (Exchange Url))
    (session : Option (Session Url)) : Prop :=
  ∀ held, session = some held →
    0 < held.durablePrefixEnd ∧ ∃ index, Tracked schedule log held index

theorem attempt_attested (unique : ∀ left right, (schedule left).etag = (schedule right).etag →
      schedule left = schedule right) (carried : Carried schedule sent session)
    (honest : HonestRun schedule env.server (attempt env freshness url layout session io sent).2.2)
    (confirmed : Confirmed schedule (attempt env freshness url layout session io sent).2.2) :
    Attested schedule (attempt env freshness url layout session io sent) := by
  cases session with
  | none => exact start_attested env honest
  | some held =>
    obtain ⟨durable, index, tracked⟩ := carried held rfl
    simp only [attempt, resume] at honest confirmed ⊢
    generalize (triggers freshness ⟨held.recorded, io.now, held.finalUrl, none,
      held.lastObservedStatus⟩).isEmpty = current at honest confirmed ⊢
    cases current with
    | true =>
      exact resume_from_attested env unique tracked durable
        honest confirmed
    | false =>
      obtain ⟨added, shape, probing⟩ := refresh_logged env held io sent
      have keeps := refresh_keeps env held
      simp only [Bool.false_eq_true, ↓reduceIte] at honest confirmed ⊢
      cases refreshed : refreshCapabilities env held io sent with
      | mk result log =>
        rw [refreshed] at shape honest confirmed
        cases result with
        | error error => exact attested_without _ _ _
        | ok fresh =>
          obtain ⟨sink, validator, total⟩ := keeps fresh io sent log refreshed
          have tracks := tracked_after_probe tracked probing sink validator total
          rw [← show log = sent ++ added from shape] at tracks
          apply resume_from_attested env unique tracks _
            honest confirmed
          rw [Session.durablePrefixEnd, sink]
          exact durable

theorem loop_extends (policy : RetryPolicy) (freshness : Nat) (url : Url) (layout : StorageLayout)
    (io : Nat → AttemptIo) (failures : Nat) (session : Option (Session Url))
    (sent : List (Exchange Url)) :
    sent <+: (downloadLoop env policy freshness url layout io failures session sent).2 := by
  have longer : ∀ session failures sent result, attempt env freshness url layout session
      (io failures) sent = result → sent <+: result.2.2 := by
    rintro session failures sent result rfl
    exact attempt_extends env freshness url layout session (io failures) sent
  fun_induction downloadLoop env policy freshness url layout io failures session sent with
  | case1 failures session sent delivered left log attempted => exact longer _ _ _ _ attempted
  | case2 failures session sent error left log attempted => exact longer _ _ _ _ attempted
  | case3 failures session sent error left log attempted => exact longer _ _ _ _ attempted
  | case4 failures session sent error left log attempted kind transient delay decided ih =>
    exact (longer _ _ _ _ attempted).trans ih

theorem loop_single (unique : ∀ left right, (schedule left).etag = (schedule right).etag →
      schedule left = schedule right)
    (policy : RetryPolicy) (freshness : Nat) (url : Url) (layout : StorageLayout)
    (io : Nat → AttemptIo) (failures : Nat) (session : Option (Session Url))
    (sent : List (Exchange Url)) (carried : Carried schedule sent session)
    (honest : HonestRun schedule env.server
      (downloadLoop env policy freshness url layout io failures session sent).2)
    (confirmed : Confirmed schedule
      (downloadLoop env policy freshness url layout io failures session sent).2)
    (returned : (downloadLoop env policy freshness url layout io failures session sent).1 =
      .ok delivered) : ∃ index, delivered.content <+: (schedule index).bytes := by
  -- A run of the retry loop delivers bytes of one representation.
  have attested : ∀ session failures sent result, attempt env freshness url layout session
      (io failures) sent = result → Carried schedule sent session →
      HonestRun schedule env.server result.2.2 → Confirmed schedule result.2.2 →
      Attested schedule result := by
    rintro session failures sent result rfl carried honest confirmed
    exact attempt_attested env unique
      carried honest confirmed
  fun_induction downloadLoop env policy freshness url layout io failures session sent with
  | case1 failures session sent other left log attempted =>
    cases returned
    exact (attested _ _ _ _ attempted carried honest confirmed).delivered _ rfl
  | case2 failures session sent error left log attempted => cases returned
  | case3 failures session sent error left log attempted => cases returned
  | case4 failures session sent error left log attempted kind transient delay decided ih =>
    have longer := loop_extends env policy freshness url layout io (failures + 1)
      (if resumable left then left else none) log
    have step := attested _ _ _ _ attempted carried
      (honest_earlier longer honest) (confirmed_earlier longer confirmed)
    apply ih _ honest confirmed returned
    intro held kept
    split at kept
    next continues =>
      obtain ⟨index, tracked⟩ := step.left error rfl (by simp [transient]) held kept
      simp only [resumable, kept, Option.any_some, Bool.and_eq_true, decide_eq_true_eq] at continues
      exact ⟨continues.2, index, tracked⟩
    next => cases kept

end Attempts

/-- In every run in which each resumed whole fetch came from the probed
representation, the delivered file comes from one representation. -/
theorem delivered_from_one_representation {Url : Type} [DecidableEq Url]
    (env : Environment Url) (policy : RetryPolicy) (freshness : Nat) (url : Url)
    (layout : StorageLayout) (io : Nat → AttemptIo) (schedule : Nat → Representation)
    (delivered : Delivered) (log : List (Exchange Url))
    (returned : download env policy freshness url layout io = (.ok delivered, log))
    (unique : ∀ left right, (schedule left).etag = (schedule right).etag →
      schedule left = schedule right)
    (honest : HonestRun schedule env.server log) (confirmed : Confirmed schedule log) :
    ∃ index, delivered.content <+: (schedule index).bytes := by
  unfold download at returned
  apply loop_single env unique policy freshness url layout io 0 none []
  · intro held impossible
    cases impossible
  · rw [returned]
    exact honest
  · rw [returned]
    exact confirmed
  · rw [returned]

/-! A download of four bytes that is cut after two and resumed. -/

def tagged (letter : Char) : List Char := ['"', letter, '"']

def oldFile : Representation := ⟨tagged 'A', [1, 2, 3, 4], rfl⟩
def newFile : Representation := ⟨tagged 'B', [5, 6, 7, 8], rfl⟩

def plainResponse (status : Nat) (representation : Representation) : Response where
  status := status
  location := none
  etag := some representation.etag
  lastModified := none
  contentRange := none
  contentEncoding := none
  contentLength := none
  contentType := none
  contentDisposition := none
  reprDigest := none
  contentDigest := none
  retryAfter := none
  protocol := .http11
  chunks := []
  ending := .finished

/-- One byte for the probe, two bytes of the whole, and the two behind them. -/
def cutServer (schedule : Nat → Representation) : Server Unit := fun index _ =>
  match index with
  | 0 => .ok { plainResponse 206 (schedule 0) with
      contentRange := some "bytes 0-0/4".toList, chunks := [(schedule 0).bytes.take 1] }
  | 1 => .ok { plainResponse 200 (schedule 1) with
      contentLength := some ['4'], chunks := [(schedule 1).bytes.take 2]
      ending := .failed "connection reset" }
  | 2 => .ok { plainResponse 206 (schedule 2) with
      contentRange := some "bytes 2-3/4".toList, chunks := [(schedule 2).bytes.drop 2] }
  | _ => .error (.transport "connection refused")

/-- The second request is answered from `whole`, all others from the old file. -/
def cutSchedule (whole : Representation) (index : Nat) : Representation :=
  if index = 1 then whole else oldFile

def quietFlush : Writer.FlushIo := ⟨none, fun _ => none, none⟩

def cutIo : AttemptIo where
  probedAt := 0
  now := 0
  target := .error ⟨.notFound, none, "No such file or directory"⟩
  create := ⟨none, none, none, none, none⟩
  writes _ := ⟨0, ⟨none, quietFlush⟩, none, none⟩
  sync := ⟨quietFlush, none⟩
  completion := ⟨none, none, none, none, none, none⟩
  clock := ⟨0, 0, fun _ => none⟩

def cutEnvironment (whole : Representation) : Environment Unit where
  server := cutServer (cutSchedule whole)
  join _ _ := none
  resolve _ _ := ['f']
  urlText _ := []
  outside :=
    { hashes := ⟨fun _ => .replicate 32 0, fun _ => [], fun _ => [], fun _ => none⟩
      crc32c := fun _ => 0
      writerText := fun _ => ""
      partText := fun _ => ""
      fileName := lastComponent
      completionText := fun _ => "" }
  intervalText _ := ""

def cutLayout : StorageLayout := ⟨"downloads", "state"⟩

def cutLog : List (Exchange Unit) :=
  [⟨true, ⟨(), some (.fromTo 0 0), none, [], 15000000000⟩⟩, ⟨false, RangeRequest.whole ()⟩,
    ⟨false, RangeRequest.resume () (.from 2) (tagged 'A')⟩]

def cutDownload (whole : Representation) :
    Except (DownloadError Unit) Delivered × List (Exchange Unit) :=
  download (cutEnvironment whole) RetryPolicy.default capabilityFreshness () cutLayout fun _ => cutIo

theorem cut_probe (whole : Representation) :
    probe (cutEnvironment whole).server (cutEnvironment whole).join (cutEnvironment whole).resolve
      (ProbeRequest.new ()) cutIo.probedAt [] =
    (.ok ⟨(), [()], some 4, .proven ⟨4, .bytes 0 0 (some 4), .fromTo 0 0,
        ⟨.fromTo 0 0, 206, some "bytes 0-0/4".toList, none, 1⟩⟩, .strongETag (tagged 'A'), none,
        .http11, some ['f'], 0⟩, cutLog.take 1) := by
  rw [probe, probeLoop]
  rfl

theorem cut_attempts (known : whole = oldFile ∨ whole = newFile) :
    ∃ left, attempt (cutEnvironment whole) capabilityFreshness () cutLayout none cutIo [] =
        (.error (.transfer (.truncatedBody () 4 2)), some left, cutLog.take 2) ∧
      resumable (some left) = true ∧
      attempt (cutEnvironment whole) capabilityFreshness () cutLayout (some left) cutIo
        (cutLog.take 2) = (.ok ⟨"downloads/f", whole.bytes.take 2 ++ [3, 4]⟩, none, cutLog) := by
  have probed := cut_probe whole
  simp only [attempt, start]
  rw [probed]
  rcases known with rfl | rfl
  · exact ⟨_, rfl, rfl, rfl⟩
  · exact ⟨_, rfl, rfl, rfl⟩

theorem cut_returns (known : whole = oldFile ∨ whole = newFile) :
    cutDownload whole = (.ok ⟨"downloads/f", whole.bytes.take 2 ++ [3, 4]⟩, cutLog) := by
  obtain ⟨left, first, continues, second⟩ := cut_attempts known
  unfold cutDownload download
  rw [downloadLoop, first]
  simp only [transientKindOf, retryAfterOf]
  split
  next giveUp => cases giveUp
  next =>
    rw [if_pos continues, downloadLoop, second]

theorem cut_unique (known : whole = oldFile ∨ whole = newFile) :
    ∀ left right, (cutSchedule whole left).etag = (cutSchedule whole right).etag →
      cutSchedule whole left = cutSchedule whole right := by
  intro left right same
  unfold cutSchedule at same ⊢
  rcases known with rfl | rfl
  · simp
  · split at same <;> split at same <;> simp_all [oldFile, newFile, tagged]

theorem cut_honest (known : whole = oldFile ∨ whole = newFile) :
    HonestRun (cutSchedule whole) (cutEnvironment whole).server cutLog := by
  intro index exchange response found answered
  match index with
  | 0 =>
    cases found
    cases answered
    exact ⟨fun _ => rfl, fun other => absurd (show 206 = 200 from other) (by decide),
      fun _ => ⟨.fromTo 0 0, 0, 0, rfl, rfl, rfl, [], rfl⟩, fun _ impossible => by cases impossible⟩
  | 1 =>
    cases found
    cases answered
    refine ⟨fun _ => rfl, fun _ => ⟨?_, ?_⟩,
      fun other => absurd (show 200 = 206 from other) (by decide),
      fun _ impossible => by cases impossible⟩
    · show [whole.bytes.take 2].flatten <+: whole.bytes
      simp [List.take_prefix]
    · rintro header ⟨rfl⟩
      rcases known with rfl | rfl <;> rfl
  | 2 =>
    cases found
    cases answered
    exact ⟨fun _ => rfl, fun other => absurd (show 206 = 200 from other) (by decide),
      fun _ => ⟨.from 2, 2, 3, rfl, rfl, rfl, [], rfl⟩,
      fun _ asked _ => ⟨fun _ => (Option.some.inj asked).symm, fun _ => rfl⟩⟩
  | rest + 3 => cases found

/-- A steady server: the resumed download is the old file. -/
theorem cut_steady : ∃ index, (⟨"downloads/f", [1, 2, 3, 4]⟩ : Delivered).content <+:
    (cutSchedule oldFile index).bytes :=
  delivered_from_one_representation (cutEnvironment oldFile) RetryPolicy.default capabilityFreshness ()
    cutLayout (fun _ => cutIo) (cutSchedule oldFile) ⟨"downloads/f", [1, 2, 3, 4]⟩ cutLog
    (cut_returns (Or.inl rfl)) (cut_unique (Or.inl rfl))
    (cut_honest (Or.inl rfl)) (by
      intro index later whole resumed _ _ _ _ _ _
      simp [cutSchedule])

/-- Probed as the old file, fetched as the new one, resumed as the old one: the
conditional request is satisfied, and the file starts new and ends old. -/
theorem cut_spliced :
    cutDownload newFile = (.ok ⟨"downloads/f", [5, 6, 3, 4]⟩, cutLog) ∧
      HonestRun (cutSchedule newFile) (cutEnvironment newFile).server cutLog ∧
      (∀ left right, (cutSchedule newFile left).etag = (cutSchedule newFile right).etag →
        cutSchedule newFile left = cutSchedule newFile right) ∧
      ¬ ∃ index, [5, 6, 3, 4] <+: (cutSchedule newFile index).bytes := by
  refine ⟨cut_returns (Or.inr rfl), cut_honest (Or.inr rfl), cut_unique (Or.inr rfl), ?_⟩
  rintro ⟨index, taken⟩
  unfold cutSchedule at taken
  split at taken
  · exact absurd taken (by decide)
  · exact absurd taken (by decide)

end Downpour.Splice
