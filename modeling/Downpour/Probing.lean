import Downpour.H1H2

/-!
What a probe sends and what its result rests on: unconditional requests only, and the
response to the last of them.
-/

namespace Downpour.Probing
open Text Ranges Remote Http H1H2

theorem proof_observed
    (proven : RangeProof.fromObservedResponse requested status contentRange contentEncoding bodyLen =
      .ok proof) :
    status = 206 ∧ ∃ header observed, contentRange = some header ∧
      ContentRange.fromStr header = .ok observed ∧ observed.isConsistentWith requested = .ok () ∧
      observed.completeLength = some proof.totalLength := by
  unfold RangeProof.fromObservedResponse at proven
  split at proven
  · cases proven
  next status =>
    refine ⟨not_not.mp status, ?_⟩
    split at proven
    · cases proven
    · split at proven
      · cases proven
      next header =>
        split at proven
        · cases proven
        next observed parsed =>
          split at proven
          · cases proven
          next consistent =>
            split at proven
            next totalLength expected complete _ =>
              split at proven
              · cases proven
              · cases proven
                exact ⟨header, observed, rfl, parsed, consistent, complete⟩
            next => cases proven

section Probe
variable {Url : Type}

/-- The requests of a probe stand behind those sent before, and what it learns is the
conclusion from the answer to the last one. -/
structure Concluded (server : Server Url) (resolve : Option (List Char) → Url → List Char)
    (now : Nat) (sent : List (Exchange Url))
    (result : Except (ProbeError Url) (RemoteObject Url) × List (Exchange Url)) : Prop where
  logged : ∃ added, result.2 = sent ++ added ∧
    ∀ exchange ∈ added, exchange.probing = true ∧ exchange.request.ifRange = none
  learned : ∀ remote, result.1 = .ok remote →
    ∃ before exchange response current chain withRange, result.2 = before ++ [exchange] ∧
      server before.length exchange.request = .ok response ∧
      exchange.request.range = (if withRange then some probeRange else none) ∧
      (response.status = 200 ∨ response.status = 206) ∧
      probeConclusion resolve current chain withRange now response = .ok remote

theorem concluded_failed (server : Server Url) (resolve : Option (List Char) → Url → List Char)
    (now : Nat) (sent : List (Exchange Url)) (error : ProbeError Url)
    (plain : asked.ifRange = none) :
    Concluded server resolve now sent (.error error, sent ++ [⟨true, asked⟩]) :=
  ⟨⟨_, rfl, by simp [plain]⟩, fun _ impossible => by cases impossible⟩

theorem concluded_after {server : Server Url} {resolve : Option (List Char) → Url → List Char}
    {now : Nat} {sent : List (Exchange Url)} {asked : RangeRequest Url}
    {result : Except (ProbeError Url) (RemoteObject Url) × List (Exchange Url)}
    (plain : asked.ifRange = none)
    (rest : Concluded server resolve now (sent ++ [⟨true, asked⟩]) result) :
    Concluded server resolve now sent result := by
  obtain ⟨⟨added, shape, every⟩, learned⟩ := rest
  refine ⟨⟨⟨true, asked⟩ :: added, by rw [shape]; simp, ?_⟩, learned⟩
  intro other mem
  rcases List.mem_cons.mp mem with rfl | later
  · exact ⟨rfl, plain⟩
  · exact every other later

section Turns
variable (server : Server Url) (join : Url → List Char → Option Url)
  (resolve : Option (List Char) → Url → List Char) (request : ProbeRequest Url) (now : Nat)

theorem probe_loop_concluded (current : Url) (chain : List Url) (hops : Nat) (withRange : Bool)
    (sent : List (Exchange Url)) : Concluded server resolve now sent
      (probeLoop server join resolve request now current chain hops withRange sent) := by
  -- The induction is the recursion of the loop: a redirect or a refused range is followed by
  -- another request, everything else ends the probe.
  fun_induction probeLoop server join resolve request now current chain hops withRange sent with
  | case1 => exact ⟨⟨[], by simp, by simp⟩, fun _ impossible => by cases impossible⟩
  | case2 => exact concluded_failed _ _ _ _ _ rfl
  | case3 => exact concluded_failed _ _ _ _ _ rfl
  | case4 => exact concluded_failed _ _ _ _ _ rfl
  | case5 => exact concluded_failed _ _ _ _ _ rfl
  | case6 current chain hops withRange sent _ asked log response _ _ location _ next _ ih =>
    exact concluded_after rfl ih
  | case7 current chain hops withRange sent _ asked log response _ _ _ ih =>
    exact concluded_after rfl ih
  | case8 => exact concluded_failed _ _ _ _ _ rfl
  | case9 => exact concluded_failed _ _ _ _ _ rfl
  | case10 current chain hops withRange sent _ asked log response answered _ _ _ usable =>
    refine ⟨⟨_, rfl, by simp [asked]⟩, ?_⟩
    intro remote concluded
    refine ⟨sent, ⟨true, asked⟩, response, current, chain, withRange, rfl, answered, rfl, ?_,
      concluded⟩
    by_contra neither
    exact usable (not_or.mp neither)

theorem probe_concluded (sent : List (Exchange Url)) :
    Concluded server resolve now sent (probe server join resolve request now sent) :=
  probe_loop_concluded server join resolve request now request.url [request.url] 0 true sent

/-! The loop with the counter of the source, which has 32 bits: what it returns and where
it has been. -/

/-- The loop of `probe` for at most `fuel` turns; nothing where it has not returned by then. -/
def probeTurns (fuel : Nat) (current : Url) (chain : List Url) (hops : UInt32) (withRange : Bool)
    (sent : List (Exchange Url)) :
    Option (Except (ProbeError Url) (RemoteObject Url) × List (Exchange Url)) :=
  match fuel with
  | 0 => none
  | fuel + 1 =>
    if hops.toNat > request.maxRedirects then
      some (.error (.tooManyRedirects request.url request.maxRedirects), sent)
    else
      let asked : RangeRequest Url := ⟨current, if withRange then some probeRange else none, none,
        request.headers, request.timeout⟩
      let log := sent ++ [⟨true, asked⟩]
      match server sent.length asked with
      | .error .timeout => some (.error (.timeout current), log)
      | .error (.transport source) => some (.error (.transport current source), log)
      | .ok response =>
        if isRedirect response.status then
          match response.location with
          | none => some (.error (.redirectWithoutLocation current response.status), log)
          | some location =>
            match join current location with
            | none => some (.error (.unusableRedirectTarget current location), log)
            | some next => probeTurns fuel next (chain ++ [next]) (hops + 1) withRange log
        else if response.status = 416 ∧ withRange = true then
          probeTurns fuel current chain hops false log
        else if [401, 403, 410].contains response.status then
          some (.error (.needsRefresh current response.status), log)
        else if response.status ≠ 200 ∧ response.status ≠ 206 then
          some (.error (.unexpectedStatus current response.status response.retryAfter), log)
        else some (probeConclusion resolve current chain withRange now response, log)

theorem probe_turns_returned (limit : request.maxRedirects < 2 ^ 32 - 1) (fuel : Nat)
    (current : Url) (chain : List Url) (hops : UInt32) (withRange : Bool)
    (sent : List (Exchange Url))
    (enough : request.maxRedirects + 1 - hops.toNat + withRange.toNat < fuel) :
    probeTurns server join resolve request now fuel current chain hops withRange sent =
      some (probeLoop server join resolve request now current chain hops.toNat withRange sent) := by
  -- Below the largest limit the counter does not wrap, and each turn either counts up or gives up
  -- the range.
  induction fuel generalizing current chain hops withRange sent with
  | zero => omega
  | succ fuel ih =>
    rw [probeTurns, probeLoop]
    by_cases beyond : hops.toNat > request.maxRedirects
    · simp only [beyond, if_true, dite_true]
    simp only [beyond, if_false, dite_false]
    cases server sent.length ⟨current, if withRange then some probeRange else none, none,
      request.headers, request.timeout⟩ with
    | error failure => cases failure <;> rfl
    | ok response =>
      by_cases moved : isRedirect response.status = true
      · simp only [moved, if_true]
        cases response.location with
        | none => rfl
        | some location =>
          simp only
          cases join current location with
          | none => rfl
          | some next =>
            have counted : (hops + 1).toNat = hops.toNat + 1 := by
              rw [UInt32.toNat_add]
              exact Nat.mod_eq_of_lt (by simp; omega)
            simp only
            rw [ih _ _ _ _ _ (by omega), counted]
      · simp only [moved, Bool.false_eq_true, if_false]
        by_cases refused : response.status = 416 ∧ withRange = true
        · simp only [refused, and_self, if_true, dite_true]
          refine ih _ _ _ _ _ ?_
          simp only [refused.2, Bool.toNat_true, Bool.toNat_false] at enough ⊢
          omega
        · simp only [refused, if_false, dite_false]
          split
          · rfl
          split
          · rfl
          · rfl

def Redirected (sent log : List (Exchange Url)) (here next : Url) : Prop :=
  ∃ before exchange after response location, log = sent ++ before ++ exchange :: after ∧
    exchange.request.url = here ∧
    server (sent ++ before).length exchange.request = .ok response ∧
    isRedirect response.status = true ∧ response.location = some location ∧
    join here location = some next

structure Followed (sent : List (Exchange Url)) (current : Url) (chain : List Url) (hops : Nat)
    (withRange : Bool) (log : List (Exchange Url)) : Prop where
  logged : ∃ added, log = sent ++ added ∧ added.length ≤ hops + (!withRange).toNat
  first : chain.head? = some request.url
  last : chain.getLast? = some current
  linked : chain.IsChain (Redirected server join sent log)
  counted : chain.length = hops + 1
  within : hops ≤ request.maxRedirects + 1

/-- What the result of a probe says of the way there, and what a proof in it rests on. -/
structure Found (sent log : List (Exchange Url)) (remote : RemoteObject Url) : Prop where
  first : remote.redirectChain.head? = some request.url
  linked : remote.redirectChain.IsChain (Redirected server join sent log)
  last : remote.redirectChain.getLast? = some remote.finalUrl
  short : remote.redirectChain.length ≤ request.maxRedirects + 1
  proven : ∀ proof, remote.rangeSupport = .proven proof →
    ∃ before asked response, log = before ++ [⟨true, asked⟩] ∧ sent.length ≤ before.length ∧
      asked.url = remote.finalUrl ∧ asked.range = some (.fromTo 0 0) ∧
      server before.length asked = .ok response ∧ response.status = 206 ∧
      RangeProof.fromObservedResponse (.fromTo 0 0) response.status response.contentRange
        response.contentEncoding response.chunks.flatten.length = .ok proof

structure Probed (sent : List (Exchange Url))
    (result : Except (ProbeError Url) (RemoteObject Url) × List (Exchange Url)) : Prop where
  sparing : result.2.length ≤ sent.length + request.maxRedirects + 2
  found : ∀ remote, result.1 = .ok remote → Found server join request sent result.2 remote

variable {server join resolve request now}

theorem Redirected.later (way : Redirected server join sent log here next) :
    Redirected server join sent (log ++ more) here next := by
  obtain ⟨before, exchange, after, response, location, rfl, rest⟩ := way
  exact ⟨before, exchange, after ++ more, response, location, by simp, rest⟩

theorem Followed.linked_later (way : Followed server join request sent current chain hops withRange log) :
    chain.IsChain (Redirected server join sent (log ++ more)) :=
  way.linked.imp fun _ _ => Redirected.later

theorem Followed.ends (way : Followed server join request sent current chain hops withRange log)
    (inside : ¬ hops > request.maxRedirects) (error : ProbeError Url) (exchange : Exchange Url) :
    Probed server join request sent (.error error, log ++ [exchange]) := by
  obtain ⟨added, rfl, few⟩ := way.logged
  have flag := Bool.toNat_le (!withRange)
  refine ⟨?_, fun _ impossible => by cases impossible⟩
  simp only [List.length_append, List.length_singleton]
  omega

theorem Followed.redirected
    (way : Followed server join request sent current chain hops withRange log)
    (inside : ¬ hops > request.maxRedirects) {asked : RangeRequest Url} (here : asked.url = current)
    (answered : server log.length asked = .ok response) (moved : isRedirect response.status = true)
    (located : response.location = some location) (joined : join current location = some next) :
    Followed server join request sent next (chain ++ [next]) (hops + 1) withRange
      (log ++ [⟨true, asked⟩]) := by
  obtain ⟨added, rfl, few⟩ := way.logged
  refine ⟨⟨added ++ [⟨true, asked⟩], by simp, by simp; omega⟩, ?_, by simp, ?_,
    by simp [way.counted], by omega⟩
  · rw [List.head?_append, way.first, Option.some_or]
  · refine List.isChain_append.mpr ⟨way.linked_later, List.isChain_singleton _, ?_⟩
    intro previous final other new
    rw [way.last] at final
    cases final
    cases new
    exact ⟨added, ⟨true, asked⟩, [], response, location, by simp, here, answered, moved, located,
      joined⟩

theorem conclusion_kept (concluded : probeConclusion resolve current chain withRange now response =
      .ok remote) : remote.finalUrl = current ∧ remote.redirectChain = chain ∧
    ∀ proof, remote.rangeSupport = .proven proof → withRange = true ∧
      RangeProof.fromObservedResponse (.fromTo 0 0) response.status response.contentRange
        response.contentEncoding response.chunks.flatten.length = .ok proof := by
  unfold probeConclusion at concluded
  split at concluded
  · cases concluded
  · split at concluded
    · cases concluded
    · cases concluded
    · split at concluded
      next ranged =>
        split at concluded
        next proof observed =>
          cases concluded
          refine ⟨rfl, rfl, ?_⟩
          intro other same
          cases same
          exact ⟨ranged, observed⟩
        · cases concluded
        · cases concluded
          exact ⟨rfl, rfl, by simp⟩
      · split at concluded
        · cases concluded
        · cases concluded
          exact ⟨rfl, rfl, by simp⟩

theorem Followed.concludes
    (way : Followed server join request sent current chain hops withRange log)
    (inside : ¬ hops > request.maxRedirects) {asked : RangeRequest Url} (here : asked.url = current)
    (ranged : asked.range = if withRange then some probeRange else none)
    (answered : server log.length asked = .ok response) :
    Probed server join request sent
      (probeConclusion resolve current chain withRange now response, log ++ [⟨true, asked⟩]) := by
  obtain ⟨added, shape, few⟩ := way.logged
  have flag := Bool.toNat_le (!withRange)
  have long : log.length = sent.length + added.length := by rw [shape, List.length_append]
  refine ⟨?_, ?_⟩
  · simp only [List.length_append, List.length_singleton]
    omega
  · intro remote concluded
    obtain ⟨rfl, rfl, observed⟩ := conclusion_kept concluded
    refine ⟨way.first, way.linked_later, way.last, ?_, ?_⟩
    · rw [way.counted]
      omega
    · intro proof proven
      obtain ⟨rfl, checked⟩ := observed proof proven
      exact ⟨log, asked, response, rfl, by omega, here, ranged, answered,
        (proof_observed checked).1, checked⟩

theorem probe_loop_probed
    (way : Followed server join request sent current chain hops withRange log) :
    Probed server join request sent
      (probeLoop server join resolve request now current chain hops withRange log) := by
  -- The induction is the recursion of the loop, from variables that have come as far as `Followed`
  -- says.
  fun_induction probeLoop server join resolve request now current chain hops withRange log with
  | case1 current chain hops withRange log beyond =>
    obtain ⟨added, rfl, few⟩ := way.logged
    have flag := Bool.toNat_le (!withRange)
    have within := way.within
    refine ⟨?_, fun _ impossible => by cases impossible⟩
    rw [List.length_append]
    omega
  | case2 | case3 | case4 | case5 | case8 | case9 =>
    exact way.ends (by assumption) _ _
  | case6 current chain hops withRange log inside asked _ response answered moved location located
      next joined ih =>
    exact ih (way.redirected inside rfl answered moved located joined)
  | case7 current chain hops withRange log inside asked _ response answered _ refused ih =>
    obtain ⟨added, rfl, few⟩ := way.logged
    refine ih ⟨⟨added ++ [⟨true, asked⟩], List.append_assoc .., ?_⟩, way.first, way.last,
      way.linked_later, way.counted, way.within⟩
    simp only [refused.2, Bool.not_true, Bool.toNat_false] at few
    simp only [List.length_append, List.length_singleton, Bool.not_false, Bool.toNat_true]
    omega
  | case10 current chain hops withRange log inside asked _ response answered _ _ _ _ =>
    exact way.concludes inside rfl rfl answered

end Turns

/-- A probe with a limit below the largest returns after at most two requests more than the
limit. Where it has a result, the chain leads from the requested URL to the final one along the
locations received, and a proof is that of the answer to its last request. -/
theorem probe_bounded (server : Server Url) (join : Url → List Char → Option Url)
    (resolve : Option (List Char) → Url → List Char) (now : Nat)
    (sent : List (Exchange Url)) (limit : request.maxRedirects < 2 ^ 32 - 1) :
    probeTurns server join resolve request now (request.maxRedirects + 3) request.url
        [request.url] 0 true sent = some (probe server join resolve request now sent) ∧
      Probed server join request sent (probe server join resolve request now sent) := by
  refine ⟨probe_turns_returned server join resolve request now limit _ _ _ _ _ _ (by simp), ?_⟩
  exact probe_loop_probed
    ⟨⟨[], by simp, by simp⟩, rfl, rfl, List.isChain_singleton _, rfl, by omega⟩

/-! A redirect from `a` to `b`, where a byte is served. -/

def emptyResponse (status : Nat) : Response :=
  ⟨status, none, none, none, none, none, none, none, none, none, none, none, .http11, [], .finished⟩

def movedServer : Server (List Char) := fun index _ =>
  if index = 0 then .ok { emptyResponse 302 with location := some ['b'] }
  else .ok { emptyResponse 206 with contentRange := some "bytes 0-0/4".toList, chunks := [[7]] }

def movedObject : RemoteObject (List Char) :=
  ⟨['b'], [['a'], ['b']], some 4, .proven ⟨4, .bytes 0 0 (some 4), .fromTo 0 0,
    ⟨.fromTo 0 0, 206, some "bytes 0-0/4".toList, none, 1⟩⟩, .none, none, .http11, some ['b'], 0⟩

def movedLog : List (Exchange (List Char)) :=
  [⟨true, ⟨['a'], some (.fromTo 0 0), none, [], 15000000000⟩⟩,
    ⟨true, ⟨['b'], some (.fromTo 0 0), none, [], 15000000000⟩⟩]

theorem moved_behind :
    probeLoop movedServer (fun _ location => some location) (fun _ url => url)
      (ProbeRequest.new ['a']) 0 ['b'] [['a'], ['b']] 1 true (movedLog.take 1) =
        (.ok movedObject, movedLog) := by
  rw [probeLoop]
  rfl

theorem moved_probe :
    probe movedServer (fun _ location => some location) (fun _ url => url)
      (ProbeRequest.new ['a']) 0 [] = (.ok movedObject, movedLog) := by
  rw [probe, probeLoop]
  exact moved_behind

theorem probe_bounded_moved :
    movedLog.length ≤ 12 ∧
    [['a'], ['b']].IsChain (Redirected movedServer (fun _ location => some location) [] movedLog) ∧
    probeTurns movedServer (fun _ location => some location) (fun _ url => url)
      (ProbeRequest.new ['a']) 0 13 ['a'] [['a']] 0 true [] = some (.ok movedObject, movedLog) := by
  obtain ⟨returned, probed⟩ := probe_bounded movedServer (fun _ location => some location)
    (fun _ url => url) 0 [] (show (ProbeRequest.new ['a']).maxRedirects < 2 ^ 32 - 1 by decide)
  rw [moved_probe] at returned probed
  exact ⟨probed.sparing, (probed.found movedObject rfl).linked, returned⟩

end Probe

end Downpour.Probing
