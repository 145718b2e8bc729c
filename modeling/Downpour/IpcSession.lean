import Downpour.Ipc

/-!
One client connection: a token, a flag, and a command handler of any kind behind
them. The token is compared digit by digit, with all differences collected before
the verdict. The handler is reached only behind a successful hello.
-/

namespace Downpour.IpcSession
open Ipc

/-! The session token. -/

structure SessionToken where
  bytes : List.Vector UInt8 32
  deriving DecidableEq

def decodeLowerHex (byte : UInt8) : Option UInt8 :=
  if 48 ≤ byte ∧ byte ≤ 57 then some (byte - 48)
  else if 97 ≤ byte ∧ byte ≤ 102 then some (byte - 97 + 10)
  else none

def hexDigit (value : UInt8) : UInt8 := if value < 10 then 48 + value else 97 + (value - 10)

/-- The loop of `matches_wire` over the bytes of the token and the digits of the
candidate, two digits for each byte. -/
def matchesLoop (difference : UInt8) : List UInt8 → List UInt8 → Bool
  | expected :: rest, first :: second :: digits =>
    match decodeLowerHex first with
    | none => false
    | some high =>
      match decodeLowerHex second with
      | none => false
      | some low =>
        matchesLoop (difference ||| (expected ^^^ (high <<< 4 ||| low))) rest digits
  | _, _ => difference == 0

namespace SessionToken

def matchesWire (token : SessionToken) (candidate : List UInt8) : Bool :=
  if candidate.length ≠ 64 then false else matchesLoop 0 token.bytes.toList candidate

def toWire (token : SessionToken) : SecretString :=
  ⟨token.bytes.toList.flatMap fun byte : UInt8 => [hexDigit (byte >>> 4), hexDigit (byte &&& 15)]⟩

end SessionToken

theorem every_byte (property : UInt8 → Bool)
    (checked : (List.range 256).all (fun value => property (UInt8.ofNat value)) = true) :
    ∀ byte, property byte = true := by
  -- A property of all bytes, checked one by one.
  intro byte
  have small : byte.toNat ∈ List.range 256 := List.mem_range.mpr byte.toNat_lt
  have found := List.all_eq_true.mp checked byte.toNat small
  rwa [UInt8.ofNat_toNat] at found

theorem decode_hex_digit (byte digit : UInt8) :
    decodeLowerHex byte = some digit ↔ digit < 16 ∧ byte = hexDigit digit := by
  unfold decodeLowerHex hexDigit
  constructor
  · intro decoded
    split at decoded
    · cases decoded
      constructor <;> grind
    · split at decoded
      · cases decoded
        constructor <;> grind
      · cases decoded
  · rintro ⟨small, rfl⟩
    grind

theorem byte_halves (byte : UInt8) :
    byte >>> 4 < 16 ∧ byte &&& 15 < 16 ∧ (byte >>> 4) <<< 4 ||| (byte &&& 15) = byte :=
  of_decide_eq_true (every_byte (fun byte => decide (byte >>> 4 < 16 ∧ byte &&& 15 < 16 ∧
    (byte >>> 4) <<< 4 ||| (byte &&& 15) = byte)) (by decide +kernel) byte)

theorem halves_byte {high low : UInt8} (highSmall : high < 16) (lowSmall : low < 16) :
    (high <<< 4 ||| low) >>> 4 = high ∧ (high <<< 4 ||| low) &&& 15 = low := by
  have checked : ∀ left < 16, ∀ right < 16,
      (UInt8.ofNat left <<< 4 ||| UInt8.ofNat right) >>> 4 = UInt8.ofNat left ∧
        (UInt8.ofNat left <<< 4 ||| UInt8.ofNat right) &&& 15 = UInt8.ofNat right := by
    decide +kernel
  have found := checked high.toNat highSmall low.toNat lowSmall
  rwa [UInt8.ofNat_toNat, UInt8.ofNat_toNat] at found

theorem matches_loop_iff (difference : UInt8) (digits : List UInt8)
    (sized : digits.length = 2 * expected.length) :
    matchesLoop difference expected digits = true ↔ difference = 0 ∧
      digits = expected.flatMap fun byte : UInt8 => [hexDigit (byte >>> 4), hexDigit (byte &&& 15)] := by
  induction expected generalizing difference digits with
  | nil =>
    rw [List.length_eq_zero_iff.mp sized]
    simp [matchesLoop]
  | cons byte rest ih =>
    match digits, sized with
    | first :: second :: others, sized =>
      have tail : others.length = 2 * rest.length := by
        simp only [List.length_cons] at sized
        omega
      rw [List.flatMap_cons, matchesLoop]
      constructor
      · intro accepted
        split at accepted
        · cases accepted
        next high highRead =>
          split at accepted
          · cases accepted
          next low lowRead =>
            obtain ⟨highSmall, rfl⟩ := (decode_hex_digit first high).mp highRead
            obtain ⟨lowSmall, rfl⟩ := (decode_hex_digit second low).mp lowRead
            obtain ⟨none, rfl⟩ := (ih _ others tail).mp accepted
            obtain ⟨start, same⟩ := UInt8.or_eq_zero_iff.mp none
            rw [UInt8.xor_eq_zero_iff.mp same, (halves_byte highSmall lowSmall).1,
              (halves_byte highSmall lowSmall).2]
            exact ⟨start, rfl⟩
      · rintro ⟨rfl, same⟩
        simp only [List.cons_append, List.nil_append, List.cons.injEq] at same
        obtain ⟨rfl, rfl, rfl⟩ := same
        obtain ⟨highSmall, lowSmall, joined⟩ := byte_halves byte
        rw [(decode_hex_digit _ _).mpr ⟨highSmall, rfl⟩, (decode_hex_digit _ _).mpr ⟨lowSmall, rfl⟩]
        simp only
        rw [joined]
        exact (ih _ _ tail).mpr ⟨by simp, rfl⟩

theorem to_wire_length (token : SessionToken) : token.toWire.expose.length = 64 := by
  have sized : ∀ bytes : List UInt8, (bytes.flatMap fun byte : UInt8 =>
      [hexDigit (byte >>> 4), hexDigit (byte &&& 15)]).length = 2 * bytes.length := by
    intro bytes
    induction bytes with
    | nil => rfl
    | cons byte rest ih =>
      rw [List.flatMap_cons, List.length_append, ih]
      simp only [List.length_cons, List.length_nil]
      omega
  rw [SessionToken.toWire, sized, token.bytes.toList_length]

theorem matches_wire_iff (token : SessionToken) (candidate : List UInt8) :
    token.matchesWire candidate = true ↔ candidate = token.toWire.expose := by
  unfold SessionToken.matchesWire
  by_cases sized : candidate.length = 64
  · rw [if_neg (not_not.mpr sized), matches_loop_iff 0 _ (by rw [sized, token.bytes.toList_length])]
    simp [SessionToken.toWire]
  · rw [if_pos sized]
    constructor
    · exact nofun
    · rintro rfl
      exact absurd (to_wire_length token) sized

theorem to_wire_digits (token : SessionToken) :
    ∀ digit ∈ token.toWire.expose, ∃ value < 16, digit = hexDigit value := by
  intro digit mem
  obtain ⟨byte, _, found⟩ := List.mem_flatMap.mp mem
  obtain ⟨high, low, _⟩ := byte_halves byte
  rcases List.mem_cons.mp found with rfl | found
  · exact ⟨_, high, rfl⟩
  · rw [List.mem_singleton.mp found]
    exact ⟨_, low, rfl⟩

/-! The session. -/

inductive SessionError where
  | codec (error : CodecError)
  | authenticationRequired
  | authenticationFailed
  | unsupportedVersion (requested supported : UInt32)
  | helloRepeated
  deriving DecidableEq, Repr

structure Session where
  token : SessionToken
  authenticated : Bool
  deriving DecidableEq

def Session.new (token : SessionToken) : Session := ⟨token, false⟩

def requestVersion : Request → UInt32
  | .hello params => params.protocolVersion
  | .downloadAdd params => params.protocolVersion
  | .downloadGet params | .downloadResume params => params.protocolVersion
  | .systemStatus params => params.protocolVersion

def ensureVersion (requested : UInt32) : Except SessionError Unit :=
  if requested = protocolVersion then .ok ()
  else .error (.unsupportedVersion requested protocolVersion)

/-- What one payload comes to: the result, the session and the handler after it,
and the request that the handler was called with. -/
structure Handled (State : Type) where
  result : Except SessionError (UInt64 × Response)
  session : Session
  state : State
  dispatched : Option Request

section Sessions
variable (serde : Serde) {State : Type} (handle : State → Request → Response × State)
variable (daemonVersion : String)

def handlePayload (session : Session) (state : State) (payload : List UInt8) : Handled State :=
  match decodeRequest serde payload with
  | .error error => ⟨.error (.codec error), session, state, none⟩
  | .ok (id, .hello params) =>
    if session.authenticated then ⟨.error .helloRepeated, session, state, none⟩
    else match ensureVersion params.protocolVersion with
      | .error error => ⟨.error error, session, state, none⟩
      | .ok () =>
        if session.token.matchesWire params.token.expose = false then
          ⟨.error .authenticationFailed, session, state, none⟩
        else
          ⟨.ok (id, .hello ⟨protocolVersion, daemonVersion, ["h1-segments"]⟩),
            { session with authenticated := true }, state, none⟩
  | .ok (id, request) =>
    if session.authenticated = false then ⟨.error .authenticationRequired, session, state, none⟩
    else match ensureVersion (requestVersion request) with
      | .error error => ⟨.error error, session, state, none⟩
      | .ok () =>
        let handled := handle state request
        ⟨.ok (id, handled.1), session, handled.2, some request⟩

def handlePayloads (session : Session) (state : State) : List (List UInt8) → Session × State
  | [] => (session, state)
  | payload :: rest =>
    let handled := handlePayload serde handle daemonVersion session state payload
    handlePayloads handled.session handled.state rest

/-- The payload is a hello with the session token, at the version of the daemon. -/
def Introduces (token : SessionToken) (payload : List UInt8) : Prop :=
  ∃ id params, decodeRequest serde payload = .ok (id, .hello params) ∧
    params.protocolVersion = 1 ∧ params.token = token.toWire

theorem ensure_version_ok (accepted : ensureVersion requested = .ok ()) :
    requested = 1 := by
  unfold ensureVersion at accepted
  split at accepted
  · assumption
  · cases accepted

/-- What a payload can do to a session: it is refused, it is the hello, or it is a
command of a session that is authenticated already. -/
inductive Outcome (session : Session) (state : State) (payload : List UInt8) :
    Handled State → Prop where
  | refused (error : SessionError) :
      Outcome session state payload ⟨.error error, session, state, none⟩
  | introduced (id : UInt64) (result : HelloResult)
      (hello : Introduces serde session.token payload) :
      Outcome session state payload
        ⟨.ok (id, .hello result), { session with authenticated := true }, state, none⟩
  | commanded (id : UInt64) (request : Request) (authenticated : session.authenticated = true)
      (decoded : decodeRequest serde payload = .ok (id, request))
      (command : ∀ params, request ≠ .hello params) (version : requestVersion request = 1) :
      Outcome session state payload
        ⟨.ok (id, (handle state request).1), session, (handle state request).2, some request⟩

variable {serde}

variable {session : Session}

theorem command_outcome {state : State} {payload : List UInt8} {id : UInt64} {request : Request}
    (decoded : decodeRequest serde payload = .ok (id, request))
    (command : ∀ params, request ≠ .hello params) :
    Outcome serde handle session state payload
      (if session.authenticated = false then
        ⟨.error .authenticationRequired, session, state, none⟩
      else match ensureVersion (requestVersion request) with
        | .error error => ⟨.error error, session, state, none⟩
        | .ok () =>
          ⟨.ok (id, (handle state request).1), session, (handle state request).2,
            some request⟩) := by
  by_cases anonymous : session.authenticated = false
  · rw [if_pos anonymous]
    exact .refused _
  · rw [if_neg anonymous]
    cases version : ensureVersion (requestVersion request) with
    | error error => exact .refused _
    | ok accepted =>
      exact .commanded id request (by simpa using anonymous) decoded command
        (ensure_version_ok version)

theorem handle_payload_outcome (session : Session) (state : State) (payload : List UInt8) :
    Outcome serde handle session state payload
      (handlePayload serde handle daemonVersion session state payload) := by
  unfold handlePayload
  cases decoded : decodeRequest serde payload with
  | error error => exact .refused _
  | ok found =>
    obtain ⟨id, request⟩ := found
    cases request with
    | hello params =>
      simp only
      by_cases repeated : session.authenticated = true
      · rw [if_pos repeated]
        exact .refused _
      · rw [if_neg repeated]
        cases version : ensureVersion params.protocolVersion with
        | error error => exact .refused _
        | ok accepted =>
          simp only
          by_cases wrong : session.token.matchesWire params.token.expose = false
          · rw [if_pos wrong]
            exact .refused _
          · rw [if_neg wrong]
            have same := (matches_wire_iff session.token params.token.expose).mp
              (by simpa using wrong)
            have wire : params.token = session.token.toWire := congrArg SecretString.mk same
            exact .introduced id _ ⟨id, params, decoded, ensure_version_ok version, wire⟩
    | downloadAdd params => exact command_outcome handle decoded nofun
    | downloadGet params => exact command_outcome handle decoded nofun
    | downloadResume params => exact command_outcome handle decoded nofun
    | systemStatus params => exact command_outcome handle decoded nofun

/-- The token never changes, and the session is authenticated only once a hello with
that token has been read. -/
def Vouched (serde : Serde) (token : SessionToken) (earlier : List (List UInt8))
    (session : Session) : Prop :=
  session.token = token ∧
    (session.authenticated = true → ∃ hello ∈ earlier, Introduces serde token hello)

theorem vouched_payload (vouched : Vouched serde token earlier session)
    (outcome : Outcome serde handle session state payload handled) :
    Vouched serde token (earlier ++ [payload]) handled.session := by
  have kept : Vouched serde token (earlier ++ [payload]) session :=
    ⟨vouched.1, fun authenticated =>
      (vouched.2 authenticated).imp fun _ hello => ⟨List.mem_append_left _ hello.1, hello.2⟩⟩
  cases outcome with
  | refused error => exact kept
  | introduced id result hello =>
    exact ⟨vouched.1, fun _ => ⟨payload, by simp, vouched.1 ▸ hello⟩⟩
  | commanded id request authenticated decoded command version => exact kept

theorem vouched_payloads (payloads : List (List UInt8))
    (state : State) (vouched : Vouched serde token earlier session) :
    Vouched serde token (earlier ++ payloads)
      (handlePayloads serde handle daemonVersion session state payloads).1 := by
  induction payloads generalizing earlier session state with
  | nil => simpa [handlePayloads] using vouched
  | cons payload rest ih =>
    have step := vouched_payload handle vouched
      (handle_payload_outcome handle daemonVersion session state payload)
    have whole := ih (handlePayload serde handle daemonVersion session state payload).state step
    rwa [List.append_assoc, List.singleton_append] at whole

end Sessions

/-- The authentication boundary of a connection, for any JSON library, any command
handler and any payloads a client may choose to send. -/
theorem authentication_boundary (serde : Serde) {State : Type}
    (handle : State → Request → Response × State) (daemonVersion : String) (token : SessionToken)
    (state : State) (earlier : List (List UInt8)) (payload : List UInt8) :
    let before := handlePayloads serde handle daemonVersion (Session.new token) state earlier
    let after := handlePayload serde handle daemonVersion before.1 before.2 payload
    (∀ request, after.dispatched = some request →
      (∃ hello ∈ earlier, Introduces serde token hello) ∧
      (∃ id, decodeRequest serde payload = .ok (id, request)) ∧
      (∀ params, request ≠ .hello params) ∧ requestVersion request = 1) ∧
    (∀ error, after.result = .error error →
      after.dispatched = none ∧ after.state = before.2 ∧ after.session = before.1) ∧
    (after.dispatched = none → after.state = before.2) ∧
    (∀ candidate, token.matchesWire candidate = true ↔ candidate = token.toWire.expose) ∧
    token.toWire.expose.length = 64 ∧
    ∀ digit ∈ token.toWire.expose, ∃ value < 16, digit = hexDigit value := by
  intro before after
  have vouched : Vouched serde token ([] ++ earlier) before.1 :=
    vouched_payloads handle daemonVersion earlier state ⟨rfl, nofun⟩
  have outcome : Outcome serde handle before.1 before.2 payload after :=
    handle_payload_outcome handle daemonVersion before.1 before.2 payload
  refine ⟨?_, ?_, ?_, matches_wire_iff token, to_wire_length token, to_wire_digits token⟩
  · intro request dispatched
    generalize after = handled at outcome dispatched
    cases outcome with
    | refused error => cases dispatched
    | introduced id result hello => cases dispatched
    | commanded id command authenticated decoded foreign version =>
      cases dispatched
      exact ⟨vouched.2 authenticated, ⟨id, decoded⟩, foreign, version⟩
  · intro error rejected
    generalize after = handled at outcome rejected ⊢
    cases outcome with
    | refused error => exact ⟨rfl, rfl, rfl⟩
    | introduced id result hello => cases rejected
    | commanded id command authenticated decoded foreign version => cases rejected
  · intro idle
    generalize after = handled at outcome idle ⊢
    cases outcome with
    | refused error => rfl
    | introduced id result hello => rfl
    | commanded id command authenticated decoded foreign version => cases idle

/-! Two messages of a client, as the JSON library writes them. -/

def zeroToken : SessionToken := ⟨List.Vector.replicate 32 0⟩

def joined (parts : List String) : List Char := parts.flatMap String.toList

def ascii (text : List Char) : List UInt8 := text.map fun letter => UInt8.ofNat letter.toNat

def helloValue : List Char :=
  joined ["\x7b\"client\":\"cli\",", "\"protocol_version\":1,", "\"token\":\""] ++
    List.replicate 64 '0' ++ joined ["\"\x7d"]

def statusValue : List Char := joined ["\x7b\"protocol_version\":1\x7d"]

def requestText (id method : String) (params : List Char) : List UInt8 :=
  ascii (joined ["\x7b\"jsonrpc\":\"2.0\",", "\"id\":", id, ",\"method\":\"", method, "\",\"params\":"] ++
    params ++ joined ["\x7d"])

def helloMessage : List UInt8 := requestText "1" "hello" helloValue

def statusMessage : List UInt8 := requestText "2" "system.status" statusValue

/-- What the library reads of these two messages; a value is given by its text. -/
def greeting : Serde where
  Value := List Char
  envelope payload :=
    if payload = helloMessage then some ⟨"2.0", 1, "hello", helloValue⟩
    else if payload = statusMessage then some ⟨"2.0", 2, "system.status", statusValue⟩
    else none
  hello value := if value = helloValue then some ⟨1, "cli", zeroToken.toWire⟩ else none
  add _ := none
  id _ := none
  version value := if value = statusValue then some ⟨1⟩ else none

/-- A status request reaches the handler behind the hello, and a second hello does not. -/
theorem authentication_boundary_greeted :
    let handle : Nat → Request → Response × Nat :=
      fun calls _ => (.status ⟨1, "0", 0, 0, 0, 0⟩, calls + 1)
    let greeted := handlePayloads greeting handle "0" (Session.new zeroToken) 0 [helloMessage]
    (∃ hello ∈ [helloMessage], Introduces greeting zeroToken hello) ∧
      (handlePayload greeting handle "0" greeted.1 greeted.2 helloMessage).state = greeted.2 ∧
      (handlePayload greeting handle "0" greeted.1 greeted.2 statusMessage).state = 1 := by
  intro handle greeted
  refine ⟨?_, ?_, ?_⟩
  · exact ((authentication_boundary greeting handle "0" zeroToken 0 [helloMessage]
      statusMessage).1 (.systemStatus ⟨1⟩) (by decide +kernel)).1
  · exact ((authentication_boundary greeting handle "0" zeroToken 0 [helloMessage]
      helloMessage).2.1 .helloRepeated (by decide +kernel)).2.1
  · decide +kernel

end Downpour.IpcSession
