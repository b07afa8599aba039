import NostdbServer.Exchange

/-!
# Handshake — nothing before the welcome, one version after it

The opening frame is answered with `welcome` exactly where it is a
`hello` that offers version 1, whatever else it offers. Everything else a
connection does stands behind the welcome it sent, and from there on each
request that is carried out states the welcome's version, as does each
reply (`handshake_gate`).
-/

namespace NostdbServer

open Response Message

variable {E : Engine}

/-! ## What the opening frame offers -/

/-- A body that is a `hello` and offers version 1. -/
def OffersOne (host : Host) (body : String) : Prop :=
  ∃ object values, objectOf host body = .ok object ∧
    object.get? "message" = some (.string "hello") ∧
    object.get? "supported_versions" = some (.array values) ∧ Value.u64 1 ∈ values

/-- The one version this build speaks is negotiated wherever it is
offered. -/
theorem negotiate_ok {hello : Hello} {version : UInt64} :
    negotiate hello = .ok version ↔ version = 1 ∧ 1 ∈ hello.supportedVersions := by
  have hmem (v : UInt64) : v ∈ hello.supportedVersions.filter (SUPPORTED_VERSIONS.contains ·) ↔
      v = 1 ∧ 1 ∈ hello.supportedVersions := by
    rw [List.mem_filter]
    constructor
    · rintro ⟨hv, hspoken⟩
      have hone : v = 1 := by simpa [SUPPORTED_VERSIONS] using hspoken
      exact ⟨hone, hone ▸ hv⟩
    · rintro ⟨rfl, hone⟩
      exact ⟨hone, rfl⟩
  have : Std.MaxEqOr UInt64 := ⟨fun a b => by
    show (if a ≤ b then b else a) = a ∨ (if a ≤ b then b else a) = b
    split
    · exact .inr rfl
    · exact .inl rfl⟩
  unfold negotiate
  split
  · rename_i chosen hmax
    have hchosen := (hmem chosen).mp (List.max?_mem hmax)
    constructor
    · intro h
      cases h
      exact hchosen
    · rintro ⟨rfl, -⟩
      rw [hchosen.1]
  · rename_i hnone
    rw [List.max?_eq_none_iff] at hnone
    constructor
    · intro h
      cases h
    · rintro ⟨-, hone⟩
      have hnil := (hmem 1).mpr ⟨rfl, hone⟩
      rw [hnone] at hnil
      cases hnil

/-- A body is decoded as a `hello` where it is an object whose message is
`hello`. -/
theorem decodeHello_ok {host : Host} {body : String} {hello : Hello} :
    decodeHello host body = .ok hello ↔ ∃ object, objectOf host body = .ok object ∧
      object.get? "message" = some (.string "hello") ∧
      hello.supportedVersions = (((object.get? "supported_versions").bind Value.asArray).map
        (fun values => values.filterMap Value.asU64)).getD [] ∧
      hello.client = (object.get? "client").bind Value.asStr := by
  unfold decodeHello
  cases hobject : objectOf host body with
  | error refusal => simp
  | ok object =>
    simp only [Except.ok.injEq, exists_eq_left']
    cases hmessage : (object.get? "message").bind Value.asStr with
    | none =>
      have hnot : object.get? "message" ≠ some (.string "hello") := by
        intro h
        rw [h] at hmessage
        cases hmessage
      simp [hnot]
    | some other =>
      obtain ⟨value, hvalue, hstr⟩ := Option.bind_eq_some_iff.mp hmessage
      rw [hvalue, Value.eq_string_of_asStr hstr]
      simp only [Option.some.injEq, Value.string.injEq]
      split
      · rename_i hother
        constructor
        · intro h
          cases h
          exact ⟨hother, rfl, rfl⟩
        · rintro ⟨-, hversions, hclient⟩
          rw [← hversions, ← hclient]
      · rename_i hother
        simp [hother]

/-- **The opening is accepted exactly where it offers version 1.** -/
theorem negotiate_decodeHello {host : Host} {body : String} {version : UInt64} :
    (decodeHello host body).bind negotiate = .ok version ↔
      version = 1 ∧ OffersOne host body := by
  constructor
  · intro h
    cases hhello : decodeHello host body with
    | error refusal =>
      rw [hhello] at h
      cases h
    | ok hello =>
      rw [hhello] at h
      obtain ⟨hversion, hone⟩ := negotiate_ok.mp h
      obtain ⟨object, hobject, hmessage, hversions, -⟩ := decodeHello_ok.mp hhello
      refine ⟨hversion, object, ?_⟩
      rw [hversions] at hone
      cases hstated : (object.get? "supported_versions").bind Value.asArray with
      | none =>
        rw [hstated] at hone
        cases hone
      | some values =>
        rw [hstated] at hone
        obtain ⟨value, hmem, hu64⟩ := List.mem_filterMap.mp hone
        obtain ⟨array, harray, hvalues⟩ := Option.bind_eq_some_iff.mp hstated
        refine ⟨values, hobject, hmessage, ?_, Value.eq_u64_of_asU64 hu64 ▸ hmem⟩
        rw [harray]
        cases array with
        | array items =>
          cases hvalues
          rfl
        | _ => cases hvalues
  · rintro ⟨rfl, object, values, hobject, hmessage, hvalues, hone⟩
    have hhello : decodeHello host body = .ok ⟨values.filterMap Value.asU64,
        (object.get? "client").bind Value.asStr⟩ := by
      rw [decodeHello_ok]
      exact ⟨object, hobject, hmessage, by rw [hvalues]; rfl, rfl⟩
    rw [hhello]
    exact negotiate_ok.mpr ⟨rfl, List.mem_filterMap.mpr ⟨_, hone, rfl⟩⟩

/-- A stream whose first frame is complete, and offers version 1. -/
def Offered (env : Env E) (stream : Stream) : Prop :=
  ∃ body, (Frame.readFrame stream env.limits.maxFrameBytes).1 = .ok body ∧ OffersOne env.host body

/-- What the handshake comes to, by whether version 1 was offered. -/
theorem handshake_cases (env : Env E) (stream : Stream) :
    let opening := (Frame.readFrame stream env.limits.maxFrameBytes).1
    (¬ Offered env stream ∧ ∃ how replied, (handshake env { stream }).1 = .error how ∧
        (handshake env { stream }).2.log = .read .opening opening :: replied ∧
        (replied = [] ∨ ∃ body refusal sent, opening = .ok body ∧
          (decodeHello env.host body).bind negotiate = .error refusal ∧
          replied = [.sent refused sent])) ∨
      (Offered env stream ∧ ∃ body sent, opening = .ok body ∧
        (handshake env { stream }).2.log
          = [.read .opening (.ok body), .sent (welcome 1 env.endpoint) sent] ∧
        (handshake env { stream }).1 = match sent with
          | .ok () => .ok 1
          | .error _ => .error .transportFailed) := by
  intro opening
  have hread : (receive env .opening { stream }).1 = opening := rfl
  have hlog : (receive env .opening ({ stream } : World E)).2.log = [.read .opening opening] := rfl
  have hoffered : Offered env stream ↔ ∃ body, opening = .ok body ∧ OffersOne env.host body :=
    Iff.rfl
  rw [hoffered]
  unfold handshake
  clear_value opening
  generalize receive env .opening { stream } = out at hread hlog ⊢
  obtain ⟨result, world⟩ := out
  subst hread
  cases result with
  | error error =>
    refine .inl ⟨by simp, ?_⟩
    cases error <;> exact ⟨_, [], rfl, hlog, .inl rfl⟩
  | ok body =>
    cases hoffer : (decodeHello env.host body).bind negotiate with
    | error refusal =>
      refine .inl ⟨?_, .handshakeRefused, [.sent refused (send env world refused).1], ?_⟩
      · rintro ⟨body', hbody, hone⟩
        cases hbody
        rw [negotiate_decodeHello.mpr ⟨rfl, hone⟩] at hoffer
        cases hoffer
      · simp only [hoffer]
        exact ⟨trivial, congrArg (· ++ _) hlog, .inr ⟨body, refusal, _, rfl, hoffer, rfl⟩⟩
    | ok version =>
      obtain ⟨rfl, hone⟩ := negotiate_decodeHello.mp hoffer
      refine .inr ⟨⟨body, rfl, hone⟩, body, (send env world (welcome 1 env.endpoint)).1, rfl, ?_⟩
      simp only [hoffer]
      have hsent : (send env world (welcome 1 env.endpoint)).2.log
          = [.read .opening (.ok body), .sent (welcome 1 env.endpoint)
              (send env world (welcome 1 env.endpoint)).1] := congrArg (· ++ _) hlog
      generalize send env world (welcome 1 env.endpoint) = out at hsent ⊢
      obtain ⟨sent, world'⟩ := out
      rcases sent with error | ⟨⟩ <;> exact ⟨hsent, rfl⟩

/-! ## Behind the welcome -/

/-- What is sent states the version, and what is done is done for a
request that did. -/
def Event.Speaks (version : UInt64) (e : Event E) : Prop :=
  (∀ value, e.reply = some value →
    value.get "server_protocol_version" = some (Value.u64 version)) ∧
  ∀ request, e.request = some request → request.serverProtocolVersion = version

/-- **Every reply states the connection's version.** -/
theorem Answers.version {version : UInt64} {heard : Heard} {refusal : Option Refusal}
    {value : Value} (h : Answers version heard refusal value) :
    value.get "server_protocol_version" = some (Value.u64 version) := by
  have hrefusal (requestId : Option String) (refusal : Refusal) :
      (refusalResponse version requestId refusal).get "server_protocol_version"
        = some (Value.u64 version) := by
    unfold refusalResponse
    cases requestId <;> cases refusal.code <;> simp [OrdMap.get?_insert]
  cases h with
  | undecoded refusal => exact hrefusal none refusal
  | refused request refusal => exact hrefusal _ refusal
  | _ =>
    simp [frameTooLargeResponse, okResponse, errorResponse, diagnosticResponse, rowsResponse,
      get_json, OrdMap.ofList, OrdMap.insertAll, OrdMap.get?_insert]

/-- A request that is heard states version 1. -/
theorem version_of_asked {env : Env E} {outstanding : Finset String}
    {result : Except FrameError String} {request : Request}
    (h : (heardRead env outstanding result).asked = some request) :
    request.serverProtocolVersion = 1 := by
  cases result with
  | error error => cases h
  | ok body =>
    simp only [heardRead, heardBody] at h
    cases hdecode : decodeRequest env.host body outstanding with
    | error refusal =>
      rw [hdecode] at h
      cases h
    | ok request' =>
      rw [hdecode] at h
      cases h
      obtain ⟨object, -, hversion, -⟩ := decodeRequest_ok hdecode
      exact (decodeVersion_ok hversion).2

theorem Event.About.speaks {asked : Option Request} {version : UInt64} {e : Event E}
    (h : e.About asked) (hasked : ∀ request, asked = some request →
      request.serverProtocolVersion = version) : e.Speaks version := by
  refine ⟨fun value hvalue => ?_, fun request hrequest => hasked request (h.2.2.2 request hrequest)⟩
  rw [h.2.1] at hvalue
  cases hvalue

/-- A later `hello` is refused. -/
theorem decodeRequest_hello {host : Host} {body : String} {outstanding : Finset String}
    {object : Map} (hobject : objectOf host body = .ok object)
    (hmessage : object.get? "message" = some (.string "hello")) :
    ∃ refusal, decodeRequest host body outstanding = .error refusal := by
  unfold decodeRequest
  simp only [hobject, hmessage]
  cases decodeVersion object with
  | error refusal => exact ⟨_, rfl⟩
  | ok version => exact ⟨_, rfl⟩

/-- A log that opens with the welcome and speaks its version from there. -/
def Welcomed (env : Env E) (log : List (Event E)) : Prop :=
  ∃ body rest, log = .read .opening (.ok body) :: .sent (welcome 1 env.endpoint) (.ok ()) :: rest ∧
    ∀ e ∈ rest, e.Speaks 1

/-- The step lemma of the version. -/
theorem welcomed_step (env : Env E) {state : State E} (h : Welcomed env state.world.log) :
    Welcomed env (step env 1 state).world.log := by
  cases hread : state.received env with
  | none =>
    rw [step_of_received_none _ hread]
    exact h
  | some read =>
    obtain ⟨place, result, world⟩ := read
    obtain ⟨body, rest, hlog, hspeaks⟩ := h
    obtain ⟨before, reply, after, hstep, hbefore, hafter, hreply⟩ := step_log env 1 hread
    have hasked (request : Request)
        (h : (heardRead env state.outstanding result).asked = some request) :
        request.serverProtocolVersion = 1 := version_of_asked h
    have hquiet (e : Event E) (hreply : e.reply = none) (hrequest : e.request = none) :
        e.Speaks 1 := by
      refine ⟨fun value hvalue => ?_, fun request h => ?_⟩
      · rw [hreply] at hvalue
        cases hvalue
      · rw [hrequest] at h
        cases h
    refine ⟨body, _, by rw [hstep, State.received_log hread, hlog]; rfl, ?_⟩
    intro e he
    simp only [List.append_eq, List.mem_append, List.mem_singleton] at he
    rcases he with (he | rfl) | ((he | he) | he) | he
    · exact hspeaks e he
    · exact hquiet _ rfl rfl
    · obtain ⟨request, hmem, rfl⟩ := List.mem_map.mp he
      rw [Option.mem_toList] at hmem
      refine ⟨fun value hvalue => (by cases hvalue), fun request' h => ?_⟩
      cases h
      exact hasked request hmem
    · exact (hbefore e he).speaks hasked
    · rcases hreply with ⟨rfl, -⟩ | ⟨value, sent, rfl, hanswers⟩
      · cases he
      · rw [List.mem_singleton.mp he]
        refine ⟨fun value' hvalue => ?_, fun request h => by cases h⟩
        injection hvalue with hvalue
        exact hvalue ▸ hanswers.version
    · exact (Event.about_of_isEnd none (hafter e he)).speaks (fun request h => by cases h)

/-- Where a connection stands by how its handshake went: turned away, or
welcomed. -/
theorem welcomed_run (env : Env E) (fuel : Nat) (stream : Stream) :
    let state := serveConnection env fuel stream
    (∃ how slot world, state = .ended how slot world ∧
        world.log = (handshake env { stream }).2.log ∧
        ∀ version, (handshake env { stream }).1 ≠ .ok version) ∨
      ((handshake env { stream }).1 = .ok 1 ∧ Welcomed env state.world.log) := by
  intro state
  cases hhandshake : (handshake env { stream }).1 with
  | error how =>
    refine .inl ⟨how, Slot.new, (handshake env { stream }).2, ?_, rfl, by simp⟩
    simp only [state, serveConnection]
    rw [show handshake env { stream } = (.error how, (handshake env { stream }).2) from
      Prod.ext hhandshake rfl]
  | ok version =>
    right
    rcases handshake_cases env stream with
      ⟨-, how, -, herror, -⟩ | ⟨-, body, sent, -, hlog, hresult⟩
    · rw [hhandshake] at herror
      cases herror
    · rw [hhandshake] at hresult
      rcases sent with error | ⟨⟩
      · cases hresult
      · cases hresult
        refine ⟨rfl, ?_⟩
        have hstart : start env stream = (1, .main Slot.new ∅ (handshake env { stream }).2) := by
          simp only [start]
          rw [show handshake env { stream } = (.ok 1, (handshake env { stream }).2) from
            Prod.ext hhandshake rfl]
        have hbegin : Welcomed env (start env stream).2.world.log := by
          rw [hstart]
          exact ⟨body, [], hlog, by simp⟩
        have hstep (state : State E) (h : Welcomed env state.world.log) :
            Welcomed env (step env (start env stream).1 state).world.log := by
          rw [hstart]
          exact welcomed_step env h
        obtain ⟨n, hn⟩ := serveConnection_eq_connection env fuel stream
        simp only [state, hn]
        exact connection_invariant hstep hbegin n

/-! ## The gate -/

/-- What is neither a read nor a reply is done for a request. -/
def Event.isWork (e : Event E) : Bool := !e.isRead && e.reply.isNone

/-- What is executed for a frame was stated by it: the version, and no
`hello`. -/
def StatesOne (env : Env E) (place : Place) (body : String) (events : List (Event E))
    (_ : Value) : Prop :=
  ∀ request, .decoded place request ∈ events → ∃ object, objectOf env.host body = .ok object ∧
    object.get? "server_protocol_version" = some (Value.u64 1) ∧
    object.get? "message" ≠ some (.string "hello")

/-- What the handshake decides of a whole connection. -/
structure Gate (env : Env E) (stream : Stream) (state : State E) : Prop where
  /-- The first frame sent is the welcome exactly where version 1 is offered. -/
  welcomed : (replies state.world.log).head? = some (welcome 1 env.endpoint) ↔ Offered env stream
  /-- Elsewhere at most one refusal is sent, and the connection ends. -/
  turnedAway : ¬ Offered env stream → (∃ how slot world, state = .ended how slot world) ∧
    (replies state.world.log = [] ∨ replies state.world.log = [refused])
  /-- Whatever is done is done behind a welcome that was sent. -/
  gated : ∀ front e back, state.world.log = front ++ e :: back → e.isWork = true →
    .sent (welcome 1 env.endpoint) (.ok ()) ∈ front
  /-- Behind it, requests and replies are of the welcome's version. -/
  spoken : ∀ front e back, state.world.log = front ++ e :: back →
    .sent (welcome 1 env.endpoint) (.ok ()) ∈ front → e.Speaks 1
  /-- No later frame is carried out that states another, or says hello. -/
  stated : AnsweredBy (StatesOne env) state.world.log

theorem answeredBy_states (env : Env E) (fuel : Nat) (stream : Stream) :
    AnsweredBy (StatesOne env) (serveConnection env fuel stream).world.log := by
  refine answeredBy_run env stream ?_ fuel
  intro outstanding place body events _ value _ _ hdecoded request hmem
  have hheard := (hdecoded request).mp hmem
  unfold heardBody at hheard
  split at hheard
  · cases hheard
  · rename_i decoded hdecode
    obtain ⟨object, hobject, hversion, -⟩ := decodeRequest_ok hdecode
    obtain ⟨hstated, hone⟩ := decodeVersion_ok hversion
    refine ⟨object, hobject, hone ▸ hstated, fun hmessage => ?_⟩
    obtain ⟨refusal, hrefused⟩ := decodeRequest_hello hobject hmessage
    rw [hdecode] at hrefused
    cases hrefused

theorem refused_ne_welcome (version : UInt64) (endpoint : String) :
    refused ≠ welcome version endpoint := by
  intro h
  have hmessage := congrArg (Value.get · "message") h
  simp [refused, welcome, get_json, OrdMap.ofList, OrdMap.insertAll, OrdMap.get?_insert] at hmessage

/-- The gate of a connection that the handshake ended. -/
theorem gate_of_opening {env : Env E} {stream : Stream} {how : Ended} {slot : Slot E.Database}
    {world : World E} {result : Except FrameError String} {replied : List (Event E)}
    (hlog : world.log = .read .opening result :: replied)
    (hreplied : (¬ Offered env stream ∧
        (replied = [] ∨ ∃ sent, replied = [.sent refused sent])) ∨
      (Offered env stream ∧ ∃ error, replied = [.sent (welcome 1 env.endpoint) (.error error)]))
    (hstated : AnsweredBy (StatesOne env) world.log) :
    Gate env stream (.ended how slot world) := by
  have hquiet (e : Event E) (he : e ∈ world.log) :
      e.isWork = false ∧ e ≠ .sent (welcome 1 env.endpoint) (.ok ()) := by
    rw [hlog] at he
    rcases List.mem_cons.mp he with rfl | he
    · exact ⟨rfl, by simp⟩
    · rcases hreplied with ⟨-, rfl | ⟨sent, rfl⟩⟩ | ⟨-, error, rfl⟩
      · cases he
      · rw [List.mem_singleton.mp he]
        refine ⟨rfl, fun h => ?_⟩
        injection h with h
        exact refused_ne_welcome 1 env.endpoint h
      · rw [List.mem_singleton.mp he]
        exact ⟨rfl, by simp⟩
  have hreplies : replies world.log = replies replied := by rw [hlog]; rfl
  constructor
  · simp only [State.world, hreplies]
    rcases hreplied with ⟨hnot, rfl | ⟨sent, rfl⟩⟩ | ⟨hoffered, error, rfl⟩
    · simp [replies, hnot]
    · simp [replies, Event.reply, hnot, refused_ne_welcome]
    · simp [replies, Event.reply, hoffered]
  · intro hnot
    refine ⟨⟨how, slot, world, rfl⟩, ?_⟩
    simp only [State.world, hreplies]
    rcases hreplied with ⟨-, rfl | ⟨sent, rfl⟩⟩ | ⟨hoffered, -⟩
    · exact .inl rfl
    · exact .inr rfl
    · exact absurd hoffered hnot
  · intro front e back hsplit hwork
    have he : e ∈ world.log := by
      rw [show world.log = front ++ e :: back from hsplit]
      simp
    rw [(hquiet e he).1] at hwork
    cases hwork
  · intro front e back hsplit hmem
    have he : .sent (welcome 1 env.endpoint) (.ok ()) ∈ world.log := by
      rw [show world.log = front ++ e :: back from hsplit]
      exact List.mem_append_left _ hmem
    exact absurd rfl (hquiet _ he).2
  · exact hstated

/-- The gate of a connection that was welcomed. -/
theorem gate_of_welcomed {env : Env E} {stream : Stream} {state : State E}
    (hoffered : Offered env stream) (h : Welcomed env state.world.log)
    (hstated : AnsweredBy (StatesOne env) state.world.log) : Gate env stream state := by
  obtain ⟨body, rest, hlog, hspeaks⟩ := h
  constructor
  · rw [hlog]
    exact iff_of_true rfl hoffered
  · intro hnot
    exact absurd hoffered hnot
  · intro front e back hsplit hwork
    rw [hlog] at hsplit
    rcases front with - | ⟨first, - | ⟨second, front⟩⟩
    · cases hsplit
      cases hwork
    · cases hsplit
      cases hwork
    · cases hsplit
      simp
  · intro front e back hsplit hmem
    rw [hlog] at hsplit
    rcases front with - | ⟨first, - | ⟨second, front⟩⟩
    · cases hmem
    · cases hsplit
      cases List.mem_singleton.mp hmem
    · cases hsplit
      exact hspeaks e (by simp)
  · exact hstated

/-- **The handshake gate**, for every byte stream. -/
theorem handshake_gate (env : Env E) (fuel : Nat) (stream : Stream) :
    Gate env stream (serveConnection env fuel stream) := by
  have hstated := answeredBy_states env fuel stream
  rcases welcomed_run env fuel stream
    with ⟨how, slot, world, hstate, hlog, hnever⟩ | ⟨hok, hwelcomed⟩
  · rw [hstate] at hstated ⊢
    rcases handshake_cases env stream with
      ⟨hnot, -, replied, -, hopening, hreplied⟩ | ⟨hoffered, body, sent, -, hopening, hresult⟩
    · refine gate_of_opening (hlog.trans hopening) (.inl ⟨hnot, hreplied.imp_right ?_⟩) hstated
      rintro ⟨-, -, sent, -, -, hsent⟩
      exact ⟨sent, hsent⟩
    · rcases sent with error | ⟨⟩
      · exact gate_of_opening (hlog.trans hopening) (.inr ⟨hoffered, error, rfl⟩) hstated
      · exact absurd hresult (hnever 1)
  · rcases handshake_cases env stream with ⟨-, how, -, herror, -⟩ | ⟨hoffered, -⟩
    · rw [hok] at herror
      cases herror
    · exact gate_of_welcomed hoffered hwelcomed hstated

end NostdbServer
