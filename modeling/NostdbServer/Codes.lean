import NostdbServer.Handshake

/-!
# Codes — which messages carry the diagnostic code

`Rule::code` gives the version refusal alone a code, and every reply
behind the welcome follows it. The handshake's `refused` states the code
whatever the opening was refused for, so the two agree exactly where the
opening is a `hello` (`codes_agree_iff`).
-/

namespace NostdbServer

open Response Message

variable {E : Engine}

/-- A message that carries `SERVER_PROTOCOL_UNSUPPORTED`. -/
def CarriesCode (value : Value) : Prop :=
  value.get "code" = some (.string Code.serverProtocolUnsupported.asStr)

/-- The messages a connection hands to `send`, each with the refusal it
reports: the handshake's, and the reply to each frame behind it. -/
inductive Sends (env : Env E) (stream : Stream) : Value → Option Refusal → Prop
  | refused {body : String} {refusal : Refusal} :
      (Frame.readFrame stream env.limits.maxFrameBytes).1 = .ok body →
      (decodeHello env.host body).bind negotiate = .error refusal →
      Sends env stream Message.refused (some refusal)
  | welcome {body : String} {version : UInt64} :
      (Frame.readFrame stream env.limits.maxFrameBytes).1 = .ok body →
      (decodeHello env.host body).bind negotiate = .ok version →
      Sends env stream (Message.welcome version env.endpoint) none
  | later {n : Nat} {place : Place} {result : Except FrameError String} {world : World E}
      {exchange : Exchange E} :
      (connection env stream n).received env = some (place, result, world) →
      (connection env stream n).course env (start env stream).1
        (heardRead env (connection env stream n).outstanding result) world = .reply exchange →
      Sends env stream exchange.value ((connection env stream n).refusal env
        (heardRead env (connection env stream n).outstanding result) world)

/-- The code is carried exactly where `Rule::code` has one. -/
def CodesAgree (env : Env E) (stream : Stream) : Prop :=
  ∀ value reported, Sends env stream value reported →
    (CarriesCode value ↔ ∃ refusal, reported = some refusal ∧ refusal.code.isSome)

/-- The opening frame, if it can be read, is a `hello`. -/
def HelloFirst (env : Env E) (stream : Stream) : Prop :=
  ∀ body, (Frame.readFrame stream env.limits.maxFrameBytes).1 = .ok body →
    ∃ object, objectOf env.host body = .ok object ∧
      object.get? "message" = some (.string "hello")

/-! ## Where a code comes from -/

theorem Refusal.code_isSome (refusal : Refusal) :
    refusal.code.isSome ↔ refusal.rule = .versionsDoNotIntersect := by
  unfold Refusal.code
  cases refusal.rule <;> simp [Rule.code]

theorem carriesCode_refusalResponse (version : UInt64) (requestId : Option String)
    (refusal : Refusal) :
    CarriesCode (refusalResponse version requestId refusal) ↔ refusal.code.isSome := by
  have hcode : refusal.code = none ∨ refusal.code = some .serverProtocolUnsupported := by
    unfold Refusal.code
    cases refusal.rule <;> simp [Rule.code]
  unfold CarriesCode refusalResponse
  rcases hcode with hcode | hcode <;> rw [hcode] <;> cases requestId <;>
    simp [OrdMap.get?_insert]

/-- **A reply carries the code of the refusal it reports.** -/
theorem Answers.carriesCode {version : UInt64} {heard : Heard} {reported : Option Refusal}
    {value : Value} (h : Answers version heard reported value) :
    CarriesCode value ↔ ∃ refusal, reported = some refusal ∧ refusal.code.isSome := by
  cases h with
  | undecoded refusal => simp [carriesCode_refusalResponse]
  | refused request refusal => simp [carriesCode_refusalResponse]
  | _ =>
    simp [CarriesCode, frameTooLargeResponse, okResponse, errorResponse, diagnosticResponse,
      rowsResponse, get_json, OrdMap.ofList, OrdMap.insertAll, OrdMap.get?_insert]

theorem carriesCode_refused : CarriesCode refused := by
  simp [CarriesCode, refused, get_json, OrdMap.ofList, OrdMap.insertAll, OrdMap.get?_insert]

theorem not_carriesCode_welcome (version : UInt64) (endpoint : String) :
    ¬ CarriesCode (welcome version endpoint) := by
  simp [CarriesCode, welcome, get_json, OrdMap.ofList, OrdMap.insertAll, OrdMap.get?_insert]

/-- An opening is refused for its versions exactly where it is a `hello`. -/
theorem rule_of_opening {host : Host} {body : String} {refusal : Refusal}
    (h : (decodeHello host body).bind negotiate = .error refusal) :
    refusal.rule = .versionsDoNotIntersect ↔
      ∃ object, objectOf host body = .ok object ∧
        object.get? "message" = some (.string "hello") := by
  cases hhello : decodeHello host body with
  | ok hello =>
    obtain ⟨object, hobject, hmessage, -⟩ := decodeHello_ok.mp hhello
    refine iff_of_true ?_ ⟨object, hobject, hmessage⟩
    rw [hhello] at h
    change negotiate hello = .error refusal at h
    unfold negotiate at h
    split at h <;> cases h
    rfl
  | error refusal' =>
    rw [hhello] at h
    cases h
    refine iff_of_false (fun hrule => ?_) ?_
    · unfold decodeHello at hhello
      split at hhello
      · rename_i objectRefusal hobject
        cases hhello
        unfold objectOf at hobject
        split at hobject
        · cases hobject
          cases hrule
        · split at hobject <;> cases hobject
          cases hrule
      · split at hhello
        · cases hhello
          cases hrule
        · split at hhello <;> cases hhello
          cases hrule
    · rintro ⟨object, hobject, hmessage⟩
      have hok : decodeHello host body = .ok ⟨_, _⟩ :=
        decodeHello_ok.mpr ⟨object, hobject, hmessage, rfl, rfl⟩
      rw [hok] at hhello
      cases hhello

/-! ## Every message -/

/-- Every message a connection put out is one of these. -/
theorem sends_of_sent (env : Env E) (stream : Stream) (n : Nat) :
    ∀ value result, .sent value result ∈ (connection env stream n).world.log →
      ∃ reported, Sends env stream value reported := by
  induction n with
  | zero =>
    intro value result hmem
    have hhandshake : .sent value result ∈ (handshake env { stream }).2.log := by
      change .sent value result ∈ (start env stream).2.world.log at hmem
      rcases start_cases env stream with ⟨how, h⟩ | h <;> rw [h] at hmem <;> exact hmem
    rcases handshake_cases env stream with
      ⟨-, -, replied, -, hlog, hreplied⟩ | ⟨⟨body', hbody, hone⟩, body, sent, hopening, hlog, -⟩
    · rw [hlog] at hhandshake
      rcases hreplied with rfl | ⟨body, refusal, sent, hopening, hrefusal, rfl⟩
      · cases List.mem_singleton.mp hhandshake
      · rcases List.mem_pair.mp hhandshake with h | h <;> cases h
        exact ⟨_, .refused hopening hrefusal⟩
    · rw [hlog] at hhandshake
      rcases List.mem_pair.mp hhandshake with h | h <;> cases h
      cases hbody.symm.trans hopening
      exact ⟨_, .welcome hopening (negotiate_decodeHello.mpr ⟨rfl, hone⟩)⟩
  | succ n ih =>
    rw [connection_succ]
    cases hread : (connection env stream n).received env with
    | none =>
      rw [step_of_received_none _ hread]
      exact ih
    | some read =>
      obtain ⟨place, result, world⟩ := read
      let covered (world : World E) : Prop := ∀ value result, .sent value result ∈ world.log →
        ∃ reported, Sends env stream value reported
      have hquiet {w w' : World E} (hquiet : Quiet w w') (h : covered w) : covered w' := by
        obtain ⟨⟨events, hlog, hreply⟩, -⟩ := hquiet
        intro value sent hmem
        rw [hlog, List.mem_append] at hmem
        rcases hmem with hmem | hmem
        · exact h value sent hmem
        · cases (hreply _ hmem).2
      have hreceived : covered world := by
        intro value sent hmem
        rw [State.received_log hread, List.mem_append] at hmem
        rcases hmem with hmem | hmem
        · exact ih value sent hmem
        · cases List.mem_singleton.mp hmem
      refine step_world env _ hread hquiet (fun exchange hcourse h value sent hmem => ?_) hreceived
      rcases List.mem_append.mp hmem with hmem | hmem
      · exact h value sent hmem
      · cases List.mem_singleton.mp hmem
        exact ⟨_, .later hread hcourse⟩

/-- **When the codes agree**: every message a connection puts out is one
of `Sends`, and they carry the code exactly where `Rule::code` has one if
and only if the opening is a `hello`. -/
theorem codes_agree_iff (env : Env E) (stream : Stream) :
    (∀ fuel value result, .sent value result ∈ (serveConnection env fuel stream).world.log →
      ∃ reported, Sends env stream value reported) ∧
    (CodesAgree env stream ↔ HelloFirst env stream) := by
  constructor
  · intro fuel
    obtain ⟨n, hn⟩ := serveConnection_eq_connection env fuel stream
    rw [hn]
    exact sends_of_sent env stream n
  constructor
  · intro h body hbody
    cases hopening : (decodeHello env.host body).bind negotiate with
    | ok version =>
      obtain ⟨-, object, values, hobject, hmessage, -⟩ := negotiate_decodeHello.mp hopening
      exact ⟨object, hobject, hmessage⟩
    | error refusal =>
      obtain ⟨refusal', heq, hcode⟩ :=
        (h _ _ (.refused hbody hopening)).mp carriesCode_refused
      cases heq
      exact (rule_of_opening hopening).mp (refusal.code_isSome.mp hcode)
  · intro h value reported hsends
    cases hsends with
    | refused hbody hopening =>
      have hrule := (rule_of_opening hopening).mpr (h _ hbody)
      exact iff_of_true carriesCode_refused ⟨_, rfl, (Refusal.code_isSome _).mpr hrule⟩
    | welcome => exact iff_of_false (not_carriesCode_welcome _ _) (by simp)
    | later hread hcourse =>
      have hsound := State.course_sound env (start env stream).1 hread
      rw [hcourse] at hsound
      exact hsound.1.carriesCode

/-! ## A request before the handshake -/

/-- A client that opens with a request. -/
def statusFirst : Value := ask "r1" "status" []

/-- A daemon that reads it, under the default limits. -/
def statusFirstEnv : Env Engine.journal :=
  Env.conversing Limits.default (Value.json []) [statusFirst]

/-- It is refused as no `hello`, and the reply carries the code. -/
theorem refused_with_code : ¬ ∀ (env : Env Engine.journal) stream, CodesAgree env stream := by
  intro h
  have hbody : (Frame.readFrame (.saying [statusFirst]) statusFirstEnv.limits.maxFrameBytes).1
      = .ok statusFirst.write := by decide +kernel
  have hopening : (decodeHello statusFirstEnv.host statusFirst.write).bind negotiate
      = .error ⟨.firstMessageNotHello,
          "the first message on a connection is hello, and this names no message"⟩ := by
    decide +kernel
  obtain ⟨refusal, heq, hcode⟩ :=
    (h statusFirstEnv (.saying [statusFirst]) _ _ (.refused hbody hopening)).mp carriesCode_refused
  cases heq
  cases hcode

end NostdbServer
