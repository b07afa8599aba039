import NostdbServer.Chunking
import NostdbServer.Correlation
import NostdbServer.Handshake
import NostdbServer.Refinement

/-!
# Client — what a client knows of its connection

A client sees the frames it sent and the frames it got back. `Answer` is
what the members of a reply say, and `Position.learned` is where a client
that goes by them takes its connection to be: without a session, in one,
or in a transaction, with the identifier, the name and the generation.
Where every reply could be sent, that is where the daemon has it
(`client_knows`): no state of the protocol is hidden from its client.
-/

namespace NostdbServer

open NostdbServer.Frame Response Script

variable {E : Engine}

/-! ## Reading a reply -/

namespace Rule

/-- The rules section 8 lists. -/
def all : List Rule :=
  [versionsDoNotIntersect, versionAbsentAfterHandshake, firstMessageNotHello, frameTooLarge,
    bodyNotAnObject, requestIdAbsent, operationAbsent, unknownOperation, databaseIsAPath,
    unknownSession, secondSessionOnOneConnection, peerIsAnotherUser]

/-- The rule of an identifier. -/
def ofStr (name : String) : Option Rule := all.find? (fun rule => rule.asStr == name)

/-- A rule is known by its identifier. -/
@[simp] theorem ofStr_asStr (rule : Rule) : ofStr rule.asStr = some rule := by
  cases rule <;> decide

end Rule

/-- What a reply tells a client. -/
inductive Answer where
  | welcome (version : UInt64) (endpoint : String)
  | turnedAway
  | ok (version : UInt64) (requestId : String) (result : Value)
  | error (version : UInt64) (requestId detail : String)
  | diagnosed (version : UInt64) (requestId : String) (error : QueryError)
  | refused (version : UInt64) (requestId : Option String) (refusal : Refusal)
  | stopped (version : UInt64) (requestId limit detail : String)

namespace Answer

/-- A member that is a string. -/
def text (reply : Value) (key : String) : Option String := (reply.get key).bind Value.asStr

/-- The first of the diagnostics a reply lists. -/
def diagnostic (diagnostics : Value) : Option QueryError := do
  let first ← (← diagnostics.asArray).head?
  return ⟨← text first "code", ← text first "message"⟩

/-- A reply that failed: the members beside `outcome` tell how. -/
def readFailed (version : UInt64) (reply : Value) : Option Answer :=
  match text reply "rule", text reply "limit", reply.get "diagnostics" with
  | some rule, _, _ => do
      return .refused version (replyId reply) ⟨← Rule.ofStr rule, ← text reply "detail"⟩
  | none, some limit, _ => do
      return .stopped version (← replyId reply) limit (← text reply "detail")
  | none, none, some diagnostics => do
      return .diagnosed version (← replyId reply) (← diagnostic diagnostics)
  | none, none, none => do return .error version (← replyId reply) (← text reply "detail")

/-- A reply to a request. -/
def readReply (reply : Value) : Option Answer := do
  let version ← (reply.get "server_protocol_version").bind Value.asU64
  if text reply "outcome" = some "ok" then
    return .ok version (← replyId reply) (← reply.get "result")
  else readFailed version reply

/-- What a client reads off a reply: the handshake's replies name their
message, all others are replies to a request. -/
def read (reply : Value) : Option Answer :=
  match text reply "message" with
  | some message =>
      if message = "welcome" then do
        return .welcome (← (reply.get "server_protocol_version").bind Value.asU64)
          (← text reply "endpoint")
      else if message = "refused" then some .turnedAway
      else none
  | none => readReply reply

theorem read_welcome (version : UInt64) (endpoint : String) :
    read (Message.welcome version endpoint) = some (.welcome version endpoint) := by
  simp [read, text, Message.welcome, get_json, OrdMap.ofList, OrdMap.insertAll, OrdMap.get?_insert,
    Value.asStr, Value.asU64, Value.u64]

variable {version : UInt64} {request : Request}

theorem read_okResponse (result : Value) :
    read (okResponse version request result) = some (.ok version request.requestId result) := by
  simp [read, readReply, text, okResponse, replyId, get_json, OrdMap.ofList, OrdMap.insertAll,
    OrdMap.get?_insert, Value.asStr, Value.asU64, Value.u64]

theorem read_errorResponse (detail : String) :
    read (errorResponse version request detail)
      = some (.error version request.requestId detail) := by
  simp [read, readReply, readFailed, text, errorResponse, replyId, get_json, OrdMap.ofList,
    OrdMap.insertAll, OrdMap.get?_insert, Value.asStr, Value.asU64, Value.u64]

theorem read_diagnosticResponse (error : QueryError) :
    read (diagnosticResponse version request error)
      = some (.diagnosed version request.requestId error) := by
  simp [read, readReply, readFailed, text, diagnostic, diagnosticResponse, replyId, get_json,
    OrdMap.ofList, OrdMap.insertAll, OrdMap.get?_insert, Value.asStr, Value.asU64, Value.asArray,
    Value.u64]

theorem read_refusalResponse (requestId : Option String) (refusal : Refusal) :
    read (refusalResponse version requestId refusal)
      = some (.refused version requestId refusal) := by
  have hid := replyId_refusalResponse version requestId refusal
  have hdetail : (refusalResponse version requestId refusal).get "detail"
      = some (.string refusal.detail) := by
    unfold refusalResponse
    cases requestId <;> cases refusal.code <;> simp
  have hmessage : (refusalResponse version requestId refusal).get "message" = none := by
    unfold refusalResponse
    cases requestId <;> cases refusal.code <;> simp [OrdMap.get?_insert]
  have hversion : (refusalResponse version requestId refusal).get "server_protocol_version"
      = some (Value.u64 version) := by
    unfold refusalResponse
    cases requestId <;> cases refusal.code <;> simp [OrdMap.get?_insert]
  have hfailed : Failed (refusalResponse version requestId refusal) :=
    (failedOutright_refusalResponse requestId refusal).1
  rw [Failed] at hfailed
  have hrule : (refusalResponse version requestId refusal).get "rule"
      = some (.string refusal.rule.asStr) := rule_refusalResponse requestId refusal
  simp [read, readReply, readFailed, text, hid, hdetail, hmessage, hversion, hfailed, hrule,
    Value.asStr, Value.asU64, Value.u64]

/-- An over-long frame is refused like any other. -/
theorem frameTooLargeResponse_eq (version : UInt64) (declared maximum : UInt32) : ∃ detail,
    frameTooLargeResponse version declared maximum
      = refusalResponse version none ⟨.frameTooLarge, detail⟩ :=
  ⟨"the peer declared a " ++ toString declared.toNat ++ "-byte frame, and the maximum is "
    ++ toString maximum.toNat, rfl⟩

theorem read_rowsResponse (version : UInt64) (request : Request) (rows ceiling : Nat) : ∃ detail,
    read (rowsResponse version request rows ceiling)
      = some (.stopped version request.requestId "max_result_rows" detail) := by
  refine ⟨"the query produced " ++ toString rows ++ " rows, and the per-session ceiling is "
    ++ toString ceiling, ?_⟩
  simp [read, readReply, readFailed, text, rowsResponse, replyId, get_json, OrdMap.ofList,
    OrdMap.insertAll, OrdMap.get?_insert, Value.asStr, Value.asU64, Value.u64]

theorem read_refused : read Message.refused = some .turnedAway := by
  simp [read, text, Message.refused, get_json, OrdMap.ofList, OrdMap.insertAll, OrdMap.get?_insert,
    Value.asStr]

end Answer

/-- **Every reply is understood**, whatever it was built for. -/
theorem Answers.read {version : UInt64} {heard : Heard} {refusal : Option Refusal} {value : Value}
    (h : Answers version heard refusal value) : (Answer.read value).isSome := by
  cases h with
  | tooLarge declared maximum =>
    obtain ⟨detail, heq⟩ := Answer.frameTooLargeResponse_eq version declared maximum
    rw [heq, Answer.read_refusalResponse]
    rfl
  | undecoded refusal =>
    rw [Answer.read_refusalResponse]
    rfl
  | refused request refusal =>
    rw [Answer.read_refusalResponse]
    rfl
  | ok request result =>
    rw [Answer.read_okResponse]
    rfl
  | error request detail =>
    rw [Answer.read_errorResponse]
    rfl
  | diagnostic request error =>
    rw [Answer.read_diagnosticResponse]
    rfl
  | rows request rows ceiling =>
    obtain ⟨detail, heq⟩ := Answer.read_rowsResponse version request rows ceiling
    rw [heq]
    rfl

/-! ## Where a client takes its connection to be -/

/-- What a client keeps of its connection. -/
inductive Position where
  | awaiting
  | noSession
  | session (id name : String)
  | transaction (id name : String) (base : UInt64)
  deriving DecidableEq, Repr

namespace Position

/-- A request was answered. -/
def answered (position : Position) (request : Request) (answer : Answer) : Position :=
  match position, request.operation, answer with
  | .noSession, .openSession, .ok _ _ result =>
      match request.database, Answer.text result "session_id" with
      | some name, some id => .session id name
      | _, _ => .noSession
  | .session _ _, .closeSession, .ok _ _ _ => .noSession
  | .session id name, .begin, .ok _ _ result =>
      match (result.get "base_generation").bind Value.asU64 with
      | some base => .transaction id name base
      | none => .session id name
  -- a commit ends the transaction whether or not it succeeded
  | .transaction id name _, .commit, .ok _ _ _ => .session id name
  | .transaction id name _, .commit, .error _ _ _ => .session id name
  | .transaction id name _, .rollback, .ok _ _ _ => .session id name
  | position, _, _ => position

/-- A frame was answered. A client knows its own frames, so it reads them
as the daemon would, had it nothing outstanding. -/
def told (host : Host) (position : Position) (body : String) (answer : Answer) : Position :=
  match position, answer, Message.decodeRequest host body ∅ with
  | .awaiting, .welcome _ _, _ => .noSession
  | position, answer, .ok request => position.answered request answer
  | position, _, .error _ => position

/-- The reply's text came back. -/
def heard (host : Host) (position : Position) (body text : String) : Position :=
  match host.fromStr text with
  | .error _ => position
  | .ok reply =>
      match Answer.read reply with
      | none => position
      | some answer => position.told host body answer

/-- What a client learns of the frames it sent and the texts it got back,
taken in order. -/
def learned (host : Host) (asked texts : List String) : Position :=
  (asked.zip texts).foldl (fun position pair => position.heard host pair.1 pair.2) .awaiting

/-- A further frame and its reply. -/
theorem learned_snoc {host : Host} {asked texts : List String} (h : asked.length = texts.length)
    (body text : String) : learned host (asked ++ [body]) (texts ++ [text])
      = (learned host asked texts).heard host body text := by
  rw [learned, List.zip_append h, List.foldl_append]
  rfl

/-- Frames that were not answered yet tell nothing. -/
theorem learned_append {host : Host} {asked texts : List String} (h : asked.length = texts.length)
    (more : List String) : learned host (asked ++ more) texts = learned host asked texts := by
  have hzip : (asked ++ more).zip (texts ++ []) = asked.zip texts ++ more.zip [] :=
    List.zip_append h
  rw [List.append_nil, List.zip_nil_right, List.append_nil] at hzip
  rw [learned, learned, hzip]

end Position

/-- Where a slot's connection stands outside a transaction. -/
def Slot.position {α : Type} (slot : Slot α) : Position :=
  match slot.session with
  | none => .noSession
  | some session => .session session.id.asStr session.name

/-- Where the daemon has a connection that it serves. -/
def State.position : State E → Option Position
  | .main slot _ _ => some slot.position
  | .region inner _ _ =>
      some (.transaction inner.session.id.asStr inner.session.name inner.base)
  | .ended _ _ _ => none

/-! ## What one reply tells -/

namespace Position

variable {request : Request} {answer : Answer}

/-- Outside a transaction only a reply that is `ok` tells of a change. -/
theorem answered_failed {α : Type} (slot : Slot α)
    (h : ∀ version id result, answer ≠ .ok version id result) :
    slot.position.answered request answer = slot.position := by
  unfold Slot.position answered
  cases answer with
  | ok version id result => exact absurd rfl (h version id result)
  | _ => cases slot.session <;> cases request.operation <;> rfl

/-- A status or a query changes nothing, however it is answered. -/
theorem answered_kept (position : Position) (answer : Answer)
    (h : request.operation = .query ∨ request.operation = .status) :
    position.answered request answer = position := by
  unfold answered
  rcases h with h | h <;> rw [h] <;> cases position <;> cases answer <;> rfl

/-- Inside a transaction only a commit or a rollback does. -/
theorem answered_inside (id name : String) (base : UInt64) (answer : Answer)
    (hcommit : request.operation ≠ .commit) (hrollback : request.operation ≠ .rollback) :
    answered (.transaction id name base) request answer = .transaction id name base := by
  unfold answered
  cases hoperation : request.operation with
  | commit => exact absurd hoperation hcommit
  | rollback => exact absurd hoperation hrollback
  | _ => cases answer <;> rfl

/-- A frame that was refused undecoded changes nothing. -/
theorem told_refused {host : Host} (position : Position) (body : String) (version : UInt64)
    (id : Option String) (refusal : Refusal) :
    position.told host body (.refused version id refusal) = position := by
  unfold told
  cases Message.decodeRequest host body ∅ with
  | error refusal => cases position <;> rfl
  | ok request =>
    cases position <;> simp only [answered] <;> cases request.operation <;> rfl

end Position

section

variable (env : Env E) (version : UInt64)

/-- What the reply to `open_session` tells. -/
theorem position_openSession {request : Request} {slot slot' : Slot E.Database}
    {world world' : World E} {value : Value} (hoperation : request.operation = .openSession)
    (h : openSession env version request slot world = (value, slot', world')) : ∃ answer,
      Answer.read value = some answer ∧ slot'.position = slot.position.answered request answer := by
  have herror (detail : String) : ∃ answer,
      Answer.read (errorResponse version request detail) = some answer ∧
        slot.position = slot.position.answered request answer :=
    ⟨_, Answer.read_errorResponse detail, (Position.answered_failed slot (by simp)).symm⟩
  unfold openSession at h
  split at h
  · cases h
    exact herror _
  · rename_i name hname
    simp only at h
    split at h
    · cases h
      exact herror _
    · rename_i catalog hcatalog
      generalize hopen : slot.open (env.openAt world.opens) name catalog = out at h
      obtain ⟨result, opened, paths⟩ := out
      cases h
      cases result with
      | error error =>
        rw [Slot.open_error hopen]
        cases error with
        | refused refusal =>
          simp only [openReply]
          exact ⟨_, Answer.read_refusalResponse _ refusal,
            (Position.answered_failed slot (by simp)).symm⟩
        | _ =>
          simp only [openReply]
          exact herror _
      | ok id =>
        obtain ⟨hnone, rfl, entry, database, -, -, rfl, -⟩ := Slot.open_ok hopen
        simp only [openReply]
        refine ⟨_, Answer.read_okResponse _, ?_⟩
        have hid : Answer.text (Value.json [("session_id", .string slot.nextId.asStr)])
            "session_id" = some slot.nextId.asStr := by
          simp [Answer.text, get_json, OrdMap.ofList, OrdMap.insertAll, Value.asStr]
        simp only [Slot.position, hnone, Position.answered, hoperation, hname, hid]

/-- What a reply of `dispatch` tells. -/
theorem position_dispatch {request : Request} {slot slot' : Slot E.Database}
    {world world' : World E} {value : Value}
    (h : dispatch env version request slot world = (.send value, slot', world')) {answer : Answer}
    (hread : Answer.read value = some answer) :
    slot'.position = slot.position.answered request answer := by
  unfold dispatch at h
  cases hoperation : request.operation with
  | openSession =>
    simp only [hoperation] at h
    generalize hopen : openSession env version request slot world = out at h
    obtain ⟨value', slot'', world''⟩ := out
    cases h
    obtain ⟨answer', hread', hposition⟩ := position_openSession env version hoperation hopen
    rw [hread] at hread'
    cases hread'
    exact hposition
  | closeSession =>
    simp only [hoperation] at h
    cases h
    rw [Answer.read_okResponse] at hread
    cases hread
    unfold Slot.position Position.answered
    cases hsession : slot.session <;> simp only [Slot.close, hoperation]
  | status =>
    simp only [hoperation] at h
    cases h
    exact (Position.answered_kept _ answer (.inr hoperation)).symm
  | query =>
    rw [Position.answered_kept _ answer (.inl hoperation)]
    simp only [hoperation] at h
    generalize hquery : queryOnce env version request slot world = out at h
    obtain ⟨value', slot'', world''⟩ := out
    cases h
    rcases queryOnce_slot env version hquery with ⟨-, rfl, -⟩ | ⟨session, database, hsession, rfl⟩
    · rfl
    · simp only [Slot.position, Slot.holding, hsession]
  | begin =>
    simp only [hoperation] at h
    split at h
    · cases h
      rw [Answer.read_refusalResponse] at hread
      cases hread
      exact (Position.answered_failed slot (by simp)).symm
    · cases h
  | shutdown =>
    simp only [hoperation] at h
    cases h
  | commit =>
    simp only [hoperation] at h
    cases h
    rw [Answer.read_errorResponse] at hread
    cases hread
    exact (Position.answered_failed slot (by simp)).symm
  | rollback =>
    simp only [hoperation] at h
    cases h
    rw [Answer.read_errorResponse] at hread
    cases hread
    exact (Position.answered_failed slot (by simp)).symm

/-- What the reply to a dispatched `begin` tells. -/
theorem position_begin {begin : Request} {slot : Slot E.Database} {outstanding : Finset String}
    {world : World E} {exchange : Exchange E} (hoperation : begin.operation = .begin)
    (h : beginCourse version begin slot outstanding world = .reply exchange) {answer : Answer}
    (hread : Answer.read exchange.value = some answer) (sent : World E) :
    (exchange.sent sent).position = some (slot.position.answered begin answer) := by
  unfold beginCourse at h
  split at h
  · cases h
    rw [Exchange.unchecked, Answer.read_refusalResponse] at hread
    cases hread
    exact congrArg some (Position.answered_failed slot (by simp)).symm
  · rename_i session hresolve
    split at h
    · cases h
      rw [Exchange.unchecked, Answer.read_errorResponse] at hread
      cases hread
      exact congrArg some (Position.answered_failed slot (by simp)).symm
    · rename_i transaction hbegin
      cases h
      rw [Answer.read_okResponse] at hread
      cases hread
      have hbase : ((Value.json [("base_generation",
          Value.u64 (E.baseGeneration transaction))]).get "base_generation").bind Value.asU64
            = some (E.baseGeneration transaction) := by
        simp [get_json, OrdMap.ofList, OrdMap.insertAll, Value.asU64, Value.u64]
      simp only [State.position, Slot.position, (Slot.resolve_eq_ok_iff.mp hresolve).1,
        Position.answered, hoperation, hbase]

/-- What a reply inside the region tells. -/
theorem position_region {request : Request} {region : Region E} {outstanding : Finset String}
    {world : World E} {exchange : Exchange E}
    (h : region.courseOf env version request outstanding world = .reply exchange)
    {answer : Answer} (hread : Answer.read exchange.value = some answer) (sent : World E) :
    (exchange.sent sent).position = some (Position.answered
      (.transaction region.session.id.asStr region.session.name region.base) request answer) := by
  have hinside (hcommit : request.operation ≠ .commit) (hrollback : request.operation ≠ .rollback) :
      Position.answered (.transaction region.session.id.asStr region.session.name region.base)
        request answer = .transaction region.session.id.asStr region.session.name region.base :=
    Position.answered_inside _ _ _ answer hcommit hrollback
  unfold Region.courseOf at h
  simp only at h
  split at h
  · rename_i hoperation
    cases h
    simp only [Exchange.unchecked] at hread
    cases hresult : (E.commit region.transaction region.session.database).1 with
    | ok generation =>
      rw [hresult, commitReply, Answer.read_okResponse] at hread
      cases hread
      simp only [Exchange.unchecked, State.position, Slot.position, Region.slotWith, Region.slot,
        Position.answered, hoperation]
    | error error =>
      rw [hresult, commitReply, Answer.read_errorResponse] at hread
      cases hread
      simp only [Exchange.unchecked, State.position, Slot.position, Region.slotWith, Region.slot,
        Position.answered, hoperation]
  · rename_i hoperation
    cases h
    rw [Exchange.unchecked, Answer.read_okResponse] at hread
    cases hread
    simp only [Exchange.unchecked, State.position, Slot.position, Region.slotWith, Region.slot,
      Position.answered, hoperation]
  · rename_i hoperation
    rw [hinside (by simp [hoperation]) (by simp [hoperation])]
    split at h <;> cases h <;> rfl
  all_goals
    rename_i hoperation
    rw [hinside (by simp [hoperation]) (by simp [hoperation])]
    cases h
    rfl

/-- What the reply to a request in the main loop tells, where the
connection goes on. -/
theorem position_main {request : Request} {slot : Slot E.Database} {outstanding : Finset String}
    {world : World E} {exchange : Exchange E}
    (h : mainCourseOf env version request slot outstanding world = .reply exchange)
    {answer : Answer} (hread : Answer.read exchange.value = some answer) {sent : World E}
    {after : Position} (hlive : (exchange.sent sent).position = some after) :
    after = slot.position.answered request answer := by
  unfold mainCourseOf at h
  generalize hout : dispatch env version request slot world = out at h
  obtain ⟨reply, slot', world'⟩ := out
  cases reply with
  | send value =>
    cases h
    cases hlive
    exact position_dispatch env version hout hread
  | transaction =>
    obtain ⟨-, rfl, -, -⟩ := dispatch_transaction env version hout
    obtain ⟨hoperation, -⟩ := (dispatch_begin_iff env version request slot' world).mp ⟨_, hout⟩
    rw [position_begin version hoperation h hread sent] at hlive
    cases hlive
    rfl
  | shutdown value =>
    cases h
    cases hlive

/-- The same request is decoded with fewer identifiers outstanding. -/
theorem decodeRequest_empty {host : Host} {body : String} {outstanding : Finset String}
    {request : Request} (h : Message.decodeRequest host body outstanding = .ok request) :
    Message.decodeRequest host body ∅ = .ok request := by
  unfold Message.decodeRequest at h ⊢
  cases hobject : Message.objectOf host body with
  | error refusal => simp [hobject] at h
  | ok object =>
    cases hid : Message.decodeRequestId object outstanding with
    | error refusal =>
      simp only [hobject, hid] at h
      split at h
      · cases h
      · split at h <;> cases h
    | ok id =>
      obtain ⟨hmember, hne, -⟩ := Message.decodeRequestId_ok hid
      have hempty : Message.decodeRequestId object ∅ = .ok id := by
        simp [Message.decodeRequestId, hmember, Value.asStr, hne]
      simpa only [hobject, hid, hempty] using h

/-- **What one reply tells**: where the connection goes on behind a frame
and its reply, it is where the reply says. -/
theorem position_course {state : State E} {before : Position}
    (hbefore : state.position = some before) {body : String} {world : World E}
    {exchange : Exchange E}
    (h : state.course env version (heardBody env state.outstanding body) world = .reply exchange)
    {answer : Answer} (hread : Answer.read exchange.value = some answer) {sent : World E}
    {after : Position} (hlive : (exchange.sent sent).position = some after) :
    after = before.told env.host body answer := by
  have htold {slotted : Position} {request : Request} (hlater : slotted ≠ .awaiting)
      (hdecode : Message.decodeRequest env.host body ∅ = .ok request) :
      slotted.told env.host body answer = slotted.answered request answer := by
    cases slotted with
    | awaiting => exact absurd rfl hlater
    | _ => simp only [Position.told, hdecode]
  unfold heardBody at h
  cases hdecode : Message.decodeRequest env.host body state.outstanding with
  | error refusal =>
    simp only [hdecode] at h
    cases state with
    | main slot outstanding world' =>
      cases h
      cases hbefore
      cases hlive
      rw [Exchange.unchecked, Answer.read_refusalResponse] at hread
      cases hread
      exact (Position.told_refused _ _ _ _ _).symm
    | region region outstanding world' =>
      cases h
      cases hbefore
      cases hlive
      rw [Answer.read_refusalResponse] at hread
      cases hread
      exact (Position.told_refused _ _ _ _ _).symm
    | ended how slot world' => cases hbefore
  | ok request =>
    simp only [hdecode] at h
    have hempty := decodeRequest_empty hdecode
    cases state with
    | main slot outstanding world' =>
      cases hbefore
      have hlater : slot.position ≠ .awaiting := by
        unfold Slot.position
        cases slot.session <;> simp
      rw [htold hlater hempty]
      exact position_main env version h hread hlive
    | region region outstanding world' =>
      cases hbefore
      rw [htold (by simp) hempty]
      rw [position_region env version h hread sent] at hlive
      cases hlive
      rfl
    | ended how slot world' => cases hbefore

end

/-! ## Whole conversations -/

/-- The bodies that were read whole, the opening's included. -/
def bodiesRead (log : List (Event E)) : List String :=
  log.filterMap (fun e => e.whole.map Prod.snd)

/-- No reply was lost on its way to a client that reads `serde_json`'s
texts back. -/
structure Reaches (env : Env E) (log : List (Event E)) : Prop where
  sent : ∀ value result, .sent value result ∈ log → result = .ok ()
  readBack : ∀ value ∈ replies log, env.host.fromStr (env.host.toString value) = .ok value

theorem Reaches.of_subset {env : Env E} {log log' : List (Event E)} (h : Reaches env log')
    (hsubset : ∀ e ∈ log, e ∈ log') : Reaches env log where
  sent value result hmem := h.sent value result (hsubset _ hmem)
  readBack value hmem := by
    obtain ⟨e, he, hvalue⟩ := List.mem_filterMap.mp hmem
    exact h.readBack value (List.mem_filterMap.mpr ⟨e, hsubset e he, hvalue⟩)

/-- Where the daemon serves a connection, its client knows it: each frame
read so far has been answered, and the answers tell where the connection
stands. -/
def Knows (env : Env E) (state : State E) : Prop :=
  Reaches env state.world.log → ∀ position, state.position = some position →
    (bodiesRead state.world.log).length = (replies state.world.log).length ∧
    Position.learned env.host (bodiesRead state.world.log)
      ((replies state.world.log).map env.host.toString) = position

theorem bodiesRead_append (log log' : List (Event E)) :
    bodiesRead (log ++ log') = bodiesRead log ++ bodiesRead log' := List.filterMap_append

/-- What is neither read nor replied is not seen by the client. -/
theorem Quiet.unseen {w w' : World E} (h : Quiet w w') :
    replies w'.log = replies w.log ∧ bodiesRead w'.log = bodiesRead w.log := by
  obtain ⟨⟨events, hlog, hall⟩, -⟩ := h
  have hreplies : replies events = [] :=
    List.filterMap_eq_nil_iff.mpr (fun e he => (hall e he).2)
  have hreads : bodiesRead events = [] := by
    refine List.filterMap_eq_nil_iff.mpr (fun e he => ?_)
    have hread := (hall e he).1
    cases e <;> first | rfl | cases hread
  rw [hlog, bodiesRead_append, hreads, replies, List.filterMap_append]
  exact ⟨by rw [← replies, ← replies, hreplies, List.append_nil], List.append_nil _⟩

/-- What a frame and its reply add to the log. -/
theorem seen_of_reply {env : Env E} {state state' : State E} {place : Place}
    {result : Except FrameError String} {world acted sentIn : World E} {value : Value}
    {sent : Except FrameError Unit} (hread : state.received env = some (place, result, world))
    (hquiet : Quiet world acted) (hsent : send env acted value = (sent, sentIn))
    (hcloses : Closes sentIn state'.world) :
    bodiesRead state'.world.log
        = bodiesRead state.world.log ++ bodiesRead [(.read place result : Event E)] ∧
      replies state'.world.log = replies state.world.log ++ [value] ∧
      (∀ e ∈ state.world.log, e ∈ state'.world.log) ∧ .sent value sent ∈ state'.world.log := by
  have hread' := State.received_log hread
  have hlog : sentIn.log = acted.log ++ [.sent value sent] := by
    have h := log_send env acted value
    rwa [hsent] at h
  obtain ⟨hreplies, hbodies⟩ := hquiet.unseen
  obtain ⟨hreplies', hbodies'⟩ := hcloses.quiet.unseen
  obtain ⟨⟨events, hevents, -⟩, -⟩ := hquiet
  obtain ⟨⟨ends, hends, -⟩, -⟩ := hcloses
  refine ⟨?_, ?_, fun e he => ?_, ?_⟩
  · rw [hbodies', hlog, bodiesRead_append, hbodies, hread', bodiesRead_append]
    exact List.append_nil _
  · rw [hreplies', hlog, replies, List.filterMap_append, ← replies, hreplies, hread', replies,
      List.filterMap_append]
    exact congrArg (· ++ _) (List.append_nil _)
  · rw [hends, hlog, hevents, hread']
    simp [he]
  · rw [hends, hlog]
    simp

/-- The step lemma of a client's knowledge. -/
theorem knows_step (env : Env E) (version : UInt64) {state : State E} (h : Knows env state) :
    Knows env (step env version state) := by
  cases hread : state.received env with
  | none =>
    rw [step_of_received_none _ hread]
    exact h
  | some read =>
    obtain ⟨place, result, world⟩ := read
    obtain ⟨before, hbefore⟩ : ∃ before, state.position = some before := by
      cases state with
      | main slot outstanding world' => exact ⟨_, rfl⟩
      | region region outstanding world' => exact ⟨_, rfl⟩
      | ended how slot world' => cases hread
    have hsound := State.course_sound env version hread
    rw [step_eq_settle env version hread]
    intro hreaches after hafter
    cases hcourse : state.course env version (heardRead env state.outstanding result) world with
    | silent ended =>
      obtain ⟨how, slot, world', rfl⟩ := State.course_silent env version hcourse
      rw [hcourse] at hafter
      cases hafter
    | reply exchange =>
      rw [hcourse] at hsound hreaches hafter
      obtain ⟨hvalue, hacts, hnext⟩ := hsound
      have hquiet : Quiet world exchange.world := (quiet_opening place _ world).trans hacts.quiet
      cases hsent : send env exchange.world exchange.value with
      | mk sent world' =>
        simp only [Course.settle, hsent] at hreaches hafter ⊢
        rcases sent with error | ⟨⟩
        · -- a lost reply is one the client did not get
          obtain ⟨-, -, -, hmem⟩ := seen_of_reply hread hquiet hsent (hnext world').2
          cases hreaches.sent _ _ hmem
        · simp only at hreaches hafter ⊢
          cases result with
          | error error =>
            obtain ⟨⟨how, slot, ended, hended⟩, -⟩ := State.course_failed env version hcourse world'
            rw [hended] at hafter
            cases hafter
          | ok body =>
            obtain ⟨hasked, hanswered, hearlier, -⟩ :=
              seen_of_reply hread hquiet hsent (hnext world').1
            obtain ⟨hlength, hlearned⟩ := h (hreaches.of_subset hearlier) before hbefore
            obtain ⟨answer, hanswer⟩ := Option.isSome_iff_exists.mp hvalue.read
            have hback := hreaches.readBack exchange.value (by rw [hanswered]; simp)
            have hafter' := position_course env version hbefore hcourse hanswer hafter
            have hone : bodiesRead [(.read place (.ok body) : Event E)] = [body] := rfl
            rw [hasked, hanswered, hone, List.map_append, List.map_singleton,
              Position.learned_snoc (by rw [hlength, List.length_map]), hlearned]
            refine ⟨by simp [hlength], ?_⟩
            simp only [Position.heard, hback, hanswer, hafter']

/-- The welcome is the first thing a client knows. -/
theorem knows_start (env : Env E) (stream : Stream) : Knows env (start env stream).2 := by
  intro hreaches position hposition
  unfold start at hreaches hposition ⊢
  rcases handshake_cases env stream with ⟨-, how, -, herror, -⟩ | ⟨-, body, sent, -, hlog, hresult⟩
  · have heq : handshake env { stream } = (.error how, (handshake env { stream }).2) :=
      Prod.ext herror rfl
    rw [heq] at hposition
    cases hposition
  · rcases sent with error | ⟨⟩
    · have heq : handshake env { stream }
          = (.error .transportFailed, (handshake env { stream }).2) := Prod.ext hresult rfl
      rw [heq] at hposition
      cases hposition
    · have heq : handshake env { stream } = (.ok 1, (handshake env { stream }).2) :=
        Prod.ext hresult rfl
      rw [heq] at hreaches hposition ⊢
      simp only [State.world] at hreaches ⊢
      cases hposition
      have hback := hreaches.readBack (Message.welcome 1 env.endpoint) (by
        rw [hlog]
        exact List.mem_cons_self)
      rw [hlog]
      refine ⟨rfl, ?_⟩
      have htold : Position.awaiting.heard env.host body
          (env.host.toString (Message.welcome 1 env.endpoint)) = .noSession := by
        simp only [Position.heard, hback, Answer.read_welcome, Position.told]
      exact htold

/-- What is left of the frames `asked`, behind those that were read. -/
def Left (asked : List String) (world : World E) : Prop :=
  ∃ rest, asked = bodiesRead world.log ++ rest ∧ Delivers world.stream.incoming ∧
    content world.stream.incoming = rest.flatMap encode

section

variable {env : Env E} {asked : List String}

theorem Left.quiet {w w' : World E} (h : Left asked w) (hquiet : Quiet w w') : Left asked w' := by
  obtain ⟨rest, hsplit, hdelivers, hcontent⟩ := h
  exact ⟨rest, by rw [hquiet.unseen.2, hsplit], hquiet.2 ▸ hdelivers, hquiet.2 ▸ hcontent⟩

theorem Left.send {world : World E} (h : Left asked world) (value : Value) :
    Left asked (send env world value).2 := by
  obtain ⟨rest, hsplit, hdelivers, hcontent⟩ := h
  have hincoming : (NostdbServer.send env world value).2.stream.incoming = world.stream.incoming :=
    incoming_writeFrame _ _ _
  have hbodies : bodiesRead (NostdbServer.send env world value).2.log = bodiesRead world.log := by
    rw [log_send, bodiesRead_append]
    exact List.append_nil _
  exact ⟨rest, by rw [hbodies, hsplit], hincoming ▸ hdelivers, hincoming ▸ hcontent⟩

/-- The frames are read in order, and behind them the end. -/
theorem Left.receive (hasked : ∀ body ∈ asked, Fits body env.limits.maxFrameBytes)
    {world : World E} (h : Left asked world) (place : Place) :
    Left asked (receive env place world).2 := by
  obtain ⟨rest, hsplit, hdelivers, hcontent⟩ := h
  cases rest with
  | nil =>
    obtain ⟨hresult, hrest, hdelivers'⟩ := readFrame_front env.limits.maxFrameBytes hdelivers
    rw [hcontent] at hresult hrest
    refine ⟨[], ?_, hdelivers', hrest⟩
    have hlog : (NostdbServer.receive env place world).2.log
        = world.log ++ [.read place (readFrame world.stream env.limits.maxFrameBytes).1] := rfl
    rw [hlog, hresult, bodiesRead_append, List.append_assoc]
    exact hsplit
  | cons body rest =>
    have hfits := hasked body (by rw [hsplit]; simp)
    rw [List.flatMap_cons] at hcontent
    obtain ⟨stream, hreceive, hdelivers', hcontent', -⟩ :=
      receive_encode env place world hfits hdelivers hcontent
    rw [hreceive]
    refine ⟨rest, ?_, hdelivers', hcontent'⟩
    rw [World.log_logging, bodiesRead_append, List.append_assoc, hsplit]
    rfl

/-- The step lemma of what is left. -/
theorem left_step (hasked : ∀ body ∈ asked, Fits body env.limits.maxFrameBytes) (version : UInt64)
    {state : State E} (h : Left asked state.world) :
    Left asked (step env version state).world := by
  cases hread : state.received env with
  | none =>
    rw [step_of_received_none _ hread]
    exact h
  | some read =>
    obtain ⟨place, result, world⟩ := read
    have hreceived : Left asked world := by
      have hworld : (receive env place state.world).2 = world := by
        cases state <;> cases hread <;> rfl
      exact hworld ▸ h.receive hasked place
    exact step_world env version hread (fun hquiet h => h.quiet hquiet)
      (fun exchange _ h => h.send exchange.value) hreceived

theorem left_start (hasked : ∀ body ∈ asked, Fits body env.limits.maxFrameBytes) {stream : Stream}
    (hdelivers : Delivers stream.incoming)
    (hcontent : content stream.incoming = asked.flatMap encode) :
    Left asked (start env stream).2.world := by
  have hbegin : Left asked ({ stream } : World E) := ⟨asked, rfl, hdelivers, hcontent⟩
  have hhandshake : Left asked (handshake env { stream }).2 := by
    rcases handshake_world env { stream } with h | ⟨value, h⟩ <;> rw [h]
    · exact hbegin.receive hasked .opening
    · exact (hbegin.receive hasked .opening).send value
  rcases start_cases env stream with ⟨how, h⟩ | h <;> rw [h] <;> exact hhandshake

end

/-- Every reply of a log is understood. -/
def Understood (log : List (Event E)) : Prop := ∀ value ∈ replies log, (Answer.read value).isSome

theorem understood_step (env : Env E) (version : UInt64) {state : State E}
    (h : Understood state.world.log) : Understood (step env version state).world.log := by
  cases hread : state.received env with
  | none =>
    rw [step_of_received_none _ hread]
    exact h
  | some read =>
    obtain ⟨place, result, world⟩ := read
    have hreceived : Understood world.log := by
      intro value hmem
      rw [State.received_log hread, replies, List.filterMap_append] at hmem
      rcases List.mem_append.mp hmem with hmem | hmem
      · exact h value hmem
      · cases hmem
    refine @step_world E env version (fun world => Understood world.log) _ _ _ _ hread ?_ ?_
      hreceived
    · intro w w' hquiet h
      rw [Understood, hquiet.unseen.1]
      exact h
    · intro exchange hcourse h value hmem
      have hsound := State.course_sound env version hread
      rw [hcourse] at hsound
      rw [log_send, replies, List.filterMap_append] at hmem
      rcases List.mem_append.mp hmem with hmem | hmem
      · exact h value hmem
      · cases List.mem_singleton.mp hmem
        exact hsound.1.read

theorem understood_start (env : Env E) (stream : Stream) :
    Understood (start env stream).2.world.log := by
  have hhandshake : Understood (handshake env { stream }).2.log := by
    rcases handshake_cases env stream with
      ⟨-, how, replied, -, hlog, hreplied⟩ | ⟨-, body, sent, -, hlog, -⟩
    · rw [hlog]
      rcases hreplied with rfl | ⟨body, refusal, sent, -, -, rfl⟩
      · intro value hmem
        cases hmem
      · intro value hmem
        cases List.mem_singleton.mp hmem
        rw [Answer.read_refused]
        rfl
    · rw [hlog]
      intro value hmem
      cases List.mem_singleton.mp hmem
      rw [Answer.read_welcome]
      rfl
  rcases start_cases env stream with ⟨how, h⟩ | h <;> rw [h] <;> exact hhandshake

/-- **A client knows its connection**: over a transport that takes every
write, with every reply within the frame limit, a client that sent the
frames `asked` reads back the daemon's replies and understands each of
them; and wherever the daemon stands as it waits for the next frame (no
session, a session, or a transaction), that is what the client has
learned from its frames and the texts it got. -/
theorem client_knows (env : Env E) {asked : List String} {stream reader : Stream}
    (hasked : ∀ body ∈ asked, Fits body env.limits.maxFrameBytes)
    (hdelivers : Delivers stream.incoming)
    (hcontent : content stream.incoming = asked.flatMap encode)
    (haccepting : Accepting stream) (hwritten : stream.written = []) (n : Nat)
    (hfits : ∀ value ∈ replies (connection env stream n).world.log, SendFits env value)
    (hhost : ∀ value ∈ replies (connection env stream n).world.log,
      env.host.fromStr (env.host.toString value) = .ok value)
    (hreader : Delivers reader.incoming)
    (hback : content reader.incoming = (connection env stream n).world.stream.written) :
    ∃ texts, readFrames env.limits.maxFrameBytes (texts.length + 1) reader
        = texts.map .ok ++ [.error .closed] ∧
      (∀ text ∈ texts, ∃ reply, env.host.fromStr text = .ok reply ∧ (Answer.read reply).isSome) ∧
      ∀ position, (connection env stream n).position = some position →
        Position.learned env.host asked texts = position := by
  obtain ⟨hfaithful, hout⟩ := written_eq_sentBodies env haccepting hwritten n
  have hall : sentBodies env (connection env stream n).world.log
      = (replies (connection env stream n).world.log).map env.host.toString := by
    rw [sentBodies, List.filter_eq_self.mpr (fun value hmem => decide_eq_true (hfits value hmem))]
  have hunderstood (state : State E) (h : Understood state.world.log) :
      Understood (step env (start env stream).1 state).world.log := understood_step env _ h
  have hreads := connection_invariant hunderstood (understood_start env stream) n
  have hknew (state : State E) (h : Knows env state) :
      Knows env (step env (start env stream).1 state) := knows_step env _ h
  have hknows := connection_invariant hknew (knows_start env stream) n
  have hleft (state : State E) (h : Left asked state.world) :
      Left asked (step env (start env stream).1 state).world := left_step hasked _ h
  obtain ⟨rest, hsplit, -⟩ := connection_invariant hleft (left_start hasked hdelivers hcontent) n
  refine ⟨(replies (connection env stream n).world.log).map env.host.toString, ?_, ?_, ?_⟩
  · rw [← hall]
    exact readFrames_encode (fun body hmem => fits_of_mem_sentBodies hmem) hreader
      (hback.trans hout)
  · intro text hmem
    obtain ⟨value, hvalue, rfl⟩ := List.mem_map.mp hmem
    exact ⟨value, hhost value hvalue, hreads value hvalue⟩
  · intro position hposition
    have hreaches : Reaches env (connection env stream n).world.log := by
      refine ⟨fun value result hmem => ?_, hhost⟩
      refine (hfaithful.sent value result hmem).mpr (hfits value ?_)
      exact List.mem_filterMap.mpr ⟨_, hmem, rfl⟩
    obtain ⟨hlength, hlearned⟩ := hknows hreaches position hposition
    rw [hsplit, Position.learned_append (by rw [hlength, List.length_map])]
    exact hlearned

/-! ## A conversation -/

namespace Value

mutual

/-- Whether two values are one. -/
def same : Value → Value → Bool
  | null, null => true
  | bool a, bool b => a == b
  | number m, number n => decide (m = n)
  | string s, string t => s == t
  | array items, array items' => sameItems items items'
  | object members, object members' => sameMembers members members'
  | _, _ => false

def sameItems : List Value → List Value → Bool
  | [], [] => true
  | v :: items, w :: items' => same v w && sameItems items items'
  | _, _ => false

def sameMembers : List (String × Value) → List (String × Value) → Bool
  | [], [] => true
  | (key, v) :: members, (key', w) :: members' =>
      key == key' && same v w && sameMembers members members'
  | _, _ => false

end

mutual

theorem eq_of_same : ∀ {v w : Value}, same v w = true → v = w
  | null, w, h => by cases w <;> simp_all [same]
  | bool a, w, h => by cases w <;> simp_all [same]
  | number m, w, h => by cases w <;> simp_all [same]
  | string s, w, h => by cases w <;> simp_all [same]
  | array items, w, h => by
      cases w <;> simp only [same, reduceCtorEq] at h
      rw [eq_of_sameItems h]
  | object members, w, h => by
      cases w <;> simp only [same, reduceCtorEq] at h
      rw [eq_of_sameMembers h]

theorem eq_of_sameItems : ∀ {items items' : List Value}, sameItems items items' = true →
    items = items'
  | [], items', h => by cases items' <;> simp_all [sameItems]
  | v :: items, items', h => by
      cases items' with
      | nil => simp [sameItems] at h
      | cons w items' =>
        simp only [sameItems, Bool.and_eq_true] at h
        rw [eq_of_same h.1, eq_of_sameItems h.2]

theorem eq_of_sameMembers : ∀ {members members' : List (String × Value)},
    sameMembers members members' = true → members = members'
  | [], members', h => by cases members' <;> simp_all [sameMembers]
  | (key, v) :: members, members', h => by
      cases members' with
      | nil => simp [sameMembers] at h
      | cons entry members' =>
        obtain ⟨key', w⟩ := entry
        simp only [sameMembers, Bool.and_eq_true, beq_iff_eq] at h
        rw [h.1.1, eq_of_same h.1.2, eq_of_sameMembers h.2]

end

end Value

/-- A host that reads the text of a value back. -/
def Host.readsBack (host : Host) (value : Value) : Bool :=
  match host.fromStr (host.toString value) with
  | .ok value' => value'.same value
  | .error _ => false

theorem Host.fromStr_of_readsBack {host : Host} {value : Value} (h : host.readsBack value = true) :
    host.fromStr (host.toString value) = .ok value := by
  unfold Host.readsBack at h
  split at h
  · rename_i value' hvalue
    rw [hvalue, Value.eq_of_same h]
  · cases h

/-- A client that opens a session and begins a transaction. -/
def beginning : List Value :=
  [sayHello, ask "r1" "open_session" [("database", .string "work")], ask "r2" "begin" []]

/-- What it is told. -/
def beginningReplies : List Value :=
  [Message.welcome 1 "/run/nostdb.sock",
    Value.json [("server_protocol_version", Value.u64 1), ("request_id", .string "r1"),
      ("outcome", .string "ok"), ("result", Value.json [("session_id", .string "s1")])],
    Value.json [("server_protocol_version", Value.u64 1), ("request_id", .string "r2"),
      ("outcome", .string "ok"), ("result", Value.json [("base_generation", Value.u64 0)])]]

/-- A daemon that reads its frames; its host reads the replies too. -/
def beginningEnv : Env Engine.journal :=
  Env.conversing Limits.default workCatalog (beginning ++ beginningReplies)

/-- The client knows its transaction, though it was told byte by byte. -/
theorem client_knows_begun :
    ∃ texts, readFrames beginningEnv.limits.maxFrameBytes (texts.length + 1)
        (bytewise (connection beginningEnv (Stream.saying beginning) 2).world.stream.written)
          = texts.map .ok ++ [.error .closed] ∧
      (∀ text ∈ texts, ∃ reply, beginningEnv.host.fromStr text = .ok reply ∧
        (Answer.read reply).isSome) ∧
      Position.learned beginningEnv.host (beginning.map Value.write) texts
        = .transaction "s1" "work" 0 := by
  have hasked : ∀ body ∈ beginning.map Value.write,
      Fits body beginningEnv.limits.maxFrameBytes := by
    decide +kernel
  have hrun : (∀ value ∈ replies (connection beginningEnv (Stream.saying beginning) 2).world.log,
      SendFits beginningEnv value ∧ beginningEnv.host.readsBack value = true) ∧
      (connection beginningEnv (Stream.saying beginning) 2).position
        = some (.transaction "s1" "work" 0) := by
    decide +kernel
  obtain ⟨texts, hread, hunderstood, hlearned⟩ := client_knows beginningEnv hasked
    (delivers_saying beginning).1 (delivers_saying beginning).2 accepting_of_script rfl 2
    (fun value hmem => (hrun.1 value hmem).1)
    (fun value hmem => Host.fromStr_of_readsBack (hrun.1 value hmem).2) (delivers_bytewise _)
    (content_bytewise _)
  exact ⟨texts, hread, hunderstood, hlearned _ hrun.2⟩

end NostdbServer
