import NostdbServer.Exchange

/-!
# Correlation — which reply answers which request

Every builder of a reply to a decoded request puts the request's
identifier into it. A body the decoder refuses is answered without one,
even where it states one: the decoder hands on a rule and a detail, and
the reply is built with no identifier (`reply_correlation`).
-/

namespace NostdbServer

open Response

variable {E : Engine}

/-- The identifier a reply carries. -/
def replyId (value : Value) : Option String := (value.get "request_id").bind Value.asStr

theorem replyId_refusalResponse (version : UInt64) (requestId : Option String)
    (refusal : Refusal) : replyId (refusalResponse version requestId refusal) = requestId := by
  unfold replyId refusalResponse
  cases requestId <;> cases refusal.code <;> simp [OrdMap.get?_insert, Value.asStr]

/-- **A reply carries the identifier of the request it is built for**, and
none where there is no request. -/
theorem Answers.replyId {version : UInt64} {heard : Heard} {refusal : Option Refusal}
    {value : Value} (h : Answers version heard refusal value) :
    replyId value = heard.asked.map Request.requestId := by
  cases h with
  | undecoded refusal => exact replyId_refusalResponse version none refusal
  | refused request refusal => exact replyId_refusalResponse version _ refusal
  | _ =>
    simp [NostdbServer.replyId, frameTooLargeResponse, okResponse, errorResponse,
      diagnosticResponse, rowsResponse, get_json, OrdMap.ofList, OrdMap.insertAll,
      OrdMap.get?_insert, Value.asStr, Heard.asked]

/-- How a frame and its reply correspond: a reply to a decoded request
carries the identifier the body states, and a refusal of the decoder
carries none. -/
def Correlated (env : Env E) (place : Place) (body : String) (events : List (Event E))
    (value : Value) : Prop :=
  (∃ request object, .decoded place request ∈ events ∧
      Message.objectOf env.host body = .ok object ∧
      object.get? "request_id" = some (.string request.requestId) ∧
      replyId value = some request.requestId) ∨
    ((∀ request, .decoded place request ∉ events) ∧ replyId value = none ∧
      ∃ outstanding refusal version,
        Message.decodeRequest env.host body outstanding = .error refusal ∧
        value = refusalResponse version none refusal)

/-- **Correlation**: each frame read whole behind the handshake has one
reply, and it carries the frame's identifier exactly where the decoder
accepted the frame. -/
theorem reply_correlation (env : Env E) (fuel : Nat) (stream : Stream) :
    AnsweredBy (Correlated env) (serveConnection env fuel stream).world.log := by
  refine answeredBy_run env stream ?_ fuel
  intro outstanding place body events reported value _ hanswers hdecoded
  have hid := hanswers.replyId
  unfold heardBody at hanswers hdecoded hid
  split at hanswers
  · rename_i refusal hrefusal
    simp only [hrefusal] at hdecoded hid
    refine .inr ⟨fun request hmem => ?_, hid, outstanding, refusal, ?_⟩
    · cases (hdecoded request).mp hmem
    · cases hanswers
      exact ⟨_, hrefusal, rfl⟩
  · rename_i request hrequest
    simp only [hrequest] at hdecoded hid
    obtain ⟨object, hobject, -, hrequestId⟩ := Message.decodeRequest_ok hrequest
    exact .inl ⟨request, object, (hdecoded request).mpr rfl, hobject,
      (Message.decodeRequestId_ok hrequestId).1, hid⟩

/-! ## A request that is refused -/

/-- The place and the body of a frame that was read whole. -/
def Event.whole : Event E → Option (Place × String)
  | .read place (.ok body) => some (place, body)
  | _ => none

/-- A log, at a frame that was read whole. -/
theorem split_whole {log : List (Event E)} {i : Nat} {place : Place} {body : String}
    (h : (log[i]?).bind Event.whole = some (place, body)) :
    log = log.take i ++ .read place (.ok body) :: log.drop (i + 1) := by
  obtain ⟨event, hevent, hwhole⟩ := Option.bind_eq_some_iff.mp h
  obtain ⟨hi, hget⟩ := List.getElem?_eq_some_iff.mp hevent
  have hread : event = .read place (.ok body) := by
    cases event with
    | read place' result =>
      cases result with
      | error error => cases hwhole
      | ok body' =>
        cases hwhole
        rfl
    | _ => cases hwhole
  rw [← hread, ← hget, List.getElem_cons_drop, List.take_append_drop]

/-- A client that says hello and asks for an operation there is none of. -/
def unknownOperation : Value := ask "x1" "vacuum" []

def asksUnknown : List Value := [sayHello, unknownOperation]

/-- A daemon that reads them, under the default limits. -/
def unknownEnv : Env Engine.journal := Env.conversing Limits.default (Value.json []) asksUnknown

/-- A refused request is answered without its identifier. -/
theorem refused_without_id :
    ¬ ∀ (env : Env Engine.journal) fuel stream front place body back object id,
      (serveConnection env fuel stream).world.log = front ++ .read place (.ok body) :: back →
      place ≠ .opening → Message.objectOf env.host body = .ok object →
      object.get? "request_id" = some (.string id) → id ≠ "" →
      ∃ value, replies (untilRead back) = [value] ∧ replyId value = some id := by
  intro h
  let log := (serveConnection unknownEnv 1 (.saying asksUnknown)).world.log
  have hread : (log[2]?).bind Event.whole = some (.main, unknownOperation.write) := by
    decide +kernel
  have hids : (replies (untilRead (log.drop 3))).map replyId = [none] := by decide +kernel
  obtain ⟨value, hvalue, hid⟩ := h unknownEnv 1 (.saying asksUnknown) (log.take 2) .main
    unknownOperation.write (log.drop 3) (OrdMap.ofList
      [("server_protocol_version", Value.u64 1), ("request_id", .string "x1"),
        ("operation", .string "vacuum")]) "x1" (split_whole hread) (by decide) (by rfl) (by rfl)
    (by decide)
  rw [hvalue, List.map_singleton, hid] at hids
  cases hids

end NostdbServer
