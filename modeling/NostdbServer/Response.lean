import NostdbServer.Engine
import NostdbServer.Frame
import NostdbServer.Message

/-!
# Response — the replies of the request loop

The builders at the end of `src/serve.rs`, and the limits they read. A
reply is a JSON object; what a client may rely on of every one of them
(its outcome, the request it answers, its version) is stated here once.
-/

namespace NostdbServer

/-- The limits section 7 requires a build to enforce. `queryTimeout` is
in milliseconds. -/
structure Limits where
  maxFrameBytes : UInt32
  maxResultRows : Nat
  queryTimeout : Nat
  deriving DecidableEq, Repr

/-- `Limits::default()`. -/
def Limits.default : Limits where
  maxFrameBytes := Frame.MINIMUM_MAXIMUM_FRAME_BYTES
  maxResultRows := 100000
  queryTimeout := 30 * 1000

namespace Response

/-- `ok_response`. -/
def okResponse (version : UInt64) (request : Request) (result : Value) : Value :=
  Value.json [("server_protocol_version", Value.u64 version),
    ("request_id", .string request.requestId), ("outcome", .string "ok"), ("result", result)]

/-- `error_response`. -/
def errorResponse (version : UInt64) (request : Request) (detail : String) : Value :=
  Value.json [("server_protocol_version", Value.u64 version),
    ("request_id", .string request.requestId), ("outcome", .string "error"),
    ("detail", .string detail)]

/-- `diagnostic_response`: a failure the Engine named, with its own code. -/
def diagnosticResponse (version : UInt64) (request : Request) (error : QueryError) : Value :=
  Value.json [("server_protocol_version", Value.u64 version),
    ("request_id", .string request.requestId), ("outcome", .string "error"),
    ("diagnostics", .array [Value.json [("code", .string error.code),
      ("message", .string error.message)]])]

/-- `refusal_response`: it names the request where there is one to name. -/
def refusalResponse (version : UInt64) (requestId : Option String) (refusal : Refusal) : Value :=
  let object : Map := OrdMap.empty.insert "server_protocol_version" (Value.u64 version)
  let object :=
    match requestId with
    | some id => object.insert "request_id" (.string id)
    | none => object
  let object := object.insert "outcome" (.string "error")
  let object := object.insert "rule" (.string refusal.rule.asStr)
  let object :=
    match refusal.code with
    | some code => object.insert "code" (.string code.asStr)
    | none => object
  Value.ofMap (object.insert "detail" (.string refusal.detail))

/-- The reply to an over-long frame, refused from its prefix. -/
def frameTooLargeResponse (version : UInt64) (declared maximum : UInt32) : Value :=
  Value.json [("server_protocol_version", Value.u64 version), ("outcome", .string "error"),
    ("rule", .string "frame_too_large"),
    ("detail", .string ("the peer declared a " ++ toString declared.toNat
      ++ "-byte frame, and the maximum is " ++ toString maximum.toNat))]

/-- The reply to a query that produced more rows than a reply carries. -/
def rowsResponse (version : UInt64) (request : Request) (rows ceiling : Nat) : Value :=
  Value.json [("server_protocol_version", Value.u64 version),
    ("request_id", .string request.requestId), ("outcome", .string "error"),
    ("limit", .string "max_result_rows"),
    ("detail", .string ("the query produced " ++ toString rows
      ++ " rows, and the per-session ceiling is " ++ toString ceiling))]

/-- `envelope_response`. -/
def envelopeResponse (E : Engine) (version : UInt64) (request : Request)
    (result : E.QueryResult) (generation : UInt64) (writes : Option E.WriteSummary)
    (limits : Limits) : Value :=
  if E.rowCount result > limits.maxResultRows then
    rowsResponse version request (E.rowCount result) limits.maxResultRows
  else okResponse version request (E.envelope result generation writes)

/-! ## What a client reads off a reply -/

/-- A reply with outcome `ok`. -/
def Ok (reply : Value) : Prop := reply.get "outcome" = some (.string "ok")

/-- A reply with outcome `error`. -/
def Failed (reply : Value) : Prop := reply.get "outcome" = some (.string "error")

theorem not_ok_of_failed {reply : Value} (h : Failed reply) : ¬ Ok reply := by
  intro hok
  rw [Ok, h] at hok
  simp at hok

/-- A reply to a query that was stopped by the row ceiling. -/
def StoppedByRows (reply : Value) : Prop :=
  Failed reply ∧ reply.get "limit" = some (.string "max_result_rows")

theorem get_json (members : List (String × Value)) (key : String) :
    (Value.json members).get key = (OrdMap.ofList members).get? key := Value.get_ofMap _ _

variable {E : Engine} {version : UInt64} {request : Request}

theorem ok_okResponse (result : Value) : Ok (okResponse version request result) := by
  simp [Ok, okResponse, get_json, OrdMap.ofList, OrdMap.insertAll, OrdMap.get?_insert]

/-- A reply that failed for any reason but the row ceiling. -/
def FailedOutright (reply : Value) : Prop := Failed reply ∧ ¬ StoppedByRows reply

theorem not_failedOutright {reply : Value} (h : Ok reply ∨ StoppedByRows reply) :
    ¬ FailedOutright reply := by
  rintro ⟨hfailed, hstopped⟩
  rcases h with hok | hrows
  · exact not_ok_of_failed hfailed hok
  · exact hstopped hrows

theorem failedOutright_of_limit {reply : Value} (h : Failed reply)
    (hlimit : reply.get "limit" = none) : FailedOutright reply := by
  refine ⟨h, fun hstopped => ?_⟩
  rw [StoppedByRows, hlimit] at hstopped
  cases hstopped.2

theorem failedOutright_errorResponse (detail : String) :
    FailedOutright (errorResponse version request detail) := by
  apply failedOutright_of_limit <;>
    simp [Failed, errorResponse, get_json, OrdMap.ofList, OrdMap.insertAll, OrdMap.get?_insert]

theorem failedOutright_diagnosticResponse (error : QueryError) :
    FailedOutright (diagnosticResponse version request error) := by
  apply failedOutright_of_limit <;>
    simp [Failed, diagnosticResponse, get_json, OrdMap.ofList, OrdMap.insertAll,
      OrdMap.get?_insert]

theorem failedOutright_refusalResponse (requestId : Option String) (refusal : Refusal) :
    FailedOutright (refusalResponse version requestId refusal) := by
  apply failedOutright_of_limit <;> unfold refusalResponse <;>
    cases requestId <;> cases refusal.code <;> simp [Failed, OrdMap.get?_insert]

/-- A refusal's reply names its rule. -/
theorem rule_refusalResponse (requestId : Option String) (refusal : Refusal) :
    (refusalResponse version requestId refusal).get "rule" = some (.string refusal.rule.asStr) := by
  unfold refusalResponse
  cases requestId <;> cases refusal.code <;> simp [OrdMap.get?_insert]

theorem stoppedByRows_rowsResponse (rows ceiling : Nat) :
    StoppedByRows (rowsResponse version request rows ceiling) := by
  simp [StoppedByRows, Failed, rowsResponse, get_json, OrdMap.ofList, OrdMap.insertAll,
    OrdMap.get?_insert]

/-- A reply of `envelope_response` is `ok` within the ceiling and reports
the ceiling past it. -/
theorem envelopeResponse_cases (version : UInt64) (request : Request) (result : E.QueryResult)
    (generation : UInt64) (writes : Option E.WriteSummary) (limits : Limits) :
    (Ok (envelopeResponse E version request result generation writes limits) ∧
        E.rowCount result ≤ limits.maxResultRows) ∨
      (StoppedByRows (envelopeResponse E version request result generation writes limits) ∧
        limits.maxResultRows < E.rowCount result) := by
  unfold envelopeResponse
  split
  · rename_i hrows
    exact .inr ⟨stoppedByRows_rowsResponse _ _, hrows⟩
  · rename_i hrows
    exact .inl ⟨ok_okResponse _, Nat.not_lt.mp hrows⟩

end Response

end NostdbServer
