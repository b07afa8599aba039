import Mathlib.Data.Finset.Insert
import NostdbServer.Diagnostic
import NostdbServer.Json

/-!
# Message — decoding and version negotiation

`src/message.rs`: the opening `hello`, the requests after it, and the two
handshake replies. Every refusal names the section 8 row it comes from as
a `Rule`; the detail texts are the source's, since a reply carries them
and their length decides whether it can be sent.
-/

namespace NostdbServer

/-- A section 8 refusal row. -/
inductive Rule where
  | versionsDoNotIntersect
  | versionAbsentAfterHandshake
  | firstMessageNotHello
  | frameTooLarge
  | bodyNotAnObject
  | requestIdAbsent
  | operationAbsent
  | unknownOperation
  | databaseIsAPath
  | unknownSession
  | secondSessionOnOneConnection
  | peerIsAnotherUser
  deriving DecidableEq, Repr

namespace Rule

/-- The identifier a published fixture declares. -/
def asStr : Rule → String
  | versionsDoNotIntersect => "versions_do_not_intersect"
  | versionAbsentAfterHandshake => "version_absent_after_handshake"
  | firstMessageNotHello => "first_message_not_hello"
  | frameTooLarge => "frame_too_large"
  | bodyNotAnObject => "body_not_an_object"
  | requestIdAbsent => "request_id_absent"
  | operationAbsent => "operation_absent"
  | unknownOperation => "unknown_operation"
  | databaseIsAPath => "database_is_a_path"
  | unknownSession => "unknown_session"
  | secondSessionOnOneConnection => "second_session_on_one_connection"
  | peerIsAnotherUser => "peer_is_another_user"

/-- The diagnostic code the rule carries: the version refusal alone has
one. -/
def code : Rule → Option Code
  | versionsDoNotIntersect => some .serverProtocolUnsupported
  | _ => none

end Rule

/-- A refused message. -/
structure Refusal where
  rule : Rule
  detail : String
  deriving DecidableEq, Repr

namespace Refusal

def code (refusal : Refusal) : Option Code := refusal.rule.code

/-- `Display`. -/
def display (refusal : Refusal) : String := refusal.rule.asStr ++ ": " ++ refusal.detail

end Refusal

/-- An operation section 5.2 publishes. -/
inductive Operation where
  | openSession
  | closeSession
  | query
  | begin
  | commit
  | rollback
  | status
  | shutdown
  deriving DecidableEq, Repr

namespace Operation

/-- Parses an operation name, refusing an unpublished one. -/
def parse (name : String) : Option Operation :=
  if name = "open_session" then some openSession
  else if name = "close_session" then some closeSession
  else if name = "query" then some query
  else if name = "begin" then some begin
  else if name = "commit" then some commit
  else if name = "rollback" then some rollback
  else if name = "status" then some status
  else if name = "shutdown" then some shutdown
  else none

/-- The name on the wire. -/
def asStr : Operation → String
  | openSession => "open_session"
  | closeSession => "close_session"
  | query => "query"
  | begin => "begin"
  | commit => "commit"
  | rollback => "rollback"
  | status => "status"
  | shutdown => "shutdown"

/-- An operation is parsed from its own wire name and from no other. -/
theorem parse_eq_some_iff {name : String} {operation : Operation} :
    parse name = some operation ↔ name = operation.asStr := by
  constructor
  · intro h
    unfold parse at h
    split_ifs at h <;> (cases h; assumption)
  · rintro rfl
    cases operation <;> decide

end Operation

/-- A client's opening message. -/
structure Hello where
  supportedVersions : List UInt64
  client : Option String

/-- A decoded request. -/
structure Request where
  serverProtocolVersion : UInt64
  requestId : String
  sessionId : Option String
  operation : Operation
  database : Option String
  statement : Option String
  deriving DecidableEq, Repr

namespace Message

/-- The versions of the local protocol this build speaks. -/
def SUPPORTED_VERSIONS : List UInt64 := [1]

def objectOf (host : Host) (body : String) : Except Refusal Map :=
  match host.fromStr body with
  | .error error =>
      .error ⟨.bodyNotAnObject, "the frame body is not readable JSON: " ++ error⟩
  | .ok value =>
      match value.asObject with
      | some object => .ok object
      | none => .error ⟨.bodyNotAnObject, "the frame body is a JSON object"⟩

/-- Decodes the opening `hello`. It does not negotiate. -/
def decodeHello (host : Host) (body : String) : Except Refusal Hello :=
  match objectOf host body with
  | .error refusal => .error refusal
  | .ok object =>
      match (object.get? "message").bind Value.asStr with
      | none =>
          .error ⟨.firstMessageNotHello,
            "the first message on a connection is hello, and this names no message"⟩
      | some other =>
          if other = "hello" then
            .ok {
              supportedVersions :=
                (((object.get? "supported_versions").bind Value.asArray).map
                  (fun values => values.filterMap Value.asU64)).getD []
              client := (object.get? "client").bind Value.asStr }
          else
            .error ⟨.firstMessageNotHello,
              "the first message on a connection is hello, not " ++ other⟩

/-- Chooses the highest version both sides speak. -/
def negotiate (hello : Hello) : Except Refusal UInt64 :=
  match (hello.supportedVersions.filter (fun v => SUPPORTED_VERSIONS.contains v)).max? with
  | some version => .ok version
  | none =>
      .error ⟨.versionsDoNotIntersect,
        "the client offers " ++ debugU64s hello.supportedVersions
          ++ " and this build speaks " ++ debugU64s SUPPORTED_VERSIONS⟩

/-- Why a `database` value is a path rather than a catalog name, if it is
one. -/
def pathShaped (name : String) : Option String :=
  if name = "" then some "database is a catalog name, and this is empty"
  else if name.toList.head? = some '@' then
    some (name
      ++ ": the @ sigil belongs to the command line, and database carries the bare name")
  else if '/' ∈ name.toList ∨ '\\' ∈ name.toList ∨ name.toList.head? = some '.' then
    some (name ++ " is a path, and the daemon resolves catalog names rather than paths")
  else none

/-- The `database` member: absent or of another type is none at all, a
path is refused. -/
def decodeDatabase (object : Map) : Except Refusal (Option String) :=
  match (object.get? "database").bind Value.asStr with
  | none => .ok none
  | some name =>
      match pathShaped name with
      | some problem => .error ⟨.databaseIsAPath, problem⟩
      | none => .ok (some name)

def decodeOperation (object : Map) : Except Refusal Operation :=
  match (object.get? "operation").bind Value.asStr with
  | none =>
      .error ⟨.operationAbsent,
        "a request names an operation, and there is no default to fall back to"⟩
  | some name =>
      match Operation.parse name with
      | some operation => .ok operation
      | none =>
          .error ⟨.unknownOperation, name ++ " is not an operation this contract publishes"⟩

def decodeRequestId (object : Map) (outstanding : Finset String) : Except Refusal String :=
  match (object.get? "request_id").bind Value.asStr with
  | none =>
      .error ⟨.requestIdAbsent,
        "a request carries a non-empty request_id, because responses may arrive in any order"⟩
  | some id =>
      if id = "" then
        .error ⟨.requestIdAbsent,
          "a request carries a non-empty request_id, because responses may arrive in any order"⟩
      else if id ∈ outstanding then
        .error ⟨.requestIdAbsent,
          "request_id " ++ id ++ " is already outstanding on this connection"⟩
      else .ok id

def decodeVersion (object : Map) : Except Refusal UInt64 :=
  match (object.get? "server_protocol_version").bind Value.asU64 with
  | none =>
      .error ⟨.versionAbsentAfterHandshake,
        "every message after the handshake states the negotiated server_protocol_version"⟩
  | some version =>
      if SUPPORTED_VERSIONS.contains version then .ok version
      else
        .error ⟨.versionsDoNotIntersect,
          "this build does not speak server_protocol_version " ++ toString version.toNat⟩

/-- Decodes a request sent after negotiation. The checks run in the
source's order, each in a helper above, so the rule is that of the first
one that fails. -/
def decodeRequest (host : Host) (body : String) (outstanding : Finset String) :
    Except Refusal Request :=
  match objectOf host body with
  | .error refusal => .error refusal
  | .ok object =>
      match decodeVersion object with
      | .error refusal => .error refusal
      | .ok version =>
          if (object.get? "message").bind Value.asStr = some "hello" then
            .error ⟨.firstMessageNotHello,
              "the handshake happens once per connection, and the version cannot change within one"⟩
          else
            match decodeRequestId object outstanding with
            | .error refusal => .error refusal
            | .ok requestId =>
                match decodeOperation object with
                | .error refusal => .error refusal
                | .ok operation =>
                    match decodeDatabase object with
                    | .error refusal => .error refusal
                    | .ok database =>
                        .ok {
                          serverProtocolVersion := version
                          requestId := requestId
                          sessionId := (object.get? "session_id").bind Value.asStr
                          operation := operation
                          database := database
                          statement := (object.get? "statement").bind Value.asStr }

/-! ## What an accepted request was read from -/

theorem decodeVersion_ok {object : Map} {version : UInt64}
    (h : decodeVersion object = .ok version) :
    object.get? "server_protocol_version" = some (Value.u64 version) ∧ version = 1 := by
  unfold decodeVersion at h
  split at h
  · cases h
  · rename_i stated hstated
    split at h
    · rename_i hsupported
      cases h
      obtain ⟨value, hvalue, hu64⟩ := Option.bind_eq_some_iff.mp hstated
      refine ⟨by rw [hvalue, Value.eq_u64_of_asU64 hu64], ?_⟩
      simpa [SUPPORTED_VERSIONS] using hsupported
    · cases h

theorem decodeRequestId_ok {object : Map} {outstanding : Finset String} {id : String}
    (h : decodeRequestId object outstanding = .ok id) :
    object.get? "request_id" = some (.string id) ∧ id ≠ "" ∧ id ∉ outstanding := by
  unfold decodeRequestId at h
  split at h
  · cases h
  · rename_i stated hstated
    split at h
    · cases h
    · rename_i hne
      split at h
      · cases h
      · rename_i hfresh
        cases h
        obtain ⟨value, hvalue, hstr⟩ := Option.bind_eq_some_iff.mp hstated
        exact ⟨by rw [hvalue, Value.eq_string_of_asStr hstr], hne, hfresh⟩

/-- An accepted request's version and identifier are the body's own. -/
theorem decodeRequest_ok {host : Host} {body : String} {outstanding : Finset String}
    {request : Request} (h : decodeRequest host body outstanding = .ok request) :
    ∃ object, objectOf host body = .ok object ∧
      decodeVersion object = .ok request.serverProtocolVersion ∧
      decodeRequestId object outstanding = .ok request.requestId := by
  unfold decodeRequest at h
  split at h
  · cases h
  · rename_i object hobject
    split at h
    · cases h
    · rename_i version hversion
      split at h
      · cases h
      · split at h
        · cases h
        · rename_i requestId hid
          split at h
          · cases h
          · split at h
            · cases h
            · cases h
              exact ⟨object, hobject, hversion, hid⟩

/-- The `welcome` a daemon answers a successful handshake with. -/
def welcome (version : UInt64) (endpoint : String) : Value :=
  Value.json [("message", .string "welcome"), ("server_protocol_version", Value.u64 version),
    ("endpoint", .string endpoint)]

/-- The `refused` a daemon answers a failed negotiation with. -/
def refused : Value :=
  Value.json [("message", .string "refused"),
    ("code", .string Code.serverProtocolUnsupported.asStr),
    ("supported_versions", .array (SUPPORTED_VERSIONS.map Value.u64))]

end Message

end NostdbServer
