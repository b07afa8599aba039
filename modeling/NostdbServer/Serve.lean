import NostdbServer.Frame
import NostdbServer.Response
import NostdbServer.Session

/-!
# Serve — the request loop and the transaction region

`src/serve.rs`. A `World` is what a connection acts on: its stream, how
often it has called the outside, and a log of what happened. The log is
for stating properties only; no function reads it.

The functions keep the source's nesting: `mainLoop` calls
`runTransactionRegion`, which has a loop of its own. Each loop body is a
turn of its own (`mainTurn`, `regionTurn`), and the loops take fuel: out
of fuel, they hand back the state in which they were about to read.

A transaction borrows its session's database, so a region holds the
session and gives it back when it ends.
-/

namespace NostdbServer

open Response

/-- How a connection ended. -/
inductive Ended where
  | clientClosed
  | handshakeRefused
  | shutdownRequested
  | transportFailed
  deriving DecidableEq, Repr

/-- Which read a frame came from. -/
inductive Place where
  | opening
  | main
  | region
  deriving DecidableEq, Repr

/-- What a connection did, for the log. -/
inductive Event (E : Engine) where
  /-- A frame was read, or the read failed. -/
  | read (place : Place) (result : Except FrameError String)
  | decoded (place : Place) (request : Request)
  | sent (value : Value) (result : Except FrameError Unit)
  | loaded (read : ReadToString)
  /-- `Database::open` was called. -/
  | opened (path : Path)
  /-- A session was opened. -/
  | attached (session : Session E.Database)
  /-- The connection's session, if any, was ended. -/
  | closed
  | began (database : E.Database)
  /-- A statement was executed; `wrote` is whether the transaction then
  held writes. -/
  | ran (place : Place) (request : Request) (session : Session E.Database)
      (result : Except QueryError E.QueryResult) (wrote : Bool)
  /-- A commit was attempted; `after` is the database it left. -/
  | committed (request : Request) (before : E.Database) (result : Except String UInt64)
      (after : E.Database)
  | rolledBack (after : E.Database)

/-- What a connection is served with: the limits, and what each call of
the outside answers. Nothing ties one answer to another, so other
processes may change the catalog and the databases at any time. -/
structure Env (E : Engine) where
  host : Host
  limits : Limits
  endpoint : String
  /-- The catalog file, at the n-th load. -/
  catalogAt : Nat → ReadToString
  /-- `Database::open`, at the n-th call. -/
  openAt : Nat → Path → Except String E.Database
  /-- `Deadline::after` the query timeout, for the n-th run. -/
  deadlineAfter : Nat → Nat → E.Deadline

/-- What a connection acts on. -/
structure World (E : Engine) where
  stream : Stream
  loads : Nat := 0
  opens : Nat := 0
  runs : Nat := 0
  log : List (Event E) := []

variable {E : Engine}

namespace World

/-- The world with more behind its log. -/
def logging (world : World E) (events : List (Event E)) : World E :=
  { world with log := world.log ++ events }

/-- The world behind a load of the catalog. -/
def loading (world : World E) (read : ReadToString) : World E :=
  { world with loads := world.loads + 1 }.logging [.loaded read]

/-- The world behind calls of `Database::open` on the listed paths. -/
def opening (world : World E) (paths : List Path) : World E :=
  { world with opens := world.opens + paths.length }.logging (paths.map .opened)

/-- The world behind a run of a statement. -/
def running (world : World E) (events : List (Event E)) : World E :=
  { world with runs := world.runs + 1 }.logging events

@[simp] theorem log_logging (world : World E) (events : List (Event E)) :
    (world.logging events).log = world.log ++ events := rfl

@[simp] theorem log_loading (world : World E) (read : ReadToString) :
    (world.loading read).log = world.log ++ [.loaded read] := rfl

@[simp] theorem log_opening (world : World E) (paths : List Path) :
    (world.opening paths).log = world.log ++ paths.map .opened := rfl

@[simp] theorem log_running (world : World E) (events : List (Event E)) :
    (world.running events).log = world.log ++ events := rfl

end World

section

variable (env : Env E)

/-- `frame::read_frame`. -/
def receive (place : Place) (world : World E) : Except FrameError String × World E :=
  match Frame.readFrame world.stream env.limits.maxFrameBytes with
  | (result, stream) => (result, { world with stream }.logging [.read place result])

/-- `send`. -/
def send (world : World E) (value : Value) : Except FrameError Unit × World E :=
  match Frame.writeFrame world.stream (env.host.toString value) env.limits.maxFrameBytes with
  | (result, stream) => (result, { world with stream }.logging [.sent value result])

/-- The deadline of the run that comes next. -/
def deadline (world : World E) : E.Deadline :=
  env.deadlineAfter world.runs env.limits.queryTimeout

variable (version : UInt64)

/-! ## One request outside a region -/

/-- `run_one`: one statement in its own transaction, committed if it
changed anything. -/
def runOne (request : Request) (statement : String) (session : Session E.Database)
    (world : World E) : Value × Session E.Database × World E :=
  match E.parse statement with
  | .error error => (diagnosticResponse version request error, session, world)
  | .ok query =>
      match E.begin session.database with
      | .error error => (errorResponse version request error, session, world)
      | .ok transaction =>
          let base := E.baseGeneration transaction
          let began : Event E := .began session.database
          match E.runCancellable transaction query (deadline env world) with
          | (.error error, transaction) =>
              let database := E.rollback transaction session.database
              (diagnosticResponse version request error, { session with database },
                world.running [began,
                  .ran .main request session (.error error)
                    (!E.isEmpty (E.writes transaction)),
                  .rolledBack database])
          | (.ok result, transaction) =>
              let writes := E.writes transaction
              let wrote := !E.isEmpty writes
              let ran : Event E := .ran .main request session (.ok result) wrote
              if wrote then
                match E.commit transaction session.database with
                | (.ok generation, database) =>
                    (envelopeResponse E version request result generation (some writes) env.limits,
                      { session with database },
                      world.running [began, ran,
                        .committed request session.database (.ok generation) database])
                | (.error error, database) =>
                    (errorResponse version request error, { session with database },
                      world.running [began, ran,
                        .committed request session.database (.error error) database])
              else
                let database := E.rollback transaction session.database
                (envelopeResponse E version request result base none env.limits,
                  { session with database },
                  world.running [began, ran, .rolledBack database])

/-- What `dispatch` decides. -/
inductive Reply where
  | send (value : Value)
  | transaction
  | shutdown (value : Value)

/-- What `open_session` answers, for each result of `Slot::open`. -/
def openReply (request : Request) : Except OpenError SessionId → Value
  | .ok id => okResponse version request (Value.json [("session_id", .string id.asStr)])
  | .error (.refused refusal) => refusalResponse version (some request.requestId) refusal
  | .error error => errorResponse version request (error.display env.host)

/-- The log of a result of `Slot::open`: the session it opened, if any. -/
def attachedBy (slot : Slot E.Database) : Except OpenError SessionId → List (Event E)
  | .ok _ => slot.session.toList.map .attached
  | .error _ => []

/-- The `open_session` branch of `dispatch`. -/
def openSession (request : Request) (slot : Slot E.Database) (world : World E) :
    Value × Slot E.Database × World E :=
  match request.database with
  | none => (errorResponse version request "open_session names the database to open", slot, world)
  | some name =>
      let read := env.catalogAt world.loads
      match Catalog.load env.host read with
      | .error error =>
          (errorResponse version request (error.display env.host), slot, world.loading read)
      | .ok catalog =>
          match slot.open (env.openAt world.opens) name catalog with
          | (result, slot, paths) =>
              (openReply env version request result, slot,
                ((world.loading read).opening paths).logging (attachedBy slot result))

/-- The `query` branch of `dispatch`. -/
def queryOnce (request : Request) (slot : Slot E.Database) (world : World E) :
    Value × Slot E.Database × World E :=
  match slot.resolve request.sessionId with
  | .error refusal => (refusalResponse version (some request.requestId) refusal, slot, world)
  | .ok session =>
      match request.statement with
      | none => (errorResponse version request "a query carries a statement", slot, world)
      | some statement =>
          match runOne env version request statement session world with
          | (value, session, world) => (value, slot.holding session, world)

/-- `dispatch`. -/
def dispatch (request : Request) (slot : Slot E.Database) (world : World E) :
    Reply × Slot E.Database × World E :=
  match request.operation with
  | .openSession =>
      match openSession env version request slot world with
      | (value, slot, world) => (.send value, slot, world)
  | .closeSession =>
      match slot.close with
      | (closed, slot) =>
          (.send (okResponse version request (Value.json [("closed", .bool closed)])), slot,
            world.logging [.closed])
  | .status =>
      (.send (okResponse version request (Value.json [("endpoint", .string env.endpoint),
        ("sessions", Value.u64 (if slot.isOpen then 1 else 0)),
        ("server_protocol_version", Value.u64 version)])), slot, world)
  | .shutdown => (.shutdown (okResponse version request (Value.json [])), slot, world)
  | .query =>
      match queryOnce env version request slot world with
      | (value, slot, world) => (.send value, slot, world)
  | .begin =>
      match slot.resolve request.sessionId with
      | .error refusal =>
          (.send (refusalResponse version (some request.requestId) refusal), slot, world)
      | .ok _ => (.transaction, slot, world)
  | .commit | .rollback =>
      (.send (errorResponse version request "there is no open transaction; send begin first"),
        slot, world)

/-! ## The transaction region -/

inductive RegionEnd where
  | «continue»
  | clientClosed
  | transportFailed
  deriving DecidableEq, Repr

/-- What a transaction region holds: the session it borrows and the
connection's count of sessions, the transaction, and its own set of
outstanding identifiers. -/
structure Region (E : Engine) where
  session : Session E.Database
  next : UInt64
  transaction : E.Transaction
  base : UInt64
  outstanding : Finset String

/-- The slot as the region gives it back. -/
def Region.slot (region : Region E) : Slot E.Database := ⟨some region.session, region.next⟩

/-- A region goes on, or has ended. -/
inductive RegionTurn (E : Engine) where
  | next (region : Region E) (world : World E)
  | finish (how : RegionEnd) (slot : Slot E.Database) (world : World E)

/-- The transaction is rolled back and the region ends. -/
def Region.rollback (region : Region E) (how : RegionEnd) (world : World E) : RegionTurn E :=
  let database := E.rollback region.transaction region.session.database
  .finish how { region with session := { region.session with database } : Region E }.slot
    (world.logging [.rolledBack database])

/-- The end of a turn: the request is no longer outstanding, the reply is
sent, and a failed send rolls back. -/
def Region.answer (request : Request) (value : Value) (region : Region E) (world : World E) :
    RegionTurn E :=
  let region := { region with outstanding := region.outstanding.erase request.requestId }
  match send env world value with
  | (.error _, world) => region.rollback .transportFailed world
  | (.ok (), world) => .next region world

/-- One statement inside the region: its reply, and the transaction it
leaves. -/
def Region.run (request : Request) (statement : String) (region : Region E) (world : World E) :
    Value × E.Transaction × World E :=
  match E.parse statement with
  | .error error => (diagnosticResponse version request error, region.transaction, world)
  | .ok query =>
      match E.runCancellable region.transaction query (deadline env world) with
      | (.error error, transaction) =>
          (diagnosticResponse version request error, transaction,
            world.running [.ran .region request region.session (.error error)
              (!E.isEmpty (E.writes transaction))])
      | (.ok result, transaction) =>
          let writes := E.writes transaction
          (envelopeResponse E version request result region.base (some writes) env.limits,
            transaction, world.running [.ran .region request region.session (.ok result)
              (!E.isEmpty writes)])

/-- The `query` branch of the region. -/
def Region.query (request : Request) (region : Region E) (world : World E) : RegionTurn E :=
  match request.statement with
  | none =>
      -- the reply's send is not looked at, and the identifier stays outstanding
      .next region (send env world (errorResponse version request "a query carries a statement")).2
  | some statement =>
      match region.run env version request statement world with
      | (value, transaction, world) => { region with transaction }.answer env request value world

/-- The `commit` branch of the region: the attempt consumes the
transaction, so the region ends either way. -/
def Region.commit (request : Request) (region : Region E) (world : World E) : RegionTurn E :=
  match E.commit region.transaction region.session.database with
  | (result, database) =>
      let world := world.logging [.committed request region.session.database result database]
      let value :=
        match result with
        | .ok generation =>
            okResponse version request (Value.json [("generation", Value.u64 generation)])
        | .error error => errorResponse version request error
      .finish .continue { region with session := { region.session with database } : Region E }.slot
        (send env world value).2

/-- One decoded request inside the region. -/
def Region.handle (request : Request) (region : Region E) (world : World E) : RegionTurn E :=
  let region := { region with outstanding := insert request.requestId region.outstanding }
  match request.operation with
  | .commit => region.commit env version request world
  | .rollback =>
      let database := E.rollback region.transaction region.session.database
      let world := world.logging [.rolledBack database]
      .finish .continue { region with session := { region.session with database } : Region E }.slot
        (send env world
          (okResponse version request (Value.json [("rolled_back", .bool true)]))).2
  | .query => region.query env version request world
  | .begin =>
      region.answer env request (errorResponse version request
        "this session already has an open transaction; commit or roll back first") world
  | .openSession | .closeSession | .shutdown =>
      region.answer env request (errorResponse version request
        "finish the open transaction before changing the session or stopping the daemon") world
  | .status =>
      region.answer env request (okResponse version request (Value.json
        [("in_transaction", .bool true), ("base_generation", Value.u64 region.base)])) world

/-- The body of the region's loop. -/
def regionTurn (region : Region E) (world : World E) : RegionTurn E :=
  match receive env .region world with
  | (.error .closed, world) => region.rollback .clientClosed world
  | (.error _, world) => region.rollback .transportFailed world
  | (.ok body, world) =>
      match Message.decodeRequest env.host body region.outstanding with
      | .error refusal =>
          match send env world (refusalResponse version none refusal) with
          | (.error _, world) => region.rollback .transportFailed world
          | (.ok (), world) => .next region world
      | .ok request =>
          region.handle env version request (world.logging [.decoded .region request])

/-- The region's loop. -/
def regionLoop : Nat → Region E → World E → RegionTurn E
  | 0, region, world => .next region world
  | fuel + 1, region, world =>
      match regionTurn env version region world with
      | .next region world => regionLoop fuel region world
      | .finish how slot world => .finish how slot world

/-- What `run_transaction_region` does before its loop. -/
def enterRegion (slot : Slot E.Database) (begin : Request) (world : World E) : RegionTurn E :=
  match slot.resolve begin.sessionId with
  | .error refusal =>
      .finish .continue slot
        (send env world (refusalResponse version (some begin.requestId) refusal)).2
  | .ok session =>
      match E.begin session.database with
      | .error error => .finish .continue slot
          (send env world (errorResponse version begin error)).2
      | .ok transaction =>
          let base := E.baseGeneration transaction
          let region : Region E := ⟨session, slot.next, transaction, base, ∅⟩
          match send env (world.logging [.began session.database]) (okResponse version begin
              (Value.json [("base_generation", Value.u64 base)])) with
          | (.error _, world) => region.rollback .transportFailed world
          | (.ok (), world) => .next region world

/-- `run_transaction_region`. -/
def runTransactionRegion (fuel : Nat) (slot : Slot E.Database) (begin : Request)
    (world : World E) : RegionTurn E :=
  match enterRegion env version slot begin world with
  | .next region world => regionLoop env version fuel region world
  | .finish how slot world => .finish how slot world

/-! ## The connection -/

/-- Where a connection stands: about to read, in either loop, or ended. A
region keeps the main loop's set of outstanding identifiers for after. -/
inductive State (E : Engine) where
  | main (slot : Slot E.Database) (outstanding : Finset String) (world : World E)
  | region (region : Region E) (outstanding : Finset String) (world : World E)
  | ended (how : Ended) (slot : Slot E.Database) (world : World E)

/-- What one turn of the main loop leads to. -/
inductive MainTurn (E : Engine) where
  | next (slot : Slot E.Database) (outstanding : Finset String) (world : World E)
  | transaction (begin : Request) (slot : Slot E.Database) (outstanding : Finset String)
      (world : World E)
  | finish (how : Ended) (slot : Slot E.Database) (world : World E)

/-- The session ends with the connection. -/
def closing (how : Ended) (slot : Slot E.Database) (world : World E) : MainTurn E :=
  .finish how slot.close.2 (world.logging [.closed])

/-- The body of the main loop, up to entering a region. -/
def mainTurn (slot : Slot E.Database) (outstanding : Finset String) (world : World E) :
    MainTurn E :=
  match receive env .main world with
  | (.error .closed, world) => closing .clientClosed slot world
  | (.error (.tooLarge declared maximum), world) =>
      .finish .transportFailed slot
        (send env world (frameTooLargeResponse version declared maximum)).2
  | (.error _, world) => .finish .transportFailed slot world
  | (.ok body, world) =>
      match Message.decodeRequest env.host body outstanding with
      | .error refusal =>
          -- whether the refusal could be sent is not looked at
          .next slot outstanding (send env world (refusalResponse version none refusal)).2
      | .ok request =>
          let outstanding := insert request.requestId outstanding
          match dispatch env version request slot (world.logging [.decoded .main request]) with
          | (reply, slot, world) =>
              let outstanding := outstanding.erase request.requestId
              match reply with
              | .send value =>
                  match send env world value with
                  | (.error _, world) => .finish .transportFailed slot world
                  | (.ok (), world) => .next slot outstanding world
              | .transaction => .transaction request slot outstanding world
              | .shutdown value => closing .shutdownRequested slot (send env world value).2

/-- Where the main loop stands after a region's turn. -/
def State.ofRegion (outstanding : Finset String) : RegionTurn E → State E
  | .next inner world => .region inner outstanding world
  | .finish .continue slot world => .main slot outstanding world
  | .finish .clientClosed slot world => .ended .clientClosed slot.close.2 (world.logging [.closed])
  | .finish .transportFailed slot world => .ended .transportFailed slot world

/-- The main loop. -/
def mainLoop : Nat → Slot E.Database → Finset String → World E → State E
  | 0, slot, outstanding, world => .main slot outstanding world
  | fuel + 1, slot, outstanding, world =>
      match mainTurn env version slot outstanding world with
      | .next slot outstanding world => mainLoop fuel slot outstanding world
      | .transaction begin slot outstanding world =>
          match State.ofRegion outstanding
              (runTransactionRegion env version fuel slot begin world) with
          | .main slot outstanding world => mainLoop fuel slot outstanding world
          | state => state
      | .finish how slot world => .ended how slot world

end

/-- The handshake: the version agreed on, or how the connection ended. -/
def handshake (env : Env E) (world : World E) : Except Ended UInt64 × World E :=
  match receive env .opening world with
  | (.error .closed, world) => (.error .clientClosed, world)
  | (.error _, world) => (.error .transportFailed, world)
  | (.ok opening, world) =>
      match (Message.decodeHello env.host opening).bind Message.negotiate with
      | .error _ => (.error .handshakeRefused, (send env world Message.refused).2)
      | .ok version =>
          match send env world (Message.welcome version env.endpoint) with
          | (.error _, world) => (.error .transportFailed, world)
          | (.ok (), world) => (.ok version, world)

/-- `serve_connection`, with fuel for its loops. -/
def serveConnection (env : Env E) (fuel : Nat) (stream : Stream) : State E :=
  match handshake env { stream } with
  | (.error how, world) => .ended how Slot.new world
  | (.ok version, world) => mainLoop env version fuel Slot.new ∅ world

/-- A daemon over `Engine.journal`: its catalog never changes, and every
database it opens is empty. -/
def Env.journal (host : Host) (limits : Limits) (catalog : ReadToString) : Env Engine.journal where
  host := host
  limits := limits
  endpoint := "/run/nostdb.sock"
  catalogAt _ := catalog
  openAt _ _ := .ok []
  deadlineAfter _ _ := ()

/-- The same daemon, with a host that reads back the compact texts of the
catalog and the frames of a conversation. -/
def Env.conversing (limits : Limits) (catalog : Value) (frames : List Value) :
    Env Engine.journal :=
  Env.journal (Host.reading ((catalog :: frames).map (fun value => (value.write, value)))) limits
    (.text catalog.write)

/-- A catalog of one name, `work`. -/
def workCatalog : Value :=
  Value.json [("catalog_version", Value.u64 1),
    ("databases", Value.json [("work", Value.json [("path", .string "/srv/work")])])]

/-- A client's opening. -/
def sayHello : Value :=
  Value.json [("message", .string "hello"), ("supported_versions", .array [Value.u64 1])]

/-- A client's request, with more members. -/
def ask (requestId operation : String) (members : List (String × Value)) : Value :=
  Value.json ([("server_protocol_version", Value.u64 1), ("request_id", .string requestId),
    ("operation", .string operation)] ++ members)

/-- A client that sends the frames, one chunk each, and closes. -/
def Stream.saying (frames : List Value) : Stream where
  incoming := frames.map (fun value => .data (Frame.encode value.write))

end NostdbServer
