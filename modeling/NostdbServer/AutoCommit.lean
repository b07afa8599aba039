import NostdbServer.Ending
import NostdbServer.Handling
import NostdbServer.SessionHistory

/-!
# AutoCommit — a query by itself and between `begin` and `commit`

A query outside a region runs in a transaction of its own. What it leaves
committed and what it answers are compared with the same statement sent
between `begin` and `commit` (`TwoWays.auto_commit_agrees`). The two paths
share neither their order nor their ends: by itself a statement is parsed
before a transaction begins, committed before it is answered, and rolled
back where it wrote nothing; the region begins first, answers before the
commit, and commits what it has.

So the order shows where an answer cannot be sent: by itself the
statement is committed, in the region it is rolled back.
-/

namespace NostdbServer

open Response NostdbServer.Frame Script

variable {E : Engine} {γ : Type}

/-! ## What is compared -/

/-- What is relied on of the Engine: a new transaction has no writes and
a failed run adds none, without writes a commit leaves the contents, as a
rollback does, and the rows of an envelope are those of its result. -/
structure Engine.Transactional (E : Engine) (contents : E.Database → γ) : Prop where
  begin_writes : ∀ database transaction, E.begin database = .ok transaction →
    E.isEmpty (E.writes transaction) = true
  run_error : ∀ transaction query deadline error,
    (E.runCancellable transaction query deadline).1 = .error error →
      E.writes (E.runCancellable transaction query deadline).2 = E.writes transaction
  commit_empty : ∀ transaction database, E.isEmpty (E.writes transaction) = true →
    contents (E.commit transaction database).2 = contents database
  rollback_discards : ∀ transaction database,
    contents (E.rollback transaction database) = contents database
  columns : ∀ result generation generation' writes writes',
    (E.envelope result generation writes).get "columns"
      = (E.envelope result generation' writes').get "columns"
  rows : ∀ result generation generation' writes writes',
    (E.envelope result generation writes).get "rows"
      = (E.envelope result generation' writes').get "rows"

/-- What a statement comes to in a transaction, before anything is
decided about it. -/
def attempt (E : Engine) (statement : String) (transaction : E.Transaction)
    (deadline : E.Deadline) : Except QueryError E.QueryResult × E.Transaction :=
  match E.parse statement with
  | .error error => (.error error, transaction)
  | .ok query => E.runCancellable transaction query deadline

/-- A connection about to read in its main loop, but for what it holds. -/
structure Conversation (E : Engine) where
  env : Env E
  version : UInt64
  outstanding : Finset String
  world : World E

/-- The connection `n` frames on. -/
def Conversation.after (conversation : Conversation E) (slot : Slot E.Database) (n : Nat) :
    State E :=
  (step conversation.env conversation.version)^[n]
    (.main slot conversation.outstanding conversation.world)

/-- The client sends the requests: whatever loop reads the next frame, as
long as one does, reads the next of them. -/
def Conversation.Sends (conversation : Conversation E) (slot : Slot E.Database)
    (requests : List Request) : Prop :=
  ∀ n request, requests[n]? = some request →
    (conversation.after slot n).received conversation.env ≠ none →
      (conversation.after slot n).nextRequest conversation.env = some request

/-- A query of the statement, for the session held. -/
structure Request.Queries (request : Request) (slot : Slot E.Database)
    (session : Session E.Database) (statement : String) : Prop where
  operation : request.operation = .query
  statement : request.statement = some statement
  session : slot.resolve request.sessionId = .ok session

/-- One statement and one session, on two connections: the statement by
itself, and between `begin` and `commit`. -/
structure TwoWays (E : Engine) where
  slot : Slot E.Database
  session : Session E.Database
  statement : String
  alone : Conversation E
  inside : Conversation E
  query : Request
  begin : Request
  queryInside : Request
  commit : Request

namespace TwoWays

/-- What a run by the deadline of a conversation's next run comes to. -/
def attempted (t : TwoWays E) (conversation : Conversation E) (transaction : E.Transaction) :
    Except QueryError E.QueryResult × E.Transaction :=
  attempt E t.statement transaction (deadline conversation.env conversation.world)

/-- The statement is sent both ways under one ceiling; no timeout fires,
so that both runs come to the same, and what is left can be committed. -/
structure Fair (t : TwoWays E) : Prop where
  query : t.query.Queries t.slot t.session t.statement
  begin_operation : t.begin.operation = .begin
  begin_session : t.slot.resolve t.begin.sessionId = .ok t.session
  queryInside : t.queryInside.Queries t.slot t.session t.statement
  commit_operation : t.commit.operation = .commit
  ceiling : t.inside.env.limits.maxResultRows = t.alone.env.limits.maxResultRows
  no_timeout : ∀ transaction, E.begin t.session.database = .ok transaction →
    t.attempted t.inside transaction = t.attempted t.alone transaction
  no_conflict : ∀ transaction, E.begin t.session.database = .ok transaction →
    ∃ generation, (E.commit (t.attempted t.alone transaction).2 t.session.database).1
      = .ok generation
  sends_alone : t.alone.Sends t.slot [t.query]
  sends_inside : t.inside.Sends t.slot [t.begin, t.queryInside, t.commit]

/-- What a client can compare of two answers to one statement. -/
structure SameAnswer (alone inside : Value) : Prop where
  outcome : alone.get "outcome" = inside.get "outcome"
  diagnostics : alone.get "diagnostics" = inside.get "diagnostics"
  limit : alone.get "limit" = inside.get "limit"
  detail : alone.get "detail" = inside.get "detail"
  columns : (alone.get "result").bind (·.get "columns")
    = (inside.get "result").bind (·.get "columns")
  rows : (alone.get "result").bind (·.get "rows") = (inside.get "result").bind (·.get "rows")

/-- The contents committed on the session a state holds. -/
def held (contents : E.Database → γ) (state : State E) : Option γ :=
  state.slot.session.map (fun session => contents session.database)

/-- Both ways leave the same contents, and the replies to the two queries
answer alike. -/
structure Agrees (t : TwoWays E) (contents : E.Database → γ) : Prop where
  contents : held contents (t.alone.after t.slot 1) = held contents (t.inside.after t.slot 3)
  answers : ∃ alone inside,
    replies (t.alone.after t.slot 1).world.log
      = replies (t.alone.after t.slot 0).world.log ++ [alone] ∧
    replies (t.inside.after t.slot 2).world.log
      = replies (t.inside.after t.slot 1).world.log ++ [inside] ∧
    SameAnswer alone inside

end TwoWays

/-! ## The answer to a statement -/

/-- The reply to what a statement came to. -/
def answer (E : Engine) (version : UInt64) (request : Request) (limits : Limits)
    (generation : UInt64) (writes : Option E.WriteSummary) :
    Except QueryError E.QueryResult → Value
  | .error error => diagnosticResponse version request error
  | .ok result => envelopeResponse E version request result generation writes limits

namespace TwoWays.SameAnswer

theorem errorResponse (version version' : UInt64) (request request' : Request) (detail : String) :
    SameAnswer (Response.errorResponse version request detail)
      (Response.errorResponse version' request' detail) := by
  constructor <;> simp [Response.errorResponse, get_json, OrdMap.ofList, OrdMap.insertAll,
    OrdMap.get?_insert]

theorem diagnosticResponse (version version' : UInt64) (request request' : Request)
    (error : QueryError) :
    SameAnswer (Response.diagnosticResponse version request error)
      (Response.diagnosticResponse version' request' error) := by
  constructor <;> simp [Response.diagnosticResponse, get_json, OrdMap.ofList, OrdMap.insertAll,
    OrdMap.get?_insert]

/-- The same result under the same ceiling: what the generation and the
writes say beside it is not compared. -/
theorem envelopeResponse {contents : E.Database → γ} (hE : E.Transactional contents)
    (version version' : UInt64) (request request' : Request) (result : E.QueryResult)
    (generation generation' : UInt64) (writes writes' : Option E.WriteSummary)
    {limits limits' : Limits} (hceiling : limits'.maxResultRows = limits.maxResultRows) :
    SameAnswer (Response.envelopeResponse E version request result generation writes limits)
      (Response.envelopeResponse E version' request' result generation' writes' limits') := by
  unfold Response.envelopeResponse
  rw [hceiling]
  split
  · constructor <;> simp [rowsResponse, get_json, OrdMap.ofList, OrdMap.insertAll,
      OrdMap.get?_insert]
  · have hresult (version : UInt64) (request : Request) (value : Value) :
        (okResponse version request value).get "result" = some value := by
      simp [okResponse, get_json, OrdMap.ofList, OrdMap.insertAll]
    constructor
    case columns =>
      rw [hresult, hresult]
      exact hE.columns result generation generation' writes writes'
    case rows =>
      rw [hresult, hresult]
      exact hE.rows result generation generation' writes writes'
    all_goals simp [okResponse, get_json, OrdMap.ofList, OrdMap.insertAll, OrdMap.get?_insert]

theorem answer {contents : E.Database → γ} (hE : E.Transactional contents)
    (version version' : UInt64) (request request' : Request) {limits limits' : Limits}
    (hceiling : limits'.maxResultRows = limits.maxResultRows) (generation generation' : UInt64)
    (writes writes' : Option E.WriteSummary) (result : Except QueryError E.QueryResult) :
    SameAnswer (NostdbServer.answer E version request limits generation writes result)
      (NostdbServer.answer E version' request' limits' generation' writes' result) := by
  cases result with
  | error error => exact diagnosticResponse version version' request request' error
  | ok result =>
    exact envelopeResponse hE version version' request request' result generation generation'
      writes writes' hceiling

end TwoWays.SameAnswer

/-! ## The two functions that run a statement -/

section

variable {contents : E.Database → γ} (env : Env E) (version : UInt64)

/-- Inside a region a statement is attempted and answered. -/
theorem run_eq_attempt (request : Request) (statement : String) (region : Region E)
    (world : World E) :
    let out := attempt E statement region.transaction (deadline env world)
    (region.run env version request statement world).2.1 = out.2 ∧
      ∃ writes, (region.run env version request statement world).1
        = answer E version request env.limits region.base writes out.1 := by
  unfold Region.run attempt
  cases E.parse statement with
  | error error => exact ⟨rfl, none, rfl⟩
  | ok query =>
    simp only
    split
    · rename_i hrun
      rw [hrun]
      exact ⟨rfl, none, rfl⟩
    · rename_i hrun
      rw [hrun]
      exact ⟨rfl, some _, rfl⟩

/-- A statement that fails leaves no writes to commit. -/
theorem writes_of_attempt_error (hE : E.Transactional contents) {database : E.Database}
    {transaction : E.Transaction} (hbegin : E.begin database = .ok transaction)
    {statement : String} {deadline : E.Deadline} {error : QueryError}
    (h : (attempt E statement transaction deadline).1 = .error error) :
    E.isEmpty (E.writes (attempt E statement transaction deadline).2) = true := by
  have hempty := hE.begin_writes database transaction hbegin
  unfold attempt at h ⊢
  cases hparse : E.parse statement with
  | error error => exact hempty
  | ok query =>
    simp only [hparse] at h ⊢
    rw [hE.run_error transaction query deadline error h]
    exact hempty

/-- **By itself a statement leaves what a commit of its attempt would**:
the rollbacks fall where there is nothing to commit. -/
theorem runOne_eq_attempt (hE : E.Transactional contents) (request : Request)
    (statement : String) (session : Session E.Database) (world : World E)
    {transaction : E.Transaction} (hbegin : E.begin session.database = .ok transaction) :
    let out := attempt E statement transaction (deadline env world)
    (∃ generation, (E.commit out.2 session.database).1 = .ok generation) →
    contents (runOne env version request statement session world).2.1.database
        = contents (E.commit out.2 session.database).2 ∧
      ∃ generation writes, (runOne env version request statement session world).1
        = answer E version request env.limits generation writes out.1 := by
  intro out hcommit
  have hfailed {error : QueryError} (h : out.1 = .error error) :
      contents (E.commit out.2 session.database).2 = contents session.database :=
    hE.commit_empty _ _ (writes_of_attempt_error hE hbegin h)
  unfold runOne
  cases hparse : E.parse statement with
  | error error =>
    have hout : out.1 = .error error := by simp only [out, attempt, hparse]
    rw [hout]
    exact ⟨(hfailed hout).symm, 0, none, rfl⟩
  | ok query =>
    have hout : out = E.runCancellable transaction query (deadline env world) := by
      simp only [out, attempt, hparse]
    simp only [hbegin]
    rw [← hout]
    generalize out = out at hcommit hfailed
    obtain ⟨result, transaction'⟩ := out
    cases result with
    | error error =>
      refine ⟨?_, 0, none, rfl⟩
      rw [hfailed rfl]
      exact hE.rollback_discards _ _
    | ok result =>
      simp only
      split
      · -- something was written: the commit is carried out
        obtain ⟨generation, hgeneration⟩ := hcommit
        split
        · rename_i hdone
          rw [hdone]
          exact ⟨rfl, _, some _, rfl⟩
        · rename_i hconflict
          rw [hconflict] at hgeneration
          cases hgeneration
      · rename_i hwrote
        have hempty : E.isEmpty (E.writes transaction') = true := by simpa using hwrote
        refine ⟨?_, _, none, rfl⟩
        rw [hE.commit_empty _ _ hempty]
        exact hE.rollback_discards _ _

/-- Where no transaction begins, nothing is left behind. -/
theorem runOne_unbegun (request : Request) (statement : String) (session : Session E.Database)
    (world : World E) {error : String} (hbegin : E.begin session.database = .error error) :
    runOne env version request statement session world
      = ((match E.parse statement with
          | .error error => diagnosticResponse version request error
          | .ok _ => errorResponse version request error), session, world) := by
  unfold runOne
  cases E.parse statement with
  | error error => rfl
  | ok query => simp only [hbegin]

/-! ## One step of each way -/

variable {env version}

theorem deadline_congr {world world' : World E} (h : world'.runs = world.runs) :
    deadline env world' = deadline env world := by
  rw [deadline, deadline, h]

/-- A query the main loop reads is run by itself, wherever its reply
leaves the connection. -/
theorem step_query {slot : Slot E.Database} {outstanding : Finset String} {world : World E}
    {session : Session E.Database} {statement : String} {request : Request}
    (hquery : request.Queries slot session statement)
    (hnext : (State.main slot outstanding world).nextRequest env = some request) :
    ∃ world' : World E, world'.runs = world.runs ∧
      let out := runOne env version request statement session world'
      replies (step env version (.main slot outstanding world)).world.log
          = replies world.log ++ [out.1] ∧
        ((∃ outstanding' world'', step env version (.main slot outstanding world)
            = .main (slot.holding out.2.1) outstanding' world'') ∨
          ∃ world'', step env version (.main slot outstanding world)
            = .ended .transportFailed (slot.holding out.2.1) world'') := by
  obtain ⟨world₁, hruns, hstep, hreplies⟩ := step_of_nextRequest env version hnext
  let out := runOne env version request statement session
    (world₁.logging [.decoded .main request])
  have hcourse : (State.main slot outstanding world).course env version (.request request) world₁
      = .reply ⟨out.1, out.2.2,
        .main (slot.holding out.2.1) ((insert request.requestId outstanding).erase
          request.requestId),
        .ended .transportFailed (slot.holding out.2.1)⟩ := by
    simp only [State.course, mainCourse, mainCourseOf, dispatch, hquery.operation, queryOnce,
      hquery.session, hquery.statement, out]
  refine ⟨world₁.logging [.decoded .main request], hruns, hreplies _ hcourse, ?_⟩
  rw [hstep, hcourse]
  simp only [Course.settle]
  split
  · exact .inl ⟨_, _, rfl⟩
  · exact .inr ⟨_, rfl⟩

/-- A commit the main loop reads commits nothing. -/
theorem step_commit_outside {slot : Slot E.Database} {outstanding : Finset String}
    {world : World E} {request : Request} (hop : request.operation = .commit)
    (hnext : (State.main slot outstanding world).nextRequest env = some request) :
    (step env version (.main slot outstanding world)).slot = slot := by
  obtain ⟨world₁, -, hstep, -⟩ := step_of_nextRequest env version hnext
  rw [hstep]
  simp only [State.course, mainCourse, mainCourseOf, dispatch, hop]
  exact Exchange.settle env (P := fun state => state.slot = slot) _ rfl rfl

/-- A `begin` the main loop reads: no transaction begins and nothing
changes, or the connection is in a region on it, or the reply is lost and
the transaction rolled back. -/
theorem step_begin {slot : Slot E.Database} {outstanding : Finset String} {world : World E}
    {session : Session E.Database} {request : Request} (hop : request.operation = .begin)
    (hresolve : slot.resolve request.sessionId = .ok session)
    (hnext : (State.main slot outstanding world).nextRequest env = some request) :
    (∃ error outstanding' world', E.begin session.database = .error error ∧
        world'.runs = world.runs ∧
        step env version (.main slot outstanding world) = .main slot outstanding' world') ∨
      ∃ transaction, E.begin session.database = .ok transaction ∧
        let region : Region E :=
          ⟨session, slot.next, transaction, E.baseGeneration transaction, ∅⟩
        (∃ outstanding' world', world'.runs = world.runs ∧
            step env version (.main slot outstanding world)
              = .region region outstanding' world') ∨
          ∃ world', step env version (.main slot outstanding world) = .ended .transportFailed
            (region.slotWith (E.rollback transaction session.database)) world' := by
  obtain ⟨world₁, hruns, hstep, -⟩ := step_of_nextRequest env version hnext
  rw [hstep]
  simp only [State.course, mainCourse, mainCourseOf, dispatch, hop, hresolve, beginCourse]
  cases hbegin : E.begin session.database with
  | error error =>
    refine .inl ⟨error, _, _, rfl, ?_, settle_unchecked env _ _ _⟩
    exact hruns
  | ok transaction =>
    refine .inr ⟨transaction, rfl, ?_⟩
    simp only [Region.reply, Course.settle]
    split
    · rename_i hsent
      refine .inl ⟨_, _, ?_, rfl⟩
      have hworld := congrArg (fun out => (out.2 : World E).runs) hsent
      exact hworld.symm.trans hruns
    · exact .inr ⟨_, rfl⟩

/-- A query a region reads is attempted in its transaction. The region
goes on with what the attempt leaves; where the reply is lost, that is
rolled back. -/
theorem step_query_inside {region : Region E} {outstanding : Finset String} {world : World E}
    {statement : String} {request : Request} (hop : request.operation = .query)
    (hstatement : request.statement = some statement)
    (hnext : (State.region region outstanding world).nextRequest env = some request) :
    let out := attempt E statement region.transaction (deadline env world)
    ∃ generation writes before,
      let value := answer E version request env.limits generation writes out.1
      replies (step env version (.region region outstanding world)).world.log
          = replies world.log ++ [value] ∧
        (((send env before value).1 = .ok () ∧ ∃ region' outstanding' world',
            region'.session = region.session ∧ region'.transaction = out.2 ∧
            region'.outstanding
              = (insert request.requestId region.outstanding).erase request.requestId ∧
            step env version (.region region outstanding world)
              = .region region' outstanding' world') ∨
          ∃ world', step env version (.region region outstanding world) = .ended .transportFailed
            (region.slotWith (E.rollback out.2 region.session.database)) world') := by
  obtain ⟨world₁, hruns, hstep, hreplies⟩ := step_of_nextRequest env version hnext
  have hdeadline : deadline env (world₁.logging [.decoded .region request]) = deadline env world :=
    deadline_congr hruns
  let region₁ : Region E :=
    { region with outstanding := insert request.requestId region.outstanding }
  obtain ⟨hleft, writes, hvalue⟩ := run_eq_attempt env version request statement region₁
    (world₁.logging [.decoded .region request])
  rw [hdeadline] at hleft hvalue
  have hcourse : (State.region region outstanding world).course env version (.request request)
      world₁ = Region.settled request
          (region₁.run env version request statement
            (world₁.logging [.decoded .region request])).1
          { region₁ with transaction := (region₁.run env version request statement
            (world₁.logging [.decoded .region request])).2.1 }
          outstanding
          (region₁.run env version request statement
            (world₁.logging [.decoded .region request])).2.2 := by
    simp only [State.course, Region.course, Region.courseOf, hop, hstatement]
    rfl
  rw [hleft, hvalue] at hcourse
  refine ⟨region.base, writes, (region₁.run env version request statement
    (world₁.logging [.decoded .region request])).2.2, hreplies _ hcourse, ?_⟩
  rw [hstep, hcourse]
  simp only [Region.settled, Region.reply, Course.settle]
  split
  · rename_i hsent
    refine .inl ⟨congrArg Prod.fst hsent, _, _, _, ?_, ?_, ?_, rfl⟩ <;> rfl
  · exact .inr ⟨_, rfl⟩

/-- A commit a region reads leaves the database the attempt leaves. -/
theorem step_commit_inside {region : Region E} {outstanding : Finset String} {world : World E}
    {request : Request} (hop : request.operation = .commit)
    (hnext : (State.region region outstanding world).nextRequest env = some request) :
    (step env version (.region region outstanding world)).slot
      = region.slotWith (E.commit region.transaction region.session.database).2 := by
  obtain ⟨world₁, -, hstep, -⟩ := step_of_nextRequest env version hnext
  rw [hstep]
  simp only [State.course, Region.course, Region.courseOf, hop]
  rw [settle_unchecked]
  rfl

end

/-! ## Both ways -/

namespace TwoWays

variable {t : TwoWays E} (contents : E.Database → γ)

theorem Fair.session (h : t.Fair) : t.slot.session = some t.session :=
  (Slot.resolve_eq_ok_iff.mp h.begin_session).1

theorem after_succ (conversation : Conversation E) (slot : Slot E.Database) (n : Nat) :
    conversation.after slot (n + 1)
      = step conversation.env conversation.version (conversation.after slot n) :=
  Function.iterate_succ_apply' _ _ _

/-- An ended connection stays as it is. -/
theorem after_succ_of_ended {conversation : Conversation E} {slot : Slot E.Database} {n : Nat}
    (h : (conversation.after slot n).received conversation.env = none) :
    conversation.after slot (n + 1) = conversation.after slot n := by
  rw [after_succ]
  exact step_of_received_none conversation.version h

/-- By itself: the contents and the answer are those of the query's run. -/
theorem alone_after (h : t.Fair) : ∃ world : World E,
    deadline t.alone.env world = deadline t.alone.env t.alone.world ∧
    held contents (t.alone.after t.slot 1)
      = some (contents (runOne t.alone.env t.alone.version t.query t.statement t.session
          world).2.1.database) ∧
    replies (t.alone.after t.slot 1).world.log = replies (t.alone.after t.slot 0).world.log
      ++ [(runOne t.alone.env t.alone.version t.query t.statement t.session world).1] := by
  have hnext := h.sends_alone 0 t.query rfl (by simp [Conversation.after, State.received])
  obtain ⟨world, hruns, hreplies, hstep⟩ := step_query h.query hnext
  refine ⟨world, deadline_congr hruns, ?_, hreplies⟩
  rw [after_succ]
  rcases hstep with ⟨outstanding', world', hstep⟩ | ⟨world', hstep⟩
  · have hafter : step t.alone.env t.alone.version (t.alone.after t.slot 0) = _ := hstep
    rw [hafter]
    rfl
  · have hafter : step t.alone.env t.alone.version (t.alone.after t.slot 0) = _ := hstep
    rw [hafter]
    rfl

/-- Where no transaction begins, the query inside is run by itself, and
leaves nothing behind. -/
theorem inside_unbegun (h : t.Fair) {error : String}
    (hbegin : E.begin t.session.database = .error error) :
    (t.inside.after t.slot 2).slot = t.slot ∧
      ((t.inside.after t.slot 2).received t.inside.env = none ∨
        ∃ outstanding world, t.inside.after t.slot 2 = .main t.slot outstanding world) ∧
      ∃ world, replies (t.inside.after t.slot 2).world.log
        = replies (t.inside.after t.slot 1).world.log
          ++ [(runOne t.inside.env t.inside.version t.queryInside t.statement t.session
            world).1] := by
  have hslot : t.slot.holding t.session = t.slot := by
    rw [Slot.holding, ← h.session]
  have hfirst := h.sends_inside 0 t.begin rfl (by simp [Conversation.after, State.received])
  rcases step_begin h.begin_operation h.begin_session hfirst with
    ⟨-, outstanding, world, -, -, hstep⟩ | ⟨transaction, hbegun, -⟩
  · have hafter : t.inside.after t.slot 1 = .main t.slot outstanding world := hstep
    have hsecond := h.sends_inside 1 t.queryInside rfl (by simp [hafter, State.received])
    rw [hafter] at hsecond
    obtain ⟨world', -, hreplies, hnext⟩ := step_query h.queryInside hsecond
    simp only [runOne_unbegun _ _ _ _ _ _ hbegin, hslot] at hnext
    rw [← hafter, ← after_succ] at hreplies hnext
    have hbefore : replies world.log = replies (t.inside.after t.slot 1).world.log := by
      rw [hafter]
      rfl
    rw [hbefore] at hreplies
    rcases hnext with ⟨outstanding', world'', hmain⟩ | ⟨world'', hended⟩
    · exact ⟨by rw [hmain]; rfl, .inr ⟨_, _, hmain⟩, world', hreplies⟩
    · exact ⟨by rw [hended]; rfl, .inl (by rw [hended]; rfl), world', hreplies⟩
  · rw [hbegin] at hbegun
    cases hbegun

/-- Where one begins, the region answers what the statement came to, and
goes on with what it left or loses the reply and rolls it back. -/
theorem inside_begun (h : t.Fair) {transaction : E.Transaction}
    (hbegin : E.begin t.session.database = .ok transaction) :
    let out := t.attempted t.inside transaction
    ((t.inside.after t.slot 2).received t.inside.env = none ∧ ∃ discarded,
        (t.inside.after t.slot 2).slot.session = some { t.session with
          database := E.rollback discarded t.session.database }) ∨
      ∃ region outstanding world, t.inside.after t.slot 2 = .region region outstanding world ∧
        region.session = t.session ∧ region.transaction = out.2 ∧
        region.outstanding = ∅ ∧ ∃ generation writes before,
          let value := answer E t.inside.version t.queryInside t.inside.env.limits generation
            writes out.1
          replies (t.inside.after t.slot 2).world.log
              = replies (t.inside.after t.slot 1).world.log ++ [value] ∧
            (send t.inside.env before value).1 = .ok () := by
  have hfirst := h.sends_inside 0 t.begin rfl (by simp [Conversation.after, State.received])
  rcases step_begin h.begin_operation h.begin_session hfirst with
    ⟨error, -, -, hfailed, -⟩ | ⟨transaction', hbegun, hstep⟩
  · rw [hbegin] at hfailed
    cases hfailed
  · obtain rfl : transaction = transaction' := Except.ok.inj (hbegin.symm.trans hbegun)
    rcases hstep with ⟨outstanding, world, hruns, hstep⟩ | ⟨world, hstep⟩
    · have hafter : t.inside.after t.slot 1 = .region ⟨t.session, t.slot.next, transaction,
          E.baseGeneration transaction, ∅⟩ outstanding world := hstep
      have hsecond := h.sends_inside 1 t.queryInside rfl (by simp [hafter, State.received])
      rw [hafter] at hsecond
      obtain ⟨generation, writes, before, hreplies, hnext⟩ :=
        step_query_inside h.queryInside.operation h.queryInside.statement hsecond
      rw [deadline_congr hruns, ← hafter, ← after_succ] at hreplies hnext
      rcases hnext with ⟨hsent, region, outstanding', world', hsession, hleft, hids, hregion⟩
        | ⟨world', hended⟩
      · have hbefore : replies world.log = replies (t.inside.after t.slot 1).world.log := by
          rw [hafter]
          rfl
        rw [hbefore] at hreplies
        rw [Finset.erase_insert (Finset.notMem_empty _)] at hids
        exact .inr ⟨region, outstanding', world', hregion, hsession, hleft, hids, generation,
          writes, before, hreplies, hsent⟩
      · refine .inl ⟨by rw [hended]; rfl, (t.attempted t.inside transaction).2, ?_⟩
        rw [hended]
        rfl
    · -- the reply to `begin` was lost, and nothing is read any more
      have hended : t.inside.after t.slot 1 = .ended .transportFailed _ world := hstep
      have htwo := after_succ_of_ended (by rw [hended]; rfl : (t.inside.after t.slot 1).received
        t.inside.env = none)
      refine .inl ⟨by rw [htwo, hended]; rfl, transaction, ?_⟩
      rw [htwo, hended]
      rfl

variable {contents}

/-- Where the connection is not served behind the query, the contents are
as they were. -/
theorem inside_lost (hE : E.Transactional contents) (h : t.Fair)
    (hlost : (t.inside.after t.slot 2).received t.inside.env = none) :
    held contents (t.inside.after t.slot 3) = some (contents t.session.database) := by
  rw [after_succ_of_ended hlost, held]
  cases hbegin : E.begin t.session.database with
  | error error =>
    rw [(inside_unbegun h hbegin).1, h.session]
    rfl
  | ok transaction =>
    rcases inside_begun h hbegin with ⟨-, discarded, hsession⟩ | ⟨region, _, _, hregion, -⟩
    · rw [hsession, Option.map_some, hE.rollback_discards]
    · rw [hregion] at hlost
      cases hlost

/-- **Auto-commit agrees with an explicit transaction** whose connection
is still served behind the query: a reply that cannot be sent there rolls
back what the query by itself has committed. -/
theorem auto_commit_agrees (hE : E.Transactional contents) (t : TwoWays E) (h : t.Fair)
    (hserved : (t.inside.after t.slot 2).received t.inside.env ≠ none) : t.Agrees contents := by
  obtain ⟨world, hdeadline, hheld, hreplies⟩ := alone_after contents h
  have hthird := h.sends_inside 2 t.commit rfl hserved
  cases hbegin : E.begin t.session.database with
  | error error =>
    obtain ⟨-, hmain, world', hrepliesInside⟩ := inside_unbegun h hbegin
    obtain ⟨outstanding, world'', hmain⟩ := hmain.resolve_left hserved
    have hinside : held contents (t.inside.after t.slot 3)
        = some (contents t.session.database) := by
      rw [hmain] at hthird
      rw [held, after_succ, hmain, step_commit_outside h.commit_operation hthird, h.session]
      rfl
    rw [runOne_unbegun _ _ _ _ _ _ hbegin] at hheld hreplies hrepliesInside
    refine ⟨hheld.trans hinside.symm, _, _, hreplies, hrepliesInside, ?_⟩
    cases E.parse t.statement with
    | error error => exact .diagnosticResponse _ _ _ _ error
    | ok query => exact .errorResponse _ _ _ _ error
  | ok transaction =>
    rcases inside_begun h hbegin with ⟨hlost, -⟩ | ⟨region, outstanding, world', hregion, hsession,
      hleft, -, generation, writes, before, hrepliesInside, -⟩
    · exact absurd hlost hserved
    · have hinside : held contents (t.inside.after t.slot 3) = some (contents
          (E.commit (t.attempted t.alone transaction).2 t.session.database).2) := by
        rw [hregion] at hthird
        rw [held, after_succ, hregion, step_commit_inside h.commit_operation hthird, hleft,
          hsession, h.no_timeout transaction hbegin]
        rfl
      rw [h.no_timeout transaction hbegin] at hrepliesInside
      obtain ⟨hcommitted, generation', writes', hvalue⟩ := runOne_eq_attempt t.alone.env
        t.alone.version hE t.query t.statement t.session world hbegin
        (by rw [hdeadline]; exact h.no_conflict transaction hbegin)
      rw [hdeadline] at hcommitted hvalue
      rw [hcommitted] at hheld
      rw [hvalue] at hreplies
      refine ⟨hheld.trans hinside.symm, _, _, hreplies, hrepliesInside, ?_⟩
      exact .answer hE _ _ _ _ h.ceiling _ _ _ _ _

end TwoWays

/-! ## The bytes of a client -/

/-- Where a connection is served, the frames it has not read are still to
come. -/
theorem Conversation.content_after {conversation : Conversation E} {slot : Slot E.Database}
    {bodies : List String} {more : List UInt8}
    (hdelivers : Delivers conversation.world.stream.incoming)
    (hcontent : content conversation.world.stream.incoming = bodies.flatMap encode ++ more)
    (hfits : ∀ body ∈ bodies, Fits body conversation.env.limits.maxFrameBytes) {n : Nat}
    (hn : n ≤ bodies.length)
    (hserved : (conversation.after slot n).received conversation.env ≠ none) :
    Delivers (conversation.after slot n).world.stream.incoming ∧
      content (conversation.after slot n).world.stream.incoming
        = (bodies.drop n).flatMap encode ++ more := by
  induction n with
  | zero => exact ⟨hdelivers, hcontent⟩
  | succ n ih =>
    have hbefore : (conversation.after slot n).received conversation.env ≠ none := fun hended =>
      hserved (TwoWays.after_succ_of_ended hended ▸ hended)
    obtain ⟨hdelivers, hcontent⟩ := ih (by omega) hbefore
    obtain ⟨⟨place, result, world⟩, hread⟩ := Option.ne_none_iff_exists'.mp hbefore
    have hframe := State.received_read conversation.env hread
    have hbody : n < bodies.length := by omega
    rw [List.drop_eq_getElem_cons hbody, List.flatMap_cons, List.append_assoc] at hcontent
    obtain ⟨stream, hreadFrame, hdelivers', hcontent', -⟩ :=
      readFrame_encode (hfits _ (List.getElem_mem hbody)) hdelivers hcontent
    obtain rfl : world.stream = stream := congrArg Prod.snd (hframe.symm.trans hreadFrame)
    rw [TwoWays.after_succ, step_incoming conversation.env conversation.version hread]
    exact ⟨hdelivers', hcontent'⟩

/-- **A client's frames are what is read**, however its bytes are
chunked. -/
theorem Conversation.nextRequest_of_frames {conversation : Conversation E}
    {slot : Slot E.Database} {bodies : List String} {more : List UInt8}
    (hdelivers : Delivers conversation.world.stream.incoming)
    (hcontent : content conversation.world.stream.incoming = bodies.flatMap encode ++ more)
    (hfits : ∀ body ∈ bodies, Fits body conversation.env.limits.maxFrameBytes) {n : Nat}
    {body : String} {request : Request} (hbody : bodies[n]? = some body)
    (hserved : (conversation.after slot n).received conversation.env ≠ none)
    (hdecode : Message.decodeRequest conversation.env.host body
      (conversation.after slot n).outstanding = .ok request) :
    (conversation.after slot n).nextRequest conversation.env = some request := by
  obtain ⟨hlt, rfl⟩ := List.getElem?_eq_some_iff.mp hbody
  obtain ⟨hdelivers, hcontent⟩ := content_after hdelivers hcontent hfits (Nat.le_of_lt hlt) hserved
  obtain ⟨⟨place, result, world⟩, hread⟩ := Option.ne_none_iff_exists'.mp hserved
  have hframe := State.received_read conversation.env hread
  rw [List.drop_eq_getElem_cons hlt, List.flatMap_cons, List.append_assoc] at hcontent
  obtain ⟨stream, hreadFrame, -⟩ :=
    readFrame_encode (hfits _ (List.getElem_mem hlt)) hdelivers hcontent
  obtain rfl : result = .ok bodies[n] := congrArg Prod.fst (hframe.symm.trans hreadFrame)
  refine nextRequest_of_heard conversation.env hread ?_
  simp only [heardRead, heardBody, hdecode]

/-! ## An answer over the limit -/

/-- A client that adds a row between `begin` and `commit`. -/
def addsRow : List Value :=
  [ask "b" "begin" [], ask "q" "query" [("statement", .string "x")], ask "c" "commit" []]

/-- A daemon that reads its frames, under the default limits. -/
def addsEnv : Env Engine.journal := Env.conversing Limits.default workCatalog addsRow

/-- A row of `n` letters is committed, and another added both ways. -/
def addsTo (n : Nat) : TwoWays Engine.journal where
  slot := ⟨some ⟨⟨"s1"⟩, "work", Path.ofText "/srv/work", [longRow n]⟩, 2⟩
  session := ⟨⟨"s1"⟩, "work", Path.ofText "/srv/work", [longRow n]⟩
  statement := "x"
  alone := ⟨addsEnv, 1, ∅, { stream := .saying [ask "q" "query" [("statement", .string "x")]] }⟩
  inside := ⟨addsEnv, 1, ∅, { stream := .saying addsRow }⟩
  query := ⟨1, "q", none, .query, none, some "x"⟩
  begin := ⟨1, "b", none, .begin, none, none⟩
  queryInside := ⟨1, "q", none, .query, none, some "x"⟩
  commit := ⟨1, "c", none, .commit, none, none⟩

theorem decode_begin : Message.decodeRequest addsEnv.host (ask "b" "begin" []).write ∅
    = .ok ⟨1, "b", none, .begin, none, none⟩ := by decide +kernel

theorem decode_query :
    Message.decodeRequest addsEnv.host (ask "q" "query" [("statement", .string "x")]).write ∅
      = .ok ⟨1, "q", none, .query, none, some "x"⟩ := by decide +kernel

theorem decode_commit : Message.decodeRequest addsEnv.host (ask "c" "commit" []).write ∅
    = .ok ⟨1, "c", none, .commit, none, none⟩ := by decide +kernel

/-- What the client inside sends is read, frame by frame. -/
theorem addsTo_reads {n k : Nat} {body : String} {request : Request}
    (hbody : (addsRow.map Value.write)[k]? = some body)
    (hserved : ((addsTo n).inside.after (addsTo n).slot k).received addsEnv ≠ none)
    (houtstanding : ((addsTo n).inside.after (addsTo n).slot k).outstanding = ∅)
    (hdecode : Message.decodeRequest addsEnv.host body ∅ = .ok request) :
    ((addsTo n).inside.after (addsTo n).slot k).nextRequest addsEnv = some request := by
  have hcontent := (delivers_saying addsRow).2
  rw [← List.append_nil (List.flatMap _ _)] at hcontent
  refine Conversation.nextRequest_of_frames (delivers_saying addsRow).1 hcontent ?_ hbody hserved
    ?_
  · show ∀ body ∈ addsRow.map Value.write, Fits body 8388608
    decide +kernel
  · rw [houtstanding]
    exact hdecode

/-- Behind `begin`, if the connection is served there, stands its region. -/
theorem addsTo_begun {n : Nat}
    (hserved : ((addsTo n).inside.after (addsTo n).slot 1).received addsEnv ≠ none) :
    ∃ region outstanding world,
      (addsTo n).inside.after (addsTo n).slot 1 = .region region outstanding world ∧
        region.outstanding = ∅ := by
  have hfirst : ((addsTo n).inside.after (addsTo n).slot 0).nextRequest addsEnv
      = some (addsTo n).begin :=
    addsTo_reads rfl (by simp [Conversation.after, State.received]) rfl decode_begin
  rcases step_begin rfl rfl hfirst with
    ⟨error, -, -, hfailed, -⟩ | ⟨transaction, -, ⟨outstanding, world, -, hstep⟩ | ⟨world, hstep⟩⟩
  · cases hfailed
  · exact ⟨_, outstanding, world, hstep, rfl⟩
  · have hended : (addsTo n).inside.after (addsTo n).slot 1 = .ended .transportFailed _ world :=
      hstep
    rw [hended] at hserved
    exact absurd rfl hserved

/-- Behind the query too. -/
theorem addsTo_queried {n : Nat}
    (hserved : ((addsTo n).inside.after (addsTo n).slot 2).received addsEnv ≠ none) :
    ∃ region outstanding world,
      (addsTo n).inside.after (addsTo n).slot 2 = .region region outstanding world ∧
        region.outstanding = ∅ := by
  have hbefore : ((addsTo n).inside.after (addsTo n).slot 1).received addsEnv ≠ none :=
    fun hended => hserved (TwoWays.after_succ_of_ended hended ▸ hended)
  obtain ⟨region, outstanding, world, hregion, hnone⟩ := addsTo_begun hbefore
  have hsecond : ((addsTo n).inside.after (addsTo n).slot 1).nextRequest addsEnv
      = some (addsTo n).queryInside :=
    addsTo_reads rfl hbefore (by rw [hregion]; exact hnone) decode_query
  have hafter : (addsTo n).inside.after (addsTo n).slot 2
      = step addsEnv 1 (.region region outstanding world) := by
    rw [TwoWays.after_succ, hregion]
    rfl
  rw [hregion] at hsecond
  obtain ⟨-, -, -, -, ⟨-, region', outstanding', world', -, -, hids, hstep⟩ | ⟨world', hstep⟩⟩ :=
    @step_query_inside _ addsEnv 1 _ _ _ _ _ rfl rfl hsecond
  · rw [hnone, Finset.erase_insert (Finset.notMem_empty _)] at hids
    exact ⟨region', outstanding', world', hafter.trans hstep, hids⟩
  · rw [hafter, hstep] at hserved
    exact absurd rfl hserved

theorem addsTo_sends_alone (n : Nat) :
    (addsTo n).alone.Sends (addsTo n).slot [(addsTo n).query] := by
  rintro (_ | k) request hrequest hserved
  · cases hrequest
    have hcontent := (delivers_saying [ask "q" "query" [("statement", .string "x")]]).2
    rw [← List.append_nil (List.flatMap _ _)] at hcontent
    refine Conversation.nextRequest_of_frames (delivers_saying _).1 hcontent ?_ rfl hserved
      decode_query
    show ∀ body ∈ [(ask "q" "query" [("statement", .string "x")]).write], Fits body 8388608
    decide +kernel
  · cases hrequest

theorem addsTo_sends_inside (n : Nat) : (addsTo n).inside.Sends (addsTo n).slot
    [(addsTo n).begin, (addsTo n).queryInside, (addsTo n).commit] := by
  rintro (_ | _ | _ | k) request hrequest hserved
  · cases hrequest
    exact addsTo_reads rfl hserved rfl decode_begin
  · cases hrequest
    obtain ⟨region, outstanding, world, hregion, hnone⟩ := addsTo_begun hserved
    exact addsTo_reads rfl hserved (by rw [hregion]; exact hnone) decode_query
  · cases hrequest
    obtain ⟨region, outstanding, world, hregion, hnone⟩ := addsTo_queried hserved
    exact addsTo_reads rfl hserved (by rw [hregion]; exact hnone) decode_commit
  · cases hrequest

theorem fair_addsTo (n : Nat) : (addsTo n).Fair where
  query := ⟨rfl, rfl, rfl⟩
  begin_operation := rfl
  begin_session := rfl
  queryInside := ⟨rfl, rfl, rfl⟩
  commit_operation := rfl
  ceiling := rfl
  no_timeout transaction _ := by
    have hdeadline (d d' : Engine.journal.Deadline) : d = d' := rfl
    exact congrArg (attempt Engine.journal "x" transaction) (hdeadline _ _)
  no_conflict _ _ := ⟨_, rfl⟩
  sends_alone := addsTo_sends_alone n
  sends_inside := addsTo_sends_inside n

theorem journal_transactional : Engine.journal.Transactional id where
  begin_writes _ _ h := by
    cases h
    rfl
  run_error _ _ _ _ h := by cases h
  commit_empty transaction database h := by
    have hnil : transaction.2 = ([] : List String) :=
      List.length_eq_zero_iff.mp (by simpa [Engine.journal] using h)
    show List.append database transaction.2 = database
    rw [hnil]
    exact List.append_nil database
  rollback_discards _ _ := rfl
  columns _ _ _ _ _ := by
    simp [Engine.journal, get_json, OrdMap.ofList, OrdMap.insertAll, OrdMap.get?_insert]
  rows _ _ _ _ _ := by
    simp [Engine.journal, get_json, OrdMap.ofList, OrdMap.insertAll]

/-- A row added to a short one agrees both ways. -/
theorem TwoWays.auto_commit_agrees_short : (addsTo 3).Agrees id := by
  refine TwoWays.auto_commit_agrees journal_transactional (addsTo 3) (fair_addsTo 3) ?_
  have hserved : (((addsTo 3).inside.after (addsTo 3).slot 2).received addsEnv).isSome = true := by
    decide +kernel
  intro hnone
  have hnone : ((addsTo 3).inside.after (addsTo 3).slot 2).received addsEnv = none := hnone
  rw [hnone] at hserved
  cases hserved

/-- An answer with a row of `n` letters is longer than the row. -/
theorem size_answer (n : Nat) (request : Request) (generation : UInt64) (writes : Option Nat) :
    n ≤ (answer Engine.journal 1 request Limits.default generation writes
      (.ok [longRow n, "x"])).write.utf8ByteSize := by
  have hfew : [longRow n, "x"].length ≤ Limits.default.maxResultRows := Nat.le_add_left 2 99998
  have hsize := size_row 1 request generation writes Limits.default List.mem_cons_self hfew
  rw [size_longRow] at hsize
  exact hsize

/-- A row added to one of the frame limit's length is committed by itself,
and rolled back inside. -/
theorem TwoWays.long_answer_rolled_back :
    ¬ ∀ t : TwoWays Engine.journal, t.Fair → t.Agrees id := by
  intro h
  obtain ⟨n, hn⟩ : ∃ n, n = 8388609 := ⟨_, rfl⟩
  have hlost : ((addsTo n).inside.after (addsTo n).slot 2).received addsEnv = none := by
    by_contra hserved
    rcases inside_begun (fair_addsTo n) rfl with
      ⟨hlost, -⟩ | ⟨-, -, -, -, -, -, -, generation, writes, before, -, hsent⟩
    · exact hserved hlost
    · have hlong : ¬ SendFits addsEnv (answer Engine.journal 1 (addsTo n).queryInside
          Limits.default generation writes (.ok [longRow n, "x"])) := by
        intro hfits
        have hlimit : (answer Engine.journal 1 (addsTo n).queryInside Limits.default generation
          writes (.ok [longRow n, "x"])).write.utf8ByteSize ≤ 8388608 := hfits
        have hsize := size_answer n (addsTo n).queryInside generation writes
        omega
      obtain ⟨error, herror⟩ := send_not_fits addsEnv before hlong
      have hresult := congrArg Prod.fst herror
      have hsent : (send addsEnv before (answer Engine.journal 1 (addsTo n).queryInside
        Limits.default generation writes (.ok [longRow n, "x"]))).1 = .ok () := hsent
      rw [hsent] at hresult
      cases hresult
  have hinside := inside_lost journal_transactional (fair_addsTo n) hlost
  obtain ⟨world, -, halone, -⟩ := alone_after id (fair_addsTo n)
  have hagrees := (h (addsTo n) (fair_addsTo n)).contents
  rw [halone, hinside] at hagrees
  have hrows : some [longRow n, "x"] = some [longRow n] := hagrees
  simp at hrows

end NostdbServer
