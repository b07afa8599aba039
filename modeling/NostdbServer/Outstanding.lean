import NostdbServer.Correlation

/-!
# Outstanding — the identifiers a loop decodes with

Either loop decodes with a set of identifiers that should be those of the
requests accepted and not yet answered. Every path through either loop
takes an identifier out again but one: the region answers a `query`
without a statement and goes on before its `remove`. The set is exact
wherever no such query stands in the open region
(`outstanding_exact_iff`).
-/

namespace NostdbServer

open Response

variable {E : Engine}

/-! ## What the log says -/

/-- The requests accepted and not yet answered, an event on. -/
def unansweredStep (waiting : Finset String) : Event E → Finset String
  | .decoded _ request => insert request.requestId waiting
  | .sent value _ =>
      match replyId value with
      | some id => waiting.erase id
      | none => waiting
  | _ => waiting

/-- The identifiers that were accepted and not yet answered. -/
def unanswered (log : List (Event E)) : Finset String := log.foldl unansweredStep ∅

/-- The queries without a statement in the open region, an event on. -/
def stuckStep (stuck : Finset String) : Event E → Finset String
  | .decoded .region request =>
      if request.operation = .query ∧ request.statement = none then insert request.requestId stuck
      else stuck
  | .began _ => ∅
  | .committed _ _ _ _ => ∅
  | .rolledBack _ => ∅
  | _ => stuck

/-- The identifiers of the queries without a statement that were decoded
in the region that is open. -/
def stuck (log : List (Event E)) : Finset String := log.foldl stuckStep ∅

@[simp] theorem unanswered_append (log events : List (Event E)) :
    unanswered (log ++ events) = events.foldl unansweredStep (unanswered log) :=
  List.foldl_append

@[simp] theorem stuck_append (log events : List (Event E)) :
    stuck (log ++ events) = events.foldl stuckStep (stuck log) := List.foldl_append

theorem unanswered_about {asked : Option Request} {events : List (Event E)}
    (h : ∀ e ∈ events, e.About asked) (waiting : Finset String) :
    events.foldl unansweredStep waiting = waiting := by
  induction events with
  | nil => rfl
  | cons e rest ih =>
    obtain ⟨-, hreply, hdecoded, -⟩ := h e List.mem_cons_self
    have hstep : unansweredStep waiting e = waiting := by
      cases e with
      | decoded place request => exact absurd rfl (hdecoded place request)
      | sent value result => cases hreply
      | _ => rfl
    rw [List.foldl_cons, hstep]
    exact ih (fun e' he' => h e' (List.mem_cons_of_mem _ he'))

theorem stuck_about {asked : Option Request} {events : List (Event E)}
    (h : ∀ e ∈ events, e.About asked) : events.foldl stuckStep ∅ = ∅ := by
  induction events with
  | nil => rfl
  | cons e rest ih =>
    obtain ⟨-, -, hdecoded, -⟩ := h e List.mem_cons_self
    have hstep : stuckStep ∅ e = ∅ := by
      cases e with
      | decoded place request => exact absurd rfl (hdecoded place request)
      | _ => rfl
    rw [List.foldl_cons, hstep]
    exact ih (fun e' he' => h e' (List.mem_cons_of_mem _ he'))

/-! ## Every request is answered before the next read -/

/-- The step lemma of answers, as a count: nothing waits behind a step. -/
theorem unanswered_step (env : Env E) (version : UInt64) {state : State E}
    (h : unanswered state.world.log = ∅) :
    unanswered (step env version state).world.log = ∅ := by
  cases hread : state.received env with
  | none =>
    rw [step_of_received_none _ hread]
    exact h
  | some read =>
    obtain ⟨place, result, world⟩ := read
    obtain ⟨before, reply, after, hlog, hbefore, hafter, hreply⟩ := step_log env version hread
    have hworld : unanswered world.log = ∅ := by
      rw [State.received_log hread, unanswered_append, h]
      rfl
    rw [hlog, unanswered_append, hworld, List.foldl_append, List.foldl_append, List.foldl_append,
      unanswered_about (fun e he => Event.about_of_isEnd none (hafter e he)),
      unanswered_about hbefore]
    rcases hreply with ⟨rfl, error, hfailed⟩ | ⟨value, sent, rfl, hanswers⟩
    · rw [hfailed]
      rfl
    · have hid := hanswers.replyId
      simp only [opening, List.foldl_cons, List.foldl_nil, unansweredStep, hid]
      cases (heardRead env state.outstanding result).asked with
      | none => rfl
      | some request => simp [unansweredStep]

theorem unanswered_start (env : Env E) (stream : Stream) :
    unanswered (start env stream).2.world.log = ∅ := by
  have hread : unanswered (receive env .opening ({ stream } : World E)).2.log = ∅ := rfl
  have hhandshake : unanswered (handshake env { stream }).2.log = ∅ := by
    rcases handshake_world env { stream } with h | ⟨value, h⟩ <;> rw [h]
    · exact hread
    · show unanswered (_ ++ [.sent value _]) = ∅
      rw [unanswered_append, hread, List.foldl_cons, List.foldl_nil, unansweredStep]
      cases replyId value <;> simp
  rcases start_cases env stream with ⟨how, h⟩ | h <;> rw [h] <;> exact hhandshake

/-! ## What a loop's set holds -/

/-- Between frames the main loop's set is empty, and the region's holds
what is stuck. -/
def State.Tracked : State E → Prop
  | .main _ outstanding world => outstanding = ∅ ∧ stuck world.log = ∅
  | .region inner outstanding world => outstanding = ∅ ∧ inner.outstanding = stuck world.log
  | .ended _ _ world => stuck world.log = ∅

section

variable (env : Env E) (version : UInt64)

@[simp] theorem stuck_send (world : World E) (value : Value) :
    stuck (send env world value).2.log = stuck world.log := stuck_append _ _

theorem stuck_receive {place : Place} {before world : World E} {result : Except FrameError String}
    (hread : receive env place before = (result, world)) : stuck world.log = stuck before.log := by
  have hlog : world.log = before.log ++ [.read place result] := by
    cases hread
    rfl
  rw [hlog]
  exact stuck_append _ _

theorem stuck_acts {asked : Option Request} {w w' : World E} (hacts : Acts asked w w')
    (h : stuck w.log = ∅) : stuck w'.log = ∅ := by
  obtain ⟨⟨events, hlog, habout⟩, -⟩ := hacts
  rw [hlog, stuck_append, h, stuck_about habout]

theorem stuck_run (request : Request) (statement : String) (region : Region E) (world : World E) :
    stuck (region.run env version request statement world).2.2.log = stuck world.log := by
  unfold Region.run
  split
  · rfl
  · split <;> exact stuck_append _ _

/-- An identifier that was accepted is not in the set. -/
theorem fresh_of_heard {outstanding : Finset String} {result : Except FrameError String}
    {request : Request} (h : heardRead env outstanding result = .request request) :
    request.requestId ∉ outstanding := by
  cases result with
  | error error => cases h
  | ok body =>
    simp only [heardRead, heardBody] at h
    split at h
    · cases h
    · rename_i decoded hdecode
      cases h
      obtain ⟨object, -, -, hid⟩ := Message.decodeRequest_ok hdecode
      exact (Message.decodeRequestId_ok hid).2.2

theorem tracked_rollback (region : Region E) (how : RegionEnd) {outstanding : Finset String}
    (hmain : outstanding = ∅) (world : World E) :
    (State.ofRegion outstanding (region.rollback how world)).Tracked := by
  have hreset : stuck (world.log ++ [.rolledBack
      (E.rollback region.transaction region.session.database)]) = ∅ := stuck_append _ _
  cases how with
  | «continue» => exact ⟨hmain, hreset⟩
  | clientClosed =>
    show stuck ((world.log ++ [.rolledBack _]) ++ [.closed]) = ∅
    rw [stuck_append, hreset]
    rfl
  | transportFailed => exact hreset

/-- A region goes on with its set as it should be, or is rolled back. -/
theorem tracked_reply (value : Value) {region : Region E} {outstanding : Finset String}
    {world : World E} (hmain : outstanding = ∅) (h : region.outstanding = stuck world.log) :
    ((region.reply value outstanding world).settle env).Tracked := by
  refine Exchange.settle env _ ⟨hmain, ?_⟩ (tracked_rollback region .transportFailed hmain _)
  rw [h, stuck_send]

theorem tracked_courseOf {request : Request} {region : Region E} {outstanding : Finset String}
    {world : World E} (hmain : outstanding = ∅) (h : region.outstanding = stuck world.log)
    (hfresh : request.requestId ∉ region.outstanding) :
    ((region.courseOf env version request outstanding
      (world.logging [.decoded .region request])).settle env).Tracked := by
  have herase : (insert request.requestId region.outstanding).erase request.requestId
      = region.outstanding := Finset.erase_insert hfresh
  have hdecoded (hnot : ¬ (request.operation = .query ∧ request.statement = none)) :
      region.outstanding = stuck (world.logging [.decoded .region request]).log := by
    rw [World.log_logging, stuck_append, ← h, List.foldl_cons, List.foldl_nil, stuckStep,
      if_neg hnot]
  unfold Region.courseOf
  simp only
  split
  · rw [settle_unchecked]
    refine ⟨hmain, ?_⟩
    rw [stuck_send, World.log_logging, stuck_append]
    rfl
  · rw [settle_unchecked]
    refine ⟨hmain, ?_⟩
    rw [stuck_send, World.log_logging, stuck_append]
    rfl
  · rename_i hop
    split
    · rename_i hnone
      -- the identifier stays in the set, and is stuck
      rw [settle_unchecked]
      refine ⟨hmain, ?_⟩
      rw [stuck_send, World.log_logging, stuck_append, ← h, List.foldl_cons, List.foldl_nil,
        stuckStep, if_pos ⟨hop, hnone⟩]
    · rename_i statement hsome
      refine tracked_reply env _ hmain ?_
      rw [stuck_run]
      exact herase.trans (hdecoded (fun hnot => by rw [hsome] at hnot; cases hnot.2))
  all_goals
    rename_i hop
    refine tracked_reply env _ hmain ?_
    exact herase.trans (hdecoded (fun hnot => by rw [hop] at hnot; cases hnot.1))

theorem tracked_begin (begin : Request) (slot : Slot E.Database) {outstanding : Finset String}
    {world : World E} (hmain : outstanding = ∅) (h : stuck world.log = ∅) :
    ((beginCourse version begin slot outstanding world).settle env).Tracked := by
  unfold beginCourse
  split
  · rw [settle_unchecked]
    exact ⟨hmain, (stuck_send env _ _).trans h⟩
  · split
    · rw [settle_unchecked]
      exact ⟨hmain, (stuck_send env _ _).trans h⟩
    · refine tracked_reply env _ hmain ?_
      rw [World.log_logging, stuck_append]
      rfl

theorem tracked_mainCourse (slot : Slot E.Database) {outstanding : Finset String} {world : World E}
    (heard : Heard) (hmain : outstanding = ∅) (h : stuck world.log = ∅) :
    ((mainCourse env version slot outstanding world heard).settle env).Tracked := by
  have hclosed (how : Ended) (slot : Slot E.Database) {world : World E}
      (h : stuck world.log = ∅) : (endedClosed how slot world).Tracked := by
    show stuck (world.log ++ [.closed]) = ∅
    rw [stuck_append, h]
    rfl
  unfold mainCourse
  split
  · exact hclosed _ _ h
  · rw [settle_unchecked]
    exact (stuck_send env _ _).trans h
  · exact h
  · rw [settle_unchecked]
    exact ⟨hmain, (stuck_send env _ _).trans h⟩
  · rename_i request
    have hdecoded : stuck (world.logging [.decoded .main request]).log = ∅ := by
      rw [World.log_logging, stuck_append, h]
      rfl
    have hdispatch := stuck_acts (acts_dispatch env version request slot _) hdecoded
    have hempty : (insert request.requestId outstanding).erase request.requestId = ∅ := by
      simp [hmain]
    unfold mainCourseOf
    simp only [hempty]
    generalize dispatch env version request slot (world.logging [.decoded .main request]) = out
      at hdispatch
    obtain ⟨reply, slot', world'⟩ := out
    cases reply with
    | send value =>
      have hsent := (stuck_send env world' value).trans hdispatch
      exact Exchange.settle env ⟨value, world', .main slot' ∅, .ended .transportFailed slot'⟩
        ⟨rfl, hsent⟩ hsent
    | transaction => exact tracked_begin env version request slot' rfl hdispatch
    | shutdown value =>
      simp only [settle_unchecked]
      exact hclosed _ _ ((stuck_send env _ _).trans hdispatch)

/-- The step lemma of the sets. -/
theorem tracked_step {state : State E} (h : state.Tracked) : (step env version state).Tracked := by
  cases hread : state.received env with
  | none =>
    rw [step_of_received_none _ hread]
    exact h
  | some read =>
    obtain ⟨place, result, world⟩ := read
    rw [step_eq_settle env version hread]
    cases state with
    | main slot outstanding before =>
      cases hread
      obtain ⟨hmain, hstuck⟩ := h
      exact tracked_mainCourse env version slot _ hmain ((stuck_receive env rfl).trans hstuck)
    | region region outstanding before =>
      cases hread
      obtain ⟨hmain, hset⟩ := h
      have hset' : region.outstanding = stuck (receive env .region before).2.log :=
        hset.trans (stuck_receive env rfl).symm
      simp only [State.course, State.outstanding]
      unfold Region.course
      split
      · exact tracked_rollback region .clientClosed hmain _
      · exact tracked_rollback region .transportFailed hmain _
      · exact tracked_reply env _ hmain hset'
      · rename_i request hheard
        exact tracked_courseOf env version hmain hset' (fresh_of_heard env hheard)
    | ended how slot before => cases hread

theorem tracked_start (stream : Stream) : (start env stream).2.Tracked := by
  have hstuck : stuck (handshake env { stream }).2.log = ∅ := by
    have hread : stuck (receive env .opening ({ stream } : World E)).2.log = ∅ :=
      stuck_receive env rfl
    rcases handshake_world env { stream } with h | ⟨value, h⟩ <;> rw [h]
    · exact hread
    · exact (stuck_send env _ _).trans hread
  rcases start_cases env stream with ⟨how, h⟩ | h <;> rw [h]
  · exact hstuck
  · exact ⟨rfl, hstuck⟩

end

theorem State.Tracked.outstanding {state : State E} (h : state.Tracked) :
    state.outstanding = stuck state.world.log := by
  cases state with
  | main slot outstanding world => exact h.1.trans h.2.symm
  | region region outstanding world => exact h.2
  | ended how slot world => exact Eq.symm h

/-! ## When the set is exact -/

/-- Whether a body is accepted depends on the set by its identifier alone. -/
theorem decodeRequest_outstanding {host : Host} {body : String} {request : Request}
    (h : Message.decodeRequest host body ∅ = .ok request) (outstanding : Finset String) :
    Message.decodeRequest host body outstanding
      = if request.requestId ∈ outstanding then
          .error ⟨.requestIdAbsent,
            "request_id " ++ request.requestId ++ " is already outstanding on this connection"⟩
        else .ok request := by
  obtain ⟨object, hobject, hversion, hid⟩ := Message.decodeRequest_ok h
  obtain ⟨hstated, hne, -⟩ := Message.decodeRequestId_ok hid
  have hid' : Message.decodeRequestId object outstanding
      = if request.requestId ∈ outstanding then
          .error ⟨.requestIdAbsent,
            "request_id " ++ request.requestId ++ " is already outstanding on this connection"⟩
        else .ok request.requestId := by
    simp only [Message.decodeRequestId, hstated, Option.bind_some, Value.asStr, if_neg hne]
  unfold Message.decodeRequest at h ⊢
  simp only [hobject, hversion, hid, hid'] at h ⊢
  by_cases hhello : (object.get? "message").bind Value.asStr = some "hello"
  · rw [if_pos hhello] at h
    cases h
  · rw [if_neg hhello] at h ⊢
    by_cases hmem : request.requestId ∈ outstanding
    · simp only [if_pos hmem]
    · simp only [if_neg hmem]
      exact h

/-- What is said of the set a state's loop decodes with. -/
structure OutstandingAt (env : Env E) (state : State E) : Prop where
  /-- It holds what was accepted and not answered exactly where nothing is stuck. -/
  exact_iff : state.outstanding = unanswered state.world.log ↔ stuck state.world.log = ∅
  /-- In the main loop nothing ever is. -/
  main : ∀ slot outstanding world, state = .main slot outstanding world →
    outstanding = ∅ ∧ stuck world.log = ∅
  /-- A request is refused as outstanding exactly where its identifier is stuck. -/
  reused : ∀ body request, Message.decodeRequest env.host body ∅ = .ok request →
    Message.decodeRequest env.host body state.outstanding
      = if request.requestId ∈ stuck state.world.log then
          .error ⟨.requestIdAbsent,
            "request_id " ++ request.requestId ++ " is already outstanding on this connection"⟩
        else .ok request

/-- **When the set is exact**: at every moment a loop is about to read, all
requests have been answered, so it should be empty, and it is exactly
where no query without a statement was decoded in the open region. -/
theorem outstanding_exact_iff (env : Env E) (stream : Stream) (n : Nat) :
    unanswered (connection env stream n).world.log = ∅ ∧
      OutstandingAt env (connection env stream n) := by
  have hwaiting : unanswered (connection env stream n).world.log = ∅ := by
    have hstart : unanswered (start env stream).2.world.log = ∅ := unanswered_start env stream
    have hstep (state : State E) (h : unanswered state.world.log = ∅) :
        unanswered (step env (start env stream).1 state).world.log = ∅ := unanswered_step env _ h
    exact connection_invariant hstep hstart n
  have htracked : (connection env stream n).Tracked :=
    connection_invariant (fun _ h => tracked_step env _ h) (tracked_start env stream) n
  have houtstanding := htracked.outstanding
  refine ⟨hwaiting, ?_, ?_, ?_⟩
  · rw [hwaiting, houtstanding]
  · intro slot outstanding world hstate
    rw [hstate] at htracked
    exact htracked
  · intro body request h
    rw [decodeRequest_outstanding h, houtstanding]

/-! ## A query without a statement -/

/-- A client that opens a session and a transaction and forgets the
statement of a query. -/
def forgetsStatement : List Value :=
  [sayHello, ask "r1" "open_session" [("database", .string "work")], ask "r2" "begin" [],
    ask "q1" "query" []]

/-- A daemon that reads them, under the default limits. -/
def forgetsEnv : Env Engine.journal := Env.conversing Limits.default workCatalog forgetsStatement

/-- The query is answered, and its identifier stays in the set. -/
theorem outstanding_not_exact :
    ¬ ∀ (env : Env Engine.journal) stream n, (connection env stream n).received env ≠ none →
      (connection env stream n).outstanding = unanswered (connection env stream n).world.log := by
  intro h
  have hboth :
      (connection forgetsEnv (.saying forgetsStatement) 3).outstanding = {"q1"} ∧
        unanswered (connection forgetsEnv (.saying forgetsStatement) 3).world.log = ∅ := by
    decide +kernel
  obtain ⟨hset, hwaiting⟩ := hboth
  have hlive : (connection forgetsEnv (.saying forgetsStatement) 3).received forgetsEnv ≠ none := by
    intro hnone
    cases hstate : connection forgetsEnv (.saying forgetsStatement) 3 with
    | ended how slot world =>
      rw [hstate] at hset
      exact absurd hset.symm (Finset.singleton_ne_empty _)
    | _ =>
      rw [hstate] at hnone
      cases hnone
  have heq := h forgetsEnv (.saying forgetsStatement) 3 hlive
  rw [hset, hwaiting] at heq
  exact absurd heq (Finset.singleton_ne_empty _)

end NostdbServer
