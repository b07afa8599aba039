import NostdbServer.Handling
import NostdbServer.SessionHistory

/-!
# QueryDatabase — the database a query runs on

A query may carry a `database`. Decoding checks its shape, and nothing
looks at it again: the statement runs on the session the connection
holds. `query_database_iff` says when that is the database named, for one
query in any state a connection reaches and for whole runs.
-/

namespace NostdbServer

open Response

variable {E : Engine}

/-- The session is one the connection opened under the name `d`, at the
path the catalog had for it. -/
def OpenedUnder (env : Env E) (log : List (Event E)) (session : Session E.Database) (d : String) :
    Prop :=
  (∃ opened ∈ sessions log, opened.Same session ∧ opened.name = d) ∧
    ∃ n catalog entry, Catalog.load env.host (env.catalogAt n) = .ok catalog ∧
      catalog.get d = some entry ∧ entry.path = session.path

/-- The statement of a query gets as far as the Engine: outside a region
it has a session, parses and begins a transaction, inside one it parses. -/
def State.Reaches (request : Request) : State E → Prop
  | .main slot _ _ => ∃ session statement query transaction,
      slot.resolve request.sessionId = .ok session ∧ request.statement = some statement ∧
        E.parse statement = .ok query ∧ E.begin session.database = .ok transaction
  | .region _ _ _ => ∃ statement query,
      request.statement = some statement ∧ E.parse statement = .ok query
  | .ended _ _ _ => False

section

variable (env : Env E) (version : UInt64)

/-- Replies, ends and begins execute nothing. -/
theorem unseen_execution : Unseen (Event.execution (E := E)) where
  sent _ _ := rfl
  ends e h := by cases e <;> first | rfl | cases h
  began _ := rfl

theorem executions_reply (value : Value) (region : Region E) (outstanding : Finset String)
    (world : World E) :
    executions ((region.reply value outstanding world).settle env).world.log
      = executions world.log := unseen_execution.reply value region outstanding world

/-- Handling a request inside a region executes what its course does. -/
theorem executions_handle (request : Request) (region : Region E) (outstanding : Finset String)
    (world : World E) :
    executions (region.handle env version request world).world.log
      = executions
          ((region.courseOf env version request outstanding world).settle env).world.log := by
  rw [← Region.handle_eq_settle]
  exact (unseen_execution.ofRegion outstanding _).symm

/-! ## What handling a request executes -/

/-- A query outside a region is executed on the session held if it
reaches the Engine, and not at all if it does not. -/
theorem executions_queryOnce (request : Request) (slot : Slot E.Database)
    (outstanding : Finset String) (world : World E) :
    (¬ (State.main slot outstanding world).Reaches request ∧
      executions (queryOnce env version request slot world).2.2.log = executions world.log) ∨
    ((State.main slot outstanding world).Reaches request ∧ ∃ session,
      slot.session = some session ∧
      executions (queryOnce env version request slot world).2.2.log
        = executions world.log ++ [(request, session)]) := by
  unfold queryOnce State.Reaches
  cases hresolve : slot.resolve request.sessionId with
  | error refusal => exact .inl ⟨by simp [hresolve], rfl⟩
  | ok session =>
    have hsession := (Slot.resolve_eq_ok_iff.mp hresolve).1
    cases hstatement : request.statement with
    | none => exact .inl ⟨by simp, rfl⟩
    | some statement =>
      simp only [runOne]
      cases hparse : E.parse statement with
      | error error => exact .inl ⟨by simp [hparse], rfl⟩
      | ok query =>
        cases hbegin : E.begin session.database with
        | error error =>
          refine .inl ⟨?_, rfl⟩
          rintro ⟨session', -, -, transaction, hsession', -, -, hbegin'⟩
          cases hresolve.symm.trans hsession'
          cases hbegin.symm.trans hbegin'
        | ok transaction =>
          refine .inr ⟨⟨session, statement, query, transaction, hresolve, rfl, hparse, hbegin⟩,
            session, hsession, ?_⟩
          simp only
          split
          · simp only [World.log_running, executions_append]
            rfl
          · split
            · split <;> (simp only [World.log_running, executions_append]; rfl)
            · simp only [World.log_running, executions_append]
              rfl

/-- The same inside a region, whose session is the one borrowed. -/
theorem executions_handle_query {request : Request} (hop : request.operation = .query)
    (region : Region E) (outstanding : Finset String) (world : World E) :
    (¬ (State.region region outstanding world).Reaches request ∧
      executions (region.handle env version request world).world.log = executions world.log) ∨
    ((State.region region outstanding world).Reaches request ∧
      executions (region.handle env version request world).world.log
        = executions world.log ++ [(request, region.session)]) := by
  rw [executions_handle env version request region outstanding]
  unfold State.Reaches
  simp only [Region.courseOf, hop]
  cases hstatement : request.statement with
  | none =>
    refine .inl ⟨by simp, ?_⟩
    exact unseen_execution.unchecked _ _ (fun _ => .refl _ _)
  | some statement =>
    simp only [Region.settled, executions_reply, Region.run]
    cases hparse : E.parse statement with
    | error error => exact .inl ⟨by simp [hparse], rfl⟩
    | ok query =>
      refine .inr ⟨⟨statement, query, rfl, hparse⟩, ?_⟩
      simp only
      split <;> (simp only [World.log_running, executions_append]; rfl)

/-- Handling a query, in any state. -/
theorem executions_handled {request : Request} (hop : request.operation = .query)
    (state : State E) :
    (¬ state.Reaches request ∧
      executions (state.handled env version request).log = executions state.world.log) ∨
    (state.Reaches request ∧ ∃ session, state.slot.session = some session ∧
      executions (state.handled env version request).log
        = executions state.world.log ++ [(request, session)]) := by
  cases state with
  | main slot outstanding world =>
    have h := executions_queryOnce env version request slot outstanding world
    simp only [State.handled, dispatch, hop]
    exact h
  | region region outstanding world =>
    rcases executions_handle_query env version hop region outstanding world with h | ⟨hreach, h⟩
    · exact .inl h
    · exact .inr ⟨hreach, region.session, rfl, h⟩
  | ended how slot world => exact .inl ⟨id, rfl⟩

theorem executions_openSession (request : Request) (slot : Slot E.Database) (world : World E) :
    executions (openSession env version request slot world).2.2.log = executions world.log := by
  unfold openSession
  split
  · rfl
  · simp only
    split
    · simp only [World.log_loading, executions_append]
      exact List.append_nil _
    · rename_i name _ catalog _
      have hattached (slot' : Slot E.Database) (result : Except OpenError SessionId) :
          executions (attachedBy slot' result : List (Event E)) = [] := by
        cases result with
        | error error => rfl
        | ok id => cases hs : slot'.session <;> simp [attachedBy, hs] <;> rfl
      simp only [World.log_logging, World.log_opening, World.log_loading, executions_append,
        executions_opened, hattached, List.append_nil]
      exact List.append_nil _

/-- Only a query executes anything. -/
theorem executions_handled_other {request : Request} (hop : request.operation ≠ .query)
    (state : State E) :
    executions (state.handled env version request).log = executions state.world.log := by
  cases state with
  | main slot outstanding world =>
    simp only [State.handled, dispatch]
    split
    · exact executions_openSession env version request slot world
    · simp only [World.log_logging, executions_append]
      exact List.append_nil _
    · rfl
    · rfl
    · rename_i hquery
      exact absurd hquery hop
    · split <;> rfl
    · rfl
    · rfl
  | region region outstanding world =>
    simp only [State.handled]
    rw [executions_handle env version request region outstanding]
    simp only [Region.courseOf]
    split
    · exact (unseen_execution.unchecked _ _ (fun _ => .refl _ _)).trans
        (filterMap_logging rfl world)
    · exact (unseen_execution.unchecked _ _ (fun _ => .refl _ _)).trans
        (filterMap_logging rfl world)
    · rename_i hquery
      exact absurd hquery hop
    all_goals exact executions_reply env _ _ outstanding world
  | ended how slot world => rfl

/-! ## One step -/

/-- **The step lemma**: a step executes nothing, or the query it read, on
the session the state holds. -/
theorem executions_step (state : State E) :
    executions (step env version state).world.log = executions state.world.log ∨
    ∃ request session, state.nextRequest env = some request ∧ request.operation = .query ∧
      state.Reaches request ∧ state.slot.session = some session ∧
      executions (step env version state).world.log
        = executions state.world.log ++ [(request, session)] := by
  cases hread : state.received env with
  | none => exact .inl (by rw [step_of_received_none version hread])
  | some received =>
    obtain ⟨place, result, world⟩ := received
    rw [executions, unseen_execution.step version (fun _ _ => rfl) hread]
    cases hheard : heardRead env state.outstanding result with
    | request request =>
      -- the frame and its decoding are logged, and execute nothing
      have hdecoded : executions (world.logging [.decoded place request]).log
          = executions state.world.log := by
        rw [World.log_logging, State.received_log hread, executions_append, executions_append]
        exact (List.append_nil _).trans (List.append_nil _)
      have hnext := nextRequest_of_heard env hread hheard
      simp only
      generalize world.logging [.decoded place request] = world' at hdecoded ⊢
      have hworld : executions (state.withWorld world').world.log = executions state.world.log := by
        cases state <;> exact hdecoded
      by_cases hop : request.operation = .query
      · rcases executions_handled env version hop (state.withWorld world')
          with ⟨-, h⟩ | ⟨hreach, session, hsession, h⟩
        · exact .inl (h.trans hworld)
        · refine .inr ⟨request, session, hnext, hop, ?_, ?_, hworld ▸ h⟩
          · cases state <;> exact hreach
          · cases state <;> exact hsession
      · exact .inl ((executions_handled_other env version hop _).trans hworld)
    | _ => exact .inl rfl

end

/-! ## When a query runs on the database it names -/

/-- What a client has to keep to: its query names the database of the
session held, or does not reach the Engine. -/
def State.Agrees (state : State E) (request : Request) (d : String) : Prop :=
  (∀ session, state.slot.session = some session → session.name = d) ∨ ¬ state.Reaches request

/-- Every session of the log was opened under its own name. -/
theorem Past.openedUnder {env : Env E} {slot : Slot E.Database} {log : List (Event E)}
    (h : Past env slot log) {opened session : Session E.Database} (hmem : opened ∈ sessions log)
    (hsame : opened.Same session) : OpenedUnder env log session session.name := by
  obtain ⟨n, catalog, entry, hload, hentry, hpath⟩ := h.entries opened hmem
  exact ⟨⟨opened, hmem, hsame, hsame.2.1⟩, n, catalog, entry, hload, hsame.2.1 ▸ hentry,
    hpath.trans hsame.2.2⟩

theorem OpenedUnder.name_eq {env : Env E} {log : List (Event E)} {session : Session E.Database}
    {d : String} (h : OpenedUnder env log session d) : session.name = d := by
  obtain ⟨⟨opened, -, hsame, hname⟩, -⟩ := h
  rw [← hsame.2.1, hname]

/-- A run whose queries keep to `Agrees` executed each on a session of
the name it gave. -/
theorem agreeing_run (env : Env E) (stream : Stream) (n : Nat)
    (h : ∀ k < n, ∀ request d, (connection env stream k).nextRequest env = some request →
      request.operation = .query → request.database = some d →
      (connection env stream k).Agrees request d) :
    ∀ p ∈ executions (connection env stream n).world.log, ∀ d, p.1.database = some d →
      p.2.name = d := by
  induction n with
  | zero =>
    -- the handshake held no session to execute on
    intro p hp
    obtain ⟨events, hlog, -, -, hran, -⟩ := grows_start env stream
    have hlog : (start env stream).2.world.log = events := hlog
    obtain ⟨session, hsession, -⟩ := hran p (hlog ▸ hp)
    cases hsession
  | succ n ih =>
    intro p hp d hd
    have hbefore := ih (fun k hk => h k (Nat.lt_succ_of_lt hk))
    rw [connection_succ] at hp
    rcases executions_step env (start env stream).1 (connection env stream n) with
      hsame | ⟨request, session, hnext, hop, hreach, hsession, hadd⟩
    · exact hbefore p (hsame ▸ hp) d hd
    · rw [hadd, List.mem_append, List.mem_singleton] at hp
      rcases hp with hp | rfl
      · exact hbefore p hp d hd
      · rcases h n (Nat.lt_succ_self n) request d hnext hop hd with hname | hnot
        · exact hname session hsession
        · exact absurd hreach hnot

/-- **When a query runs on the database it names**: in any state a
connection reaches, exactly when it names that of the session held or
does not reach the Engine; and a run whose queries keep to that has run
every one of them on the database it names. -/
theorem query_database_iff (env : Env E) (stream : Stream) :
    (∀ n version request d, request.operation = .query → request.database = some d →
      ((∀ added, executions ((connection env stream n).handled env version request).log
            = executions (connection env stream n).world.log ++ added →
          ∀ p ∈ added, OpenedUnder env (connection env stream n).world.log p.2 d) ↔
        (connection env stream n).Agrees request d)) ∧
    (∀ n, (∀ k < n, ∀ request d, (connection env stream k).nextRequest env = some request →
        request.operation = .query → request.database = some d →
          (connection env stream k).Agrees request d) →
      ∀ p ∈ executions (connection env stream n).world.log, ∀ d, p.1.database = some d →
        OpenedUnder env (connection env stream n).world.log p.2 d) := by
  have hpast (n : Nat) : Past env (connection env stream n).slot
      (connection env stream n).world.log := past_run env stream n
  constructor
  · intro n version request d hop hd
    rcases executions_handled env version hop (connection env stream n)
      with ⟨hnot, h⟩ | ⟨hreach, session, hsession, h⟩
    · refine iff_of_true ?_ (.inr hnot)
      intro added hadded
      rw [h, List.self_eq_append_right] at hadded
      simp [hadded]
    · have hadded : ∀ added, executions ((connection env stream n).handled env version request).log
          = executions (connection env stream n).world.log ++ added
            ↔ [(request, session)] = added := by
        intro added
        rw [h, List.append_cancel_left_eq]
      constructor
      · intro hall
        have hopened := hall [(request, session)] ((hadded _).mpr rfl) (request, session) (by simp)
        refine .inl (fun held hheld => ?_)
        cases hsession.symm.trans hheld
        exact hopened.name_eq
      · rintro (hname | hnot) added hadd p hp
        · obtain rfl := (hadded added).mp hadd
          obtain rfl := List.mem_singleton.mp hp
          obtain ⟨opened, hlast, hsame⟩ := (hpast n).held session hsession
          exact hname session hsession ▸ (hpast n).openedUnder (List.mem_of_getLast? hlast) hsame
        · exact absurd hreach hnot
  · intro n h p hp d hd
    obtain ⟨opened, hmem, hsame⟩ := (hpast n).ran p hp
    exact agreeing_run env stream n h p hp d hd ▸ (hpast n).openedUnder hmem hsame

/-! ## A query that names another database -/

/-- A catalog of two names. -/
def twoDatabases : Value :=
  Value.json [("catalog_version", Value.u64 1), ("databases", Value.json [
    ("other", Value.json [("path", .string "/srv/other")]),
    ("work", Value.json [("path", .string "/srv/work")])])]

/-- A client that opens a session on `work`. -/
def openingWork : List Value :=
  [Value.json [("message", .string "hello"), ("supported_versions", .array [Value.u64 1])],
    Value.json [("server_protocol_version", Value.u64 1), ("request_id", .string "r1"),
      ("operation", .string "open_session"), ("database", .string "work")]]

/-- A daemon that reads them, under the default limits. -/
def workEnv : Env Engine.journal := Env.conversing Limits.default twoDatabases openingWork

/-- The connection once the session is open. -/
def workOpen : State Engine.journal := connection workEnv (.saying openingWork) 1

theorem workOpen_name : workOpen.slot.session.map Session.name = some "work" := by decide +kernel

/-- A query that names `work` runs on it. -/
theorem query_database_iff_work :
    ∀ added, executions (workOpen.handled workEnv 1 { addRow with database := some "work" }).log
        = executions workOpen.world.log ++ added →
      ∀ p ∈ added, OpenedUnder workEnv workOpen.world.log p.2 "work" := by
  refine ((query_database_iff workEnv (.saying openingWork)).1 1 1
    { addRow with database := some "work" } "work" rfl rfl).mpr (.inl (fun session hsession => ?_))
  have hname : workOpen.slot.session.map Session.name = some session.name :=
    congrArg (Option.map Session.name) hsession
  exact Option.some_inj.mp (hname.symm.trans workOpen_name)

/-- A query that names `other` runs on `work` as well. -/
theorem query_runs_on_another_database :
    ¬ ∀ (env : Env Engine.journal) stream n version request d, request.operation = .query →
      request.database = some d →
      ∀ added, executions ((connection env stream n).handled env version request).log
          = executions (connection env stream n).world.log ++ added →
        ∀ p ∈ added, OpenedUnder env (connection env stream n).world.log p.2 d := by
  intro h
  have hbefore : executions workOpen.world.log = [] :=
    List.length_eq_zero_iff.mp (by decide +kernel)
  have hadded : executions (workOpen.handled workEnv 1 { addRow with database := some "other" }).log
      = executions workOpen.world.log
        ++ executions
            (workOpen.handled workEnv 1 { addRow with database := some "other" }).log := by
    rw [hbefore, List.nil_append]
  have hnames : (executions (workOpen.handled workEnv 1
      { addRow with database := some "other" }).log).map (fun p => p.2.name) = ["work"] := by
    decide +kernel
  obtain ⟨p, hp, hname⟩ := List.exists_of_mem_map (hnames ▸ List.mem_singleton_self "work")
  have hopened := h workEnv (.saying openingWork) 1 1
      { addRow with database := some "other" } "other"
    rfl rfl _ hadded p hp
  exact absurd (hname.symm.trans hopened.name_eq) (by decide)

end NostdbServer
